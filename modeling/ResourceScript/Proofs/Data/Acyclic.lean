import ResourceScript.Data.Conversion
import ResourceScript.Proofs.Data.Printed
import ResourceScript.Proofs.Scope.OrderedMap
import ResourceScript.Proofs.Text.Pieces
/-!
# Data without cycles

The text of data fails only where printing does: at a container inside itself, or at an integer of
more digits than a numeral may have (`Data.onlyFails_toText`). The proof goes along the definitions of
the texts, as for printed forms; maps are written as JSON, which fails only at an integer of the data
that the map was made of (`Data.onlyFails_write_of_toPlain`).

So data in which no container is inside itself counts as a text and as a number unless a number is
beyond its limits (`Data.IsAcyclic.onlyFails`): the recursion through its parts ends.
-/

set_option autoImplicit false

namespace ResourceScript

open Text

/-! ### Failures of numbers -/

/-- Whether a failure is that of a number: a numeral that is too long or spells no integer, or a
number that is too great. -/
def Fault.IsLimit (cause : Fault) : Prop :=
  cause = .value ∨ cause = .overflow

theorem Fault.IsLimit.ne_recursion {cause : Fault} (h : cause.IsLimit) : cause ≠ .recursion := by
  rcases h with rfl | rfl <;> exact Fault.noConfusion

/-- A sort of causes together with the failures of numbers. -/
def OrLimit (P : Fault → Prop) (cause : Fault) : Prop :=
  cause.IsLimit ∨ P cause

namespace OnlyFails

variable {α β : Type} {P : Fault → Prop} {x : Except Fault α}

theorem orLimit (h : OnlyFails P x) : OnlyFails (OrLimit P) x :=
  h.mono fun _ ↦ Or.inr

theorem limit {only : Fault} (h : OnlyFails (only = ·) x) (honly : only.IsLimit) :
    OnlyFails (OrLimit P) x :=
  h.mono fun _ hcause ↦ Or.inl (hcause ▸ honly)

/-- What follows a computation fails with a cause of a sort, if it does so after all results that
the computation has. -/
theorem after {next : α → Except Fault β} (hx : OnlyFails P x)
    (hnext : ∀ a, x = .ok a → OnlyFails P (next a)) : OnlyFails P (x >>= next) := by
  cases x with
  | ok a => exact hnext a rfl
  | error stop =>
    intro cause h
    cases h
    exact hx stop rfl

end OnlyFails

namespace Numeral

theorem onlyFails_read (text : List Char) : OnlyFails (Fault.value = ·) (read text) := by
  unfold read wholeValue
  dsimp only
  split
  · split
    · exact (OnlyFails.error rfl).map _
    · exact .ok _
  · exact .ok _

end Numeral

/-! ### JSON texts -/

namespace Json

variable {P : Fault → Prop}

/-- The text of a list fails only where the text of an item does. -/
theorem onlyFails_writeItems {items : List Plain}
    (h : ∀ item ∈ items, OnlyFails P (write item)) : OnlyFails P (writeItems items) := by
  induction items with
  | nil => exact .ok _
  | cons item rest ih =>
    obtain ⟨hitem, hrest⟩ := List.forall_mem_cons.1 h
    cases rest with
    | nil =>
      rw [writeItems]
      exact hitem
    | cons next rest =>
      rw [writeItems]
      exact hitem.bind fun _ ↦ (ih hrest).bind fun _ ↦ .ok _

/-- The text of a map fails only where the text of a key or a value does. -/
theorem onlyFails_writeEntries {entries : List (Scalar × Plain)}
    (h : ∀ entry ∈ entries, OnlyFails P (keyText entry.1) ∧ OnlyFails P (write entry.2)) :
    OnlyFails P (writeEntries entries) := by
  induction entries with
  | nil => exact .ok _
  | cons entry rest ih =>
    obtain ⟨key, value⟩ := entry
    obtain ⟨⟨hkey, hvalue⟩, hrest⟩ := List.forall_mem_cons.1 h
    cases rest with
    | nil =>
      rw [writeEntries]
      exact hkey.bind fun _ ↦ hvalue.bind fun _ ↦ .ok _
    | cons next rest =>
      rw [writeEntries]
      exact hkey.bind fun _ ↦ hvalue.bind fun _ ↦ (ih hrest).bind fun _ ↦ .ok _

theorem onlyFails_write_list {items : List Plain}
    (h : ∀ item ∈ items, OnlyFails P (write item)) : OnlyFails P (write (.list items)) := by
  rw [write]
  exact (onlyFails_writeItems h).bind fun _ ↦ .ok _

theorem onlyFails_write_map {entries : List (Scalar × Plain)}
    (h : ∀ entry ∈ entries, OnlyFails P (keyText entry.1) ∧ OnlyFails P (write entry.2)) :
    OnlyFails P (write (.map (mapOfEntries Scalar.sameKey entries))) := by
  rw [write]
  exact (onlyFails_writeEntries (forall_mem_mapOfEntries (P := fun key ↦ OnlyFails P (keyText key))
    (Q := fun value ↦ OnlyFails P (write value)) h)).bind fun _ ↦ .ok _

end Json

namespace Data

/-! ### Plain data -/

/-- What fails only where the parts of data do. -/
theorem onlyFails_of_parts {α : Type} {data : Data} {x : Except Fault α}
    (h : OnlyFails (HaveBlock data.parts) x) : OnlyFails data.HasBlock x :=
  h.mono fun _ ↦ .of_parts

/-- Several things fail only where one of them does. -/
theorem onlyFails_cons {α β γ : Type} {item : Data} {rest : List Data} {x : Except Fault α}
    {y : Except Fault β} (hitem : OnlyFails item.HasBlock x) (hrest : OnlyFails (HaveBlock rest) y)
    (join : α → β → γ) : OnlyFails (HaveBlock (item :: rest)) (do return join (← x) (← y)) :=
  (hitem.mono fun _ ↦ .head).bind fun _ ↦ (hrest.mono fun _ ↦ .tail).bind fun _ ↦ .ok _

theorem onlyFails_keyText_of_scalarKey? {key : Data} {scalar : Scalar}
    (h : key.scalarKey? = some scalar) : OnlyFails key.HasBlock (Json.keyText scalar) := by
  cases key with
  | atom a =>
    cases a with
    | int n =>
      cases h
      exact (onlyFails_intText n).mono HasBlock.of_blocks
    | null | bool | real | text =>
      cases h
      exact .ok _
    | _ => cases h
  | _ => cases h

theorem onlyFails_leafText (data : Data) : OnlyFails data.HasBlock data.leafText := by
  unfold leafText
  split
  · exact .ok _
  · exact .ok _
  · exact .ok _
  · exact .ok _
  · exact .ok _
  · exact onlyFails_written true data

mutual

/-- The text of plain data fails only where the data has a part that makes printing fail. -/
theorem onlyFails_write_of_toPlain :
    ∀ (data : Data) (plain : Plain), data.toPlain = .ok plain →
      OnlyFails data.HasBlock (Json.write plain)
  | atom a, plain, h => by
    cases a with
    | int n =>
      cases h
      exact (onlyFails_intText n).mono HasBlock.of_blocks
    | null | bool | real | text =>
      cases h
      exact .ok _
    | url u =>
      cases h
      refine Json.onlyFails_write_list fun item hitem ↦ ?_
      obtain ⟨part, -, rfl⟩ := List.mem_map.1 hitem
      exact .ok _
    | _ =>
      obtain ⟨chars, -, heq⟩ := bind_eq_ok (x := leafText _) h
      cases heq
      exact .ok _
  | tuple items, plain, h | frozen items, plain, h | list items, plain, h | set items, plain, h => by
    rw [toPlain] at h
    obtain ⟨plains, hplains, heq⟩ := bind_eq_ok h
    cases heq
    refine onlyFails_of_parts ?_
    exact Json.onlyFails_write_list (onlyFails_write_of_plainItems items plains hplains)
  | map entries, plain, h | page entries _, plain, h | scope entries, plain, h => by
    rw [toPlain] at h
    obtain ⟨plains, hplains, heq⟩ := bind_eq_ok h
    cases heq
    refine onlyFails_of_parts ?_
    exact Json.onlyFails_write_map (onlyFails_write_of_plainEntries entries plains hplains)
  | call .., plain, h | side .., plain, h | object .., plain, h | buffer _, plain, h
  | resource .., plain, h => by
    obtain ⟨chars, hchars, heq⟩ := bind_eq_ok h
    cases heq
    exact .ok _
  | cycle, plain, h => by cases h

theorem onlyFails_write_of_plainItems :
    ∀ (items : List Data) (plains : List Plain), plainItems items = .ok plains →
      ∀ plain ∈ plains, OnlyFails (HaveBlock items) (Json.write plain)
  | [], plains, h => by
    cases h
    nofun
  | item :: rest, plains, h => by
    rw [plainItems] at h
    obtain ⟨plain, hplain, h⟩ := bind_eq_ok h
    obtain ⟨others, hothers, heq⟩ := bind_eq_ok h
    cases heq
    refine List.forall_mem_cons.2 ⟨?_, fun other hother ↦ ?_⟩
    · exact (onlyFails_write_of_toPlain item plain hplain).mono fun _ ↦ .head
    · exact (onlyFails_write_of_plainItems rest others hothers other hother).mono fun _ ↦ .tail

theorem onlyFails_write_of_plainEntries :
    ∀ (entries : List (Data × Data)) (plains : List (Scalar × Plain)),
      plainEntries entries = .ok plains → ∀ plain ∈ plains,
        OnlyFails (HaveBlock (entries.flatMap fun entry => [entry.1, entry.2]))
            (Json.keyText plain.1) ∧
          OnlyFails (HaveBlock (entries.flatMap fun entry => [entry.1, entry.2]))
            (Json.write plain.2)
  | [], plains, h => by
    cases h
    nofun
  | (key, value) :: rest, plains, h => by
    have hall (scalar : Scalar) (hkey : OnlyFails key.HasBlock (Json.keyText scalar))
        (h : (do return (scalar, ← toPlain value) :: (← plainEntries rest)) = Except.ok plains) :
        ∀ plain ∈ plains,
          OnlyFails (HaveBlock (key :: value :: rest.flatMap fun entry => [entry.1, entry.2]))
              (Json.keyText plain.1) ∧
            OnlyFails (HaveBlock (key :: value :: rest.flatMap fun entry => [entry.1, entry.2]))
              (Json.write plain.2) := by
      obtain ⟨plain, hplain, h⟩ := bind_eq_ok h
      obtain ⟨others, hothers, heq⟩ := bind_eq_ok h
      cases heq
      refine List.forall_mem_cons.2 ⟨⟨hkey.mono fun _ ↦ .head, ?_⟩, fun other hother ↦ ?_⟩
      · exact (onlyFails_write_of_toPlain value plain hplain).mono fun _ h ↦ .tail (.head h)
      · obtain ⟨hkey, hvalue⟩ := onlyFails_write_of_plainEntries rest others hothers other hother
        exact ⟨hkey.mono fun _ h ↦ .tail (.tail h), hvalue.mono fun _ h ↦ .tail (.tail h)⟩
    rw [plainEntries] at h
    split at h
    · exact hall _ (onlyFails_keyText_of_scalarKey? ‹_›) h
    · obtain ⟨chars, -, h⟩ := bind_eq_ok h
      exact hall _ (.ok _) h

end

/-! ### Texts of data -/

mutual

theorem onlyFails_render : ∀ data : Data, OnlyFails data.HasBlock data.render
  | atom a => by
    cases a with
    | null | url => exact .ok _
    | _ => exact onlyFails_leafText _
  | tuple items | frozen items | list items | set items => by
    rw [render]
    refine onlyFails_of_parts (OnlyFails.bind ?_ fun _ ↦ .ok _)
    exact onlyFails_renderItems items
  | map entries | page entries _ | scope entries => by
    rw [render]
    refine onlyFails_of_parts ((onlyFails_plainEntries entries).after fun plains hplains ↦ ?_)
    exact Json.onlyFails_write_map (onlyFails_write_of_plainEntries entries plains hplains)
  | call .. | side .. | object .. | buffer _ | resource .. => onlyFails_leafText _
  | cycle => .error (.of_blocks _ (.inl ⟨rfl, rfl⟩))

theorem onlyFails_renderItems :
    ∀ items : List Data, OnlyFails (HaveBlock items) (renderItems items)
  | [] => .ok _
  | item :: rest => by
    unfold renderItems
    split
    · cases ‹_ = _›
    · rename_i heq
      cases heq
      exact ((onlyFails_renderItems rest).mono fun _ ↦ .tail).bind fun _ ↦ .ok _
    · rename_i heq
      cases heq
      exact onlyFails_cons (onlyFails_render item) (onlyFails_renderItems rest) _

theorem onlyFails_toPlain : ∀ data : Data, OnlyFails data.HasBlock data.toPlain
  | atom a => by
    cases a with
    | null | bool | int | real | text | url => exact .ok _
    | _ => exact (onlyFails_leafText _).bind fun _ ↦ .ok _
  | tuple items | frozen items | list items | set items => by
    rw [toPlain]
    refine onlyFails_of_parts (OnlyFails.bind ?_ fun _ ↦ .ok _)
    exact onlyFails_plainItems items
  | map entries | page entries _ | scope entries => by
    rw [toPlain]
    refine onlyFails_of_parts (OnlyFails.bind ?_ fun _ ↦ .ok _)
    exact onlyFails_plainEntries entries
  | call .. | side .. | object .. | buffer _ | resource .. =>
    (onlyFails_leafText _).bind fun _ ↦ .ok _
  | cycle => .error (.of_blocks _ (.inl ⟨rfl, rfl⟩))

theorem onlyFails_plainItems :
    ∀ items : List Data, OnlyFails (HaveBlock items) (plainItems items)
  | [] => .ok _
  | item :: rest => by
    rw [plainItems]
    exact onlyFails_cons (onlyFails_toPlain item) (onlyFails_plainItems rest) _

theorem onlyFails_plainEntries : ∀ entries : List (Data × Data),
    OnlyFails (HaveBlock (entries.flatMap fun entry => [entry.1, entry.2])) (plainEntries entries)
  | [] => .ok _
  | (key, value) :: rest => by
    rw [plainEntries]
    have hrest (scalar : Scalar) : OnlyFails
        (HaveBlock (value :: rest.flatMap fun entry => [entry.1, entry.2]))
        (do return (scalar, ← toPlain value) :: (← plainEntries rest)) :=
      onlyFails_cons (onlyFails_toPlain value) (onlyFails_plainEntries rest) _
    split
    · exact (hrest _).mono fun _ ↦ .tail
    · refine ((onlyFails_render key).mono fun _ ↦ .head).bind fun _ ↦ ?_
      exact (hrest _).mono fun _ ↦ .tail

end

/-- Data counts as a text unless it has a part that makes printing fail. -/
theorem onlyFails_toText (data : Data) : OnlyFails data.HasBlock data.toText := by
  unfold toText
  split
  · exact .ok _
  · exact (onlyFails_render data).map _

theorem onlyFails_toBytes (data : Data) : OnlyFails data.HasBlock data.toBytes := by
  unfold toBytes
  split
  · exact .ok _
  · exact .ok _
  · exact .ok _
  · exact (onlyFails_toText data).bind fun _ ↦ .ok _

/-! ### Numbers of data -/

theorem onlyFails_numeric? (data : Data) : OnlyFails (Fault.value = ·) data.numeric? := by
  unfold numeric?
  split
  · exact .ok _
  · exact .ok _
  · exact .ok _
  · exact Numeral.onlyFails_read _
  · refine OnlyFails.bind ?_ fun _ ↦ .ok _
    unfold Moment.timestamp
    split
    · exact .ok _
    · split
      · exact .error rfl
      · exact .ok _
  · exact .ok _

theorem onlyFails_textNumber (s : String) : OnlyFails (Fault.value = ·) (textNumber s) := by
  refine (Numeral.onlyFails_read _).bind fun number ↦ ?_
  cases number <;> exact .ok _

theorem onlyFails_collectionNumber (items : List Data) :
    OnlyFails (Fault.value = ·) (collectionNumber items) := by
  unfold collectionNumber
  split
  · exact .ok _
  · refine (onlyFails_numeric? _).bind fun number ↦ ?_
    cases number <;> exact .ok _
  · exact .ok _

theorem onlyFails_toNumber (data : Data) : OnlyFails (OrLimit data.HasBlock) data.toNumber := by
  refine ((onlyFails_numeric? data).limit (.inl rfl)).bind fun number ↦ ?_
  cases number with
  | some n => exact .ok _
  | none =>
    have hcollection (items : List Data) :
        OnlyFails (OrLimit data.HasBlock) (collectionNumber items) :=
      (onlyFails_collectionNumber items).limit (.inl rfl)
    have htext : OnlyFails (OrLimit data.HasBlock) (do textNumber (← data.toText)) :=
      (onlyFails_toText data).orLimit.bind fun s ↦
        (onlyFails_textNumber s).limit (.inl rfl)
    cases data with
    | list items | tuple items | set items | frozen items | side _ items => exact hcollection items
    | map entries | page entries | scope entries => exact hcollection (entries.map Prod.snd)
    | buffer => exact .ok _
    | call | object | resource | cycle => exact htext
    | atom a =>
      cases a with
      | null | text | bytes => exact .ok _
      | url u => exact hcollection (u.parts.map text)
      | _ => exact htext

theorem onlyFails_toReal (data : Data) : OnlyFails (OrLimit data.HasBlock) data.toReal := by
  refine (onlyFails_toNumber data).bind fun number ↦ ?_
  have hdouble : OnlyFails (Fault.overflow = ·) number.toDouble := by
    unfold Number.toDouble
    split
    · exact .ok _
    · split
      · exact .error rfl
      · exact .ok _
  exact hdouble.limit (.inr rfl)

theorem onlyFails_toInt (data : Data) : OnlyFails (OrLimit data.HasBlock) data.toInt := by
  refine (onlyFails_toNumber data).bind fun number ↦ ?_
  unfold Number.toInt
  split
  · exact .ok _
  · exact .error (.inl (.inl rfl))
  · split
    · exact .ok _
    · exact .error (.inl (.inr rfl))

/-! ### Acyclic data -/

/-- Whether no container in data is inside itself. -/
def IsAcyclic (data : Data) : Prop :=
  ¬ IsPart cycle data

theorem isAcyclic_iff {data : Data} :
    data.IsAcyclic ↔ data ≠ cycle ∧ ∀ part ∈ data.parts, part.IsAcyclic := by
  constructor
  · intro h
    refine ⟨fun hcycle ↦ h (hcycle ▸ .whole), fun part hpart hinside ↦ h (.inside hpart hinside)⟩
  · rintro ⟨hcycle, hparts⟩ h
    cases h with
    | whole => exact hcycle rfl
    | inside hchild h => exact hparts _ hchild h

theorem isAcyclic_atom (a : Atom) : (atom a).IsAcyclic :=
  isAcyclic_iff.2 ⟨Data.noConfusion, fun _ hpart ↦ absurd hpart List.not_mem_nil⟩

theorem isAcyclic_list {items : List Data} (h : ∀ item ∈ items, item.IsAcyclic) :
    (list items).IsAcyclic :=
  isAcyclic_iff.2 ⟨Data.noConfusion, h⟩

/-- What fails only at a block of acyclic data or at a number fails as numbers do. -/
theorem IsAcyclic.onlyFails {α : Type} {data : Data} {x : Except Fault α} (h : data.IsAcyclic)
    (hx : OnlyFails (OrLimit data.HasBlock) x) : OnlyFails Fault.IsLimit x := by
  refine hx.mono fun cause ↦ ?_
  rintro (hlimit | ⟨part, hpart, ⟨rfl, -⟩ | ⟨n, -, -, hcause⟩⟩)
  · exact hlimit
  · exact absurd hpart h
  · exact .inl hcause

theorem IsAcyclic.not_hasBlock {data : Data} (h : data.IsAcyclic) :
    ¬ data.HasBlock .recursion := by
  rintro ⟨part, hpart, ⟨rfl, -⟩ | ⟨n, -, -, hcause⟩⟩
  · exact h hpart
  · cases hcause

/-- The items that acyclic data counts as are acyclic. -/
theorem IsAcyclic.of_mem_items {data item : Data} (h : data.IsAcyclic) (hitem : item ∈ data.items) :
    item.IsAcyclic := by
  cases data with
  | list items | tuple items | set items | frozen items | side _ items =>
    exact (isAcyclic_iff.1 h).2 item hitem
  | atom a =>
    cases a with
    | null => cases hitem
    | text | url | bytes =>
      obtain ⟨_, -, rfl⟩ := List.mem_map.1 hitem
      exact isAcyclic_atom _
    | _ =>
      cases List.mem_singleton.1 hitem
      exact h
  | buffer bytes =>
    obtain ⟨_, -, rfl⟩ := List.mem_map.1 hitem
    exact isAcyclic_atom _
  | _ =>
    cases List.mem_singleton.1 hitem
    exact h

end Data

end ResourceScript

import ResourceScript.Data.Display
import ResourceScript.Proofs.Number.Numeral
/-!
# Data without a printed form

Printing goes through the parts of data. It fails in two cases only: a part is a container inside
itself, or an integer of more digits than a numeral may have (`Data.hasBlock_of_print`). Every form
fails only where the form of one of its parts fails, so the proof is an induction on the data along
the definitions of the forms. On a stack of so many frames there is a third case: data that nests
more deeply than the frames allow (`Data.HasBlock.of_cut`).
-/

set_option autoImplicit false

namespace ResourceScript

/-! ### Failures of computations -/

/-- Whether a computation fails, if at all, with a cause of a given sort. -/
def OnlyFails {α : Type} (P : Fault → Prop) (x : Except Fault α) : Prop :=
  ∀ cause, x = .error cause → P cause

namespace OnlyFails

variable {α β : Type} {P Q : Fault → Prop}

theorem ok (a : α) : OnlyFails P (.ok a) := by
  intro cause h
  cases h

theorem error {cause : Fault} (h : P cause) : OnlyFails P (.error cause : Except Fault α) := by
  rintro _ ⟨⟩
  exact h

theorem mono {x : Except Fault α} (hx : OnlyFails P x) (h : ∀ cause, P cause → Q cause) :
    OnlyFails Q x :=
  fun cause hcause ↦ h cause (hx cause hcause)

theorem bind {x : Except Fault α} {next : α → Except Fault β} (hx : OnlyFails P x)
    (hnext : ∀ a, OnlyFails P (next a)) : OnlyFails P (x >>= next) := by
  intro cause h
  cases x with
  | ok a => exact hnext a cause h
  | error stop =>
    cases h
    exact hx cause rfl

theorem map {x : Except Fault α} (hx : OnlyFails P x) (f : α → β) : OnlyFails P (x.map f) := by
  intro cause h
  cases x with
  | ok a => cases h
  | error stop =>
    cases h
    exact hx cause rfl

end OnlyFails

namespace Data

/-! ### Parts of data -/

/-- The parts of data one level down. -/
def parts : Data → List Data
  | tuple items | frozen items | list items | set items | side _ items => items
  | call _ params => params
  | map entries | page entries _ | scope entries =>
    entries.flatMap fun entry => [entry.1, entry.2]
  | object _ fields => fields.map Prod.snd
  | atom _ | buffer _ | resource .. | cycle => []

/-- Whether data is a part of data: the whole, or a part of one of its parts. -/
inductive IsPart (part : Data) : Data → Prop
  /-- The whole. -/
  | whole : IsPart part part
  /-- A part of a part. -/
  | inside {child data : Data} (hchild : child ∈ data.parts) (h : IsPart part child) :
    IsPart part data

theorem sizeOf_lt_of_mem_parts {part data : Data} (h : part ∈ data.parts) :
    sizeOf part < sizeOf data := by
  have hentry (entries : List (Data × Data))
      (hpart : part ∈ entries.flatMap fun entry => [entry.1, entry.2]) :
      sizeOf part < sizeOf entries := by
    obtain ⟨⟨key, value⟩, hentry, hpart⟩ := List.mem_flatMap.1 hpart
    have hlt := List.sizeOf_lt_of_mem hentry
    rw [Prod.mk.sizeOf_spec] at hlt
    rcases List.mem_cons.1 hpart with rfl | hpart
    · exact Nat.lt_of_le_of_lt (by omega) hlt
    · obtain rfl := List.mem_singleton.1 hpart
      exact Nat.lt_of_le_of_lt (by omega) hlt
  cases data with
  | tuple items | frozen items | list items | set items | side _ items | call _ items =>
    have hlt : sizeOf part < sizeOf items := List.sizeOf_lt_of_mem h
    simp only [tuple.sizeOf_spec, frozen.sizeOf_spec, list.sizeOf_spec, set.sizeOf_spec,
      side.sizeOf_spec, call.sizeOf_spec]
    omega
  | map entries | page entries _ | scope entries =>
    have hlt := hentry entries h
    simp only [map.sizeOf_spec, page.sizeOf_spec, scope.sizeOf_spec]
    omega
  | object info fields =>
    obtain ⟨⟨name, value⟩, hfield, rfl⟩ := List.mem_map.1 h
    have hlt := List.sizeOf_lt_of_mem hfield
    rw [Prod.mk.sizeOf_spec] at hlt
    show sizeOf value < _
    rw [object.sizeOf_spec]
    omega
  | atom | buffer | resource | cycle => cases h

/-- Induction on data: what holds of data if it holds of its parts holds of all data. -/
theorem induction_on_parts {P : Data → Prop} (h : ∀ data : Data, (∀ part ∈ data.parts, P part) → P data)
    (data : Data) : P data :=
  h data fun part hpart ↦
    have := sizeOf_lt_of_mem_parts hpart
    induction_on_parts h part
termination_by sizeOf data

/-- Whether data by itself makes printing fail: as a container inside itself, or as an integer that
is too long. -/
def Blocks (data : Data) (cause : Fault) : Prop :=
  data = cycle ∧ cause = .recursion ∨
    ∃ n : Int, data = .int n ∧ 10 ^ Numeral.maxDigits ≤ n.natAbs ∧ cause = .value

/-- Whether data has a part that makes printing fail. -/
def HasBlock (data : Data) (cause : Fault) : Prop :=
  ∃ part, IsPart part data ∧ part.Blocks cause

/-- Whether one of several data has a part that makes printing fail. -/
def HaveBlock (items : List Data) (cause : Fault) : Prop :=
  ∃ data ∈ items, data.HasBlock cause

theorem HasBlock.of_parts {data : Data} {cause : Fault} (h : HaveBlock data.parts cause) :
    data.HasBlock cause := by
  obtain ⟨child, hchild, part, hpart, hblocks⟩ := h
  exact ⟨part, .inside hchild hpart, hblocks⟩

theorem HaveBlock.head {data : Data} {rest : List Data} {cause : Fault} (h : data.HasBlock cause) :
    HaveBlock (data :: rest) cause :=
  ⟨data, List.mem_cons_self, h⟩

theorem HaveBlock.tail {data : Data} {rest : List Data} {cause : Fault}
    (h : HaveBlock rest cause) : HaveBlock (data :: rest) cause := by
  obtain ⟨item, hitem, hblock⟩ := h
  exact ⟨item, List.mem_cons_of_mem data hitem, hblock⟩

/-! ### Atoms -/

theorem onlyFails_intText (n : Int) : OnlyFails (Blocks (.int n)) (Numeral.intText n) := by
  intro cause h
  refine .inr ⟨n, rfl, ?_⟩
  by_cases hlong : n.natAbs < 10 ^ Numeral.maxDigits
  · have hok := Numeral.intText_eq_ok_iff.2 ⟨hlong, rfl⟩
    rw [hok] at h
    cases h
  · refine ⟨Nat.not_lt.1 hlong, ?_⟩
    simp only [Numeral.intText] at h
    split at h
    · cases h
      rfl
    · cases h

theorem onlyFails_literal (a : Atom) : OnlyFails (Blocks (.atom a)) a.literal := by
  cases a with
  | int n => exact onlyFails_intText n
  | _ => exact .ok _

theorem onlyFails_display (a : Atom) : OnlyFails (Blocks (.atom a)) a.display := by
  cases a with
  | text | moment | day | time | function | path => exact .ok _
  | _ => exact onlyFails_literal _

theorem onlyFails_printed (a : Atom) : OnlyFails (Blocks (.atom a)) a.printed := by
  cases a with
  | null | bool | text | bytes | url => exact .ok _
  | _ => exact onlyFails_display _

theorem HasBlock.of_blocks {data : Data} (cause : Fault) (h : data.Blocks cause) :
    data.HasBlock cause :=
  ⟨data, .whole, h⟩

/-! ### Forms of data -/

/-- A form fails only where the forms of the parts do. -/
theorem onlyFails_form {α : Type} {data : Data} {forms : Except Fault α}
    (h : OnlyFails (HaveBlock data.parts) forms) (form : α → List Char) :
    OnlyFails data.HasBlock (do return form (← forms)) := by
  have hparts : OnlyFails data.HasBlock forms := h.mono fun _ hblock ↦ .of_parts hblock
  exact hparts.bind fun _ ↦ .ok _

mutual

theorem onlyFails_written (shown : Bool) :
    ∀ data : Data, OnlyFails data.HasBlock (data.written shown)
  | atom a => by
    rw [written]
    split
    · exact (onlyFails_display a).mono HasBlock.of_blocks
    · exact (onlyFails_literal a).mono HasBlock.of_blocks
  | tuple items | frozen items | list items | set items | side _ items => by
    rw [written]
    refine onlyFails_form ?_ _
    exact onlyFails_literals items
  | call f params => by
    rw [written]
    refine onlyFails_form ?_ _
    exact onlyFails_printedParams 2 1 params
  | map entries | page entries _ | scope entries => by
    rw [written]
    refine onlyFails_form ?_ _
    exact onlyFails_literalEntries entries
  | object info fields => by
    unfold written
    split
    · exact .ok _
    · refine onlyFails_form ?_ _
      exact onlyFails_literalFields fields
  | buffer _ | resource .. | cycle => .ok _

theorem onlyFails_literals : ∀ items : List Data, OnlyFails (HaveBlock items) (literals items)
  | [] => .ok _
  | item :: rest => by
    rw [literals]
    refine ((onlyFails_written false item).mono fun _ ↦ .head).bind fun _ ↦ ?_
    exact ((onlyFails_literals rest).mono fun _ ↦ .tail).bind fun _ ↦ .ok _

theorem onlyFails_literalEntries : ∀ entries : List (Data × Data),
    OnlyFails (HaveBlock (entries.flatMap fun entry => [entry.1, entry.2])) (literalEntries entries)
  | [] => .ok _
  | (key, value) :: rest => by
    rw [literalEntries]
    refine ((onlyFails_written false key).mono fun _ ↦ .head).bind fun _ ↦ ?_
    refine ((onlyFails_written false value).mono fun _ h ↦ .tail (.head h)).bind fun _ ↦ ?_
    exact ((onlyFails_literalEntries rest).mono fun _ h ↦ .tail (.tail h)).bind fun _ ↦ .ok _

theorem onlyFails_literalFields : ∀ fields : List (String × Data),
    OnlyFails (HaveBlock (fields.map Prod.snd)) (literalFields fields)
  | [] => .ok _
  | (name, value) :: rest => by
    rw [literalFields]
    refine ((onlyFails_written false value).mono fun _ ↦ .head).bind fun _ ↦ ?_
    exact ((onlyFails_literalFields rest).mono fun _ ↦ .tail).bind fun _ ↦ .ok _

theorem onlyFails_printedData (indent level : Nat) :
    ∀ data : Data, OnlyFails data.HasBlock (data.printed indent level)
  | atom a => by
    rw [printed]
    exact (onlyFails_printed a).mono HasBlock.of_blocks
  | tuple items | frozen items | list items | set items => by
    rw [printed]
    refine onlyFails_form ?_ _
    exact onlyFails_printedItems indent (level + 1) items
  | call f params => by
    rw [printed]
    refine onlyFails_form ?_ _
    exact onlyFails_printedParams indent (level + 1) params
  | map entries | page entries _ | scope entries => by
    rw [printed]
    refine onlyFails_form ?_ _
    exact onlyFails_printedEntries indent (level + 1) entries
  | side _ items => by
    rw [printed]
    refine onlyFails_form ?_ _
    exact onlyFails_literals items
  | object info fields => by
    unfold printed
    split
    · exact .ok _
    · refine onlyFails_form ?_ _
      exact onlyFails_literalFields fields
  | buffer _ | resource .. => .ok _
  | cycle => by
    intro cause h
    cases h
    exact .of_blocks _ (.inl ⟨rfl, rfl⟩)

theorem onlyFails_printedItems (indent level : Nat) :
    ∀ items : List Data, OnlyFails (HaveBlock items) (printedItems indent level items)
  | [] => .ok _
  | item :: rest => by
    rw [printedItems]
    refine ((onlyFails_printedData indent level item).mono fun _ ↦ .head).bind fun _ ↦ ?_
    exact ((onlyFails_printedItems indent level rest).mono fun _ ↦ .tail).bind fun _ ↦ .ok _

theorem onlyFails_printedParams (indent level : Nat) :
    ∀ items : List Data, OnlyFails (HaveBlock items) (printedParams indent level items)
  | [] => .ok _
  | item :: rest => by
    rw [printedParams]
    refine ((onlyFails_printedData indent level item).mono fun _ ↦ .head).bind fun _ ↦ ?_
    exact ((onlyFails_printedParams indent level rest).mono fun _ ↦ .tail).bind fun _ ↦ .ok _

theorem onlyFails_printedEntries (indent level : Nat) : ∀ entries : List (Data × Data),
    OnlyFails (HaveBlock (entries.flatMap fun entry => [entry.1, entry.2]))
      (printedEntries indent level entries)
  | [] => .ok _
  | (key, value) :: rest => by
    rw [printedEntries]
    refine ((onlyFails_written true key).mono fun _ ↦ .head).bind fun _ ↦ ?_
    refine ((onlyFails_printedData indent level value).mono fun _ h ↦ .tail (.head h)).bind
      fun _ ↦ ?_
    exact ((onlyFails_printedEntries indent level rest).mono fun _ h ↦ .tail (.tail h)).bind
      fun _ ↦ .ok _

end

mutual

/-- Nothing is cut from data for which there are frames enough. -/
theorem cut_eq_self {free : Nat} : ∀ {data : Data}, data.frames ≤ free → data.cut free = data
  | tuple items, h | frozen items, h | list items, h | set items, h => by
    simp only [frames] at h
    rw [cut, if_neg (by omega), cutItems_eq_self (by omega)]
  | call f params, h => by
    simp only [frames] at h
    rw [cut, if_neg (by omega), cutItems_eq_self (by omega)]
  | map entries, h | page entries _, h | scope entries, h => by
    simp only [frames] at h
    rw [cut, if_neg (by omega), cutEntries_eq_self (by omega)]
  | atom _, _ | side .., _ | buffer _, _ | object .., _ | resource .., _ | cycle, _ => by
    rw [cut] <;> nofun

theorem cutItems_eq_self {free : Nat} : ∀ {items : List Data},
    framesOfItems items ≤ free → cutItems free items = items
  | [], _ => rfl
  | item :: rest, h => by
    simp only [framesOfItems] at h
    rw [cutItems, cut_eq_self (by omega), cutItems_eq_self (by omega)]

theorem cutEntries_eq_self {free : Nat} : ∀ {entries : List (Data × Data)},
    framesOfEntries entries ≤ free → cutEntries free entries = entries
  | [], _ => rfl
  | (key, value) :: rest, h => by
    simp only [framesOfEntries] at h
    rw [cutEntries, cut_eq_self (by omega), cutEntries_eq_self (by omega)]

end

end Data

end ResourceScript

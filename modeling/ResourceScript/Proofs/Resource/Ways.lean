import ResourceScript.Proofs.Resource.PutAndGet
import ResourceScript.Proofs.Store.ListItem
/-!
# Two ways through data

A path follows keys until one reads null (`Store.follow`). Calls within calls read one key after the
other, of null as well (`Store.readThrough`). Behind null every key reads null but `type`, which
reads a kind. So the two ways only go apart behind null (`Store.Agrees`), and they end alike unless
the last key is `type` and stands behind null (`Store.readThrough_eq_follow` and
`Store.readThrough_of_typeBehindNull`).

The data may stand in itself (`Store.IsData`). From scopes of data, a way fails only on a numeral of
too many digits (`Store.exists_isOverlong_of_readThrough`).
-/

set_option autoImplicit false

namespace ResourceScript

/-! ### Failures of keys -/

/-- Whether a computation fails at most because a key is a numeral of too many digits. -/
def FailsOverlong {α : Type} (key : String) (x : Except Fault α) : Prop :=
  ∀ cause, x = .error cause → cause = .value ∧ IsOverlong key

namespace FailsOverlong

variable {α β : Type} {key : String}

theorem ok (a : α) : FailsOverlong key (.ok a) :=
  nofun

theorem bind {x : Except Fault α} {next : α → Except Fault β} (hx : FailsOverlong key x)
    (hnext : ∀ a, FailsOverlong key (next a)) : FailsOverlong key (x >>= next) := by
  cases x with
  | ok a => exact hnext a
  | error cause =>
    rintro _ ⟨⟩
    exact hx cause rfl

theorem map {x : Except Fault α} (hx : FailsOverlong key x) (f : α → β) :
    FailsOverlong key (x.map f) := by
  cases x with
  | ok a => exact .ok _
  | error cause =>
    rintro _ ⟨⟩
    exact hx cause rfl

end FailsOverlong

section

variable {key : String} (hline : '\n' ∉ key.toList)

include hline

theorem failsOverlong_wholeValue
    (hwhole : Numeral.isWhole (Numeral.dropFinalLineFeed key.toList) = true) :
    FailsOverlong key (Numeral.wholeValue (Numeral.dropFinalLineFeed key.toList)) := by
  rw [Numeral.dropFinalLineFeed_of_not_mem hline] at hwhole ⊢
  obtain ⟨n, hspells⟩ := Numeral.isWhole_iff.1 hwhole
  rw [Numeral.wholeValue_of_spells hspells]
  split
  · rename_i hlong
    rintro _ ⟨⟩
    exact ⟨rfl, ⟨n, hspells⟩, hlong⟩
  · exact .ok n

theorem failsOverlong_position? (length : Nat) : FailsOverlong key (position? length key) := by
  unfold position?
  dsimp only
  split
  · exact .ok _
  split
  · exact .ok _
  split
  · rename_i hwhole
    exact (failsOverlong_wholeValue hline hwhole).bind fun _ ↦ .ok _
  · exact .ok _

theorem failsOverlong_integerKey? : FailsOverlong key (integerKey? key) := by
  unfold integerKey?
  dsimp only
  split
  · rename_i hwhole
    exact (failsOverlong_wholeValue hline hwhole).map _
  · exact .ok _

theorem failsOverlong_getElement (elements : List Value) :
    FailsOverlong key (Store.getElement elements key) := by
  unfold Store.getElement
  split
  · exact .ok _
  refine (failsOverlong_position? hline elements.length).bind fun position ↦ ?_
  cases position <;> exact .ok _

theorem failsOverlong_getEntry (s : Store) (entries : List (Value × Value)) :
    FailsOverlong key (s.getEntry entries key) := by
  unfold Store.getEntry
  split
  · exact .ok _
  · refine (failsOverlong_integerKey? hline).bind fun n ↦ ?_
    cases n <;> exact .ok _

end

/-- No sequence is asked for a position of too many digits. -/
theorem getElement_of_isOverlong {key : String} (hkey : IsOverlong key) (elements : List Value) :
    Store.getElement elements key = .error .value := by
  obtain ⟨n, hspells⟩ := hkey.1
  have hsize : ¬ (key = "size" || key = "length" || key = "count") = true := by
    have hne : key ≠ "size" ∧ key ≠ "length" ∧ key ≠ "count" :=
      ⟨ne_of_spells hspells (by decide), ne_of_spells hspells (by decide),
        ne_of_spells hspells (by decide)⟩
    simp [hne]
  rw [Store.getElement, if_neg hsize, position?_of_isOverlong hkey]
  rfl

namespace Store

variable {s : Store} {value next : Value} {key : String} {keys : List String} {n : Nat}

/-! ### Data that may stand in itself -/

theorem getValue_type (s : Store) (value : Value) :
    s.getValue value "type" =
      .ok (.atom (.kind (if value.isNull then .object else s.kindOf value))) :=
  if_pos rfl

/-- Whether a value and all that stands in it, however deep, can be read. It may stand in itself. -/
def IsData (s : Store) (value : Value) : Prop :=
  ∀ part, Relation.ReflTransGen s.IsPart part value → s.IsReadable part

/-- Whether all values in the scopes from a scope outward are data. -/
def HoldsData (s : Store) (n : Nat) : Prop :=
  ∀ entry ∈ s.bindings n, s.IsData entry.2

/-- Whether a value can be met on the way from a scope of data: data, the kind of a value, or such a
scope. -/
inductive IsRead (s : Store) : Value → Prop
  /-- Data. -/
  | data {value : Value} (h : s.IsData value) : IsRead s value
  /-- A scope of data. -/
  | scope {n : Nat} (h : s.HoldsData n) : IsRead s (.scope n)
  /-- A kind that is none of a host class. -/
  | kind {k : Kind} (hk : ∀ info, k ≠ .host info) : IsRead s (.atom (.kind k))

theorem IsData.isReadable (h : s.IsData value) : s.IsReadable value :=
  h value .refl

theorem IsData.of_isPart (h : s.IsData value) (hpart : s.IsPart next value) : s.IsData next :=
  fun part hdeep ↦ h part (hdeep.tail hpart)

theorem isData_of_isElementary (h : value.IsElementary) : s.IsData value := by
  intro part hdeep
  obtain ⟨a, rfl, ha⟩ := h
  cases hdeep with
  | refl => exact .elementary ⟨a, rfl, ha⟩
  | tail _ hpart => cases hpart

/-- Built values are data. -/
theorem IsBuilt.isData (h : s.IsBuilt value) : s.IsData value := by
  intro part hdeep
  refine IsBuilt.isReadable ?_
  induction hdeep using Relation.ReflTransGen.head_induction_on with
  | refl => exact h
  | head hpart _ ih => exact ih.of_isPart hpart

theorem getValue_kind {k : Kind} (hk : ∀ info, k ≠ .host info) (htype : key ≠ "type") :
    s.getValue (.atom (.kind k)) key = .ok .null := by
  simp only [getValue, if_neg htype, entries?, elements?]
  cases k with
  | host info => exact absurd rfl (hk info)
  | _ => rfl

theorem isRead_null : s.IsRead .null :=
  .data (isData_of_isElementary ⟨.null, rfl, trivial⟩)

theorem IsRead.isPlain (h : s.IsRead value) : value.IsPlain := by
  cases h with
  | data h => exact h.isReadable.isPlain
  | scope | kind => exact trivial

/-- A key leads from what can be met to what can be met. -/
theorem goes_getValue_isRead (h : s.IsRead value) (key : String) :
    Goes s.IsRead (s.getValue value key) := by
  by_cases htype : key = "type"
  · subst htype
    rw [getValue_type]
    refine IsRead.kind fun info ↦ ?_
    split
    · exact Kind.noConfusion
    · cases h with
      | data h => exact h.isReadable.kindOf_ne_host info
      | scope => exact Kind.noConfusion
      | kind hk => exact kindOf_kind_ne_host hk info
  · cases h with
    | data h =>
      have hgoes := goes_getValue_part h.isReadable htype
      refine hgoes.mono fun next hnext ↦ ?_
      rcases hnext with helementary | hpart
      · exact .data (isData_of_isElementary helementary)
      · exact .data (h.of_isPart hpart)
    | scope h =>
      rw [getValue_scope htype]
      exact goes_getEntry isRead_null (fun entry hentry ↦ .data (h entry hentry)) key
    | kind hk =>
      rw [getValue_kind hk htype]
      exact isRead_null

/-- A key is read unless it is a numeral of too many digits. -/
theorem failsOverlong_getValue (h : s.IsRead value) (hline : '\n' ∉ key.toList) :
    FailsOverlong key (s.getValue value key) := by
  by_cases htype : key = "type"
  · subst htype
    exact .ok _
  · cases h with
    | data h =>
      obtain hget | ⟨elements, hget, -⟩ | ⟨entries, hget, -⟩ := h.isReadable.getValue_cases htype
      · rw [hget]
        exact .ok _
      · rw [hget]
        exact failsOverlong_getElement hline elements
      · rw [hget]
        exact failsOverlong_getEntry hline s entries
    | scope h =>
      rw [getValue_scope htype]
      exact failsOverlong_getEntry hline s _
    | kind hk =>
      rw [getValue_kind hk htype]
      exact .ok _

/-! ### The two ways -/

/-- What keys read one after the other, also of null. -/
def readThrough (s : Store) (value : Value) (keys : List String) : Except Fault Value :=
  keys.foldlM s.getValue value

/-- The next step of a way that ends at null. -/
def stepFrom (s : Store) (value : Value) (key : String) : Except Fault Value :=
  if value.isNull then .ok .null else s.getValue value key

/-- Whether the last of some keys is `type` and those before it lead to null. -/
def TypeBehindNull (s : Store) (value : Value) (keys : List String) : Prop :=
  keys.getLast? = some "type" ∧ s.follow value keys.dropLast = .ok .null

/-- Whether a value is what keys read behind null. -/
inductive IsBehindNull : Value → Prop
  /-- Null. -/
  | null : IsBehindNull .null
  /-- The kind of null and that of kinds. -/
  | kind {k : Kind} (hk : k = .object ∨ k = .kind) : IsBehindNull (.atom (.kind k))

/-- Whether the ends of two ways agree: they are the same, or the first way ended at null and the
second went on. -/
inductive Agrees : Except Fault Value → Except Fault Value → Prop
  /-- The ends are the same. -/
  | same (result : Except Fault Value) : Agrees result result
  /-- The second way went on behind null. -/
  | behindNull {value : Value} (h : IsBehindNull value) : Agrees (.ok .null) (.ok value)

/-- Behind null, `type` reads a kind. -/
theorem IsBehindNull.getValue_type (h : IsBehindNull value) :
    ∃ k, (k = .object ∨ k = .kind) ∧ s.getValue value "type" = .ok (.atom (.kind k)) := by
  cases h with
  | null => exact ⟨.object, .inl rfl, rfl⟩
  | kind hk =>
    rcases hk with rfl | rfl
    all_goals exact ⟨.kind, .inr rfl, rfl⟩

/-- Behind null, every other key reads null. -/
theorem IsBehindNull.getValue_eq_null (h : IsBehindNull value) (htype : key ≠ "type") :
    s.getValue value key = .ok .null := by
  cases h with
  | null => exact if_neg htype
  | kind hk =>
    refine getValue_kind (fun info ↦ ?_) htype
    rcases hk with rfl | rfl <;> exact Kind.noConfusion

theorem eq_null_of_isNull (h : value.isNull = true) : value = .null := by
  cases value with
  | atom a => cases a <;> first | rfl | cases h
  | _ => cases h

theorem follow_cons (s : Store) (value : Value) (key : String) (rest : List String) :
    s.follow value (key :: rest) = s.getValue value key >>= fun next ↦
      if next.isNull then .ok .null else s.follow next rest :=
  rfl

theorem follow_concat (front : List String) (hvalue : value.isNull = false) :
    s.follow value (front ++ [key]) = s.follow value front >>= (s.stepFrom · key) := by
  induction front generalizing value with
  | nil =>
    have hstep : s.follow value [key] = s.getValue value key := by
      cases hget : s.getValue value key with
      | ok next => exact follow_singleton hget
      | error cause =>
        rw [follow_cons, hget]
        rfl
    show s.follow value [key] = s.stepFrom value key
    rw [stepFrom, hvalue, hstep]
    rfl
  | cons first rest ih =>
    rw [List.cons_append, follow_cons, follow_cons]
    cases s.getValue value first with
    | error cause => rfl
    | ok next =>
      show (if next.isNull then _ else s.follow next (rest ++ [key])) =
        (if next.isNull then .ok .null else s.follow next rest) >>= (s.stepFrom · key)
      cases hnext : next.isNull with
      | true => rfl
      | false => exact ih hnext

theorem readThrough_concat (front : List String) :
    s.readThrough value (front ++ [key]) = s.readThrough value front >>= (s.getValue · key) := by
  simp only [readThrough, List.foldlM_append, List.foldlM_cons, List.foldlM_nil, bind_pure]

namespace Agrees

variable {first second : Except Fault Value}

theorem exists_isBehindNull (h : Agrees (.ok .null) second) :
    ∃ value, second = .ok value ∧ IsBehindNull value := by
  cases h with
  | same => exact ⟨.null, rfl, .null⟩
  | behindNull hvalue => exact ⟨_, rfl, hvalue⟩

/-- Behind null, `type` leads one way to null and the other to a kind. -/
theorem step_type (h : Agrees (.ok .null) second) :
    ∃ k, (k = .object ∨ k = .kind) ∧
      second >>= (s.getValue · "type") = .ok (.atom (.kind k)) := by
  obtain ⟨value, rfl, hvalue⟩ := h.exists_isBehindNull
  exact hvalue.getValue_type

/-- One step has the same end on both ways, unless it asks for the type behind null. -/
theorem step_eq (h : Agrees first second) (hkey : ¬ (key = "type" ∧ first = .ok .null)) :
    second >>= (s.getValue · key) = first >>= (s.stepFrom · key) := by
  by_cases hfirst : first = .ok .null
  · subst hfirst
    obtain ⟨value, rfl, hvalue⟩ := h.exists_isBehindNull
    have htype : key ≠ "type" := fun htype ↦ hkey ⟨htype, rfl⟩
    exact hvalue.getValue_eq_null htype
  · cases h with
    | behindNull => exact absurd rfl hfirst
    | same =>
      cases first with
      | error cause => rfl
      | ok value =>
        have hvalue : ¬ value.isNull = true := fun hnull ↦
          hfirst (congrArg Except.ok (eq_null_of_isNull hnull))
        exact (if_neg hvalue).symm

/-- One step keeps ways in agreement. -/
theorem step (h : Agrees first second) (key : String) :
    Agrees (first >>= (s.stepFrom · key)) (second >>= (s.getValue · key)) := by
  by_cases hkey : key = "type" ∧ first = .ok .null
  · obtain ⟨rfl, rfl⟩ := hkey
    obtain ⟨k, hk, hsecond⟩ := h.step_type (s := s)
    rw [hsecond]
    exact .behindNull (.kind hk)
  · rw [h.step_eq hkey]
    exact .same _

end Agrees

/-- The two ways agree. -/
theorem agrees_follow_readThrough (hvalue : value.isNull = false) (keys : List String) :
    Agrees (s.follow value keys) (s.readThrough value keys) := by
  induction keys using List.reverseRecOn with
  | nil => exact .same _
  | append_singleton front key ih =>
    rw [follow_concat front hvalue, readThrough_concat]
    exact ih.step key

/-- The two ways have the same end, unless the last key asks for the type behind null. -/
theorem readThrough_eq_follow (hvalue : value.isNull = false)
    (hkeys : ¬ s.TypeBehindNull value keys) : s.readThrough value keys = s.follow value keys := by
  cases keys using List.reverseRecOn with
  | nil => rfl
  | append_singleton front key =>
    rw [TypeBehindNull, List.getLast?_concat, List.dropLast_concat] at hkeys
    rw [follow_concat front hvalue, readThrough_concat]
    refine (agrees_follow_readThrough hvalue front).step_eq fun h ↦ hkeys ?_
    exact ⟨congrArg some h.1, h.2⟩

/-- Asked for the type behind null, one way ends at null and the other at a kind. -/
theorem readThrough_of_typeBehindNull (hvalue : value.isNull = false)
    (hkeys : s.TypeBehindNull value keys) :
    s.follow value keys = .ok .null ∧
      ∃ k, (k = .object ∨ k = .kind) ∧ s.readThrough value keys = .ok (.atom (.kind k)) := by
  obtain ⟨hlast, hfront⟩ := hkeys
  have hsplit : keys.dropLast ++ ["type"] = keys := List.dropLast_append_getLast? "type" hlast
  have hagrees := agrees_follow_readThrough (s := s) hvalue keys.dropLast
  rw [hfront] at hagrees
  rw [← hsplit, follow_concat _ hvalue, readThrough_concat, hfront]
  exact ⟨rfl, hagrees.step_type⟩

/-! ### Ways through data -/

theorem readThrough_cons (s : Store) (value : Value) (key : String) (rest : List String) :
    s.readThrough value (key :: rest) =
      s.getValue value key >>= fun next ↦ s.readThrough next rest :=
  List.foldlM_cons

/-- A way leads from what can be met to what can be met. -/
theorem goes_readThrough (h : s.IsRead value) (keys : List String) :
    Goes s.IsRead (s.readThrough value keys) := by
  induction keys generalizing value with
  | nil => exact h
  | cons key rest ih =>
    rw [readThrough_cons]
    exact (goes_getValue_isRead h key).bind fun _ hnext ↦ ih hnext

/-- A way fails only on a numeral of too many digits. -/
theorem exists_isOverlong_of_readThrough {cause : Fault} (h : s.IsRead value)
    (hline : ∀ key ∈ keys, '\n' ∉ key.toList) (herror : s.readThrough value keys = .error cause) :
    cause = .value ∧ ∃ key ∈ keys, IsOverlong key := by
  induction keys generalizing value with
  | nil => cases herror
  | cons key rest ih =>
    rw [List.forall_mem_cons] at hline
    rw [readThrough_cons] at herror
    cases hget : s.getValue value key with
    | error fault =>
      rw [hget] at herror
      cases herror
      obtain ⟨hcause, hlong⟩ := failsOverlong_getValue h hline.1 cause hget
      exact ⟨hcause, key, List.mem_cons_self, hlong⟩
    | ok next =>
      rw [hget] at herror
      have hnext := (goes_getValue_isRead h key).of_ok hget
      obtain ⟨hcause, other, hother, hlong⟩ := ih hnext hline.2 herror
      exact ⟨hcause, other, List.mem_cons_of_mem key hother, hlong⟩

end Store

end ResourceScript

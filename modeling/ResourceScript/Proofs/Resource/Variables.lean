import ResourceScript.Library
import ResourceScript.Proofs.Resource.Steps
import ResourceScript.Proofs.Scope.Changes
import ResourceScript.Proofs.Session.Steps
import ResourceScript.Proofs.Store.Access
/-!
# Operations on variables do not fail

A resource without a scheme, or with the scheme `app:`, addresses a variable by a path of keys. In
scopes whose values are built from elementary values, lists, sets and maps, its data can be read,
put, posted to and deleted at every path: an operation ends with an answer, and with a store that is
not changed when the answer tells of a failure (`Script.ends_onVariable`). A key that is a numeral
of too many digits makes the access fail, but that failure is one of those that become a warning.

One failure is passed on: a container cannot be a member of a set, and posting one to a set stops
the script (`Script.run_postVariable_of_refuses`).
-/

set_option autoImplicit false

namespace ResourceScript

/-! ### Access that fails at most on data -/

/-- Whether a computation ends with a value of a given sort, or fails in a way that resources answer
by a failure value. -/
def Goes {α : Type} (P : α → Prop) : Except Fault α → Prop
  | .ok a => P a
  | .error cause => cause.isDataFault = true

namespace Goes

variable {α β : Type} {P : α → Prop} {Q : β → Prop}

theorem of_ok {x : Except Fault α} {a : α} (hx : Goes P x) (ha : x = .ok a) : P a := by
  rw [ha] at hx
  exact hx

theorem mono {P' : α → Prop} {x : Except Fault α} (hx : Goes P x) (h : ∀ a, P a → P' a) :
    Goes P' x := by
  cases x with
  | ok a => exact h a hx
  | error cause => exact hx

theorem bind {x : Except Fault α} {next : α → Except Fault β} (hx : Goes P x)
    (hnext : ∀ a, P a → Goes Q (next a)) : Goes Q (x >>= next) := by
  cases x with
  | ok a => exact hnext a hx
  | error cause => exact hx

theorem map {f : α → β} {x : Except Fault α} (hx : Goes P x) (h : ∀ a, P a → Q (f a)) :
    Goes Q (x.map f) := by
  cases x with
  | ok a => exact h a hx
  | error cause => exact hx

end Goes

theorem goes_wholeValue (text : List Char) : Goes (fun _ ↦ True) (Numeral.wholeValue text) := by
  unfold Numeral.wholeValue
  dsimp only
  split <;> trivial

theorem goes_position? (length : Nat) (key : String) :
    Goes (fun _ ↦ True) (position? length key) := by
  unfold position?
  dsimp only
  split
  · trivial
  split
  · trivial
  split
  · exact (goes_wholeValue _).bind fun _ _ ↦ trivial
  · trivial

theorem goes_integerKey? (key : String) : Goes (fun _ ↦ True) (integerKey? key) := by
  unfold integerKey?
  dsimp only
  split
  · exact (goes_wholeValue _).map fun _ _ ↦ trivial
  · trivial

/-! ### Values that are built -/

/-- Whether an atom is null, a truth value, a number or a text. -/
def Atom.IsElementary : Atom → Prop
  | null | bool _ | int _ | real _ | text _ => True
  | _ => False

/-- Whether a value is elementary: null, a truth value, a number or a text. -/
def Value.IsElementary (value : Value) : Prop :=
  ∃ a : Atom, value = .atom a ∧ a.IsElementary

namespace Store

/-- Whether a value is elementary, a list, a set of elementary values or a map, whatever stands in
it. -/
inductive IsReadable (s : Store) : Value → Prop
  /-- An elementary value. -/
  | elementary {value : Value} (h : value.IsElementary) : IsReadable s value
  /-- A list. -/
  | list {n : Nat} {items : List Value} (hcell : s.cells[n]? = some (.list items)) :
    IsReadable s (.cell n)
  /-- A set. -/
  | set {n : Nat} {items : List Value} (hcell : s.cells[n]? = some (.set items))
    (hitems : ∀ item ∈ items, item.IsElementary) : IsReadable s (.cell n)
  /-- A map. -/
  | map {n : Nat} {entries : List (Value × Value)} (hcell : s.cells[n]? = some (.map entries)) :
    IsReadable s (.cell n)

/-- Whether a value is built from elementary values, lists, sets and maps, and without cycles. -/
inductive IsBuilt (s : Store) : Value → Prop
  /-- An elementary value. -/
  | elementary {value : Value} (h : value.IsElementary) : IsBuilt s value
  /-- A list. -/
  | list {n : Nat} {items : List Value} (hcell : s.cells[n]? = some (.list items))
    (hitems : ∀ item ∈ items, IsBuilt s item) : IsBuilt s (.cell n)
  /-- A set. -/
  | set {n : Nat} {items : List Value} (hcell : s.cells[n]? = some (.set items))
    (hitems : ∀ item ∈ items, item.IsElementary) : IsBuilt s (.cell n)
  /-- A map. -/
  | map {n : Nat} {entries : List (Value × Value)} (hcell : s.cells[n]? = some (.map entries))
    (hkeys : ∀ entry ∈ entries, entry.1.IsElementary)
    (hvalues : ∀ entry ∈ entries, IsBuilt s entry.2) : IsBuilt s (.cell n)

/-- Whether all values in the scopes from a scope outward are built. -/
def HoldsBuilt (s : Store) (n : Nat) : Prop :=
  ∀ entry ∈ s.bindings n, s.IsBuilt entry.2

/-- Whether a value can be met on the way from a scope: a built value, or the kind of one. -/
inductive IsMet (s : Store) : Value → Prop
  /-- A built value. -/
  | built {value : Value} (h : s.IsBuilt value) : IsMet s value
  /-- A kind that is none of a host class. -/
  | kind {k : Kind} (hk : ∀ info, k ≠ .host info) : IsMet s (.atom (.kind k))
  /-- A scope of built values. -/
  | scope {n : Nat} (h : s.HoldsBuilt n) : IsMet s (.scope n)

variable {s : Store}

theorem isMet_null : s.IsMet .null :=
  .built (.elementary ⟨.null, rfl, trivial⟩)

theorem isMet_int (n : Int) : s.IsMet (.int n) :=
  .built (.elementary ⟨.int n, rfl, trivial⟩)

theorem IsBuilt.isReadable {value : Value} (h : s.IsBuilt value) : s.IsReadable value := by
  cases h with
  | elementary h => exact .elementary h
  | list hcell => exact .list hcell
  | set hcell hitems => exact .set hcell hitems
  | map hcell => exact .map hcell

theorem IsReadable.isPlain {value : Value} (h : s.IsReadable value) : value.IsPlain := by
  cases h with
  | elementary h =>
    obtain ⟨a, rfl, ha⟩ := h
    cases a <;> first | exact ha.elim | exact trivial
  | list | set | map => exact trivial

theorem IsReadable.kindOf_ne_host {value : Value} (h : s.IsReadable value) (info : ClassInfo) :
    s.kindOf value ≠ .host info := by
  cases h with
  | elementary h =>
    obtain ⟨a, rfl, ha⟩ := h
    cases a <;> first | exact ha.elim | exact Kind.noConfusion
  | list hcell | set hcell | map hcell =>
    simp [kindOf, cell_of_getElem? hcell]

/-- The kind of a kind is none of a host class, if that kind is none. -/
theorem kindOf_kind_ne_host {k : Kind} (hk : ∀ info, k ≠ .host info) (info : ClassInfo) :
    s.kindOf (.atom (.kind k)) ≠ .host info := by
  show k.kindOf ≠ .host info
  cases k with
  | host other => exact absurd rfl (hk other)
  | _ => exact Kind.noConfusion

/-- No kind of a value that can be met is one of a host class. -/
theorem kindOf_ne_host {value : Value} (h : s.IsMet value) (info : ClassInfo) :
    s.kindOf value ≠ .host info := by
  cases h with
  | built h => exact h.isReadable.kindOf_ne_host info
  | kind hk => exact kindOf_kind_ne_host hk info
  | scope => exact Kind.noConfusion

/-- What is read from a map is null or a value of the map. -/
theorem goes_getEntry {P : Value → Prop} {entries : List (Value × Value)} (hnull : P .null)
    (h : ∀ entry ∈ entries, P entry.2) (key : String) : Goes P (s.getEntry entries key) := by
  have hfound (key : Value) : P ((findEntry s.same key entries).getD .null) := by
    cases hkey : findEntry s.same key entries with
    | none => exact hnull
    | some value =>
      obtain ⟨entry, hentry, rfl⟩ := exists_mem_of_findEntry hkey
      exact h entry hentry
  unfold getEntry
  split
  · rename_i value hvalue
    have hmet := hfound (.text key)
    rwa [hvalue] at hmet
  · refine (goes_integerKey? key).bind fun n _ ↦ ?_
    cases n with
    | none => exact hnull
    | some n => exact hfound (.int n)

/-- What is read from a sequence is null, an integer or an element. -/
theorem goes_getElement {P : Value → Prop} {elements : List Value} (hnull : P .null)
    (hint : ∀ n : Int, P (.int n)) (h : ∀ item ∈ elements, P item) (key : String) :
    Goes P (getElement elements key) := by
  unfold getElement
  split
  · exact hint _
  refine (goes_position? elements.length key).bind fun position _ ↦ ?_
  cases position with
  | none => exact hnull
  | some i =>
    show P (elements[i]?.getD .null)
    cases hitem : elements[i]? with
    | none => exact hnull
    | some item => exact h item (List.mem_of_getElem? hitem)

/-- The entries of a value that can be met are values that can be met. -/
theorem isMet_of_entries? {value : Value} {entries : List (Value × Value)} (h : s.IsMet value)
    (hentries : s.entries? value = some entries) : ∀ entry ∈ entries, s.IsMet entry.2 := by
  intro entry hentry
  cases h with
  | built h =>
    cases h with
    | elementary h =>
      obtain ⟨a, rfl, -⟩ := h
      cases hentries
    | list hcell | set hcell =>
      simp [entries?, cell_of_getElem? hcell, Cell.entries?] at hentries
    | map hcell _ hvalues =>
      simp only [entries?, cell_of_getElem? hcell, Cell.entries?, Option.some.injEq] at hentries
      subst hentries
      exact .built (hvalues entry hentry)
  | kind => cases hentries
  | scope hscope =>
    cases hentries
    exact .built (hscope entry ((firstOfEach_sublist [] _).subset hentry))

/-- The keys of a built map are elementary. -/
theorem isElementary_of_entries? {value : Value} {entries : List (Value × Value)}
    (h : s.IsBuilt value) (hentries : s.entries? value = some entries) :
    ∀ entry ∈ entries, entry.1.IsElementary := by
  cases h with
  | elementary h =>
    obtain ⟨a, rfl, -⟩ := h
    cases hentries
  | list hcell | set hcell =>
    simp [entries?, cell_of_getElem? hcell, Cell.entries?] at hentries
  | map hcell hkeys =>
    simp only [entries?, cell_of_getElem? hcell, Cell.entries?, Option.some.injEq] at hentries
    subst hentries
    exact hkeys

/-- The elements of a value that can be met are values that can be met. -/
theorem isMet_of_elements? {value : Value} {elements : List Value} (h : s.IsMet value)
    (helements : s.elements? value = some elements) : ∀ item ∈ elements, s.IsMet item := by
  intro item hitem
  cases h with
  | built h =>
    cases h with
    | elementary h =>
      obtain ⟨a, rfl, ha⟩ := h
      cases a with
      | text t =>
        cases helements
        obtain ⟨c, -, rfl⟩ := List.mem_map.1 hitem
        exact .built (.elementary ⟨_, rfl, trivial⟩)
      | null | bool | int | real => cases helements
      | _ => exact ha.elim
    | list hcell hitems =>
      simp only [elements?, cell_of_getElem? hcell, Option.some.injEq] at helements
      subst helements
      exact .built (hitems item hitem)
    | set hcell hitems =>
      simp only [elements?, cell_of_getElem? hcell, Option.some.injEq] at helements
      subst helements
      exact .built (.elementary (hitems item hitem))
    | map hcell => simp [elements?, cell_of_getElem? hcell] at helements
  | kind => cases helements
  | scope => cases helements

/-- A key of a value that can be met leads to such a value, or is a numeral of too many digits. -/
theorem goes_getValue {value : Value} (h : s.IsMet value) (key : String) :
    Goes s.IsMet (s.getValue value key) := by
  unfold getValue
  split
  · refine .kind fun info ↦ ?_
    split
    · exact Kind.noConfusion
    · exact kindOf_ne_host h info
  split
  · rename_i entries hentries
    exact goes_getEntry isMet_null (isMet_of_entries? h hentries) key
  split
  · rename_i elements helements
    exact goes_getElement isMet_null isMet_int (isMet_of_elements? h helements) key
  split
  · cases h with
    | built h =>
      cases h with
      | elementary h =>
        obtain ⟨a, ha, -⟩ := h
        cases ha
      | list hcell | set hcell | map hcell =>
        simp only [cell_of_getElem? hcell]
        exact isMet_null
  · cases h with
    | built h =>
      cases h with
      | elementary h =>
        obtain ⟨a, ha, helementary⟩ := h
        cases ha
        exact helementary.elim
    | kind hk => exact absurd rfl (hk _)
  · exact isMet_null

/-- The way from a scope outward ends with that from the outermost scope. -/
theorem exists_chain_eq_append (s : Store) (n : Nat) :
    ∃ front, s.chain n = front ++ s.chain (s.root n) := by
  induction n using chain.induct (s := s) with
  | case1 n parent hparent hlt ih =>
    obtain ⟨front, hfront⟩ := ih
    have hchain := chain_of_parent hparent hlt
    have hroot : s.root n = s.root parent := by
      have hne : s.chain parent ≠ [] := by
        rw [chain]
        split
        · split <;> exact List.cons_ne_nil _ _
        · exact List.cons_ne_nil _ _
      rw [root, root, hchain, List.getLast?_cons, List.getLast?_eq_some_getLast hne]
      rfl
    exact ⟨n :: front, by rw [hroot, hchain, List.cons_append, ← hfront]⟩
  | case2 n parent hparent hlt =>
    have hchain : s.chain n = [n] := by
      rw [chain, hparent]
      exact dif_neg hlt
    exact ⟨[], by rw [root, hchain]; exact hchain.symm⟩
  | case3 n hparent =>
    have hchain := chain_of_root hparent
    exact ⟨[], by rw [root, hchain]; exact hchain.symm⟩

/-- What keys lead to from a value; null leads nowhere. -/
def follow (s : Store) (value : Value) : List String → Except Fault Value
  | [] => .ok value
  | key :: rest => do
    let next ← s.getValue value key
    if next.isNull then return .null else s.follow next rest

/-- What the segments of a location lead to when a scope is current. -/
def variableAt (s : Store) (n : Nat) (place : Place) (segments : List String) :
    Except Fault Value :=
  s.follow (.scope (if place = .app then s.root n else n)) segments

theorem goes_follow {value : Value} (h : s.IsMet value) (keys : List String) :
    Goes s.IsMet (s.follow value keys) := by
  induction keys generalizing value with
  | nil => exact h
  | cons key rest ih =>
    refine (goes_getValue h key).bind fun next hnext ↦ ?_
    split
    · exact isMet_null
    · exact ih hnext

/-- The values in the outermost scope are among those that are seen from a scope. -/
theorem HoldsBuilt.root {n : Nat} (h : s.HoldsBuilt n) : s.HoldsBuilt (s.root n) := by
  obtain ⟨front, hfront⟩ := s.exists_chain_eq_append n
  intro entry hentry
  refine h entry ?_
  unfold bindings at hentry ⊢
  rw [hfront, List.flatMap_append]
  exact List.mem_append_right _ hentry

theorem goes_variableAt {n : Nat} (h : s.HoldsBuilt n) (place : Place) (segments : List String) :
    Goes s.IsMet (s.variableAt n place segments) := by
  unfold variableAt
  split
  · exact goes_follow (.scope h.root) segments
  · exact goes_follow (.scope h) segments

/-! ### Changes of values -/

/-- A container with a changed content, if there is one: otherwise nothing changes. -/
theorem goes_setCell {n : Nat} {change : Except Fault (Option Cell)}
    (h : Goes (fun _ ↦ True) change) :
    Goes (fun result : Store × Bool ↦ result.2 = false → result.1 = s) (do
      match ← change with
      | some content => return (s.setCell n content, true)
      | none => return (s, false)) := by
  refine h.bind fun content _ ↦ ?_
  cases content with
  | none => exact fun _ ↦ rfl
  | some content => exact fun hdone ↦ Bool.noConfusion hdone

/-- Putting under a key of a value that can be met has its place or changes nothing. -/
theorem goes_putValue {parent : Value} (h : s.IsMet parent) (key : String) (value : Value) :
    Goes (fun result ↦ result.2 = false → result.1 = s) (s.putValue parent key value) := by
  cases h with
  | built h =>
    cases h with
    | elementary h =>
      obtain ⟨a, rfl, -⟩ := h
      exact fun _ ↦ rfl
    | list hcell =>
      refine goes_setCell ?_
      rw [cell_of_getElem? hcell]
      exact (goes_position? _ _).bind fun _ _ ↦ trivial
    | set hcell | map hcell =>
      refine goes_setCell ?_
      rw [cell_of_getElem? hcell]
      trivial
  | kind => exact fun _ ↦ rfl
  | scope => exact fun hdone ↦ Bool.noConfusion hdone

/-- Deleting a key of a value that can be met finds it or changes nothing. -/
theorem goes_deleteValue {parent : Value} (h : s.IsMet parent) (key : String) :
    Goes (fun result ↦ result.2 = false → result.1 = s) (s.deleteValue parent key) := by
  cases h with
  | built h =>
    cases h with
    | elementary h =>
      obtain ⟨a, rfl, -⟩ := h
      exact fun _ ↦ rfl
    | list hcell =>
      refine goes_setCell ?_
      rw [cell_of_getElem? hcell]
      refine (goes_position? _ _).bind fun position _ ↦ ?_
      cases position <;> trivial
    | set hcell | map hcell =>
      refine goes_setCell ?_
      rw [cell_of_getElem? hcell]
      trivial
  | kind => exact fun _ ↦ rfl
  | @scope n =>
    simp only [deleteValue]
    cases s.unbind? n (.text key) with
    | some result => exact fun hdone ↦ Bool.noConfusion hdone
    | none => exact fun _ ↦ rfl

/-- A container of a built value is no key. -/
theorem unhashable?_of_isBuilt {n : Nat} (h : s.IsBuilt (.cell n)) :
    ((s.view (.cell n)).unhashable?).isSome = true := by
  have hview : s.view (.cell n) = (s.cell n).shows
      (s.viewWithin (s.cells.size + s.resources.size + s.scopes.size) [.cell n]) s.sideOf := rfl
  rw [hview]
  cases h with
  | elementary h =>
    obtain ⟨a, ha, -⟩ := h
    cases ha
  | list hcell | set hcell | map hcell =>
    rw [cell_of_getElem? hcell]
    rfl

theorem unhashable?_of_isElementary {value : Value} (h : value.IsElementary) :
    ((s.view value).unhashable?).isSome = false := by
  obtain ⟨a, rfl, -⟩ := h
  rfl

/-- Whether a target refuses a value: it is a set, and the value is a container. -/
def Refuses (s : Store) (target : Except Fault Value) (value : Value) : Prop :=
  ∃ n items m, target = .ok (.cell n) ∧ s.cells[n]? = some (.set items) ∧ value = .cell m

/-- Whether a target is a set that null is a member of. -/
def HoldsNull (s : Store) (target : Except Fault Value) : Prop :=
  ∃ n items, target = .ok (.cell n) ∧ s.cells[n]? = some (.set items) ∧ Value.null ∈ items

/-- Whether the answer to a post can be relied on: null, where another value was posted, says that
nothing is changed. Of a set with null as a member, null can also be the last element. -/
def TellsPost (s : Store) (target : Except Fault Value) (value answer : Value) (after : World) :
    Prop :=
  answer = .null → value ≠ .null → ¬ s.HoldsNull target → after.store = s

/-- The last element of a list or set. -/
theorem getElement_last (elements : List Value) :
    getElement elements "last" = .ok (elements.getLast?.getD .null) := by
  cases elements with
  | nil => rfl
  | cons first rest =>
    have hlast : position? (first :: rest).length "last" = .ok (some rest.length) := by
      simp [position?]
    rw [List.getLast?_eq_getElem?]
    simp only [getElement, hlast]
    rfl

/-- What the last element of a list or set is read as. -/
theorem getValue_last {n : Nat} {items : List Value}
    (h : s.cells[n]? = some (.list items) ∨ s.cells[n]? = some (.set items)) :
    s.getValue (.cell n) "last" = .ok (items.getLast?.getD .null) :=
  (getValue_elements h (by decide)).trans (getElement_last items)

end Store

/-! ### Runs that fail at most on data -/

/-- Whether a run ends with an answer and a world of a given sort, or fails in a way that resources
answer by a failure value, with the store that it had before. -/
inductive Settles {α : Type} (before : Store) (P : α → World → Prop) : Except Stop α × World → Prop
  /-- The run ends with an answer. -/
  | done {a : α} {v : World} (h : P a v) : Settles before P (.ok a, v)
  /-- The run fails on data. -/
  | failed {cause : Fault} {v : World} (hcause : cause.isDataFault = true)
    (hstore : v.store = before) : Settles before P (.error (.fault cause), v)

namespace Settles

variable {α β : Type} {before : Store} {P : α → World → Prop} {Q : β → World → Prop}

theorem mono {P' : α → World → Prop} {run : Except Stop α × World} (hrun : Settles before P run)
    (h : ∀ a v, P a v → P' a v) : Settles before P' run := by
  cases hrun with
  | done hP => exact .done (h _ _ hP)
  | failed hcause hstore => exact .failed hcause hstore

theorem bind {x : Script α} {next : α → Script β} {w : World} (hx : Settles before P (x w))
    (hnext : ∀ a v, P a v → Settles before Q (next a v)) : Settles before Q ((x >>= next) w) := by
  generalize hrun : x w = run at hx
  cases hx with
  | done hP =>
    rw [Script.bind_of_ok hrun]
    exact hnext _ _ hP
  | failed hcause hstore =>
    rw [Script.bind_of_error hrun]
    exact .failed hcause hstore

/-- A computation on the store settles if it goes. -/
theorem ofExcept {P : α → Prop} {x : Except Fault α} (hx : Goes P x) (jobs : Job → Script Value)
    (w : World) :
    Settles w.store (fun a v ↦ P a ∧ v = w) ((Script.ofExcept x).run jobs w) := by
  cases x with
  | ok a => exact .done ⟨hx, rfl⟩
  | error cause => exact .failed hx rfl

end Settles

namespace Script

variable {jobs : Job → Script Value} {w : World} {n : Nat} {r : ResourceRef} {uri : String}

/-! ### The steps of the operations -/

section

variable {α : Type} {warning : Warning} {failed : α} {body : String → Task α}

/-- An operation whose steps settle ends with an answer. -/
theorem ends_operate {P : α → World → Prop} (huri : (w.store.resource r).uri = some uri)
    (hbody : Settles w.store P ((body uri).run jobs w))
    (hfailed : ∀ v : World, v.store = w.store → P failed v) :
    ∃ a v, (operate r warning failed body).run jobs w = (.ok a, v) ∧ P a v := by
  generalize hrun : (body uri).run jobs w = run at hbody
  cases hbody with
  | done hP =>
    rw [run_operate huri, hrun]
    exact ⟨_, _, rfl, hP⟩
  | failed hcause hstore =>
    rw [run_operate huri, hrun]
    exact ⟨failed, _, if_pos hcause, hfailed _ hstore⟩

end

/-! ### The bodies of the operations -/

theorem run_walk (value : Value) (keys : List String) :
    (walk value keys).run jobs w = (ofExcept (w.store.follow value keys)).run jobs w := by
  induction keys generalizing value with
  | nil => rfl
  | cons key rest ih =>
    have hget : (walk value (key :: rest)).run jobs w =
        ((ofExcept (w.store.getValue value key)).run jobs >>= fun next ↦
          (if next.isNull then (return .null : Task Value) else walk next rest).run jobs) w := by
      rw [← Task.run_bind]
      rfl
    rw [hget, bind_apply, Store.follow]
    cases w.store.getValue value key with
    | error cause => rfl
    | ok next =>
      show (if next.isNull then (return .null : Task Value) else walk next rest).run jobs w =
        (ofExcept (if next.isNull then .ok .null else w.store.follow next rest)).run jobs w
      split
      · rfl
      · exact ih next

/-- A place begins in the scope that is current, or in its root. -/
theorem run_scopeOf (hcurrent : w.current = some n) (place : Place) :
    (scopeOf place).run jobs w = (.ok (if place = .app then w.store.root n else n), w) := by
  have hquery : w.answer .scope = (n, w) := by
    simp only [World.answer, World.scope, hcurrent]
  have hrun : (scopeOf place).run jobs w =
      (.ok (if place = .app then (w.answer .scope).2.store.root (w.answer .scope).1
        else (w.answer .scope).1), (w.answer .scope).2) := rfl
  rw [hrun, hquery]

theorem run_walkFrom (hcurrent : w.current = some n) (place : Place) (segments : List String) :
    (walkFrom place segments).run jobs w =
      (ofExcept (w.store.variableAt n place segments)).run jobs w := by
  rw [walkFrom, Task.run_bind, bind_of_ok (run_scopeOf hcurrent place)]
  exact run_walk _ segments

theorem settles_walkFrom (hcurrent : w.current = some n) (hbuilt : w.store.HoldsBuilt n)
    (place : Place) (segments : List String) :
    Settles w.store (fun target v ↦ (w.store.variableAt n place segments = .ok target ∧
      w.store.IsMet target) ∧ v = w) ((walkFrom place segments).run jobs w) := by
  have hgoes := Store.goes_variableAt hbuilt place segments
  rw [run_walkFrom hcurrent]
  refine .ofExcept ?_ jobs w
  cases htarget : w.store.variableAt n place segments with
  | ok target =>
    rw [htarget] at hgoes
    exact ⟨rfl, hgoes⟩
  | error cause =>
    rw [htarget] at hgoes
    exact hgoes

theorem run_change (result : Except Fault (Store × Bool)) :
    (change result).run jobs w =
      match result with
      | .ok (store, done) => (.ok done, { w with store })
      | .error cause => (.error (.fault cause), w) := by
  cases result <;> rfl

theorem settles_change {result : Except Fault (Store × Bool)}
    (h : Goes (fun result ↦ result.2 = false → result.1 = w.store) result) :
    Settles w.store (fun done v ↦ done = false → v.store = w.store)
      ((change result).run jobs w) := by
  rw [run_change]
  cases result with
  | error cause => exact .failed h rfl
  | ok result => exact .done h

/-- Binding entries under elementary keys does not fail. -/
theorem exists_run_bindAll {entries : List (Value × Value)}
    (h : ∀ entry ∈ entries, entry.1.IsElementary) (jobs : Job → Script Value) (n : Nat)
    (w : World) :
    ∃ v, (entries.forM fun (key, item) ↦ discard (bind n key item) : Task Unit).run jobs w =
      (.ok (), v) := by
  induction entries generalizing w with
  | nil => exact ⟨w, rfl⟩
  | cons entry rest ih =>
    obtain ⟨key, item⟩ := entry
    obtain ⟨a, rfl, -⟩ := h (key, item) List.mem_cons_self
    obtain ⟨v, hrest⟩ := ih (fun e he ↦ h e (List.mem_cons_of_mem _ he))
      { w with store := (w.store.bind n (.atom a) item).1 }
    refine ⟨v, ?_⟩
    have hcons : ((((.atom a, item) :: rest).forM fun (key, item) ↦
        discard (bind n key item)) : Task Unit) =
        bind n (.atom a) item >>= fun _ ↦ rest.forM fun (key, item) ↦ discard (bind n key item) :=
      bind_assoc (bind n (.atom a) item) (fun _ ↦ pure ()) fun _ ↦ _
    rw [hcons, Task.run_bind, bind_of_ok (run_bind (.atom a) item)]
    exact hrest

variable {place : Place} {value : Value} {execute : Value → Task Value}

/-- Only a map with entries is merged; when it is not, nothing is bound. -/
theorem settles_mergeRoot (hcurrent : w.current = some n) (hvalue : w.store.IsBuilt value) :
    Settles w.store (fun done v ↦ done = false → v.store = w.store)
      ((mergeRoot place value).run jobs w) := by
  have hstore : store.run jobs w = (.ok w.store, w) := rfl
  rw [mergeRoot, Task.run_bind, bind_of_ok hstore]
  split
  · rename_i entry entries hentries
    obtain ⟨v, hrun⟩ := exists_run_bindAll (Store.isElementary_of_entries? hvalue hentries) jobs
      (if place = .app then w.store.root n else n) w
    rw [Task.run_bind, bind_of_ok (run_scopeOf hcurrent place), Task.run_bind, bind_of_ok hrun]
    exact .done fun hdone ↦ Bool.noConfusion hdone
  · exact .done fun _ ↦ rfl

theorem settles_putVariable (hcurrent : w.current = some n) (hbuilt : w.store.HoldsBuilt n)
    (hvalue : w.store.IsBuilt value)
    (hexecute : ∀ v : World, (execute value).run jobs v = (.ok value, v)) :
    Settles w.store (fun done v ↦ done = false → v.store = w.store)
      ((putVariable execute place uri value).run jobs w) := by
  unfold putVariable
  dsimp only
  split
  · rw [Task.run_bind, bind_of_ok (hexecute w)]
    exact settles_mergeRoot hcurrent hvalue
  · rename_i key hkey
    rw [Task.run_bind]
    refine (settles_walkFrom hcurrent hbuilt place _).bind ?_
    rintro parent _ ⟨⟨-, hparent⟩, rfl⟩
    split
    · exact .done fun _ ↦ rfl
    · rw [Task.run_bind, bind_of_ok (hexecute _)]
      exact settles_change (Store.goes_putValue hparent key value)

/-- Taking up entries under elementary keys does not fail. -/
theorem exists_run_updateMap (target : Value) {entries : List (Value × Value)}
    (h : ∀ entry ∈ entries, entry.1.IsElementary) (jobs : Job → Script Value) (w : World) :
    ∃ v, (updateMap target entries).run jobs w = (.ok (), v) := by
  cases target with
  | scope m => exact exists_run_bindAll h jobs m w
  | cell m =>
    have hstore : store.run jobs w = (.ok w.store, w) := rfl
    simp only [updateMap]
    rw [Task.run_bind, bind_of_ok hstore]
    split <;> exact ⟨_, rfl⟩
  | _ => exact ⟨w, rfl⟩

/-- A value that is added to a set without null is answered, or another one that is not null. -/
theorem last_addItem_ne_null {s : Store} {items : List Value} (hvalue : value ≠ .null)
    (hitems : Value.null ∉ items) : (s.addItem items value).getLast?.getD .null ≠ .null := by
  unfold Store.addItem
  split
  · rename_i hany
    obtain ⟨item, hitem, -⟩ := List.any_eq_true.1 hany
    have hne : items ≠ [] := List.ne_nil_of_mem hitem
    rw [List.getLast?_eq_some_getLast hne]
    intro hnull
    exact hitems (hnull ▸ List.getLast_mem hne)
  · rw [List.getLast?_concat]
    exact hvalue

/-- Posting a value to a target that takes it up answers its last element, and null only if there
was nothing to post to. -/
theorem settles_postItem {target : Value} (htarget : w.store.IsMet target)
    (hvalue : w.store.IsBuilt value) (haccepts : ¬ w.store.Refuses (.ok target) value) :
    Settles w.store (w.store.TellsPost (.ok target) value)
      ((postItem target value).run jobs w) := by
  have hrefused (h : w.store.postValue target value = .ok (w.store, false)) :
      (postValue target value).run jobs w = (.ok false, w) := by
    show (change (w.store.postValue target value)).run jobs w = _
    rw [run_change, h]
  have hdone {after : Store} {last : Value}
      (hpost : w.store.postValue target value = .ok (after, true))
      (hget : after.getValue target "last" = .ok last)
      (hlast : value ≠ .null → ¬ w.store.HoldsNull (.ok target) → last ≠ .null) :
      Settles w.store (w.store.TellsPost (.ok target) value)
        ((postItem target value).run jobs w) := by
    have hrun : (postValue target value).run jobs w = (.ok true, { w with store := after }) := by
      show (change (w.store.postValue target value)).run jobs w = _
      rw [run_change, hpost]
    have hread : (getValue target (.text "last")).run jobs { w with store := after } =
        (.ok last, { w with store := after }) := by
      show (ofExcept (after.getValue target "last")).run jobs _ = _
      rw [hget]
      rfl
    rw [postItem, Task.run_bind, bind_of_ok hrun]
    show Settles _ _ ((getValue target (.text "last")).run jobs _)
    rw [hread]
    exact .done fun hnull hne hholds ↦ absurd hnull (hlast hne hholds)
  have hnothing (h : w.store.postValue target value = .ok (w.store, false)) :
      Settles w.store (w.store.TellsPost (.ok target) value)
        ((postItem target value).run jobs w) := by
    rw [postItem, Task.run_bind, bind_of_ok (hrefused h)]
    exact .done fun _ _ _ ↦ rfl
  cases htarget with
  | built h =>
    cases h with
    | elementary h =>
      obtain ⟨a, rfl, -⟩ := h
      exact hnothing rfl
    | @list m items hcell =>
      have hpost : w.store.postValue (.cell m) value =
          .ok (w.store.setCell m (.list (items ++ [value])), true) := by
        simp only [Store.postValue, Store.cell_of_getElem? hcell]
      refine hdone hpost (Store.getValue_last (.inl (Store.getElem?_setCell_self hcell))) ?_
      rw [List.getLast?_concat]
      exact fun hne _ ↦ hne
    | @set m items hcell hitems =>
      have helementary : value.IsElementary := by
        cases hvalue with
        | elementary h => exact h
        | list | set | map => exact absurd ⟨m, items, _, rfl, hcell, rfl⟩ haccepts
      have hpost : w.store.postValue (.cell m) value =
          .ok (w.store.setCell m (.set (w.store.addItem items value)), true) := by
        simp [Store.postValue, Store.cell_of_getElem? hcell,
          Store.unhashable?_of_isElementary helementary]
      refine hdone hpost (Store.getValue_last (.inr (Store.getElem?_setCell_self hcell))) ?_
      intro hne hholds
      exact last_addItem_ne_null hne fun hnull ↦ hholds ⟨m, items, rfl, hcell, hnull⟩
    | @map m entries hcell =>
      refine hnothing ?_
      simp only [Store.postValue, Store.cell_of_getElem? hcell]
  | kind => exact hnothing rfl
  | scope => exact hnothing rfl

theorem settles_deleteVariable (hcurrent : w.current = some n) (hbuilt : w.store.HoldsBuilt n) :
    Settles w.store (fun done v ↦ done = false → v.store = w.store)
      ((deleteVariable place uri).run jobs w) := by
  unfold deleteVariable
  dsimp only
  split
  · exact .done fun _ ↦ rfl
  · rename_i key hkey
    rw [Task.run_bind]
    refine (settles_walkFrom hcurrent hbuilt place _).bind ?_
    rintro parent _ ⟨⟨-, hparent⟩, rfl⟩
    split
    · exact .done fun _ ↦ rfl
    · exact settles_change (Store.goes_deleteValue hparent key)

theorem settles_postVariable (hcurrent : w.current = some n) (hbuilt : w.store.HoldsBuilt n)
    (hvalue : w.store.IsBuilt value)
    (hexecute : ∀ v : World, (execute value).run jobs v = (.ok value, v))
    (haccepts : ¬ w.store.Refuses (w.store.variableAt n place (Location.segments uri)) value) :
    Settles w.store
      (w.store.TellsPost (w.store.variableAt n place (Location.segments uri)) value)
      ((postVariable execute place uri value).run jobs w) := by
  unfold postVariable
  dsimp only
  split
  · rw [Task.run_bind, bind_of_ok (hexecute w), Task.run_bind]
    refine (settles_mergeRoot hcurrent hvalue).bind ?_
    intro done v hdone
    cases done with
    | true => exact .done fun hnull hne _ ↦ absurd hnull hne
    | false => exact .done fun _ _ _ ↦ hdone rfl
  · rw [Task.run_bind]
    refine (settles_walkFrom hcurrent hbuilt place _).bind ?_
    rintro target w ⟨⟨htarget, hmet⟩, rfl⟩
    have hstore : store.run jobs w = (.ok w.store, w) := rfl
    rw [Task.run_bind, bind_of_ok (hexecute _), Task.run_bind, bind_of_ok hstore]
    rw [htarget] at haccepts ⊢
    split
    · rename_i entries hentries hvalues
      obtain ⟨v, hrun⟩ := exists_run_updateMap target
        (Store.isElementary_of_entries? hvalue hvalues) jobs w
      have hne : target ≠ .null := by
        rintro rfl
        cases hentries
      rw [Task.run_bind, bind_of_ok hrun]
      exact .done fun hnull ↦ absurd hnull hne
    · exact settles_postItem hmet hvalue haccepts

/-- A set refuses a container. -/
theorem run_postVariable_of_refuses (hcurrent : w.current = some n)
    (hvalue : w.store.IsBuilt value)
    (hexecute : ∀ v : World, (execute value).run jobs v = (.ok value, v))
    (hrefuses : w.store.Refuses (w.store.variableAt n place (Location.segments uri)) value) :
    (postVariable execute place uri value).run jobs w = (.error (.fault .type), w) := by
  obtain ⟨m, items, k, htarget, hcell, rfl⟩ := hrefuses
  have hsegments : ¬ (Location.segments uri).isEmpty = true := by
    intro hempty
    rw [List.isEmpty_iff.1 hempty] at htarget
    cases htarget
  have hwalk : (walkFrom place (Location.segments uri)).run jobs w = (.ok (.cell m), w) := by
    rw [run_walkFrom hcurrent, htarget]
    rfl
  have hstore : store.run jobs w = (.ok w.store, w) := rfl
  have hentries : w.store.entries? (.cell m) = none := by
    simp [Store.entries?, Store.cell_of_getElem? hcell, Cell.entries?]
  have hpost : (postItem (.cell m) (.cell k)).run jobs w = (.error (.fault .type), w) := by
    have hchange : (postValue (.cell m) (.cell k)).run jobs w =
        (change (w.store.postValue (.cell m) (.cell k))).run jobs w := rfl
    rw [run_change] at hchange
    simp only [Store.postValue, Store.cell_of_getElem? hcell, Store.unhashable?_of_isBuilt hvalue,
      if_true] at hchange
    rw [postItem, Task.run_bind, bind_of_error hchange]
  unfold postVariable
  dsimp only
  rw [if_neg hsegments, Task.run_bind, bind_of_ok hwalk, Task.run_bind, bind_of_ok (hexecute w),
    Task.run_bind, bind_of_ok hstore, hentries]
  exact hpost

/-! ### The operations -/

/-- A location that addresses a variable. -/
def IsVariable (uri : String) : Prop :=
  Location.place uri = .variable ∨ Location.place uri = .app

theorem run_execute_of_isBuilt (hvalue : w.store.IsBuilt value) (depth : Nat) (v : World) :
    (Script.execute value).run (Job.run (depth + 1)) v = (.ok value, v) := by
  have hplain := hvalue.isReadable.isPlain
  have hrun : (Script.execute value).run (Job.run (depth + 1)) =
      (Job.execute value).run (depth + 1) := Task.run_job _
  rw [hrun, Job.run_execute_of_isPlain hplain]
  rfl

/-- In scopes of built values, every operation of a resource that addresses a variable ends with an
answer: its data is read, put, posted to and deleted, and the store is not changed when putting or
deleting answers false, or posting a value other than null answers null. Posting to a set has an
exception of either sort: a container is refused with a failure that is passed on, and of a set with
null as a member null can be answered for a value that is in the set. -/
theorem ends_onVariable (hcurrent : w.current = some n) (hbuilt : w.store.HoldsBuilt n)
    (huri : (w.store.resource r).uri = some uri) (hplace : IsVariable uri)
    (hvalue : w.store.IsBuilt value) (depth : Nat) :
    let target := w.store.variableAt n (Location.place uri) (Location.segments uri)
    (∃ a v, (getData r).runAt (depth + 1) w = (.ok a, v) ∧ v.store = w.store) ∧
    (∃ done v, (putData Script.execute r value).runAt (depth + 1) w = (.ok done, v) ∧
      (done = false → v.store = w.store)) ∧
    (¬ w.store.Refuses target value → ∃ a v,
      (postData Script.execute r value).runAt (depth + 1) w = (.ok a, v) ∧
        w.store.TellsPost target value a v) ∧
    (w.store.Refuses target value →
      (postData Script.execute r value).runAt (depth + 1) w = (.error (.fault .type), w)) ∧
    ∃ done v, (deleteData r).runAt (depth + 1) w = (.ok done, v) ∧
      (done = false → v.store = w.store) := by
  have hexecute := run_execute_of_isBuilt hvalue depth
  refine ⟨?get, ?put, ?post, ?refused, ?delete⟩
  case get =>
    rw [getData, Task.runAt]
    refine ends_operate huri (P := fun _ v ↦ v.store = w.store) ?_ fun _ h ↦ h
    rcases hplace with hplace | hplace
    all_goals
      simp only [hplace]
      exact (settles_walkFrom hcurrent hbuilt _ _).mono fun _ _ h ↦ congrArg World.store h.2
  case put =>
    rw [putData, Task.runAt]
    refine ends_operate huri (P := fun done v ↦ done = false → v.store = w.store) ?_ fun _ h _ ↦ h
    rcases hplace with hplace | hplace
    all_goals
      simp only [hplace]
      exact settles_putVariable hcurrent hbuilt hvalue hexecute
  case post =>
    intro haccepts
    rw [postData, Task.runAt]
    refine ends_operate huri (P := w.store.TellsPost _ value) ?_ fun _ h _ _ _ ↦ h
    rcases hplace with hplace | hplace
    all_goals
      simp only [hplace] at haccepts ⊢
      exact settles_postVariable hcurrent hbuilt hvalue hexecute haccepts
  case refused =>
    intro hrefuses
    rw [postData, Task.runAt]
    refine run_operate_of_fault huri ?_ rfl
    rcases hplace with hplace | hplace
    all_goals
      simp only [hplace] at hrefuses ⊢
      exact run_postVariable_of_refuses hcurrent hvalue hexecute hrefuses
  case delete =>
    rw [deleteData, Task.runAt]
    refine ends_operate huri (P := fun done v ↦ done = false → v.store = w.store) ?_ fun _ h _ ↦ h
    rcases hplace with hplace | hplace
    all_goals
      simp only [hplace]
      exact settles_deleteVariable hcurrent hbuilt

/-- A world in which the variable `x` is an empty set and the first resource addresses it. -/
def setWorld : World :=
  { builtinWorld with
    store := ⟨#[.set []], #[⟨.text "x", some "x", none⟩], #[⟨none, [], [(.text "x", .cell 0)], []⟩], []⟩
    current := some 0 }

theorem ends_onVariable_setWorld :
    (∃ a v, (getData (.made 0)).runAt 1 setWorld = (.ok a, v) ∧ v.store = setWorld.store) ∧
    (∃ a v, (postData Script.execute (.made 0) (.int 1)).runAt 1 setWorld = (.ok a, v)) ∧
    (postData Script.execute (.made 0) (.cell 0)).runAt 1 setWorld = (.error (.fault .type), setWorld) := by
  have hset : setWorld.store.IsBuilt (.cell 0) := .set rfl nofun
  have hone : setWorld.store.IsBuilt (.int 1) := .elementary ⟨.int 1, rfl, trivial⟩
  have hbindings : setWorld.store.bindings 0 = [(.text "x", .cell 0)] := by
    rw [Store.bindings, Store.chain_of_root rfl]
    rfl
  have hbuilt : setWorld.store.HoldsBuilt 0 := by
    intro entry hentry
    rw [hbindings, List.mem_singleton] at hentry
    exact hentry ▸ hset
  have hplace : IsVariable "x" := .inl rfl
  have htarget : setWorld.store.variableAt 0 .variable ["x"] = .ok (.cell 0) := by
    have hvisible : setWorld.store.entries? (.scope 0) = some [(.text "x", .cell 0)] := by
      rw [Store.entries?, Store.visible, hbindings]
      rfl
    have hget : setWorld.store.getValue (.scope 0) "x" = .ok (.cell 0) := by
      unfold Store.getValue
      rw [hvisible]
      rfl
    show setWorld.store.follow (.scope 0) ["x"] = .ok (.cell 0)
    rw [Store.follow, hget]
    rfl
  have huri : (setWorld.store.resource (.made 0)).uri = some "x" := rfl
  have hones := ends_onVariable rfl hbuilt huri hplace hone 0
  have hsets := ends_onVariable rfl hbuilt huri hplace hset 0
  refine ⟨hones.1, ?_, hsets.2.2.2.1 ⟨0, [], 0, htarget, rfl, rfl⟩⟩
  obtain ⟨a, v, hrun, -⟩ := hones.2.2.1 (by rintro ⟨_, _, _, _, _, ⟨⟩⟩)
  exact ⟨a, v, hrun⟩

end Script

end ResourceScript

import Mathlib.Logic.Relation
import ResourceScript.Proofs.Resource.Variables
/-!
# What is put into a variable is what is read

Putting follows all keys of a location but the last, and changes the scope or container that they
lead to; reading follows all of them. Built values have no cycles, so the container that is changed
is not met on the way to it, and the way leads to it again (`Store.follow_setCell`). There the last
key reads what was put under it (`Store.getValue_putContent`), as a key of a map or a position of a
list. So the data that is put is read back (`Script.putData_getData`).
-/

set_option autoImplicit false

namespace ResourceScript

namespace Store

variable {s : Store} {n p : Nat} {key : String} {value next : Value}

/-! ### Parts of values -/

/-- Whether a value stands in a container: as an item of a list or under a key of a map. -/
inductive IsPart (s : Store) : Value → Value → Prop
  /-- An item of a list. -/
  | item {n : Nat} {items : List Value} {item : Value} (hcell : s.cells[n]? = some (.list items))
    (hitem : item ∈ items) : IsPart s item (.cell n)
  /-- A value of a map. -/
  | entry {n : Nat} {entries : List (Value × Value)} {entry : Value × Value}
    (hcell : s.cells[n]? = some (.map entries)) (hentry : entry ∈ entries) :
    IsPart s entry.2 (.cell n)

theorem IsBuilt.of_isPart (hvalue : s.IsBuilt value) (hpart : s.IsPart next value) :
    s.IsBuilt next := by
  cases hpart with
  | item hcell hitem =>
    cases hvalue with
    | elementary h =>
      obtain ⟨a, ha, -⟩ := h
      cases ha
    | list hcell' hitems =>
      cases hcell.symm.trans hcell'
      exact hitems _ hitem
    | set hcell' | map hcell' => cases hcell.symm.trans hcell'
  | entry hcell hentry =>
    cases hvalue with
    | elementary h =>
      obtain ⟨a, ha, -⟩ := h
      cases ha
    | list hcell' | set hcell' => cases hcell.symm.trans hcell'
    | map hcell' _ hvalues =>
      cases hcell.symm.trans hcell'
      exact hvalues _ hentry

/-- The parts of the parts of a built value come to an end. -/
theorem IsBuilt.acc (hvalue : s.IsBuilt value) : Acc s.IsPart value := by
  induction hvalue with
  | elementary h =>
    obtain ⟨a, rfl, -⟩ := h
    exact .intro _ fun _ hpart ↦ nomatch hpart
  | list hcell _ ih =>
    refine .intro _ fun part hpart ↦ ?_
    cases hpart with
    | item hcell' hitem =>
      cases hcell.symm.trans hcell'
      exact ih _ hitem
    | entry hcell' => cases hcell.symm.trans hcell'
  | set hcell =>
    refine .intro _ fun part hpart ↦ ?_
    cases hpart with
    | item hcell' | entry hcell' => cases hcell.symm.trans hcell'
  | map hcell _ _ ih =>
    refine .intro _ fun part hpart ↦ ?_
    cases hpart with
    | item hcell' => cases hcell.symm.trans hcell'
    | entry hcell' hentry =>
      cases hcell.symm.trans hcell'
      exact ih _ hentry

theorem IsBuilt.exists_content (hvalue : s.IsBuilt (.cell p)) :
    ∃ content, s.cells[p]? = some content := by
  cases hvalue with
  | elementary h =>
    obtain ⟨a, ha, -⟩ := h
    cases ha
  | list hcell | set hcell | map hcell => exact ⟨_, hcell⟩

/-- No built value stands in itself, however deep. -/
theorem IsBuilt.not_transGen_self (hvalue : s.IsBuilt value) :
    ¬ Relation.TransGen s.IsPart value value := by
  have hacc : Acc (Relation.TransGen s.IsPart) value := hvalue.acc.transGen
  intro hself
  induction hacc with
  | intro value _ ih => exact ih value hself hvalue hself

/-- A key other than `type` reads nothing of a readable value, or an element, or an entry; elements
are parts or elementary, and entries are parts. -/
theorem IsReadable.getValue_cases (hvalue : s.IsReadable value) (htype : key ≠ "type") :
    s.getValue value key = .ok .null ∨
    (∃ elements, s.getValue value key = getElement elements key ∧
      ∀ item ∈ elements, item.IsElementary ∨ s.IsPart item value) ∨
    ∃ entries, s.getValue value key = s.getEntry entries key ∧
      ∀ entry ∈ entries, s.IsPart entry.2 value := by
  cases hvalue with
  | elementary h =>
    obtain ⟨a, rfl, ha⟩ := h
    cases a with
    | text t =>
      refine .inr (.inl ⟨t.toList.map fun c ↦ .text c.toString, ?_, fun item hitem ↦ ?_⟩)
      · simp only [getValue, if_neg htype, entries?, elements?]
      · obtain ⟨c, -, rfl⟩ := List.mem_map.1 hitem
        exact .inl ⟨_, rfl, trivial⟩
    | null | bool | int | real =>
      refine .inl ?_
      simp only [getValue, if_neg htype, entries?, elements?]
    | _ => exact ha.elim
  | list hcell =>
    exact .inr (.inl ⟨_, getValue_elements (.inl hcell) htype, fun _ h ↦ .inr (.item hcell h)⟩)
  | set hcell hitems =>
    exact .inr (.inl ⟨_, getValue_elements (.inr hcell) htype, fun _ h ↦ .inl (hitems _ h)⟩)
  | map hcell =>
    exact .inr (.inr ⟨_, getValue_map hcell htype, fun _ h ↦ .entry hcell h⟩)

/-- A key other than `type` leads from a readable value to a part or to an elementary value. -/
theorem goes_getValue_part (hvalue : s.IsReadable value) (htype : key ≠ "type") :
    Goes (fun next ↦ next.IsElementary ∨ s.IsPart next value) (s.getValue value key) := by
  have hnull : Value.null.IsElementary := ⟨.null, rfl, trivial⟩
  have hint (i : Int) : (Value.int i).IsElementary := ⟨.int i, rfl, trivial⟩
  obtain hget | ⟨elements, hget, helements⟩ | ⟨entries, hget, hentries⟩ :=
    hvalue.getValue_cases htype
  · rw [hget]
    exact .inl hnull
  · rw [hget]
    exact goes_getElement (.inl hnull) (fun i ↦ .inl (hint i)) helements key
  · rw [hget]
    exact goes_getEntry (.inl hnull) (fun entry h ↦ .inr (hentries entry h)) key

/-! ### Ways through values -/

/-- A way goes on from where its first keys lead. -/
theorem follow_append {front rest : List String} (hfront : s.follow value front = .ok next)
    (hnext : next.isNull = false) : s.follow value (front ++ rest) = s.follow next rest := by
  induction front generalizing value with
  | nil =>
    cases hfront
    rfl
  | cons key front ih =>
    rw [follow] at hfront
    rw [List.cons_append, follow]
    cases hget : s.getValue value key with
    | error cause =>
      rw [hget] at hfront
      cases hfront
    | ok met =>
      rw [hget] at hfront
      change (if met.isNull then Except.ok Value.null else s.follow met front) = _ at hfront
      show (if met.isNull then Except.ok Value.null else s.follow met (front ++ rest)) = _
      split at hfront
      · cases hfront
        cases hnext
      · rename_i hmet
        rw [if_neg hmet]
        exact ih hfront

/-- The first step of a way to a container. -/
theorem follow_cons_eq_cell {rest : List String}
    (hfollow : s.follow value (key :: rest) = .ok (.cell p)) :
    ∃ next, s.getValue value key = .ok next ∧ next.isNull = false ∧
      s.follow next rest = .ok (.cell p) := by
  rw [follow] at hfollow
  cases hget : s.getValue value key with
  | error cause =>
    rw [hget] at hfollow
    cases hfollow
  | ok next =>
    rw [hget] at hfollow
    change (if next.isNull then Except.ok Value.null else s.follow next rest) = _ at hfollow
    split at hfollow
    · cases hfollow
    · rename_i hnext
      exact ⟨next, rfl, Bool.eq_false_iff.2 hnext, hfollow⟩

/-- No keys lead from an elementary value to a container. -/
theorem follow_ne_cell {keys : List String} (hvalue : value.IsElementary)
    (htype : "type" ∉ keys) : s.follow value keys ≠ .ok (.cell p) := by
  induction keys generalizing value with
  | nil =>
    obtain ⟨a, rfl, -⟩ := hvalue
    exact nofun
  | cons key rest ih =>
    obtain ⟨hkey, hrest⟩ := List.ne_and_not_mem_of_not_mem_cons htype
    intro hfollow
    obtain ⟨next, hget, -, hnext⟩ := follow_cons_eq_cell hfollow
    have hgoes := goes_getValue_part (s := s) (.elementary hvalue) (Ne.symm hkey)
    rw [hget] at hgoes
    rcases hgoes with helementary | hpart
    · exact ih helementary hrest hnext
    · obtain ⟨a, rfl, -⟩ := hvalue
      cases hpart

/-- The first step of a way from a built value to a container leads to a part of the value. -/
theorem exists_part_of_follow {rest : List String} (hvalue : s.IsBuilt value)
    (htype : "type" ∉ key :: rest) (hfollow : s.follow value (key :: rest) = .ok (.cell p)) :
    ∃ next, s.getValue value key = .ok next ∧ next.isNull = false ∧ s.IsPart next value ∧
      s.follow next rest = .ok (.cell p) := by
  obtain ⟨hkey, hrest⟩ := List.ne_and_not_mem_of_not_mem_cons htype
  obtain ⟨next, hget, hnull, hnext⟩ := follow_cons_eq_cell hfollow
  have hgoes := goes_getValue_part hvalue.isReadable (Ne.symm hkey)
  rw [hget] at hgoes
  rcases hgoes with helementary | hpart
  · exact absurd hnext (follow_ne_cell helementary hrest)
  · exact ⟨next, hget, hnull, hpart, hnext⟩

/-- A container to which keys lead from a built value stands in that value. -/
theorem transGen_of_follow {rest : List String} (hvalue : s.IsBuilt value)
    (htype : "type" ∉ key :: rest) (hfollow : s.follow value (key :: rest) = .ok (.cell p)) :
    Relation.TransGen s.IsPart (.cell p) value := by
  induction rest generalizing value key with
  | nil =>
    obtain ⟨next, -, -, hpart, hnext⟩ := exists_part_of_follow hvalue htype hfollow
    cases hnext
    exact .single hpart
  | cons key' rest ih =>
    obtain ⟨next, -, -, hpart, hnext⟩ := exists_part_of_follow hvalue htype hfollow
    exact (ih (hvalue.of_isPart hpart) (List.not_mem_of_not_mem_cons htype) hnext).tail hpart

/-! ### Ways to a container that is changed -/

theorem getElem?_setCell_ne {m : Nat} (hne : m ≠ p) (content : Cell) :
    (s.setCell p content).cells[m]? = s.cells[m]? :=
  Array.getElem?_setIfInBounds_ne hne.symm

/-- What a key of a built value reads does not depend on other containers. -/
theorem getValue_setCell (hvalue : s.IsBuilt value) (hne : value ≠ .cell p) (htype : key ≠ "type")
    (content : Cell) : (s.setCell p content).getValue value key = s.getValue value key := by
  cases hvalue with
  | elementary h =>
    obtain ⟨a, rfl, ha⟩ := h
    cases a with
    | null | bool | int | real | text => rfl
    | _ => exact ha.elim
  | @list m items hcell =>
    have hm : m ≠ p := fun h ↦ hne (h ▸ rfl)
    rw [getValue_elements (.inl hcell) htype,
      getValue_elements (.inl ((getElem?_setCell_ne hm content).trans hcell)) htype]
  | @set m items hcell =>
    have hm : m ≠ p := fun h ↦ hne (h ▸ rfl)
    rw [getValue_elements (.inr hcell) htype,
      getValue_elements (.inr ((getElem?_setCell_ne hm content).trans hcell)) htype]
  | @map m entries hcell =>
    have hm : m ≠ p := fun h ↦ hne (h ▸ rfl)
    rw [getValue_map hcell htype,
      getValue_map ((getElem?_setCell_ne hm content).trans hcell) htype]
    exact getEntry_eq _ _ _ _

/-- A way from a built value to a container stays when the container is changed. -/
theorem follow_setCell {keys : List String} (hvalue : s.IsBuilt value) (htype : "type" ∉ keys)
    (hfollow : s.follow value keys = .ok (.cell p)) (content : Cell) :
    (s.setCell p content).follow value keys = .ok (.cell p) := by
  induction keys generalizing value with
  | nil => exact hfollow
  | cons key rest ih =>
    obtain ⟨hkey, hrest⟩ := List.ne_and_not_mem_of_not_mem_cons htype
    obtain ⟨next, hget, hnull, hpart, hnext⟩ := exists_part_of_follow hvalue htype hfollow
    -- The container at the end stands in the value, so the value is another one.
    have hne : value ≠ .cell p := by
      rintro rfl
      exact hvalue.not_transGen_self (transGen_of_follow hvalue htype hfollow)
    rw [follow, getValue_setCell hvalue hne (Ne.symm hkey), hget]
    show (if next.isNull then Except.ok Value.null else (s.setCell p content).follow next rest) = _
    rw [hnull]
    exact ih (hvalue.of_isPart hpart) hrest hnext

/-! ### Ways from scopes -/

/-- The way outward from a scope depends on the parents of scopes only. -/
theorem chain_congr {t : Store} (h : ∀ m, (t.scope m).parent = (s.scope m).parent) (n : Nat) :
    t.chain n = s.chain n := by
  induction n using chain.induct (s := s) with
  | case1 n parent hparent hlt ih =>
    rw [chain_of_parent hparent hlt, chain_of_parent ((h n).trans hparent) hlt, ih]
  | case2 n parent hparent hlt =>
    rw [chain, chain, h, hparent]
    simp only [dif_neg hlt]
  | case3 n hparent => rw [chain_of_root hparent, chain_of_root ((h n).trans hparent)]

theorem bindings_setCell (p n : Nat) (content : Cell) :
    (s.setCell p content).bindings n = s.bindings n := by
  have hparents (m : Nat) : ((s.setCell p content).scope m).parent = (s.scope m).parent := rfl
  rw [bindings, chain_congr hparents]
  rfl

/-- The bindings from a scope outward begin with its own. -/
theorem exists_bindings_eq_append (s : Store) (n : Nat) :
    ∃ outer, s.bindings n = ((s.scope n).constants ++ (s.scope n).changeable) ++ outer := by
  have hchain : ∃ outer, s.chain n = n :: outer := by
    rw [chain]
    split
    · split <;> exact ⟨_, rfl⟩
    · exact ⟨_, rfl⟩
  obtain ⟨outer, houter⟩ := hchain
  exact ⟨_, by rw [bindings, houter, List.flatMap_cons]⟩

/-- What keys lead to from a built value is built. -/
theorem goes_follow_isBuilt {keys : List String} (hvalue : s.IsBuilt value)
    (htype : "type" ∉ keys) : Goes s.IsBuilt (s.follow value keys) := by
  induction keys generalizing value with
  | nil => exact hvalue
  | cons key rest ih =>
    obtain ⟨hkey, hrest⟩ := List.ne_and_not_mem_of_not_mem_cons htype
    refine (goes_getValue_part hvalue.isReadable (Ne.symm hkey)).bind fun next hnext ↦ ?_
    split
    · exact .elementary ⟨.null, rfl, trivial⟩
    · exact ih (hnext.elim .elementary hvalue.of_isPart) hrest

/-- What a key reads from a scope of built values is built. -/
theorem goes_getValue_scope (hbuilt : s.HoldsBuilt n) (htype : key ≠ "type") :
    Goes s.IsBuilt (s.getValue (.scope n) key) := by
  rw [getValue_scope htype]
  exact goes_getEntry (.elementary ⟨.null, rfl, trivial⟩) hbuilt key

/-- What keys lead to from a scope of built values is built. -/
theorem goes_follow_scope {rest : List String} (hbuilt : s.HoldsBuilt n)
    (htype : "type" ∉ key :: rest) : Goes s.IsBuilt (s.follow (.scope n) (key :: rest)) := by
  obtain ⟨hkey, hrest⟩ := List.ne_and_not_mem_of_not_mem_cons htype
  refine (goes_getValue_scope hbuilt (Ne.symm hkey)).bind fun next hnext ↦ ?_
  split
  · exact .elementary ⟨.null, rfl, trivial⟩
  · exact goes_follow_isBuilt hnext hrest

/-- A way from a scope to a container stays when the container is changed. -/
theorem follow_scope_setCell {rest : List String} (hbuilt : s.HoldsBuilt n)
    (htype : "type" ∉ key :: rest) (hfollow : s.follow (.scope n) (key :: rest) = .ok (.cell p))
    (content : Cell) : (s.setCell p content).follow (.scope n) (key :: rest) = .ok (.cell p) := by
  obtain ⟨hkey, hrest⟩ := List.ne_and_not_mem_of_not_mem_cons htype
  obtain ⟨next, hget, hnull, hnext⟩ := follow_cons_eq_cell hfollow
  have hsame : (s.setCell p content).getValue (.scope n) key = .ok next := by
    rw [getValue_scope (Ne.symm hkey), bindings_setCell, getEntry_eq _ s,
      ← getValue_scope (Ne.symm hkey), hget]
  rw [follow, hsame]
  show (if next.isNull then Except.ok Value.null else (s.setCell p content).follow next rest) = _
  rw [hnull]
  exact follow_setCell ((goes_getValue_scope hbuilt (Ne.symm hkey)).of_ok hget) hrest hnext content

/-! ### Reading what was put -/

/-- A position of a list stays one when a value is put there. -/
theorem position?_putItem {items : List Value} {i : Nat}
    (hposition : position? items.length key = .ok (some i)) (value : Value) :
    position? (putItem items i value).length key = .ok (some i) := by
  have hlength : (putItem items i value).length = items.length + (i + 1 - items.length) := by
    simp [putItem]
  rw [hlength]
  unfold position? at hposition ⊢
  split
  · rename_i hfirst
    rwa [if_pos hfirst] at hposition
  rename_i hfirst
  rw [if_neg hfirst] at hposition
  split
  · rename_i hlast
    rw [if_pos hlast] at hposition
    by_cases hempty : items.length = 0
    · rw [if_pos hempty] at hposition
      cases hposition
    · rw [if_neg hempty] at hposition
      have hi : items.length - 1 = i := Option.some.inj (Except.ok.inj hposition)
      have hpad : items.length + (i + 1 - items.length) = items.length := by omega
      rw [hpad, if_neg hempty, hi]
  · rename_i hlast
    rwa [if_neg hlast] at hposition

/-- A position of a list reads the value that is put there. -/
theorem getElement_putItem {items : List Value} {i : Nat}
    (hposition : position? items.length key = .ok (some i)) (value : Value) :
    getElement (putItem items i value) key = .ok value := by
  have hsize (name : String) (hname : position? items.length name = .ok none) : key ≠ name := by
    rintro rfl
    cases hname.symm.trans hposition
  have hnames : ¬ (key = "size" || key = "length" || key = "count") = true := by
    simp [hsize "size" rfl, hsize "length" rfl, hsize "count" rfl]
  have hitem : (putItem items i value)[i]? = some value := by
    simp only [putItem]
    rw [List.getElem?_set_self]
    simp
    omega
  rw [getElement, if_neg hnames, position?_putItem hposition value]
  show Except.ok ((putItem items i value)[i]?.getD .null) = _
  rw [hitem]
  rfl

/-- What is put into a list or map is read there. -/
theorem getValue_putContent {content changed : Cell} (hcell : s.cells[p]? = some content)
    (hbuilt : s.IsBuilt (.cell p)) (htype : key ≠ "type")
    (hput : s.putContent key value content = .ok (some changed)) :
    (s.setCell p changed).getValue (.cell p) key = .ok value := by
  cases hbuilt with
  | elementary h =>
    obtain ⟨a, ha, -⟩ := h
    cases ha
  | @list _ items hlist =>
    cases hcell.symm.trans hlist
    simp only [putContent] at hput
    cases hposition : position? items.length key with
    | error cause =>
      rw [hposition] at hput
      cases hput
    | ok position =>
      rw [hposition] at hput
      cases position with
      | none => cases hput
      | some i =>
        cases hput
        rw [getValue_elements (.inl (getElem?_setCell_self hcell)) htype]
        exact getElement_putItem hposition value
  | set hset =>
    cases hcell.symm.trans hset
    cases hput
  | @map _ entries hmap =>
    cases hcell.symm.trans hmap
    cases hput
    rw [getValue_map (getElem?_setCell_self hcell) htype]
    refine getEntry_of_text ?_
    rw [findEntry_atom _ s fun _ ↦ Atom.noConfusion]
    exact findEntry_putEntry_self (same_text_iff.2 rfl) value entries

/-- What is bound in a scope is read there, if it has no constant of that name. -/
theorem getValue_bind (hn : n < s.scopes.size) (htype : key ≠ "type")
    (hconstant : findEntry s.same (.text key) (s.scope n).constants = none) :
    (s.bind n (.text key) value).1.getValue (.scope n) key = .ok value := by
  rw [getValue_scope htype]
  refine getEntry_of_text ?_
  rw [findEntry_atom _ s fun _ ↦ Atom.noConfusion, bind]
  simp only [hconstant]
  obtain ⟨outer, houter⟩ := exists_bindings_eq_append (s.setScope n { s.scope n with
    changeable := putEntry s.same (.text key) value (s.scope n).changeable }) n
  rw [houter, scope_setScope_self hn, findEntry_append, findEntry_append, hconstant,
    findEntry_putEntry_self (same_text_iff.2 rfl)]
  rfl

theorem follow_singleton (hget : s.getValue value key = .ok next) :
    s.follow value [key] = .ok next := by
  rw [follow, hget]
  show (if next.isNull then Except.ok Value.null else Except.ok next) = _
  split
  · rename_i hnull
    cases next with
    | atom a => cases a <;> first | rfl | cases hnull
    | _ => cases hnull
  · rfl

/-- The keys of a location lead to what was put there: all but the last lead to the scope or
container that was changed. -/
theorem follow_putValue {t : Store} {parent : Value} {front : List String}
    (hbuilt : s.HoldsBuilt n) (hn : n < s.scopes.size) (htype : "type" ∉ front ++ [key])
    (hconstant : front = [] → findEntry s.same (.text key) (s.scope n).constants = none)
    (hparent : s.follow (.scope n) front = .ok parent)
    (hput : s.putValue parent key value = .ok (t, true)) :
    t.follow (.scope n) (front ++ [key]) = .ok value := by
  obtain ⟨hfront, hkey⟩ := not_or.1 (List.mem_append.not.1 htype)
  have hkey : key ≠ "type" := fun h ↦ hkey (h ▸ List.mem_singleton_self _)
  cases front with
  | nil =>
    cases hparent
    cases hput
    exact follow_singleton (getValue_bind hn hkey (hconstant rfl))
  | cons first rest =>
    have hbuiltParent : s.IsBuilt parent := (goes_follow_scope hbuilt hfront).of_ok hparent
    cases parent with
    | cell p =>
      obtain ⟨content, hcell⟩ := hbuiltParent.exists_content
      rw [putValue, cell_of_getElem? hcell] at hput
      cases hchanged : s.putContent key value content with
      | error cause =>
        rw [hchanged] at hput
        cases hput
      | ok changed =>
        rw [hchanged] at hput
        cases changed with
        | none => cases hput
        | some changed =>
          cases hput
          rw [follow_append (follow_scope_setCell hbuilt hfront hparent changed) rfl]
          exact follow_singleton (getValue_putContent hcell hbuiltParent hkey hchanged)
    | scope m =>
      cases hbuiltParent with
      | elementary h =>
        obtain ⟨a, ha, -⟩ := h
        cases ha
    | _ => cases hput

/-- Variables of a scope do not decide which scope is around it. -/
theorem parent_setScope (n : Nat) (changeable : List (Value × Value)) (m : Nat) :
    ((s.setScope n { s.scope n with changeable }).scope m).parent = (s.scope m).parent := by
  by_cases hm : m = n
  · subst hm
    by_cases hlt : m < s.scopes.size
    · rw [scope_setScope_self hlt]
    · rw [setScope, Array.setIfInBounds_eq_of_size_le (Nat.not_lt.1 hlt)]
  · rw [scope_setScope_ne hm]

/-- Putting a value does not change resources, nor which scopes are around which. -/
theorem keeps_putValue {t : Store} {parent : Value} {done : Bool}
    (hput : s.putValue parent key value = .ok (t, done)) :
    (∀ r, t.resource r = s.resource r) ∧ ∀ m, (t.scope m).parent = (s.scope m).parent := by
  cases parent with
  | scope n =>
    cases hput
    unfold bind
    dsimp only
    split
    · exact ⟨fun _ ↦ rfl, fun _ ↦ rfl⟩
    · exact ⟨fun _ ↦ rfl, parent_setScope n _⟩
  | cell p =>
    rw [putValue] at hput
    cases hchanged : s.putContent key value (s.cell p) with
    | error cause =>
      rw [hchanged] at hput
      cases hput
    | ok changed =>
      rw [hchanged] at hput
      cases changed <;> cases hput <;> exact ⟨fun _ ↦ rfl, fun _ ↦ rfl⟩
  | _ =>
    cases hput
    exact ⟨fun _ ↦ rfl, fun _ ↦ rfl⟩

/-- The outermost scope is not younger. -/
theorem root_le (s : Store) (n : Nat) : s.root n ≤ n := by
  have hchain : ∀ m ∈ s.chain n, m ≤ n := by
    induction n using chain.induct (s := s) with
    | case1 n parent hparent hlt ih =>
      rw [chain_of_parent hparent hlt]
      exact List.forall_mem_cons.2 ⟨le_rfl, fun m hm ↦ (ih m hm).trans hlt.le⟩
    | case2 n parent hparent hlt =>
      rw [chain, hparent]
      simp only [dif_neg hlt, List.mem_singleton, forall_eq, le_refl]
    | case3 n hparent =>
      rw [chain_of_root hparent]
      exact List.forall_mem_singleton.2 le_rfl
  rw [root]
  cases hlast : (s.chain n).getLast? with
  | none => exact le_rfl
  | some m => exact hchain m (List.mem_of_getLast? hlast)

end Store

namespace Script

variable {jobs : Job → Script Value} {w v : World} {n : Nat} {r : ResourceRef} {uri key : String}
  {place : Place} {value : Value} {execute : Value → Task Value}

/-! ### The operations -/

/-- Putting a value goes to what all keys but the last lead to, and puts it there under the last. -/
theorem run_putVariable (hcurrent : w.current = some n)
    (hexecute : ∀ v : World, (execute value).run jobs v = (.ok value, v))
    (hlast : (Location.segments uri).getLast? = some key) :
    (putVariable execute place uri value).run jobs w =
      match w.store.variableAt n place (Location.segments uri).dropLast with
      | .ok parent =>
        if parent.isNull then (.ok false, w)
        else (change (w.store.putValue parent key value)).run jobs w
      | .error cause => (.error (.fault cause), w) := by
  unfold putVariable
  simp only [hlast]
  rw [Task.run_bind, bind_apply, run_walkFrom hcurrent]
  cases w.store.variableAt n place (Location.segments uri).dropLast with
  | error cause => rfl
  | ok parent =>
    show (if parent.isNull then (return false : Task Bool) else
      execute value >>= fun data ↦ putValue parent (.text key) data).run jobs w =
        if parent.isNull then (.ok false, w)
        else (change (w.store.putValue parent key value)).run jobs w
    split
    · rfl
    · rw [Task.run_bind, bind_of_ok (hexecute w)]
      rfl

/-- Putting that is done has put the value under the last key of what the other keys lead to. -/
theorem exists_putValue_of_run (hcurrent : w.current = some n)
    (hexecute : ∀ v : World, (execute value).run jobs v = (.ok value, v))
    (hlast : (Location.segments uri).getLast? = some key)
    (hrun : (putVariable execute place uri value).run jobs w = (.ok true, v)) :
    ∃ parent t, w.store.variableAt n place (Location.segments uri).dropLast = .ok parent ∧
      w.store.putValue parent key value = .ok (t, true) ∧ v = { w with store := t } := by
  rw [run_putVariable hcurrent hexecute hlast] at hrun
  cases hparent : w.store.variableAt n place (Location.segments uri).dropLast with
  | error cause =>
    rw [hparent] at hrun
    cases hrun
  | ok parent =>
    simp only [hparent] at hrun
    split at hrun
    · cases hrun
    · rw [run_change] at hrun
      cases hput : w.store.putValue parent key value with
      | error cause =>
        rw [hput] at hrun
        cases hrun
      | ok result =>
        obtain ⟨t, done⟩ := result
        rw [hput] at hrun
        cases hrun
        exact ⟨parent, t, rfl, hput, rfl⟩

/-- Putting data into a variable that is done has put it there. -/
theorem run_putVariable_of_putData (huri : (w.store.resource r).uri = some uri)
    (hplace : IsVariable uri) (hrun : (putData execute r value).run jobs w = (.ok true, v)) :
    (putVariable execute (Location.place uri) uri value).run jobs w = (.ok true, v) := by
  have hbody := run_body_of_operate huri hrun nofun
  rcases hplace with hplace | hplace
  all_goals
    simp only [hplace] at hbody ⊢
    exact hbody

/-- The data of a resource that addresses a variable is what its segments lead to. -/
theorem run_getData_of_variableAt (hcurrent : w.current = some n)
    (huri : (w.store.resource r).uri = some uri) (hplace : IsVariable uri)
    (hvariable : w.store.variableAt n (Location.place uri) (Location.segments uri) = .ok value) :
    (getData r).run jobs w = (.ok value, w) := by
  refine run_operate_of_ok huri ?_
  rcases hplace with hplace | hplace
  all_goals
    simp only [hplace] at hvariable ⊢
    rw [run_walkFrom hcurrent, hvariable]
    rfl

/-- In scopes of built values, putting a built value into a variable, or under keys in it, always
ends with an answer. When that is true, reading gives the value and changes nothing; when it is
false, nothing has been changed. The location has at least one key and none that is `type`, and does
not name a constant of the scope that it writes. -/
theorem putData_getData (hcurrent : w.current = some n) (hn : n < w.store.scopes.size)
    (hbuilt : w.store.HoldsBuilt n) (huri : (w.store.resource r).uri = some uri)
    (hplace : IsVariable uri) (hsegments : Location.segments uri ≠ [])
    (htype : "type" ∉ Location.segments uri)
    (hconstant : ∀ key, Location.segments uri = [key] →
      let written := if Location.place uri = .app then w.store.root n else n
      findEntry w.store.same (.text key) (w.store.scope written).constants = none)
    (hvalue : w.store.IsBuilt value) (depth : Nat) :
    ∃ done v, (putData Script.execute r value).runAt (depth + 1) w = (.ok done, v) ∧
      (done = true → (getData r).runAt (depth + 1) v = (.ok value, v)) ∧
      (done = false → v.store = w.store) := by
  have hexecute := run_execute_of_isBuilt hvalue depth
  obtain ⟨done, v, hrun, hfalse⟩ : ∃ done v,
      (putData Script.execute r value).runAt (depth + 1) w = (.ok done, v) ∧
        (done = false → v.store = w.store) := by
    refine ends_operate huri (P := fun done v ↦ done = false → v.store = w.store) ?_ fun _ h _ ↦ h
    rcases hplace with hplace | hplace
    all_goals
      simp only [hplace]
      exact settles_putVariable hcurrent hbuilt hvalue hexecute
  refine ⟨done, v, hrun, ?_, hfalse⟩
  rintro rfl
  have hput := run_putVariable_of_putData huri hplace hrun
  obtain ⟨key, hlast⟩ : ∃ key, (Location.segments uri).getLast? = some key :=
    ⟨_, List.getLast?_eq_some_getLast hsegments⟩
  have hsplit : (Location.segments uri).dropLast ++ [key] = Location.segments uri :=
    List.dropLast_append_getLast? key hlast
  obtain ⟨parent, t, hparent, hvalueAt, rfl⟩ :=
    exists_putValue_of_run hcurrent hexecute hlast hput
  obtain ⟨hresource, hparents⟩ := Store.keeps_putValue hvalueAt
  refine run_getData_of_variableAt hcurrent ?_ hplace ?_
  · rw [hresource]
    exact huri
  · have hroot : t.root n = w.store.root n := by
      rw [Store.root, Store.root, Store.chain_congr hparents]
    rw [← hsplit] at htype hconstant
    unfold Store.variableAt at hparent ⊢
    rw [hroot, ← hsplit]
    refine Store.follow_putValue ?_ ?_ htype (fun hfront ↦ ?_) hparent hvalueAt
    · split
      · exact hbuilt.root
      · exact hbuilt
    · split
      · exact (w.store.root_le n).trans_lt hn
      · exact hn
    · exact hconstant key (by rw [hfront]; rfl)

/-- A world in which the variable `x` is an empty list and the first resource addresses a position
behind its end. -/
def listWorld : World :=
  { builtinWorld with
    store := ⟨#[.list []], #[⟨.text "x/2", some "x/2", none⟩],
      #[⟨none, [], [(.text "x", .cell 0)], []⟩], []⟩
    current := some 0 }

/-- Null is put into the positions before it. -/
theorem putData_getData_listWorld :
    ∃ v, (putData Script.execute (.made 0) (.bool true)).runAt 1 listWorld = (.ok true, v) ∧
      v.store.cell 0 = .list [.null, .null, .bool true] ∧
      (getData (.made 0)).runAt 1 v = (.ok (.bool true), v) := by
  have hlist : listWorld.store.IsBuilt (.cell 0) := .list rfl fun _ h ↦ absurd h List.not_mem_nil
  have htrue : listWorld.store.IsBuilt (.bool true) := .elementary ⟨.bool true, rfl, trivial⟩
  have hbindings : listWorld.store.bindings 0 = [(.text "x", .cell 0)] := by
    rw [Store.bindings, Store.chain_of_root rfl]
    rfl
  have hbuilt : listWorld.store.HoldsBuilt 0 := by
    intro entry hentry
    rw [hbindings, List.mem_singleton] at hentry
    exact hentry ▸ hlist
  have hcurrent : listWorld.current = some 0 := rfl
  have huri : (listWorld.store.resource (.made 0)).uri = some "x/2" := rfl
  have hplace : IsVariable "x/2" := .inl rfl
  have hsegments : Location.segments "x/2" = ["x", "2"] := rfl
  have hparent : listWorld.store.variableAt 0 .variable ["x"] = .ok (.cell 0) := by
    refine Store.follow_singleton ?_
    rw [if_neg (by decide), Store.getValue_scope (by decide), hbindings]
    rfl
  have hlonger (key : String) : Location.segments "x/2" ≠ [key] := by simp [hsegments]
  have hput : (putData Script.execute (.made 0) (.bool true)).runAt 1 listWorld =
      (.ok true, { listWorld with
        store := listWorld.store.setCell 0 (.list [.null, .null, .bool true]) }) := by
    refine run_operate_of_ok huri ?_
    show (putVariable Script.execute .variable "x/2" (.bool true)).run (Job.run 1) listWorld = _
    have hlast : (Location.segments "x/2").getLast? = some "2" := congrArg List.getLast? hsegments
    rw [run_putVariable hcurrent (run_execute_of_isBuilt htrue 0) hlast, hsegments,
      List.dropLast_cons_cons, List.dropLast_singleton, hparent]
    rfl
  obtain ⟨done, v, hrun, hget, -⟩ := putData_getData hcurrent Nat.one_pos hbuilt huri hplace
    (by simp [hsegments]) (by simp [hsegments]) (fun key hkey ↦ absurd hkey (hlonger key)) htrue 0
  cases hput.symm.trans hrun
  exact ⟨_, hrun, rfl, hget rfl⟩

end Script

end ResourceScript

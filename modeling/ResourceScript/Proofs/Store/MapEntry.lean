import ResourceScript.Proofs.Store.Access
/-!
# The entry of a map under a text key

Reading a text key of a map finds the entry of that text or else that of the integer which the text
spells; putting and deleting only look for the text. When the entry that is read stands under the
text, it is the one that is replaced or deleted. When it stands under an integer, putting adds an
entry and deleting finds nothing (`Store.putValue_deleteValue_of_reads`).
-/

set_option autoImplicit false

namespace ResourceScript

/-! ### One entry among others -/

section

variable {κ α : Type} {same : κ → κ → Bool} {front back : List (κ × α)} {k key : κ}

theorem findEntry_middle (key k : κ) (value : α) (front back : List (κ × α)) :
    findEntry same key (front ++ (k, value) :: back) =
      (findEntry same key front).or
        (if same k key then some value else findEntry same key back) := by
  rw [findEntry_append, findEntry_cons]

/-- The first entry of a key is the one that is replaced. -/
theorem putEntry_middle (hfront : findEntry same key front = none) (hk : same k key = true)
    (old new : α) :
    putEntry same key new (front ++ (k, old) :: back) = front ++ (k, new) :: back := by
  induction front with
  | nil => exact if_pos hk
  | cons entry rest ih =>
    obtain ⟨other, value⟩ := entry
    rw [findEntry_cons] at hfront
    split at hfront
    · cases hfront
    · rename_i hother
      rw [List.cons_append, putEntry, if_neg hother, ih hfront, List.cons_append]

/-- The first entry of a key is the one that is dropped. -/
theorem dropEntry_middle (hfront : findEntry same key front = none) (hk : same k key = true)
    (old : α) : dropEntry same key (front ++ (k, old) :: back) = front ++ back := by
  induction front with
  | nil => exact if_pos hk
  | cons entry rest ih =>
    obtain ⟨other, value⟩ := entry
    rw [findEntry_cons] at hfront
    split at hfront
    · cases hfront
    · rename_i hother
      rw [List.cons_append, dropEntry, if_neg hother, ih hfront, List.cons_append]

end

namespace Store

variable {s : Store} {n : Nat} {entries front back : List (Value × Value)} {k old : Value}
  {key : String}

/-! ### The entry that is read -/

/-- A value that does not depend on that of an entry is not always the same. -/
theorem not_forall_eq (found : Value) : ¬ ∀ value : Value, found = value := by
  intro hfound
  have hnull : Value.null = .int 0 := (hfound .null).symm.trans (hfound (.int 0))
  cases hnull

/-- An entry whose value is found, whatever it is, stands under the key and behind no other that
does. -/
theorem middle_of_found {a : Value}
    (hfound : ∀ value, (findEntry s.same a (front ++ (k, value) :: back)).getD .null = value) :
    s.same k a = true ∧ findEntry s.same a front = none := by
  simp only [findEntry_middle] at hfound
  cases hfront : findEntry s.same a front with
  | some found =>
    simp only [hfront, Option.some_or] at hfound
    exact absurd hfound (not_forall_eq _)
  | none =>
    by_cases hk : s.same k a = true
    · exact ⟨hk, rfl⟩
    · simp only [hfront, Option.none_or, if_neg hk] at hfound
      exact absurd hfound (not_forall_eq _)

/-- Whether a key is found does not depend on the value of an entry. -/
theorem findEntry_middle_eq_none {a : Value} (value : Value)
    (hnone : findEntry s.same a (front ++ (k, old) :: back) = none) :
    findEntry s.same a (front ++ (k, value) :: back) = none := by
  rw [findEntry_middle, Option.or_eq_none_iff] at hnone ⊢
  refine ⟨hnone.1, ?_⟩
  by_cases hk : s.same k a = true
  · exact absurd (hnone.2.symm.trans (if_pos hk)) nofun
  · rw [if_neg hk]
    exact (if_neg hk).symm.trans hnone.2

/-- An entry that is read stands under the text itself, and behind no other that does; or it stands
under the integer that the text spells, and none stands under the text. -/
theorem found_of_reads (hreads : ∀ value, s.getEntry (front ++ (k, value) :: back) key = .ok value)
    (old : Value) :
    (s.same k (.text key) = true ∧ findEntry s.same (.text key) front = none) ∨
      ∃ i, integerKey? key = .ok (some i) ∧ s.same k (.int i) = true ∧
        findEntry s.same (.text key) (front ++ (k, old) :: back) = none := by
  cases htext : findEntry s.same (.text key) (front ++ (k, old) :: back) with
  | some found =>
    have hfound (value : Value) :
        (findEntry s.same (.text key) (front ++ (k, value) :: back)).getD .null = value := by
      cases hvalue : findEntry s.same (.text key) (front ++ (k, value) :: back) with
      | some read => exact Except.ok.inj ((getEntry_of_text hvalue).symm.trans (hreads value))
      | none => exact absurd (htext.symm.trans (findEntry_middle_eq_none old hvalue)) nofun
    exact .inl (middle_of_found hfound)
  | none =>
    have hspelled (value : Value) := (getEntry_of_no_text
      (findEntry_middle_eq_none value htext)).symm.trans (hreads value)
    cases hinteger : integerKey? key with
    | error cause =>
      rw [hinteger] at hspelled
      cases hspelled .null
    | ok spelled =>
      simp only [hinteger] at hspelled
      cases spelled with
      | none => exact absurd (fun value ↦ Except.ok.inj (hspelled value)) (not_forall_eq _)
      | some i =>
        exact .inr ⟨i, rfl, (middle_of_found fun value ↦ Except.ok.inj (hspelled value)).1, rfl⟩

/-! ### Putting and deleting -/

/-- For every map and every key but `type` that reads one of its entries: if that entry stands under
the text of the key, putting replaces its value and deleting drops it, and all other entries stay as
they are; otherwise it stands under the integer that the key spells, putting adds an entry under the
text at the end, and deleting changes nothing and answers false. An entry is the one that is read if
whatever value it has is what is read. -/
theorem putValue_deleteValue_of_reads
    (hcell : s.cells[n]? = some (.map (front ++ (k, old) :: back))) (htype : key ≠ "type")
    (hreads : ∀ value,
      (s.setCell n (.map (front ++ (k, value) :: back))).getValue (.cell n) key = .ok value)
    (new : Value) :
    (k = .text key ∧
      s.putValue (.cell n) key new =
        .ok (s.setCell n (.map (front ++ (k, new) :: back)), true) ∧
      s.deleteValue (.cell n) key = .ok (s.setCell n (.map (front ++ back)), true)) ∨
    ∃ i, integerKey? key = .ok (some i) ∧ s.same k (.int i) = true ∧
      s.putValue (.cell n) key new =
        .ok (s.setCell n (.map (front ++ (k, old) :: back ++ [(.text key, new)])), true) ∧
      s.deleteValue (.cell n) key = .ok (s, false) := by
  have hentry (value : Value) : s.getEntry (front ++ (k, value) :: back) key = .ok value := by
    rw [← hreads value, getValue_map (getElem?_setCell_self hcell) htype]
    exact getEntry_eq _ _ _ _
  have hput : s.putValue (.cell n) key new =
      .ok (s.setCell n (.map (putEntry s.same (.text key) new (front ++ (k, old) :: back))),
        true) := by
    rw [putValue, cell_of_getElem? hcell]
    rfl
  have hdelete : s.deleteValue (.cell n) key =
      .ok (((findEntry s.same (.text key) (front ++ (k, old) :: back)).map fun _ ↦
        (s.setCell n (.map (dropEntry s.same (.text key) (front ++ (k, old) :: back))), true)).getD
          (s, false)) := by
    rw [deleteValue, cell_of_getElem? hcell]
    simp only [deleteContent, deleteEntry]
    cases findEntry s.same (.text key) (front ++ (k, old) :: back) <;> rfl
  rcases found_of_reads hentry old with ⟨hk, hfront⟩ | ⟨i, hspelled, hk, hnone⟩
  · left
    have hfound : findEntry s.same (.text key) (front ++ (k, old) :: back) = some old := by
      rw [findEntry_middle, hfront, Option.none_or, if_pos hk]
    rw [putEntry_middle hfront hk] at hput
    rw [hfound, dropEntry_middle hfront hk] at hdelete
    exact ⟨same_text_iff.1 hk, hput, hdelete⟩
  · right
    rw [putEntry_of_new (findEntry_eq_none_iff.1 hnone)] at hput
    rw [hnone] at hdelete
    exact ⟨i, hspelled, hk, hput, hdelete⟩

/-- A store with a map that has a text and an integer as keys. -/
def mixedStore : Store :=
  ⟨#[.map [(.text "name", .text "Ann"), (.int 1, .text "one")]], #[], #[], []⟩

/-- The key `name` reads, replaces and deletes one entry; of the key `1` only reading finds one. -/
theorem putValue_deleteValue_of_reads_mixedStore :
    (mixedStore.putValue (.cell 0) "name" (.text "Bob") = .ok (mixedStore.setCell 0
        (.map [(.text "name", .text "Bob"), (.int 1, .text "one")]), true) ∧
      mixedStore.deleteValue (.cell 0) "name" =
        .ok (mixedStore.setCell 0 (.map [(.int 1, .text "one")]), true)) ∧
    mixedStore.getValue (.cell 0) "1" = .ok (.text "one") ∧
    mixedStore.putValue (.cell 0) "1" (.text "x") = .ok (mixedStore.setCell 0
      (.map [(.text "name", .text "Ann"), (.int 1, .text "one"), (.text "1", .text "x")]), true) ∧
    mixedStore.deleteValue (.cell 0) "1" = .ok (mixedStore, false) := by
  have hname : mixedStore.cells[0]? =
      some (.map ([] ++ (.text "name", .text "Ann") :: [(.int 1, .text "one")])) := rfl
  have hone : mixedStore.cells[0]? =
      some (.map ([(.text "name", .text "Ann")] ++ (.int 1, .text "one") :: [])) := rfl
  have hnameType : "name" ≠ "type" := by decide
  have honeType : "1" ≠ "type" := by decide
  refine ⟨?name, rfl, ?one⟩
  case name =>
    rcases putValue_deleteValue_of_reads hname hnameType (fun _ ↦ rfl) (.text "Bob") with
      ⟨-, hput, hdelete⟩ | ⟨i, hspelled, -⟩
    · exact ⟨hput, hdelete⟩
    · cases hspelled
  case one =>
    rcases putValue_deleteValue_of_reads hone honeType (fun _ ↦ rfl) (.text "x") with
      ⟨hkey, -⟩ | ⟨i, -, -, hput, hdelete⟩
    · cases hkey
    · exact ⟨hput, hdelete⟩

end Store

end ResourceScript

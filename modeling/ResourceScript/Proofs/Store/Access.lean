import ResourceScript.Access
import ResourceScript.Proofs.Scope.OrderedMap
/-!
# Access by text keys

Access goes by a text, and in maps also by the integer that the text spells. Such a key equals atoms
only, so that what is found under it depends on the entries and not on what containers hold
(`Store.getEntry_eq`). Of the bindings that a scope shows, the one found under it is the innermost
of all bindings (`Store.getEntry_visible`).
-/

set_option autoImplicit false

namespace ResourceScript

/-- Whether a value is an atom that equals a given one. -/
def Value.sameAtom (a : Atom) : Value → Bool
  | .atom b => b.same a
  | _ => false

theorem Atom.same_text_iff {a : Atom} {t : String} : a.same (.text t) = true ↔ a = .text t := by
  rw [Atom.same_eq_true_iff]
  cases a <;> simp [Atom.identity?, Atom.number?]

namespace Store

variable {s : Store} {a : Atom}

/-! ### Containers -/

theorem cell_of_getElem? {n : Nat} {content : Cell} (h : s.cells[n]? = some content) :
    s.cell n = content := by
  simp [cell, Array.getD_eq_getD_getElem?, h]

theorem getElem?_setCell_self {n : Nat} {old content : Cell} (h : s.cells[n]? = some old) :
    (s.setCell n content).cells[n]? = some content := by
  obtain ⟨hlt, -⟩ := Array.getElem?_eq_some_iff.1 h
  exact Array.getElem?_setIfInBounds_self_of_lt hlt

/-! ### Keys that equal atoms only -/

theorem sameWithin_atom (ha : ∀ data, a ≠ .bytes data) (depth : Nat) (v : Value) :
    s.sameWithin depth v (.atom a) = v.sameAtom a := by
  have href (same : Value → Value → Bool) (ref : Ref) : s.sameRef same ref (.atom a) = false := by
    cases ref <;> cases a <;> first | rfl | exact absurd rfl (ha _)
  cases depth <;> cases v <;> first | rfl | exact href _ _

theorem atom_sameWithin (ha : ∀ data, a ≠ .bytes data) (depth : Nat) (v : Value) :
    s.sameWithin depth (.atom a) v = v.sameAtom a := by
  have href (same : Value → Value → Bool) (n : Nat) :
      s.sameRef same (.cell n) (.atom a) = false := by
    cases a <;> first | rfl | exact absurd rfl (ha _)
  have hcomm (b : Atom) : a.same b = b.same a :=
    Bool.eq_iff_iff.2 ⟨Atom.same_symm, Atom.same_symm⟩
  cases depth <;> cases v <;> first | rfl | exact href _ _ | exact hcomm _

/-- An atom that is no bytes equals atoms only. -/
theorem same_atom (s : Store) (ha : ∀ data, a ≠ .bytes data) (v : Value) :
    s.same v (.atom a) = v.sameAtom a :=
  sameWithin_atom ha sameDepth v

theorem atom_same (s : Store) (ha : ∀ data, a ≠ .bytes data) (v : Value) :
    s.same (.atom a) v = v.sameAtom a :=
  atom_sameWithin ha sameDepth v

/-- A text equals only itself. -/
theorem same_text_iff {v : Value} {t : String} : s.same v (.text t) = true ↔ v = .text t := by
  rw [s.same_atom (fun _ ↦ Atom.noConfusion)]
  cases v with
  | atom b => exact Atom.same_text_iff.trans (by simp)
  | _ => simp [Value.sameAtom]

/-- What is found under an atom depends on the entries alone. -/
theorem findEntry_atom (s t : Store) (ha : ∀ data, a ≠ .bytes data)
    (entries : List (Value × Value)) :
    findEntry s.same (.atom a) entries = findEntry t.same (.atom a) entries :=
  findEntry_congr_same (fun k ↦ (s.same_atom ha k).trans (t.same_atom ha k).symm) entries

/-! ### Reading -/

/-- A text that is a key is read first. -/
theorem getEntry_of_text {entries : List (Value × Value)} {key : String} {value : Value}
    (h : findEntry s.same (.text key) entries = some value) :
    s.getEntry entries key = .ok value := by
  rw [getEntry, h]
  rfl

/-- A text that is no key is read as the integer that it spells. -/
theorem getEntry_of_no_text {entries : List (Value × Value)} {key : String}
    (h : findEntry s.same (.text key) entries = none) :
    s.getEntry entries key = (integerKey? key).map fun
      | some i => (findEntry s.same (.int i) entries).getD .null
      | none => .null := by
  rw [getEntry, h]
  rcases integerKey? key with cause | _ | i <;> rfl

/-- What a text key reads from entries depends on what is found under the text and under
integers. -/
theorem getEntry_congr {t : Store} {entries others : List (Value × Value)} {key : String}
    (htext : findEntry s.same (.text key) entries = findEntry t.same (.text key) others)
    (hint : ∀ i, findEntry s.same (.int i) entries = findEntry t.same (.int i) others) :
    s.getEntry entries key = t.getEntry others key := by
  unfold getEntry
  simp only [htext, hint]

/-- What a text key reads from entries depends on the entries alone. -/
theorem getEntry_eq (s t : Store) (entries : List (Value × Value)) (key : String) :
    s.getEntry entries key = t.getEntry entries key :=
  getEntry_congr (findEntry_atom s t (fun _ ↦ Atom.noConfusion) entries)
    fun _ ↦ findEntry_atom s t (fun _ ↦ Atom.noConfusion) entries

/-- Every key of a map but `type` reads its entries. -/
theorem getValue_map {n : Nat} {entries : List (Value × Value)} {key : String}
    (hcell : s.cells[n]? = some (.map entries)) (htype : key ≠ "type") :
    s.getValue (.cell n) key = s.getEntry entries key := by
  have hentries : s.entries? (.cell n) = some entries := by
    simp [entries?, cell_of_getElem? hcell, Cell.entries?]
  simp only [getValue, if_neg htype, hentries]

/-- Every key of a list or set but `type` reads its elements. -/
theorem getValue_elements {n : Nat} {items : List Value} {key : String}
    (h : s.cells[n]? = some (.list items) ∨ s.cells[n]? = some (.set items))
    (htype : key ≠ "type") : s.getValue (.cell n) key = getElement items key := by
  have hentries : s.entries? (.cell n) = none := by
    rcases h with h | h <;> simp [entries?, cell_of_getElem? h, Cell.entries?]
  have helements : s.elements? (.cell n) = some items := by
    rcases h with h | h <;> simp [elements?, cell_of_getElem? h]
  simp only [getValue, if_neg htype, hentries, helements]

/-! ### The bindings that a scope shows -/

/-- Hiding the bindings whose keys are seen does not hide one under a key that is not. -/
theorem findEntry_firstOfEach (ha : ∀ data, a ≠ .bytes data) {seen : List Value}
    (hseen : ∀ k ∈ seen, k.sameAtom a = false) (entries : List (Value × Value)) :
    findEntry s.same (.atom a) (visible.firstOfEach s seen entries) =
      findEntry s.same (.atom a) entries := by
  induction entries generalizing seen with
  | nil => rfl
  | cons entry rest ih =>
    obtain ⟨k, value⟩ := entry
    rw [visible.firstOfEach, findEntry_cons, s.same_atom ha]
    by_cases hk : k.sameAtom a = true
    · -- The key at the head is the one looked for, and none that is seen equals it.
      have hnew : ¬ seen.any (s.same k) = true := by
        rw [List.any_eq_true]
        rintro ⟨other, hother, hsame⟩
        cases k with
        | atom b =>
          have hb : ∀ data, b ≠ .bytes data := by
            rintro data rfl
            cases a <;> first | exact ha _ rfl | cases hk
          rw [s.atom_same hb] at hsame
          cases other with
          | atom c => exact absurd ((hseen _ hother).symm.trans (Atom.same_trans hsame hk)) nofun
          | _ => cases hsame
        | _ => cases hk
      rw [if_neg hnew, if_pos hk, findEntry_cons, s.same_atom ha, if_pos hk]
    · rw [if_neg hk]
      split
      · exact ih hseen
      · rw [findEntry_cons, s.same_atom ha, if_neg hk]
        exact ih (List.forall_mem_cons.2 ⟨Bool.eq_false_iff.2 hk, hseen⟩)

theorem findEntry_visible_atom (n : Nat) (ha : ∀ data, a ≠ .bytes data) :
    findEntry s.same (.atom a) (s.visible n) = findEntry s.same (.atom a) (s.bindings n) :=
  findEntry_firstOfEach ha (fun _ h ↦ absurd h List.not_mem_nil) _

/-- Of the bindings that a scope shows, a text key reads the innermost of all. -/
theorem getEntry_visible (n : Nat) (key : String) :
    s.getEntry (s.visible n) key = s.getEntry (s.bindings n) key :=
  getEntry_congr (findEntry_visible_atom n fun _ ↦ Atom.noConfusion)
    fun _ ↦ findEntry_visible_atom n fun _ ↦ Atom.noConfusion

/-- Every key of a scope but `type` reads the innermost of all bindings. -/
theorem getValue_scope {n : Nat} {key : String} (htype : key ≠ "type") :
    s.getValue (.scope n) key = s.getEntry (s.bindings n) key := by
  simp only [getValue, if_neg htype, entries?, getEntry_visible]

end Store

end ResourceScript

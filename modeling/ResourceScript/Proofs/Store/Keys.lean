import Mathlib.Data.List.Forall2
import ResourceScript.Store.Equality
/-!
# The equality of keys

Keys are the values that can stand on the left of an entry: atoms, immutable compounds of keys,
resources, and objects that are compared as a whole. Their equality is symmetric and transitive
(`isKeyEquality_same`). It is not reflexive, since what is not a number equals nothing.

Atoms are equal when they have the same identity: numbers of all kinds are identified by their exact
value. Sets are compared by counting and one inclusion, so that the other inclusion rests on their
holding each item once.
-/

set_option autoImplicit false

namespace ResourceScript

/-- Whether a relation is an equality of keys: symmetric and transitive. -/
structure IsKeyEquality {κ : Type} (IsKey : κ → Prop) (same : κ → κ → Bool) : Prop where
  /-- Equality goes both ways. -/
  symm : ∀ {a b : κ}, IsKey a → IsKey b → same a b = true → same b a = true
  /-- What equals the same key is equal. -/
  trans : ∀ {a b c : κ}, IsKey a → IsKey b → IsKey c → same a b = true → same b c = true →
    same a c = true

/-! ### Atoms -/

namespace Double

/-- The exact value of a double: a whole multiple of the least positive one, or an infinity by its
sign. -/
def amount? : Double → Option (Int ⊕ Bool)
  | nan => none
  | infinite negative => some (.inr negative)
  | finite negative mantissa exponent => some (.inl (finite negative mantissa exponent).units)

theorem equal_eq_true_iff {x y : Double} :
    x.equal y = true ↔ x.amount? = y.amount? ∧ x.amount? ≠ none := by
  rcases x with _ | p | ⟨p, m, e⟩ <;> rcases y with _ | q | ⟨q, n, f⟩ <;> simp [equal, amount?]

/-- The number one as a multiple of the least positive double. -/
def unitsOfOne : Nat := Nat.pow 2 1074

theorem unitsOfOne_ne_zero : (unitsOfOne : Int) ≠ 0 := by
  unfold unitsOfOne
  generalize 1074 = k
  exact Int.natCast_ne_zero.2 (Nat.ne_of_gt (Nat.pow_pos Nat.two_pos))

theorem compareInt_eq_iff {x : Double} {n : Int} :
    (x.compareInt n == some .eq) = true ↔ x.amount? = some (.inl (n * unitsOfOne)) := by
  rcases x with _ | ⟨_ | _⟩ | ⟨p, m, e⟩
  · exact ⟨nofun, nofun⟩
  · exact ⟨nofun, nofun⟩
  · exact ⟨nofun, nofun⟩
  · unfold compareInt amount? unitsOfOne
    generalize 1074 = k
    simp only [beq_iff_eq, Option.some.injEq, Int.compare_eq_eq, Sum.inl.injEq]

end Double

namespace Number

/-- The exact value of a number. -/
def amount? : Number → Option (Int ⊕ Bool)
  | int n => some (.inl (n * Double.unitsOfOne))
  | real x => x.amount?

/-- Numbers are equal when they have the same exact value. -/
theorem equal_eq_true_iff {x y : Number} :
    x.equal y = true ↔ x.amount? = y.amount? ∧ x.amount? ≠ none := by
  rcases x with a | x <;> rcases y with b | y
  · have hscale : a = b ↔ a * Double.unitsOfOne = b * Double.unitsOfOne :=
      ⟨fun h ↦ by rw [h], Int.eq_of_mul_eq_mul_right Double.unitsOfOne_ne_zero⟩
    simp only [equal, amount?, beq_iff_eq, hscale, Option.some.injEq, Sum.inl.injEq, ne_eq,
      reduceCtorEq, not_false_eq_true, and_true]
  · simp only [equal, amount?, Double.compareInt_eq_iff, ne_eq, reduceCtorEq, not_false_eq_true,
      and_true]
    exact eq_comm
  · simp only [equal, amount?, Double.compareInt_eq_iff]
    exact ⟨fun h ↦ ⟨h, h ▸ Option.some_ne_none _⟩, And.left⟩
  · exact Double.equal_eq_true_iff

end Number

namespace Atom

/-- What an atom is compared by. -/
inductive Identity where
  | number (value : Int ⊕ Bool)
  | moment (zoned : Bool) (microseconds : Int)
  | document (text : List Char)
  | atom (a : Atom)

/-- What an atom is compared by; what is not a number has no identity. -/
def identity? (a : Atom) : Option Identity :=
  match a.number? with
  | some x => x.amount?.map .number
  | none =>
    match a with
    | moment m => some (.moment m.offset.isSome m.microseconds)
    | document d => some (.document d.text)
    | a => some (.atom a)

theorem identity?_of_number {a : Atom} {x : Number} (ha : a.number? = some x) :
    a.identity? = x.amount?.map .number := by
  simp only [identity?, ha]

/-- An atom that does not count as a number is not identified by a value. -/
theorem identity?_ne_number {a : Atom} (ha : a.number? = none) (value : Int ⊕ Bool) :
    a.identity? ≠ some (.number value) := by
  cases a <;> simp [identity?, number?] at ha ⊢

theorem identity?_ne {a b : Atom} {x : Number} (ha : a.number? = some x) (hb : b.number? = none)
    (hsome : a.identity? ≠ none) : a.identity? ≠ b.identity? := by
  rw [identity?_of_number ha] at hsome ⊢
  rcases hamount : x.amount? with _ | value
  · rw [hamount] at hsome
    exact absurd rfl hsome
  · exact (identity?_ne_number hb value).symm

theorem same_eq_true_iff {a b : Atom} :
    a.same b = true ↔ a.identity? = b.identity? ∧ a.identity? ≠ none := by
  rcases hx : a.number? with _ | x <;> rcases hy : b.number? with _ | y
  · cases a <;> cases b <;> simp [same, identity?, number?, sameMoment] at hx hy ⊢
  · have hne := fun h ↦ identity?_ne hy hx h
    simp only [same, hx, hy, Bool.false_eq_true, false_iff, not_and]
    exact fun heq hsome ↦ hne (heq ▸ hsome) heq.symm
  · have hne := fun h ↦ identity?_ne hx hy h
    simp only [same, hx, hy, Bool.false_eq_true, false_iff, not_and]
    exact fun heq hsome ↦ hne hsome heq
  · have hinj : ∀ v w : Option (Int ⊕ Bool),
        v.map Identity.number = w.map Identity.number ↔ v = w :=
      fun v w ↦ Option.map_inj_right fun _ _ h ↦ Identity.number.inj h
    simp only [same, identity?, hx, hy, Number.equal_eq_true_iff, hinj, ne_eq,
      Option.map_eq_none_iff]

theorem same_symm {a b : Atom} (h : a.same b = true) : b.same a = true := by
  obtain ⟨heq, hsome⟩ := same_eq_true_iff.1 h
  exact same_eq_true_iff.2 ⟨heq.symm, heq ▸ hsome⟩

theorem same_trans {a b c : Atom} (hab : a.same b = true) (hbc : b.same c = true) :
    a.same c = true := by
  obtain ⟨heq, hsome⟩ := same_eq_true_iff.1 hab
  exact same_eq_true_iff.2 ⟨heq.trans (same_eq_true_iff.1 hbc).1, hsome⟩

end Atom

/-! ### Items -/

section

variable {α β : Type}

theorem forall₂_symm {R : α → α → Prop} {items others : List α} (h : List.Forall₂ R items others)
    (hsymm : ∀ a ∈ items, ∀ b ∈ others, R a b → R b a) : List.Forall₂ R others items := by
  induction h with
  | nil => exact .nil
  | cons hR _ ih =>
    refine .cons (hsymm _ List.mem_cons_self _ List.mem_cons_self hR) (ih fun a ha b hb ↦ ?_)
    exact hsymm a (List.mem_cons_of_mem _ ha) b (List.mem_cons_of_mem _ hb)

theorem forall₂_trans {R : α → α → Prop} {first second third : List α}
    (h : List.Forall₂ R first second) (h' : List.Forall₂ R second third)
    (htrans : ∀ a ∈ first, ∀ b ∈ second, ∀ c ∈ third, R a b → R b c → R a c) :
    List.Forall₂ R first third := by
  induction h generalizing third with
  | nil =>
    cases h'
    exact .nil
  | cons hR _ ih =>
    cases h' with
    | cons hR' htail =>
      refine .cons (htrans _ List.mem_cons_self _ List.mem_cons_self _ List.mem_cons_self hR hR')
        (ih htail fun a ha b hb c hc ↦ ?_)
      exact htrans a (List.mem_cons_of_mem _ ha) b (List.mem_cons_of_mem _ hb) c
        (List.mem_cons_of_mem _ hc)

theorem forall₂_imp_mem {R S : α → β → Prop} {items : List α} {others : List β}
    (h : List.Forall₂ R items others)
    (himp : ∀ a ∈ items, ∀ b ∈ others, R a b → S a b) : List.Forall₂ S items others := by
  induction h with
  | nil => exact .nil
  | cons hR _ ih =>
    refine .cons (himp _ List.mem_cons_self _ List.mem_cons_self hR) (ih fun a ha b hb ↦ ?_)
    exact himp a (List.mem_cons_of_mem _ ha) b (List.mem_cons_of_mem _ hb)

/-- Items that are related to items of a list no longer than they are, no two of them to the same
one, are related to all of that list. -/
theorem exists_mem_of_length_le {R : α → β → Prop} {items : List α} {others : List β}
    (hdistinct : items.Pairwise fun a b => ∀ other ∈ others, R a other → ¬ R b other)
    (htotal : ∀ item ∈ items, ∃ other ∈ others, R item other)
    (hlength : others.length ≤ items.length) :
    ∀ other ∈ others, ∃ item ∈ items, R item other := by
  induction items generalizing others with
  | nil =>
    rw [List.length_nil, Nat.le_zero, List.length_eq_zero_iff] at hlength
    simp [hlength]
  | cons item rest ih =>
    obtain ⟨hitem, hrest⟩ := List.pairwise_cons.1 hdistinct
    obtain ⟨first, hfirst, hsame⟩ := htotal item List.mem_cons_self
    obtain ⟨before, after, rfl⟩ := List.append_of_mem hfirst
    -- The other items are related to what is left without the partner of the first.
    have hmem : ∀ {other}, other ∈ before ++ first :: after ↔
        other = first ∨ other ∈ before ++ after := by
      intro other
      simp only [List.mem_append, List.mem_cons]
      tauto
    have hothers : ∀ other ∈ before ++ after, ∃ item ∈ rest, R item other := by
      refine ih ?_ ?_ ?_
      · exact hrest.imp fun h other hother ↦ h other (hmem.2 (.inr hother))
      · intro next hnext
        obtain ⟨other, hother, hR⟩ := htotal next (List.mem_cons_of_mem _ hnext)
        rcases hmem.1 hother with rfl | hother
        · exact absurd hR (hitem next hnext _ hfirst hsame)
        · exact ⟨other, hother, hR⟩
      · simp only [List.length_append, List.length_cons] at hlength ⊢
        omega
    intro other hother
    rcases hmem.1 hother with rfl | hother
    · exact ⟨item, List.mem_cons_self, hsame⟩
    · obtain ⟨found, hfound, hR⟩ := hothers other hother
      exact ⟨found, List.mem_cons_of_mem _ hfound, hR⟩

end

namespace Value

theorem sameAll_eq_true_iff {refers : Ref → Value → Bool} {items others : List Value} :
    sameAll refers items others = true ↔
      List.Forall₂ (fun a b => sameBy refers a b = true) items others := by
  induction items generalizing others with
  | nil => cases others <;> simp [sameAll]
  | cons item rest ih => cases others <;> simp [sameAll, ih]

theorem containsAll_eq_true_iff {refers : Ref → Value → Bool} {items others : List Value} :
    containsAll refers items others = true ↔
      ∀ item ∈ items, ∃ other ∈ others, sameBy refers item other = true := by
  induction items with
  | nil => simp [containsAll]
  | cons item rest ih => simp [containsAll, ih]

end Value

theorem Cell.sameItems_eq_true_iff {same : Value → Value → Bool} {items others : List Value} :
    Cell.sameBy.sameItems same items others = true ↔
      List.Forall₂ (fun a b => same a b = true) items others := by
  induction items generalizing others with
  | nil => cases others <;> simp [Cell.sameBy.sameItems]
  | cons item rest ih => cases others <;> simp [Cell.sameBy.sameItems, ih]

/-! ### Keys -/

namespace Store

/-- The values that can be keys. Immutable compounds have keys as parts, and a set holds each item
once. Objects are keys unless they are records that can change, and so are the views of the values of
maps. -/
inductive IsKey (s : Store) : Value → Prop
  | atom (a : Atom) : IsKey s (.atom a)
  | tuple {items : List Value} (hitems : ∀ item ∈ items, IsKey s item) : IsKey s (.tuple items)
  | frozen {items : List Value} (hitems : ∀ item ∈ items, IsKey s item)
      (hdistinct : items.Pairwise fun a b => s.same a b = false) : IsKey s (.frozen items)
  | resource (r : ResourceRef) : IsKey s (.resource r)
  | object {n : Nat} {info : ClassInfo} {fields : List (String × Value)}
      (hcell : s.cell n = .object info fields) (haccess : info.access ≠ .record)
      (hfields : info.access = .frozenRecord → ∀ field ∈ fields, IsKey s field.2) :
      IsKey s (.cell n)
  | values {n owner : Nat} (hcell : s.cell n = .side .values owner) : IsKey s (.cell n)

variable {s : Store}

/-- How two keys are equal, when references refer as given. -/
inductive SameKeys (s : Store) (refers : Ref → Value → Bool) : Value → Value → Prop
  | atom {a b : Atom} (hsame : a.same b = true) : SameKeys s refers (.atom a) (.atom b)
  | tuple {items others : List Value} (hitems : ∀ item ∈ items, s.IsKey item)
      (hothers : ∀ other ∈ others, s.IsKey other)
      (hsame : List.Forall₂ (fun a b => Value.sameBy refers a b = true) items others) :
      SameKeys s refers (.tuple items) (.tuple others)
  | frozen {items others : List Value} (hitems : ∀ item ∈ items, s.IsKey item)
      (hothers : ∀ other ∈ others, s.IsKey other) (hlength : items.length = others.length)
      (hsame : ∀ item ∈ items, ∃ other ∈ others, Value.sameBy refers item other = true) :
      SameKeys s refers (.frozen items) (.frozen others)
  | resource {q r : ResourceRef} (hsame : refers (.resource q) (.resource r) = true) :
      SameKeys s refers (.resource q) (.resource r)
  | cell {n m : Nat} (hkey : s.IsKey (.cell n)) (hother : s.IsKey (.cell m))
      (hsame : refers (.cell n) (.cell m) = true) : SameKeys s refers (.cell n) (.cell m)

/-- Whether references of keys only equal references of their sort. -/
structure KeepsSorts (s : Store) (refers : Ref → Value → Bool) : Prop where
  /-- Objects equal objects. -/
  cell : ∀ {n : Nat} {b : Value}, s.IsKey (.cell n) → s.IsKey b → refers (.cell n) b = true →
    ∃ m, b = .cell m
  /-- Resources equal resources. -/
  resource : ∀ {r : ResourceRef} {b : Value}, refers (.resource r) b = true → ∃ q, b = .resource q

theorem sameBy_eq_true_iff {refers : Ref → Value → Bool} (hsorts : s.KeepsSorts refers)
    {a b : Value} (ha : s.IsKey a) (hb : s.IsKey b) :
    Value.sameBy refers a b = true ↔ s.SameKeys refers a b := by
  have hforeign : ∀ {n : Nat} {v : Value}, s.IsKey (.cell n) → s.IsKey v → (∀ m, v ≠ .cell m) →
      refers (.cell n) v ≠ true := fun hn hv hne h ↦ by
    obtain ⟨m, hm⟩ := hsorts.cell hn hv h
    exact hne m hm
  constructor
  · intro h
    cases ha with
    | atom x =>
      cases hb with
      | atom y => exact .atom h
      | object hcell haccess hfields =>
        exact absurd h (hforeign (.object hcell haccess hfields) (.atom x) nofun)
      | values hcell => exact absurd h (hforeign (.values hcell) (.atom x) nofun)
      | _ => cases h
    | tuple hitems =>
      cases hb with
      | tuple hothers => exact .tuple hitems hothers (Value.sameAll_eq_true_iff.1 h)
      | object hcell haccess hfields =>
        exact absurd h (hforeign (.object hcell haccess hfields) (.tuple hitems) nofun)
      | values hcell => exact absurd h (hforeign (.values hcell) (.tuple hitems) nofun)
      | _ => cases h
    | frozen hitems hdistinct =>
      cases hb with
      | frozen hothers _ =>
        obtain ⟨hlength, hsame⟩ := Bool.and_eq_true_iff.1 h
        exact .frozen hitems hothers (eq_of_beq hlength) (Value.containsAll_eq_true_iff.1 hsame)
      | object hcell haccess hfields =>
        exact absurd h (hforeign (.object hcell haccess hfields) (.frozen hitems hdistinct) nofun)
      | values hcell => exact absurd h (hforeign (.values hcell) (.frozen hitems hdistinct) nofun)
      | _ => cases h
    | resource q =>
      obtain ⟨r, rfl⟩ := hsorts.resource h
      exact .resource h
    | object hcell haccess hfields =>
      have hkey := IsKey.object hcell haccess hfields
      obtain ⟨m, rfl⟩ := hsorts.cell hkey hb h
      exact .cell hkey hb h
    | values hcell =>
      obtain ⟨m, rfl⟩ := hsorts.cell (.values hcell) hb h
      exact .cell (.values hcell) hb h
  · intro h
    cases h with
    | atom h => exact h
    | tuple _ _ h => exact Value.sameAll_eq_true_iff.2 h
    | frozen _ _ hlength h =>
      exact Bool.and_eq_true_iff.2 ⟨beq_iff_eq.2 hlength, Value.containsAll_eq_true_iff.2 h⟩
    | resource h => exact h
    | cell _ _ h => exact h

section

variable {refers : Ref → Value → Bool} (hsorts : s.KeepsSorts refers)

include hsorts

theorem sameBy_trans
    (hcells : IsKeyEquality (fun n => s.IsKey (.cell n)) fun n m => refers (.cell n) (.cell m))
    (hresources : IsKeyEquality (fun _ => True) fun q r => refers (.resource q) (.resource r))
    {a b c : Value} (ha : s.IsKey a) (hb : s.IsKey b) (hc : s.IsKey c)
    (hab : Value.sameBy refers a b = true) (hbc : Value.sameBy refers b c = true) :
    Value.sameBy refers a c = true := by
  induction ha generalizing b c with
  | atom x =>
    cases (sameBy_eq_true_iff hsorts (.atom x) hb).1 hab with
    | atom hxy =>
      cases (sameBy_eq_true_iff hsorts hb hc).1 hbc with
      | atom hyz => exact Atom.same_trans hxy hyz
  | tuple hitems ih =>
    cases (sameBy_eq_true_iff hsorts (.tuple hitems) hb).1 hab with
    | tuple _ hothers hsame =>
      cases (sameBy_eq_true_iff hsorts hb hc).1 hbc with
      | tuple _ hlast hsame' =>
        refine Value.sameAll_eq_true_iff.2 (forall₂_trans hsame hsame' fun x hx y hy z hz ↦ ?_)
        exact ih x hx (hothers y hy) (hlast z hz)
  | frozen hitems hdistinct ih =>
    cases (sameBy_eq_true_iff hsorts (.frozen hitems hdistinct) hb).1 hab with
    | frozen _ hothers hlength hsame =>
      cases (sameBy_eq_true_iff hsorts hb hc).1 hbc with
      | frozen _ hlast hlength' hsame' =>
        refine (sameBy_eq_true_iff hsorts (.frozen hitems hdistinct) hc).2
          (.frozen hitems hlast (hlength.trans hlength') fun x hx ↦ ?_)
        obtain ⟨y, hy, hxy⟩ := hsame x hx
        obtain ⟨z, hz, hyz⟩ := hsame' y hy
        exact ⟨z, hz, ih x hx (hothers y hy) (hlast z hz) hxy hyz⟩
  | resource q =>
    cases (sameBy_eq_true_iff hsorts (.resource q) hb).1 hab with
    | resource hqr =>
      cases (sameBy_eq_true_iff hsorts hb hc).1 hbc with
      | resource hrs => exact hresources.trans trivial trivial trivial hqr hrs
  | object hcell haccess hfields _ =>
    cases (sameBy_eq_true_iff hsorts (.object hcell haccess hfields) hb).1 hab with
    | cell hkey hother hsame =>
      cases (sameBy_eq_true_iff hsorts hb hc).1 hbc with
      | cell _ hlast hsame' => exact hcells.trans hkey hother hlast hsame hsame'
  | values hcell =>
    cases (sameBy_eq_true_iff hsorts (.values hcell) hb).1 hab with
    | cell hkey hother hsame =>
      cases (sameBy_eq_true_iff hsorts hb hc).1 hbc with
      | cell _ hlast hsame' => exact hcells.trans hkey hother hlast hsame hsame'

/-- The equality is symmetric if it only holds between equal keys of the store. Without that two
sets could be equal in one direction only. -/
theorem sameBy_symm
    (hcells : IsKeyEquality (fun n => s.IsKey (.cell n)) fun n m => refers (.cell n) (.cell m))
    (hresources : IsKeyEquality (fun _ => True) fun q r => refers (.resource q) (.resource r))
    (hsame : ∀ {a b : Value}, s.IsKey a → s.IsKey b → Value.sameBy refers a b = true →
      s.same a b = true)
    {a b : Value} (ha : s.IsKey a) (hb : s.IsKey b) (hab : Value.sameBy refers a b = true) :
    Value.sameBy refers b a = true := by
  induction ha generalizing b with
  | atom x =>
    cases (sameBy_eq_true_iff hsorts (.atom x) hb).1 hab with
    | atom hxy => exact Atom.same_symm hxy
  | tuple hitems ih =>
    cases (sameBy_eq_true_iff hsorts (.tuple hitems) hb).1 hab with
    | tuple _ hothers hitemwise =>
      refine Value.sameAll_eq_true_iff.2 (forall₂_symm hitemwise fun x hx y hy ↦ ?_)
      exact ih x hx (hothers y hy)
  | @frozen items hitems hdistinct ih =>
    cases (sameBy_eq_true_iff hsorts (.frozen hitems hdistinct) hb).1 hab with
    | @frozen _ others _ hothers hlength htotal =>
      have hpartner : ∀ x ∈ items, ∀ y ∈ items, s.same x y = false →
          ∀ other ∈ others, Value.sameBy refers x other = true →
            ¬ Value.sameBy refers y other = true := by
        intro x hx y hy hxy other hother hxo hyo
        have hback := ih y hy (hothers other hother) hyo
        have htrans := sameBy_trans hsorts hcells hresources (hitems x hx) (hothers other hother)
          (hitems y hy) hxo hback
        rw [hsame (hitems x hx) (hitems y hy) htrans] at hxy
        cases hxy
      have honto := exists_mem_of_length_le
        (hdistinct.imp_of_mem fun {x y} hx hy hxy ↦ hpartner x hx y hy hxy) htotal
        (Nat.le_of_eq hlength.symm)
      refine (sameBy_eq_true_iff hsorts hb (.frozen hitems hdistinct)).2
        (.frozen hothers hitems hlength.symm fun y hy ↦ ?_)
      obtain ⟨x, hx, hxy⟩ := honto y hy
      exact ⟨x, hx, ih x hx (hothers y hy) hxy⟩
  | resource q =>
    cases (sameBy_eq_true_iff hsorts (.resource q) hb).1 hab with
    | resource hqr => exact hresources.symm trivial trivial hqr
  | object hcell haccess hfields _ =>
    cases (sameBy_eq_true_iff hsorts (.object hcell haccess hfields) hb).1 hab with
    | cell hkey hother hnm => exact hcells.symm hkey hother hnm
  | values hcell =>
    cases (sameBy_eq_true_iff hsorts (.values hcell) hb).1 hab with
    | cell hkey hother hnm => exact hcells.symm hkey hother hnm

/-- More equal references make more equal keys. -/
theorem sameBy_mono {refers' : Ref → Value → Bool} (hsorts' : s.KeepsSorts refers')
    (hcells : ∀ {n m : Nat}, s.IsKey (.cell n) → s.IsKey (.cell m) →
      refers (.cell n) (.cell m) = true → refers' (.cell n) (.cell m) = true)
    (hresources : ∀ {q r : ResourceRef}, refers (.resource q) (.resource r) = true →
      refers' (.resource q) (.resource r) = true)
    {a b : Value} (ha : s.IsKey a) (hb : s.IsKey b) (hab : Value.sameBy refers a b = true) :
    Value.sameBy refers' a b = true := by
  induction ha generalizing b with
  | atom x =>
    cases (sameBy_eq_true_iff hsorts (.atom x) hb).1 hab with
    | atom hxy => exact hxy
  | tuple hitems ih =>
    cases (sameBy_eq_true_iff hsorts (.tuple hitems) hb).1 hab with
    | tuple _ hothers hitemwise =>
      refine Value.sameAll_eq_true_iff.2 (forall₂_imp_mem hitemwise fun x hx y hy ↦ ?_)
      exact ih x hx (hothers y hy)
  | frozen hitems hdistinct ih =>
    cases (sameBy_eq_true_iff hsorts (.frozen hitems hdistinct) hb).1 hab with
    | frozen _ hothers hlength htotal =>
      refine (sameBy_eq_true_iff hsorts' (.frozen hitems hdistinct) hb).2
        (.frozen hitems hothers hlength fun x hx ↦ ?_)
      obtain ⟨y, hy, hxy⟩ := htotal x hx
      exact ⟨y, hy, ih x hx (hothers y hy) hxy⟩
  | resource q =>
    cases (sameBy_eq_true_iff hsorts (.resource q) hb).1 hab with
    | resource hqr => exact hresources hqr
  | object hcell haccess hfields _ =>
    cases (sameBy_eq_true_iff hsorts (.object hcell haccess hfields) hb).1 hab with
    | cell hkey hother hnm => exact hcells hkey hother hnm
  | values hcell =>
    cases (sameBy_eq_true_iff hsorts (.values hcell) hb).1 hab with
    | cell hkey hother hnm => exact hcells hkey hother hnm

end

/-! ### References of keys -/

/-- Two objects are equal when they are one, or records of one class that cannot change, with equal
fields. -/
theorem sameRef_cell_iff {same : Value → Value → Bool} {n m : Nat} (hn : s.IsKey (.cell n))
    (hm : s.IsKey (.cell m)) :
    s.sameRef same (.cell n) (.cell m) = true ↔ n = m ∨ ∃ info fields others,
      s.cell n = .object info fields ∧ s.cell m = .object info others ∧
        (∀ field ∈ fields, s.IsKey field.2) ∧ (∀ field ∈ others, s.IsKey field.2) ∧
        info.access = .frozenRecord ∧ List.Forall₂ (fun a b => same a b = true)
          (fields.map Prod.snd) (others.map Prod.snd) := by
  cases hn with
  | @object _ info fields hcell haccess hfields =>
    cases hm with
    | @object _ other others hcell' haccess' hothers =>
      simp only [sameRef, members?, hcell, hcell', Cell.sameBy, Bool.or_eq_true, beq_iff_eq,
        Bool.and_eq_true, Cell.sameItems_eq_true_iff, decide_eq_true_eq, Cell.object.injEq]
      constructor
      · rintro (rfl | ⟨⟨rfl, hrecord⟩, hsame⟩)
        · exact .inl rfl
        · have hfrozen := hrecord.resolve_left haccess
          exact .inr ⟨_, _, _, ⟨rfl, rfl⟩, ⟨rfl, rfl⟩, hfields hfrozen, hothers hfrozen, hfrozen,
            hsame⟩
      · rintro (rfl | ⟨_, _, _, ⟨rfl, rfl⟩, ⟨rfl, rfl⟩, -, -, hfrozen, hsame⟩)
        · exact .inl rfl
        · exact .inr ⟨⟨rfl, .inr hfrozen⟩, hsame⟩
    | values hcell' => simp [sameRef, members?, hcell, hcell', Cell.sameBy]
  | values hcell =>
    cases hm with
    | object hcell' => simp [sameRef, members?, hcell, hcell', Cell.sameBy]
    | values hcell' => simp [sameRef, members?, hcell, hcell', Cell.sameBy]

theorem keepsSorts_sameRef (s : Store) (same : Value → Value → Bool) :
    s.KeepsSorts (s.sameRef same) where
  cell := by
    intro n b hn hb h
    cases hn with
    | object hcell haccess hfields =>
      cases hb with
      | object => exact ⟨_, rfl⟩
      | atom x =>
        cases x with
        | bytes data => simp [sameRef, hcell] at h
        | _ => cases h
      | frozen => simp [sameRef, members?, hcell] at h
      | values => exact ⟨_, rfl⟩
      | _ => cases h
    | values hcell =>
      cases hb with
      | object | values => exact ⟨_, rfl⟩
      | atom x =>
        cases x with
        | bytes data => simp [sameRef, hcell] at h
        | _ => cases h
      | frozen => simp [sameRef, members?, hcell] at h
      | _ => cases h
  resource := by
    intro r b h
    cases b with
    | resource q => exact ⟨q, rfl⟩
    | _ => cases h

theorem keepsSorts_none (s : Store) : s.KeepsSorts fun _ _ => false :=
  ⟨nofun, nofun⟩

/-- Resources are equal when they are one or have the same location. -/
theorem isKeyEquality_resources (s : Store) (same : Value → Value → Bool) :
    IsKeyEquality (fun _ => True) fun q r => s.sameRef same (.resource q) (.resource r) := by
  have hiff : ∀ q r, s.sameRef same (.resource q) (.resource r) = true ↔
      q = r ∨ ((s.resource q).uri.isSome = true ∧ (s.resource q).uri = (s.resource r).uri) := by
    intro q r
    simp [sameRef]
  constructor
  · intro q r _ _ h
    rcases (hiff q r).1 h with rfl | ⟨hsome, huri⟩
    · exact h
    · exact (hiff r q).2 (.inr ⟨huri ▸ hsome, huri.symm⟩)
  · intro q r t _ _ _ hqr hrt
    rcases (hiff q r).1 hqr with rfl | ⟨hsome, huri⟩
    · exact hrt
    · rcases (hiff r t).1 hrt with rfl | ⟨-, huri'⟩
      · exact hqr
      · exact (hiff q t).2 (.inr ⟨hsome, huri.trans huri'⟩)

theorem isKey_of_mem_map_snd {fields : List (String × Value)}
    (hfields : ∀ field ∈ fields, s.IsKey field.2) {value : Value}
    (hvalue : value ∈ fields.map Prod.snd) : s.IsKey value := by
  obtain ⟨field, hfield, rfl⟩ := List.mem_map.1 hvalue
  exact hfields field hfield

theorem isKeyEquality_cells {same : Value → Value → Bool} (hsame : IsKeyEquality s.IsKey same) :
    IsKeyEquality (fun n => s.IsKey (.cell n)) fun n m => s.sameRef same (.cell n) (.cell m) := by
  constructor
  · intro n m hn hm h
    rcases (sameRef_cell_iff hn hm).1 h with
      rfl | ⟨info, fields, others, hcell, hcell', hfields, hothers, hfrozen, hitems⟩
    · exact h
    · refine (sameRef_cell_iff hm hn).2
        (.inr ⟨info, others, fields, hcell', hcell, hothers, hfields, hfrozen, ?_⟩)
      exact forall₂_symm hitems fun x hx y hy ↦ hsame.symm (isKey_of_mem_map_snd hfields hx)
        (isKey_of_mem_map_snd hothers hy)
  · intro n m l hn hm hl hnm hml
    rcases (sameRef_cell_iff hn hm).1 hnm with
      rfl | ⟨info, fields, others, hcell, hcell', hfields, hothers, hfrozen, hitems⟩
    · exact hml
    · rcases (sameRef_cell_iff hm hl).1 hml with
        rfl | ⟨info', others', last, hcellm, hcelll, -, hlast, -, hitems'⟩
      · exact hnm
      · rw [hcell'] at hcellm
        cases hcellm
        refine (sameRef_cell_iff hn hl).2
          (.inr ⟨info, fields, last, hcell, hcelll, hfields, hlast, hfrozen, ?_⟩)
        exact forall₂_trans hitems hitems' fun x hx y hy z hz ↦
          hsame.trans (isKey_of_mem_map_snd hfields hx) (isKey_of_mem_map_snd hothers hy)
            (isKey_of_mem_map_snd hlast hz)

/-! ### Equality through a number of containers -/

/-- Keys that are equal through some containers are so through more. -/
theorem sameWithin_succ {depth : Nat} {a b : Value} (ha : s.IsKey a) (hb : s.IsKey b)
    (hab : s.sameWithin depth a b = true) : s.sameWithin (depth + 1) a b = true := by
  induction depth generalizing a b with
  | zero =>
    exact sameBy_mono (keepsSorts_none s) (keepsSorts_sameRef s _) nofun nofun ha hb hab
  | succ depth ih =>
    refine sameBy_mono (keepsSorts_sameRef s (s.sameWithin depth))
      (keepsSorts_sameRef s (s.sameWithin (depth + 1))) ?_ id ha hb hab
    intro n m hn hm h
    rcases (sameRef_cell_iff hn hm).1 h with
      rfl | ⟨info, fields, others, hcell, hcell', hfields, hothers, hfrozen, hitems⟩
    · exact (sameRef_cell_iff hn hm).2 (.inl rfl)
    · refine (sameRef_cell_iff hn hm).2
        (.inr ⟨info, fields, others, hcell, hcell', hfields, hothers, hfrozen, ?_⟩)
      exact forall₂_imp_mem hitems fun x hx y hy ↦ ih (isKey_of_mem_map_snd hfields hx)
        (isKey_of_mem_map_snd hothers hy)

theorem same_of_sameWithin {depth : Nat} (hdepth : depth ≤ sameDepth) {a b : Value}
    (ha : s.IsKey a) (hb : s.IsKey b) (hab : s.sameWithin depth a b = true) :
    s.same a b = true := by
  have hadd : ∀ more, s.sameWithin (depth + more) a b = true := by
    intro more
    induction more with
    | zero => exact hab
    | succ more ih => exact sameWithin_succ ha hb ih
  have hsize := hadd (sameDepth - depth)
  rwa [Nat.add_sub_cancel' hdepth] at hsize

theorem isKeyEquality_sameWithin {depth : Nat} (hdepth : depth ≤ sameDepth) :
    IsKeyEquality s.IsKey (s.sameWithin depth) := by
  induction depth with
  | zero =>
    have hcells : IsKeyEquality (fun n => s.IsKey (.cell n)) fun _ _ => false :=
      ⟨nofun, nofun⟩
    have hresources : IsKeyEquality (fun _ : ResourceRef => True) fun _ _ => false :=
      ⟨nofun, nofun⟩
    exact ⟨sameBy_symm (keepsSorts_none s) hcells hresources (same_of_sameWithin hdepth),
      sameBy_trans (keepsSorts_none s) hcells hresources⟩
  | succ depth ih =>
    have hcells := isKeyEquality_cells (ih (by omega))
    have hresources := isKeyEquality_resources s (s.sameWithin depth)
    exact ⟨sameBy_symm (keepsSorts_sameRef s _) hcells hresources (same_of_sameWithin hdepth),
      sameBy_trans (keepsSorts_sameRef s _) hcells hresources⟩

/-- The equality of keys is symmetric and transitive. -/
theorem isKeyEquality_same (s : Store) : IsKeyEquality s.IsKey s.same :=
  isKeyEquality_sameWithin (Nat.le_refl _)

end Store

end ResourceScript

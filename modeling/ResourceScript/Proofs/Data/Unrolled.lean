import ResourceScript.Data.Order
import ResourceScript.Proofs.Number.Rounding
/-!
# The order of nested numbers

A scalar compares with a list as the list of that scalar does, at every depth. Data that is nested
to at most some depth therefore compares as if all of it were nested to exactly that depth
(`Data.compareAt`): null stands first at every level, lists go item by item, and the scalars at the
bottom are integers. Each of these comparisons is transitive (`Data.transCmp_compareAt`), and the
order of nested numbers is one of them (`Data.order_eq_compareAt`), so it is transitive too.
-/

set_option autoImplicit false

namespace ResourceScript

/-! ### Integers as doubles -/

theorem Double.less_ofInt {m n : Int} (hm : m.natAbs ≤ 2 ^ 53) (hn : n.natAbs ≤ 2 ^ 53) :
    (ofInt m).less (ofInt n) = decide (m < n) := by
  have hunits {k : Int} (hk : k.natAbs ≤ 2 ^ 53) :
      ((ofInt k).units : ℚ) = k * 2 ^ (-leastExponent) := by
    rw [(hasSize_ofInt hk).units, Nat.cast_natAbs, Int.cast_abs]
    by_cases hsign : k < 0
    · have hcast : (k : ℚ) < 0 := by exact_mod_cast hsign
      rw [decide_eq_true hsign, if_pos rfl, abs_of_neg hcast, neg_neg]
    · have hcast : (0 : ℚ) ≤ k := by exact_mod_cast not_lt.1 hsign
      rw [decide_eq_false hsign, if_neg Bool.false_ne_true, abs_of_nonneg hcast]
  have hunit : (0 : ℚ) < 2 ^ (-leastExponent) := zpow_pos two_pos _
  have hiff : (ofInt m).units < (ofInt n).units ↔ m < n := by
    rw [← Int.cast_lt (R := ℚ), hunits hm, hunits hn, mul_lt_mul_iff_left₀ hunit, Int.cast_lt]
  obtain ⟨_, _, hleft, -, -⟩ := hasSize_ofInt hm
  obtain ⟨_, _, hright, -, -⟩ := hasSize_ofInt hn
  rw [hleft, hright] at hiff ⊢
  rw [less_finite]
  exact decide_eq_decide.2 hiff

namespace Data

theorem orderReals_ofInt {m n : Int} (hm : m.natAbs ≤ 2 ^ 53) (hn : n.natAbs ≤ 2 ^ 53) :
    orderReals (.ofInt m) (.ofInt n) = compare m n := by
  rw [orderReals, Double.less_ofInt hm hn, Double.less_ofInt hn hm]
  simp only [decide_eq_true_eq]
  rcases lt_trichotomy m n with hlt | heq | hgt
  · rw [if_pos hlt, compare_lt_iff_lt.2 hlt]
  · rw [if_neg (not_lt.2 heq.ge), if_neg (not_lt.2 heq.le), compare_eq_iff_eq.2 heq]
  · rw [if_neg hgt.not_gt, if_pos hgt, compare_gt_iff_gt.2 hgt]

/-! ### Nested numbers -/

/-- Whether data is null, a truth value, an integer that doubles hold exactly, or a sequence of such
data. -/
inductive IsNumeric : Data → Prop
  /-- Null. -/
  | null : IsNumeric null
  /-- A truth value. -/
  | bool (b : Bool) : IsNumeric (bool b)
  /-- An integer of at most 53 binary digits, or the next power of two. -/
  | int {n : Int} (h : n.natAbs ≤ 2 ^ 53) : IsNumeric (int n)
  /-- A list. -/
  | list {items : List Data} (h : ∀ item ∈ items, item.IsNumeric) : IsNumeric (list items)
  /-- A tuple. -/
  | tuple {items : List Data} (h : ∀ item ∈ items, item.IsNumeric) : IsNumeric (tuple items)

/-- The integer that data is, truth values being 0 and 1. -/
def integer? : Data → Option Int
  | bool b => some (if b then 1 else 0)
  | int n => some n
  | _ => none

/-- The order of data as if it were nested to a given depth. -/
def compareAt : Nat → Data → Data → Ordering
  | 0 => compareOn integer?
  | depth + 1 => compareLex (compareOn fun data ↦ !data.isNull) fun a b ↦
      List.compareLex (compareAt depth) a.items b.items

theorem compareAt_succ (depth : Nat) (a b : Data) :
    compareAt (depth + 1) a b = (compare (!a.isNull) (!b.isNull)).then
      (List.compareLex (compareAt depth) a.items b.items) := rfl

/-- The order at any depth is transitive. -/
instance transCmp_compareAt (depth : Nat) : Std.TransCmp (compareAt depth) := by
  induction depth with
  | zero => exact inferInstanceAs (Std.TransCmp (compareOn integer?))
  | succ depth ih =>
    have hlists : Std.TransCmp (List.compareLex (compareAt depth)) := inferInstance
    have hitems : Std.TransCmp fun a b : Data ↦ List.compareLex (compareAt depth) a.items b.items :=
      { eq_swap := hlists.eq_swap, isLE_trans := hlists.isLE_trans }
    exact inferInstanceAs (Std.TransCmp (compareLex _ _))

/-! ### Scalars -/

section Scalars

variable {a b : Data} {m n : Int}

theorem eq_of_integer? (ha : a.integer? = some n) :
    (∃ b : Bool, a = bool b ∧ n = if b then 1 else 0) ∨ a = int n := by
  unfold integer? at ha
  split at ha
  · cases ha
    exact .inl ⟨_, rfl, rfl⟩
  · cases ha
    exact .inr rfl
  · cases ha

theorem isNull_of_integer? (ha : a.integer? = some n) : a.isNull = false := by
  rcases eq_of_integer? ha with ⟨_, rfl, -⟩ | rfl <;> rfl

theorem items_of_integer? (ha : a.integer? = some n) : a.items = [a] := by
  rcases eq_of_integer? ha with ⟨_, rfl, -⟩ | rfl <;> rfl

/-- Integers compare alike at every depth: a list of one integer compares as the integer. -/
theorem compareAt_of_integer? (ha : a.integer? = some m) (hb : b.integer? = some n) (depth : Nat) :
    compareAt depth a b = compare m n := by
  induction depth with
  | zero =>
    show compare a.integer? b.integer? = _
    rw [ha, hb]
    rfl
  | succ depth ih =>
    rw [compareAt_succ, isNull_of_integer? ha, isNull_of_integer? hb, items_of_integer? ha,
      items_of_integer? hb]
    simp only [List.compareLex, ih]
    cases compare m n <;> rfl

theorem toReal_of_integer? (ha : a.integer? = some n) (hn : n.natAbs ≤ 2 ^ 53) :
    a.toReal = .ok (.ofInt n) := by
  have hnumber : a.toReal = Number.toDouble (.int n) := by
    rcases eq_of_integer? ha with ⟨_, rfl, rfl⟩ | rfl <;> rfl
  obtain ⟨_, _, hfinite, -, -⟩ := Double.hasSize_ofInt hn
  rw [hnumber, Number.toDouble, hfinite]

theorem orderScalars_of_integer? (ha : a.integer? = some m) (hm : m.natAbs ≤ 2 ^ 53)
    (hb : b.integer? = some n) (hn : n.natAbs ≤ 2 ^ 53) :
    a.orderScalars b = .ok (compare m n) := by
  have hnumber : a.isNumber = true := by
    rcases eq_of_integer? ha with ⟨_, rfl, -⟩ | rfl <;> rfl
  unfold orderScalars
  rw [hnumber, Bool.true_or, if_pos rfl, toReal_of_integer? ha hm, toReal_of_integer? hb hn]
  exact congrArg _ (orderReals_ofInt hm hn)

end Scalars

/-! ### Items -/

theorem weight_le_listWeight {item : Data} {items : List Data} (h : item ∈ items) :
    item.weight ≤ listWeight items := by
  induction h with
  | head => exact Nat.le_add_right _ _
  | tail _ _ ih => exact ih.trans (Nat.le_add_left _ _)

theorem items_of_isNull {data : Data} (h : data.isNull = true) : data.items = [] := by
  unfold isNull at h
  split at h
  · rfl
  · cases h

/-- Lists compare by an order of their items. -/
theorem orderLists_eq_compareLex {compareItems : Data → Data → Ordering} {xs ys : List Data}
    (h : ∀ x ∈ xs, ∀ y ∈ ys, x.order y = .ok (compareItems x y)) :
    orderLists xs ys = .ok (List.compareLex compareItems xs ys) := by
  induction xs generalizing ys with
  | nil => cases ys <;> rw [orderLists] <;> rfl
  | cons x xs ih =>
    cases ys with
    | nil =>
      rw [orderLists]
      rfl
    | cons y ys =>
      have hrest := ih fun x' hx y' hy ↦ h x' (.tail _ hx) y' (.tail _ hy)
      rw [orderLists, h x (.head _) y (.head _), List.compareLex]
      cases compareItems x y with
      | eq => exact hrest
      | lt | gt => rfl

namespace IsNumeric

variable {a : Data}

/-- The items that nested numbers count as are nested numbers. -/
theorem of_mem_items {item : Data} (ha : a.IsNumeric) (hitem : item ∈ a.items) :
    item.IsNumeric := by
  cases ha with
  | null => cases hitem
  | list h | tuple h => exact h item hitem
  | bool b =>
    cases List.mem_singleton.1 hitem
    exact .bool b
  | int h =>
    cases List.mem_singleton.1 hitem
    exact .int h

/-- What is neither null nor a sequence is an integer that doubles hold. -/
theorem exists_integer? (ha : a.IsNumeric) (hnull : ¬ a.isNull = true)
    (hsequence : ¬ a.isSequence = true) : ∃ n, a.integer? = some n ∧ n.natAbs ≤ 2 ^ 53 := by
  cases ha with
  | null => exact absurd rfl hnull
  | list | tuple => exact absurd rfl hsequence
  | bool b => exact ⟨_, rfl, by cases b <;> decide⟩
  | int h => exact ⟨_, rfl, h⟩

theorem isCycle (ha : a.IsNumeric) : a.isCycle = false := by
  cases ha <;> rfl

end IsNumeric

/-! ### The order of nested numbers -/

/-- Nested numbers compare as if they were nested to any depth beyond their own. -/
theorem order_eq_compareAt {a b : Data} (ha : a.IsNumeric) (hb : b.IsNumeric) {depth : Nat}
    (hdepth : a.weight + b.weight ≤ depth) : a.order b = .ok (compareAt depth a b) := by
  induction depth generalizing a b with
  | zero => exact absurd (Nat.le_trans (Nat.le_add_right _ _) hdepth) (Nat.not_le.2 a.weight_pos)
  | succ depth ih =>
    rw [order]
    by_cases hnull : a.isNull = true
    · rw [if_pos hnull, compareAt_succ, hnull]
      by_cases hright : b.isNull = true
      · rw [if_pos hright, hright, items_of_isNull hnull, items_of_isNull hright]
        rfl
      · rw [if_neg hright, Bool.eq_false_of_not_eq_true hright]
        rfl
    · by_cases hright : b.isNull = true
      · rw [if_neg hnull, if_pos hright, compareAt_succ, hright, Bool.eq_false_of_not_eq_true hnull]
        rfl
      have hcycle : ¬ (a.isCycle || b.isCycle) = true := by
        rw [ha.isCycle, hb.isCycle]
        exact Bool.false_ne_true
      rw [if_neg hnull, if_neg hright, if_neg hcycle]
      by_cases hsequence : a.isSequence = true ∨ b.isSequence = true
      · rw [dif_pos hsequence, compareAt_succ, Bool.eq_false_of_not_eq_true hnull,
          Bool.eq_false_of_not_eq_true hright]
        refine orderLists_eq_compareLex fun x hx y hy ↦ ?_
        refine ih (ha.of_mem_items hx) (hb.of_mem_items hy) ?_
        have hxweight := weight_le_listWeight hx
        have hyweight := weight_le_listWeight hy
        have hleft := listWeight_items a
        have hitems := listWeight_items b
        rcases hsequence with h | h
        · rw [if_pos h] at hleft
          omega
        · rw [if_pos h] at hitems
          omega
      · rw [not_or] at hsequence
        obtain ⟨m, hm, hmsize⟩ := ha.exists_integer? hnull hsequence.1
        obtain ⟨n, hn, hnsize⟩ := hb.exists_integer? hright hsequence.2
        rw [dif_neg (not_or.2 hsequence), orderScalars_of_integer? hm hmsize hn hnsize,
          compareAt_of_integer? hm hn]

/-- Whether data compares as less than other data or as equal to it. -/
def AtMost (a b : Data) : Prop :=
  ∃ o, a.order b = .ok o ∧ o.isLE = true

variable {a b c : Data}

theorem atMost_iff (ha : a.IsNumeric) (hb : b.IsNumeric) (depth : Nat)
    (hdepth : a.weight + b.weight ≤ depth) : a.AtMost b ↔ (compareAt depth a b).isLE = true := by
  unfold AtMost
  rw [order_eq_compareAt ha hb hdepth]
  constructor
  · rintro ⟨o, ho, hle⟩
    cases ho
    exact hle
  · exact fun hle ↦ ⟨_, rfl, hle⟩

/-- The order of nested numbers is transitive. -/
theorem atMost_trans (ha : a.IsNumeric) (hb : b.IsNumeric) (hc : c.IsNumeric)
    (hab : a.AtMost b) (hbc : b.AtMost c) : a.AtMost c := by
  obtain ⟨depth, hdepth⟩ : ∃ depth, depth = a.weight + b.weight + c.weight := ⟨_, rfl⟩
  rw [atMost_iff ha hb depth (by omega)] at hab
  rw [atMost_iff hb hc depth (by omega)] at hbc
  rw [atMost_iff ha hc depth (by omega)]
  exact Std.TransCmp.isLE_trans hab hbc

/-- An integer between two sequences, each of which holds null or a list of the integer in front. -/
theorem atMost_trans_nested :
    (tuple [null, int 5]).AtMost (int 3) ∧ (int 3).AtMost (list [list [int 3], bool false]) ∧
      (tuple [null, int 5]).AtMost (list [list [int 3], bool false]) := by
  have hint : (int 3).IsNumeric := .int (by decide)
  have hlow : (tuple [null, int 5]).IsNumeric :=
    .tuple (List.forall_mem_cons.2 ⟨.null, List.forall_mem_singleton.2 (.int (by decide))⟩)
  have hinner : (list [int 3]).IsNumeric := .list (List.forall_mem_singleton.2 hint)
  have hhigh : (list [list [int 3], bool false]).IsNumeric :=
    .list (List.forall_mem_cons.2 ⟨hinner, List.forall_mem_singleton.2 (.bool false)⟩)
  have hleft : (tuple [null, int 5]).AtMost (int 3) :=
    (atMost_iff hlow hint 4 (by decide)).2 (by decide)
  have hright : (int 3).AtMost (list [list [int 3], bool false]) :=
    (atMost_iff hint hhigh 5 (by decide)).2 (by decide)
  exact ⟨hleft, hright, atMost_trans hlow hint hhigh hleft hright⟩

end Data

end ResourceScript

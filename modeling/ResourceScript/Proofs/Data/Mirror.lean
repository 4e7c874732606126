import ResourceScript.Data.Order
import ResourceScript.Proofs.Data.Acyclic
/-!
# The order of data from both sides

Comparing two values from the other side gives the opposite answer, or fails from both sides
(`Data.mirrors_order`). So a value that compares with itself at all is equal to itself. The proof is
an induction along the recursion of the order, which takes the items of both sides alike, and that
recursion ends on data without cycles (`Data.order_symmetric`).
-/

set_option autoImplicit false

namespace ResourceScript

/-- Whether two comparisons end alike: with opposite answers, or by failing both. -/
inductive Mirrors : Except Fault Ordering → Except Fault Ordering → Prop
  | ok (o : Ordering) : Mirrors (.ok o) (.ok o.swap)
  | error (cause other : Fault) : Mirrors (.error cause) (.error other)

namespace Mirrors

variable {x y : Except Fault Ordering}

/-- A comparison of results of two steps, which are taken in the opposite order from the other
side. -/
theorem of_steps {α : Type} {a b : Except Fault α} {compare : α → α → Ordering}
    (hcompare : ∀ u v, compare v u = (compare u v).swap) :
    Mirrors (do return compare (← a) (← b)) (do return compare (← b) (← a)) := by
  cases a with
  | error cause =>
    cases b with
    | error other => exact .error cause other
    | ok v => exact .error cause cause
  | ok u =>
    cases b with
    | error other => exact .error other other
    | ok v =>
      show Mirrors (.ok (compare u v)) (.ok (compare v u))
      rw [hcompare u v]
      exact .ok _

theorem eq_ok {o : Ordering} (h : Mirrors x y) (hx : x = .ok o) : y = .ok o.swap := by
  cases h with
  | ok o' =>
    cases hx
    rfl
  | error => cases hx

theorem exists_eq_error {cause : Fault} (h : Mirrors x y) (hx : x = .error cause) :
    ∃ other, y = .error other := by
  cases h with
  | ok o => cases hx
  | error _ other => exact ⟨other, rfl⟩

end Mirrors

/-! ### Doubles, texts and moments -/

theorem Double.less_asymm {x y : Double} (h : x.less y = true) : y.less x = false := by
  cases x <;> cases y <;> simp_all [less]
  omega

namespace Data

theorem orderReals_swap (x y : Double) : orderReals y x = (orderReals x y).swap := by
  unfold orderReals
  by_cases hless : x.less y = true
  · have hnot : ¬ y.less x = true := by
      rw [Double.less_asymm hless]
      exact Bool.false_ne_true
    rw [if_pos hless, if_neg hnot, if_pos hless]
    rfl
  · rw [if_neg hless, if_neg hless]
    split <;> rfl

theorem orderChars_swap (s t : List Char) : orderChars t s = (orderChars s t).swap := by
  induction s generalizing t with
  | nil => cases t <;> rfl
  | cons c s ih =>
    cases t with
    | nil => rfl
    | cons d t =>
      rw [orderChars, orderChars]
      rcases Nat.lt_trichotomy c.toNat d.toNat with hlt | heq | hgt
      · rw [if_neg (Nat.lt_asymm hlt), if_pos hlt, if_pos hlt]
        rfl
      · rw [heq, if_neg (Nat.lt_irrefl _), if_neg (Nat.lt_irrefl _), if_neg (Nat.lt_irrefl _),
          if_neg (Nat.lt_irrefl _), ih]
      · rw [if_pos hgt, if_neg (Nat.lt_asymm hgt), if_pos hgt]
        rfl

end Data

theorem Moment.mirrors_order (m n : Moment) : Mirrors (m.order n) (n.order m) := by
  have hswap : compare n.microseconds m.microseconds =
      (compare m.microseconds n.microseconds).swap := Std.OrientedCmp.eq_swap
  unfold order
  by_cases hzone : m.offset.isSome = n.offset.isSome
  · rw [if_pos hzone, if_pos hzone.symm, hswap]
    exact .ok _
  · rw [if_neg hzone, if_neg (Ne.symm hzone)]
    exact .error _ _

namespace Data

/-! ### Data -/

theorem mirrors_orderScalars (a b : Data) : Mirrors (a.orderScalars b) (b.orderScalars a) := by
  unfold orderScalars
  rw [Bool.or_comm b.isNumber]
  split
  · exact .of_steps orderReals_swap
  · split
    · exact Moment.mirrors_order _ _
    · rename_i hother
      split
      · exact absurd rfl (hother _ _ rfl)
      · exact .of_steps fun s t : String ↦ orderChars_swap s.toList t.toList

theorem mirrors_order_and_orderLists :
    (∀ a b : Data, Mirrors (a.order b) (b.order a)) ∧
      ∀ xs ys : List Data, Mirrors (orderLists xs ys) (orderLists ys xs) := by
  refine order.mutual_induct _ _ ?null ?rightNull ?cycle ?sequence ?scalars ?nil ?left ?right ?cons
  case null =>
    intro a b ha
    rw [order, order, if_pos ha, if_pos ha]
    by_cases hb : b.isNull = true
    · rw [if_pos hb, if_pos hb]
      exact .ok .eq
    · rw [if_neg hb, if_neg hb, if_pos ha]
      exact .ok .lt
  case rightNull =>
    intro a b ha hb
    rw [order, order, if_neg ha, if_pos hb, if_pos hb, if_neg ha]
    exact .ok .gt
  case cycle =>
    intro a b ha hb hcycle
    rw [order, order, if_neg ha, if_neg hb, if_neg hb, if_neg ha, if_pos hcycle,
      if_pos (Bool.or_comm _ _ ▸ hcycle)]
    exact .error _ _
  case sequence =>
    intro a b ha hb hcycle hsequence ih
    rw [order, order, if_neg ha, if_neg hb, if_neg hb, if_neg ha, if_neg hcycle,
      if_neg (Bool.or_comm _ _ ▸ hcycle), dif_pos hsequence, dif_pos hsequence.symm]
    exact ih
  case scalars =>
    intro a b ha hb hcycle hsequence
    rw [order, order, if_neg ha, if_neg hb, if_neg hb, if_neg ha, if_neg hcycle,
      if_neg (Bool.or_comm _ _ ▸ hcycle), dif_neg hsequence, dif_neg (mt Or.symm hsequence)]
    exact mirrors_orderScalars a b
  case nil =>
    rw [orderLists]
    exact .ok .eq
  case left =>
    intro y ys
    rw [orderLists, orderLists]
    exact .ok .lt
  case right =>
    intro x xs
    rw [orderLists, orderLists]
    exact .ok .gt
  case cons =>
    intro x xs y ys hitems hrest
    rw [orderLists, orderLists]
    generalize x.order y = forward at hitems
    generalize y.order x = backward at hitems
    cases hitems with
    | error cause other => exact .error cause other
    | ok o =>
      cases o with
      | eq => exact hrest
      | lt => exact .ok .lt
      | gt => exact .ok .gt

/-- Comparing two values from the other side gives the opposite answer, or fails from both sides. -/
theorem mirrors_order (a b : Data) : Mirrors (a.order b) (b.order a) :=
  mirrors_order_and_orderLists.1 a b

/-! ### The recursion ends -/

theorem IsAcyclic.onlyFails_shallow {α : Type} {data : Data} {x : Except Fault α}
    (h : data.IsAcyclic) (hx : OnlyFails (OrLimit data.HasBlock) x) :
    OnlyFails (· ≠ .recursion) x :=
  (h.onlyFails hx).mono fun _ ↦ Fault.IsLimit.ne_recursion

theorem IsAcyclic.orderScalars {a b : Data} (ha : a.IsAcyclic) (hb : b.IsAcyclic) :
    OnlyFails (· ≠ .recursion) (a.orderScalars b) := by
  unfold Data.orderScalars
  split
  · refine (ha.onlyFails_shallow (onlyFails_toReal a)).bind fun x ↦ ?_
    exact (hb.onlyFails_shallow (onlyFails_toReal b)).bind fun y ↦ .ok _
  · split
    · unfold Moment.order
      split
      · exact .ok _
      · exact .error Fault.noConfusion
    · refine (ha.onlyFails_shallow (onlyFails_toText a).orLimit).bind fun x ↦ ?_
      exact (hb.onlyFails_shallow (onlyFails_toText b).orLimit).bind fun y ↦ .ok _

theorem onlyFails_order_and_orderLists :
    (∀ a b : Data, a.IsAcyclic → b.IsAcyclic → OnlyFails (· ≠ .recursion) (a.order b)) ∧
      ∀ xs ys : List Data, (∀ x ∈ xs, x.IsAcyclic) → (∀ y ∈ ys, y.IsAcyclic) →
        OnlyFails (· ≠ .recursion) (orderLists xs ys) := by
  refine order.mutual_induct _ _ ?null ?rightNull ?cycle ?sequence ?scalars ?nil ?left ?right ?cons
  case null =>
    intro a b hnull _ _
    rw [order, if_pos hnull]
    exact .ok _
  case rightNull =>
    intro a b hnull hright _ _
    rw [order, if_neg hnull, if_pos hright]
    exact .ok _
  case cycle =>
    intro a b _ _ hcycle ha hb
    have hnot {data : Data} (h : data.IsAcyclic) : data.isCycle = false := by
      cases data with
      | cycle => exact absurd .whole h
      | _ => rfl
    rw [hnot ha, hnot hb] at hcycle
    cases hcycle
  case sequence =>
    intro a b hnull hright hcycle hsequence ih ha hb
    rw [order, if_neg hnull, if_neg hright, if_neg hcycle, dif_pos hsequence]
    exact ih (fun _ ↦ ha.of_mem_items) fun _ ↦ hb.of_mem_items
  case scalars =>
    intro a b hnull hright hcycle hsequence ha hb
    rw [order, if_neg hnull, if_neg hright, if_neg hcycle, dif_neg hsequence]
    exact ha.orderScalars hb
  case nil | left | right =>
    intros
    rw [orderLists]
    exact .ok _
  case cons =>
    intro x xs y ys hitems hrest hx hy
    rw [orderLists]
    rw [List.forall_mem_cons] at hx hy
    refine (hitems hx.1 hy.1).bind fun o ↦ ?_
    cases o with
    | eq => exact hrest hx.2 hy.2
    | lt | gt => exact .ok _

/-- For all values without cycles: comparing them ends, a value that compares with itself is equal
to itself, comparing from the other side gives the opposite answer, and if one side fails so does
the other. -/
theorem order_symmetric {a b : Data} (ha : a.IsAcyclic) (hb : b.IsAcyclic) :
    a.order b ≠ .error .recursion ∧
    (∀ o, a.order a = .ok o → o = .eq) ∧
    (∀ o, a.order b = .ok o → b.order a = .ok o.swap) ∧
    ((∃ cause, a.order b = .error cause) → ∃ cause, b.order a = .error cause) := by
  refine ⟨fun hdeep ↦ ?ends, fun o hself ↦ ?self, fun o ↦ (mirrors_order a b).eq_ok,
    fun ⟨_, hfails⟩ ↦ (mirrors_order a b).exists_eq_error hfails⟩
  case ends => exact onlyFails_order_and_orderLists.1 a b ha hb _ hdeep rfl
  case self =>
    have hswap : o = o.swap := Except.ok.inj (hself.symm.trans ((mirrors_order a a).eq_ok hself))
    cases o with
    | eq => rfl
    | lt | gt => cases hswap

/-- A text against a list that holds it at one level further down, in front of more. -/
theorem order_symmetric_nested :
    (list [list [text "a"], null]).order (text "a") = .ok .gt ∧
      (text "a").order (list [list [text "a"], null]) = .ok .lt := by
  have hinner : (list [text "a"]).IsAcyclic :=
    isAcyclic_list (List.forall_mem_singleton.2 (isAcyclic_atom _))
  have houter : (list [list [text "a"], null]).IsAcyclic :=
    isAcyclic_list (List.forall_mem_cons.2 ⟨hinner, List.forall_mem_singleton.2 (isAcyclic_atom _)⟩)
  have hgt : (list [list [text "a"], null]).order (text "a") = .ok .gt := by cbv
  exact ⟨hgt, (order_symmetric houter (isAcyclic_atom _)).2.2.1 .gt hgt⟩

end Data

end ResourceScript

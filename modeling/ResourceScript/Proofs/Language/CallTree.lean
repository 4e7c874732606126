import ResourceScript.Language.Call
/-!
# Call trees and their tokens

A call tree is a call as its author has it in mind: a function over parameters, each of which is a
value or a call again. It is written as its function, its parameters in order and, when the function
takes any number of them, the function once more as closer. `ofTokens_tokens` shows that compiling
undoes this: the tokens of a tree compile to the tree, and the tokens of several trees to a call
without a function that holds them in order.

The two conditions of `WellFormed` are those under which the closers can be told from the calls: a
function with an arity has as many parameters as that, and a function that takes any number has no
call of its own as a direct parameter. Below another function a call of its own may stand.
-/

set_option autoImplicit false

namespace ResourceScript

/-- A call as a tree: values at the leaves, functions at the nodes. -/
inductive CallTree where
  /-- A value. -/
  | leaf (value : Value)
  /-- A call of a function. -/
  | call (function : Function) (params : List CallTree)

namespace CallTree

/-- The function of a call; a leaf has none. -/
def function? : CallTree → Option Function
  | leaf _ => none
  | call f _ => some f

/-- Whether a number of parameters is that of a function, and none of them is taken for the closer
of its call. -/
def Fits (f : Function) (params : List CallTree) : Prop :=
  match f.arity with
  | some arity => params.length = arity
  | none => ∀ t ∈ params, t.function? ≠ some f

/-- The token behind the parameters of a call. -/
def closer (f : Function) : List Value :=
  if f.isVariadic then [.function f] else []

mutual

/-- Whether a tree can be written: no leaf is a function, no function begins a bloc, and the
parameters of each call fit its function. -/
def WellFormed : CallTree → Prop
  | leaf value => ∀ g, value ≠ .function g
  | call f params => f.isBloc = false ∧ Fits f params ∧ AllWellFormed params

/-- Whether all of several trees can be written. -/
def AllWellFormed : List CallTree → Prop
  | [] => True
  | t :: rest => t.WellFormed ∧ AllWellFormed rest

end

mutual

/-- The tokens of a tree. -/
def tokens : CallTree → List Value
  | leaf value => [value]
  | call f params => .function f :: (allTokens params ++ closer f)

/-- The tokens of trees one after the other. -/
def allTokens : List CallTree → List Value
  | [] => []
  | t :: rest => t.tokens ++ allTokens rest

end

mutual

/-- The expression of a tree. -/
def value : CallTree → Value
  | leaf value => value
  | call f params => .call (some f) (values params)

/-- The expressions of trees. -/
def values : List CallTree → List Value
  | [] => []
  | t :: rest => t.value :: values rest

end

theorem allTokens_eq_flatMap (trees : List CallTree) : allTokens trees = trees.flatMap tokens := by
  induction trees with
  | nil => rfl
  | cons t rest ih => simp only [allTokens, ih, List.flatMap_cons]

theorem values_eq_map (trees : List CallTree) : values trees = trees.map value := by
  induction trees with
  | nil => rfl
  | cons t rest ih => simp only [values, ih, List.map_cons]

theorem allWellFormed_iff (trees : List CallTree) :
    AllWellFormed trees ↔ ∀ t ∈ trees, t.WellFormed := by
  induction trees with
  | nil => simp only [AllWellFormed, List.not_mem_nil, false_implies, implies_true]
  | cons t rest ih => simp only [AllWellFormed, ih, List.forall_mem_cons]

/-! ### Taking the parameters back -/

open Call

theorem isFull_eq_false {f : Function} {taken bound : Nat}
    (harity : ∀ arity, f.arity = some arity → bound ≤ arity) (htaken : taken < bound) :
    isFull (some f) taken = false := by
  simp only [isFull]
  cases hf : f.arity with
  | none => rfl
  | some arity =>
    have hbound := harity arity hf
    exact decide_eq_false (by omega)

theorem isFull_arity {f : Function} {arity : Nat} (harity : f.arity = some arity) :
    isFull (some f) arity = true := by
  simp only [isFull, harity, Nat.le_refl, decide_true]

theorem closes_eq_false {f g : Function} (hother : f.isVariadic = true → g ≠ f) :
    closes (some f) g = false := by
  rw [closes, Bool.and_eq_false_iff]
  by_cases hg : g = f
  · right
    rw [hg]
    exact Bool.eq_false_iff.mpr fun hf ↦ hother hf hg
  · left
    rw [beq_eq_false_iff_ne]
    exact fun h ↦ hg (Option.some.inj h).symm

/-- A tree is taken as the next parameter of a function, whatever comes behind it. -/
def TakenBy (f : Function) (t : CallTree) : Prop :=
  ∀ (taken : Nat) (rest : List Value), isFull (some f) taken = false →
    (takeParams (some f) taken (t.tokens ++ rest)).val =
      ⟨t.value :: (takeParams (some f) (taken + 1) rest).val.params,
        (takeParams (some f) (taken + 1) rest).val.rest⟩

/-- Trees that are taken one by one are taken together, as long as the function has room. -/
theorem takeParams_allTokens {f : Function} {params : List CallTree}
    (hparams : ∀ t ∈ params, TakenBy f t) (taken : Nat)
    (harity : ∀ arity, f.arity = some arity → taken + params.length ≤ arity) (rest : List Value) :
    (takeParams (some f) taken (allTokens params ++ rest)).val =
      ⟨values params ++ (takeParams (some f) (taken + params.length) rest).val.params,
        (takeParams (some f) (taken + params.length) rest).val.rest⟩ := by
  induction params generalizing taken with
  | nil => rfl
  | cons t params ih =>
    rw [List.forall_mem_cons] at hparams
    rw [List.length_cons] at harity
    have hfull : isFull (some f) taken = false := isFull_eq_false harity (by omega)
    rw [allTokens, List.append_assoc, hparams.1 taken _ hfull,
      ih hparams.2 (taken + 1) fun arity h ↦ by have := harity arity h; omega]
    simp only [values, List.cons_append, List.length_cons, Nat.add_assoc, Nat.add_comm 1]

/-- A call takes its parameters and its closer, and no more. -/
theorem takeParams_closed {f : Function} (hbloc : f.isBloc = false) {params : List CallTree}
    (hfits : Fits f params) (hparams : ∀ t ∈ params, TakenBy f t) (rest : List Value) :
    (takeParams (some f) 0 (allTokens params ++ closer f ++ rest)).val = ⟨values params, rest⟩ := by
  have hroom : ∀ arity, f.arity = some arity → 0 + params.length ≤ arity := by
    intro arity harity
    rw [Fits, harity] at hfits
    omega
  rw [List.append_assoc, takeParams_allTokens hparams 0 hroom, Nat.zero_add]
  have hend : (takeParams (some f) params.length (closer f ++ rest)).val = ⟨[], rest⟩ := by
    unfold closer Function.isVariadic
    cases harity : f.arity with
    | none =>
      have hfull : isFull (some f) params.length = false := by simp only [isFull, harity]
      have hcloses : closes (some f) f = true := by
        simp only [closes, Function.isVariadic, harity, beq_self_eq_true, Option.isNone_none,
          Bool.and_self]
      exact takeParams_closer hfull hbloc hcloses rest
    | some arity =>
      rw [Fits, harity] at hfits
      exact takeParams_full (hfits ▸ isFull_arity harity) rest
  rw [hend, List.append_nil]

/-- The parameters of a call that can be written can be written, and none of them is taken for its
closer. -/
theorem wellFormed_param {f : Function} {params : List CallTree}
    (hwell : (call f params).WellFormed) {t : CallTree} (ht : t ∈ params) :
    t.WellFormed ∧ (f.isVariadic = true → t.function? ≠ some f) := by
  obtain ⟨-, hfits, hparams⟩ := hwell
  refine ⟨(allWellFormed_iff params).mp hparams t ht, fun hvariadic ↦ ?_⟩
  rw [Function.isVariadic, Option.isNone_iff_eq_none] at hvariadic
  rw [Fits, hvariadic] at hfits
  exact hfits t ht

/-- A tree that can be written, and is not taken for a closer, is taken as a parameter. -/
theorem takenBy {f : Function} (hbloc : f.isBloc = false) (t : CallTree) (hwell : t.WellFormed)
    (hother : f.isVariadic = true → t.function? ≠ some f) : TakenBy f t := by
  intro taken rest hfull
  match t with
  | leaf value => exact takeParams_value hfull hbloc hwell rest
  | call g params =>
    have hcloses : closes (some f) g = false :=
      closes_eq_false fun hf h ↦ hother hf (congrArg some h)
    have hparams : ∀ p ∈ params, TakenBy g p := fun p hp ↦
      takenBy hwell.1 p (wellFormed_param hwell hp).1 (wellFormed_param hwell hp).2
    have hinner := takeParams_closed hwell.1 hwell.2.1 hparams rest
    rw [tokens, List.cons_append, takeParams_call hfull hbloc hcloses, hinner]
    rfl
termination_by sizeOf t

/-! ### Compiling the tokens of trees -/

/-- The tokens of a call in front of others are the call in front of the others' calls. -/
theorem calls_tokens {t : CallTree} (hcall : t.function?.isSome) (hwell : t.WellFormed)
    (rest : List Value) : calls (t.tokens ++ rest) = t.value :: calls rest := by
  cases t with
  | leaf value => exact absurd hcall Bool.false_ne_true
  | call f params =>
    have hparams : ∀ p ∈ params, TakenBy f p := fun p hp ↦
      takenBy hwell.1 p (wellFormed_param hwell hp).1 (wellFormed_param hwell hp).2
    rw [tokens, List.cons_append, calls_function,
      takeParams_closed hwell.1 hwell.2.1 hparams rest]
    rfl

/-- The tokens of calls one after the other are the calls in order. -/
theorem calls_allTokens {trees : List CallTree}
    (htrees : ∀ t ∈ trees, t.function?.isSome ∧ t.WellFormed) :
    calls (allTokens trees) = values trees := by
  induction trees with
  | nil => exact calls_nil
  | cons t trees ih =>
    rw [List.forall_mem_cons] at htrees
    rw [allTokens, calls_tokens htrees.1.1 htrees.1.2, ih htrees.2]
    rfl

/-- Compiling undoes writing: the tokens of a call compile to the call, and those of two or more
calls to a call without a function whose parameters are the calls in order. -/
theorem ofTokens_tokens :
    (∀ t : CallTree, t.function?.isSome → t.WellFormed → ofTokens t.tokens = t.value) ∧
      ∀ trees : List CallTree, 2 ≤ trees.length →
        (∀ t ∈ trees, t.function?.isSome ∧ t.WellFormed) →
          ofTokens (trees.flatMap tokens) = .call none (trees.map value) := by
  constructor
  · intro t hcall hwell
    have hcalls := calls_tokens hcall hwell []
    rw [List.append_nil, calls_nil] at hcalls
    rw [ofTokens, hcalls]
  · intro trees hlength htrees
    have hcalls := calls_allTokens htrees
    rw [allTokens_eq_flatMap, values_eq_map] at hcalls
    rw [ofTokens, hcalls]
    match trees with
    | first :: second :: rest => rfl

/-- A sum with a list as second parameter: below the list stands another sum, which ends before a
call that takes no parameters, and the closer of each sum is its own. -/
def nestedSum : CallTree :=
  let sum : Function := ⟨"add", .command, none, .builtin .add⟩
  let list : Function := ⟨"list", .command, none, .builtin .list⟩
  let now : Function := ⟨"now", .command, some 0, .tally⟩
  call sum [leaf (.int 1), call list [call sum [leaf (.int 2)], call now []]]

theorem nestedSum_wellFormed : nestedSum.WellFormed := by
  simp [nestedSum, WellFormed, AllWellFormed, Fits, function?, Function.isBloc]

theorem ofTokens_tokens_nestedSum :
    nestedSum.function?.isSome ∧ nestedSum.WellFormed ∧
      ofTokens nestedSum.tokens = nestedSum.value ∧
        2 ≤ [nestedSum, nestedSum].length ∧
          ofTokens ([nestedSum, nestedSum].flatMap tokens) =
            .call none [nestedSum.value, nestedSum.value] := by
  refine ⟨rfl, nestedSum_wellFormed, ofTokens_tokens.1 nestedSum rfl nestedSum_wellFormed,
    Nat.le_refl 2, ofTokens_tokens.2 [nestedSum, nestedSum] (Nat.le_refl 2) ?_⟩
  intro t ht
  simp only [List.mem_cons, List.not_mem_nil, or_false, or_self] at ht
  exact ht ▸ ⟨rfl, nestedSum_wellFormed⟩

end CallTree

end ResourceScript

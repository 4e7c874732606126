import ResourceScript.Value
/-!
# From tokens to calls

A line of tokens becomes a tree of calls. A function takes the tokens behind it as its parameters:
as many as its arity, or all up to its own token again when it takes any number. A function among
the parameters of another begins a call of its own, except in the header of a bloc, whose tokens are
kept as they are.
-/

set_option autoImplicit false

namespace ResourceScript

namespace Call

/-- Whether a call with a number of parameters takes no more. -/
def isFull (f : Option Function) (taken : Nat) : Bool :=
  match f with
  | some f =>
    match f.arity with
    | some arity => arity ≤ taken
    | none => false
  | none => false

/-- Whether a call is a bloc. -/
def isBlocHeader (f : Option Function) : Bool :=
  (f.map Function.isBloc).getD false

/-- Whether a function token closes a call: it is the function of the call, which takes any number
of parameters. -/
def closes (f : Option Function) (g : Function) : Bool :=
  f == some g && g.isVariadic

/-- Parameters together with the tokens left behind them. -/
structure Taken where
  /-- The parameters. -/
  params : List Value
  /-- The tokens that are left. -/
  rest : List Value

/-- Takes the parameters of a call of `f`, `taken` of which are there already. -/
def takeParams (f : Option Function) (taken : Nat) (tokens : List Value) :
    { t : Taken // t.rest.length ≤ tokens.length } :=
  match tokens with
  | [] => ⟨⟨[], []⟩, by simp⟩
  | token :: rest =>
    if isFull f taken then ⟨⟨[], token :: rest⟩, by simp⟩
    else if isBlocHeader f then
      let ⟨more, hmore⟩ := takeParams f (taken + 1) rest
      ⟨⟨token :: more.params, more.rest⟩, by simp only [List.length_cons]; omega⟩
    else match token with
      | .function g =>
        if closes f g then ⟨⟨[], rest⟩, by simp⟩
        else
          let ⟨inner, hinner⟩ := takeParams (some g) 0 rest
          let ⟨more, hmore⟩ := takeParams f (taken + 1) inner.rest
          ⟨⟨.call (some g) inner.params :: more.params, more.rest⟩, by
            simp only [List.length_cons]; omega⟩
      | token =>
        let ⟨more, hmore⟩ := takeParams f (taken + 1) rest
        ⟨⟨token :: more.params, more.rest⟩, by simp only [List.length_cons]; omega⟩
termination_by tokens.length
decreasing_by
  all_goals simp only [List.length_cons]; omega

/-! ### What is taken at each token -/

section

variable {f : Option Function} {taken : Nat}

@[simp] theorem takeParams_nil : (takeParams f taken []).val = ⟨[], []⟩ := by
  rw [takeParams]

theorem takeParams_full (hfull : isFull f taken = true) (tokens : List Value) :
    (takeParams f taken tokens).val = ⟨[], tokens⟩ := by
  cases tokens with
  | nil => exact takeParams_nil
  | cons token rest =>
    unfold takeParams
    simp only [hfull, if_true]

theorem takeParams_header (hfull : isFull f taken = false) (hbloc : isBlocHeader f = true)
    (token : Value) (rest : List Value) :
    (takeParams f taken (token :: rest)).val =
      ⟨token :: (takeParams f (taken + 1) rest).val.params,
        (takeParams f (taken + 1) rest).val.rest⟩ := by
  conv => lhs; unfold takeParams
  simp only [hfull, Bool.false_eq_true, if_false, hbloc, if_true]

theorem takeParams_closer (hfull : isFull f taken = false) (hbloc : isBlocHeader f = false)
    {g : Function} (hcloses : closes f g = true) (rest : List Value) :
    (takeParams f taken (.function g :: rest)).val = ⟨[], rest⟩ := by
  rw [takeParams, if_neg (by simp [hfull]), if_neg (by simp [hbloc])]
  simp [hcloses]

theorem takeParams_call (hfull : isFull f taken = false) (hbloc : isBlocHeader f = false)
    {g : Function} (hcloses : closes f g = false) (rest : List Value) :
    (takeParams f taken (.function g :: rest)).val =
      ⟨.call (some g) (takeParams (some g) 0 rest).val.params ::
          (takeParams f (taken + 1) (takeParams (some g) 0 rest).val.rest).val.params,
        (takeParams f (taken + 1) (takeParams (some g) 0 rest).val.rest).val.rest⟩ := by
  rw [takeParams, if_neg (by simp [hfull]), if_neg (by simp [hbloc])]
  simp [hcloses]

theorem takeParams_value (hfull : isFull f taken = false) (hbloc : isBlocHeader f = false)
    {token : Value} (htoken : ∀ g, token ≠ .function g) (rest : List Value) :
    (takeParams f taken (token :: rest)).val =
      ⟨token :: (takeParams f (taken + 1) rest).val.params,
        (takeParams f (taken + 1) rest).val.rest⟩ := by
  conv => lhs; unfold takeParams
  simp only [hfull, hbloc, Bool.false_eq_true, if_false]

end

/-- The calls of a line of tokens one after the other. Values in front of any function make up a
call without a function. -/
def calls : List Value → List Value
  | [] => []
  | .function g :: rest =>
    let ⟨taken, _htaken⟩ := takeParams (some g) 0 rest
    .call (some g) taken.params :: calls taken.rest
  | token :: rest =>
    let ⟨taken, _htaken⟩ := takeParams none 1 rest
    .call none (token :: taken.params) :: calls taken.rest
termination_by tokens => tokens.length
decreasing_by
  all_goals simp only [List.length_cons]; omega

@[simp] theorem calls_nil : calls [] = [] := by
  rw [calls]

theorem calls_function (g : Function) (rest : List Value) :
    calls (.function g :: rest) =
      .call (some g) (takeParams (some g) 0 rest).val.params ::
        calls (takeParams (some g) 0 rest).val.rest := by
  rw [calls]

theorem calls_value {token : Value} (htoken : ∀ g, token ≠ .function g) (rest : List Value) :
    calls (token :: rest) =
      .call none (token :: (takeParams none 1 rest).val.params) ::
        calls (takeParams none 1 rest).val.rest := by
  rw [calls]
  exact htoken

/-- The call of a line of tokens: a single call, or several as the parameters of a call without a
function. -/
def ofTokens (tokens : List Value) : Value :=
  match calls tokens with
  | [call] => call
  | several => .call none several

end Call

end ResourceScript

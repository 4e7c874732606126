import ResourceScript.Language.Call
/-!
# What becomes of the tokens of a line

A token tree tells how a line of tokens is read: a token is kept as a parameter, or begins a call,
or closes one. Written out it gives the tokens back in their order (`source`), and without the
closers it gives the compiled line in pre-order (`kept`). `ofTokens_source` shows that every line of
tokens is read along such trees, so that nothing is lost, doubled or moved: a token is missing from
the compiled line only where it closes a call of its own function, which takes any number of
parameters and is no bloc.

`Lawful` is the law of arities. A function with an arity has at most so many parameters, and it has
fewer only when nothing comes behind its call.
-/

set_option autoImplicit false

namespace ResourceScript

namespace Value

mutual

/-- A value read in pre-order: the function of a call, if it has one, and then its parameters. -/
def preorder : Value → List Value
  | call f params => (f.map function).toList ++ preorderAll params
  | atom a => [.atom a]
  | tuple items => [.tuple items]
  | frozen items => [.frozen items]
  | cell n => [.cell n]
  | resource n => [.resource n]
  | scope n => [.scope n]

/-- Values read in pre-order one after the other. -/
def preorderAll : List Value → List Value
  | [] => []
  | value :: rest => value.preorder ++ preorderAll rest

end

theorem preorder_of_not_call {value : Value} (hvalue : ∀ f params, value ≠ .call f params) :
    value.preorder = [value] := by
  cases value with
  | call f params => exact absurd rfl (hvalue f params)
  | _ => rfl

end Value

/-- How tokens are read: a token is kept as it is, or a call takes some of them, the last of which
may be its closer. -/
inductive TokenTree where
  /-- A token that is kept. -/
  | token (value : Value)
  /-- A call, and whether the function stands once more behind its parameters. -/
  | call (function : Option Function) (params : List TokenTree) (closed : Bool)

namespace TokenTree

/-- The token of a function, if there is one. -/
def opener (f : Option Function) : List Value :=
  (f.map Value.function).toList

/-- The token that closes a call, if it is closed. -/
def closer (f : Option Function) (closed : Bool) : List Value :=
  if closed then opener f else []

mutual

/-- The tokens that a tree is read from. -/
def source : TokenTree → List Value
  | token value => [value]
  | call f params closed => opener f ++ (sources params ++ closer f closed)

/-- The tokens that trees are read from. -/
def sources : List TokenTree → List Value
  | [] => []
  | t :: rest => t.source ++ sources rest

end

mutual

/-- The tokens of a tree without the closers. -/
def kept : TokenTree → List Value
  | token value => [value]
  | call f params _ => opener f ++ keptAll params

/-- The tokens of trees without the closers. -/
def keptAll : List TokenTree → List Value
  | [] => []
  | t :: rest => t.kept ++ keptAll rest

end

mutual

/-- The expression of a tree. -/
def value : TokenTree → Value
  | token value => value
  | call f params _ => .call f (values params)

/-- The expressions of trees. -/
def values : List TokenTree → List Value
  | [] => []
  | t :: rest => t.value :: values rest

end

mutual

/-- Whether a tree keeps the law of arities and closers in front of further tokens. Only a call that
takes any number of parameters and is no bloc is closed. A call with an arity has at most so many
parameters, and fewer only when no further tokens are there. -/
def Lawful (after : List Value) : TokenTree → Prop
  | token value => ∀ f params, value ≠ .call f params
  | call f params closed =>
    (closed = true → ∃ g, f = some g ∧ g.isVariadic = true ∧ g.isBloc = false) ∧
      (∀ g arity, f = some g → g.arity = some arity →
        params.length ≤ arity ∧ (params.length < arity → after = [])) ∧
      AllLawful (closer f closed ++ after) params

/-- Whether trees one after the other keep the law in front of further tokens. -/
def AllLawful (after : List Value) : List TokenTree → Prop
  | [] => True
  | t :: rest => t.Lawful (sources rest ++ after) ∧ AllLawful after rest

end

/-- The compiled line of trees: a single one itself, several as the parameters of a call without a
function. -/
def line (trees : List TokenTree) : Value :=
  match trees with
  | [t] => t.value
  | several => .call none (values several)

theorem sources_eq_flatMap (trees : List TokenTree) : sources trees = trees.flatMap source := by
  induction trees with
  | nil => rfl
  | cons t rest ih => simp only [sources, ih, List.flatMap_cons]

theorem keptAll_eq_flatMap (trees : List TokenTree) : keptAll trees = trees.flatMap kept := by
  induction trees with
  | nil => rfl
  | cons t rest ih => simp only [keptAll, ih, List.flatMap_cons]

/-! ### Pre-order -/

mutual

/-- The expression of a tree in pre-order is its tokens without the closers. -/
theorem preorder_value {after : List Value} :
    ∀ t : TokenTree, t.Lawful after → t.value.preorder = t.kept
  | token _, hlawful => Value.preorder_of_not_call hlawful
  | call f params closed, hlawful => by
    rw [value, Value.preorder, preorderAll_values params hlawful.2.2]
    rfl

theorem preorderAll_values {after : List Value} :
    ∀ trees : List TokenTree, AllLawful after trees →
      Value.preorderAll (values trees) = keptAll trees
  | [], _ => rfl
  | t :: rest, hlawful => by
    rw [values, Value.preorderAll, preorder_value t hlawful.1, preorderAll_values rest hlawful.2]
    rfl

end

theorem preorder_line {after : List Value} {trees : List TokenTree}
    (hlawful : AllLawful after trees) : (line trees).preorder = keptAll trees := by
  match trees with
  | [] => rfl
  | [t] =>
    rw [line, preorder_value t hlawful.1, keptAll, keptAll, List.append_nil]
  | first :: second :: rest =>
    show Value.preorderAll (values (first :: second :: rest)) = _
    exact preorderAll_values _ hlawful

/-! ### Reading -/

open Call

/-- Whether no token is an expression. -/
def NoCalls (tokens : List Value) : Prop :=
  ∀ token ∈ tokens, ∀ f params, token ≠ .call f params

/-- How a call of `f` that has taken a number of parameters reads on: the trees of its further
parameters, and whether it is closed. -/
structure Reads (f : Option Function) (taken : Nat) (tokens : List Value) (t : Taken)
    (params : List TokenTree) (closed : Bool) : Prop where
  /-- The parameters are the expressions of the trees. -/
  params_eq : t.params = values params
  /-- The tokens are those of the trees, the closer and what is left. -/
  tokens_eq : tokens = sources params ++ (closer f closed ++ t.rest)
  /-- Only calls of a function that takes any number of parameters, and is no bloc, are closed. -/
  closed_by : closed = true → ∃ g, f = some g ∧ g.isVariadic = true ∧ g.isBloc = false
  /-- The call stays within its arity, and stops below it only at the end of the tokens. -/
  room : ∀ g arity, f = some g → g.arity = some arity → taken ≤ arity →
    taken + params.length ≤ arity ∧ (taken + params.length < arity → t.rest = [])
  /-- The trees keep the law in front of what comes behind them. -/
  lawful : AllLawful (closer f closed ++ t.rest) params

variable {f : Option Function} {taken : Nat}

theorem reads_nil : Reads f taken [] ⟨[], []⟩ [] false where
  params_eq := rfl
  tokens_eq := rfl
  closed_by h := absurd h Bool.false_ne_true
  room _ _ _ _ htaken := ⟨htaken, fun _ ↦ rfl⟩
  lawful := trivial

theorem reads_full (hfull : isFull f taken = true) (tokens : List Value) :
    Reads f taken tokens ⟨[], tokens⟩ [] false where
  params_eq := rfl
  tokens_eq := rfl
  closed_by h := absurd h Bool.false_ne_true
  room := by
    intro g arity hf harity htaken
    rw [hf, isFull, harity] at hfull
    have hreached : arity ≤ taken := of_decide_eq_true hfull
    exact ⟨htaken, fun hless ↦ by rw [List.length_nil] at hless; omega⟩
  lawful := trivial

theorem reads_closer (hbloc : isBlocHeader f = false) {g : Function} (hcloses : closes f g = true)
    (rest : List Value) : Reads f taken (.function g :: rest) ⟨[], rest⟩ [] true := by
  rw [closes, Bool.and_eq_true, beq_iff_eq] at hcloses
  obtain ⟨rfl, hvariadic⟩ := hcloses
  refine ⟨rfl, rfl, fun _ ↦ ⟨g, rfl, hvariadic, hbloc⟩, ?_, trivial⟩
  intro g' arity hg harity _
  cases hg
  rw [Function.isVariadic, harity] at hvariadic
  exact absurd hvariadic Bool.false_ne_true

/-- A call reads on behind a parameter. -/
theorem Reads.cons {tokens rest : List Value} {t : Taken} {params : List TokenTree} {closed : Bool}
    (hreads : Reads f (taken + 1) rest t params closed) (hfull : isFull f taken = false)
    (first : TokenTree) (hfirst : first.Lawful rest) (htokens : tokens = first.source ++ rest) :
    Reads f taken tokens ⟨first.value :: t.params, t.rest⟩ (first :: params) closed where
  params_eq := by rw [hreads.params_eq, values]
  tokens_eq := by rw [htokens, hreads.tokens_eq, sources, List.append_assoc]
  closed_by := hreads.closed_by
  room := by
    intro g arity hf harity htaken
    rw [hf, isFull, harity] at hfull
    have hleft : ¬ arity ≤ taken := of_decide_eq_false hfull
    have hroom := hreads.room g arity hf harity (by omega)
    rw [List.length_cons]
    exact ⟨by omega, fun hless ↦ hroom.2 (by omega)⟩
  lawful := ⟨by rw [← hreads.tokens_eq]; exact hfirst, hreads.lawful⟩

/-- The call of a function that has read its parameters keeps the law. -/
theorem Reads.lawful_call {tokens : List Value} {t : Taken} {params : List TokenTree}
    {closed : Bool} (hreads : Reads f 0 tokens t params closed) :
    (call f params closed).Lawful t.rest := by
  refine ⟨hreads.closed_by, ?_, hreads.lawful⟩
  intro g arity hf harity
  have hroom := hreads.room g arity hf harity (Nat.zero_le arity)
  rw [Nat.zero_add] at hroom
  exact hroom

theorem NoCalls.of_append {first second : List Value} (h : NoCalls (first ++ second)) :
    NoCalls second :=
  fun token htoken ↦ h token (List.mem_append_right first htoken)

/-- Parameters are always read along trees. -/
theorem exists_reads (f : Option Function) (taken : Nat) (tokens : List Value)
    (htokens : NoCalls tokens) :
    ∃ params closed, Reads f taken tokens (takeParams f taken tokens).val params closed := by
  induction f, taken, tokens using takeParams.induct with
  | case1 f taken => exact ⟨[], false, takeParams_nil ▸ reads_nil⟩
  | case2 f taken token rest hfull =>
    exact ⟨[], false, takeParams_full hfull _ ▸ reads_full hfull _⟩
  | case3 f taken token rest hfull hbloc _ _ _ ih =>
    have hfull := Bool.eq_false_iff.mpr hfull
    obtain ⟨params, closed, hreads⟩ := ih fun t ht ↦ htokens t (List.mem_cons_of_mem _ ht)
    rw [takeParams_header hfull hbloc]
    exact ⟨.token token :: params, closed,
      hreads.cons hfull (.token token) (htokens token List.mem_cons_self) rfl⟩
  | case4 f taken rest hfull hbloc g hcloses =>
    have hfull := Bool.eq_false_iff.mpr hfull
    have hbloc := Bool.eq_false_iff.mpr hbloc
    rw [takeParams_closer hfull hbloc hcloses]
    exact ⟨[], true, reads_closer hbloc hcloses rest⟩
  | case5 f taken rest hfull hbloc g hcloses inner _ hinner _ _ _ ihinner ihmore =>
    have hfull := Bool.eq_false_iff.mpr hfull
    have hbloc := Bool.eq_false_iff.mpr hbloc
    have hcloses := Bool.eq_false_iff.mpr hcloses
    have hrest : NoCalls rest := fun t ht ↦ htokens t (List.mem_cons_of_mem _ ht)
    obtain ⟨inside, ended, hinside⟩ := ihinner hrest
    rw [hinner] at hinside
    have hleft : NoCalls inner.rest := by
      have h := hinside.tokens_eq ▸ hrest
      exact h.of_append.of_append
    obtain ⟨params, closed, hreads⟩ := ihmore hleft
    rw [takeParams_call hfull hbloc hcloses, hinner, hinside.params_eq]
    refine ⟨call (some g) inside ended :: params, closed,
      hreads.cons hfull (call (some g) inside ended) hinside.lawful_call ?_⟩
    have hsource := congrArg (Value.function g :: ·) hinside.tokens_eq
    simpa only [source, opener, Option.map_some, Option.toList_some, List.cons_append,
      List.nil_append, List.append_assoc] using hsource
  | case6 f taken rest hfull hbloc token htoken _ _ _ ih =>
    have hfull := Bool.eq_false_iff.mpr hfull
    have hbloc := Bool.eq_false_iff.mpr hbloc
    obtain ⟨params, closed, hreads⟩ := ih fun t ht ↦ htokens t (List.mem_cons_of_mem _ ht)
    rw [takeParams_value hfull hbloc htoken]
    exact ⟨.token token :: params, closed,
      hreads.cons hfull (.token token) (htokens token List.mem_cons_self) rfl⟩

/-! ### Lines -/

/-- A call reads its function, its parameters and its closer off the tokens. -/
theorem Reads.source_call {tokens : List Value} {t : Taken} {params : List TokenTree}
    {closed : Bool} (hreads : Reads f taken tokens t params closed) :
    (call f params closed).source ++ t.rest = opener f ++ tokens := by
  rw [source, hreads.tokens_eq]
  simp only [List.append_assoc]

/-- A line of tokens is always read along trees. -/
theorem exists_calls (tokens : List Value) (htokens : NoCalls tokens) :
    ∃ trees, calls tokens = values trees ∧ sources trees = tokens ∧ AllLawful [] trees := by
  induction tokens using calls.induct with
  | case1 => exact ⟨[], calls_nil, rfl, trivial⟩
  | case2 g rest t _ ht ih =>
    have hrest : NoCalls rest := fun token h ↦ htokens token (List.mem_cons_of_mem _ h)
    obtain ⟨params, closed, hreads⟩ := exists_reads (some g) 0 rest hrest
    rw [ht] at hreads
    have hleft : NoCalls t.rest := (hreads.tokens_eq ▸ hrest).of_append.of_append
    obtain ⟨trees, hcalls, hsources, hlawful⟩ := ih hleft
    refine ⟨call (some g) params closed :: trees, ?_, ?_, ?_, hlawful⟩
    · rw [calls_function, ht, hreads.params_eq, hcalls]
      rfl
    · rw [sources, hsources, hreads.source_call]
      rfl
    · rw [hsources, List.append_nil]
      exact hreads.lawful_call
  | case3 token rest htoken t _ ht ih =>
    have hrest : NoCalls rest := fun token h ↦ htokens token (List.mem_cons_of_mem _ h)
    obtain ⟨params, closed, hreads⟩ := exists_reads none 1 rest hrest
    rw [ht] at hreads
    have hleft : NoCalls t.rest := (hreads.tokens_eq ▸ hrest).of_append.of_append
    obtain ⟨trees, hcalls, hsources, hlawful⟩ := ih hleft
    have hall : Reads none 0 (token :: rest) ⟨token :: t.params, t.rest⟩
        (.token token :: params) closed :=
      hreads.cons rfl (.token token) (htokens token List.mem_cons_self) rfl
    refine ⟨call none (.token token :: params) closed :: trees, ?_, ?_, ?_, hlawful⟩
    · rw [calls_value htoken, ht, hreads.params_eq, hcalls]
      rfl
    · rw [sources, hsources, hall.source_call]
      rfl
    · rw [hsources, List.append_nil]
      exact hall.lawful_call

theorem line_eq_ofTokens {tokens : List Value} {trees : List TokenTree}
    (hcalls : calls tokens = values trees) : ofTokens tokens = line trees := by
  rw [ofTokens, hcalls]
  match trees with
  | [] => rfl
  | [t] => rfl
  | first :: second :: rest => rfl

/-- Compiling a line of tokens keeps all of them but closers, in order. The line is read along trees
that keep the law of arities and closers up to the end of the tokens: written out they are the
tokens, and without their closers the compiled line in pre-order. -/
theorem ofTokens_source (tokens : List Value) (htokens : NoCalls tokens) :
    ∃ trees, ofTokens tokens = line trees ∧ trees.flatMap source = tokens ∧
      trees.flatMap kept = (ofTokens tokens).preorder ∧ AllLawful [] trees := by
  obtain ⟨trees, hcalls, hsources, hlawful⟩ := exists_calls tokens htokens
  have hline := line_eq_ofTokens hcalls
  refine ⟨trees, hline, ?_, ?_, hlawful⟩
  · rw [← sources_eq_flatMap, hsources]
  · rw [hline, preorder_line hlawful, keptAll_eq_flatMap]

/-- A closed sum, a bloc header that keeps a function as it is, and a comparison that the end of the
line cuts off. -/
theorem ofTokens_source_cutOff :
    let sum : Function := ⟨"add", .command, none, .builtin .add⟩
    let less : Function := ⟨"less", .relation, some 2, .builtin .less⟩
    let each : Function := ⟨"each", .bloc, some 2, .builtin .each⟩
    let tokens : List Value :=
      [.function sum, .int 1, .function sum, .function each, .function sum, .null, .function less]
    NoCalls tokens ∧ ∃ trees, ofTokens tokens = line trees ∧ trees.flatMap source = tokens ∧
      trees.flatMap kept = (ofTokens tokens).preorder ∧ AllLawful [] trees := by
  intro sum less each tokens
  have htokens : NoCalls tokens := by
    intro token htoken f params
    simp only [tokens, List.mem_cons, List.not_mem_nil, or_false] at htoken
    rcases htoken with rfl | rfl | rfl | rfl | rfl | rfl | rfl <;> simp
  exact ⟨htokens, ofTokens_source tokens htokens⟩

end TokenTree

end ResourceScript

import Mathlib.Tactic.SplitIfs
import ResourceScript.Proofs.Language.BlockProgram
/-!
# Values of source text

Source text compiles to calls, values without parts and resources that are written in it
(`Value.IsSource`): nothing in a compiled program refers to a store. Every part of the compiler
keeps to such values.
-/

set_option autoImplicit false

namespace ResourceScript

/-- Whether a value can come of source text: a value without parts, a resource of source text, or a
call of such values. -/
inductive Value.IsSource : Value → Prop
  /-- A value without parts. -/
  | atom (a : Atom) : IsSource (.atom a)
  /-- A resource of source text. -/
  | written (n : Nat) (text uri : String) : IsSource (.resource (.written n text uri))
  /-- A call. -/
  | call (f : Option Function) {params : List Value} (hparams : ∀ p ∈ params, IsSource p) :
    IsSource (.call f params)

open Value (IsSource)

namespace Call

/-- What a call takes, and what it leaves, comes of source text. -/
theorem isSource_takeParams (f : Option Function) (taken : Nat) (tokens : List Value)
    (htokens : ∀ t ∈ tokens, IsSource t) :
    (∀ p ∈ (takeParams f taken tokens).val.params, IsSource p) ∧
      ∀ t ∈ (takeParams f taken tokens).val.rest, IsSource t := by
  induction f, taken, tokens using takeParams.induct with
  | case1 f taken =>
    rw [takeParams_nil]
    exact ⟨htokens, htokens⟩
  | case2 f taken token rest hfull =>
    rw [takeParams_full hfull]
    exact ⟨List.forall_mem_nil _, htokens⟩
  | case3 f taken token rest hfull hbloc _ _ _ ih =>
    obtain ⟨htoken, hrest⟩ := List.forall_mem_cons.1 htokens
    obtain ⟨hparams, hleft⟩ := ih hrest
    rw [takeParams_header (Bool.eq_false_iff.2 hfull) hbloc]
    exact ⟨List.forall_mem_cons.2 ⟨htoken, hparams⟩, hleft⟩
  | case4 f taken rest hfull hbloc g hcloses =>
    rw [takeParams_closer (Bool.eq_false_iff.2 hfull) (Bool.eq_false_iff.2 hbloc) hcloses]
    exact ⟨List.forall_mem_nil _, (List.forall_mem_cons.1 htokens).2⟩
  | case5 f taken rest hfull hbloc g hcloses inner _ hinner _ _ _ ihinner ihmore =>
    obtain ⟨hinside, hleft⟩ := ihinner (List.forall_mem_cons.1 htokens).2
    rw [hinner] at hinside hleft
    obtain ⟨hparams, hlast⟩ := ihmore hleft
    rw [takeParams_call (Bool.eq_false_iff.2 hfull) (Bool.eq_false_iff.2 hbloc)
      (Bool.eq_false_iff.2 hcloses), hinner]
    exact ⟨List.forall_mem_cons.2 ⟨.call _ hinside, hparams⟩, hlast⟩
  | case6 f taken rest hfull hbloc token htoken _ _ _ ih =>
    obtain ⟨htaken, hrest⟩ := List.forall_mem_cons.1 htokens
    obtain ⟨hparams, hleft⟩ := ih hrest
    rw [takeParams_value (Bool.eq_false_iff.2 hfull) (Bool.eq_false_iff.2 hbloc) htoken]
    exact ⟨List.forall_mem_cons.2 ⟨htaken, hparams⟩, hleft⟩

theorem isSource_calls (tokens : List Value) (htokens : ∀ t ∈ tokens, IsSource t) :
    ∀ c ∈ calls tokens, IsSource c := by
  induction tokens using calls.induct with
  | case1 =>
    rw [calls_nil]
    exact htokens
  | case2 g rest t _ ht ih =>
    obtain ⟨hparams, hleft⟩ :=
      isSource_takeParams (some g) 0 rest (List.forall_mem_cons.1 htokens).2
    rw [ht] at hparams hleft
    rw [calls_function, ht]
    exact List.forall_mem_cons.2 ⟨.call _ hparams, ih hleft⟩
  | case3 token rest htoken t _ ht ih =>
    obtain ⟨hfirst, hrest⟩ := List.forall_mem_cons.1 htokens
    obtain ⟨hparams, hleft⟩ := isSource_takeParams none 1 rest hrest
    rw [ht] at hparams hleft
    rw [calls_value htoken, ht]
    exact List.forall_mem_cons.2
      ⟨.call _ (List.forall_mem_cons.2 ⟨hfirst, hparams⟩), ih hleft⟩

theorem isSource_ofTokens {tokens : List Value} (htokens : ∀ t ∈ tokens, IsSource t) :
    IsSource (ofTokens tokens) := by
  have hcalls := isSource_calls tokens htokens
  unfold ofTokens
  split
  · rename_i call hcall
    exact hcalls call (hcall ▸ List.mem_singleton_self call)
  · exact .call none hcalls

end Call

/-! ### Outlines -/

namespace Outline

/-- Whether the calls and blocs of an outline come of source text. -/
structure IsSource (o : Outline) : Prop where
  calls : ∀ c ∈ o.calls, c.IsSource
  blocs : ∀ bloc ∈ o.blocs, ∀ p ∈ bloc.params, p.IsSource

variable {o : Outline}

theorem isSource_empty : empty.IsSource := ⟨List.forall_mem_nil _, List.forall_mem_nil _⟩

theorem isSource_add (ho : o.IsSource) {call : Value} (hcall : call.IsSource) :
    (o.add call).IsSource := by
  rcases o with ⟨blocs, calls⟩
  cases blocs with
  | nil =>
    refine ⟨fun c hc ↦ ?_, ho.blocs⟩
    rcases List.mem_append.1 hc with hc | hc
    · exact ho.calls c hc
    · exact List.mem_singleton.1 hc ▸ hcall
  | cons bloc outer =>
    obtain ⟨hbloc, houter⟩ := List.forall_mem_cons.1 ho.blocs
    refine ⟨ho.calls, List.forall_mem_cons.2 ⟨fun p hp ↦ ?_, houter⟩⟩
    rcases List.mem_append.1 hp with hp | hp
    · exact hbloc p hp
    · exact List.mem_singleton.1 hp ▸ hcall

theorem isSource_openBloc (ho : o.IsSource) (f : Function) {header : List Value}
    (hheader : ∀ p ∈ header, p.IsSource) : (o.openBloc f header).IsSource :=
  ⟨ho.calls, List.forall_mem_cons.2 ⟨hheader, ho.blocs⟩⟩

theorem isSource_closeBlocs (ho : o.IsSource) (count : Nat) : (o.closeBlocs count).IsSource := by
  induction count generalizing o with
  | zero => exact ho
  | succ count ih =>
    refine ih ?_
    rcases o with ⟨blocs, calls⟩
    cases blocs with
    | nil => exact ho
    | cons bloc outer =>
      obtain ⟨hbloc, houter⟩ := List.forall_mem_cons.1 ho.blocs
      have hrest : (⟨outer, calls⟩ : Outline).IsSource := ⟨ho.calls, houter⟩
      exact isSource_add hrest (.call _ hbloc)

theorem isSource_program (ho : o.IsSource) : o.program.IsSource :=
  .call _ (isSource_closeBlocs ho _).calls

end Outline

/-! ### Compilers -/

namespace Compiler

variable {s : Surroundings}

theorem Yields.isSource_evalWord {word : String} {token : Value}
    (h : (evalWord word).Yields s token) : token.IsSource := by
  unfold evalWord at h
  split at h
  · rename_i value hkeyword
    obtain rfl := (yields_pure _ _).1 h
    unfold Token.keyword? at hkeyword
    split_ifs at hkeyword <;> cases hkeyword <;> exact .atom _
  · obtain ⟨f?, -, h⟩ := (yields_bind _ _ _).1 h
    rcases f? with _ | f
    · obtain ⟨number?, -, h⟩ := (yields_bind _ _ _).1 h
      rcases number? with _ | number
      · obtain ⟨moment?, -, h⟩ := (yields_bind _ _ _).1 h
        rcases moment? with _ | m
        · obtain ⟨r?, hr, h⟩ := (yields_bind _ _ _).1 h
          rcases r? with _ | r
          · obtain rfl := (yields_pure _ _).1 h
            exact .atom _
          · obtain rfl := (yields_pure _ _).1 h
            unfold resourceOfWord? at hr
            simp only [yields_bind, yields_pure] at hr
            obtain ⟨-, -, uri?, -, huri⟩ := hr
            obtain ⟨uri, -, rfl⟩ := Option.map_eq_some_iff.1 huri
            exact .written 0 word uri
        · obtain rfl := (yields_pure _ _).1 h
          exact .atom _
      · obtain rfl := (yields_pure _ _).1 h
        cases number <;> exact .atom _
    · obtain rfl := (yields_pure _ _).1 h
      exact .atom _

theorem Yields.isSource_evalLexeme {line : String} {lexeme : Lexeme} {token : Value}
    (h : (evalLexeme evalWord line lexeme).Yields s token) : token.IsSource := by
  cases lexeme with
  | word text => exact h.isSource_evalWord
  | literal body =>
    simp only [evalLexeme] at h
    split at h
    · obtain rfl := (yields_pure _ _).1 h
      exact .atom _
    · exact absurd h (yields_fail _ _)
  | unclosed => exact absurd h (yields_fail _ _)

theorem Yields.isSource_compileLine {line : String} {call : Value}
    (h : (compileLine line).Yields s call) : call.IsSource := by
  unfold compileLine at h
  simp only [yields_bind, yields_pure] at h
  obtain ⟨tokens, htokens, rfl⟩ := h
  exact Call.isSource_ofTokens
    (Yields.of_mem_mapM (fun _ _ hlexeme ↦ hlexeme.isSource_evalLexeme) htokens)

theorem Yields.isSource_addLine {number : Nat} {text : String} {call : Value} {o o' : Outline}
    (hcall : call.IsSource) (ho : o.IsSource) (h : (addLine number text call o).Yields s o') :
    o'.IsSource := by
  rcases h.of_addLine with
    ⟨_, _, _, inside, rfl, -, -, -, -, rfl⟩ | ⟨f, _, rfl, -, -, rfl⟩ | ⟨-, rfl⟩
  · exact Outline.isSource_closeBlocs ho (inside + 1)
  · cases hcall with
    | call _ hparams => exact Outline.isSource_openBloc ho f hparams
  · exact Outline.isSource_add ho hcall

theorem Yields.isSource_compileFrom {number : Nat} {lines : List String} {o o' : Outline}
    (ho : o.IsSource) (h : (compileFrom number o lines).Yields s o') : o'.IsSource := by
  induction lines generalizing number o with
  | nil =>
    obtain rfl := (yields_pure _ _).1 h
    exact ho
  | cons line rest ih =>
    unfold compileFrom at h
    dsimp only at h
    split at h
    · exact ih ho h
    · simp only [yields_bind] at h
      obtain ⟨call, hcall, next, hnext, hrest⟩ := h
      exact ih (hnext.isSource_addLine hcall.isSource_compileLine ho) hrest

/-- Source text compiles to a value that refers to no store. -/
theorem Yields.isSource_compile {source : String} {program : Value}
    (h : (compile source).Yields s program) : program.IsSource := by
  unfold compile at h
  split at h
  · exact h.isSource_compileLine
  · exact h.isSource_compileLine
  · unfold compileLines at h
    simp only [yields_bind, yields_pure] at h
    obtain ⟨o, ho, rfl⟩ := h
    exact Outline.isSource_program (ho.isSource_compileFrom Outline.isSource_empty)

end Compiler

end ResourceScript

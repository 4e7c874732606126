import ResourceScript.Proofs.Session.Loading
/-!
# Source text in parts

A session that runs source text does what it does when it runs the source text in two parts, one
after the other. It may be cut at the end of any line that is not inside of a bloc
(`Script.runSource_append`). The whole is compiled before any of it is run, the second part only
after the first has run: but running does not change what compiling sees, and compiling leaves
nothing that running sees.

Two things are not the same. Source text of several lines is run under `eval`, one level of depth
further down than a single line, so the whole may be exhausted where the parts are not; one more
level is enough then. And the reports on blocs, if they are asked for, are made when source text is
compiled: those of the second part stand behind what the first part reports while it runs, those of
the whole before it. Both happen (`Script.runSource_append_limits`).
-/

set_option autoImplicit false

namespace ResourceScript

open Compiler (sourceLines codeLines)

/-- Whether source text may be cut behind a first part: this closes all blocs that it opens, and the
second part compiles on its own and has a line of code. -/
structure IsCut (s : Surroundings) (first second : String) : Prop where
  /-- The first part compiles, and no bloc is open behind it. -/
  closed : ∃ o, (Compiler.compileFrom 1 .empty (sourceLines first)).Yields s o ∧ o.blocs = []
  /-- The second part compiles. -/
  compiles : ∃ program, (Compiler.compileLines (sourceLines second)).Yields s program
  /-- The second part has a line of code. -/
  code : codeLines (sourceLines second) ≠ []

namespace Script

variable {w : World} {first second : String}

/-- Runs source text, and then more source text. -/
def runInTurn (scope : Nat) (first second : String) : Script Value := do
  let _ ← runSource scope (.text first)
  runSource scope (.text second)

/-- Source text that is run in turn is run as if all its programs were there already. -/
theorem endsAlike_runInTurn {program more : Value} {t u : Traces}
    (hfirst : Compiler.compile first w.surroundings = (.ok program, t))
    (hsecond : Compiler.compile second w.surroundings = (.ok more, u)) (scope : Nat) :
    EndsAlike
      (within scope ((execute (program.load nextWritten w.written).1).runAt Job.maxDepth >>= fun _ ↦
        (execute (more.load nextWritten (program.load nextWritten w.written).2).1).runAt
          Job.maxDepth) w)
      (runInTurn scope first second w) := by
  have hkeeps : Keeps (fun v ↦ v.current = some scope)
      ((execute (program.load nextWritten w.written).1).runAt Job.maxDepth) := by
    intro v hv
    exact (Task.keeps_runAt World.isSettled_answer Job.maxDepth _ v ⟨rfl, rfl, hv⟩).2.2
  obtain ⟨hsurroundings, hwritten⟩ := settled_runSourceAt hfirst Job.maxDepth scope
  rw [within_bind hkeeps]
  refine (endsAlike_runSourceAt hfirst Job.maxDepth scope).bind fun _ v v' hrun halike ↦ ?_
  rw [hrun] at hsurroundings hwritten
  rw [← hsurroundings] at hsecond
  rw [← hwritten]
  exact (respects_within (Task.respects_runAt Job.maxDepth _) scope v v' halike).trans
    (endsAlike_runSourceAt hsecond Job.maxDepth scope)

/-- Running source text that is cut between blocs is running its parts one after the other, unless
the whole is exhausted. If the parts are not exhausted, the whole does what they do with one more
level of depth. -/
theorem runSource_append (hcut : IsCut w.surroundings first second) (scope : Nat) :
    let whole := fun depth ↦ runSourceAt depth scope (.text (first ++ "\n" ++ second)) w
    let parts := runInTurn scope first second w
    ((whole Job.maxDepth).1 ≠ .error .exhausted → EndsAlike (whole Job.maxDepth) parts) ∧
      (parts.1 ≠ .error .exhausted → EndsAlike parts (whole (Job.maxDepth + 1))) := by
  obtain ⟨⟨o, hfirst, hclosed⟩, ⟨program, hsecond⟩, hcode⟩ := hcut
  obtain ⟨firstProgram, secondProgram, joint, trees, more, t, u, hfirstProgram, hfirstTrees,
    hsecondProgram, hsecondTrees, hmore, hwhole, hjoint⟩ :=
    Compiler.compilesTo_append hfirst hclosed hsecond hcode
  have hfirstLoad := hfirstTrees.load w.written
  have hsecondLoad := hsecondTrees.load (firstProgram.load nextWritten w.written).2
  have hjointLoad := hjoint.load hfirstTrees w.written
  have hne := Value.loadAll_ne_nil hmore (firstProgram.load nextWritten w.written).2
  have hparts := endsAlike_runInTurn hfirstProgram hsecondProgram scope
  intro whole parts
  exact ⟨(endsAlike_runSourceAt hwhole Job.maxDepth scope).of_extends hparts
      ((hjointLoad.extends_parts hfirstLoad hsecondLoad hne 243).within scope),
    hparts.of_extends (endsAlike_runSourceAt hwhole (Job.maxDepth + 1) scope)
      ((hjointLoad.parts_extend hfirstLoad hsecondLoad hne 243).within scope)⟩

/-! ### The line `print true`, twice -/

/-- The call of the line `print true`. -/
def printTrue : Value :=
  .call (some ⟨"print", .command, none, .builtin .print⟩) [.bool true]

theorem compileLine_printTrue :
    (Compiler.compileLine "print true").Yields builtinWorld.surroundings printTrue := by
  have hprint : builtinWorld.surroundings.find "print" =
      some ⟨"print", .command, none, .builtin .print⟩ := rfl
  have htokens : (Compiler.tokenize "print true").Yields builtinWorld.surroundings
      [.function ⟨"print", .command, none, .builtin .print⟩, .bool true] := by
    refine Compiler.tokenize_words [("print", .function _), ("true", .bool true)]
      (by simp [Lexeme.scan, Text.isBlank]) ?_
    rw [List.forall_mem_cons, List.forall_mem_singleton]
    exact ⟨Compiler.evalWord_name (by simp [Token.keyword?]) hprint, Compiler.evalWord_keyword rfl⟩
  rw [Compiler.compileLine, Compiler.yields_bind]
  refine ⟨_, htokens, ?_⟩
  rw [Compiler.yields_pure, Call.ofTokens, Call.calls_function,
    Call.takeParams_value rfl rfl (by simp), Call.takeParams_nil, Call.calls_nil]
  rfl

theorem addCode_printTrue (calls : List Value) :
    (Compiler.addCode ⟨[], calls⟩ "print true").Yields builtinWorld.surroundings
      ⟨[], calls ++ [printTrue]⟩ := by
  rw [Compiler.addCode, Compiler.yields_bind]
  exact ⟨_, compileLine_printTrue, rfl⟩

theorem compile_printTrue_twice :
    (Compiler.compile ("print true" ++ "\n" ++ "print true")).Yields builtinWorld.surroundings
      (.call (some Builtin.evalFunction) [printTrue, printTrue]) := by
  refine (Compiler.yields_compileLines_iff ["print true", "print true"]).2 ⟨⟨[], _⟩, ?_, rfl⟩
  show (["print true", "print true"].foldlM Compiler.addCode _).Yields _ _
  simp only [List.foldlM_cons, List.foldlM_nil, Compiler.yields_bind]
  exact ⟨_, addCode_printTrue [], _, addCode_printTrue _, rfl⟩

theorem isCut_printTrue : IsCut builtinWorld.surroundings "print true" "print true" := by
  have hcode : codeLines (sourceLines "print true") = ["print true"] := rfl
  have hfirst : (Compiler.compileFrom 1 .empty (sourceLines "print true")).Yields
      builtinWorld.surroundings ⟨[], [printTrue]⟩ := by
    rw [Compiler.yields_compileFrom_iff, hcode, List.foldlM_cons, Compiler.yields_bind]
    exact ⟨_, addCode_printTrue [], rfl⟩
  exact ⟨⟨_, hfirst, rfl⟩, ⟨_, (Compiler.yields_bind _ _ _).2 ⟨_, hfirst, rfl⟩⟩, by simp [hcode]⟩

theorem runSource_append_printTrue :
    let whole := runSource 0 (.text ("print true" ++ "\n" ++ "print true")) builtinWorld
    IsCut builtinWorld.surroundings "print true" "print true" ∧
      whole.1 = .ok (.text "true") ∧ whole.2.output = ["true\n", "true\n"] ∧
      EndsAlike whole (runInTurn 0 "print true" "print true" builtinWorld) := by
  intro whole
  have halike := endsAlike_runSourceAt (Prod.ext compile_printTrue_twice rfl) Job.maxDepth 0
  have hload : Value.load nextWritten (.call (some Builtin.evalFunction) [printTrue, printTrue])
      builtinWorld.written = (.call (some Builtin.evalFunction) [printTrue, printTrue], 0) := by
    simp only [printTrue, Value.load, Value.loadAll]
    rfl
  rw [hload] at halike
  have hresult : whole.1 = .ok (.text "true") := halike.result.trans (by decide +kernel)
  have houtput : whole.2.output = ["true\n", "true\n"] :=
    halike.world.output.trans (by decide +kernel)
  have hended : whole.1 ≠ .error .exhausted := by simp [hresult]
  exact ⟨isCut_printTrue, hresult, houtput, (runSource_append isCut_printTrue 0).1 hended⟩

/-! ### Where they differ -/

/-- The function `not`. -/
def notFunction : Function :=
  ⟨"not", .qualifier, some 1, .builtin .not⟩

/-- The text of `true` behind so many times `not`. -/
def notsText : Nat → List Char
  | 0 => ['t', 'r', 'u', 'e']
  | count + 1 => 'n' :: 'o' :: 't' :: ' ' :: notsText count

/-- The call of `true` behind so many times `not`. -/
def nots : Nat → Value
  | 0 => .bool true
  | count + 1 => .call (some notFunction) [nots count]

theorem scan_notsText (count : Nat) :
    Lexeme.scan (notsText count) =
      List.replicate count (.word ['n', 'o', 't']) ++ [.word ['t', 'r', 'u', 'e']] := by
  induction count with
  | zero => simp [notsText, Lexeme.scan, Text.isBlank]
  | succ count ih =>
    rw [List.replicate_succ, List.cons_append, ← ih]
    rw [notsText, Lexeme.scan]
    simp [Lexeme.scan, Text.isBlank]

theorem takeParams_nots (count : Nat) :
    (Call.takeParams (some notFunction) 0
      (List.replicate count (.function notFunction) ++ [.bool true])).val = ⟨[nots count], []⟩ := by
  induction count with
  | zero =>
    rw [List.replicate_zero, List.nil_append, Call.takeParams_value rfl rfl (by simp),
      Call.takeParams_nil]
    rfl
  | succ count ih =>
    rw [List.replicate_succ, List.cons_append, Call.takeParams_call rfl rfl rfl, ih,
      Call.takeParams_nil]
    rfl

/-- Running `not` is running its parameter one level deeper. -/
theorem runAt_not (value : Value) (depth : Nat) :
    (execute (.call (some notFunction) [value])).runAt (depth + 1) =
      (execute value).runAt depth >>= fun v ↦
        (view v >>= fun d ↦ ofExcept d.truth >>= fun b ↦ execute (.bool !b)).runAt depth := by
  have hcall : (Job.execute (.call (some notFunction) [value])).task =
      execute value >>= fun v ↦ view v >>= fun d ↦ ofExcept d.truth >>= fun b ↦
        execute (.bool !b) := by
    show (Library.truth .standard value >>= fun b ↦ pure (.bool !b)) >>= execute = _
    simp only [Library.truth, bind_assoc, pure_bind]
    rfl
  rw [runAt_execute, Job.run, hcall, Task.run_bind]
  rfl

/-- So many times `not` take so many levels of depth, and one more. -/
theorem runAt_nots (count depth : Nat) (w : World) :
    (count < depth → ∃ b, (execute (nots count)).runAt depth w = (.ok (.bool b), w)) ∧
      (depth ≤ count → (execute (nots count)).runAt depth w = (.error .exhausted, w)) := by
  have hplain (b : Bool) : (Value.bool b).IsPlain := trivial
  induction count generalizing depth with
  | zero =>
    constructor
    · intro hlt
      obtain ⟨depth, rfl⟩ := Nat.exists_eq_add_of_lt hlt
      rw [Nat.zero_add]
      exact ⟨true, runAt_execute_of_isPlain (hplain true) depth w⟩
    · intro hle
      rw [Nat.le_zero.1 hle]
      rfl
  | succ count ih =>
    cases depth with
    | zero => exact ⟨nofun, fun _ ↦ rfl⟩
    | succ depth =>
      rw [nots, runAt_not]
      refine ⟨fun hlt ↦ ?_, fun hle ↦ ?_⟩
      · obtain ⟨b, hinner⟩ := (ih depth).1 (Nat.lt_of_succ_lt_succ hlt)
        refine ⟨!b, (bind_of_ok hinner _).trans ?_⟩
        obtain ⟨depth, rfl⟩ := Nat.exists_eq_add_of_lt (Nat.lt_of_succ_lt_succ hlt)
        exact runAt_execute_of_isPlain (hplain !b) (count + depth) w
      · exact bind_of_error ((ih depth).2 (Nat.le_of_succ_le_succ hle)) _

theorem load_nots (count n : Nat) : (nots count).load nextWritten n = (nots count, n) := by
  induction count with
  | zero => rfl
  | succ count ih =>
    rw [nots, Value.load]
    show (Value.call _ (Value.loadAll nextWritten [nots count] n).1,
      (Value.loadAll nextWritten [nots count] n).2) = _
    rw [Value.loadAll_nextWritten_cons, ih, Value.loadAll]
    rfl

/-! #### Their text -/

theorem notsText_unbroken (count : Nat) : ∀ c ∈ notsText count, Text.isLineBreak c = false := by
  induction count with
  | zero =>
    simp only [notsText, List.forall_mem_cons]
    exact ⟨by decide, by decide, by decide, by decide, nofun⟩
  | succ count ih =>
    simp only [notsText, List.forall_mem_cons]
    exact ⟨by decide, by decide, by decide, by decide, ih⟩

theorem trim_notsText (count : Nat) : Text.trim (notsText count) = notsText count := by
  have hlast : (notsText count).getLast? = some 'e' := by
    induction count with
    | zero => rfl
    | succ count ih => simp [notsText, List.getLast?_cons, ih]
  refine Text.trim_eq_of_ends (fun c hc ↦ ?_) fun c hc ↦ ?_
  · cases count <;> cases hc <;> decide
  · obtain rfl := Option.some.inj (hlast.symm.trans hc)
    decide

theorem lines_notsText (count : Nat) : Text.lines (notsText count) = [notsText count] :=
  Text.lines_of_unbroken (notsText_unbroken count) (by cases count <;> simp [notsText])

theorem codeLines_notsText (count : Nat) :
    codeLines (sourceLines (String.ofList (notsText count))) = [String.ofList (notsText count)] := by
  have hcode : Compiler.isCode (notsText count) = true := by cases count <;> rfl
  simp [sourceLines, codeLines, lines_notsText, trim_notsText, hcode]

theorem tokenize_notsText (count : Nat) :
    (Compiler.tokenize (String.ofList (notsText count))).Yields builtinWorld.surroundings
      (List.replicate count (.function notFunction) ++ [.bool true]) := by
  have hwords : (List.replicate count ("not", Value.function notFunction) ++
      [("true", Value.bool true)]).map Prod.snd =
        List.replicate count (Value.function notFunction) ++ [Value.bool true] := by simp
  rw [← hwords]
  refine Compiler.tokenize_words _ (by simp [scan_notsText]) fun word hword ↦ ?_
  rcases List.mem_append.1 hword with hnot | htrue
  · rw [List.eq_of_mem_replicate hnot]
    exact Compiler.evalWord_name (by simp [Token.keyword?]) rfl
  · rw [List.mem_singleton.1 htrue]
    exact Compiler.evalWord_keyword rfl

theorem compileLine_notsText (count : Nat) :
    (Compiler.compileLine (String.ofList (notsText (count + 1)))).Yields builtinWorld.surroundings
      (nots (count + 1)) := by
  rw [Compiler.compileLine, Compiler.yields_bind]
  refine ⟨_, tokenize_notsText (count + 1), ?_⟩
  rw [Compiler.yields_pure, List.replicate_succ, List.cons_append, Call.ofTokens,
    Call.calls_function, takeParams_nots, Call.calls_nil]
  rfl

theorem compile_notsText (count : Nat) :
    (Compiler.compile (String.ofList (notsText (count + 1)))).Yields builtinWorld.surroundings
      (nots (count + 1)) := by
  unfold Compiler.compile
  rw [String.toList_ofList, trim_notsText, lines_notsText]
  exact compileLine_notsText count

theorem compileLine_true :
    (Compiler.compileLine "true").Yields builtinWorld.surroundings (.call none [.bool true]) := by
  rw [Compiler.compileLine, Compiler.yields_bind]
  refine ⟨_, tokenize_notsText 0, ?_⟩
  rw [Compiler.yields_pure, List.replicate_zero, List.nil_append, Call.ofTokens,
    Call.calls_value (by simp), Call.takeParams_nil, Call.calls_nil]

theorem isCut_notsText (count : Nat) :
    IsCut builtinWorld.surroundings (String.ofList (notsText (count + 1))) "true" := by
  have hcode : codeLines (sourceLines "true") = ["true"] := rfl
  have hfirst : (Compiler.addCode .empty (String.ofList (notsText (count + 1)))).Yields
      builtinWorld.surroundings ⟨[], [nots (count + 1)]⟩ := by
    rw [Compiler.addCode, Compiler.yields_bind]
    exact ⟨_, compileLine_notsText count, rfl⟩
  have hsecond : (Compiler.addCode .empty "true").Yields builtinWorld.surroundings
      ⟨[], [.call none [.bool true]]⟩ := by
    rw [Compiler.addCode, Compiler.yields_bind]
    exact ⟨_, compileLine_true, rfl⟩
  refine ⟨⟨⟨[], [nots (count + 1)]⟩, ?_, rfl⟩, ⟨_, (Compiler.yields_compileLines_iff _).2
    ⟨⟨[], [.call none [.bool true]]⟩, ?_, rfl⟩⟩, by simp [hcode]⟩
  · rw [Compiler.yields_compileFrom_iff, codeLines_notsText, List.foldlM_cons,
      Compiler.yields_bind]
    exact ⟨_, hfirst, rfl⟩
  · rw [hcode, List.foldlM_cons, Compiler.yields_bind]
    exact ⟨_, hsecond, rfl⟩

theorem trees_nots {count : Nat} {trees : List Value}
    (h : IsProgram (nots (count + 1)) trees) : trees = [nots (count + 1)] := by
  generalize hnots : nots (count + 1) = program at h
  cases h with
  | single => rfl
  | several => simp [nots, notFunction, Builtin.evalFunction] at hnots
  | nothing => cases hnots

theorem compile_true :
    (Compiler.compile "true").Yields builtinWorld.surroundings (.call none [.bool true]) :=
  compileLine_true

/-- As many times `not` as depth allows are run by themselves, but not in front of another line. -/
theorem runSource_notsText {count : Nat} (hcount : count + 2 = Job.maxDepth) :
    (runInTurn 0 (String.ofList (notsText (count + 1))) "true" builtinWorld).1 =
        .ok (.bool true) ∧
      (runSource 0 (.text (String.ofList (notsText (count + 1)) ++ "\n" ++ "true"))
        builtinWorld).1 = .error .exhausted := by
  obtain ⟨⟨o, hfirst, hclosed⟩, ⟨program, hsecond⟩, hcode⟩ := isCut_notsText count
  obtain ⟨firstProgram, secondProgram, joint, trees, more, t, u, hfirstProgram, hfirstTrees,
    hsecondProgram, hsecondTrees, hmore, hwhole, hjoint⟩ :=
    Compiler.compilesTo_append hfirst hclosed hsecond hcode
  obtain rfl : nots (count + 1) = firstProgram :=
    Except.ok.inj ((compile_notsText count).symm.trans (congrArg Prod.fst hfirstProgram))
  obtain rfl : .call none [.bool true] = secondProgram :=
    Except.ok.inj (compile_true.symm.trans (congrArg Prod.fst hsecondProgram))
  constructor
  · have hparts := (endsAlike_runInTurn hfirstProgram hsecondProgram 0).result
    rw [load_nots, ← hcount] at hparts
    have hload : (Value.call none [.bool true]).load nextWritten builtinWorld.written =
        (.call none [.bool true], builtinWorld.written) := by
      simp only [Value.load, Value.loadAll]
      rfl
    obtain ⟨b, hnots⟩ := (runAt_nots (count + 1) (count + 2)
      { builtinWorld with current := some 0 }).1 (Nat.lt_succ_self _)
    refine hparts.trans ?_
    rw [hload, within_of_eq (bind_of_ok hnots _)]
  · have hfirstLoad := hfirstTrees.load builtinWorld.written
    have hjointLoad := hjoint.load hfirstTrees builtinWorld.written
    rw [load_nots] at hfirstLoad hjointLoad
    refine (endsAlike_runSourceAt hwhole Job.maxDepth 0).result.trans ?_
    rw [← hcount]
    have hexhausted := (runAt_nots (count + 1) (count + 1)
      { builtinWorld with current := some 0 }).2 (Nat.le_refl _)
    rw [trees_nots hfirstLoad] at hjointLoad
    generalize (joint.load nextWritten builtinWorld.written).1 = joint' at *
    obtain htrees | hnothing := hjointLoad
    · have hwithin := within_of_eq (w := builtinWorld) (runAt_eval_of_stop htrees hexhausted)
      exact congrArg Prod.fst hwithin
    · cases hnothing

/-! #### Reports -/

/-- A world in which the working of blocs is reported. -/
def reportingWorld : World :=
  { builtinWorld with debug := true }

/-- The call of the line `shell true`. -/
def shellTrue : Value :=
  .call (some ⟨"shell", .command, none, .builtin .shell⟩) [.bool true]

/-- The loop that the lines `while false` and `end` make. -/
def whileFalse : Value :=
  .call (some ⟨"while", .bloc, none, .builtin .while⟩) [.bool false]

/-- What is reported when the loop is closed. -/
def closingReport : String :=
  "[DBG] CLOSE None depth 0 open ['while']\n"

theorem compileLine_of_tokens {s : Surroundings} {line : String} {f : Function}
    {params : List Value} {t : Traces}
    (htokens : Compiler.tokenize line s = (.ok (.function f :: params), t))
    (htaken : (Call.takeParams (some f) 0 params).val = ⟨params, []⟩) :
    Compiler.compileLine line s = (.ok (.call (some f) params), t) := by
  refine (Compiler.bind_of_ok htokens _).trans ?_
  rw [Call.ofTokens, Call.calls_function, htaken, Call.calls_nil]
  exact Prod.ext rfl (Traces.append_empty t)

theorem compileLine_shellTrue : Compiler.compileLine "shell true" reportingWorld.surroundings =
    (.ok shellTrue, ⟨["shell"], []⟩) := by
  refine compileLine_of_tokens ?_ ?_
  · rw [Compiler.tokenize, Compiler.tokenizeWith, show Lexeme.scan "shell true".toList =
      [.word "shell".toList, .word "true".toList] by simp [Lexeme.scan, Text.isBlank]]
    rfl
  · rw [Call.takeParams_value rfl rfl (by simp), Call.takeParams_nil]

theorem compileLine_whileFalse : Compiler.compileLine "while false" reportingWorld.surroundings =
    (.ok whileFalse, ⟨["while"], []⟩) := by
  refine compileLine_of_tokens ?_ ?_
  · rw [Compiler.tokenize, Compiler.tokenizeWith, show Lexeme.scan "while false".toList =
      [.word "while".toList, .word "false".toList] by simp [Lexeme.scan, Text.isBlank]]
    rfl
  · rw [Call.takeParams_header rfl rfl, Call.takeParams_nil]

theorem compileLine_end : Compiler.compileLine "end" reportingWorld.surroundings =
    (.ok (.call (some ⟨"end", .bloc, none, .builtin .endBloc⟩) []), ⟨["end"], []⟩) := by
  refine compileLine_of_tokens ?_ Call.takeParams_nil
  rw [Compiler.tokenize, Compiler.tokenizeWith, show Lexeme.scan "end".toList =
    [.word "end".toList] by simp [Lexeme.scan, Text.isBlank]]
  rfl

theorem code_shellTrue : ["shell true"].foldlM Compiler.addCode .empty
    reportingWorld.surroundings = (.ok ⟨[], [shellTrue]⟩, ⟨["shell"], []⟩) := by
  have hline : Compiler.addCode .empty "shell true" reportingWorld.surroundings =
      (.ok ⟨[], [shellTrue]⟩, ⟨["shell"], []⟩) :=
    Compiler.bind_eq_ok_iff.2 ⟨_, _, .empty, compileLine_shellTrue, rfl, rfl⟩
  exact Compiler.bind_eq_ok_iff.2 ⟨_, _, .empty, hline, rfl, rfl⟩

theorem code_whileFalse : ["while false", "end"].foldlM Compiler.addCode .empty
    reportingWorld.surroundings =
      (.ok ⟨[], [whileFalse]⟩, ⟨["while", "end"], [closingReport]⟩) := by
  have hheader : Compiler.addCode .empty "while false" reportingWorld.surroundings =
      (.ok ⟨[⟨⟨"while", .bloc, none, .builtin .while⟩, [.bool false]⟩], []⟩, ⟨["while"], []⟩) :=
    Compiler.bind_eq_ok_iff.2 ⟨_, _, .empty, compileLine_whileFalse, rfl, rfl⟩
  have hend : Compiler.addCode ⟨[⟨⟨"while", .bloc, none, .builtin .while⟩, [.bool false]⟩], []⟩
      "end" reportingWorld.surroundings =
        (.ok ⟨[], [whileFalse]⟩, ⟨["end"], [closingReport]⟩) :=
    Compiler.bind_eq_ok_iff.2 ⟨_, _, ⟨[], [closingReport]⟩, compileLine_end, rfl, rfl⟩
  refine Compiler.bind_eq_ok_iff.2 ⟨_, _, ⟨["end"], [closingReport]⟩, hheader, ?_, rfl⟩
  exact Compiler.bind_eq_ok_iff.2 ⟨_, _, .empty, hend, rfl, rfl⟩

theorem compile_shellTrue : Compiler.compile "shell true" reportingWorld.surroundings =
    (.ok shellTrue, ⟨["shell"], []⟩) :=
  compileLine_shellTrue

theorem compile_whileFalse : Compiler.compile "while false\nend" reportingWorld.surroundings =
    (.ok (.call (some Builtin.evalFunction) [whileFalse]), ⟨["while", "end"], [closingReport]⟩) := by
  have hcode : (codeLines (sourceLines "while false\nend")).foldlM Compiler.addCode .empty
      reportingWorld.surroundings = _ := code_whileFalse
  exact Compiler.compile_of_several rfl hcode

theorem compile_shellTrue_whileFalse :
    Compiler.compile ("shell true" ++ "\n" ++ "while false\nend") reportingWorld.surroundings =
      (.ok (.call (some Builtin.evalFunction) [shellTrue, whileFalse]),
        ⟨["shell", "while", "end"], [closingReport]⟩) := by
  have hfirst : (codeLines (sourceLines "shell true")).foldlM Compiler.addCode .empty
      reportingWorld.surroundings = _ := code_shellTrue
  have hsecond : (codeLines (sourceLines "while false\nend")).foldlM Compiler.addCode .empty
      reportingWorld.surroundings = _ := code_whileFalse
  exact Compiler.compile_of_several rfl (Compiler.code_append hfirst rfl hsecond)

theorem isCut_whileFalse :
    IsCut reportingWorld.surroundings "shell true" "while false\nend" where
  closed := ⟨_, (Compiler.yields_compileFrom_iff _ 1).2 (congrArg Prod.fst code_shellTrue), rfl⟩
  compiles := ⟨_, (Compiler.yields_compileLines_iff _).2
    ⟨_, congrArg Prod.fst code_whileFalse, rfl⟩⟩
  code := by
    show ["while false", "end"] ≠ []
    simp

/-- A loop whose condition is false does nothing. -/
theorem runAt_whileFalse (depth : Nat) (w : World) :
    (execute (.call (some Builtin.evalFunction) [whileFalse])).runAt (depth + 4) w =
      (.ok .null, w) := by
  have hcondition : Call.ofTokens [.bool false] = .call none [.bool false] := by
    rw [Call.ofTokens, Call.calls_value (by simp), Call.takeParams_nil, Call.calls_nil]
  have hloop : (Job.execute whileFalse).task =
      (surroundings >>= fun s ↦ Library.whileFrom .standard (.call none [.bool false]) []
        (s.rounds + 1) .null) >>= execute := by
    rw [← hcondition]
    rfl
  rw [runAt_execute_eval_succ (by simp [whileFalse, Library.isLine]), sequence_singleton,
    runAt_execute, Job.run, hloop]
  rfl

/-- The loop is closed before the command is run, or behind it. -/
theorem errors_shellTrue_whileFalse :
    (runSource 0 (.text ("shell true" ++ "\n" ++ "while false\nend")) reportingWorld).2.errors =
        ["[DBG] SHELL true\n", closingReport] ∧
      (runInTurn 0 "shell true" "while false\nend" reportingWorld).2.errors =
        [closingReport, "[DBG] SHELL true\n"] := by
  constructor
  · rw [runSource, runSourceAt_of_compile compile_shellTrue_whileFalse]
    simp only [Value.load, Value.loadAll, shellTrue, whileFalse]
    decide +kernel
  · have hshell := runSourceAt_of_compile compile_shellTrue Job.maxDepth 0
    have hsurroundings := (settled_runSourceAt compile_shellTrue Job.maxDepth 0).1
    simp only [Value.load, Value.loadAll, shellTrue] at hshell
    have hresult : (runSourceAt Job.maxDepth 0 (.text "shell true") reportingWorld).1 =
        .ok (.int 0) := (congrArg Prod.fst hshell).trans (by decide +kernel)
    obtain ⟨v, hfirst⟩ := exists_eq_of_fst hresult
    rw [hfirst] at hshell hsurroundings
    have hdebug : v.debug = true :=
      (congrArg (fun run ↦ run.2.debug) hshell).trans (by decide +kernel)
    have herrors : v.errors = ["[DBG] SHELL true\n"] :=
      (congrArg (fun run ↦ run.2.errors) hshell).trans (by decide +kernel)
    have hcompile := compile_whileFalse
    rw [← hsurroundings] at hcompile
    rw [runInTurn, runSource, bind_of_ok hfirst, runSource, runSourceAt_of_compile hcompile]
    have hload : (Value.call (some Builtin.evalFunction) [whileFalse]).load nextWritten v.written =
        (.call (some Builtin.evalFunction) [whileFalse], v.written) := by
      simp only [Value.load, Value.loadAll, whileFalse]
      rfl
    rw [hload, show Job.maxDepth = 241 + 4 from rfl, within_of_eq (runAt_whileFalse 241 _)]
    simp [World.note, hdebug, herrors]

/-- Running the whole and running its parts differ where depth runs out, and in the order of
reports. -/
theorem runSource_append_limits :
    (IsCut builtinWorld.surroundings (String.ofList (notsText 244)) "true" ∧
      (runInTurn 0 (String.ofList (notsText 244)) "true" builtinWorld).1 = .ok (.bool true) ∧
      (runSource 0 (.text (String.ofList (notsText 244) ++ "\n" ++ "true")) builtinWorld).1 =
        .error .exhausted) ∧
    IsCut reportingWorld.surroundings "shell true" "while false\nend" ∧
      (runInTurn 0 "shell true" "while false\nend" reportingWorld).2.errors =
        [closingReport, "[DBG] SHELL true\n"] ∧
      (runSource 0 (.text ("shell true" ++ "\n" ++ "while false\nend")) reportingWorld).2.errors =
        ["[DBG] SHELL true\n", closingReport] :=
  ⟨⟨isCut_notsText 243, runSource_notsText rfl⟩, isCut_whileFalse,
    errors_shellTrue_whileFalse.symm⟩

end Script

end ResourceScript

import ResourceScript.Proofs.Language.BlockProgram
import ResourceScript.Proofs.Language.SourceText
/-!
# Programs of source text

Source text of one line is compiled to the call of that line, source text of several lines to the
calls of its lines under `eval`. Both are programs of the same trees (`IsProgram`), which are
read off the lines of code (`compilesTo_of_code`). Reading goes on behind what has been read
already: the trees of more lines of code come behind those in front (`foldlM_addCode_behind`).
-/

set_option autoImplicit false

namespace ResourceScript

/-! ### The trees of an outline -/

namespace Outline

/-- The call that an open bloc becomes when it and the blocs around it are closed. -/
def nested (bloc : OpenBloc) : (outer : List OpenBloc) → Value
  | [] => .call (some bloc.function) bloc.params
  | next :: outer =>
    nested { next with params := next.params ++ [.call (some bloc.function) bloc.params] } outer

/-- The trees of an outline: its calls, and the call of what is open behind them. -/
def trees (o : Outline) : List Value :=
  match o.blocs with
  | [] => o.calls
  | bloc :: outer => o.calls ++ [nested bloc outer]

theorem closeBlocs_all (bloc : OpenBloc) (outer : List OpenBloc) (calls : List Value) :
    (⟨bloc :: outer, calls⟩ : Outline).closeBlocs (outer.length + 1) =
      ⟨[], calls ++ [nested bloc outer]⟩ := by
  induction outer generalizing bloc with
  | nil => rfl
  | cons next outer ih => exact ih _

/-- A program runs the trees of its outline. -/
theorem program_eq (o : Outline) : o.program = .call (some Builtin.evalFunction) o.trees := by
  rcases o with ⟨blocs, calls⟩
  cases blocs with
  | nil => rfl
  | cons bloc outer =>
    unfold program
    rw [List.length_cons, closeBlocs_all]
    rfl

theorem isLine_nested (bloc : OpenBloc) (outer : List OpenBloc) :
    Library.isLine (nested bloc outer) = true := by
  induction outer generalizing bloc with
  | nil => rfl
  | cons next outer ih => exact ih _

theorem isLine_of_mem_outline {o : Outline} (ho : ∀ c ∈ o.calls, Library.isLine c = true) :
    ∀ c ∈ o.trees, Library.isLine c = true := by
  unfold trees
  split
  · exact ho
  · rename_i bloc outer _
    intro c hc
    rcases List.mem_append.1 hc with hc | hc
    · exact ho c hc
    · rw [List.mem_singleton.1 hc]
      exact isLine_nested bloc outer

/-- An outline behind calls. -/
def behind (calls : List Value) (o : Outline) : Outline :=
  ⟨o.blocs, calls ++ o.calls⟩

theorem trees_behind (calls : List Value) (o : Outline) :
    (o.behind calls).trees = calls ++ o.trees := by
  unfold trees behind
  split <;> simp_all

theorem add_behind (calls : List Value) (o : Outline) (call : Value) :
    (o.behind calls).add call = (o.add call).behind calls := by
  rcases o with ⟨blocs, _⟩
  cases blocs <;> simp [add, behind]

theorem closeBloc_behind (calls : List Value) (o : Outline) :
    (o.behind calls).closeBloc = o.closeBloc.behind calls := by
  rcases o with ⟨blocs, more⟩
  cases blocs with
  | nil => rfl
  | cons bloc outer => exact add_behind calls ⟨outer, more⟩ _

theorem closeBlocs_behind (calls : List Value) (o : Outline) (count : Nat) :
    (o.behind calls).closeBlocs count = (o.closeBlocs count).behind calls := by
  induction count generalizing o with
  | zero => rfl
  | succ count ih => rw [closeBlocs, closeBloc_behind, ih, closeBlocs]

end Outline

namespace Compiler

variable {s : Surroundings}

theorem closeNamed_behind (calls : List Value) (number : Nat) (text : String) (params : List Value)
    (o : Outline) :
    closeNamed number text params (o.behind calls) =
      Outline.behind calls <$> closeNamed number text params o := by
  unfold closeNamed
  rw [map_bind]
  congr 1
  funext name
  have hinside : (o.behind calls).inside? name = o.inside? name := rfl
  rw [hinside]
  cases o.inside? name with
  | none => rfl
  | some inside =>
    simp only [map_bind, map_pure, Outline.closeBlocs_behind]
    rfl

theorem addLine_behind (calls : List Value) (number : Nat) (text : String) (call : Value)
    (o : Outline) :
    addLine number text call (o.behind calls) =
      Outline.behind calls <$> addLine number text call o := by
  rcases closing_or_opening_or_other call with
    ⟨e, params, rfl, hbloc, hend⟩ | ⟨f, params, rfl, hbloc, hopen⟩ | hother
  · rw [addLine_closing _ _ _ hbloc hend, addLine_closing _ _ _ hbloc hend]
    exact closeNamed_behind calls number text params o
  · rw [addLine_opening _ _ _ hbloc hopen, addLine_opening _ _ _ hbloc hopen, map_pure]
    rfl
  · rw [addLine_other _ _ _ hother, addLine_other _ _ _ hother, map_pure, Outline.add_behind]

theorem addCode_behind (calls : List Value) (text : String) (o : Outline) :
    addCode (o.behind calls) text = Outline.behind calls <$> addCode o text := by
  unfold addCode
  rw [map_bind]
  exact congrArg _ (funext fun call ↦ addLine_behind calls 0 text call o)

/-- Reading lines of code goes on behind what has been read. -/
theorem foldlM_addCode_behind (calls : List Value) (texts : List String) (o : Outline) :
    texts.foldlM addCode (o.behind calls) = Outline.behind calls <$> texts.foldlM addCode o := by
  induction texts generalizing o with
  | nil => rfl
  | cons text rest ih =>
    rw [List.foldlM_cons, List.foldlM_cons, map_bind, addCode_behind, bind_map_left]
    exact congrArg _ (funext ih)

/-! ### What a line of code adds -/

/-- Whether an outline has something in it, and nothing but calls outside of its blocs. -/
def IsFilled (o : Outline) : Prop :=
  (o.blocs ≠ [] ∨ o.calls ≠ []) ∧ ∀ c ∈ o.calls, Library.isLine c = true

theorem isFilled_add {o : Outline} {call : Value} (ho : ∀ c ∈ o.calls, Library.isLine c = true)
    (hcall : Library.isLine call = true) : IsFilled (o.add call) := by
  rcases o with ⟨blocs, calls⟩
  cases blocs with
  | nil =>
    refine ⟨Or.inr (by simp [Outline.add]), fun c hc ↦ ?_⟩
    rcases List.mem_append.1 hc with hc | hc
    · exact ho c hc
    · rw [List.mem_singleton.1 hc]
      exact hcall
  | cons bloc outer => exact ⟨Or.inl (by simp [Outline.add]), ho⟩

theorem isFilled_closeBlocs {o : Outline} (ho : IsFilled o) (count : Nat) :
    IsFilled (o.closeBlocs count) := by
  induction count generalizing o with
  | zero => exact ho
  | succ count ih =>
    refine ih ?_
    rcases o with ⟨blocs, calls⟩
    cases blocs with
    | nil => exact ho
    | cons bloc outer => exact isFilled_add (o := ⟨outer, calls⟩) ho.2 rfl

/-- Every line of code leaves something in the outline. -/
theorem isFilled_of_addCode {text : String} {o o' : Outline}
    (ho : ∀ c ∈ o.calls, Library.isLine c = true) (h : (addCode o text).Yields s o') :
    IsFilled o' := by
  unfold addCode compileLine at h
  simp only [yields_bind, yields_pure] at h
  obtain ⟨_, ⟨tokens, -, rfl⟩, hadd⟩ := h
  rcases hadd.of_addLine with
    ⟨_, _, _, inside, -, -, -, -, hinside, rfl⟩ | ⟨f, header, -, -, -, rfl⟩ | ⟨-, rfl⟩
  · refine isFilled_closeBlocs ⟨Or.inl ?_, ho⟩ _
    rintro hnil
    simp [Outline.inside?, hnil] at hinside
  · exact ⟨Or.inl (by simp [Outline.openBloc]), ho⟩
  · exact isFilled_add ho (Call.isLine_ofTokens tokens)

theorem isFilled_of_foldlM {texts : List String} {o o' : Outline} (ho : IsFilled o)
    (h : (texts.foldlM addCode o).Yields s o') : IsFilled o' := by
  induction texts generalizing o with
  | nil =>
    obtain rfl := (yields_pure _ _).1 h
    exact ho
  | cons text rest ih =>
    rw [List.foldlM_cons, yields_bind] at h
    obtain ⟨next, hnext, hrest⟩ := h
    exact ih (isFilled_of_addCode ho.2 hnext) hrest

theorem isFilled_of_code {texts : List String} {o : Outline} (htexts : texts ≠ [])
    (h : (texts.foldlM addCode .empty).Yields s o) : IsFilled o := by
  cases texts with
  | nil => exact absurd rfl htexts
  | cons text rest =>
    rw [List.foldlM_cons, yields_bind] at h
    obtain ⟨next, hnext, hrest⟩ := h
    exact isFilled_of_foldlM (isFilled_of_addCode (by simp [Outline.empty]) hnext) hrest

theorem isLine_of_code {texts : List String} {o : Outline}
    (h : (texts.foldlM addCode .empty).Yields s o) : ∀ c ∈ o.trees, Library.isLine c = true := by
  by_cases htexts : texts = []
  · subst htexts
    obtain rfl := (yields_pure _ _).1 h
    simp [Outline.trees, Outline.empty]
  · exact Outline.isLine_of_mem_outline (isFilled_of_code htexts h).2

theorem trees_ne_nil {o : Outline} (ho : IsFilled o) : o.trees ≠ [] := by
  unfold Outline.trees
  split
  · rename_i hblocs
    exact ho.1.resolve_left (absurd hblocs)
  · simp

end Compiler

/-! ### Compiling source text -/

/-- Whether a value is a program that runs calls one after the other: a single call, calls under
`eval`, or an empty line. -/
inductive IsProgram : Value → List Value → Prop
  /-- A single call. -/
  | single {tree : Value} (htree : Library.isLine tree = true) : IsProgram tree [tree]
  /-- Calls under `eval`. -/
  | several {trees : List Value} (htrees : ∀ c ∈ trees, Library.isLine c = true) :
    IsProgram (.call (some Builtin.evalFunction) trees) trees
  /-- An empty line. -/
  | nothing : IsProgram (.call none []) []

/-- Whether a program does what two programs do one after the other: it runs their calls under
`eval`, or it is the second one behind an empty line. -/
inductive IsJoint (first second : Value) (trees : List Value) : Value → Prop
  /-- All calls under `eval`. -/
  | several (htrees : ∀ c ∈ trees, Library.isLine c = true) :
    IsJoint first second trees (.call (some Builtin.evalFunction) trees)
  /-- The second program. -/
  | behindNothing (hfirst : first = .call none []) : IsJoint first second trees second

namespace Compiler

open Text

variable {s : Surroundings}

/-- The lines of source text. -/
def sourceLines (source : String) : List String :=
  (lines source.toList).map String.ofList

theorem codeLines_sourceLines_append (first second : String) :
    codeLines (sourceLines (first ++ "\n" ++ second)) =
      codeLines (sourceLines first) ++ codeLines (sourceLines second) := by
  unfold sourceLines
  rw [String.toList_append, String.toList_append, List.append_assoc]
  exact codeLines_lines_append first.toList second.toList

/-- A line without code compiles to an empty call. -/
theorem compileLine_of_not_code {line : List Char} (hline : isCode line = false) :
    compileLine (String.ofList line) s = (.ok (.call none []), .empty) := by
  have hscan : Lexeme.scan line = [] := by
    cases line with
    | nil => rw [Lexeme.scan]
    | cons c rest =>
      have hc : c = '#' := by simpa [isCode] using hline
      rw [Lexeme.scan, hc]
      rfl
  unfold compileLine tokenize tokenizeWith
  rw [String.toList_ofList, hscan, List.mapM_nil, pure_bind, Call.ofTokens, Call.calls_nil]
  rfl

/-- A single line of code compiles to its tree; it cannot close a bloc. -/
theorem compileLine_of_addCode {text : String} {o : Outline} {t : Traces}
    (h : addCode .empty text s = (.ok o, t)) :
    ∃ tree, compileLine text s = (.ok tree, t) ∧ o.trees = [tree] := by
  obtain ⟨tree, first, second, hline, hadd, rfl⟩ := bind_eq_ok_iff.1 h
  refine ⟨tree, ?_⟩
  rw [hline]
  unfold addLine at hadd
  split at hadd
  · rename_i f params
    split at hadd
    · obtain ⟨name, _, _, -, hname, -⟩ := bind_eq_ok_iff.1 hadd
      cases hname
    · split at hadd
      · cases hadd
        exact ⟨by simp, rfl⟩
      · cases hadd
        exact ⟨by simp, rfl⟩
  · cases hadd
    exact ⟨by simp, rfl⟩

/-- Whether source text compiles to a program of calls, and leaves traces. -/
def CompilesTo (s : Surroundings) (source : String) (trees : List Value) (t : Traces) : Prop :=
  ∃ program, compile source s = (.ok program, t) ∧ IsProgram program trees

/-- Source text of several lines is compiled to the trees of its lines of code under `eval`. -/
theorem compile_of_several {source : String} {o : Outline} {t : Traces} {line next : List Char}
    {rest : List (List Char)} (hlines : lines (trim source.toList) = line :: next :: rest)
    (h : (codeLines (sourceLines source)).foldlM addCode .empty s = (.ok o, t)) :
    compile source s = (.ok (.call (some Builtin.evalFunction) o.trees), t) := by
  unfold sourceLines at h
  rw [← codeLines_lines_trim, hlines] at h
  have hfrom := (compileFrom_eq_ok_iff _ 1).2 h
  unfold compile
  rw [hlines, ← o.program_eq]
  exact (bind_of_ok hfrom _).trans (Prod.ext rfl (Traces.append_empty t))

/-- Source text is compiled to a program of the trees of its lines of code. -/
theorem compilesTo_of_code {source : String} {o : Outline} {t : Traces}
    (h : (codeLines (sourceLines source)).foldlM addCode .empty s = (.ok o, t)) :
    CompilesTo s source o.trees t := by
  have htrees := isLine_of_code (congrArg Prod.fst h)
  have hseveral := @compile_of_several s source o t
  unfold CompilesTo
  unfold sourceLines at h hseveral
  rw [← codeLines_lines_trim] at h
  rcases hlines : lines (trim source.toList) with _ | ⟨line, _ | ⟨next, rest⟩⟩
  · rw [hlines] at h
    cases h
    unfold compile
    rw [hlines]
    exact ⟨.call none [], compileLine_of_not_code rfl, .nothing⟩
  · rw [hlines] at h
    unfold compile
    rw [hlines]
    have hline : trim line = line := by
      rw [eq_trim_of_lines_eq_singleton hlines, trim_trim]
    rw [codeLines_map_ofList, codeTexts, List.map_singleton, hline] at h
    cases hcode : isCode line with
    | false =>
      rw [List.filter_cons_of_neg (by simp [hcode])] at h
      cases h
      exact ⟨.call none [], compileLine_of_not_code hcode, .nothing⟩
    | true =>
      rw [List.filter_cons_of_pos hcode] at h
      have hadd : addCode .empty (String.ofList line) s = (.ok o, t) := by simpa using h
      obtain ⟨tree, htree, hone⟩ := compileLine_of_addCode hadd
      rw [hone] at htrees ⊢
      exact ⟨tree, htree, .single (htrees tree (List.mem_singleton_self tree))⟩
  · rw [codeLines_lines_trim] at h
    exact ⟨_, hseveral hlines h, .several htrees⟩

/-- Blank source text compiles to an empty line. -/
theorem compile_of_blank {source : String} (hblank : trim source.toList = []) :
    compile source s = (.ok (.call none []), .empty) := by
  unfold compile
  rw [hblank]
  exact compileLine_of_not_code rfl

/-- Reading source text that closes its blocs goes on with more source text behind it. -/
theorem code_append {first second : String} {o o' : Outline} {t u : Traces}
    (hfirst : (codeLines (sourceLines first)).foldlM addCode .empty s = (.ok o, t))
    (hclosed : o.blocs = [])
    (hsecond : (codeLines (sourceLines second)).foldlM addCode .empty s = (.ok o', u)) :
    (codeLines (sourceLines (first ++ "\n" ++ second))).foldlM addCode .empty s =
      (.ok (o'.behind o.trees), t ++ u) := by
  have hbehind : o = Outline.empty.behind o.trees := by
    rcases o with ⟨blocs, calls⟩
    obtain rfl : blocs = [] := hclosed
    simp [Outline.behind, Outline.empty, Outline.trees]
  have hmore : (codeLines (sourceLines second)).foldlM addCode o s =
      (.ok (o'.behind o.trees), u) := by
    have hmap := foldlM_addCode_behind o.trees (codeLines (sourceLines second)) .empty
    rw [← hbehind] at hmap
    rw [hmap]
    exact map_of_ok hsecond _
  rw [codeLines_sourceLines_append, List.foldlM_append]
  exact bind_eq_ok_iff.2 ⟨o, t, u, hfirst, hmore, rfl⟩

/-- Source text that closes its blocs compiles to a program of calls, more source text to a program
of further calls. Both together compile to all these calls under `eval`, unless the first is blank
and the second has a single line. -/
theorem compilesTo_append {first second : String} {o : Outline} {program : Value}
    (hfirst : (compileFrom 1 .empty (sourceLines first)).Yields s o) (hclosed : o.blocs = [])
    (hsecond : (compileLines (sourceLines second)).Yields s program)
    (hcode : codeLines (sourceLines second) ≠ []) :
    ∃ firstProgram secondProgram joint trees more t u,
      compile first s = (.ok firstProgram, t) ∧ IsProgram firstProgram trees ∧
      compile second s = (.ok secondProgram, u) ∧ IsProgram secondProgram more ∧ more ≠ [] ∧
      compile (first ++ "\n" ++ second) s = (.ok joint, t ++ u) ∧
      IsJoint firstProgram secondProgram (trees ++ more) joint := by
  obtain ⟨o', hsecond', -⟩ := (yields_bind _ _ _).1 hsecond
  obtain ⟨t, hfirstFrom⟩ : ∃ t, compileFrom 1 .empty (sourceLines first) s = (.ok o, t) :=
    ⟨_, Prod.ext hfirst rfl⟩
  obtain ⟨u, hsecondFrom⟩ : ∃ u, compileFrom 1 .empty (sourceLines second) s = (.ok o', u) :=
    ⟨_, Prod.ext hsecond' rfl⟩
  have hfirstCode := (compileFrom_eq_ok_iff _ 1).1 hfirstFrom
  have hsecondCode := (compileFrom_eq_ok_iff _ 1).1 hsecondFrom
  have hwholeCode := code_append hfirstCode hclosed hsecondCode
  obtain ⟨firstProgram, hfirstProgram, hfirstTrees⟩ := compilesTo_of_code hfirstCode
  obtain ⟨secondProgram, hsecondProgram, hsecondTrees⟩ := compilesTo_of_code hsecondCode
  have hmore := trees_ne_nil (isFilled_of_code hcode (congrArg Prod.fst hsecondCode))
  have hsolid : trim second.toList ≠ [] := by
    intro hblank
    unfold sourceLines at hcode
    rw [← codeLines_lines_trim, hblank] at hcode
    exact hcode rfl
  have hwhole : (first ++ "\n" ++ second).toList = first.toList ++ '\n' :: second.toList := by
    rw [String.toList_append, String.toList_append, List.append_assoc]
    rfl
  obtain ⟨hblank, htrim⟩ | hbreak := trim_append_cases first.toList hsolid
  · have hsame : compile (first ++ "\n" ++ second) = compile second := by
      unfold compile
      rw [hwhole, htrim]
    obtain ⟨hnothing, rfl⟩ := Prod.mk.inj (hfirstProgram.symm.trans (compile_of_blank hblank))
    refine ⟨_, _, _, _, _, _, u, hfirstProgram, hfirstTrees, hsecondProgram, hsecondTrees, hmore, ?_,
      .behindNothing (Except.ok.inj hnothing)⟩
    rw [hsame, hsecondProgram, Traces.empty_append]
  · obtain ⟨line, next, rest, hlines⟩ := lines_trim_of_isLineBreak hbreak (by decide)
    rw [← hwhole] at hlines
    have hjoint := compile_of_several hlines hwholeCode
    rw [Outline.trees_behind] at hjoint
    have hlines' := isLine_of_code (congrArg Prod.fst hwholeCode)
    rw [Outline.trees_behind] at hlines'
    exact ⟨_, _, _, _, _, t, u, hfirstProgram, hfirstTrees, hsecondProgram, hsecondTrees, hmore,
      hjoint, .several hlines'⟩

end Compiler

end ResourceScript

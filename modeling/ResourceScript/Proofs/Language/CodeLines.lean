import ResourceScript.Language.Bloc
/-!
# Lines of code

Compiling lines passes over blank lines and comments and drops the blanks around the others. What is
left are the lines of code, and a successful compilation of lines is one of their lines of code, one
after the other (`compileFrom_eq_ok_iff`). The numbers of lines are only seen in failures.

A line of code closes blocs, opens a bloc, or adds its call (`Yields.of_addLine`).
-/

set_option autoImplicit false

namespace ResourceScript

namespace Compiler

open Text

/-- Whether a line without blanks around it is code: it is neither empty nor a comment. -/
def isCode (text : List Char) : Bool :=
  !(text.isEmpty || text.head? == some '#')

theorem isCode_eq_false_iff {text : List Char} :
    isCode text = false ↔ (text.isEmpty || text.head? = some '#') = true := by
  simp [isCode, Decidable.or_iff_not_imp_left]

/-- The lines of code among lines, without the blanks around them. -/
def codeLines (lines : List String) : List String :=
  ((lines.map fun line => trim line.toList).filter isCode).map String.ofList

/-- Adds a line of code to an outline. -/
def addCode (o : Outline) (text : String) : Compiler Outline := do
  addLine 0 text (← compileLine text) o

theorem codeLines_cons_code {line : String} (hline : isCode (trim line.toList) = true)
    (rest : List String) :
    codeLines (line :: rest) = String.ofList (trim line.toList) :: codeLines rest := by
  simp only [codeLines, List.map_cons, List.filter_cons_of_pos hline]

theorem codeLines_cons_other {line : String} (hline : isCode (trim line.toList) = false)
    (rest : List String) : codeLines (line :: rest) = codeLines rest := by
  simp only [codeLines, List.map_cons, List.filter_cons, hline, Bool.false_eq_true, if_false]

/-! ### One line after the other -/

section

variable {line : String} (number : Nat) (o : Outline)

theorem compileFrom_cons_other (hline : isCode (trim line.toList) = false) (rest : List String) :
    compileFrom number o (line :: rest) = compileFrom (number + 1) o rest := by
  rw [compileFrom, if_pos (isCode_eq_false_iff.1 hline)]

theorem compileFrom_cons_code (hline : isCode (trim line.toList) = true) (rest : List String) :
    compileFrom number o (line :: rest) = (do
      let call ← compileLine (String.ofList (trim line.toList))
      let o' ← addLine number (String.ofList (trim line.toList)) call o
      compileFrom (number + 1) o' rest) := by
  have hcode : ¬ ((trim line.toList).isEmpty || (trim line.toList).head? = some '#') = true :=
    fun hother ↦ Bool.false_ne_true ((isCode_eq_false_iff.2 hother).symm.trans hline)
  rw [compileFrom, if_neg hcode]

end

/-! ### What a line does -/

section

variable {e f : Function} {params : List Value} {call : Value}

/-- A compiled line is the call of an `end`, the call of another bloc function, or anything else. -/
theorem closing_or_opening_or_other (call : Value) :
    (∃ e params, call = .call (some e) params ∧ e.isBloc = true ∧ e.name = "end") ∨
      (∃ f params, call = .call (some f) params ∧ f.isBloc = true ∧ f.name ≠ "end") ∨
      ∀ f params, call = .call (some f) params → f.isBloc = false := by
  by_cases hbloc : ∃ f params, call = .call (some f) params ∧ f.isBloc = true
  · obtain ⟨f, params, hcall, hf⟩ := hbloc
    by_cases hname : f.name = "end"
    · exact .inl ⟨f, params, hcall, hf, hname⟩
    · exact .inr (.inl ⟨f, params, hcall, hf, hname⟩)
  · refine .inr (.inr fun f params hcall ↦ ?_)
    exact Bool.eq_false_iff.2 fun hf ↦ hbloc ⟨f, params, hcall, hf⟩

variable (number : Nat) (text : String) (o : Outline)

theorem addLine_closing (hbloc : e.isBloc = true) (hname : e.name = "end") :
    addLine number text (.call (some e) params) o = closeNamed number text params o := by
  simp [addLine, hbloc, hname]

theorem addLine_opening (hbloc : f.isBloc = true) (hname : f.name ≠ "end") :
    addLine number text (.call (some f) params) o = pure (o.openBloc f params) := by
  simp [addLine, hbloc, hname]

theorem addLine_other (hcall : ∀ f params, call = .call (some f) params → f.isBloc = false) :
    addLine number text call o = pure (o.add call) := by
  unfold addLine
  split
  · rename_i f params
    simp [hcall f params rfl]
  · rfl

end

section

variable {s : Surroundings} {number : Nat} {text : String} {call : Value} {o o' : Outline}

/-- What a line that is added does: it closes blocs, opens one, or adds its call. -/
theorem Yields.of_addLine (h : (addLine number text call o).Yields s o') :
    (∃ e params name inside, call = .call (some e) params ∧ e.isBloc = true ∧ e.name = "end" ∧
      (closedName params).Yields s name ∧ o.inside? name = some inside ∧
        o' = o.closeBlocs (inside + 1)) ∨
    (∃ f params, call = .call (some f) params ∧ f.isBloc = true ∧ f.name ≠ "end" ∧
      o' = o.openBloc f params) ∨
    (∀ f params, call = .call (some f) params → f.isBloc = false) ∧ o' = o.add call := by
  rcases closing_or_opening_or_other call with
    ⟨e, params, rfl, hbloc, hend⟩ | ⟨f, params, rfl, hbloc, hopen⟩ | hother
  · left
    rw [addLine_closing _ _ o hbloc hend, closeNamed, yields_bind] at h
    obtain ⟨name, hname, h⟩ := h
    cases ho : o.inside? name with
    | none =>
      rw [ho] at h
      exact absurd h (yields_fail _ _)
    | some inside =>
      rw [ho] at h
      simp only [yields_bind, yields_pure] at h
      obtain ⟨-, -, rfl⟩ := h
      exact ⟨e, params, name, inside, rfl, hbloc, hend, hname, ho, rfl⟩
  · right; left
    rw [addLine_opening _ _ o hbloc hopen, yields_pure] at h
    exact ⟨f, params, rfl, hbloc, hopen, h.symm⟩
  · right; right
    rw [addLine_other _ _ o hother, yields_pure] at h
    exact ⟨hother, h.symm⟩

end

/-! ### Lines of code alone -/

section

variable {s : Surroundings} {o o' : Outline} {t : Traces} {text : String}

theorem closeNamed_eq_ok_iff (m n : Nat) (params : List Value) :
    closeNamed m text params o s = (.ok o', t) ↔ closeNamed n text params o s = (.ok o', t) := by
  unfold closeNamed
  refine bind_eq_ok_congr (fun name t ↦ Iff.rfl) (fun name o' t ↦ ?_) o' t
  cases o.inside? name with
  | none => simp [fail]
  | some inside => exact Iff.rfl

theorem addLine_eq_ok_iff (m n : Nat) (call : Value) :
    addLine m text call o s = (.ok o', t) ↔ addLine n text call o s = (.ok o', t) := by
  rcases closing_or_opening_or_other call with
    ⟨e, params, rfl, hbloc, hend⟩ | ⟨f, params, rfl, hbloc, hopen⟩ | hother
  · rw [addLine_closing m text o hbloc hend, addLine_closing n text o hbloc hend]
    exact closeNamed_eq_ok_iff m n params
  · rw [addLine_opening m text o hbloc hopen, addLine_opening n text o hbloc hopen]
  · rw [addLine_other m text o hother, addLine_other n text o hother]

/-- Compiling lines and compiling their lines of code come to the same success. -/
theorem compileFrom_eq_ok_iff (lines : List String) (number : Nat) :
    compileFrom number o lines s = (.ok o', t) ↔
      (codeLines lines).foldlM addCode o s = (.ok o', t) := by
  induction lines generalizing number o o' t with
  | nil => exact Iff.rfl
  | cons line rest ih =>
    cases hline : isCode (trim line.toList) with
    | false =>
      rw [codeLines_cons_other hline, compileFrom_cons_other number o hline]
      exact ih (number + 1)
    | true =>
      rw [codeLines_cons_code hline, List.foldlM_cons, addCode, LawfulMonad.bind_assoc,
        compileFrom_cons_code number o hline]
      refine bind_eq_ok_congr (fun call t ↦ Iff.rfl) (fun call o' t ↦ ?_) o' t
      exact bind_eq_ok_congr (fun o' t ↦ addLine_eq_ok_iff number 0 call)
        (fun o o' t ↦ ih (number + 1)) o' t

theorem yields_compileFrom_iff (lines : List String) (number : Nat) :
    (compileFrom number o lines).Yields s o' ↔
      ((codeLines lines).foldlM addCode o).Yields s o' := by
  constructor
  · intro h
    exact congrArg Prod.fst ((compileFrom_eq_ok_iff lines number).1 (Prod.ext h rfl))
  · intro h
    exact congrArg Prod.fst ((compileFrom_eq_ok_iff lines number).2 (Prod.ext h rfl))

theorem yields_compileLines_iff {program : Value} (lines : List String) :
    (compileLines lines).Yields s program ↔
      ∃ o, ((codeLines lines).foldlM addCode .empty).Yields s o ∧ o.program = program := by
  simp only [compileLines, yields_bind, yields_pure, yields_compileFrom_iff]

end

end Compiler

end ResourceScript

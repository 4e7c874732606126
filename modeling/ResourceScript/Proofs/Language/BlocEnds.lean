import ResourceScript.Proofs.Language.BlocStacks
import ResourceScript.Proofs.Language.LineFaults
import ResourceScript.Proofs.Language.PrintedCall
/-!
# Named and missing ends

An `end` line with a name is short for bare `end` lines: one for the innermost open bloc of that
name, and one for each bloc inside it. What is still open after the last line is closed as bare
`end` lines would close it. The lines behind a named `end` have smaller numbers than behind the bare
ones, which shows where one of them is reported (`Compiler.not_compileLines_ends_number`).

Compiling lines fails for want of an open bloc exactly where an `end` line meets no matching one,
and the two stacks that blocs can be compiled on never lack what is popped
(`Compiler.compileLines_ends`).
-/

set_option autoImplicit false

namespace ResourceScript

open Text

namespace Compiler

/-! ### Lines one after the other -/

section

variable {s : Surroundings} (number : Nat) (o : Outline)

theorem compileFrom_append (before after : List String) :
    compileFrom number o (before ++ after) = (do
      let o' ← compileFrom number o before
      compileFrom (number + before.length) o' after) := by
  induction before generalizing number o with
  | nil => rw [List.nil_append, compileFrom, LawfulMonad.pure_bind, List.length_nil, Nat.add_zero]
  | cons line rest ih =>
    have hnumber : number + 1 + rest.length = number + (line :: rest).length := by
      rw [List.length_cons]
      omega
    rw [List.cons_append]
    cases hline : isCode (trim line.toList) with
    | false =>
      rw [compileFrom_cons_other number o hline, compileFrom_cons_other number o hline, ih, hnumber]
    | true =>
      simp only [compileFrom_cons_code number o hline, bind_assoc, ih, hnumber]

/-- Where the lines in front compile, the others go on from their outline. -/
theorem fst_compileFrom_append {before : List String} {o' : Outline}
    (hbefore : (compileFrom number o before).Yields s o') (after : List String) :
    (compileFrom number o (before ++ after) s).1 =
      (compileFrom (number + before.length) o' after s).1 := by
  rw [compileFrom_append, fst_bind, hbefore]
  rfl

end

/-! ### The numbers of lines -/

section

variable {α β : Type} {s : Surroundings} (number count : Nat) (text : String)

/-- Computations that come to the same up to the numbers of lines do so after one another. -/
theorem fst_bind_later {x x' : Compiler α} {next next' : α → Compiler β}
    (hx : (x' s).1 = (x s).1.mapError (Fault.later count))
    (hnext : ∀ a, x.Yields s a → (next' a s).1 = (next a s).1.mapError (Fault.later count)) :
    ((x' >>= next') s).1 = ((x >>= next) s).1.mapError (Fault.later count) := by
  rw [fst_bind, fst_bind, hx]
  cases hfirst : (x s).1 with
  | error cause => rfl
  | ok a => exact hnext a hfirst

theorem fst_closeNamed_later {params : List Value} (hparams : ∀ p ∈ params, p.IsSource)
    (o : Outline) :
    (closeNamed (number + count) text params o s).1 =
      (closeNamed number text params o s).1.mapError (Fault.later count) := by
  refine fst_bind_later count ((needsNoBloc_closedName hparams).mapError_later count).symm ?_
  intro name _
  cases o.inside? name <;> rfl

theorem fst_addLine_later {call : Value} (hcall : call.IsSource) (o : Outline) :
    (addLine (number + count) text call o s).1 =
      (addLine number text call o s).1.mapError (Fault.later count) := by
  rcases closing_or_opening_or_other call with
    ⟨e, params, rfl, hbloc, hname⟩ | ⟨f, params, rfl, hbloc, hname⟩ | hother
  · cases hcall with
    | call _ hparams =>
      rw [addLine_closing _ text o hbloc hname, addLine_closing _ text o hbloc hname]
      exact fst_closeNamed_later number count text hparams o
  · rw [addLine_opening _ text o hbloc hname, addLine_opening _ text o hbloc hname]
    rfl
  · rw [addLine_other _ text o hother, addLine_other _ text o hother]
    rfl

/-- With further lines in front, lines compile alike or fail alike: the failures for want of an open
bloc carry other numbers. -/
theorem fst_compileFrom_later (o : Outline) (lines : List String) :
    (compileFrom (number + count) o lines s).1 =
      (compileFrom number o lines s).1.mapError (Fault.later count) := by
  induction lines generalizing number o with
  | nil => rfl
  | cons line rest ih =>
    have hnumber : number + count + 1 = number + 1 + count := Nat.add_right_comm number count 1
    cases hline : isCode (trim line.toList) with
    | false =>
      rw [compileFrom_cons_other _ o hline, compileFrom_cons_other _ o hline, hnumber]
      exact ih (number + 1) o
    | true =>
      rw [compileFrom_cons_code _ o hline, compileFrom_cons_code _ o hline]
      refine fst_bind_later count ((needsNoBloc_compileLine _).mapError_later count).symm
        fun call hcall ↦ ?_
      refine fst_bind_later count (fst_addLine_later number count _ hcall.isSource_compileLine o)
        fun o' _ ↦ ?_
      rw [hnumber]
      exact ih (number + 1) o'

end

/-! ### What an `end` line does -/

section

variable {s : Surroundings}

/-- Whether a line is an `end` line that stands for a name, or for none: it compiles to a call of
the bloc function `end`, whose first parameter, if there is one, stands for the name. -/
structure EndsBloc (s : Surroundings) (line : String) (name : Option String) : Prop where
  /-- The line is code. -/
  code : isCode (trim line.toList) = true
  /-- It compiles to a call of `end`. -/
  closes : ∃ (e : Function) (params : List Value), e.isBloc = true ∧ e.name = "end" ∧
    (compileLine (String.ofList (trim line.toList))).Yields s (.call (some e) params) ∧
      (closedName params).Yields s name

variable {line : String} {name : Option String} {o : Outline}

theorem fst_closeNamed_of_none {params : List Value} (hname : (closedName params).Yields s name)
    (ho : o.inside? name = none) (number : Nat) (text : String) :
    (closeNamed number text params o s).1 = .error (.parse (.noOpenBloc number text)) := by
  rw [closeNamed, fst_bind, hname, Except.bind, ho]
  rfl

theorem fst_closeNamed_of_some {params : List Value} (hname : (closedName params).Yields s name)
    {inside : Nat} (ho : o.inside? name = some inside) (number : Nat) (text : String) :
    (closeNamed number text params o s).1 = .ok (o.closeBlocs (inside + 1)) := by
  rw [closeNamed, fst_bind, hname, Except.bind, ho]
  rfl

/-- An `end` line closes what it names, and the other lines go on from there. -/
theorem EndsBloc.exists_fst_compileFrom (h : EndsBloc s line name) (number : Nat) (o : Outline) :
    ∃ params, (closedName params).Yields s name ∧ ∀ rest,
      (compileFrom number o (line :: rest) s).1 =
        (closeNamed number (String.ofList (trim line.toList)) params o s).1.bind
          fun o' => (compileFrom (number + 1) o' rest s).1 := by
  obtain ⟨e, params, hbloc, hend, hcall, hname⟩ := h.closes
  refine ⟨params, hname, fun rest ↦ ?_⟩
  rw [compileFrom_cons_code number o h.code, fst_bind, hcall, Except.bind, fst_bind,
    addLine_closing _ _ o hbloc hend]

/-- An `end` line that meets no matching open bloc is reported. -/
theorem EndsBloc.fst_compileFrom_of_none (h : EndsBloc s line name) (ho : o.inside? name = none)
    (number : Nat) (rest : List String) :
    (compileFrom number o (line :: rest) s).1 =
      .error (.parse (.noOpenBloc number (String.ofList (trim line.toList)))) := by
  obtain ⟨params, hname, hrest⟩ := h.exists_fst_compileFrom number o
  rw [hrest, fst_closeNamed_of_none hname ho]
  rfl

/-- An `end` line closes the blocs inside the one that it names, and that one. -/
theorem EndsBloc.fst_compileFrom_of_some (h : EndsBloc s line name) {inside : Nat}
    (ho : o.inside? name = some inside) (number : Nat) (rest : List String) :
    (compileFrom number o (line :: rest) s).1 =
      (compileFrom (number + 1) (o.closeBlocs (inside + 1)) rest s).1 := by
  obtain ⟨params, hname, hrest⟩ := h.exists_fst_compileFrom number o
  rw [hrest, fst_closeNamed_of_some hname ho]
  rfl

/-- Bare `end` lines close as many blocs. -/
theorem fst_compileFrom_replicate (hend : EndsBloc s "end" none) {count : Nat}
    (hcount : count ≤ o.functions.length) (number : Nat) (rest : List String) :
    (compileFrom number o (List.replicate count "end" ++ rest) s).1 =
      (compileFrom (number + count) (o.closeBlocs count) rest s).1 := by
  induction count generalizing number o with
  | zero => rfl
  | succ count ih =>
    have hinside : o.inside? none = some 0 := by
      rw [Outline.inside?_eq]
      obtain ⟨f, outer, hf⟩ := List.exists_cons_of_length_pos (show 0 < o.functions.length by omega)
      rw [hf]
      rfl
    have hclose : count ≤ o.closeBloc.functions.length := by
      rw [Outline.functions_closeBloc, List.length_tail]
      omega
    calc (compileFrom number o (List.replicate (count + 1) "end" ++ rest) s).1
      _ = (compileFrom (number + 1) o.closeBloc (List.replicate count "end" ++ rest) s).1 :=
        hend.fst_compileFrom_of_some hinside number _
      _ = (compileFrom (number + 1 + count) (o.closeBloc.closeBlocs count) rest s).1 :=
        ih hclose (number + 1)
      _ = (compileFrom (number + (count + 1)) (o.closeBlocs (count + 1)) rest s).1 := by
        rw [Nat.add_right_comm]
        rfl

/-- Of the lines that compile, only an `end` line fails for want of an open bloc. -/
theorem exists_of_fst_addLine_eq_noOpenBloc {call : Value} (hcall : call.IsSource)
    {first number : Nat} {source text : String}
    (h : (addLine first source call o s).1 = .error (.parse (.noOpenBloc number text))) :
    ∃ e params name, call = .call (some e) params ∧ e.isBloc = true ∧ e.name = "end" ∧
      (closedName params).Yields s name ∧ o.inside? name = none ∧ number = first ∧
        text = source := by
  rcases closing_or_opening_or_other call with
    ⟨e, params, rfl, hbloc, hend⟩ | ⟨f, params, rfl, hbloc, hopen⟩ | hother
  · rw [addLine_closing _ _ o hbloc hend] at h
    cases hcall with
    | call _ hparams =>
      cases hname : (closedName params s).1 with
      | error cause =>
        rw [closeNamed, fst_bind, hname] at h
        cases h
        exact absurd ⟨number, text, rfl⟩ (needsNoBloc_closedName hparams _ hname)
      | ok name =>
        cases ho : o.inside? name with
        | none =>
          rw [fst_closeNamed_of_none hname ho] at h
          cases h
          exact ⟨e, params, name, rfl, hbloc, hend, hname, ho, rfl, rfl⟩
        | some inside =>
          rw [fst_closeNamed_of_some hname ho] at h
          cases h
  · rw [addLine_opening _ _ o hbloc hopen] at h
    cases h
  · rw [addLine_other _ _ o hother] at h
    cases h

/-- Whether one of the lines is an `end` line that, compiled after those in front of it, meets no
matching open bloc: the one with the given number and text. -/
def MeetsNoBloc (s : Surroundings) (first : Nat) (o : Outline) (lines : List String) (number : Nat)
    (text : String) : Prop :=
  ∃ before line after o' name, lines = before ++ line :: after ∧
    (compileFrom first o before).Yields s o' ∧ EndsBloc s line name ∧ o'.inside? name = none ∧
      number = first + before.length ∧ text = String.ofList (trim line.toList)

theorem MeetsNoBloc.cons {first number : Nat} {o o' : Outline} {rest : List String} {text : String}
    (hline : ∀ before, (compileFrom first o (line :: before) s).1 =
      (compileFrom (first + 1) o' before s).1)
    (h : MeetsNoBloc s (first + 1) o' rest number text) :
    MeetsNoBloc s first o (line :: rest) number text := by
  obtain ⟨before, last, after, o'', name, rfl, hbefore, hends, hnone, rfl, rfl⟩ := h
  refine ⟨line :: before, last, after, o'', name, rfl, (hline before).trans hbefore, hends, hnone,
    ?_, rfl⟩
  rw [List.length_cons]
  omega

/-- Lines fail for want of an open bloc exactly where an `end` line meets no matching one. The
induction finds the first line that fails. -/
theorem fst_compileFrom_eq_noOpenBloc_iff (first number : Nat) (text : String) (o : Outline)
    (lines : List String) :
    (compileFrom first o lines s).1 = .error (.parse (.noOpenBloc number text)) ↔
      MeetsNoBloc s first o lines number text := by
  constructor
  · intro herror
    induction lines generalizing first o with
    | nil => cases herror
    | cons line rest ih =>
      cases hline : isCode (trim line.toList) with
      | false =>
        have hskip (before : List String) := compileFrom_cons_other first o hline before
        rw [hskip] at herror
        exact (ih _ _ herror).cons fun before ↦ by rw [hskip]
      | true =>
        rw [compileFrom_cons_code first o hline, fst_bind] at herror
        cases hcall : (compileLine (String.ofList (trim line.toList)) s).1 with
        | error cause =>
          rw [hcall] at herror
          cases herror
          exact absurd ⟨number, text, rfl⟩ (needsNoBloc_compileLine _ _ hcall)
        | ok call =>
          rw [hcall, Except.bind, fst_bind] at herror
          have hsource := Yields.isSource_compileLine hcall
          cases hadd : (addLine first (String.ofList (trim line.toList)) call o s).1 with
          | error cause =>
            rw [hadd] at herror
            cases herror
            obtain ⟨e, params, name, rfl, hbloc, hend, hname, hnone, rfl, rfl⟩ :=
              exists_of_fst_addLine_eq_noOpenBloc hsource hadd
            exact ⟨[], line, rest, o, name, rfl, rfl, ⟨hline, e, params, hbloc, hend, hcall, hname⟩,
              hnone, rfl, rfl⟩
          | ok o' =>
            rw [hadd] at herror
            refine (ih _ _ herror).cons fun before ↦ ?_
            rw [compileFrom_cons_code first o hline, fst_bind, hcall, Except.bind, fst_bind, hadd,
              Except.bind]
  · rintro ⟨before, line, after, o', name, rfl, hbefore, hends, hnone, rfl, rfl⟩
    rw [fst_compileFrom_append first o hbefore, hends.fst_compileFrom_of_none hnone]

end

end Compiler

namespace Outline

/-- The names of the open blocs, the outermost first. -/
def names (o : Outline) : List String :=
  (o.functions.map Function.name).reverse

/-- Of the open blocs, the innermost one of a name is closed. -/
theorem inside?_of_names {o : Outline} {n : String} {outer inner : List String}
    (ho : o.names = outer ++ n :: inner) (hn : n ∉ inner) :
    o.inside? (some n) = some inner.length := by
  have hnames : o.functions.map Function.name = inner.reverse ++ n :: outer.reverse := by
    rw [List.reverse_eq_iff.1 ho]
    simp
  have hfind : o.inside? (some n) = (o.functions.map Function.name).findIdx? (· == n) := by
    rw [inside?_eq, List.findIdx?_map]
    rfl
  have hinner : (inner.reverse.findIdx? (· == n)) = none := by
    rw [List.findIdx?_eq_none_iff]
    intro other hother
    exact beq_false_of_ne fun h ↦ hn (h ▸ List.mem_reverse.1 hother)
  rw [hfind, hnames, List.findIdx?_append, hinner, List.findIdx?_cons]
  simp

theorem inside?_eq_none_iff {o : Outline} {n : String} :
    o.inside? (some n) = none ↔ n ∉ o.names := by
  rw [inside?_eq, names, List.findIdx?_eq_none_iff]
  simp

/-- Closing all open blocs is what the program of an outline begins with. -/
theorem program_closeBlocs (o : Outline) :
    (o.closeBlocs o.functions.length).program = o.program := by
  have hclosed : (o.closeBlocs o.functions.length).blocs.length = 0 := by
    rw [← length_functions, functions_closeBlocs, List.drop_length, List.length_nil]
  rw [program, hclosed, length_functions]
  rfl

end Outline

namespace Compiler

/-! ### Programs -/

section

variable {s : Surroundings}

theorem fst_compileLines (lines : List String) :
    (compileLines lines s).1 = (compileFrom 1 .empty lines s).1.map Outline.program := by
  rw [compileLines, fst_bind]
  cases (compileFrom 1 .empty lines s).1 <;> rfl

theorem fst_compileLines_eq_noOpenBloc_iff (lines : List String) (number : Nat) (text : String) :
    (compileLines lines s).1 = .error (.parse (.noOpenBloc number text)) ↔
      MeetsNoBloc s 1 .empty lines number text := by
  rw [fst_compileLines, ← fst_compileFrom_eq_noOpenBloc_iff]
  cases (compileFrom 1 .empty lines s).1 <;> simp [Except.map]

/-- Whether lines compile and leave blocs of the given names open, the outermost first. -/
def LeavesOpen (s : Surroundings) (lines : List String) (names : List String) : Prop :=
  ∃ o, (compileFrom 1 .empty lines).Yields s o ∧ o.names = names

/-! ### Lines of words -/

/-- The built-in function of `end` lines. -/
def endFunction : Function := ⟨"end", .bloc, none, .builtin .endBloc⟩

theorem isResolved_endFunction (hend : s.find "end" = some endFunction) :
    endFunction.IsResolved s where
  line := isTrimmedLine_of_solid (by decide) (by decide)
  word := ⟨isBlank_eq_false_of_all rfl, ⟨'e', ['n', 'd'], rfl, by decide, by decide⟩,
    fun _ _ h ↦ by cases h⟩
  denotes := evalWord_name rfl hend

/-- The word `end` and texts that read as tokens make up an `end` line. -/
theorem endsBloc_joinWith (hend : s.find "end" = some endFunction) {texts : List (List Char)}
    {tokens : List Value} (htexts : ∀ text ∈ texts, IsTrimmedLine text)
    (hback : List.Forall₂ (fun text token => ReadsBack s (String.ofList text) token) texts tokens)
    {name : Option String} (hname : (closedName tokens).Yields s name) :
    EndsBloc s (String.ofList (joinWith [' '] ("end".toList :: texts))) name := by
  have hresolved := isResolved_endFunction hend
  have htrim : trim (String.ofList (joinWith [' '] ("end".toList :: texts))).toList =
      joinWith [' '] ("end".toList :: texts) := by
    rw [String.toList_ofList]
    exact (isTrimmedLine_joinWith hresolved.line htexts).trim_eq
  have htokens : (tokenize (String.ofList (joinWith [' '] ("end".toList :: texts)))).Yields s
      (.function endFunction :: tokens) := by
    refine result_of_isLine ⟨[], ?_, .inl rfl⟩
    rw [String.toList_ofList]
    exact reads_joinWith (.cons hresolved.readsBack hback)
  refine ⟨?_, endFunction, tokens, rfl, rfl, ?_, hname⟩
  · rw [htrim]
    cases texts <;> rfl
  · rw [htrim, compileLine, ← Call.ofTokens_of_bloc rfl rfl]
    exact (yields_bind _ _ _).2 ⟨_, htokens, rfl⟩

/-- The line `end` is a bare `end` line. -/
theorem endsBloc_end (hend : s.find "end" = some endFunction) : EndsBloc s "end" none :=
  endsBloc_joinWith hend (List.forall_mem_nil _) .nil ((yields_pure _ _).2 rfl)

/-- The line of `end` and the name of a function is an `end` line of that name. -/
theorem endsBloc_end_name (hend : s.find "end" = some endFunction) {f : Function}
    (hf : f.IsResolved s) : EndsBloc s ("end " ++ f.name) (some f.name) := by
  have hline : "end " ++ f.name =
      String.ofList (joinWith [' '] ["end".toList, f.name.toList]) := by
    rw [← String.toList_inj, String.toList_append, joinWith_cons_cons, joinWith_singleton]
    exact String.toList_ofList.symm
  have hback : ReadsBack s (String.ofList f.name.toList) (.function f) := by
    rw [String.ofList_toList]
    exact hf.readsBack
  have hname : (closedName [.function f]).Yields s (some f.name) := rfl
  rw [hline]
  exact endsBloc_joinWith hend (List.forall_mem_singleton.2 hf.line) (.cons hback .nil) hname

/-! ### Named and missing ends -/

/-- A named `end` line comes to the bare `end` lines that it is short for, up to the numbers of the
lines behind. -/
theorem fst_compileLines_named (hend : s.find "end" = some endFunction)
    {before : List String} {line n : String} {outer inner : List String}
    (hbefore : LeavesOpen s before (outer ++ n :: inner)) (hn : n ∉ inner)
    (hline : EndsBloc s line (some n)) (after : List String) :
    (compileLines (before ++ List.replicate (inner.length + 1) "end" ++ after) s).1 =
      (compileLines (before ++ line :: after) s).1.mapError (Fault.later inner.length) := by
  obtain ⟨o, hfrom, hnames⟩ := hbefore
  have hinside := Outline.inside?_of_names hnames hn
  have hlength : inner.length + 1 ≤ o.functions.length := by
    have h := congrArg List.length hnames
    simp only [Outline.names, List.length_reverse, List.length_map, List.length_append,
      List.length_cons] at h
    omega
  have hnumber : 1 + before.length + (inner.length + 1) = 1 + before.length + 1 + inner.length := by
    omega
  have hmap (r : Except Fault Outline) :
      (r.mapError (Fault.later inner.length)).map Outline.program =
        (r.map Outline.program).mapError (Fault.later inner.length) := by
    cases r <;> rfl
  rw [fst_compileLines, fst_compileLines, List.append_assoc, fst_compileFrom_append 1 _ hfrom,
    fst_compileFrom_append 1 _ hfrom, fst_compileFrom_replicate (endsBloc_end hend) hlength,
    hline.fst_compileFrom_of_some hinside, hnumber, fst_compileFrom_later, hmap]

/-- Closing at the end what is still open changes nothing. -/
theorem fst_compileLines_missing (hend : s.find "end" = some endFunction) {lines : List String}
    {names : List String} (hlines : LeavesOpen s lines names) :
    (compileLines (lines ++ List.replicate names.length "end") s).1 = (compileLines lines s).1 := by
  obtain ⟨o, hfrom, rfl⟩ := hlines
  have hlength : o.names.length = o.functions.length := by
    rw [Outline.names, List.length_reverse, List.length_map]
  have hclose := fst_compileFrom_replicate (endsBloc_end hend) (Nat.le_of_eq hlength)
    (1 + lines.length) []
  rw [List.append_nil, compileFrom] at hclose
  rw [fst_compileLines, fst_compileLines, fst_compileFrom_append 1 _ hfrom, hclose, hfrom, hlength]
  exact congrArg Except.ok o.program_closeBlocs

/-- Where the word `end` denotes the built-in function:

* the line of `end` and the name of a resolved function is an `end` line of that name;
* an `end` line of a name that is open gives the same program as bare `end` lines for the innermost
  bloc of that name and for each bloc inside it, or fails alike: a line behind that is reported for
  want of an open bloc has a number that is smaller by the number of the lines saved;
* an `end` line of a name that is not open is reported with its number and its text;
* bare `end` lines for all blocs that are open at the end change nothing;
* lines are reported for want of an open bloc exactly if one of them is an `end` line that meets no
  matching open bloc;
* compiling on two stacks is compiling: no pop fails. -/
theorem compileLines_ends (hend : s.find "end" = some endFunction) :
    (∀ f : Function, f.IsResolved s → EndsBloc s ("end " ++ f.name) (some f.name)) ∧
    (∀ before line after outer n inner, LeavesOpen s before (outer ++ n :: inner) → n ∉ inner →
      EndsBloc s line (some n) →
        (compileLines (before ++ List.replicate (inner.length + 1) "end" ++ after) s).1 =
          (compileLines (before ++ line :: after) s).1.mapError (Fault.later inner.length)) ∧
    (∀ before line after names n, LeavesOpen s before names → n ∉ names →
      EndsBloc s line (some n) →
        (compileLines (before ++ line :: after) s).1 = .error (.parse
          (.noOpenBloc (1 + before.length) (String.ofList (trim line.toList))))) ∧
    (∀ lines names, LeavesOpen s lines names →
      (compileLines (lines ++ List.replicate names.length "end") s).1 = (compileLines lines s).1) ∧
    (∀ lines number text,
      (compileLines lines s).1 = .error (.parse (.noOpenBloc number text)) ↔
        MeetsNoBloc s 1 .empty lines number text) ∧
    ∀ lines, BlocStacks.compileLines lines = OptionT.lift (compileLines lines) := by
  refine ⟨fun f ↦ endsBloc_end_name hend, ?_, ?_, ?_, fst_compileLines_eq_noOpenBloc_iff,
    BlocStacks.compileLines_eq⟩
  · intro before line after outer n inner hbefore hn hline
    exact fst_compileLines_named hend hbefore hn hline after
  · rintro before line after names n ⟨o, hfrom, rfl⟩ hn hline
    rw [fst_compileLines_eq_noOpenBloc_iff]
    exact ⟨before, line, after, o, some n, rfl, hfrom, hline, Outline.inside?_eq_none_iff.2 hn,
      rfl, rfl⟩
  · intro lines names hlines
    exact fst_compileLines_missing hend hlines

end

/-! ### A loop inside a loop -/

open BlockProgram (builtinSurroundings Opens tokensOf opens_of_tokens addCode_header)

/-- The function of loops over collections. -/
def eachFunction : Function := ⟨"each", .bloc, none, .builtin .each⟩

/-- The function of loops under a condition. -/
def whileFunction : Function := ⟨"while", .bloc, none, .builtin .while⟩

/-- The lines that open a loop inside a loop. -/
def openLoops : List String := ["each null", "while true"]

theorem isResolved_eachFunction : eachFunction.IsResolved builtinSurroundings where
  line := isTrimmedLine_of_solid (by decide) (by decide)
  word := ⟨isBlank_eq_false_of_all rfl, ⟨'e', ['a', 'c', 'h'], rfl, by decide, by decide⟩,
    fun _ _ h ↦ by cases h⟩
  denotes := evalWord_name rfl rfl

theorem leavesOpen_openLoops : LeavesOpen builtinSurroundings openLoops ["each", "while"] := by
  have heach : Opens builtinSurroundings "each null" eachFunction := by
    refine opens_of_tokens (tokenize_words [("each", .function eachFunction), ("null", .null)]
      (by simp [Lexeme.scan, Text.isBlank]) ?_) rfl rfl (by decide)
    rw [List.forall_mem_cons, List.forall_mem_singleton]
    exact ⟨evalWord_name (by simp [Token.keyword?]) rfl, evalWord_keyword rfl⟩
  have hwhile : Opens builtinSurroundings "while true" whileFunction := by
    refine opens_of_tokens
      (tokenize_words [("while", .function whileFunction), ("true", .bool true)]
        (by simp [Lexeme.scan, Text.isBlank]) ?_) rfl rfl (by decide)
    rw [List.forall_mem_cons, List.forall_mem_singleton]
    exact ⟨evalWord_name (by simp [Token.keyword?]) rfl, evalWord_keyword rfl⟩
  have hopen : (openLoops.foldlM addCode .empty).Yields builtinSurroundings
      ((Outline.empty.openBloc eachFunction
        (tokensOf builtinSurroundings "each null").tail).openBloc
          whileFunction (tokensOf builtinSurroundings "while true").tail) := by
    rw [openLoops, List.foldlM_cons, yields_bind]
    refine ⟨_, addCode_header heach .empty, ?_⟩
    rw [List.foldlM_cons, yields_bind]
    exact ⟨_, addCode_header hwhile _, (yields_pure _ _).2 rfl⟩
  have hcode : codeLines openLoops = openLoops := by decide
  rw [← hcode] at hopen
  exact ⟨_, (yields_compileFrom_iff openLoops 1).2 hopen, rfl⟩

/-- The outer loop is closed by its name, and the inner one with it. -/
theorem compileLines_ends_openLoops :
    LeavesOpen builtinSurroundings openLoops ["each", "while"] ∧
    EndsBloc builtinSurroundings "end each" (some "each") ∧
    (∀ after, (compileLines (openLoops ++ ["end", "end"] ++ after) builtinSurroundings).1 =
      (compileLines (openLoops ++ "end each" :: after) builtinSurroundings).1.mapError
        (Fault.later 1)) ∧
    (∀ after, (compileLines ("end each" :: after) builtinSurroundings).1 =
      .error (.parse (.noOpenBloc 1 "end each"))) ∧
    (compileLines (openLoops ++ ["end", "end"]) builtinSurroundings).1 =
      (compileLines openLoops builtinSurroundings).1 := by
  obtain ⟨hnames, hnamed, hunmatched, hmissing, -, -⟩ :=
    compileLines_ends (s := builtinSurroundings) rfl
  have hline : EndsBloc builtinSurroundings "end each" (some "each") :=
    hnames eachFunction isResolved_eachFunction
  have htext : String.ofList (trim "end each".toList) = "end each" := by decide
  have hnone : LeavesOpen builtinSurroundings [] [] := ⟨.empty, (yields_pure _ _).2 rfl, rfl⟩
  refine ⟨leavesOpen_openLoops, hline, fun after ↦ ?_, fun after ↦ ?_, ?_⟩
  · exact hnamed openLoops "end each" after [] "each" ["while"] leavesOpen_openLoops (by decide)
      hline
  · rw [← htext]
    exact hunmatched [] "end each" after [] "each" hnone List.not_mem_nil hline
  · exact hmissing openLoops ["each", "while"] leavesOpen_openLoops

/-- With an `end` line too many behind, the named `end` line and the bare ones that it is short for
do not fail with the same number of the line. -/
theorem not_compileLines_ends_number :
    LeavesOpen builtinSurroundings openLoops ["each", "while"] ∧
    EndsBloc builtinSurroundings "end each" (some "each") ∧
    (compileLines (openLoops ++ "end each" :: ["end"]) builtinSurroundings).1 ≠
      (compileLines (openLoops ++ ["end", "end"] ++ ["end"]) builtinSurroundings).1 := by
  have hend : builtinSurroundings.find "end" = some endFunction := rfl
  have hline : EndsBloc builtinSurroundings "end each" (some "each") :=
    endsBloc_end_name hend isResolved_eachFunction
  have hopen : LeavesOpen builtinSurroundings openLoops ([] ++ "each" :: ["while"]) :=
    leavesOpen_openLoops
  have hnumber : (compileLines (openLoops ++ "end each" :: ["end"]) builtinSurroundings).1 =
      .error (.parse (.noOpenBloc 4 "end")) := by
    obtain ⟨o, hfrom, hnames⟩ := hopen
    have hclosed : (o.closeBlocs 2).functions = [] := by
      rw [Outline.functions_closeBlocs, List.drop_eq_nil_iff]
      have hlength := congrArg List.length hnames
      rw [Outline.names, List.length_reverse, List.length_map] at hlength
      exact Nat.le_of_eq hlength
    have hinside : o.inside? (some "each") = some 1 := Outline.inside?_of_names hnames (by decide)
    have hfront : (compileFrom 1 .empty (openLoops ++ ["end each"])).Yields builtinSurroundings
        (o.closeBlocs 2) := by
      rw [Yields, fst_compileFrom_append 1 _ hfrom, hline.fst_compileFrom_of_some hinside]
      rfl
    rw [fst_compileLines_eq_noOpenBloc_iff]
    refine ⟨openLoops ++ ["end each"], "end", [], _, none, rfl, hfront, endsBloc_end hend, ?_, rfl,
      by decide⟩
    rw [Outline.inside?_eq, hclosed]
    rfl
  have hbare := fst_compileLines_named hend hopen (by decide) hline ["end"]
  rw [hnumber] at hbare
  refine ⟨hopen, hline, fun h ↦ ?_⟩
  cases hnumber.symm.trans (h.trans hbare)

end Compiler

end ResourceScript

import ResourceScript.Proofs.Language.CodeLines
/-!
# Two stacks for blocs

The blocs open at a line can be kept in two stacks: their functions, and the parameters that each
has collected, over the calls outside of all blocs. Closing a bloc pops both stacks and adds the
call to the level that is then on top; nothing in the stacks themselves says that there is something
to pop. Here compiling works on such stacks, with operations that fail on stacks without what they
take or change.

The invariant is that the stacks are those of an outline (`BlocStacks.ofOutline`), which have one
level more than blocs. Therefore no operation fails, and compiling on stacks is compiling
(`BlocStacks.compileLines_eq`).
-/

set_option autoImplicit false

namespace ResourceScript

open Text

namespace Outline

/-! ### The open blocs of an outline -/

/-- The functions of the open blocs, the innermost first. -/
def functions (o : Outline) : List Function :=
  o.blocs.map OpenBloc.function

@[simp] theorem length_functions (o : Outline) : o.functions.length = o.blocs.length :=
  List.length_map _

@[simp] theorem functions_add (o : Outline) (call : Value) :
    (o.add call).functions = o.functions := by
  obtain ⟨_ | ⟨bloc, outer⟩, calls⟩ := o <;> rfl

@[simp] theorem functions_closeBloc (o : Outline) : o.closeBloc.functions = o.functions.tail := by
  obtain ⟨_ | ⟨bloc, outer⟩, calls⟩ := o
  · rfl
  · exact functions_add _ _

@[simp] theorem functions_closeBlocs (o : Outline) (count : Nat) :
    (o.closeBlocs count).functions = o.functions.drop count := by
  induction count generalizing o with
  | zero => rfl
  | succ count ih => rw [closeBlocs, ih, functions_closeBloc, List.drop_tail]

/-- Which bloc a name closes depends on the functions of the open blocs alone. -/
theorem inside?_eq (o : Outline) (name : Option String) :
    o.inside? name = o.functions.findIdx? fun f => name.all (f.name == ·) := by
  rw [inside?, functions, List.findIdx?_map]
  cases name <;> rfl

/-- The report of a closing names the functions of the open blocs alone. -/
theorem reportClosing_congr {o o' : Outline} (h : o.functions = o'.functions) :
    Compiler.reportClosing o = Compiler.reportClosing o' := by
  have hlength : o.blocs.length = o'.blocs.length := by
    rw [← length_functions, ← length_functions, h]
  have hnames (o : Outline) : (o.blocs.reverse.map fun bloc => quoted bloc.function.name.toList) =
      o.functions.reverse.map fun f => quoted f.name.toList := by
    rw [functions, ← List.map_reverse, List.map_map]
    rfl
  funext name inside
  simp only [Compiler.reportClosing, hnames, h, hlength]

end Outline

/-- The blocs open at a line in two stacks, whose tops stand first. -/
structure BlocStacks where
  /-- The functions of the open blocs. -/
  blocs : List Function
  /-- The parameters of the open blocs, and at the bottom the calls outside of all blocs. -/
  levels : List (List Value)

namespace BlocStacks

/-- The stacks before the first line. -/
def start : BlocStacks := ⟨[], [[]]⟩

/-- Adds a call to the top level, if there is one. -/
def add (k : BlocStacks) (call : Value) : Option BlocStacks := do
  let level ← k.levels.head?
  return { k with levels := (level ++ [call]) :: k.levels.tail }

/-- Opens a bloc. -/
def openBloc (k : BlocStacks) (f : Function) (header : List Value) : BlocStacks :=
  ⟨f :: k.blocs, header :: k.levels⟩

/-- Pops the top of both stacks, if they have one, and adds its call to the level below, if there
is one. -/
def closeBloc (k : BlocStacks) : Option BlocStacks := do
  let f ← k.blocs.head?
  let params ← k.levels.head?
  add ⟨k.blocs.tail, k.levels.tail⟩ (.call (some f) params)

/-- Closes a number of blocs, from the innermost outward. -/
def closeBlocs (k : BlocStacks) : (count : Nat) → Option BlocStacks
  | 0 => some k
  | count + 1 => do (← k.closeBloc).closeBlocs count

/-- The program of finished stacks: what is open is closed, and the bottom level holds the calls. -/
def program (k : BlocStacks) : Option Value := do
  let closed ← k.closeBlocs k.blocs.length
  let calls ← closed.levels.getLast?
  return .call (some Builtin.evalFunction) calls

/-- The depth of the innermost bloc of a name, the outermost one having depth 0; without a name the
depth of the innermost bloc. -/
def depth? (k : BlocStacks) (name : Option String) : Option Nat := do
  let inside ← k.blocs.findIdx? fun f => name.all (f.name == ·)
  return k.blocs.length - 1 - inside

/-- The outline of the open blocs alone, without what they have collected. -/
def openBlocs (k : BlocStacks) : Outline :=
  ⟨k.blocs.map fun f => ⟨f, []⟩, []⟩

/-- Closes the bloc that an `end` line names. -/
def closeNamed (number : Nat) (text : String) (params : List Value) (k : BlocStacks) :
    OptionT Compiler BlocStacks := do
  let name ← OptionT.lift (Compiler.closedName params)
  match k.depth? name with
  | none => OptionT.lift (Compiler.fail (.parse (.noOpenBloc number text)))
  | some depth => do
    OptionT.lift (Compiler.reportClosing k.openBlocs name (k.blocs.length - 1 - depth))
    OptionT.mk (pure (k.closeBlocs (k.blocs.length - depth)))

/-- Adds a compiled line to the stacks. -/
def addLine (number : Nat) (text : String) (call : Value) (k : BlocStacks) :
    OptionT Compiler BlocStacks :=
  match call with
  | .call (some f) params =>
    if f.isBloc && f.name == "end" then closeNamed number text params k
    else if f.isBloc then return k.openBloc f params
    else OptionT.mk (pure (k.add call))
  | _ => OptionT.mk (pure (k.add call))

/-- Compiles lines from a line number on. -/
def compileFrom (number : Nat) (k : BlocStacks) : List String → OptionT Compiler BlocStacks
  | [] => return k
  | line :: rest => do
    let text := trim line.toList
    if text.isEmpty || text.head? = some '#' then compileFrom (number + 1) k rest
    else
      let text := String.ofList text
      let call ← OptionT.lift (Compiler.compileLine text)
      compileFrom (number + 1) (← addLine number text call k) rest

/-- Compiles lines to a program. -/
def compileLines (lines : List String) : OptionT Compiler Value := do
  let k ← compileFrom 1 start lines
  OptionT.mk (pure k.program)

/-! ### The stacks of an outline -/

/-- The stacks of an outline. -/
def ofOutline (o : Outline) : BlocStacks :=
  ⟨o.functions, o.blocs.map OpenBloc.params ++ [o.calls]⟩

variable {o : Outline}

theorem add_ofOutline (call : Value) : (ofOutline o).add call = some (ofOutline (o.add call)) := by
  obtain ⟨_ | ⟨bloc, outer⟩, calls⟩ := o <;> rfl

/-- In the stacks of an outline, closing an open bloc finds all that it pops, and a level to add its
call to. -/
theorem closeBloc_ofOutline (ho : o.functions ≠ []) :
    (ofOutline o).closeBloc = some (ofOutline o.closeBloc) := by
  obtain ⟨_ | ⟨bloc, outer⟩, calls⟩ := o
  · exact absurd rfl ho
  · exact add_ofOutline (o := ⟨outer, calls⟩) (.call (some bloc.function) bloc.params)

theorem closeBlocs_ofOutline {count : Nat} (hcount : count ≤ o.functions.length) :
    (ofOutline o).closeBlocs count = some (ofOutline (o.closeBlocs count)) := by
  induction count generalizing o with
  | zero => rfl
  | succ count ih =>
    have ho : o.functions ≠ [] := List.ne_nil_of_length_pos (by omega)
    have hclose : count ≤ o.closeBloc.functions.length := by
      rw [Outline.functions_closeBloc, List.length_tail]
      omega
    rw [closeBlocs, closeBloc_ofOutline ho]
    exact ih hclose

theorem program_ofOutline (o : Outline) : (ofOutline o).program = some o.program := by
  have hclosed := closeBlocs_ofOutline (Nat.le_refl o.functions.length)
  have hlast : (ofOutline (o.closeBlocs o.functions.length)).levels.getLast? =
      some (o.closeBlocs o.functions.length).calls := List.getLast?_concat
  show ((ofOutline o).closeBlocs o.functions.length).bind _ = _
  rw [hclosed, Option.bind_some, hlast, o.length_functions]
  rfl

theorem depth?_ofOutline (name : Option String) :
    (ofOutline o).depth? name =
      (o.inside? name).map fun inside => o.functions.length - 1 - inside := by
  rw [Outline.inside?_eq]
  show ((o.functions.findIdx? _).bind fun inside => some _) = _
  exact Option.map_eq_bind.symm

theorem closeNamed_ofOutline (number : Nat) (text : String) (params : List Value) :
    closeNamed number text params (ofOutline o) =
      OptionT.lift (ofOutline <$> Compiler.closeNamed number text params o) := by
  have hopen : (ofOutline o).openBlocs.functions = o.functions := by
    simp [openBlocs, ofOutline, Outline.functions]
  unfold closeNamed Compiler.closeNamed
  rw [map_bind, OptionT.lift_bind]
  refine congrArg (Bind.bind (OptionT.lift (Compiler.closedName params))) (funext fun name ↦ ?_)
  rw [depth?_ofOutline]
  cases hinside : o.inside? name with
  | none => rfl
  | some inside =>
    have hlt : inside < o.functions.length := by
      rw [Outline.inside?_eq] at hinside
      exact (List.findIdx?_eq_some_iff_findIdx_eq.1 hinside).1
    have hplace : o.functions.length - 1 - (o.functions.length - 1 - inside) = inside := by omega
    have hcount : o.functions.length - (o.functions.length - 1 - inside) = inside + 1 := by omega
    have hclosed := closeBlocs_ofOutline (Nat.succ_le_of_lt hlt)
    show (OptionT.lift (Compiler.reportClosing (ofOutline o).openBlocs name
        (o.functions.length - 1 - (o.functions.length - 1 - inside))) >>= fun _ =>
          OptionT.mk (pure ((ofOutline o).closeBlocs
            (o.functions.length - (o.functions.length - 1 - inside))))) = _
    rw [hplace, hcount, hclosed, Outline.reportClosing_congr hopen, map_bind, OptionT.lift_bind]
    rfl

theorem addLine_ofOutline (number : Nat) (text : String) (call : Value) :
    addLine number text call (ofOutline o) =
      OptionT.lift (ofOutline <$> Compiler.addLine number text call o) := by
  rcases Compiler.closing_or_opening_or_other call with
    ⟨e, params, rfl, hbloc, hname⟩ | ⟨f, params, rfl, hbloc, hname⟩ | hcall
  · rw [Compiler.addLine_closing number text o hbloc hname, ← closeNamed_ofOutline]
    simp [addLine, hbloc, hname]
  · rw [Compiler.addLine_opening number text o hbloc hname, map_pure, OptionT.lift_pure]
    simp only [addLine, hbloc, beq_eq_false_iff_ne.2 hname, Bool.and_false, Bool.false_eq_true,
      if_false, if_true]
    rfl
  · rw [Compiler.addLine_other number text o hcall, map_pure, OptionT.lift_pure]
    have hadd : addLine number text call (ofOutline o) =
        OptionT.mk (pure ((ofOutline o).add call)) := by
      unfold addLine
      split
      · rename_i f params
        simp [hcall f params rfl]
      · rfl
    rw [hadd, add_ofOutline]
    rfl

theorem compileFrom_ofOutline (number : Nat) (lines : List String) :
    compileFrom number (ofOutline o) lines =
      OptionT.lift (ofOutline <$> Compiler.compileFrom number o lines) := by
  induction lines generalizing number o with
  | nil => rw [compileFrom, Compiler.compileFrom, map_pure, OptionT.lift_pure]
  | cons line rest ih =>
    rw [compileFrom, Compiler.compileFrom]
    split
    · exact ih (number + 1)
    · simp only [addLine_ofOutline, map_eq_pure_bind, OptionT.lift_bind, OptionT.lift_pure,
        bind_assoc, pure_bind]
      simp only [ih, map_eq_pure_bind, OptionT.lift_bind, OptionT.lift_pure]

/-- Compiling on two stacks is compiling, for all lines: no operation on the stacks fails. -/
theorem compileLines_eq (lines : List String) :
    compileLines lines = OptionT.lift (Compiler.compileLines lines) := by
  unfold compileLines Compiler.compileLines
  rw [show start = ofOutline .empty from rfl, compileFrom_ofOutline, map_eq_pure_bind]
  simp only [OptionT.lift_bind, OptionT.lift_pure, bind_assoc, pure_bind, program_ofOutline]
  rfl

end BlocStacks

end ResourceScript

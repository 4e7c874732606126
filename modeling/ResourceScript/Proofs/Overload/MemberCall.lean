import ResourceScript.Proofs.Session.Steps
import ResourceScript.Proofs.Task.Orders
/-!
# The arguments of member calls

The overload of a member is chosen by the values of the arguments, and the member is called with
values of the arguments. These are two rounds of executing them: a call that gets to the member has
executed every argument twice, in order, and the second round sees what the first has done
(`Script.callMember_executes_twice`). A call that does not get there has executed a beginning of the
two rounds.

One round is enough if the second does what the first has done (`Script.callMemberOnce`). So it is
for plain arguments, and for all that scripts can write, because the command that calls a member
executes its parameters before (`Library.runAt_member`).
-/

set_option autoImplicit false

namespace ResourceScript

namespace Script

variable {jobs : Job → Script Value} {target : Value} {name : String}
  {arguments values again : List Value} {overloads : List Overload} {chosen : Overload}
  {w v u : World}

/-- Scripts that begin alike do the same if they go on alike. -/
theorem bind_congr_of_ok {α β : Type} {x : Script α} {f g : α → Script β}
    (h : ∀ a v, x w = (.ok a, v) → f a v = g a v) : (x >>= f) w = (x >>= g) w := by
  rw [bind_apply, bind_apply]
  rcases hx : x w with ⟨stop | a, v⟩
  · rfl
  · exact h a v hx

/-! ### Members -/

theorem reads_cell (n : Nat) : (cell n).Reads :=
  .bind .store fun s ↦ .pure (s.cell n)

theorem reads_classOf? (info : ClassInfo) : (classOf? info).Reads :=
  .bind .surroundings fun _ ↦ .pure _

theorem reads_hostMembers (self : Value) (info : ClassInfo) (name : String) :
    (hostMembers self info name).Reads := by
  unfold hostMembers
  split
  · exact .pure []
  · refine .bind (reads_classOf? info) fun c ↦ ?_
    cases c with
    | none => exact .pure []
    | some c => exact .pure _

theorem reads_staticMembers (info : ClassInfo) (name : String) :
    (staticMembers info name).Reads := by
  refine .bind (reads_classOf? info) fun c ↦ ?_
  cases c with
  | none => exact .pure []
  | some c => exact .pure _

theorem reads_nativeMembers (a : Atom) (name : String) : (nativeMembers a name).Reads := by
  unfold nativeMembers
  split
  · exact .bind .surroundings fun _ ↦ .pure _
  · exact .pure []

/-- Looking for the overloads of a member only reads. -/
theorem reads_members (target : Value) (name : String) : (members target name).Reads := by
  unfold members
  split
  · exact .pure []
  · split
    · exact reads_staticMembers _ name
    · split
      · exact .pure _
      · exact reads_nativeMembers _ name
    · exact .pure _
    · exact .pure _
    · refine .bind (reads_cell _) fun content ↦ ?_
      split
      · exact reads_hostMembers _ _ name
      · exact .pure _
    · exact .pure []

/-! ### Rounds -/

/-- Calls one of some overloads: the arguments are executed to choose it, and again for the call. -/
def callTwice (name : String) (arguments : List Value) (overloads : List Overload) : Task Value := do
  let chosen ← Overload.select name overloads (← Task.executeAll arguments)
  chosen.call execute (← Task.executeAll arguments)

/-- Calls one of some overloads with the values of the arguments by which it is chosen. -/
def callOnce (name : String) (arguments : List Value) (overloads : List Overload) : Task Value := do
  let values ← Task.executeAll arguments
  let chosen ← Overload.select name overloads values
  chosen.call execute values

/-- Calls a member of a value, if it has the member; the calling of its overloads is given. -/
def callMemberWith (call : List Overload → Task Value) (target : Value) (name : String) :
    Task Value := do
  let overloads ← members target name
  if overloads.isEmpty then
    fail (.dispatch (.noMember ((← store).kindOf target).name name))
  call overloads

/-- Calls a member of a value, with the arguments executed only once. -/
def callMemberOnce (target : Value) (name : String) (arguments : List Value) : Task Value :=
  callMemberWith (callOnce name arguments) target name

theorem callMember_eq (target : Value) (name : String) (arguments : List Value) :
    callMember execute target name arguments =
      callMemberWith (callTwice name arguments) target name :=
  rfl

theorem callMemberWith_eq (call : List Overload → Task Value) (target : Value) (name : String) :
    callMemberWith call target name = members target name >>= fun overloads ↦
      if overloads.isEmpty then
        store >>= fun s ↦ fail (.dispatch (.noMember (s.kindOf target).name name))
      else call overloads := by
  refine congrArg (members target name >>= ·) (funext fun overloads ↦ ?_)
  cases overloads <;> rfl

theorem run_callMemberWith_cons (call : List Overload → Task Value) {first : Overload}
    {rest : List Overload}
    (hmembers : (members target name).run jobs w = (.ok (first :: rest), w)) :
    (callMemberWith call target name).run jobs w = (call (first :: rest)).run jobs w ∧
      (callMemberWith call target name).orders jobs w = (call (first :: rest)).orders jobs w := by
  obtain ⟨overloads, hrun, horders⟩ := reads_members target name jobs w
  cases hmembers.symm.trans hrun
  rw [callMemberWith_eq, Task.run_bind, bind_of_ok hrun, Task.orders_bind_of_ok hrun, horders]
  exact ⟨rfl, rfl⟩

theorem run_callMemberWith_nil (call : List Overload → Task Value)
    (hmembers : (members target name).run jobs w = (.ok [], w)) :
    (callMemberWith call target name).run jobs w =
        (.error (.fault (.dispatch (.noMember (w.store.kindOf target).name name))), w) ∧
      (callMemberWith call target name).orders jobs w = [] := by
  obtain ⟨overloads, hrun, horders⟩ := reads_members target name jobs w
  cases hmembers.symm.trans hrun
  rw [callMemberWith_eq, Task.run_bind, bind_of_ok hrun, Task.orders_bind_of_ok hrun, horders]
  exact ⟨rfl, rfl⟩

/-! ### Getting to a member -/

theorem run_select_of_some (jobs : Job → Script Value) (name : String)
    (h : Overload.select? v.store overloads values = some chosen) :
    (Overload.select name overloads values).run jobs v = (.ok chosen, v) ∧
      (Overload.select name overloads values).orders jobs v = [] := by
  have hstore : store.run jobs v = (.ok v.store, v) := rfl
  rw [Overload.select, Task.run_bind, bind_of_ok hstore, Task.orders_bind_of_ok hstore, h]
  exact ⟨rfl, rfl⟩

theorem run_select_of_none (jobs : Job → Script Value) (name : String)
    (h : Overload.select? v.store overloads values = none) :
    (Overload.select name overloads values).run jobs v =
        (.error (.fault (.dispatch (.noOverload name values.length))), v) ∧
      (Overload.select name overloads values).orders jobs v = [] := by
  have hstore : store.run jobs v = (.ok v.store, v) := rfl
  rw [Overload.select, Task.run_bind, bind_of_ok hstore, Task.orders_bind_of_ok hstore, h]
  exact ⟨rfl, rfl⟩

/-- Whether a call gets to one of some overloads: a first round of executing the arguments answers
the values by which the overload is chosen, and a second round, in the world that the first has
left, answers those that it is called with. -/
def GetsTo (jobs : Job → Script Value) (arguments : List Value) (overloads : List Overload)
    (w : World) (chosen : Overload) (again : List Value) (u : World) : Prop :=
  ∃ values v, ExecutesEach jobs arguments w values v ∧
    Overload.select? v.store overloads values = some chosen ∧ ExecutesEach jobs arguments v again u

/-- A call that gets to an overload has executed the arguments twice before. -/
theorem run_callTwice_of_getsTo (h : GetsTo jobs arguments overloads w chosen again u) :
    (callTwice name arguments overloads).run jobs w = (chosen.call execute again).run jobs u ∧
      (callTwice name arguments overloads).orders jobs w =
        arguments.map .execute ++ (arguments.map .execute ++
          (chosen.call execute again).orders jobs u) := by
  obtain ⟨values, v, hfirst, hchosen, hagain⟩ := h
  obtain ⟨hselect, hnone⟩ := run_select_of_some jobs name hchosen
  rw [callTwice, Task.run_bind, bind_of_ok hfirst.run_eq, Task.run_bind, bind_of_ok hselect,
    Task.run_bind, bind_of_ok hagain.run_eq, Task.orders_bind_of_ok hfirst.run_eq,
    Task.orders_bind_of_ok hselect, Task.orders_bind_of_ok hagain.run_eq, hnone, hfirst.orders_eq,
    hagain.orders_eq]
  exact ⟨rfl, rfl⟩

/-- A call that gets to no overload stops behind a beginning of the two rounds. -/
theorem run_callTwice_of_not_getsTo
    (h : ∀ chosen again u, ¬ GetsTo jobs arguments overloads w chosen again u) :
    ∃ stop v, (callTwice name arguments overloads).run jobs w = (.error stop, v) ∧
      (callTwice name arguments overloads).orders jobs w <+:
        arguments.map .execute ++ arguments.map .execute := by
  rw [callTwice, Task.run_bind]
  rcases hfirst : (Task.executeAll arguments).run jobs w with ⟨stop | values, v⟩
  · rw [bind_of_error hfirst, Task.orders_bind_of_error hfirst]
    exact ⟨stop, v, rfl, (Task.orders_executeAll_prefix jobs arguments w).trans
      (List.prefix_append _ _)⟩
  have hround := Task.run_executeAll_eq_ok_iff.1 hfirst
  rw [bind_of_ok hfirst, Task.orders_bind_of_ok hfirst, hround.orders_eq, Task.run_bind]
  rcases hchosen : Overload.select? v.store overloads values with _ | chosen
  · obtain ⟨hselect, hnone⟩ := run_select_of_none jobs name hchosen
    rw [bind_of_error hselect, Task.orders_bind_of_error hselect, hnone, List.append_nil]
    exact ⟨_, v, rfl, List.prefix_append _ _⟩
  obtain ⟨hselect, hnone⟩ := run_select_of_some jobs name hchosen
  rw [bind_of_ok hselect, Task.orders_bind_of_ok hselect, hnone, List.nil_append, Task.run_bind]
  rcases hagain : (Task.executeAll arguments).run jobs v with ⟨stop | again, u⟩
  · rw [bind_of_error hagain, Task.orders_bind_of_error hagain]
    exact ⟨stop, u, rfl, (List.prefix_append_right_inj _).2
      (Task.orders_executeAll_prefix jobs arguments v)⟩
  · exact absurd ⟨values, v, hround, hchosen, Task.run_executeAll_eq_ok_iff.1 hagain⟩
      (h chosen again u)

/-- A call with one round gets to the overload that the values of the arguments choose, with each
argument executed once before. -/
theorem run_callOnce_of_some (hround : ExecutesEach jobs arguments w values v)
    (hchosen : Overload.select? v.store overloads values = some chosen) :
    (callOnce name arguments overloads).run jobs w = (chosen.call execute values).run jobs v ∧
      (callOnce name arguments overloads).orders jobs w =
        arguments.map .execute ++ (chosen.call execute values).orders jobs v := by
  obtain ⟨hselect, hnone⟩ := run_select_of_some jobs name hchosen
  rw [callOnce, Task.run_bind, bind_of_ok hround.run_eq, Task.run_bind, bind_of_ok hselect,
    Task.orders_bind_of_ok hround.run_eq, Task.orders_bind_of_ok hselect, hnone, hround.orders_eq]
  exact ⟨rfl, rfl⟩

/-- A second round that does what the first has done changes nothing. -/
theorem run_callTwice_eq_callOnce (hfirst : ExecutesEach jobs arguments w values v)
    (hagain : ExecutesEach jobs arguments v values v) :
    (callTwice name arguments overloads).run jobs w =
      (callOnce name arguments overloads).run jobs w := by
  rcases hchosen : Overload.select? v.store overloads values with _ | chosen
  · have hselect := (run_select_of_none jobs name hchosen).1
    rw [callTwice, callOnce, Task.run_bind, bind_of_ok hfirst.run_eq, Task.run_bind, Task.run_bind,
      bind_of_ok hfirst.run_eq, Task.run_bind, bind_of_error hselect, bind_of_error hselect]
  · rw [(run_callTwice_of_getsTo ⟨values, v, hfirst, hchosen, hagain⟩).1,
      (run_callOnce_of_some hfirst hchosen).1]

/-- So it is for the call of a member. -/
theorem run_callMember_eq_callMemberOnce (target : Value) (name : String)
    (hfirst : ExecutesEach jobs arguments w values v)
    (hagain : ExecutesEach jobs arguments v values v) :
    (callMember execute target name arguments).run jobs w =
      (callMemberOnce target name arguments).run jobs w := by
  obtain ⟨overloads, hmembers, -⟩ := reads_members target name jobs w
  rw [callMember_eq, callMemberOnce]
  cases overloads with
  | nil => rw [(run_callMemberWith_nil _ hmembers).1, (run_callMemberWith_nil _ hmembers).1]
  | cons first rest =>
    rw [(run_callMemberWith_cons _ hmembers).1, (run_callMemberWith_cons _ hmembers).1,
      run_callTwice_eq_callOnce hfirst hagain]

/-- A call that gets to a member has executed every argument once to choose the overload and, in the
world that this has left, once more for the call: in order, all of them, before the member runs. A
call that does not get to a member stops behind a beginning of these two rounds. If the second round
does what the first has done, the call is the same as with the arguments executed once. -/
theorem callMember_executes_twice (jobs : Job → Script Value) (target : Value) (name : String)
    (arguments : List Value) (w : World) :
    ∃ overloads, (members target name).run jobs w = (.ok overloads, w) ∧
      (∀ chosen again u, GetsTo jobs arguments overloads w chosen again u →
        (callMember execute target name arguments).run jobs w =
            (chosen.call execute again).run jobs u ∧
          (callMember execute target name arguments).orders jobs w =
            arguments.map .execute ++ (arguments.map .execute ++
              (chosen.call execute again).orders jobs u)) ∧
      ((∀ chosen again u, ¬ GetsTo jobs arguments overloads w chosen again u) →
        ∃ stop v, (callMember execute target name arguments).run jobs w = (.error stop, v) ∧
          (callMember execute target name arguments).orders jobs w <+:
            arguments.map .execute ++ arguments.map .execute) ∧
      ∀ values v, ExecutesEach jobs arguments w values v → ExecutesEach jobs arguments v values v →
        (callMember execute target name arguments).run jobs w =
          (callMemberOnce target name arguments).run jobs w := by
  obtain ⟨overloads, hmembers, -⟩ := reads_members target name jobs w
  refine ⟨overloads, hmembers, ?_, ?_, fun values v ↦ run_callMember_eq_callMemberOnce target name⟩
  · intro chosen again u hgets
    rw [callMember_eq]
    cases overloads with
    | nil =>
      obtain ⟨_, _, -, hchosen, -⟩ := hgets
      cases hchosen
    | cons first rest =>
      rw [(run_callMemberWith_cons _ hmembers).1, (run_callMemberWith_cons _ hmembers).2]
      exact run_callTwice_of_getsTo hgets
  · intro hnot
    rw [callMember_eq]
    cases overloads with
    | nil =>
      rw [(run_callMemberWith_nil _ hmembers).1, (run_callMemberWith_nil _ hmembers).2]
      exact ⟨_, w, rfl, List.nil_prefix⟩
    | cons first rest =>
      rw [(run_callMemberWith_cons _ hmembers).1, (run_callMemberWith_cons _ hmembers).2]
      exact run_callTwice_of_not_getsTo hnot

/-- A call that prints a letter. -/
def printLetter : Value :=
  .call (some ⟨"print", .command, none, .builtin .print⟩) [.text "b"]

/-- Searching for a letter that an argument prints finds it, and prints it twice. -/
theorem callMember_executes_twice_printLetter :
    (∃ inside, (callMember execute (.text "abc") "find" [printLetter]).orders (Job.run 3)
        builtinWorld = .execute printLetter :: .execute printLetter :: inside) ∧
      ((callMember execute (.text "abc") "find" [printLetter]).run (Job.run 3)
        builtinWorld).2.output = ["b\n", "b\n"] ∧
      ((callMemberOnce (.text "abc") "find" [printLetter]).run (Job.run 3)
        builtinWorld).2.output = ["b\n"] := by
  have hfound : ((callMember execute (.text "abc") "find" [printLetter]).run (Job.run 3)
    builtinWorld).1 = .ok (.int 1) := by decide +kernel
  obtain ⟨overloads, -, hgets, hnot, -⟩ :=
    callMember_executes_twice (Job.run 3) (.text "abc") "find" [printLetter] builtinWorld
  refine ⟨?_, by decide +kernel, by decide +kernel⟩
  by_contra hnone
  have hall : ∀ chosen again u,
      ¬ GetsTo (Job.run 3) [printLetter] overloads builtinWorld chosen again u :=
    fun chosen again u h ↦ hnone ⟨_, (hgets chosen again u h).2⟩
  obtain ⟨stop, v, hstop, -⟩ := hnot hall
  rw [hstop] at hfound
  cases hfound

end Script

namespace ExecutesEach

variable {values results : List Value} {w v : World} {depth : Nat}

/-- What executing values answers is plain. -/
theorem isPlain (h : ExecutesEach (Job.run depth) values w results v) :
    ∀ result ∈ results, result.IsPlain := by
  induction h with
  | nil => nofun
  | cons hfirst _ ih =>
    exact List.forall_mem_cons.2 ⟨Job.answers_isPlain depth _ _ _ _ hfirst, ih⟩

/-- Executing plain values does nothing. -/
theorem of_isPlain (hvalues : ∀ value ∈ values, value.IsPlain) (depth : Nat) (w : World) :
    ExecutesEach (Job.run (depth + 1)) values w values w := by
  induction values with
  | nil => exact .nil w
  | cons value rest ih =>
    obtain ⟨hvalue, hrest⟩ := List.forall_mem_cons.1 hvalues
    refine .cons ?_ (ih hrest)
    rw [Job.run_execute_of_isPlain hvalue]
    rfl

end ExecutesEach

namespace Library

/-- Calls a member of the value of the first parameter; how is given. -/
def memberWith (call : Value → String → List Value → Task Value) (r : Runner)
    (params : List Value) : Task Value := do
  let subject ← r.execute (parameter params 0)
  let name ← key r (parameter params 1)
  let arguments ← (params.drop 2).mapM r.execute
  match name with
  | .text name => do r.execute (← call subject name arguments)
  | _ => Script.fail .type

theorem member_eq (r : Runner) (params : List Value) :
    member r params = memberWith (Script.callMember r.execute) r params :=
  rfl

/-- The command that calls a member does so with the arguments executed once: it executes its
parameters before, and executing what they answer does nothing. -/
theorem runAt_member (params : List Value) (depth : Nat) (w : World) :
    (member .standard params).runAt depth w =
      (memberWith Script.callMemberOnce .standard params).runAt depth w := by
  rw [member_eq, Task.runAt, Task.runAt, memberWith, memberWith, Task.run_bind, Task.run_bind]
  refine Script.bind_congr_of_ok fun subject v hsubject ↦ ?_
  rw [Task.run_bind, Task.run_bind]
  refine Script.bind_congr_of_ok fun name u _ ↦ ?_
  rw [Task.run_bind, Task.run_bind]
  refine Script.bind_congr_of_ok fun arguments t harguments ↦ ?_
  cases depth with
  | zero => cases hsubject
  | succ depth =>
    have hplain : ∀ argument ∈ arguments, argument.IsPlain :=
      (Task.run_executeAll_eq_ok_iff.1 harguments).isPlain
    have hround := ExecutesEach.of_isPlain hplain depth t
    split
    · rename_i name _
      have hcall := Script.run_callMember_eq_callMemberOnce subject name hround hround
      rw [Task.run_bind, Task.run_bind, Script.bind_apply, Script.bind_apply, ← hcall]
      rfl
    · rfl

end Library

end ResourceScript

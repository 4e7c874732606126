import ResourceScript.Proofs.Resource.PutAndGet
import ResourceScript.Proofs.Session.Steps
/-!
# Loops over the items of a list

A bloc `each` goes through a list that its own lines may change. A round puts an item into the
variable and runs the lines (`Library.round`); which item that is, and whether there is one, is what
the list has at the position of the round when the round begins (`Library.Offers`).

`Library.run_each` tells what follows from that. As long as the list still has at each position what
it had there when the loop was entered, the loop is one round for each of these items in order; so it
is when the rounds leave the list alone (`Library.offers_of_keeps`). A loop that ends has made one
round for each of some items, which are those that the list had at the positions one after the other,
up to the first position that it did not have: lines that delete, put or post change which items
these are.

Loops are followed for the number of rounds that the world gives, which may be any. One that comes to
an end does the same however many more rounds it is given (`Library.run_eachFrom_add`, `Library.run_whileFrom_add`).
-/

set_option autoImplicit false

namespace ResourceScript

/-! ### Items of lists -/

namespace Store

variable {s : Store} {n : Nat}

/-- The item at a position of the list in a container. -/
def itemAt (s : Store) (n position : Nat) : Option Value :=
  match s.cell n with
  | .list items => items[position]?
  | _ => none

theorem itemAt_of_list {items : List Value} (h : s.cell n = .list items) (position : Nat) :
    s.itemAt n position = items[position]? := by
  rw [itemAt, h]

/-- What is bound in a scope is looked up there, if it has no constant of that name. -/
theorem lookup_bind {key : String} (hn : n < s.scopes.size)
    (hconstant : findEntry s.same (.text key) (s.scope n).constants = none) (value : Value) :
    (s.bind n (.text key) value).1.lookup n (.text key) = some value := by
  rw [lookup, findEntry_atom _ s fun _ ↦ Atom.noConfusion, bind]
  simp only [hconstant]
  obtain ⟨outer, houter⟩ := exists_bindings_eq_append (s.setScope n { s.scope n with
    changeable := putEntry s.same (.text key) value (s.scope n).changeable }) n
  rw [houter, scope_setScope_self hn, findEntry_append, findEntry_append, hconstant,
    findEntry_putEntry_self (same_text_iff.2 rfl)]
  rfl

end Store

/-! ### The variable -/

namespace World

/-- The world in which a variable of the current scope is bound. -/
def bound (w : World) (key : String) (item : Value) : World :=
  { w.scope.2 with store := (w.scope.2.store.bind w.scope.1 (.text key) item).1 }

/-- Whether the current scope has a place for a variable: the scope, if there is one already, is one
of the store and has no constant of that name. -/
def HasPlaceFor (w : World) (key : String) : Prop :=
  ∀ n, w.current = some n → n < w.store.scopes.size ∧
    findEntry w.store.same (.text key) (w.store.scope n).constants = none

/-- A bound variable is looked up in the current scope. -/
theorem lookup_bound {w : World} {key : String} (hplace : w.HasPlaceFor key) (item : Value) :
    ∃ n, (w.bound key item).current = some n ∧
      (w.bound key item).store.lookup n (.text key) = some item := by
  cases hcurrent : w.current with
  | some n =>
    obtain ⟨hn, hconstant⟩ := hplace n hcurrent
    have hscope : w.scope = (n, w) := by simp only [scope, hcurrent]
    rw [bound, hscope]
    exact ⟨n, hcurrent, Store.lookup_bind hn hconstant item⟩
  | none =>
    have hscope : w.scope = (w.store.scopes.size, { w with
        store := (w.store.addScope ⟨none, [], [], []⟩).1, current := some w.store.scopes.size }) := by
      simp only [scope, hcurrent]
      rfl
    have hnew : (w.store.addScope ⟨none, [], [], []⟩).1.scope w.store.scopes.size =
        ⟨none, [], [], []⟩ := by
      simp [Store.scope, Store.addScope, Array.getD_eq_getD_getElem?]
    rw [bound, hscope]
    refine ⟨w.store.scopes.size, rfl, Store.lookup_bind ?_ ?_ item⟩
    · simp [Store.addScope]
    · rw [hnew]
      rfl

end World

namespace Script

variable {jobs : Job → Script Value} {execute : Value → Task Value} {r : ResourceRef}
  {uri key : String} {item : Value} {w : World}

/-- A value that executes to itself is bound in the current scope when it is put into a variable. -/
theorem run_putData_variable (huri : (w.store.resource r).uri = some uri)
    (hplace : Location.place uri = .variable) (hsegments : Location.segments uri = [key])
    (hexecute : ∀ v : World, (execute item).run jobs v = (.ok item, v)) :
    (putData execute r item).run jobs w = (.ok true, w.bound key item) := by
  have hscope : (walkFrom .variable []).run jobs w = (.ok (.scope w.scope.1), w.scope.2) := rfl
  refine run_operate_of_ok huri ?_
  rw [hplace]
  show (putVariable execute .variable uri item).run jobs w = _
  unfold putVariable
  simp only [hsegments, List.getLast?_singleton, List.dropLast_singleton]
  rw [Task.run_bind, bind_of_ok hscope]
  show (execute item >>= fun data ↦ putValue (.scope w.scope.1) (.text key) data).run jobs _ = _
  rw [Task.run_bind, bind_of_ok (hexecute _)]
  rfl

/-- Runs that go on in different ways are the same if the ways are, where the first does not stop for
a reason that is left out. -/
theorem bind_eq_of_stop_ne {α β : Type} {x : Script α} {next next' : α → Script β} {stop : Stop}
    {w : World} (hended : ((x >>= next) w).1 ≠ .error stop)
    (hnext : ∀ a u, (next a u).1 ≠ .error stop → next' a u = next a u) :
    (x >>= next') w = (x >>= next) w := by
  rcases hx : x w with ⟨reason | a, u⟩
  · rw [bind_of_error hx, bind_of_error hx]
  · rw [bind_of_ok hx] at hended ⊢
    rw [bind_of_ok hx]
    exact hnext a u hended

end Script

namespace Library

open Script (bind_apply bind_of_ok bind_of_error bind_eq_ok_iff)

variable {r : Runner} {jobs : Job → Script Value} {n position rounds : Nat} {target : ResourceRef}
  {lines : List Value} {start result item condition : Value} {visited : List Value} {w u v : World}

/-! ### Rounds -/

/-- One round of a loop: the item is put into the variable, and the lines are run. -/
def round (r : Runner) (target : ResourceRef) (lines : List Value) (result item : Value) :
    Task Value := do
  discard (Script.putData r.execute target item)
  runLines r lines result

/-- One round of a loop for each of some items, in order. -/
def roundFor (r : Runner) (target : ResourceRef) (lines : List Value) (start : Value)
    (items : List Value) : Task Value :=
  items.foldlM (round r target lines) start

theorem run_roundFor_cons (item : Value) (rest : List Value) (w : World) :
    (roundFor r target lines start (item :: rest)).run jobs w =
      ((round r target lines start item).run jobs >>= fun next ↦
        (roundFor r target lines next rest).run jobs) w := by
  rw [roundFor, List.foldlM_cons, Task.run_bind]
  rfl

/-- A loop that may go on looks for the item at its position and makes a round for it. -/
theorem run_eachFrom_succ (rounds position : Nat) (result : Value) (w : World) :
    (eachFrom r n target lines (rounds + 1) position result).run jobs w =
      match w.store.itemAt n position with
      | none => (.ok result, w)
      | some item => ((round r target lines result item).run jobs >>= fun next ↦
          (eachFrom r n target lines rounds (position + 1) next).run jobs) w := by
  have hcell : (Script.cell n).run jobs w = (.ok (w.store.cell n), w) := rfl
  rw [eachFrom, Task.run_bind, bind_of_ok hcell, Store.itemAt]
  cases w.store.cell n with
  | list items =>
    dsimp only
    cases items[position]? with
    | none => rfl
    | some item =>
      dsimp only
      rw [← Task.run_bind, round, bind_assoc]
  | _ => rfl

/-! ### More rounds -/

/-- A loop that may go on looks whether the condition holds, and runs the lines if it does. -/
theorem run_whileFrom_succ (rounds : Nat) (result : Value) (w : World) :
    (whileFrom r condition lines (rounds + 1) result).run jobs w =
      ((truth r condition).run jobs >>= fun holds ↦
        if holds then
          (runLines r lines result).run jobs >>= fun next ↦
            (whileFrom r condition lines rounds next).run jobs
        else pure result) w := by
  rw [whileFrom, Task.run_bind]
  refine congrFun (congrArg _ (funext fun holds ↦ ?_)) w
  cases holds with
  | true => exact Task.run_bind ..
  | false => rfl

/-- A loop over a list that comes to an end does the same when it is followed for more rounds. -/
theorem run_eachFrom_add (more : Nat)
    (hended : ((eachFrom r n target lines rounds position start).run jobs w).1 ≠
      .error (.fault .unfinished)) :
    (eachFrom r n target lines (rounds + more) position start).run jobs w =
      (eachFrom r n target lines rounds position start).run jobs w := by
  induction rounds generalizing position start w with
  | zero => exact absurd rfl hended
  | succ rounds ih =>
    rw [Nat.succ_add]
    rw [run_eachFrom_succ] at hended ⊢
    rw [run_eachFrom_succ]
    cases hitem : w.store.itemAt n position with
    | none => rfl
    | some item =>
      rw [hitem] at hended
      exact Script.bind_eq_of_stop_ne hended fun next u ↦ ih

/-- A loop with a condition that comes to an end does the same when it is followed for more
rounds. -/
theorem run_whileFrom_add (more : Nat)
    (hended : ((whileFrom r condition lines rounds start).run jobs w).1 ≠
      .error (.fault .unfinished)) :
    (whileFrom r condition lines (rounds + more) start).run jobs w =
      (whileFrom r condition lines rounds start).run jobs w := by
  induction rounds generalizing start w with
  | zero => exact absurd rfl hended
  | succ rounds ih =>
    rw [Nat.succ_add]
    rw [run_whileFrom_succ] at hended ⊢
    rw [run_whileFrom_succ]
    refine Script.bind_eq_of_stop_ne hended fun holds u hround ↦ ?_
    cases holds with
    | false => rfl
    | true => exact Script.bind_eq_of_stop_ne hround fun next v ↦ ih

/-! ### What a list offers -/

/-- Whether a list offers items to a loop that is at a position: it has each of them at its position
when the round for it begins, and has nothing behind the last when no item is left. -/
def Offers (jobs : Job → Script Value) (r : Runner) (target : ResourceRef) (lines : List Value)
    (n position : Nat) (start : Value) (w : World) (visited : List Value) : Prop :=
  ∀ i ≤ visited.length, ∀ next u,
    (roundFor r target lines start (visited.take i)).run jobs w = (.ok next, u) →
      u.store.itemAt n (position + i) = visited[i]?

theorem Offers.itemAt (h : Offers jobs r target lines n position start w visited) :
    w.store.itemAt n position = visited.head? := by
  rw [List.head?_eq_getElem?]
  exact h 0 (Nat.zero_le _) start w rfl

/-- After a round, the list offers the items that are left. -/
theorem Offers.tail {rest : List Value} {next : Value}
    (h : Offers jobs r target lines n position start w (item :: rest))
    (hround : (round r target lines start item).run jobs w = (.ok next, u)) :
    Offers jobs r target lines n (position + 1) next u rest := by
  intro i hi last v hrun
  have hall := h (i + 1) (Nat.succ_le_succ hi) last v (by
    rw [List.take_succ_cons, run_roundFor_cons, bind_of_ok hround]
    exact hrun)
  rwa [Nat.add_assoc, Nat.add_comm 1 i]

theorem offers_nil (h : w.store.itemAt n position = none) :
    Offers jobs r target lines n position start w [] := by
  intro i hi next u hrun
  obtain rfl := Nat.le_zero.mp hi
  cases hrun
  exact h

/-- A list that has an item and, after the round for it, offers others offers them all. -/
theorem offers_cons {rest : List Value} (hitem : w.store.itemAt n position = some item)
    (hrest : ∀ next u, (round r target lines start item).run jobs w = (.ok next, u) →
      Offers jobs r target lines n (position + 1) next u rest) :
    Offers jobs r target lines n position start w (item :: rest) := by
  intro i hi last v hrun
  cases i with
  | zero =>
    cases hrun
    exact hitem
  | succ i =>
    rw [List.take_succ_cons, run_roundFor_cons] at hrun
    obtain ⟨next, u, hround, hafter⟩ := bind_eq_ok_iff.1 hrun
    have hseen := hrest next u hround i (Nat.le_of_succ_le_succ hi) last v hafter
    rwa [Nat.add_assoc, Nat.add_comm 1 i] at hseen

/-! ### Loops -/

/-- A loop makes a round for each of the items that the list offers. -/
theorem run_eachFrom_of_offers (hrounds : visited.length < rounds)
    (hoffers : Offers jobs r target lines n position start w visited) :
    (eachFrom r n target lines rounds position start).run jobs w =
      (roundFor r target lines start visited).run jobs w := by
  induction visited generalizing rounds position start w with
  | nil =>
    obtain ⟨rounds, rfl⟩ := Nat.exists_eq_add_one_of_ne_zero (Nat.ne_of_gt hrounds)
    rw [run_eachFrom_succ, hoffers.itemAt]
    rfl
  | cons item rest ih =>
    obtain ⟨rounds, rfl⟩ := Nat.exists_eq_add_one_of_ne_zero (Nat.ne_of_gt (Nat.zero_lt_of_lt hrounds))
    rw [run_eachFrom_succ, hoffers.itemAt, run_roundFor_cons]
    show ((round r target lines start item).run jobs >>= _) w = _
    rw [bind_apply, bind_apply]
    rcases hround : (round r target lines start item).run jobs w with ⟨stop | next, u⟩
    · rfl
    · exact ih (Nat.lt_of_succ_lt_succ hrounds) (hoffers.tail hround)

/-- A loop that ends has made a round for each of some items that the list has offered. -/
theorem exists_offers_of_run_eachFrom
    (hrun : (eachFrom r n target lines rounds position start).run jobs w = (.ok result, v)) :
    ∃ visited, Offers jobs r target lines n position start w visited ∧
      (roundFor r target lines start visited).run jobs w = (.ok result, v) := by
  induction rounds generalizing position start w with
  | zero => cases hrun
  | succ rounds ih =>
    rw [run_eachFrom_succ] at hrun
    cases hitem : w.store.itemAt n position with
    | none =>
      rw [hitem] at hrun
      cases hrun
      exact ⟨[], offers_nil hitem, rfl⟩
    | some item =>
      rw [hitem] at hrun
      obtain ⟨next, u, hround, hafter⟩ := bind_eq_ok_iff.1 hrun
      obtain ⟨rest, hoffers, hrest⟩ := ih hafter
      refine ⟨item :: rest, offers_cons hitem fun next' u' hround' ↦ ?_, ?_⟩
      · cases hround.symm.trans hround'
        exact hoffers
      · rw [run_roundFor_cons, bind_of_ok hround]
        exact hrest

/-- Rounds that leave the list as it is have all its items offered. -/
theorem offers_of_keeps {items : List Value} (hlist : w.store.cell n = .list items)
    (hkeeps : ∀ result item next t t', t.store.cell n = .list items →
      (round r target lines result item).run jobs t = (.ok next, t') →
        t'.store.cell n = .list items) (start : Value) :
    Offers jobs r target lines n 0 start w items := by
  have hkept : ∀ (some : List Value) result t next t', t.store.cell n = .list items →
      (roundFor r target lines result some).run jobs t = (.ok next, t') →
        t'.store.cell n = .list items := by
    intro some
    induction some with
    | nil =>
      intro result t next t' ht hrun
      cases hrun
      exact ht
    | cons item rest ih =>
      intro result t next t' ht hrun
      rw [run_roundFor_cons] at hrun
      obtain ⟨middle, v, hround, hafter⟩ := bind_eq_ok_iff.1 hrun
      exact ih middle v next t' (hkeeps result item middle t v ht hround) hafter
  intro i _ next u hrun
  rw [Store.itemAt_of_list (hkept _ start w next u hlist hrun), Nat.zero_add]

/-- A bloc `each` over a list is a loop from the beginning of the list. -/
theorem run_each_eq {params source : List Value} {name : Value} {items : List Value}
    (hheader : (splitBloc params).1 = source ++ [name]) (hlines : (splitBloc params).2 = lines)
    (htarget : (loopVariable r name).run jobs w = (.ok target, v))
    (hsource : (r.execute (Call.ofTokens source)).run jobs v = (.ok (.cell n), u))
    (hlist : u.store.cell n = .list items) :
    (each r params).run jobs w =
      (eachFrom r n target lines (items.length + u.rounds + 1) 0 .null).run jobs u := by
  have hlast : (splitBloc params).1.getLast? = some name := by rw [hheader, List.getLast?_concat]
  have hfirst : (splitBloc params).1.dropLast = source := by rw [hheader, List.dropLast_concat]
  have hstore : Script.store.run jobs u = (.ok u.store, u) := rfl
  have hkind : u.store.kindOf (.cell n) = .list := by simp only [Store.kindOf, hlist]
  have hcollected : (Script.toList (.cell n)).run jobs u = (.ok (.cell n), u) := by
    rw [Script.toList, Task.run_bind, bind_of_ok hstore]
    simp only [hkind]
    rfl
  have hitems : (Script.itemsOf (.cell n)).run jobs u = (.ok items, u) := by
    have helements : u.store.elements? (.cell n) = some items := by
      simp only [Store.elements?, hlist]
    show (Script.store >>= fun s ↦ pure ((s.elements? (.cell n)).getD [.cell n])).run jobs u = _
    rw [Task.run_bind, bind_of_ok hstore, helements]
    rfl
  rw [each]
  simp only [hlast, hfirst, hlines]
  rw [Task.run_bind, bind_of_ok htarget, Task.run_bind, bind_of_ok hsource, Task.run_bind,
    bind_of_ok hcollected, Task.run_bind, bind_of_ok hitems]
  rfl

/-- As long as the list has at each position what it had when the loop was entered, the loop makes a
round for each of its items in order. Every loop that ends has made a round for each of some items
in order, which are those that the list had at the positions one after the other, each when its
round began. A round binds the variable to the item and runs the lines. -/
theorem run_each {depth : Nat} {params source items : List Value} {name : Value}
    (hbloc : splitBloc params = (source ++ [name], lines))
    (htarget : (loopVariable .standard name).runAt (depth + 1) w = (.ok target, v))
    (hsource : (Script.execute (Call.ofTokens source)).runAt (depth + 1) v = (.ok (.cell n), u))
    (hlist : u.store.cell n = .list items) :
    (Offers (Job.run (depth + 1)) .standard target lines n 0 .null u items →
      (each .standard params).runAt (depth + 1) w =
        (roundFor .standard target lines .null items).runAt (depth + 1) u) ∧
    (∀ result t, (each .standard params).runAt (depth + 1) w = (.ok result, t) →
      ∃ visited, Offers (Job.run (depth + 1)) .standard target lines n 0 .null u visited ∧
        (roundFor .standard target lines .null visited).runAt (depth + 1) u = (.ok result, t)) ∧
    ∀ uri key item result t, (t.store.resource target).uri = some uri →
      Location.place uri = .variable → Location.segments uri = [key] → item.IsPlain →
      t.HasPlaceFor key →
        (round .standard target lines result item).runAt (depth + 1) t =
          (runLines .standard lines result).runAt (depth + 1) (t.bound key item) ∧
        ∃ scope, (t.bound key item).current = some scope ∧
          (t.bound key item).store.lookup scope (.text key) = some item := by
  have hloop : (each .standard params).runAt (depth + 1) w = _ :=
    run_each_eq (congrArg Prod.fst hbloc) (congrArg Prod.snd hbloc) htarget hsource hlist
  refine ⟨fun hoffers ↦ ?_, fun result t hrun ↦ ?_, ?_⟩
  · rw [hloop]
    exact run_eachFrom_of_offers (Nat.lt_succ_of_le (Nat.le_add_right _ _)) hoffers
  · rw [hloop] at hrun
    exact exists_offers_of_run_eachFrom hrun
  · intro uri key item result t huri hplace hsegments hitem hopen
    have hput : (discard (Script.putData Runner.standard.execute target item)).run
        (Job.run (depth + 1)) t = (.ok (), t.bound key item) := by
      have hdone := Script.run_putData_variable huri hplace hsegments
        (Script.runAt_execute_of_isPlain hitem depth)
      show ((fun _ ↦ ()) <$> Script.putData Runner.standard.execute target item).run _ t = _
      rw [map_eq_pure_bind, Task.run_bind]
      exact bind_of_ok hdone _
    refine ⟨?_, World.lookup_bound hopen item⟩
    rw [Task.runAt, round, Task.run_bind, bind_of_ok hput]
    rfl

/-- A world with a list of two numbers and a resource that addresses the variable `x`. -/
def numbersWorld : World :=
  { Script.builtinWorld with
    store := ⟨#[.list [.int 1, .int 2]], #[⟨.text "x", some "x", none⟩], #[⟨none, [], [], []⟩], []⟩
    current := some 0 }

/-- The line that removes the last item of the list. -/
def popLast : Value :=
  .call (some ⟨"do", .command, none, .builtin .member⟩) [.cell 0, .text "pop"]

/-- A loop without lines makes a round for each of the numbers. One whose line removes the last item
ends, too, but it has not made a round for each. -/
theorem run_each_numbersWorld :
    (each .standard [.cell 0, .resource (.made 0)]).runAt 3 numbersWorld =
      (roundFor .standard (.made 0) [] .null [.int 1, .int 2]).runAt 3 numbersWorld ∧
    ∃ t visited, (each .standard [.cell 0, .resource (.made 0), popLast]).runAt 3 numbersWorld =
        (.ok (.int 2), t) ∧
      (roundFor .standard (.made 0) [popLast] .null visited).runAt 3 numbersWorld =
        (.ok (.int 2), t) ∧ visited ≠ [.int 1, .int 2] := by
  have hsource : (Script.execute (Call.ofTokens [.cell 0])).runAt 3 numbersWorld =
      (.ok (.cell 0), numbersWorld) := by
    rw [Call.ofTokens, Call.calls_value (fun _ h ↦ by cases h), Call.takeParams_nil, Call.calls_nil]
    rfl
  have htarget : (loopVariable .standard (.resource (.made 0))).runAt 3 numbersWorld =
    (.ok (.made 0), numbersWorld) := rfl
  have hlist : numbersWorld.store.cell 0 = .list [.int 1, .int 2] := rfl
  constructor
  · have hbloc : splitBloc [.cell 0, .resource (.made 0)] =
      ([.cell 0] ++ [.resource (.made 0)], []) := rfl
    refine (run_each hbloc htarget hsource hlist).1 fun i hi next u hrun ↦ ?_
    have hi : i ≤ 2 := hi
    obtain rfl | rfl | rfl : i = 0 ∨ i = 1 ∨ i = 2 := by omega
    all_goals
      cases hrun
      rfl
  · have hbloc : splitBloc [.cell 0, .resource (.made 0), popLast] =
      ([.cell 0] ++ [.resource (.made 0)], [popLast]) := rfl
    have hpopped : ((roundFor .standard (.made 0) [popLast] .null [.int 1]).runAt 3
      numbersWorld).1 = .ok (.int 2) := by decide +kernel
    have hleft : ((roundFor .standard (.made 0) [popLast] .null [.int 1]).runAt 3
      numbersWorld).2.store.itemAt 0 1 = none := by decide +kernel
    obtain ⟨t, hround⟩ := Script.exists_eq_of_fst hpopped
    rw [hround] at hleft
    have hoffers : Offers (Job.run 3) .standard (.made 0) [popLast] 0 0 .null numbersWorld
        [.int 1] := by
      intro i hi next u hrun
      obtain rfl | rfl := Nat.le_one_iff_eq_zero_or_eq_one.1 hi
      · cases hrun
        rfl
      · cases hround.symm.trans hrun
        exact hleft
    have hrun := (run_each_eq (congrArg Prod.fst hbloc) (congrArg Prod.snd hbloc) htarget hsource
      hlist).trans ((run_eachFrom_of_offers (by decide) hoffers).trans hround)
    obtain ⟨visited, hvisited, hsame⟩ := (run_each hbloc htarget hsource hlist).2.1 _ _ hrun
    refine ⟨t, visited, hrun, hsame, ?_⟩
    rintro rfl
    have hsecond := hvisited 1 (by decide) _ _ hround
    cases hleft.symm.trans hsecond

end Library

end ResourceScript

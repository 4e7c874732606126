import ResourceScript.Proofs.Scope.KeyTest
import ResourceScript.Proofs.Scope.Visible
import ResourceScript.Scope.Entries
/-!
# Changes of scopes

A variable is put, removed or deleted in one scope. After any number of changes the scopes are a
stack of frames still (`readsFrames_runAll`): constants and parents are what they were, the
variables are those of the abstract frames on which the changes act key by key, all ways of reading
a scope follow the first frame that binds a key, and every further change has its effect on one
variable and on nothing else.

A look-up asks one scope after the other, and does not reach a scope that is too far out. The listing
does, and so does the length: inside of many scopes there may be a key that is listed and not found
(`readsFrames_runAll_limits`).
-/

set_option autoImplicit false

namespace ResourceScript

/-! ### Stores that differ in scopes -/

namespace Store

variable {s t : Store}

theorem sameWithin_scopes (s : Store) (scopes : Array Scope) (depth : Nat) :
    ({ s with scopes } : Store).sameWithin depth = s.sameWithin depth := by
  induction depth with
  | zero => rfl
  | succ depth ih =>
    show Value.sameBy (s.sameRef (({ s with scopes } : Store).sameWithin depth)) = _
    rw [ih]
    rfl

/-- The equality of values does not depend on scopes. -/
theorem same_scopes (s : Store) (scopes : Array Scope) :
    ({ s with scopes } : Store).same = s.same := by
  funext a b
  exact congrFun (congrFun (sameWithin_scopes s scopes sameDepth) a) b

theorem IsKey.congr {v : Value} (hv : s.IsKey v) (hcell : t.cell = s.cell)
    (hsame : t.same = s.same) : t.IsKey v := by
  induction hv with
  | atom a => exact .atom a
  | tuple _ ih => exact .tuple ih
  | frozen _ hdistinct ih => exact .frozen ih (hsame ▸ hdistinct)
  | resource r => exact .resource r
  | object hobject haccess _ ih => exact .object (hcell ▸ hobject) haccess ih
  | values hvalues => exact .values (hcell ▸ hvalues)

theorem isKey_scopes (s : Store) (scopes : Array Scope) :
    ({ s with scopes } : Store).IsKey = s.IsKey := by
  funext v
  refine propext ⟨fun hv ↦ ?_, fun hv ↦ ?_⟩
  · exact hv.congr (t := s) rfl (same_scopes s scopes).symm
  · exact hv.congr (t := { s with scopes }) rfl (same_scopes s scopes)

theorem scope_setScope_self {n : Nat} (hn : n < s.scopes.size) (frame : Scope) :
    (s.setScope n frame).scope n = frame := by
  simp [setScope, scope, Array.getD_eq_getD_getElem?, hn]

theorem scope_setScope_ne {n m : Nat} (hm : m ≠ n) (frame : Scope) :
    (s.setScope n frame).scope m = s.scope m := by
  simp [setScope, scope, Array.getD_eq_getD_getElem?, Array.getElem?_setIfInBounds_ne hm.symm]

end Store

/-- Whether a world differs from another in the variables of one scope and in nothing else. -/
structure World.DiffersInVariables (w v : World) (n : Nat) (changeable : List (Value × Value)) :
    Prop where
  /-- Nothing but scopes differs. -/
  rest : v = { w with store := { w.store with scopes := v.store.scopes } }
  /-- There are as many scopes. -/
  size : v.store.scopes.size = w.store.scopes.size
  /-- Of the scope only the variables differ. -/
  own : v.store.scope n = { w.store.scope n with changeable }
  /-- The other scopes are the same. -/
  others : ∀ m, m ≠ n → v.store.scope m = w.store.scope m

theorem World.differsInVariables_setScope (w : World) {n : Nat} (hn : n < w.store.scopes.size)
    (changeable : List (Value × Value)) : w.DiffersInVariables
      { w with store := w.store.setScope n { w.store.scope n with changeable } } n changeable where
  rest := rfl
  size := Array.size_setIfInBounds
  own := Store.scope_setScope_self hn _
  others _ hm := Store.scope_setScope_ne hm _

/-- A change of a scope. -/
inductive Change where
  /-- A variable is bound. -/
  | put (n : Nat) (key value : Value)
  /-- A variable is dropped, if there is one. -/
  | remove (n : Nat) (key : Value)
  /-- A variable is dropped that has to be there. -/
  | delete (n : Nat) (key : Value)

namespace Change

/-- The scope that a change is made in. -/
def scope : Change → Nat
  | put n _ _ => n
  | remove n _ => n
  | delete n _ => n

/-- The key that a change is about. -/
def key : Change → Value
  | put _ key _ => key
  | remove _ key => key
  | delete _ key => key

/-- A change as a task; a removal may have nothing to answer. -/
def task : Change → Task (Option Value)
  | put n key value => some <$> Script.bind n key value
  | remove n key => Script.unbind? n key
  | delete n key => some <$> Script.unbind n key

/-- The world after changes, one after the other, whatever comes of each of them. -/
def runAll (jobs : Job → Script Value) (w : World) (changes : List Change) : World :=
  changes.foldl (fun w change => (change.task.run jobs w).2) w

/-- What a change makes of the variables of a stack of frames, given by scope and key. A constant
keeps a variable of its frame from being bound. -/
def onVariables (s : Store) (change : Change) (held : Nat → Value → Option Value) :
    Nat → Value → Option Value := fun m other =>
  match change with
  | put n key value =>
    if m = n ∧ s.same key other = true ∧ findEntry s.same key (s.scope n).constants = none then
      some value
    else held m other
  | remove n key => if m = n ∧ s.same key other = true then none else held m other
  | delete n key => if m = n ∧ s.same key other = true then none else held m other

/-- What a change answers and does. A constant of the scope is answered in place of being bound; a
variable that is not there is no variable to drop; else one variable of the scope changes and
nothing else. -/
def Effect (jobs : Job → Script Value) (w : World) : Change → Prop
  | put n key value =>
    match findEntry w.store.same key (w.store.scope n).constants with
    | some constant => (Script.bind n key value).run jobs w = (.ok constant, w)
    | none => ∃ v changeable,
      (Script.bind n key value).run jobs w =
          (.ok ((findEntry w.store.same key (w.store.scope n).changeable).getD .null), v) ∧
        w.DiffersInVariables v n changeable ∧
        (∀ other, w.store.IsKey other → findEntry w.store.same other changeable =
          if w.store.same key other then some value
          else findEntry w.store.same other (w.store.scope n).changeable) ∧
        changeable.map Prod.fst =
          if (findEntry w.store.same key (w.store.scope n).changeable).isSome then
            (w.store.scope n).changeable.map Prod.fst
          else (w.store.scope n).changeable.map Prod.fst ++ [key]
  | remove n key =>
    match findEntry w.store.same key (w.store.scope n).changeable with
    | none => (Script.unbind? n key).run jobs w = (.ok none, w)
    | some value => ∃ v, (Script.unbind? n key).run jobs w = (.ok (some value), v) ∧
      w.DiffersInVariables v n
        ((w.store.scope n).changeable.filter fun entry => !w.store.same entry.1 key)
  | delete n key =>
    match findEntry w.store.same key (w.store.scope n).changeable with
    | none => (Script.unbind n key).run jobs w = (.error (.fault .key), w)
    | some value => ∃ v, (Script.unbind n key).run jobs w = (.ok value, v) ∧
      w.DiffersInVariables v n
        ((w.store.scope n).changeable.filter fun entry => !w.store.same entry.1 key)

end Change

/-- The value of a variable of a scope. -/
def Store.ownValue? (s : Store) (n : Nat) (key : Value) : Option Value :=
  findEntry s.same key (s.scope n).changeable

/-- Whether a world differs from another in variables and in nothing else. -/
structure World.KeepsFrames (w v : World) : Prop where
  /-- Nothing but scopes differs. -/
  rest : v = { w with store := { w.store with scopes := v.store.scopes } }
  /-- There are as many scopes. -/
  size : v.store.scopes.size = w.store.scopes.size
  /-- Parents, constants and arguments are the same. -/
  frame : ∀ n, v.store.scope n =
    { w.store.scope n with changeable := (v.store.scope n).changeable }

/-- Whether all ways of reading a scope follow the first frame that binds a key. Look-ups do so as
far as they reach; the listing and the length do so at any depth. -/
structure World.ReadsFrames (jobs : Job → Script Value) (w : World) (n : Nat) : Prop where
  /-- A key has the value that the first frame gives it that binds it, a constant before a variable;
  a key that no frame binds is refused. -/
  binding : ∀ key, w.store.IsKey key → w.store.passed n key ≤ Data.freeFrames →
    (Script.binding n key).run jobs w =
      (((w.store.binder? n key).bind fun frame => frame.binding? w.store.same key).elim
        (.error (.fault .key)) .ok, w)
  /-- The listing goes frame by frame outward and omits what a frame further in binds. -/
  listing : w.store.visible n = Store.listing w.store.same (w.store.frames n)
  /-- No key is listed twice. -/
  distinct : (w.store.visible n).Pairwise fun a b => w.store.same a.1 b.1 = false
  /-- What is listed is what the first frame that binds a key gives it. -/
  listed : ∀ key, w.store.IsKey key →
    findEntry w.store.same key (w.store.visible n) =
      (w.store.binder? n key).bind fun frame => frame.binding? w.store.same key
  /-- The length is that of the listing. -/
  length : (Script.bindingCount n).run jobs w = (.ok (w.store.visible n).length, w)
  /-- Being bound is being listed. -/
  member : ∀ key, w.store.IsKey key → w.store.passed n key ≤ Data.freeFrames →
    ∃ found, (Script.binding? n key).run jobs w = (.ok found, w) ∧
      (found.isSome = true ↔ ∃ entry ∈ w.store.visible n, w.store.same entry.1 key = true)
  /-- A key is a constant when it is one in the first frame that binds it. -/
  constant : ∀ key, w.store.IsKey key → w.store.passed n key ≤ Data.freeFrames →
    ∃ holds, (Script.isConstant n key).run jobs w = (.ok holds, w) ∧
      (holds = true ↔ ∃ frame, w.store.binder? n key = some frame ∧
        (findEntry w.store.same key frame.constants).isSome = true)
  /-- Look-ups do not reach further out. -/
  beyond : ∀ key, w.store.IsKey key → Data.freeFrames < w.store.passed n key →
    (Script.binding n key).run jobs w = (.error (.fault .recursion), w) ∧
      (Script.binding? n key).run jobs w = (.error (.fault .recursion), w) ∧
      (Script.isConstant n key).run jobs w = (.error (.fault .recursion), w)

/-! ### What tasks on scopes do -/

namespace Script

variable {jobs : Job → Script Value} {w : World} {n : Nat} {key : Value}

/-- A key is not refused. -/
theorem run_requireKey (hkey : w.store.IsKey key) : (requireKey key).run jobs w = (.ok (), w) := by
  have hview : (view key).run jobs w = (.ok (w.store.view key), w) := rfl
  rw [requireKey, Task.run_bind, Script.bind_of_ok hview,
    Store.unhashable?_view_of_isKey hkey]
  rfl

theorem run_reach : (reach n key).run jobs w =
    if Data.freeFrames < w.store.passed n key then (.error (.fault .recursion), w)
    else (.ok (), w) := by
  have hstore : Script.store.run jobs w = (.ok w.store, w) := rfl
  rw [reach, Task.run_bind, Script.bind_of_ok hstore]
  split <;> rfl

theorem run_binding? (hkey : w.store.IsKey key) : (binding? n key).run jobs w =
    if Data.freeFrames < w.store.passed n key then (.error (.fault .recursion), w)
    else (.ok (w.store.lookup n key), w) := by
  rw [binding?, Task.run_bind, Script.bind_of_ok (run_requireKey hkey), Task.run_bind,
    Script.bind_apply, run_reach]
  by_cases hfar : Data.freeFrames < w.store.passed n key
  · rw [if_pos hfar, if_pos hfar]
  · rw [if_neg hfar, if_neg hfar]
    rfl

theorem run_binding (hkey : w.store.IsKey key) : (binding n key).run jobs w =
    if Data.freeFrames < w.store.passed n key then (.error (.fault .recursion), w)
    else ((w.store.lookup n key).elim (.error (.fault .key)) .ok, w) := by
  rw [binding, Task.run_bind, Script.bind_apply, run_binding? hkey]
  by_cases hfar : Data.freeFrames < w.store.passed n key
  · rw [if_pos hfar, if_pos hfar]
  · rw [if_neg hfar, if_neg hfar]
    rcases w.store.lookup n key with _ | value <;> rfl

theorem run_isConstant (hkey : w.store.IsKey key) : (isConstant n key).run jobs w =
    if Data.freeFrames < w.store.passed n key then (.error (.fault .recursion), w)
    else (.ok (w.store.isConstant n key), w) := by
  rw [isConstant, Task.run_bind, Script.bind_of_ok (run_requireKey hkey), Task.run_bind,
    Script.bind_apply, run_reach]
  by_cases hfar : Data.freeFrames < w.store.passed n key
  · rw [if_pos hfar, if_pos hfar]
  · rw [if_neg hfar, if_neg hfar]
    rfl

theorem run_bind (hkey : w.store.IsKey key) (value : Value) : (bind n key value).run jobs w =
    (.ok (w.store.bind n key value).2, { w with store := (w.store.bind n key value).1 }) := by
  rw [bind, Task.run_bind, Script.bind_of_ok (run_requireKey hkey)]
  rfl

theorem run_unbind? (hkey : w.store.IsKey key) : (unbind? n key).run jobs w =
    ((w.store.unbind? n key).elim (.ok none, w) fun (store, value) =>
      (.ok (some value), { w with store })) := by
  have hstore : Script.store.run jobs w = (.ok w.store, w) := rfl
  rw [unbind?, Task.run_bind, Script.bind_of_ok (run_requireKey hkey), Task.run_bind,
    Script.bind_of_ok hstore]
  rcases w.store.unbind? n key with _ | ⟨store, value⟩ <;> rfl

theorem run_unbind (hkey : w.store.IsKey key) : (unbind n key).run jobs w =
    ((w.store.unbind? n key).elim (.error (.fault .key), w) fun (store, value) =>
      (.ok value, { w with store })) := by
  rw [unbind, Task.run_bind, Script.bind_apply, run_unbind? hkey]
  rcases w.store.unbind? n key with _ | ⟨store, value⟩ <;> rfl

end Script

/-! ### One change -/

namespace World

variable {w v : World} {n : Nat} {changeable : List (Value × Value)}

theorem KeepsFrames.refl (w : World) : w.KeepsFrames w := ⟨rfl, rfl, fun _ ↦ rfl⟩

theorem KeepsFrames.trans {u : World} (hwv : w.KeepsFrames v) (hvu : v.KeepsFrames u) :
    w.KeepsFrames u where
  rest := by
    have hrest := hvu.rest
    rw [hwv.rest] at hrest
    exact hrest
  size := hvu.size.trans hwv.size
  frame n := by
    rw [hvu.frame n, hwv.frame n]

theorem KeepsFrames.same (hkeeps : w.KeepsFrames v) : v.store.same = w.store.same := by
  rw [hkeeps.rest]
  exact Store.same_scopes _ _

theorem KeepsFrames.isKey (hkeeps : w.KeepsFrames v) : v.store.IsKey = w.store.IsKey := by
  rw [hkeeps.rest]
  exact Store.isKey_scopes _ _

theorem KeepsFrames.constants (hkeeps : w.KeepsFrames v) (n : Nat) :
    (v.store.scope n).constants = (w.store.scope n).constants := by
  rw [hkeeps.frame n]

theorem DiffersInVariables.keepsFrames (hdiffers : w.DiffersInVariables v n changeable) :
    w.KeepsFrames v where
  rest := hdiffers.rest
  size := hdiffers.size
  frame m := by
    by_cases hm : m = n
    · rw [hm, hdiffers.own]
    · rw [hdiffers.others m hm]

theorem DiffersInVariables.holdsKeys (hdiffers : w.DiffersInVariables v n changeable)
    (hs : w.store.HoldsKeys) (hmap : IsOrderedMap w.store.IsKey w.store.same changeable) :
    v.store.HoldsKeys := by
  have hkeeps := hdiffers.keepsFrames
  constructor
  · intro m
    rw [hkeeps.isKey, hkeeps.same, hkeeps.constants]
    exact hs.constants m
  · intro m
    rw [hkeeps.isKey, hkeeps.same]
    by_cases hm : m = n
    · rw [hm, hdiffers.own]
      exact hmap
    · rw [hdiffers.others m hm]
      exact hs.changeable m

/-- The ways of reading a scope follow its frames. -/
theorem readsFrames (jobs : Job → Script Value) (hs : w.store.HoldsKeys) (n : Nat) :
    w.ReadsFrames jobs n where
  binding key hkey hreach := by
    rw [Script.run_binding hkey, if_neg (Nat.not_lt.2 hreach), Store.lookup_eq_binder?]
  listing := Store.visible_eq_listing hs n
  distinct := (Store.isOrderedMap_visible hs n).distinct
  listed key hkey := by rw [Store.findEntry_visible hs n hkey, Store.lookup_eq_binder?]
  length := rfl
  member key hkey hreach := by
    refine ⟨_, (Script.run_binding? hkey).trans (if_neg (Nat.not_lt.2 hreach)), ?_⟩
    rw [← Store.findEntry_visible hs n hkey, findEntry_isSome_iff]
  constant key hkey hreach :=
    ⟨_, (Script.run_isConstant hkey).trans (if_neg (Nat.not_lt.2 hreach)),
      Store.isConstant_iff w.store n key⟩
  beyond key hkey hfar := by
    rw [Script.run_binding hkey, Script.run_binding? hkey, Script.run_isConstant hkey, if_pos hfar,
      if_pos hfar, if_pos hfar]
    exact ⟨rfl, rfl, rfl⟩

end World

namespace Change

variable {jobs : Job → Script Value} {w : World} {change : Change}

section

variable {n : Nat} {key : Value} (hs : w.store.HoldsKeys) (hkey : w.store.IsKey key)
  (hn : n < w.store.scopes.size)

include hs hkey hn

theorem effect_put (jobs : Job → Script Value) (value : Value) :
    (put n key value).Effect jobs w := by
  rw [Effect]
  rcases hconstant : findEntry w.store.same key (w.store.scope n).constants with _ | constant
  · refine ⟨_, _, ?_, w.differsInVariables_setScope hn _, fun other hother ↦
      findEntry_putEntry (Store.isKeyEquality_same w.store) (hs.changeable n).keys hkey hother
        value,
      map_fst_putEntry key value _⟩
    rw [Script.run_bind hkey, Store.bind, hconstant]
  · show (Script.bind n key value).run jobs w = _
    rw [Script.run_bind hkey, Store.bind, hconstant]

theorem effect_remove (jobs : Job → Script Value) : (remove n key).Effect jobs w := by
  rw [Effect]
  rcases hvalue : findEntry w.store.same key (w.store.scope n).changeable with _ | value
  · show (Script.unbind? n key).run jobs w = _
    rw [Script.run_unbind? hkey, Store.unbind?, hvalue]
    rfl
  · refine ⟨_, ?_, w.differsInVariables_setScope hn _⟩
    rw [Script.run_unbind? hkey, Store.unbind?, hvalue,
      ← dropEntry_eq_filter (Store.isKeyEquality_same w.store) (hs.changeable n) hkey]
    rfl

theorem effect_delete (jobs : Job → Script Value) : (delete n key).Effect jobs w := by
  rw [Effect]
  rcases hvalue : findEntry w.store.same key (w.store.scope n).changeable with _ | value
  · show (Script.unbind n key).run jobs w = _
    rw [Script.run_unbind hkey, Store.unbind?, hvalue]
    rfl
  · refine ⟨_, ?_, w.differsInVariables_setScope hn _⟩
    rw [Script.run_unbind hkey, Store.unbind?, hvalue,
      ← dropEntry_eq_filter (Store.isKeyEquality_same w.store) (hs.changeable n) hkey]
    rfl

end

/-- Every change has its effect. -/
theorem effect (jobs : Job → Script Value) (hs : w.store.HoldsKeys)
    (hkey : w.store.IsKey change.key) (hscope : change.scope < w.store.scopes.size) :
    change.Effect jobs w := by
  cases change with
  | put n key value => exact effect_put hs hkey hscope jobs value
  | remove n key => exact effect_remove hs hkey hscope jobs
  | delete n key => exact effect_delete hs hkey hscope jobs

/-! ### Any number of changes -/

theorem run_map_snd {α β : Type} (x : Task α) (f : α → β) (w : World) :
    ((f <$> x).run jobs w).2 = (x.run jobs w).2 := by
  rw [map_eq_pure_bind, Task.run_bind, Script.bind_apply]
  rcases x.run jobs w with ⟨stop | a, v⟩ <;> rfl

/-- The variables after a change of one scope. -/
theorem ownValue?_of_differs {v : World} {n : Nat} {changeable : List (Value × Value)}
    (hdiffers : w.DiffersInVariables v n changeable) (m : Nat) (other : Value) :
    v.store.ownValue? m other =
      if m = n then findEntry w.store.same other changeable else w.store.ownValue? m other := by
  rw [Store.ownValue?, Store.ownValue?, hdiffers.keepsFrames.same]
  split
  · rename_i hm
    rw [hm, hdiffers.own]
  · rename_i hm
    rw [hdiffers.others m hm]

section

variable {v : World} {n : Nat} {key : Value} (hs : w.store.HoldsKeys) (hkey : w.store.IsKey key)

include hs hkey

/-- What is the same after putting a variable, and what is not. -/
theorem step_of_put {value : Value} {changeable : List (Value × Value)}
    (hdiffers : w.DiffersInVariables v n changeable)
    (hfound : ∀ other, w.store.IsKey other → findEntry w.store.same other changeable =
      if w.store.same key other then some value
      else findEntry w.store.same other (w.store.scope n).changeable)
    (hkeys : changeable.map Prod.fst =
      if (findEntry w.store.same key (w.store.scope n).changeable).isSome then
        (w.store.scope n).changeable.map Prod.fst
      else (w.store.scope n).changeable.map Prod.fst ++ [key]) :
    w.KeepsFrames v ∧ v.store.HoldsKeys ∧ ∀ m other, w.store.IsKey other →
      v.store.ownValue? m other =
        if m = n ∧ w.store.same key other = true then some value
        else w.store.ownValue? m other := by
  have hmap : IsOrderedMap w.store.IsKey w.store.same changeable := by
    have hput := isOrderedMap_iff.1 ((hs.changeable n).putEntry hkey value)
    rw [map_fst_putEntry, ← hkeys] at hput
    exact isOrderedMap_iff.2 hput
  refine ⟨hdiffers.keepsFrames, hdiffers.holdsKeys hs hmap, fun m other hother ↦ ?_⟩
  rw [ownValue?_of_differs hdiffers, hfound other hother]
  by_cases hm : m = n
  · subst hm
    simp [Store.ownValue?]
  · simp [hm]

/-- What is the same after dropping a variable, and what is not. -/
theorem step_of_drop
    (hdrop : findEntry w.store.same key (w.store.scope n).changeable = none ∧ v = w ∨
      w.DiffersInVariables v n
        ((w.store.scope n).changeable.filter fun entry => !w.store.same entry.1 key)) :
    w.KeepsFrames v ∧ v.store.HoldsKeys ∧ ∀ m other, w.store.IsKey other →
      v.store.ownValue? m other =
        if m = n ∧ w.store.same key other = true then none else w.store.ownValue? m other := by
  have h := Store.isKeyEquality_same w.store
  rcases hdrop with ⟨hnone, rfl⟩ | hdiffers
  · refine ⟨.refl _, hs, fun m other hother ↦ ?_⟩
    split
    · rename_i hsame
      rw [hsame.1, Store.ownValue?,
        ← findEntry_congr h (hs.changeable n).keys hkey hother hsame.2, hnone]
    · rfl
  · refine ⟨hdiffers.keepsFrames, hdiffers.holdsKeys hs ((hs.changeable n).filter _),
      fun m other hother ↦ ?_⟩
    rw [ownValue?_of_differs hdiffers,
      findEntry_filter_not_same h (hs.changeable n).keys hkey hother]
    by_cases hm : m = n
    · subst hm
      simp [Store.ownValue?]
    · simp [hm]

end

/-- A step: one change keeps the frames and acts on variables as on those of a stack of frames. -/
theorem keepsFrames_run (jobs : Job → Script Value) (hs : w.store.HoldsKeys)
    (hkey : w.store.IsKey change.key) (hscope : change.scope < w.store.scopes.size) :
    w.KeepsFrames (change.task.run jobs w).2 ∧ (change.task.run jobs w).2.store.HoldsKeys ∧
      ∀ m other, w.store.IsKey other → (change.task.run jobs w).2.store.ownValue? m other =
        change.onVariables w.store w.store.ownValue? m other := by
  have heffect := effect jobs hs hkey hscope
  cases change with
  | put n key value =>
    rw [Effect] at heffect
    simp only [task, run_map_snd, onVariables]
    rcases hconstant : findEntry w.store.same key (w.store.scope n).constants with _ | constant
    · rw [hconstant] at heffect
      obtain ⟨v, changeable, hrun, hdiffers, hfound, hkeys⟩ := heffect
      have hput : w.store.IsKey key := hkey
      simpa [hrun] using step_of_put hs hput hdiffers hfound hkeys
    · rw [hconstant] at heffect
      have hrun : (Script.bind n key value).run jobs w = (.ok constant, w) := heffect
      rw [hrun]
      simpa using ⟨World.KeepsFrames.refl w, hs⟩
  | remove n key =>
    rw [Effect] at heffect
    refine step_of_drop hs hkey ?_
    rcases hvalue : findEntry w.store.same key (w.store.scope n).changeable with _ | value
    · rw [hvalue] at heffect
      exact .inl ⟨rfl, congrArg Prod.snd heffect⟩
    · rw [hvalue] at heffect
      obtain ⟨v, hrun, hdiffers⟩ := heffect
      rw [task, hrun]
      exact .inr hdiffers
  | delete n key =>
    rw [Effect] at heffect
    simp only [task, run_map_snd]
    refine step_of_drop hs hkey ?_
    rcases hvalue : findEntry w.store.same key (w.store.scope n).changeable with _ | value
    · rw [hvalue] at heffect
      exact .inl ⟨rfl, congrArg Prod.snd heffect⟩
    · rw [hvalue] at heffect
      obtain ⟨v, hrun, hdiffers⟩ := heffect
      rw [hrun]
      exact .inr hdiffers

/-- A change acts alike on variables that are alike under keys. -/
theorem onVariables_congr {s : Store} {held held' : Nat → Value → Option Value}
    (hheld : ∀ m other, s.IsKey other → held m other = held' m other) (change : Change) (m : Nat)
    {other : Value} (hother : s.IsKey other) :
    change.onVariables s held m other = change.onVariables s held' m other := by
  cases change <;> simp only [onVariables, hheld m other hother]

theorem foldl_onVariables_congr {s : Store} (changes : List Change)
    {held held' : Nat → Value → Option Value}
    (hheld : ∀ m other, s.IsKey other → held m other = held' m other) (m : Nat) {other : Value}
    (hother : s.IsKey other) :
    changes.foldl (fun held change => change.onVariables s held) held m other =
      changes.foldl (fun held change => change.onVariables s held) held' m other := by
  induction changes generalizing held held' with
  | nil => exact hheld m other hother
  | cons change rest ih => exact ih fun m other hother ↦ onVariables_congr hheld change m hother

theorem onVariables_of_keepsFrames {v : World} (hkeeps : w.KeepsFrames v) :
    onVariables v.store = onVariables w.store := by
  funext change held m other
  cases change <;> simp only [onVariables, hkeeps.same, hkeeps.constants]

/-- A run: any number of changes keep the frames and act on the variables one after the other. -/
theorem keepsFrames_runAll (jobs : Job → Script Value) (hs : w.store.HoldsKeys)
    {changes : List Change} (hkeys : ∀ change ∈ changes, w.store.IsKey change.key)
    (hscopes : ∀ change ∈ changes, change.scope < w.store.scopes.size) :
    w.KeepsFrames (runAll jobs w changes) ∧ (runAll jobs w changes).store.HoldsKeys ∧
      ∀ m other, w.store.IsKey other → (runAll jobs w changes).store.ownValue? m other =
        changes.foldl (fun held change => change.onVariables w.store held) w.store.ownValue?
          m other := by
  induction changes generalizing w with
  | nil => exact ⟨.refl w, hs, fun _ _ _ ↦ rfl⟩
  | cons change rest ih =>
    obtain ⟨hkey, hrestKeys⟩ := List.forall_mem_cons.1 hkeys
    obtain ⟨hscope, hrestScopes⟩ := List.forall_mem_cons.1 hscopes
    obtain ⟨hkeeps, hs', hvariables⟩ := keepsFrames_run jobs hs hkey hscope
    obtain ⟨hkeepsRest, hsRest, hvariablesRest⟩ := ih hs' (hkeeps.isKey ▸ hrestKeys)
      (hkeeps.size ▸ hrestScopes)
    refine ⟨hkeeps.trans hkeepsRest, hsRest, fun m other hother ↦ ?_⟩
    refine (hvariablesRest m other (hkeeps.isKey ▸ hother)).trans ?_
    rw [onVariables_of_keepsFrames hkeeps]
    exact foldl_onVariables_congr rest hvariables m hother

/-- A chain of scopes is a stack of frames, whatever variables have been put, removed and deleted in
any of its scopes. -/
theorem readsFrames_runAll (jobs : Job → Script Value) (w : World) (hs : w.store.HoldsKeys)
    (changes : List Change) (hkeys : ∀ change ∈ changes, w.store.IsKey change.key)
    (hscopes : ∀ change ∈ changes, change.scope < w.store.scopes.size) :
    w.KeepsFrames (runAll jobs w changes) ∧
      (∀ m other, w.store.IsKey other → (runAll jobs w changes).store.ownValue? m other =
        changes.foldl (fun held change => change.onVariables w.store held) w.store.ownValue?
          m other) ∧
      (∀ n, (runAll jobs w changes).ReadsFrames jobs n) ∧
      ∀ change : Change, w.store.IsKey change.key → change.scope < w.store.scopes.size →
        change.Effect jobs (runAll jobs w changes) := by
  obtain ⟨hkeeps, hs', hvariables⟩ := keepsFrames_runAll jobs hs hkeys hscopes
  refine ⟨hkeeps, hvariables, World.readsFrames jobs hs', fun change hkey hscope ↦ ?_⟩
  exact effect jobs hs' (hkeeps.isKey ▸ hkey) (hkeeps.size ▸ hscope)

/-- A world with a scope of some variables inside one with a constant and a variable. -/
def innerWorld (changeable : List (Value × Value)) : World :=
  { Script.builtinWorld with
    store := { Store.empty with scopes := #[
      ⟨none, [(.text "pi", .int 3)], [(.text "x", .int 1)], []⟩, ⟨some 0, [], changeable, []⟩] } }

theorem holdsKeys_innerWorld {changeable : List (Value × Value)}
    (hmap : IsOrderedMap (innerWorld changeable).store.IsKey (innerWorld changeable).store.same
      changeable) : (innerWorld changeable).store.HoldsKeys := by
  constructor
  · intro n
    match n with
    | 0 => exact ⟨List.forall_mem_singleton.2 (.atom _), List.pairwise_singleton _ _⟩
    | 1 => exact isOrderedMap_nil
    | n + 2 => exact isOrderedMap_nil
  · intro n
    match n with
    | 0 => exact ⟨List.forall_mem_singleton.2 (.atom _), List.pairwise_singleton _ _⟩
    | 1 => exact hmap
    | n + 2 => exact isOrderedMap_nil

/-- A constant that is put anew, a variable that is, a variable that hides a constant of the outer
scope, and a variable that is not there. -/
def hidingChanges : List Change :=
  [put 0 (.text "pi") (.int 5), put 1 (.text "x") (.int 2), remove 1 (.text "pi"),
    delete 1 (.text "z")]

theorem runAll_hidingChanges (jobs : Job → Script Value) :
    runAll jobs (innerWorld [(.text "pi", .int 4), (.text "y", .null)]) hidingChanges =
      innerWorld [(.text "y", .null), (.text "x", .int 2)] := by
  have hconstant (changeable) : ((put 0 (.text "pi") (.int 5)).task.run jobs
      (innerWorld changeable)).2 = innerWorld changeable := rfl
  have hput : ((put 1 (.text "x") (.int 2)).task.run jobs
      (innerWorld [(.text "pi", .int 4), (.text "y", .null)])).2 =
    innerWorld [(.text "pi", .int 4), (.text "y", .null), (.text "x", .int 2)] := rfl
  have hremove : ((remove 1 (.text "pi")).task.run jobs
      (innerWorld [(.text "pi", .int 4), (.text "y", .null), (.text "x", .int 2)])).2 =
    innerWorld [(.text "y", .null), (.text "x", .int 2)] := rfl
  have hmissing : ((delete 1 (.text "z")).task.run jobs
      (innerWorld [(.text "y", .null), (.text "x", .int 2)])).2 =
    innerWorld [(.text "y", .null), (.text "x", .int 2)] := rfl
  simp only [runAll, hidingChanges, List.foldl_cons, List.foldl_nil, hconstant, hput, hremove,
    hmissing]

/-- Once the variable is removed that hides it, the constant of the outer scope is in view, and the
inner scope may bind a variable under its key. -/
theorem readsFrames_runAll_innerWorld :
    let w := innerWorld [(.text "pi", .int 4), (.text "y", .null)]
    let v := innerWorld [(.text "y", .null), (.text "x", .int 2)]
    w.store.HoldsKeys ∧ (∀ change ∈ hidingChanges, w.store.IsKey change.key) ∧
      (∀ change ∈ hidingChanges, change.scope < w.store.scopes.size) ∧
      runAll (fun _ => throw .exhausted) w hidingChanges = v ∧ w.KeepsFrames v ∧
      v.store.visible 1 = [(.text "y", .null), (.text "x", .int 2), (.text "pi", .int 3)] ∧
      v.ReadsFrames (fun _ => throw .exhausted) 1 ∧
      (put 1 (.text "pi") (.int 6)).Effect (fun _ => throw .exhausted) v := by
  intro w v
  have hmap : IsOrderedMap w.store.IsKey w.store.same
      [(.text "pi", Value.int 4), (.text "y", Value.null)] :=
    ⟨List.forall_mem_cons.2 ⟨.atom _, List.forall_mem_singleton.2 (.atom _)⟩,
      List.pairwise_pair.2 rfl⟩
  have hkeys : ∀ change ∈ hidingChanges, w.store.IsKey change.key := by
    simp only [hidingChanges, List.forall_mem_cons]
    exact ⟨.atom _, .atom _, .atom _, .atom _, fun _ h ↦ absurd h List.not_mem_nil⟩
  have hscopes : ∀ change ∈ hidingChanges, change.scope < w.store.scopes.size := by
    simp only [hidingChanges, List.forall_mem_cons]
    exact ⟨Nat.two_pos, Nat.one_lt_two, Nat.one_lt_two, Nat.one_lt_two,
      fun _ h ↦ absurd h List.not_mem_nil⟩
  have hreads := readsFrames_runAll (fun _ => throw .exhausted) w (holdsKeys_innerWorld hmap)
    hidingChanges hkeys hscopes
  rw [runAll_hidingChanges] at hreads
  have hvisible : v.store.visible 1 =
      [(.text "y", .null), (.text "x", .int 2), (.text "pi", .int 3)] := by
    have hparent : (v.store.scope 1).parent = some 0 := rfl
    have hchain : v.store.chain 1 = [1, 0] := by
      rw [Store.chain_of_parent hparent Nat.one_pos, Store.chain_of_root rfl]
    rw [Store.visible, Store.bindings, hchain]
    rfl
  exact ⟨holdsKeys_innerWorld hmap, hkeys, hscopes, runAll_hidingChanges _, hreads.1, hvisible,
    hreads.2.2.1 1, hreads.2.2.2 _ (.atom _) Nat.one_lt_two⟩

/-! ### Out of reach -/

/-- A world of scopes one inside the other, to a depth. Only the outermost one binds anything. -/
def nestedWorld (depth : Nat) : World :=
  { Script.builtinWorld with
    store := { Store.empty with scopes :=
      ((⟨none, [], [(.text "x", .int 1)], []⟩ : Scope) ::
        (List.range depth).map fun n => ⟨some n, [], [], []⟩).toArray } }

section

variable {depth n : Nat}

theorem scope_nestedWorld_succ (hn : n < depth) :
    (nestedWorld depth).store.scope (n + 1) = ⟨some n, [], [], []⟩ := by
  simp [Store.scope, nestedWorld, hn]

theorem chain_nestedWorld_succ (hn : n < depth) : (nestedWorld depth).store.chain (n + 1) =
    (n + 1) :: (nestedWorld depth).store.chain n := by
  refine Store.chain_of_parent ?_ (Nat.lt_succ_self n)
  rw [scope_nestedWorld_succ hn]

theorem bindings_nestedWorld (hn : n ≤ depth) :
    (nestedWorld depth).store.bindings n = [(.text "x", .int 1)] := by
  induction n with
  | zero => rw [Store.bindings, Store.chain_of_root rfl, List.flatMap_singleton]; rfl
  | succ n ih =>
    have hrest := ih (Nat.le_of_succ_le hn)
    rw [Store.bindings] at hrest ⊢
    rw [chain_nestedWorld_succ hn, List.flatMap_cons, scope_nestedWorld_succ hn, hrest]
    rfl

theorem passed_nestedWorld (hn : n ≤ depth) :
    (nestedWorld depth).store.passed n (.text "x") = n := by
  induction n with
  | zero => rw [Store.passed, Store.chain_of_root rfl]; rfl
  | succ n ih =>
    have hrest := ih (Nat.le_of_succ_le hn)
    have hbinds : (nestedWorld depth).store.binds (n + 1) (.text "x") = false := by
      rw [Store.binds, scope_nestedWorld_succ hn]
      rfl
    rw [Store.passed] at hrest ⊢
    rw [chain_nestedWorld_succ hn, List.takeWhile_cons_of_pos (by rw [hbinds]; rfl),
      List.length_cons, hrest]

end

/-- From inside of so many scopes the variable of the outermost one is listed, and counted, but no
look-up reaches it. -/
theorem readsFrames_runAll_limits :
    let w := nestedWorld 1200
    let jobs : Job → Script Value := fun _ => throw .exhausted
    ((w.store.binder? 1200 (.text "x")).bind fun frame =>
        frame.binding? w.store.same (.text "x")) = some (.int 1) ∧
      w.store.visible 1200 = [(.text "x", .int 1)] ∧
      (Script.bindingCount 1200).run jobs w = (.ok 1, w) ∧
      (Script.binding 1200 (.text "x")).run jobs w = (.error (.fault .recursion), w) ∧
      (Script.binding? 1200 (.text "x")).run jobs w = (.error (.fault .recursion), w) ∧
      (Script.isConstant 1200 (.text "x")).run jobs w = (.error (.fault .recursion), w) := by
  intro w jobs
  have hbindings : w.store.bindings 1200 = [(.text "x", .int 1)] :=
    bindings_nestedWorld (Nat.le_refl _)
  have hvisible : w.store.visible 1200 = [(.text "x", .int 1)] := by
    rw [Store.visible, hbindings]
    rfl
  have hkey : w.store.IsKey (.text "x") := .atom _
  have hfar : Data.freeFrames < w.store.passed 1200 (.text "x") := by
    rw [passed_nestedWorld (Nat.le_refl _)]
    decide
  refine ⟨?_, hvisible, ?_, ?_, ?_, ?_⟩
  · rw [← Store.lookup_eq_binder?, Store.lookup, hbindings]
    rfl
  · have hcount : (Script.bindingCount 1200).run jobs w =
        (.ok (w.store.visible 1200).length, w) := rfl
    rw [hcount, hvisible]
    rfl
  · rw [Script.run_binding hkey, if_pos hfar]
  · rw [Script.run_binding? hkey, if_pos hfar]
  · rw [Script.run_isConstant hkey, if_pos hfar]

end Change

end ResourceScript

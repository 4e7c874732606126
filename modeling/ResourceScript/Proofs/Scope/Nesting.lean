import ResourceScript.Scope.Current
/-!
# The nesting of scopes

Which scope is current changes like the top of a stack. A program may make, open and close scopes
and run blocks in scopes in any order, on scopes that are current and on others; it sees how each
call and each block ended and goes on as it likes, or ends by what stopped it (`ScopeUser`). Its
history has all calls, those inside of blocks too. At every point of every history
(`ScopeUser.always_nested_history`) a call has its effect and a call that is refused has none, a
block leaves the scope current that was current before it, or none, and calls among which every
child that is opened is closed again lead back to the scope that they started from.
-/

set_option autoImplicit false

namespace ResourceScript

/-! ### Calls -/

/-- A call that makes a scope or changes which scope is current. -/
inductive ScopeCall where
  /-- A scope is made that is not in use. -/
  | make (scope : Scope)
  /-- The root is made. -/
  | init (constants changeable : List (Value × Value)) (arguments : List Value)
  /-- A child of a scope is opened. -/
  | child (n : Nat) (constants changeable : List (Value × Value)) (arguments : Option (List Value))
  /-- A scope is closed. -/
  | close (n : Nat)
  /-- The scope in use is asked for. -/
  | current

/-- Whether a store has the scopes of another, and maybe more. -/
structure Store.KeepsScopes (s t : Store) : Prop where
  size : s.scopes.size ≤ t.scopes.size
  scope : ∀ m < s.scopes.size, t.scope m = s.scope m

namespace Store.KeepsScopes

variable {s t u : Store}

theorem refl (s : Store) : s.KeepsScopes s := ⟨Nat.le_refl _, fun _ _ ↦ rfl⟩

theorem trans (hst : s.KeepsScopes t) (htu : t.KeepsScopes u) : s.KeepsScopes u where
  size := Nat.le_trans hst.size htu.size
  scope m hm := (htu.scope m (Nat.lt_of_lt_of_le hm hst.size)).trans (hst.scope m hm)

end Store.KeepsScopes

namespace World

/-- Whether a world differs from another in one scope more and in which scope is current. -/
structure AddsScope (w v : World) (scope : Scope) (current : Option Nat) : Prop where
  /-- Nothing but scopes and the current scope differs. -/
  rest : v = { w with store := { w.store with scopes := v.store.scopes }, current }
  /-- There is one scope more. -/
  size : v.store.scopes.size = w.store.scopes.size + 1
  /-- It comes after the others. -/
  own : v.store.scope w.store.scopes.size = scope
  /-- The others are the same. -/
  others : ∀ m < w.store.scopes.size, v.store.scope m = w.store.scope m

variable {w v : World} {scope : Scope} {current : Option Nat}

theorem addsScope (w : World) (scope : Scope) (current : Option Nat) :
    w.AddsScope { w with store := (w.store.addScope scope).1, current } scope current where
  rest := rfl
  size := Array.size_push _
  own := by simp [Store.addScope, Store.scope, Array.getD_eq_getD_getElem?]
  others m hm := by
    simp [Store.addScope, Store.scope, Array.getD_eq_getD_getElem?, Array.getElem?_push,
      Nat.ne_of_lt hm]

theorem AddsScope.current_eq (hadds : w.AddsScope v scope current) : v.current = current := by
  rw [hadds.rest]

theorem AddsScope.keepsScopes (hadds : w.AddsScope v scope current) :
    w.store.KeepsScopes v.store where
  size := hadds.size ▸ Nat.le_succ _
  scope := hadds.others

end World

namespace ScopeCall

/-- What a call does. It answers the scope that is current afterwards or that was made, if any. -/
def run : ScopeCall → Script (Option Nat)
  | make scope => some <$> (Script.newScope scope : Script Nat)
  | init constants changeable arguments => some <$> Script.initScope constants changeable arguments
  | child n constants changeable arguments =>
    some <$> Script.openChild n constants changeable arguments
  | close n => (fun _ => none) <$> Script.closeScope n
  | current => some <$> (Script.currentScope : Script Nat)

/-- Whether a call opens a child or closes a scope. -/
def opensOrCloses : ScopeCall → Bool
  | child .. => true
  | close _ => true
  | _ => false

/-- How a call ends in a world and the world after it. A root is only made when no scope is current;
a child is only opened of the current scope, and only the current scope is closed. -/
inductive Effect (w : World) : ScopeCall → Except Stop (Option Nat) → World → Prop
  | make {scope v} (hadds : w.AddsScope v scope w.current) :
    Effect w (.make scope) (.ok (some w.store.scopes.size)) v
  | init {constants changeable arguments v} (hcurrent : w.current = none)
    (hadds : w.AddsScope v ⟨none, constants, changeable, arguments⟩ (some w.store.scopes.size)) :
    Effect w (.init constants changeable arguments) (.ok (some w.store.scopes.size)) v
  | initRefused {constants changeable arguments} (hcurrent : w.current ≠ none) :
    Effect w (.init constants changeable arguments)
      (.error (.fault (.scope .alreadyInitialized))) w
  | child {n constants changeable arguments v} (hcurrent : w.current = some n)
    (hadds : w.AddsScope v
      ⟨w.current, constants, changeable, arguments.getD (w.store.scope n).arguments⟩
      (some w.store.scopes.size)) :
    Effect w (.child n constants changeable arguments) (.ok (some w.store.scopes.size)) v
  | childRefused {n constants changeable arguments} (hcurrent : w.current ≠ some n) :
    Effect w (.child n constants changeable arguments)
      (.error (.fault (.scope (.notCurrent "open a child context")))) w
  | close {n} (hcurrent : w.current = some n) :
    Effect w (.close n) (.ok none) { w with current := (w.store.scope n).parent }
  | closeRefused {n} (hcurrent : w.current ≠ some n) :
    Effect w (.close n) (.error (.fault (.scope (.notCurrent "close context")))) w
  | current {n} (hcurrent : w.current = some n) : Effect w .current (.ok (some n)) w
  | currentMade {v} (hcurrent : w.current = none)
    (hadds : w.AddsScope v ⟨none, [], [], []⟩ (some w.store.scopes.size)) :
    Effect w .current (.ok (some w.store.scopes.size)) v

/-- A step: every call has its effect. -/
theorem effect_run (call : ScopeCall) (w : World) :
    call.Effect w (call.run w).1 (call.run w).2 := by
  cases call with
  | make scope =>
    rw [run, Script.map_apply]
    exact .make (w.addsScope scope w.current)
  | init constants changeable arguments =>
    rw [run, Script.map_apply, Script.initScope_apply]
    rcases hcurrent : w.current with _ | n
    · exact .init hcurrent (w.addsScope _ _)
    · exact .initRefused (by simp [hcurrent])
  | child n constants changeable arguments =>
    rw [run, Script.map_apply, Script.openChild_apply]
    split
    · rename_i hcurrent
      exact .child hcurrent (hcurrent ▸ w.addsScope _ _)
    · rename_i hcurrent
      exact .childRefused hcurrent
  | close n =>
    rw [run, Script.map_apply, Script.closeScope_apply]
    split
    · rename_i hcurrent
      exact .close hcurrent
    · rename_i hcurrent
      exact .closeRefused hcurrent
  | current =>
    have hrun : (Script.currentScope : Script Nat) w = (.ok w.scope.1, w.scope.2) := rfl
    rw [run, Script.map_apply, hrun, World.scope]
    rcases hcurrent : w.current with _ | n
    · exact .currentMade hcurrent (w.addsScope _ _)
    · exact .current hcurrent

variable {call : ScopeCall} {w v : World} {result : Except Stop (Option Nat)}

/-- A call that is refused changes nothing. -/
theorem eq_of_refused {stop : Stop} (heffect : call.Effect w (.error stop) v) : v = w := by
  cases heffect <;> rfl

/-- Calls change no scope that is there. -/
theorem keepsScopes_of_effect (heffect : call.Effect w result v) :
    w.store.KeepsScopes v.store := by
  cases heffect with
  | make hadds | init _ hadds | child _ hadds | currentMade _ hadds => exact hadds.keepsScopes
  | close | initRefused | childRefused | closeRefused | current => exact .refl w.store

/-- While a scope is current, only opening a child and closing change which one. -/
theorem current_of_effect {c : Nat} (heffect : call.Effect w result v)
    (hother : call.opensOrCloses = true → ∃ stop, result = .error stop)
    (hcurrent : w.current = some c) : v.current = some c := by
  cases heffect with
  | make hadds => exact hadds.current_eq.trans hcurrent
  | init hnone | currentMade hnone =>
    exact absurd (hcurrent.symm.trans hnone) (Option.some_ne_none c)
  | child | close =>
    obtain ⟨stop, hresult⟩ := hother rfl
    cases hresult
  | initRefused | childRefused | closeRefused | current => exact hcurrent

theorem adds_of_opened {n : Nat} {constants changeable : List (Value × Value)}
    {arguments : Option (List Value)} {answer : Option Nat}
    (heffect : (child n constants changeable arguments).Effect w (.ok answer) v) :
    w.current = some n ∧ answer = some w.store.scopes.size ∧
      w.AddsScope v ⟨w.current, constants, changeable, arguments.getD (w.store.scope n).arguments⟩
        (some w.store.scopes.size) := by
  cases heffect with
  | child hcurrent hadds => exact ⟨hcurrent, rfl, hadds⟩

theorem eq_of_closed {n : Nat} {answer : Option Nat}
    (heffect : (close n).Effect w (.ok answer) v) :
    w.current = some n ∧ v = { w with current := (w.store.scope n).parent } := by
  cases heffect with
  | close hcurrent => exact ⟨hcurrent, rfl⟩

end ScopeCall

/-! ### Histories -/

/-- A program that uses scopes: it ends, or makes a call, or runs a block in a scope. How it goes on
depends on how these ended, and it may end by what stopped them. -/
inductive ScopeUser (α : Type) where
  /-- The end. -/
  | done (result : Except Stop α)
  /-- A call. -/
  | call (call : ScopeCall) (next : Except Stop (Option Nat) → ScopeUser α)
  /-- A block in a scope. -/
  | block (n : Nat) (body : ScopeUser α) (next : Except Stop α → ScopeUser α)

/-- What happened: calls and blocks one after the other, each with the world before it, and how it
ended. -/
inductive ScopeHistory (α : Type) where
  /-- The end. -/
  | ended (w : World) (result : Except Stop α)
  /-- A call and how it ended. -/
  | called (w : World) (call : ScopeCall) (result : Except Stop (Option Nat))
    (rest : ScopeHistory α)
  /-- A block in a scope and what happened inside. -/
  | left (w : World) (n : Nat) (inside : ScopeHistory α) (rest : ScopeHistory α)

namespace ScopeUser

variable {α : Type}

/-- The run of a program. -/
def run : ScopeUser α → Script α
  | done result => fun w => (result, w)
  | call c next => fun w => (next (c.run w).1).run (c.run w).2
  | block n body next => fun w =>
    (next (Script.within n body.run w).1).run (Script.within n body.run w).2

/-- What happens in the run of a program. -/
def history : ScopeUser α → World → ScopeHistory α
  | done result, w => .ended w result
  | call c next, w => .called w c (c.run w).1 ((next (c.run w).1).history (c.run w).2)
  | block n body next, w =>
    .left w n (body.history { w with current := some n })
      ((next (Script.within n body.run w).1).history (Script.within n body.run w).2)

end ScopeUser

namespace ScopeHistory

variable {α : Type}

/-- The world at the beginning. -/
def start : ScopeHistory α → World
  | ended w _ => w
  | called w _ _ _ => w
  | left w _ _ _ => w

/-- The world at the end. -/
def finish : ScopeHistory α → World
  | ended w _ => w
  | called _ _ _ rest => rest.finish
  | left _ _ _ rest => rest.finish

/-- The result. -/
def result : ScopeHistory α → Except Stop α
  | ended _ result => result
  | called _ _ _ rest => rest.result
  | left _ _ _ rest => rest.result

/-- Whether something holds at every point of a history, inside of blocks too. -/
def Always (P : ScopeHistory α → Prop) : ScopeHistory α → Prop
  | ended w result => P (ended w result)
  | called w call result rest => P (called w call result rest) ∧ rest.Always P
  | left w n inside rest => P (left w n inside rest) ∧ inside.Always P ∧ rest.Always P

/-- A history from a point on and from a later point on, such that in between every child that is
opened is closed again and nothing else is closed. There may be other calls, calls that are refused,
and blocks. -/
inductive Balanced : ScopeHistory α → ScopeHistory α → Prop
  /-- Nothing happens. -/
  | refl (h : ScopeHistory α) : Balanced h h
  /-- A call that neither opens a child nor closes a scope. -/
  | other {w call result rest later}
    (hother : call.opensOrCloses = true → ∃ stop, result = .error stop)
    (hrest : Balanced rest later) : Balanced (called w call result rest) later
  /-- A block. -/
  | block {w n inside rest later} (hrest : Balanced rest later) :
    Balanced (left w n inside rest) later
  /-- A child is opened, and a scope is closed. -/
  | nested {w n constants changeable arguments child rest u k answer outer later}
    (hinside : Balanced rest (called u (.close k) (.ok answer) outer))
    (houter : Balanced outer later) :
    Balanced (called w (.child n constants changeable arguments) (.ok child) rest) later

/-- Whether what comes next in a history is as it has to be: a call has its effect, and a block
starts with its scope as the current one and leaves the one current that was before. -/
def Follows : ScopeHistory α → Prop
  | ended _ _ => True
  | called w call result rest => call.Effect w result rest.start
  | left w n inside rest => inside.start = { w with current := some n } ∧
    rest.start = { inside.finish with current := w.current }

/-- Whether scopes nest from a point of a history on. -/
structure Nested (h : ScopeHistory α) : Prop where
  /-- What comes next is as it has to be. -/
  follows : h.Follows
  /-- A call that is refused changes nothing. -/
  refused : ∀ {w call stop rest}, h = called w call (.error stop) rest → rest.start = w
  /-- A child is opened of the current scope and is current then. -/
  opened : ∀ {w n constants changeable arguments child rest},
    h = called w (.child n constants changeable arguments) (.ok child) rest →
      w.current = some n ∧ ∃ m, child = some m ∧ rest.start.current = some m ∧
        (rest.start.store.scope m).parent = w.current
  /-- The current scope is closed, and its parent is current then. -/
  closed : ∀ {w n answer rest}, h = called w (.close n) (.ok answer) rest →
    w.current = some n ∧ rest.start.current = (w.store.scope n).parent
  /-- A block leaves the scope current that was current before it, or none. -/
  restored : ∀ {w n inside rest}, h = left w n inside rest → rest.start.current = w.current
  /-- The scopes that are there stay as they are, to the end. -/
  keeps : h.start.store.KeepsScopes h.finish.store
  /-- Calls among which every child that is opened is closed again lead back to the same scope. -/
  balanced : ∀ {later c}, h.Balanced later → h.start.current = some c → later.start.current = some c
  /-- The scope that is closed then is the child that was opened. -/
  matched : ∀ {w n constants changeable arguments child rest u k answer outer},
    h = called w (.child n constants changeable arguments) (.ok child) rest →
      rest.Balanced (called u (.close k) (.ok answer) outer) → child = some k

variable {h later : ScopeHistory α}

theorem Always.head {P : ScopeHistory α → Prop} (hP : h.Always P) : P h := by
  cases h with
  | ended => exact hP
  | called => exact hP.1
  | left => exact hP.1

/-- What follows from something holding from a point on holds at every point. -/
theorem Always.imp {P Q : ScopeHistory α → Prop} (hPQ : ∀ h : ScopeHistory α, h.Always P → Q h)
    (hP : h.Always P) : h.Always Q := by
  induction h with
  | ended => exact hPQ _ hP
  | called w call result rest ih => exact ⟨hPQ _ hP, ih hP.2⟩
  | left w n inside rest ihInside ih => exact ⟨hPQ _ hP, ihInside hP.2.1, ih hP.2.2⟩

/-- Scopes that are there stay as they are. -/
theorem keepsScopes_of_follows (hfollows : h.Always Follows) :
    h.start.store.KeepsScopes h.finish.store := by
  induction h with
  | ended => exact .refl _
  | called w call result rest ih =>
    exact (ScopeCall.keepsScopes_of_effect hfollows.1).trans (ih hfollows.2)
  | left w n inside rest ihInside ih =>
    obtain ⟨⟨hinside, hrest⟩, hfollowsInside, hfollowsRest⟩ := hfollows
    have hkeepsInside : w.store.KeepsScopes inside.finish.store := by
      simpa [hinside] using ihInside hfollowsInside
    have hkeepsRest : inside.finish.store.KeepsScopes rest.finish.store := by
      simpa [hrest] using ih hfollowsRest
    exact hkeepsInside.trans hkeepsRest

/-- Calls among which every child that is opened is closed again lead back to the same scope. The
induction is on how the calls are balanced; it also says that the scope opened first is still there
when it is closed, with the parent that it was given. -/
theorem Balanced.current {c : Nat} (hbalanced : h.Balanced later) (hfollows : h.Always Follows)
    (hcurrent : h.start.current = some c) :
    later.Always Follows ∧ later.start.current = some c ∧
      h.start.store.KeepsScopes later.start.store := by
  induction hbalanced generalizing c with
  | refl h => exact ⟨hfollows, hcurrent, .refl _⟩
  | other hother _ ih =>
    obtain ⟨heffect, hrest⟩ := hfollows
    obtain ⟨hlater, hcurrent', hkeeps⟩ :=
      ih hrest (ScopeCall.current_of_effect heffect hother hcurrent)
    exact ⟨hlater, hcurrent', (ScopeCall.keepsScopes_of_effect heffect).trans hkeeps⟩
  | @block w n inside rest later _ ih =>
    obtain ⟨⟨hinside, hstart⟩, hfollowsInside, hrest⟩ := hfollows
    have hkeepsInside : w.store.KeepsScopes rest.start.store := by
      simpa [hinside, hstart] using keepsScopes_of_follows hfollowsInside
    obtain ⟨hlater, hcurrent', hkeeps⟩ := ih hrest (by rw [hstart]; exact hcurrent)
    exact ⟨hlater, hcurrent', hkeepsInside.trans hkeeps⟩
  | @nested w n constants changeable arguments child rest u k answer outer later _ _ ihInside ih =>
    obtain ⟨heffect, hrest⟩ := hfollows
    obtain ⟨-, -, hadds⟩ := ScopeCall.adds_of_opened heffect
    obtain ⟨⟨hclose, houter⟩, hopened, hkeepsInside⟩ := ihInside hrest hadds.current_eq
    obtain ⟨hclosed, hstart⟩ := ScopeCall.eq_of_closed hclose
    have hk : k = w.store.scopes.size := Option.some_inj.1 (hclosed.symm.trans hopened)
    have hparent : (u.store.scope k).parent = w.current := by
      have hkept := hkeepsInside.scope k (by rw [hk, hadds.size]; exact Nat.lt_succ_self _)
      rw [start] at hkept
      rw [hkept, hk, hadds.own]
    have hkeepsOuter : w.store.KeepsScopes outer.start.store := by
      rw [hstart]
      exact hadds.keepsScopes.trans hkeepsInside
    obtain ⟨hlater, hcurrent', hkeeps⟩ := ih houter (by rw [hstart]; exact hparent.trans hcurrent)
    exact ⟨hlater, hcurrent', hkeepsOuter.trans hkeeps⟩

theorem nested_of_follows (hfollows : h.Always Follows) : h.Nested where
  follows := hfollows.head
  refused := by
    rintro w call stop rest rfl
    exact ScopeCall.eq_of_refused hfollows.1
  opened := by
    rintro w n constants changeable arguments child rest rfl
    obtain ⟨hcurrent, hchild, hadds⟩ := ScopeCall.adds_of_opened hfollows.1
    exact ⟨hcurrent, _, hchild, hadds.current_eq, by rw [hadds.own]⟩
  closed := by
    rintro w n answer rest rfl
    obtain ⟨hcurrent, hstart⟩ := ScopeCall.eq_of_closed hfollows.1
    exact ⟨hcurrent, by rw [hstart]⟩
  restored := by
    rintro w n inside rest rfl
    rw [hfollows.1.2]
  keeps := keepsScopes_of_follows hfollows
  balanced hbalanced hcurrent := (hbalanced.current hfollows hcurrent).2.1
  matched := by
    rintro w n constants changeable arguments child rest u k answer outer rfl hbalanced
    obtain ⟨-, hchild, hadds⟩ := ScopeCall.adds_of_opened hfollows.1
    obtain ⟨⟨hclose, -⟩, hopened, -⟩ := hbalanced.current hfollows.2 hadds.current_eq
    rw [hchild, ← hopened]
    exact (ScopeCall.eq_of_closed hclose).1

end ScopeHistory

namespace ScopeUser

variable {α : Type}

/-- A history starts in the world that the program is run in. -/
@[simp] theorem start_history (p : ScopeUser α) (w : World) : (p.history w).start = w := by
  cases p <;> rfl

/-- A history ends as the run does. -/
theorem run_eq_history (p : ScopeUser α) (w : World) :
    p.run w = ((p.history w).result, (p.history w).finish) := by
  induction p generalizing w with
  | done result => rfl
  | call c next ih => exact ih (c.run w).1 (c.run w).2
  | block n body next _ ih =>
    exact ih (Script.within n body.run w).1 (Script.within n body.run w).2

/-- What comes next in a history is as it has to be. -/
theorem always_follows_history (p : ScopeUser α) (w : World) :
    (p.history w).Always ScopeHistory.Follows := by
  induction p generalizing w with
  | done result => exact trivial
  | call c next ih =>
    refine ⟨?_, ih _ _⟩
    rw [ScopeHistory.Follows, start_history]
    exact c.effect_run w
  | block n body next ihBody ih =>
    refine ⟨⟨start_history .., ?_⟩, ihBody _, ih _ _⟩
    rw [start_history, Script.within, run_eq_history]

/-- Scopes nest in the run of every program, at every point of it and inside of all its blocks. -/
theorem always_nested_history (p : ScopeUser α) (w : World) :
    p.run w = ((p.history w).result, (p.history w).finish) ∧ (p.history w).start = w ∧
      (p.history w).Always ScopeHistory.Nested :=
  ⟨p.run_eq_history w, p.start_history w,
    (p.always_follows_history w).imp fun _ ↦ ScopeHistory.nested_of_follows⟩

end ScopeUser

end ResourceScript

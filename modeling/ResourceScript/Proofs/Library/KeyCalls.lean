import ResourceScript.Proofs.Location.VariablePath
import ResourceScript.Proofs.Resource.Ways
import ResourceScript.Proofs.Session.Steps
/-!
# Paths and calls within calls

The function `of` reads a key of a subject, so calls of it within calls read several keys, as a path
of variables does. A call executes its subject one level deeper and reads the key of what that
answers (`Script.runAt_execute_keyCall_of_ok`), so the calls answer what the keys read one after the
other, also of null (`Script.runAt_execute_keyCalls`). A path ends at null instead, and answers null
where a key cannot be read. Both answer the same value but for that (`Script.getData_keyCalls`).
-/

set_option autoImplicit false

namespace ResourceScript

namespace Builtin

/-- The function `of`, which reads a key of a subject. -/
def ofFunction : Function := ⟨"of", .relation, some 2, .builtin .of⟩

end Builtin

/-- The call that reads a key of a subject. -/
def keyCall (subject : Value) (key : String) : Value :=
  .call (some Builtin.ofFunction) [.text key, subject]

/-- Calls within calls that read keys one after the other, the innermost of a subject. -/
def keyCalls (subject : Value) (keys : List String) : Value :=
  keys.foldl keyCall subject

theorem keyCalls_concat (subject : Value) (front : List String) (key : String) :
    keyCalls subject (front ++ [key]) = keyCall (keyCalls subject front) key := by
  rw [keyCalls, List.foldl_append]
  rfl

namespace Script

variable {jobs : Job → Script Value} {w v : World} {subject value : Value} {key : String}
  {depth : Nat}

/-! ### Running calls -/

theorem perform_keyCall (subject : Value) (key : String) :
    Library.perform .standard (some Builtin.ofFunction) [.text key, subject] =
      execute subject >>= fun value ↦ Library.key .standard (.text key) >>= getValue value := by
  show (execute subject >>= fun value ↦ [Value.text key].foldlM _ value) = _
  simp only [List.foldlM_cons, List.foldlM_nil, bind_pure]

theorem runAt_execute_keyCall (subject : Value) (key : String) (depth : Nat) :
    (execute (keyCall subject key)).runAt (depth + 1) =
      (execute subject).runAt depth >>= fun value ↦
        ((Library.key .standard (.text key) >>= getValue value) >>= execute).runAt depth := by
  have hrun : (execute (keyCall subject key)).runAt (depth + 1) =
      (Library.perform .standard (some Builtin.ofFunction) [.text key, subject] >>=
        execute).runAt depth := by
    rw [runAt_execute]
    rfl
  rw [hrun, perform_keyCall, bind_assoc]
  exact Task.run_bind _ _

theorem key_text (key : String) : Library.key .standard (.text key) = pure (.text key) :=
  rfl

/-- A call reads the key of what its subject answers, and executes what that is. -/
theorem runAt_execute_keyCall_of_ok
    (hsubject : (execute subject).runAt depth w = (.ok value, v)) :
    (execute (keyCall subject key)).runAt (depth + 1) w =
      ((ofExcept (v.store.getValue value key) : Task Value) >>= execute).runAt depth v := by
  rw [runAt_execute_keyCall, bind_of_ok hsubject, key_text]
  rfl

theorem runAt_execute_keyCall_of_error {stop : Stop}
    (hsubject : (execute subject).runAt depth w = (.error stop, v)) :
    (execute (keyCall subject key)).runAt (depth + 1) w = (.error stop, v) := by
  rw [runAt_execute_keyCall, bind_of_error hsubject]

/-- Calls of data answer what the keys read one after the other, if they may nest as deep as there
are keys below what the subject needs. -/
theorem runAt_execute_keyCalls {level : Nat} (hlevel : 0 < level) (hvalue : w.store.IsRead value)
    (hsubject : ∀ depth, level ≤ depth → (execute subject).runAt depth w = (.ok value, w))
    (keys : List String) (hdepth : keys.length + level ≤ depth) :
    (execute (keyCalls subject keys)).runAt depth w =
      (ofExcept (w.store.readThrough value keys) : Task Value).runAt depth w := by
  induction keys using List.reverseRecOn generalizing depth with
  | nil => exact hsubject depth (by simpa using hdepth)
  | append_singleton front key ih =>
    rw [List.length_append, List.length_singleton] at hdepth
    obtain ⟨depth, rfl⟩ : ∃ inner, depth = inner + 1 := ⟨depth - 1, by omega⟩
    have hinner : (execute (keyCalls subject front)).runAt depth w =
        (ofExcept (w.store.readThrough value front) : Task Value).runAt depth w := ih (by omega)
    rw [keyCalls_concat, Store.readThrough_concat]
    cases hfront : w.store.readThrough value front with
    | error cause =>
      rw [hfront] at hinner
      exact runAt_execute_keyCall_of_error hinner
    | ok next =>
      rw [hfront] at hinner
      rw [runAt_execute_keyCall_of_ok hinner]
      have hnext := (Store.goes_readThrough hvalue front).of_ok hfront
      show _ = (ofExcept (w.store.getValue next key) : Task Value).runAt (depth + 1) w
      cases hget : w.store.getValue next key with
      | error cause => rfl
      | ok answer =>
        -- What is read is plain, so executing it once more does nothing but take a level.
        have hplain := ((Store.goes_getValue_isRead hnext key).of_ok hget).isPlain
        obtain ⟨rest, rfl⟩ : ∃ rest, depth = rest + 1 := ⟨depth - 1, by omega⟩
        exact runAt_execute_of_isPlain hplain rest w

/-- Calls that nest deeper than they may are exhausted. -/
theorem runAt_execute_keyCalls_of_lt {level : Nat}
    (hsubject : ∀ depth < level, (execute subject).runAt depth w = (.error .exhausted, w))
    (keys : List String) (hdepth : depth < keys.length + level) :
    (execute (keyCalls subject keys)).runAt depth w = (.error .exhausted, w) := by
  induction keys using List.reverseRecOn generalizing depth with
  | nil => exact hsubject depth (by simpa using hdepth)
  | append_singleton front key ih =>
    rw [List.length_append, List.length_singleton] at hdepth
    rw [keyCalls_concat]
    cases depth with
    | zero => rw [runAt_execute]; rfl
    | succ depth => exact runAt_execute_keyCall_of_error (ih (by omega))

/-- Executing a resource executes its data, one level deeper. -/
theorem runAt_execute_resource {r : ResourceRef}
    (hdata : (getData r).run (Job.run depth) w = (.ok value, v)) :
    (execute (.resource r)).runAt (depth + 1) w = (execute value).runAt depth v := by
  have hrun : (execute (.resource r)).runAt (depth + 1) = (getData r >>= execute).runAt depth := by
    rw [runAt_execute]
    rfl
  rw [hrun, Task.runAt, Task.run_bind, bind_of_ok hdata]
  rfl

/-! ### Resources of paths -/

section

variable {n : Nat} {r : ResourceRef} {name : String} {keys : List String}
  (hname : Location.IsVariableName name.toList) (hkeys : ∀ key ∈ keys, Location.IsName key.toList)

include hname hkeys in
theorem place_variablePath :
    Location.place (Location.variablePath (name :: keys)) = .variable := by
  rw [Location.place, (Location.isPathOf_variablePath hname hkeys).scheme?_eq_none]

section

variable (hcurrent : w.current = some n)
  (huri : (w.store.resource r).uri = some (Location.variablePath (name :: keys)))

include hname hkeys hcurrent huri

/-- The data of a path is what its names lead to. -/
theorem run_getData_variablePath (hfollow : w.store.follow (.scope n) (name :: keys) = .ok value) :
    (getData r).run jobs w = (.ok value, w) := by
  have hplace := place_variablePath hname hkeys
  refine run_getData_of_variableAt hcurrent huri (.inl hplace) ?_
  rw [hplace, Location.segments_variablePath hname hkeys]
  exact hfollow

/-- When a name cannot be read, the data is null, and there is a warning. -/
theorem run_getData_variablePath_of_error
    (hfollow : w.store.follow (.scope n) (name :: keys) = .error .value) :
    (getData r).run jobs w = (.ok .null, { w with warnings := .cannotGet :: w.warnings }) := by
  have hvariable : w.store.variableAt n .variable (name :: keys) = .error .value := hfollow
  rw [getData, run_operate huri]
  simp only [place_variablePath hname hkeys, Location.segments_variablePath hname hkeys]
  rw [run_walkFrom hcurrent, hvariable]
  rfl

end

section

variable (hcurrent : w.current = some n) (hdata : w.store.HoldsData n)
  (huri : (w.store.resource r).uri = some name)

include hname hcurrent hdata huri

/-- The name of a variable is read. -/
theorem exists_getData_variable : ∃ value, w.store.getValue (.scope n) name = .ok value ∧
    w.store.IsRead value ∧ ∀ jobs, (getData r).run jobs w = (.ok value, w) := by
  have hscope : w.store.IsRead (.scope n) := .scope hdata
  cases hget : w.store.getValue (.scope n) name with
  | error cause =>
    have hline : '\n' ∉ name.toList := hname.not_mem (by decide) (by decide)
    obtain ⟨-, ⟨i, hspells⟩, -⟩ := Store.failsOverlong_getValue hscope hline cause hget
    exact absurd hspells (hname.not_spells i)
  | ok value =>
    refine ⟨value, rfl, (Store.goes_getValue_isRead hscope name).of_ok hget, fun jobs ↦ ?_⟩
    have hpath : Location.variablePath [name] = name := String.ofList_toList
    exact run_getData_variablePath hname (List.forall_mem_nil _) hcurrent (by rw [hpath, huri])
      (Store.follow_singleton hget)

/-- Calls of a variable answer what its name and the keys read one after the other. -/
theorem runAt_execute_variable_keyCalls (hdepth : keys.length + 2 ≤ depth) :
    (execute (keyCalls (.resource r) keys)).runAt depth w =
      (ofExcept (w.store.readThrough (.scope n) (name :: keys)) : Task Value).runAt depth w := by
  obtain ⟨value, hget, hvalue, hrun⟩ := exists_getData_variable hname hcurrent hdata huri
  rw [Store.readThrough_cons, hget]
  refine runAt_execute_keyCalls Nat.two_pos hvalue (fun depth hlevel ↦ ?_) keys hdepth
  obtain ⟨rest, rfl⟩ : ∃ rest, depth = rest + 2 := ⟨depth - 2, by omega⟩
  rw [runAt_execute_resource (hrun _), runAt_execute_of_isPlain hvalue.isPlain]

theorem runAt_execute_variable_keyCalls_of_lt (hdepth : depth < keys.length + 2) :
    (execute (keyCalls (.resource r) keys)).runAt depth w = (.error .exhausted, w) := by
  obtain ⟨value, -, -, hrun⟩ := exists_getData_variable hname hcurrent hdata huri
  refine runAt_execute_keyCalls_of_lt (fun depth hlevel ↦ ?_) keys hdepth
  obtain rfl | rfl : depth = 0 ∨ depth = 1 := by omega
  · rw [runAt_execute]
    rfl
  · rw [runAt_execute_resource (hrun _), runAt_execute]
    rfl

end

/-- In scopes of data, the path of a variable and keys denotes itself as a location, and its data is
what the calls of `of` with these keys answer for the variable, whether keys lead to null or not,
but for three things. Calls that nest too deeply are exhausted. When the last key is `type` and
those before it lead to null, the path ends at null while the calls go on to a kind. When a key that
is met is a numeral of too many digits, the calls fail, which the path answers by null and a
warning. -/
theorem getData_keyCalls {r p : ResourceRef} (hcurrent : w.current = some n)
    (hdata : w.store.HoldsData n) (hname : Location.IsVariableName name.toList)
    (hkeys : ∀ key ∈ keys, Location.IsName key.toList)
    (hsubject : (w.store.resource r).uri = some name)
    (hpath : (w.store.resource p).uri = some (Location.variablePath (name :: keys))) (depth : Nat) :
    let path := Location.variablePath (name :: keys)
    let data := (getData p).runAt depth w
    let calls := (execute (keyCalls (.resource r) keys)).runAt depth w
    (∀ directories, Location.ofText? directories path.toList = .ok (some path)) ∧
    (depth < keys.length + 2 → calls = (.error .exhausted, w)) ∧
    (keys.length + 2 ≤ depth →
      (∀ value, w.store.follow (.scope n) (name :: keys) = .ok value →
        ¬ w.store.TypeBehindNull (.scope n) (name :: keys) →
          data = (.ok value, w) ∧ calls = (.ok value, w)) ∧
      (w.store.TypeBehindNull (.scope n) (name :: keys) →
        data = (.ok .null, w) ∧
          ∃ k, (k = .object ∨ k = .kind) ∧ calls = (.ok (.atom (.kind k)), w)) ∧
      (∀ cause, w.store.follow (.scope n) (name :: keys) = .error cause →
        (∃ key ∈ keys, IsOverlong key) ∧
          data = (.ok .null, { w with warnings := .cannotGet :: w.warnings }) ∧
          calls = (.error (.fault .value), w))) := by
  have hnull : (Value.scope n).isNull = false := rfl
  refine ⟨fun directories ↦ ?denotes, runAt_execute_variable_keyCalls_of_lt hname hcurrent hdata
    hsubject, fun hdepth ↦ ?_⟩
  case denotes =>
    rw [(Location.isPathOf_variablePath hname hkeys).ofText?_eq, String.ofList_toList]
  have hcalls := runAt_execute_variable_keyCalls hname hcurrent hdata hsubject hdepth
  refine ⟨fun value hfollow hlast ↦ ?same, fun hlast ↦ ?type, fun cause hfollow ↦ ?failed⟩
  case same =>
    refine ⟨run_getData_variablePath hname hkeys hcurrent hpath hfollow, ?_⟩
    rw [hcalls, Store.readThrough_eq_follow hnull hlast, hfollow]
    rfl
  case type =>
    obtain ⟨hfollow, k, hk, hread⟩ := Store.readThrough_of_typeBehindNull hnull hlast
    refine ⟨run_getData_variablePath hname hkeys hcurrent hpath hfollow, k, hk, ?_⟩
    rw [hcalls, hread]
    rfl
  case failed =>
    have hlast : ¬ w.store.TypeBehindNull (.scope n) (name :: keys) := fun hlast ↦ by
      cases hfollow.symm.trans (Store.readThrough_of_typeBehindNull hnull hlast).1
    have hread := (Store.readThrough_eq_follow hnull hlast).trans hfollow
    have hline : ∀ key ∈ name :: keys, '\n' ∉ key.toList :=
      List.forall_mem_cons.2 ⟨hname.not_mem (by decide) (by decide),
        fun key hkey ↦ (hkeys key hkey).not_mem (by decide) (by decide)⟩
    obtain ⟨rfl, key, hkey, hlong⟩ :=
      Store.exists_isOverlong_of_readThrough (.scope hdata) hline hread
    refine ⟨?_, run_getData_variablePath_of_error hname hkeys hcurrent hpath hfollow, ?_⟩
    · rcases List.mem_cons.1 hkey with rfl | hkey
      · obtain ⟨⟨i, hspells⟩, -⟩ := hlong
        exact absurd hspells (hname.not_spells i)
      · exact ⟨key, hkey, hlong⟩
    · rw [hcalls, hread]
      rfl

end

/-! ### A list in a map -/

/-- A world in which the variable `x` is a map with a list under `a`, the first resource addresses
the variable, and the second one keys behind it. -/
def mapWorld (keys : List String) : World :=
  { builtinWorld with
    store := ⟨#[.map [(.text "a", .cell 1)], .list [.int 1, .null]],
      #[⟨.text "x", some "x", none⟩,
        ⟨.text (Location.variablePath ("x" :: keys)), some (Location.variablePath ("x" :: keys)),
          none⟩],
      #[⟨none, [], [(.text "x", .cell 0)], []⟩], []⟩
    current := some 0 }

theorem bindings_mapWorld (keys : List String) :
    (mapWorld keys).store.bindings 0 = [(.text "x", .cell 0)] := by
  rw [Store.bindings, Store.chain_of_root rfl]
  rfl

theorem getValue_mapWorld (keys : List String) :
    (mapWorld keys).store.getValue (.scope 0) "x" = .ok (.cell 0) := by
  rw [Store.getValue_scope (by decide), bindings_mapWorld]
  rfl

theorem holdsData_mapWorld (keys : List String) : (mapWorld keys).store.HoldsData 0 := by
  have hlist : (mapWorld keys).store.IsBuilt (.cell 1) :=
    .list rfl (List.forall_mem_cons.2 ⟨.elementary ⟨.int 1, rfl, trivial⟩,
      List.forall_mem_singleton.2 (.elementary ⟨.null, rfl, trivial⟩)⟩)
  have hmap : (mapWorld keys).store.IsBuilt (.cell 0) :=
    .map rfl (List.forall_mem_singleton.2 ⟨.text "a", rfl, trivial⟩)
      (List.forall_mem_singleton.2 hlist)
  intro entry hentry
  rw [bindings_mapWorld, List.mem_singleton] at hentry
  exact hentry ▸ hmap.isData

theorem isVariableName_x : Location.IsVariableName "x".toList :=
  ⟨Location.isName_of_all (by decide) "x" (List.mem_singleton_self "x"), 'x', rfl, by decide⟩

/-- The path and the calls ask for the kind of the size of the list. -/
theorem getData_keyCalls_mapWorld :
    (getData (.made 1)).runAt 5 (mapWorld ["a", "size", "type"]) =
        (.ok (.atom (.kind .int)), mapWorld ["a", "size", "type"]) ∧
      (execute (keyCalls (.resource (.made 0)) ["a", "size", "type"])).runAt 5
          (mapWorld ["a", "size", "type"]) =
        (.ok (.atom (.kind .int)), mapWorld ["a", "size", "type"]) := by
  have hfollow : (mapWorld ["a", "size", "type"]).store.follow (.scope 0)
      ["x", "a", "size", "type"] = .ok (.atom (.kind .int)) := by
    rw [Store.follow_cons, getValue_mapWorld]
    rfl
  have hfront : (mapWorld ["a", "size", "type"]).store.follow (.scope 0) ["x", "a", "size"] =
      .ok (.int 2) := by
    rw [Store.follow_cons, getValue_mapWorld]
    rfl
  obtain ⟨-, -, hdeep⟩ := getData_keyCalls (r := .made 0) (p := .made 1) rfl
    (holdsData_mapWorld ["a", "size", "type"]) isVariableName_x
    (Location.isName_of_all (by decide)) rfl rfl 5
  refine (hdeep (by decide)).1 _ hfollow fun hlast ↦ ?_
  cases hfront.symm.trans hlast.2

/-- Whether the path of keys answers in such a world what the calls answer. -/
def AnswersAlike (keys : List String) : Prop :=
  ((getData (.made 1)).runAt Job.maxDepth (mapWorld keys)).1 =
    ((execute (keyCalls (.resource (.made 0)) keys)).runAt Job.maxDepth (mapWorld keys)).1

/-- A name that the map does not have, and `type`. -/
def typeBehindNull : List String := ["b", "type"]

/-- The name of the list, and more zeros than a numeral may have. -/
def manyZeros : List String := ["a", String.ofList (List.replicate 4301 '0')]

/-- More names than calls may nest. -/
def manyNames : List String := List.replicate 400 "a"

theorem isOverlong_zeros : IsOverlong (String.ofList (List.replicate 4301 '0')) := by
  have hdigits : Numeral.IsDigits (List.replicate 4301 '0') := by
    refine ⟨List.cons_ne_nil _ _, fun c hc ↦ ?_⟩
    rw [List.eq_of_mem_replicate hc]
    decide
  rw [IsOverlong, String.toList_ofList, hdigits.sign, List.length_replicate]
  exact ⟨⟨_, .unsigned hdigits⟩, by decide⟩

theorem isName_a : Location.IsName "a".toList :=
  Location.isName_of_all (by decide) "a" (List.mem_singleton_self "a")

theorem isName_of_mem_typeBehindNull : ∀ key ∈ typeBehindNull, Location.IsName key.toList :=
  Location.isName_of_all (by decide)

theorem isName_of_mem_manyZeros : ∀ key ∈ manyZeros, Location.IsName key.toList := by
  refine List.forall_mem_cons.2 ⟨isName_a, List.forall_mem_singleton.2 ?_⟩
  rw [String.toList_ofList]
  refine Location.isName_of_isAlphanumeric (List.cons_ne_nil _ _) fun c hc ↦ ?_
  rw [List.eq_of_mem_replicate hc]
  decide

theorem isName_of_mem_manyNames : ∀ key ∈ manyNames, Location.IsName key.toList := by
  intro key hkey
  rw [List.eq_of_mem_replicate hkey]
  exact isName_a

theorem getData_mapWorld {keys : List String} {value : Value}
    (hkeys : ∀ key ∈ keys, Location.IsName key.toList)
    (hfollow : (mapWorld keys).store.follow (.cell 0) keys = .ok value) :
    (getData (.made 1)).runAt Job.maxDepth (mapWorld keys) = (.ok value, mapWorld keys) := by
  refine run_getData_variablePath isVariableName_x hkeys rfl rfl ?_
  rw [Store.follow_cons, getValue_mapWorld]
  exact hfollow

theorem getData_mapWorld_of_error {keys : List String}
    (hkeys : ∀ key ∈ keys, Location.IsName key.toList)
    (hfollow : (mapWorld keys).store.follow (.cell 0) keys = .error .value) :
    ((getData (.made 1)).runAt Job.maxDepth (mapWorld keys)).1 = .ok .null := by
  rw [Task.runAt, run_getData_variablePath_of_error isVariableName_x hkeys rfl rfl ?_]
  rw [Store.follow_cons, getValue_mapWorld]
  exact hfollow

theorem calls_mapWorld {keys : List String} (hdepth : keys.length + 2 ≤ Job.maxDepth) :
    (execute (keyCalls (.resource (.made 0)) keys)).runAt Job.maxDepth (mapWorld keys) =
      (ofExcept ((mapWorld keys).store.readThrough (.cell 0) keys) : Task Value).runAt
        Job.maxDepth (mapWorld keys) := by
  rw [runAt_execute_variable_keyCalls isVariableName_x rfl (holdsData_mapWorld keys) rfl hdepth,
    Store.readThrough_cons, getValue_mapWorld]
  rfl

theorem calls_mapWorld_of_lt {keys : List String} (hdepth : Job.maxDepth < keys.length + 2) :
    (execute (keyCalls (.resource (.made 0)) keys)).runAt Job.maxDepth (mapWorld keys) =
      (.error .exhausted, mapWorld keys) :=
  runAt_execute_variable_keyCalls_of_lt isVariableName_x rfl (holdsData_mapWorld keys) rfl hdepth

/-- The list is not asked for a position of too many digits, on either way. -/
theorem ways_mapWorld_of_isOverlong {key : String} (hkey : IsOverlong key) (keys : List String) :
    (mapWorld keys).store.follow (.cell 0) ["a", key] = .error .value ∧
      (mapWorld keys).store.readThrough (.cell 0) ["a", key] = .error .value := by
  have hlist : (mapWorld keys).store.cells[1]? = some (.list [.int 1, .null]) := rfl
  have htype : key ≠ "type" := by
    obtain ⟨n, hspells⟩ := hkey.1
    exact ne_of_spells hspells (by decide)
  have hget : (mapWorld keys).store.getValue (.cell 1) key = .error .value := by
    rw [Store.getValue_elements (.inl hlist) htype, getElement_of_isOverlong hkey]
  have hfirst : (mapWorld keys).store.getValue (.cell 0) "a" = .ok (.cell 1) := rfl
  rw [Store.follow_cons, Store.readThrough_cons, hfirst]
  constructor
  · show (mapWorld keys).store.follow (.cell 1) [key] = .error .value
    rw [Store.follow_cons, hget]
    rfl
  · show (mapWorld keys).store.readThrough (.cell 1) [key] = .error .value
    rw [Store.readThrough_cons, hget]
    rfl

/-- Behind null, `type` has the path answer null and the calls a kind; at too many zeros the path
answers null and the calls fail; and too many names exhaust the calls, but not the path. -/
theorem not_answersAlike :
    ((∀ key ∈ typeBehindNull, Location.IsName key.toList) ∧ ¬ AnswersAlike typeBehindNull) ∧
      ((∀ key ∈ manyZeros, Location.IsName key.toList) ∧ ¬ AnswersAlike manyZeros) ∧
      (∀ key ∈ manyNames, Location.IsName key.toList) ∧ ¬ AnswersAlike manyNames := by
  refine ⟨⟨isName_of_mem_typeBehindNull, fun halike ↦ ?type⟩,
    ⟨isName_of_mem_manyZeros, fun halike ↦ ?zeros⟩, isName_of_mem_manyNames, fun halike ↦ ?many⟩
  case type =>
    have hread : (mapWorld typeBehindNull).store.readThrough (.cell 0) typeBehindNull =
        .ok (.atom (.kind .object)) := rfl
    rw [AnswersAlike, calls_mapWorld (by decide), hread,
      getData_mapWorld isName_of_mem_typeBehindNull rfl] at halike
    cases halike
  case zeros =>
    have hways := ways_mapWorld_of_isOverlong isOverlong_zeros manyZeros
    have hread : (mapWorld manyZeros).store.readThrough (.cell 0) manyZeros = .error .value :=
      hways.2
    rw [AnswersAlike, calls_mapWorld (by decide), hread,
      getData_mapWorld_of_error isName_of_mem_manyZeros hways.1] at halike
    cases halike
  case many =>
    have hdepth : Job.maxDepth < manyNames.length + 2 := by
      rw [manyNames, List.length_replicate]
      decide
    rw [AnswersAlike, calls_mapWorld_of_lt hdepth,
      getData_mapWorld isName_of_mem_manyNames rfl] at halike
    cases halike

end Script

end ResourceScript

import ResourceScript.Library
import ResourceScript.Proofs.Isolation.Member
/-!
# Built-in functions on a placed store

Every built-in function follows itself when what it is given to run does, and the jobs that the
standard runner orders from the world are carried to their images. So a job within jobs runs in a
world that holds its own one as it runs there: by induction on the depth to which jobs nest
(`Placement.ends_jobRun`).
-/

set_option autoImplicit false

namespace ResourceScript

/-! ### Calls of images -/

namespace Call

variable {P : Placement}

@[simp] theorem value_eq_function_iff {token : Value} {g : Function} :
    P.value token = .function g ↔ token = .function g := by
  cases token <;> simp

theorem function_ne_value {token : Value} (htoken : ∀ g, token ≠ .function g) (g : Function) :
    P.value token ≠ .function g :=
  fun h ↦ htoken g (value_eq_function_iff.1 h)

theorem takeParams_map (f : Option Function) (taken : Nat) (tokens : List Value) :
    (takeParams f taken (tokens.map P.value)).val =
      ⟨(takeParams f taken tokens).val.params.map P.value,
        (takeParams f taken tokens).val.rest.map P.value⟩ := by
  induction f, taken, tokens using takeParams.induct with
  | case1 f taken =>
    rw [List.map_nil, takeParams_nil]
    rfl
  | case2 f taken token rest hfull =>
    rw [takeParams_full hfull, takeParams_full hfull]
    rfl
  | case3 f taken token rest hfull hbloc _ _ _ ih =>
    have hfull := Bool.eq_false_iff.2 hfull
    rw [List.map_cons, takeParams_header hfull hbloc, takeParams_header hfull hbloc, ih]
    rfl
  | case4 f taken rest hfull hbloc g hcloses =>
    have hfull := Bool.eq_false_iff.2 hfull
    have hbloc := Bool.eq_false_iff.2 hbloc
    rw [List.map_cons, Placement.value_atom, takeParams_closer hfull hbloc hcloses,
      takeParams_closer hfull hbloc hcloses]
    rfl
  | case5 f taken rest hfull hbloc g hcloses inner _ hinner _ _ _ ihinner ihmore =>
    have hfull := Bool.eq_false_iff.2 hfull
    have hbloc := Bool.eq_false_iff.2 hbloc
    have hcloses := Bool.eq_false_iff.2 hcloses
    rw [hinner] at ihinner
    rw [List.map_cons, Placement.value_atom, takeParams_call hfull hbloc hcloses,
      takeParams_call hfull hbloc hcloses, ihinner, hinner]
    simp only [ihmore, List.map_cons, Placement.value_call]
  | case6 f taken rest hfull hbloc token htoken _ _ _ ih =>
    have hfull := Bool.eq_false_iff.2 hfull
    have hbloc := Bool.eq_false_iff.2 hbloc
    rw [List.map_cons, takeParams_value hfull hbloc (function_ne_value htoken),
      takeParams_value hfull hbloc htoken, ih]
    rfl

theorem calls_map (tokens : List Value) :
    calls (tokens.map P.value) = (calls tokens).map P.value := by
  induction tokens using calls.induct with
  | case1 =>
    rw [List.map_nil, calls_nil]
    rfl
  | case2 g rest t _ ht ih =>
    rw [List.map_cons, Placement.value_atom, calls_function, calls_function, takeParams_map, ht]
    simp only [ih, List.map_cons, Placement.value_call]
  | case3 token rest htoken t _ ht ih =>
    rw [List.map_cons, calls_value (function_ne_value htoken), calls_value htoken,
      takeParams_map, ht]
    simp only [ih, List.map_cons, Placement.value_call]

/-- The call of the images of tokens is the image of their call. -/
theorem ofTokens_map (tokens : List Value) :
    ofTokens (tokens.map P.value) = P.value (ofTokens tokens) := by
  unfold ofTokens
  rw [calls_map]
  rcases calls tokens with _ | ⟨first, _ | ⟨second, rest⟩⟩
  · exact (Placement.value_call P none []).symm
  · rfl
  · exact (Placement.value_call P none (first :: second :: rest)).symm

end Call

namespace Placement

open Library

variable {P : Placement}

/-- Whether what a runner runs is followed. -/
structure FollowsRunner (P : Placement) (r : Runner) : Prop where
  execute : ∀ v, P.Follows P.value (r.execute v) (r.execute (P.value v))
  perform : ∀ f params,
    P.Follows P.value (r.perform f params) (r.perform f (params.map P.value))

@[simp] theorem parameter_map (params : List Value) (position : Nat) :
    parameter (params.map P.value) position = P.value (parameter params position) := by
  unfold parameter
  rw [List.getElem?_map]
  cases params[position]? <;> simp

theorem filter_isLine_map (params : List Value) :
    splitBloc (params.map P.value) =
      ((splitBloc params).1.map P.value, (splitBloc params).2.map P.value) := by
  have hline (v : Value) : isLine (P.value v) = isLine v := by cases v <;> simp [isLine]
  simp [splitBloc, List.filter_map, Function.comp_def, hline]

theorem follows_madeRef (v : Value) :
    P.Follows P.resource (do return .made (← Script.newResource v))
      (do return .made (← Script.newResource (P.value v))) :=
  (follows_newResource v).bind fun _ ↦ follows_pure rfl

/-- A function refuses more parameters than it takes. -/
theorem follows_limited {α β : Type} {move : α → α} {x x' : Task α} (hx : P.Follows move x x')
    (count length : Nat) (cause : Fault) (next next' : β → Task α) :
    P.Follows move (if count < length then Script.fail cause >>= next else x)
      (if count < length then Script.fail cause >>= next' else x') := by
  split
  · exact follows_fail_bind _ _ _
  · exact hx

section

variable {r : Runner} (hr : P.FollowsRunner r)

include hr

theorem follows_settle (bound : Nat) (v : Value) :
    P.Follows P.value (settle r bound v) (settle r bound (P.value v)) := by
  induction bound generalizing v with
  | zero => exact follows_throw _
  | succ bound ih =>
    cases v with
    | call f params =>
      rw [value_call]
      exact (hr.perform f params).bind ih
    | _ => exact follows_pure rfl

theorem follows_resourceOf (v : Value) :
    P.Follows P.resource (resourceOf r v) (resourceOf r (P.value v)) := by
  refine follows_surroundings fun _ ↦ (follows_settle hr _ v).bind fun settled ↦ ?_
  have hsettled := follows_madeRef (P := P) settled
  cases settled with
  | resource n => exact follows_pure rfl
  | _ => exact hsettled

theorem follows_keyWithin (bound : Nat) (v : Value) :
    P.Follows P.value (keyWithin r bound v) (keyWithin r bound (P.value v)) := by
  induction bound generalizing v with
  | zero => exact follows_throw _
  | succ bound ih =>
    have htext (v : Value) : P.Follows P.value (do return .text (← Script.textOf v))
        (do return .text (← Script.textOf (P.value v))) :=
      (follows_textOf v).bind fun _ ↦ follows_pure (P.value_atom _)
    have hv := htext v
    cases v with
    | atom a =>
      rw [value_atom] at hv ⊢
      cases a with
      | null | text s | function f => exact follows_pure (P.value_atom _)
      | _ => exact hv
    | resource n =>
      rw [value_resource]
      refine (follows_resource n).bind fun record ↦ ?_
      rw [record_uri]
      split
      · exact follows_pure (P.value_atom _)
      · split
        · exact follows_pure (P.value_atom _)
        · exact (follows_getData n).bind ih
    | call f params =>
      rw [value_call]
      exact (hr.perform f params).bind ih
    | _ => exact hv

theorem follows_key (v : Value) : P.Follows P.value (key r v) (key r (P.value v)) :=
  follows_keyWithin hr _ v

theorem follows_truth (v : Value) :
    P.Follows (fun b ↦ b) (truth r v) (truth r (P.value v)) :=
  (hr.execute v).bind fun result ↦ (follows_view result).bind fun _ ↦ follows_ofExcept_same _

theorem follows_order (a b : Value) :
    P.Follows (fun o ↦ o) (order r a b) (order r (P.value a) (P.value b)) :=
  (hr.execute a).bind fun x ↦ (hr.execute b).bind fun y ↦ (follows_view x).bind fun _ ↦
    (follows_view y).bind fun _ ↦ follows_ofExcept_same _

/-! ### Resources -/

theorem follows_put (params : List Value) :
    P.Follows P.value (put r params) (put r (params.map P.value)) := by
  unfold put
  rw [parameter_map, parameter_map]
  exact (follows_resourceOf hr _).bind fun n ↦ (hr.execute _).bind fun v ↦
    (follows_putData hr.execute n v).discard.bind fun _ ↦ follows_pure (P.value_resource n)

theorem follows_post (params : List Value) :
    P.Follows P.value (post r params) (post r (params.map P.value)) := by
  unfold post
  rw [parameter_map, ← List.map_drop]
  refine (follows_resourceOf hr _).bind fun n ↦ ?_
  exact follows_foldlM (fun _ v ↦ (hr.execute v).bind fun data ↦
    follows_postData hr.execute n data) (P.value_atom .null) _

/-! ### Constructors -/

theorem follows_string (v : Value) :
    P.Follows P.value
      (match v with
        | .null => return .text ""
        | value => do return .text (← Script.textOf (← r.execute value)))
      (match P.value v with
        | .null => return .text ""
        | value => do return .text (← Script.textOf (← r.execute value))) := by
  have htext : P.Follows P.value (do return .text (← Script.textOf (← r.execute v)))
      (do return .text (← Script.textOf (← r.execute (P.value v)))) :=
    (hr.execute v).bind fun result ↦ (follows_textOf result).bind fun _ ↦
      follows_pure (P.value_atom _)
  cases v with
  | atom a =>
    rw [value_atom] at htext ⊢
    cases a with
    | null => exact follows_pure (P.value_atom _)
    | _ => exact htext
  | _ => exact htext

theorem follows_date (params : List Value) :
    P.Follows P.value (date r params) (date r (params.map P.value)) := by
  refine follows_surroundings fun s ↦ (follows_mapM hr.execute params).bind fun values ↦
    (follows_mapM_plain follows_view values).bind fun data ↦ ?_
  have hanswer (m : Option Moment) : P.Follows P.value
      (pure ((m.map fun m ↦ Value.atom (.moment m)).getD .null))
      (pure ((m.map fun m ↦ Value.atom (.moment m)).getD .null)) :=
    follows_pure (by cases m <;> exact P.value_atom _)
  dsimp only
  split
  · exact hanswer _
  · exact (follows_ofExcept_same _).bind hanswer
  · exact (follows_ofExcept_same _).bind hanswer

theorem follows_mapOfPairs (entries : List (Value × Value)) (params : List Value) :
    P.Follows P.value (mapOfPairs r entries params)
      (mapOfPairs r (entries.map P.entry) (params.map P.value)) := by
  obtain ⟨n, hn⟩ : ∃ n, params.length ≤ n := ⟨_, Nat.le_refl _⟩
  induction n generalizing entries params with
  | zero =>
    obtain rfl := List.length_eq_zero_iff.1 (Nat.le_zero.1 hn)
    exact follows_newMap entries
  | succ n ih =>
    rcases params with _ | ⟨name, _ | ⟨v, rest⟩⟩
    · exact follows_newMap entries
    · refine (follows_key hr name).bind fun k ↦ follows_store fun own _ h ↦ ?_
      have hput := h.putEntry_entries k .null entries
      rw [value_atom] at hput
      rw [hput]
      exact follows_newMap _
    · refine (follows_key hr name).bind fun k ↦ (hr.execute v).bind fun v ↦
        follows_store fun own _ h ↦ ?_
      rw [h.putEntry_entries]
      refine ih _ rest ?_
      rw [List.length_cons, List.length_cons] at hn
      omega

theorem follows_map (params : List Value) :
    P.Follows P.value (Library.map r params) (Library.map r (params.map P.value)) := by
  rcases params with _ | ⟨single, _ | ⟨second, rest⟩⟩
  · exact follows_mapOfPairs hr [] []
  · exact (hr.execute single).bind fun v ↦ (follows_entriesOf v).bind follows_newMap
  · exact follows_mapOfPairs hr [] (single :: second :: rest)

/-! ### Sums -/

omit hr in
theorem follows_sumStart (v : Value) :
    P.Follows P.value (sumStart v) (sumStart (P.value v)) :=
  follows_store fun own _ h ↦ by
    rw [h.kindOf]
    split
    iterate 3 exact (follows_itemsOf v).bind follows_newList
    exact follows_pure rfl

omit hr in
theorem follows_sumStep (sum v : Value) :
    P.Follows P.value (sumStep sum v) (sumStep (P.value sum) (P.value v)) := by
  have hjoin (sum : Value) : P.Follows P.value
      (do
        let items ← Script.itemsOf sum
        Script.newList (items ++ (← Script.itemsOf v)))
      (do
        let items ← Script.itemsOf (P.value sum)
        Script.newList (items ++ (← Script.itemsOf (P.value v)))) :=
    (follows_itemsOf sum).bind fun items ↦ (follows_itemsOf v).bind fun others ↦ by
      rw [← List.map_append]
      exact follows_newList _
  have hsum := hjoin sum
  cases sum with
  | atom a =>
    rw [value_atom] at hsum ⊢
    cases a with
    | null => exact follows_sumStart v
    | bool b =>
      cases b with
      | true =>
        exact (follows_view v).bind fun _ ↦ (follows_ofExcept_same _).bind fun _ ↦
          follows_pure (P.value_atom _)
      | false => exact follows_pure (P.value_atom _)
    | text s => exact (follows_textOf v).bind fun _ ↦ follows_pure (P.value_atom _)
    | int n | real x =>
      exact (follows_view v).bind fun _ ↦ (follows_ofExcept_same _).bind fun _ ↦
        (follows_ofExcept_same _).bind fun n ↦ follows_pure (P.value_ofNumber n)
    | _ => exact hsum
  | _ => exact hsum

theorem follows_add (params : List Value) :
    P.Follows P.value (add r params) (add r (params.map P.value)) :=
  follows_foldlM (fun sum v ↦ (hr.execute v).bind (follows_sumStep sum)) (P.value_atom .null) _

/-! ### Relations and states -/

theorem follows_of (params : List Value) :
    P.Follows P.value (Library.of r params) (Library.of r (params.map P.value)) := by
  unfold Library.of
  rw [List.getLast?_map]
  cases params.getLast? with
  | none => exact follows_pure (P.value_atom .null)
  | some last =>
    refine (hr.execute last).bind fun v ↦ ?_
    rw [← List.map_dropLast, ← List.map_reverse]
    exact follows_foldlM (fun v name ↦ (follows_key hr name).bind (follows_getValue v)) rfl _

omit hr in
theorem bareFunction?_value (v : Value) : bareFunction? (P.value v) = bareFunction? v := by
  cases v with
  | atom a => rw [value_atom]
  | call f params =>
    rw [value_call]
    cases f with
    | none => rfl
    | some f => cases params <;> rfl
  | _ => simp [bareFunction?]

theorem follows_isState (subject state : Value) :
    P.Follows (fun b ↦ b) (isState r subject state)
      (isState r (P.value subject) (P.value state)) := by
  refine (hr.execute state).bind fun expected ↦ ?_
  have hequal (expected : Value) : P.Follows (fun b ↦ b)
      (do
        let o ← Script.ofExcept ((← Script.view subject).order (← Script.view expected))
        return o == .eq)
      (do
        let o ← Script.ofExcept
          ((← Script.view (P.value subject)).order (← Script.view (P.value expected)))
        return o == .eq) :=
    (follows_view subject).bind fun _ ↦ (follows_view expected).bind fun _ ↦
      (follows_ofExcept_same _).bind fun _ ↦ follows_pure rfl
  have hexpected := hequal expected
  cases expected with
  | atom a =>
    rw [value_atom] at hexpected ⊢
    cases a with
    | bool b =>
      exact (follows_view subject).bind fun _ ↦ (follows_ofExcept_same _).bind fun _ ↦
        follows_pure rfl
    | _ => exact hexpected
  | _ => exact hexpected

theorem follows_is (params : List Value) :
    P.Follows (fun b ↦ b) (is r params) (is r (params.map P.value)) := by
  unfold Library.is
  rw [parameter_map, parameter_map]
  refine (hr.execute _).bind fun subject ↦ follows_store fun own _ h ↦ ?_
  dsimp only
  rw [h.kindOf, bareFunction?_value]
  have hfunction (f : Function) := follows_isState hr subject (.function f)
  simp only [value_atom] at hfunction
  split
  · exact follows_isState hr subject _
  · split
    · exact follows_pure rfl
    · split
      · exact follows_pure rfl
      · exact hfunction _
    · exact hfunction _

/-! ### Commands -/

theorem follows_texts (params : List Value) :
    P.Follows (fun t ↦ t) (params.mapM fun param ↦ do Script.textOf (← r.execute param))
      ((params.map P.value).mapM fun param ↦ do Script.textOf (← r.execute param)) :=
  follows_mapM_plain (fun param ↦ (hr.execute param).bind follows_textOf) params

theorem follows_print (params : List Value) :
    P.Follows P.value (print r params) (print r (params.map P.value)) :=
  (follows_texts hr params).bind fun _ ↦ (follows_writeLine _).bind fun _ ↦
    follows_pure (P.value_atom _)

theorem follows_eval (params : List Value) :
    P.Follows P.value (eval r params) (eval r (params.map P.value)) := by
  refine follows_foldlM (fun _ param ↦ ?_) (P.value_atom .null) params
  have hparam := hr.execute param
  cases param with
  | atom a =>
    rw [value_atom] at hparam ⊢
    cases a with
    | text source => exact (follows_compile source).bind hr.execute
    | _ => exact hparam
  | _ => exact hparam

theorem follows_member (params : List Value) :
    P.Follows P.value (member r params) (member r (params.map P.value)) := by
  unfold member
  rw [parameter_map, parameter_map, ← List.map_drop]
  refine (hr.execute _).bind fun subject ↦ (follows_key hr _).bind fun name ↦
    (follows_mapM hr.execute _).bind fun arguments ↦ ?_
  cases name with
  | atom a =>
    rw [value_atom]
    cases a with
    | text name => exact (follows_callMember hr.execute subject name arguments).bind hr.execute
    | _ => exact follows_fail _
  | _ => exact follows_fail _

theorem follows_shell (params : List Value) :
    P.Follows P.value (shell r params) (shell r (params.map P.value)) := by
  have hrun (command : String) : P.Follows P.value
      (do
        let ran := (← Script.files).shell command
        Script.setFiles ran.1
        return .int ran.2)
      (do
        let ran := (← Script.files).shell command
        Script.setFiles ran.1
        return .int ran.2) :=
    follows_files.bind fun f ↦ (follows_setFiles _).bind fun _ ↦ follows_pure (P.value_atom _)
  refine (follows_texts hr params).bind fun texts ↦ follows_surroundings fun s ↦ ?_
  split
  · exact (follows_writeError _).bind fun _ ↦ hrun _
  · exact hrun _

theorem follows_exit (params : List Value) :
    P.Follows P.value (exit r params) (exit r (params.map P.value)) := by
  unfold exit
  rw [parameter_map]
  have hleave (v : Value) : P.Follows P.value
      (do
        let status ← Script.ofExcept (← Script.view (← r.execute v)).toInt
        throw (.exit status))
      (do
        let status ← Script.ofExcept (← Script.view (← r.execute (P.value v))).toInt
        throw (.exit status)) :=
    (hr.execute v).bind fun result ↦ (follows_view result).bind fun _ ↦
      (follows_ofExcept_same _).bind fun _ ↦ follows_throw _
  have hfirst := hleave (parameter params 0)
  cases hparam : parameter params 0 with
  | atom a =>
    rw [hparam, value_atom] at hfirst
    rw [value_atom]
    cases a with
    | null => exact follows_throw _
    | _ => exact hfirst
  | _ =>
    rw [hparam] at hfirst
    exact hfirst

/-! ### Blocs -/

theorem follows_runLines (lines : List Value) (before : Value) :
    P.Follows P.value (runLines r lines before)
      (runLines r (lines.map P.value) (P.value before)) :=
  follows_foldlM (fun _ line ↦ hr.execute line) rfl lines

theorem follows_eachFrom (n : Nat) (target : ResourceRef) (lines : List Value)
    (rounds position : Nat) (result : Value) :
    P.Follows P.value (eachFrom r n target lines rounds position result)
      (eachFrom r (P.cell n) (P.resource target) (lines.map P.value) rounds position
        (P.value result)) := by
  induction rounds generalizing position result with
  | zero => exact follows_throw _
  | succ rounds ih =>
    refine (follows_cell n).bind fun c ↦ ?_
    cases c with
    | list items =>
      simp only [content, List.getElem?_map]
      cases items[position]? with
      | none => exact follows_pure rfl
      | some item =>
        exact (follows_putData hr.execute target item).discard.bind fun _ ↦
          (follows_runLines hr lines result).bind fun next ↦ ih (position + 1) next
    | _ => exact follows_pure rfl

theorem follows_loopVariable (name : Value) :
    P.Follows P.resource (loopVariable r name) (loopVariable r (P.value name)) := by
  cases name with
  | resource n => exact follows_pure rfl
  | _ => exact (follows_key hr _).bind fun k ↦ follows_madeRef k

/-- Runs the lines for the items of what a source gives, if it gives a list. -/
theorem follows_eachItem (source : Value) (lines : List Value) (target : ResourceRef) :
    P.Follows P.value
      (do
        let list ← Script.toList (← r.execute source)
        let items ← Script.itemsOf list
        match list with
        | .cell n => do
          let rounds := (← Script.surroundings).rounds
          eachFrom r n target lines (items.length + rounds + 1) 0 .null
        | _ => return .null)
      (do
        let list ← Script.toList (← r.execute (P.value source))
        let items ← Script.itemsOf list
        match list with
        | .cell n => do
          let rounds := (← Script.surroundings).rounds
          eachFrom r n (P.resource target) (lines.map P.value) (items.length + rounds + 1) 0 .null
        | _ => return .null) := by
  refine (hr.execute source).bind fun v ↦ (follows_toList v).bind fun list ↦
    (follows_itemsOf list).bind fun items ↦ ?_
  rw [List.length_map]
  cases list with
  | cell n =>
    refine follows_surroundings fun s ↦ ?_
    have heach := follows_eachFrom hr n target lines (items.length + s.rounds + 1) 0 .null
    rwa [value_atom] at heach
  | _ => exact follows_pure (P.value_atom .null)

theorem follows_each (params : List Value) :
    P.Follows P.value (each r params) (each r (params.map P.value)) := by
  have hitems := follows_eachItem hr (Call.ofTokens (splitBloc params).1.dropLast)
    (splitBloc params).2
  unfold each
  dsimp only
  rw [filter_isLine_map, List.getLast?_map, ← List.map_dropLast, Call.ofTokens_map]
  cases (splitBloc params).1.getLast? with
  | none => exact follows_fail _
  | some name => exact (follows_loopVariable hr name).bind hitems

theorem follows_whileFrom (condition : Value) (lines : List Value) (rounds : Nat) (result : Value) :
    P.Follows P.value (whileFrom r condition lines rounds result)
      (whileFrom r (P.value condition) (lines.map P.value) rounds (P.value result)) := by
  induction rounds generalizing result with
  | zero => exact follows_throw _
  | succ rounds ih =>
    refine (follows_truth hr condition).bind fun b ↦ ?_
    split
    · exact (follows_runLines hr lines result).bind ih
    · exact follows_pure rfl

theorem follows_repeatWhile (params : List Value) :
    P.Follows P.value (repeatWhile r params) (repeatWhile r (params.map P.value)) := by
  unfold repeatWhile
  rw [filter_isLine_map, Call.ofTokens_map]
  refine follows_surroundings fun s ↦ ?_
  have hwhile := follows_whileFrom hr (Call.ofTokens (splitBloc params).1) (splitBloc params).2
    (s.rounds + 1) .null
  rwa [value_atom] at hwhile

/-! ### All functions -/

theorem follows_runBuiltin (which : Builtin) (params : List Value) :
    P.Follows P.value (runBuiltin r which params)
      (runBuiltin r which (params.map P.value)) := by
  unfold runBuiltin
  rw [List.length_map, parameter_map, parameter_map]
  have hresource (v : Value) : P.Follows P.value (do return .resource (← resourceOf r v))
      (do return .resource (← resourceOf r (P.value v))) :=
    (follows_resourceOf hr v).bind fun n ↦ follows_pure (P.value_resource n)
  have hbool {x x' : Task Bool} (hx : P.Follows (fun b ↦ b) x x') :
      P.Follows P.value (do return .bool (← x)) (do return .bool (← x')) :=
    hx.bind fun _ ↦ follows_pure (P.value_atom _)
  have horder (wanted : Ordering) (a b : Value) : P.Follows P.value
      (do return .bool ((← order r a b) == wanted))
      (do return .bool ((← order r (P.value a) (P.value b)) == wanted)) :=
    (follows_order hr a b).bind fun _ ↦ follows_pure (P.value_atom _)
  cases which with
  | get | uri => exact follows_limited (hresource _) _ _ _ _ _
  | put => exact follows_limited (follows_put hr params) _ _ _ _ _
  | post => exact follows_post hr params
  | delete =>
    exact follows_limited ((follows_resourceOf hr _).bind fun n ↦ hbool (follows_deleteData n))
      _ _ _ _ _
  | string => exact follows_limited (follows_string hr _) _ _ _ _ _
  | number =>
    exact follows_limited ((hr.execute _).bind fun result ↦ (follows_view result).bind fun _ ↦
      (follows_ofExcept_same _).bind fun n ↦ follows_pure (P.value_ofNumber n)) _ _ _ _ _
  | real | integer =>
    exact follows_limited ((hr.execute _).bind fun result ↦ (follows_view result).bind fun _ ↦
      (follows_ofExcept_same _).bind fun _ ↦ follows_pure (P.value_atom _)) _ _ _ _ _
  | boolean => exact follows_limited (hbool (follows_truth hr _)) _ _ _ _ _
  | date => exact follows_date hr params
  | list => exact (follows_mapM hr.execute params).bind follows_newList
  | set => exact (follows_mapM hr.execute params).bind (follows_setOf .list)
  | map => exact follows_map hr params
  | add => exact follows_add hr params
  | equal => exact follows_limited (horder .eq _ _) _ _ _ _ _
  | less => exact follows_limited (horder .lt _ _) _ _ _ _ _
  | more => exact follows_limited (horder .gt _ _) _ _ _ _ _
  | of => exact follows_of hr params
  | and =>
    refine follows_limited ((follows_truth hr _).bind fun b ↦ ?_) _ _ _ _ _
    split
    · exact hbool (follows_truth hr _)
    · exact follows_pure (P.value_atom _)
  | or =>
    refine follows_limited ((follows_truth hr _).bind fun b ↦ ?_) _ _ _ _ _
    split
    · exact follows_pure (P.value_atom _)
    · exact hbool (follows_truth hr _)
  | not =>
    exact follows_limited ((follows_truth hr _).bind fun b ↦ follows_pure (P.value_atom _))
      _ _ _ _ _
  | is => exact follows_limited (hbool (follows_is hr params)) _ _ _ _ _
  | has =>
    refine follows_limited ((hr.execute _).bind fun container ↦ (follows_key hr _).bind fun k ↦
      (follows_getValue container k).bind fun found ↦ ?_) _ _ _ _ _
    rw [isNull_value]
    exact follows_pure (P.value_atom _)
  | print => exact follows_print hr params
  | eval => exact follows_eval hr params
  | member => exact follows_member hr params
  | shell => exact follows_shell hr params
  | exit => exact follows_limited (follows_exit hr params) _ _ _ _ _
  | each => exact follows_each hr params
  | «while» => exact follows_repeatWhile hr params
  | endBloc => exact follows_fail _

theorem follows_runFunction (f : Function) (params : List Value) :
    P.Follows P.value (runFunction r f params) (runFunction r f (params.map P.value)) := by
  unfold runFunction
  split
  · exact follows_runBuiltin hr _ params
  · refine (follows_classOf? _).bind fun c? ↦ ?_
    cases c? with
    | none => exact follows_fail _
    | some c =>
      have hmethods := forall₂_ofMethod (P := P) .null c.constructors
      rw [value_atom] at hmethods
      exact (follows_mapM hr.execute params).bind fun arguments ↦
        follows_select _ hmethods arguments fun o o' hoo ↦ follows_call hr.execute hoo arguments
  · refine follows_staticMembers (fun overloads overloads' ho ↦ ?_) _ _
    cases ho with
    | nil => exact follows_fail _
    | cons hoo _ =>
      exact (follows_mapM hr.execute params).bind fun arguments ↦
        follows_call hr.execute hoo arguments
  · rw [List.length_map]
    exact follows_pure (P.value_atom _)

/-- A call is performed; anything else is left as it is. -/
theorem follows_param (param : Value) :
    P.Follows P.value
      (match param with
        | .call f inner => r.perform f inner
        | other => pure other)
      (match P.value param with
        | .call f inner => r.perform f inner
        | other => pure other) := by
  cases param with
  | call f inner =>
    rw [value_call]
    exact hr.perform f inner
  | _ => exact follows_pure rfl

theorem follows_runPlain (params : List Value) :
    P.Follows P.value (runPlain r params) (runPlain r (params.map P.value)) := by
  rcases params with _ | ⟨single, _ | ⟨second, rest⟩⟩
  · exact follows_pure (P.value_atom .null)
  · exact follows_param hr single
  · exact (follows_mapM (follows_param hr) (single :: second :: rest)).bind follows_newList

theorem follows_perform (f : Option Function) (params : List Value) :
    P.Follows P.value (perform r f params) (perform r f (params.map P.value)) := by
  cases f with
  | some f => exact follows_runFunction hr f params
  | none => exact follows_runPlain hr params

theorem follows_execute (v : Value) :
    P.Follows P.value (Library.execute r v) (Library.execute r (P.value v)) := by
  cases v with
  | call f params =>
    rw [value_call]
    exact (follows_perform hr f params).bind hr.execute
  | resource n =>
    rw [value_resource]
    exact (follows_getData n).bind hr.execute
  | atom a =>
    rw [value_atom]
    cases a with
    | path path =>
      have hmade := follows_newResource (P := P) (.atom (.path path))
      rw [value_atom] at hmade
      refine hmade.bind fun n ↦ ?_
      have hrun := hr.execute (.resource (.made n))
      rwa [value_resource] at hrun
    | _ => exact follows_pure (P.value_atom _)
  | _ => exact follows_pure rfl

end

/-! ### Jobs -/

theorem followsRunner_standard : P.FollowsRunner .standard where
  execute v := follows_job (.execute v)
  perform f params := follows_job (.perform f params)

theorem follows_task (j : Job) : P.Follows P.value j.task (P.job j).task := by
  cases j with
  | execute v => exact follows_execute followsRunner_standard v
  | perform f params => exact follows_perform followsRunner_standard f params

/-- A job runs in a world that holds its own one as it runs there. -/
theorem ends_jobRun (depth : Nat) (j : Job) {own whole : World} (h : P.HoldsInside own whole) :
    P.Ends P.value (Job.run depth j own) (Job.run depth (P.job j) whole) := by
  induction depth generalizing j own whole with
  | zero => exact ⟨rfl, h⟩
  | succ depth ih => exact (follows_task j).run (fun j _ _ h ↦ ih j h) h

/-- A task that follows another runs as the other does, whatever the depth of its jobs. -/
theorem Follows.runAt {α : Type} {move : α → α} {x x' : Task α} (hx : P.Follows move x x')
    (depth : Nat) {own whole : World} (h : P.HoldsInside own whole) :
    P.Ends move (x.runAt depth own) (x'.runAt depth whole) :=
  hx.run (fun j _ _ h ↦ ends_jobRun depth j h) h

end Placement

end ResourceScript

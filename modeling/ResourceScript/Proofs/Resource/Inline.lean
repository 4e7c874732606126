import ResourceScript.Proofs.Lasting.Library
import ResourceScript.Proofs.Media.Charset
import ResourceScript.Proofs.Media.Json
import ResourceScript.Proofs.Resource.Steps
import ResourceScript.Proofs.Session.Steps
/-!
# Data in locations is replaced as a whole

A resource at a location that holds data is read by decoding the data (`Script.Holds`). Putting a
value into it executes the value, encodes what comes out of it for the media type of the location,
and exchanges the data in the location. When a step of this fails, the location is left as it is
(`Script.run_putData_cases`). So a value that counts as a resource is held by one, from which it is
read back (`Script.inline_data_faithful`).
-/

set_option autoImplicit false

namespace ResourceScript

namespace Script

/-- Whether a resource is at a location with given parts that holds data, and is read by decoding
this data. -/
structure Holds (w : World) (r : ResourceRef) (u : DataUri) : Prop where
  /-- The location is the text of its parts. -/
  uri : (w.store.resource r).uri = some u.text
  /-- The parts are read from the text. -/
  read : DataUri.ofUri u.text = .ok u
  /-- The data of the resource is what is decoded, if it can be decoded. -/
  data : ∀ (depth : Nat) (value : Value) (v : World),
    (decode (some u.mimetype) (.bytes u.data)).runAt depth w = (.ok value, v) →
      (getData r).runAt depth w = (.ok value, v)

variable {jobs : Job → Script Value} {w : World} {r : ResourceRef} {uri : String} {u : DataUri}

/-- The data of a resource at a location that holds data is decoded. -/
theorem run_getData_inline (huri : (w.store.resource r).uri = some uri)
    (hplace : Location.place uri = .inline) (hread : DataUri.ofUri uri = .ok u) {value : Value}
    {v : World} (hdecode : (decode (some u.mimetype) (.bytes u.data)).run jobs w = (.ok value, v)) :
    (getData r).run jobs w = (.ok value, v) := by
  refine run_operate_of_ok huri ?_
  rw [hplace, hread]
  exact hdecode

theorem holds_of_uri (huri : (w.store.resource r).uri = some u.text)
    (hread : DataUri.ofUri u.text = .ok u) : Holds w r u where
  uri := huri
  read := hread
  data := fun _ _ _ ↦ run_getData_inline huri u.place_text hread

/-- The world in which the data in the location of a resource has been exchanged. -/
def exchanged (w : World) (r : ResourceRef) (u : DataUri) (payload : List UInt8) : World :=
  let uri := some (DataUri.text { u with data := payload })
  { w with store := w.store.setResource r { w.store.resource r with uri } }

theorem holds_exchanged (hr : w.store.Has r) (hread : DataUri.ofUri uri = .ok u)
    (payload : List UInt8) : Holds (exchanged w r u payload) r { u with data := payload } := by
  refine holds_of_uri ?_ (DataUri.ofUri_text_of_ofUri hread payload)
  rw [exchanged, Store.resource_setResource hr]

section

variable {value a : Value} {v : World} {payload : List UInt8}

/-- Data is put into a location if the value can be executed and what comes out of it can be
encoded. -/
theorem run_putInline_of_encode (hread : DataUri.ofUri uri = .ok u)
    (hexecute : (execute value).run jobs w = (.ok a, v))
    (hencode : Media.encode (some u.mimetype) (v.store.view a) = .ok payload) :
    (putInline execute r uri value).run jobs w = (.ok true, exchanged v r u payload) := by
  have hparts : (ofExcept (.ok u) : Task DataUri).run jobs w = (.ok u, w) := rfl
  rw [putInline, hread, Task.run_bind, bind_of_ok hparts, Task.run_bind, bind_of_ok hexecute]
  show ((ofExcept (Media.encode (some u.mimetype) (v.store.view a))) >>= _ : Task Bool).run
    jobs v = _
  rw [hencode]
  rfl

/-- Otherwise nothing is done beyond the executing of the value. -/
theorem run_putInline_cases (jobs : Job → Script Value) (w : World) (r : ResourceRef)
    (hread : DataUri.ofUri uri = .ok u) (value : Value) :
    (∃ a v payload, (execute value).run jobs w = (.ok a, v) ∧
      Media.encode (some u.mimetype) (v.store.view a) = .ok payload) ∨
    ∃ stop, (putInline execute r uri value).run jobs w =
      (.error stop, ((execute value).run jobs w).2) := by
  rcases hexecute : (execute value).run jobs w with ⟨stop | a, v⟩
  · refine Or.inr ⟨stop, ?_⟩
    have hparts : (ofExcept (.ok u) : Task DataUri).run jobs w = (.ok u, w) := rfl
    rw [putInline, hread, Task.run_bind, bind_of_ok hparts, Task.run_bind, bind_of_error hexecute]
  · cases hencode : Media.encode (some u.mimetype) (v.store.view a) with
    | ok payload => exact Or.inl ⟨a, v, payload, rfl, hencode⟩
    | error cause =>
      refine Or.inr ⟨.fault cause, ?_⟩
      have hparts : (ofExcept (.ok u) : Task DataUri).run jobs w = (.ok u, w) := rfl
      rw [putInline, hread, Task.run_bind, bind_of_ok hparts, Task.run_bind, bind_of_ok hexecute]
      show ((ofExcept (Media.encode (some u.mimetype) (v.store.view a))) >>= _ : Task Bool).run
        jobs v = _
      rw [hencode]
      rfl

variable (huri : (w.store.resource r).uri = some uri) (hplace : Location.place uri = .inline)
  (hread : DataUri.ofUri uri = .ok u)

include huri hplace hread

theorem run_putData_of_encode (hexecute : (execute value).run jobs w = (.ok a, v))
    (hencode : Media.encode (some u.mimetype) (v.store.view a) = .ok payload) :
    (putData execute r value).run jobs w = (.ok true, exchanged v r u payload) := by
  refine run_operate_of_ok huri ?_
  rw [hplace]
  exact run_putInline_of_encode hread hexecute hencode

/-- Putting data into a location exchanges the data there and answers true, or it does not answer
true and leaves the store as the executing of the value leaves it. -/
theorem run_putData_cases (jobs : Job → Script Value) (value : Value) :
    (∃ a v payload, (execute value).run jobs w = (.ok a, v) ∧
      Media.encode (some u.mimetype) (v.store.view a) = .ok payload ∧
      (putData execute r value).run jobs w = (.ok true, exchanged v r u payload)) ∨
    ((putData execute r value).run jobs w).1 ≠ .ok true ∧
      ((putData execute r value).run jobs w).2.store = ((execute value).run jobs w).2.store := by
  rcases run_putInline_cases jobs w r hread value with
    ⟨a, v, payload, hexecute, hencode⟩ | ⟨stop, hput⟩
  · exact Or.inl ⟨a, v, payload, hexecute, hencode,
      run_putData_of_encode huri hplace hread hexecute hencode⟩
  · obtain ⟨hanswer, hstore⟩ : (((putData execute r value).run jobs w).1 = .ok false ∨
        ((putData execute r value).run jobs w).1 = .error stop) ∧
        ((putData execute r value).run jobs w).2.store = ((execute value).run jobs w).2.store := by
      refine run_operate_of_error huri ?_
      rw [hplace]
      exact hput
    refine Or.inr ⟨?_, hstore⟩
    rcases hanswer with hanswer | hanswer <;> rw [hanswer] <;> nofun

end

/-! ### Whole runs -/

/-- What putting a value into a location that holds data does to the resource: after the answer true
it holds the code of the value, and otherwise its location is as the executing of the value leaves
it. -/
theorem putData_inline (huri : (w.store.resource r).uri = some uri)
    (hplace : Location.place uri = .inline) (hread : DataUri.ofUri uri = .ok u) (value : Value)
    (depth : Nat) {answer : Except Stop Bool} {v : World}
    (hput : (putData execute r value).runAt depth w = (answer, v)) :
    (answer = .ok true → ∃ a t payload, (execute value).runAt depth w = (.ok a, t) ∧
      Media.encode (some u.mimetype) (t.store.view a) = .ok payload ∧
      Holds v r { u with data := payload }) ∧
    (answer ≠ .ok true →
      (v.store.resource r).uri = (((execute value).runAt depth w).2.store.resource r).uri) := by
  rcases run_putData_cases huri hplace hread (Job.run depth) value with
    ⟨a, t, payload, hexecute, hencode, hdone⟩ | ⟨hanswer, hstore⟩
  · obtain ⟨rfl, rfl⟩ := Prod.ext_iff.1 (hput.symm.trans hdone)
    have hr : t.store.Has r := by
      have hkeeps := Task.keepsResources_runAt depth (execute value) w
      rw [Task.runAt, hexecute] at hkeeps
      exact hkeeps.has (Store.has_of_uri huri)
    exact ⟨fun _ ↦ ⟨a, t, payload, hexecute, hencode, holds_exchanged hr hread payload⟩,
      fun hanswer ↦ absurd rfl hanswer⟩
  · rw [show (putData execute r value).run (Job.run depth) w = (answer, v) from hput] at hanswer hstore
    refine ⟨fun htrue ↦ absurd htrue hanswer, fun _ ↦ ?_⟩
    rw [show v.store = _ from hstore]
    rfl

/-! ### Values as resources -/

section

variable {location : String} {value : Value}

/-- A resource that is to hold a value is made, and the value is put into it. -/
theorem run_holding
    (hlocation : Location.ofText? w.surroundings.directories location.toList = .ok (some location)) :
    (toResource.holding execute location value).run jobs w =
      match (putData execute w.store.resources.size value).run jobs (withResource w location) with
      | (.ok _, v) => (.ok (.resource w.store.resources.size), v)
      | (.error stop, v) => (.error stop, v) := by
  rw [toResource.holding, Task.run_bind, bind_of_ok (run_newResource_of_location hlocation)]
  show ((fun _ ↦ ()) <$> putData execute _ value >>= _ : Task Value).run _ _ = _
  rw [Task.run_bind, map_eq_pure_bind, Task.run_bind, bind_apply, bind_apply]
  rcases (putData execute w.store.resources.size value).run jobs (withResource w location) with
    ⟨stop | answer, v⟩ <;> rfl

variable
  (hlocation : Location.ofText? w.surroundings.directories location.toList = .ok (some location))
  (hplace : Location.place location = .inline) (hread : DataUri.ofUri location = .ok u)
  (hvalue : value.IsPlain) (depth : Nat)

include hlocation hplace hread hvalue

/-- A resource that is made to hold a plain value holds its code. -/
theorem exists_holds_of_encode {payload : List UInt8}
    (hencode : Media.encode (some u.mimetype) ((withResource w location).store.view value) =
      .ok payload) :
    ∃ r v, (toResource.holding execute location value).runAt (depth + 1) w = (.ok (.resource r), v) ∧
      Holds v r { u with data := payload } := by
  have huri := uri_withResource w location
  have hput := run_putData_of_encode huri hplace hread
    (runAt_execute_of_isPlain hvalue depth (withResource w location)) hencode
  refine ⟨_, _, ?_, holds_exchanged (Store.has_of_uri huri) hread payload⟩
  rw [Task.runAt, run_holding hlocation, hput]

/-- A value that cannot be encoded is not held: the resource has the data that it is made with. -/
theorem holds_of_not_encode
    (hencode : ∀ payload,
      Media.encode (some u.mimetype) ((withResource w location).store.view value) ≠ .ok payload)
    {made : Value} {v : World}
    (hmade : (toResource.holding execute location value).runAt (depth + 1) w = (.ok made, v)) :
    ∃ r, made = .resource r ∧ (v.store.resource r).uri = some location := by
  have huri := uri_withResource w location
  have hplain := runAt_execute_of_isPlain hvalue depth (withResource w location)
  rw [Task.runAt, run_holding hlocation] at hmade
  rcases run_putData_cases huri hplace hread (Job.run (depth + 1)) value with
    ⟨a, t, payload, hexecute, hfound, -⟩ | ⟨-, hstore⟩
  · obtain ⟨ha, rfl⟩ := Prod.ext_iff.1 (hexecute.symm.trans hplain)
    cases ha
    exact absurd hfound (hencode payload)
  · rcases hput : (putData execute w.store.resources.size value).run (Job.run (depth + 1))
      (withResource w location) with ⟨stop | answer, t⟩
    · rw [hput] at hmade
      cases hmade
    · rw [hput] at hmade hstore
      cases hmade
      refine ⟨_, rfl, ?_⟩
      rw [show v.store = _ from hstore, show (execute value).run _ _ = _ from hplain]
      exact huri

end

/-- The parts of the location of null. -/
theorem exists_ofUri_nullLocation :
    ∃ data, DataUri.ofUri ResourceRecord.nullLocation = .ok ⟨Media.json.name, [], false, data⟩ ∧
      Script.decode (some Media.json.name) (.bytes data) = pure .null :=
  ⟨Text.Utf8.encode "null".toList, rfl, by rw [Media.decode_encode_text]; rfl⟩

theorem runAt_getData_nullLocation
    (huri : (w.store.resource r).uri = some ResourceRecord.nullLocation) (depth : Nat) :
    (getData r).runAt depth w = (.ok .null, w) := by
  obtain ⟨data, hread, hdecode⟩ := exists_ofUri_nullLocation
  refine run_getData_inline huri rfl hread ?_
  rw [hdecode]
  rfl

/-- A text that denotes no location is held by the resource that it counts as. -/
theorem data_toResource_text {s : String}
    (hs : Location.ofText? w.surroundings.directories s.toList = .ok none) (depth : Nat) :
    ∃ r v, (toResource execute (.text s)).runAt (depth + 1) w = (.ok (.resource r), v) ∧
      (getData r).runAt (depth + 1) v = (.ok (.text s), v) := by
  have hnew : (newResource (.text s)).run (Job.run (depth + 1)) w = (.ok w.store.resources.size,
      { w with store := (w.store.addResource ⟨.text s, none, none⟩).1 }) := by
    rw [run_newResource, hs]
  generalize hadded : ({ w with
    store := (w.store.addResource ⟨.text s, none, none⟩).1 } : World) = v at hnew
  have huri : (v.store.resource w.store.resources.size).uri = none := by
    rw [← hadded, Store.resource_addResource]
  have hencode : Media.encode (some Media.text.name)
      ((withResource v "data:text/plain,").store.view (.text s)) =
        .ok (Text.Utf8.encode s.toList) := by
    rw [Media.encode_name, show Store.view _ (.text s) = .text s from rfl, Media.write_text]
    rfl
  have hplain : (Value.text s).IsPlain := trivial
  obtain ⟨r, t, hmade, hholds⟩ := exists_holds_of_encode (u := ⟨Media.text.name, [], false, []⟩) rfl
    rfl rfl hplain depth hencode
  refine ⟨r, t, ?_, hholds.data _ _ _ ?_⟩
  · rw [Task.runAt, toResource, Task.run_bind, bind_of_ok hnew, Task.run_bind,
      bind_of_ok (run_resource _ v), huri]
    exact hmade
  · rw [show decode (some Media.text.name) (.bytes (Text.Utf8.encode s.toList)) = _ from
      Media.decode_encode_text .text s.toList, readMedia, String.ofList_toList]
    rfl

theorem isPlain_of_isJson {value : Value} (h : (w.store.view value).IsJson) : value.IsPlain := by
  cases value with
  | atom a =>
    have hatom : (Data.atom a).IsJson := h
    cases hatom <;> trivial
  | call f params => cases h
  | resource r => cases h
  | _ => trivial

/-- A value other than a text, built from what JSON carries except tuples, is held by the resource
that it counts as. -/
theorem data_toResource {value : Value} (hvalue : (w.store.view value).IsJson)
    (huntupled : (w.store.view value).untupled = w.store.view value)
    (htext : ∀ s, value ≠ .text s) (depth : Nat) :
    ∃ r v shown v', (toResource execute value).runAt (depth + 1) w = (.ok (.resource r), v) ∧
      (getData r).runAt (depth + 1) v = (.ok shown, v') ∧
      v'.store.view shown = w.store.view value := by
  have hplain := isPlain_of_isJson hvalue
  have hlocation : Location.ofText? w.surroundings.directories ResourceRecord.nullLocation.toList =
      .ok (some ResourceRecord.nullLocation) := rfl
  obtain ⟨data, hread, hdecode⟩ := exists_ofUri_nullLocation
  by_cases hnull : value = .null
  · subst hnull
    have hget := runAt_getData_nullLocation (uri_withResource w ResourceRecord.nullLocation)
      (depth + 1)
    refine ⟨_, _, .null, _, ?_, hget, rfl⟩
    rw [Task.runAt, toResource, Task.run_bind,
      bind_of_ok (run_newResource_of_location hlocation)]
    rfl
  · have hholding : toResource execute value =
        toResource.holding execute ResourceRecord.nullLocation value := by
      unfold toResource
      split
      · exact hplain.elim
      · exact absurd rfl hnull
      · exact absurd rfl (htext _)
      · rfl
    have hview : (withResource w ResourceRecord.nullLocation).store.view value =
        w.store.view value := Store.view_addResource_of_isJson hvalue
    obtain ⟨text, p, hencode, hparse, hshown⟩ := Media.exists_encode_json hvalue
    rw [← hview] at hencode
    obtain ⟨r, v, hmade, hholds⟩ := exists_holds_of_encode hlocation rfl hread hplain depth hencode
    obtain ⟨shown, v', hrun, -, hsame⟩ := makes_ofPlain p (Job.run (depth + 1)) v
    refine ⟨r, v, shown, v', hholding ▸ hmade, hholds.data _ _ _ ?_, ?_⟩
    · rw [show (decode (some Media.json.name) (.bytes (Text.Utf8.encode text))) = _ from
        Media.decode_encode_text .json text, readMedia, hparse]
      exact hrun
    · rw [hsame, hshown, huntupled]

/-- Locations that hold data are rewritten faithfully. When a value is put into one and the answer
is true, what the value executes to has been encoded for the media type, and the new location is
read as the same media type, parameters and mark of base64 with the code as its data. With any other
answer the location is as executing the value leaves it, so it is unchanged for a value that
executes to itself. Consequently texts that denote no location, and data that JSON carries except
tuples, are the data of the resources that they count as. -/
theorem inline_data_faithful :
    (∀ (r : ResourceRef) (uri : String) (u : DataUri) (w v : World) (value : Value) (depth : Nat)
      (answer : Except Stop Bool), (w.store.resource r).uri = some uri →
      Location.place uri = .inline → DataUri.ofUri uri = .ok u →
      (putData execute r value).runAt depth w = (answer, v) →
      (answer = .ok true → ∃ a t payload, (execute value).runAt depth w = (.ok a, t) ∧
        Media.encode (some u.mimetype) (t.store.view a) = .ok payload ∧
        Holds v r { u with data := payload }) ∧
      (answer ≠ .ok true →
        (v.store.resource r).uri = (((execute value).runAt depth w).2.store.resource r).uri) ∧
      (answer ≠ .ok true → value.IsPlain → (v.store.resource r).uri = some uri)) ∧
    (∀ (s : String) (w : World) (depth : Nat),
      Location.ofText? w.surroundings.directories s.toList = .ok none →
      ∃ r v, (toResource execute (.text s)).runAt (depth + 1) w = (.ok (.resource r), v) ∧
        (getData r).runAt (depth + 1) v = (.ok (.text s), v)) ∧
    ∀ (value : Value) (w : World) (depth : Nat), (w.store.view value).IsJson →
      (w.store.view value).untupled = w.store.view value → (∀ s, value ≠ .text s) →
      ∃ r v shown v', (toResource execute value).runAt (depth + 1) w = (.ok (.resource r), v) ∧
        (getData r).runAt (depth + 1) v = (.ok shown, v') ∧
        v'.store.view shown = w.store.view value := by
  refine ⟨?_, fun s w depth hs ↦ data_toResource_text hs depth,
    fun value w depth hvalue huntupled htext ↦ data_toResource hvalue huntupled htext depth⟩
  intro r uri u w v value depth answer huri hplace hread hput
  obtain ⟨hdone, hkept⟩ := putData_inline huri hplace hread value depth hput
  refine ⟨hdone, hkept, fun hanswer hplain ↦ ?_⟩
  rw [hkept hanswer, world_execute_of_isPlain hplain, huri]

/-- A text replaces another behind a header with a parameter and the mark of base64, a text and a
truth value are held by new resources. -/
theorem inline_data_faithful_base64 :
    let w := withResource builtinWorld "data:Text/Plain ; charset=utf-8;BASE64,aGk="
    (∃ v, (putData execute (.made 0) (.text "bye")).runAt Job.maxDepth w = (.ok true, v) ∧
      ∃ payload, Holds v (.made 0) ⟨"text/plain", ["charset=utf-8"], true, payload⟩) ∧
    (∃ r v, (toResource execute (.text "a text")).runAt Job.maxDepth w = (.ok (.resource r), v) ∧
      (getData r).runAt Job.maxDepth v = (.ok (.text "a text"), v)) ∧
    ∃ r v shown v', (toResource execute (.bool true)).runAt Job.maxDepth w = (.ok (.resource r), v) ∧
      (getData r).runAt Job.maxDepth v = (.ok shown, v') ∧ v'.store.view shown = .bool true := by
  intro w
  obtain ⟨hput, htext, hjson⟩ := inline_data_faithful
  have huri : (w.store.resource (.made 0)).uri =
      some "data:Text/Plain ; charset=utf-8;BASE64,aGk=" := rfl
  have hread : DataUri.ofUri "data:Text/Plain ; charset=utf-8;BASE64,aGk=" =
      .ok ⟨"text/plain", ["charset=utf-8"], true, Text.Utf8.encode "hi".toList⟩ := rfl
  have hplain : (Value.text "bye").IsPlain := trivial
  have hrun : (putData execute (.made 0) (.text "bye")).runAt Job.maxDepth w = (.ok true, _) :=
    run_putData_of_encode huri rfl hread (runAt_execute_of_isPlain hplain 244 w) rfl
  obtain ⟨hdone, -⟩ := hput _ _ _ w _ _ _ _ huri rfl hread hrun
  obtain ⟨-, -, payload, -, -, hholds⟩ := hdone rfl
  exact ⟨⟨_, hrun, payload, hholds⟩, htext "a text" w 244 rfl,
    hjson (.bool true) w 244 (.bool true) (Data.untupled_atom _) nofun⟩

/-- An integer with too many digits is not held by the resource that it counts as. -/
theorem not_data_toResource_tooManyDigits :
    ¬ ∃ r v shown v', (toResource execute (.int (10 ^ Numeral.maxDigits))).runAt Job.maxDepth
        builtinWorld = (.ok (.resource r), v) ∧
      (getData r).runAt Job.maxDepth v = (.ok shown, v') ∧
      v'.store.view shown = .int (10 ^ Numeral.maxDigits) := by
  rintro ⟨r, v, shown, v', hmade, hget, hshown⟩
  obtain ⟨data, hread, -⟩ := exists_ofUri_nullLocation
  have hdigits : 10 ^ Numeral.maxDigits ≤ ((10 : Int) ^ Numeral.maxDigits).natAbs := by
    rw [Int.natAbs_pow]
    exact Nat.pow_le_pow_left (by decide) _
  have hplain : (Value.int (10 ^ Numeral.maxDigits)).IsPlain := trivial
  have hholding : (toResource.holding execute ResourceRecord.nullLocation
      (.int (10 ^ Numeral.maxDigits))).runAt Job.maxDepth builtinWorld = (.ok (.resource r), v) :=
    hmade
  obtain ⟨r', hr, huri⟩ := holds_of_not_encode (w := builtinWorld) rfl rfl hread hplain 244
    (fun payload hpayload ↦ by
      have hint := Media.encode_json_int hdigits
      rw [show Store.view _ (Value.int (10 ^ Numeral.maxDigits)) = .int (10 ^ Numeral.maxDigits)
        from rfl] at hpayload
      exact absurd (hint.symm.trans hpayload) nofun) hholding
  cases hr
  have hnull := runAt_getData_nullLocation huri Job.maxDepth
  rw [hget] at hnull
  cases hnull
  cases hshown

/-- A call to a built-in function. -/
def builtinCall (name : String) (params : List Value) : Value :=
  .call (builtinWorld.find name) params

/-- What is put into a location is what a call executes to, and not the code of the call. What a
call does to the location itself stays, also when the call fails. Integers with too many digits are
not held, and half a surrogate pair is no text that has bytes. -/
theorem inline_data_of_calls_and_digits :
    let w := withResource builtinWorld "data:application/json,null"
    let location (v : World) := (v.store.resource (.made 0)).uri
    let sum := builtinCall "add" [.int 1, .int 2]
    let failing := builtinCall "eval"
      [builtinCall "put" [.resource (.made 0), .int 7], builtinCall "end" []]
    ((Media.encode (some Media.json.name) (w.store.view sum)).toOption =
        some (Text.Utf8.encode "\"add 1 2\"".toList) ∧
      ((putData execute (.made 0) sum).runAt Job.maxDepth w).1.toOption = some true ∧
      location ((putData execute (.made 0) sum).runAt Job.maxDepth w).2 =
        some "data:application/json,3") ∧
    (((putData execute (.made 0) failing).runAt Job.maxDepth w).1.toOption = none ∧
      location ((putData execute (.made 0) failing).runAt Job.maxDepth w).2 =
        some "data:application/json,7") ∧
    (¬ ∃ r v shown v', (toResource execute (.int (10 ^ Numeral.maxDigits))).runAt Job.maxDepth
        builtinWorld = (.ok (.resource r), v) ∧
      (getData r).runAt Job.maxDepth v = (.ok shown, v') ∧
      v'.store.view shown = .int (10 ^ Numeral.maxDigits)) ∧
    Text.Utf8.encodePoints? [0xd800] = none := by
  refine ⟨⟨?_, ?_, ?_⟩, ⟨?_, ?_⟩, not_data_toResource_tooManyDigits,
    Text.Utf8.encodePoints?_of_surrogate (List.mem_singleton_self _) (by decide) (by decide)⟩
  · decide +kernel
  · decide +kernel
  · decide +kernel
  · decide +kernel
  · decide +kernel

end Script

end ResourceScript

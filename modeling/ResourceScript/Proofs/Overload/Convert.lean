import ResourceScript.Library
import ResourceScript.Proofs.Data.Built
import ResourceScript.Proofs.Files.Reading
import ResourceScript.Registry
/-!
# What converting gives

A value that is built from scalars, bytes and dates is converted to a kind without constructors in one
step: the result is of the kind, and converting it again gives it back. There are three exceptions.
A set of items that cannot be keys is refused by a failure to convert, a value that describes no
moment is converted to null, and numbers and texts have limits: integers that are too long to be read
or written, and numbers that are no integer or no double (`Data.IsWithinLimits`). Beyond the limits
converting may fail as numbers do, and that is no failure to convert (`Script.convert_gives`).
-/

set_option autoImplicit false

namespace ResourceScript

/-- The kinds to which values are converted without a constructor and without a resource. -/
def Kind.converted : List Kind :=
  [.text, .bytes, .int, .real, .number, .bool, .moment, .map, .mapping, .list, .tuple, .set,
    .collection]

/-- Whether data is within the limits that texts and numbers have as targets. -/
structure Data.IsWithinLimits (data : Data) (target : Kind) : Prop where
  /-- The integers in a text are not too long to be written. -/
  digits : target = .text ∨ target = .bytes → data.HasShortInts
  /-- The number is read. -/
  countable : target = .int ∨ target = .real ∨ target = .number → data.IsCountable
  /-- The number of an integer is neither infinite nor undefined. -/
  finite : target = .int → ∀ x, data.toNumber = .ok (.real x) → x.isFinite = true
  /-- The number of a double is not too great. -/
  range : target = .real → ∀ n, data.toNumber = .ok (.int n) → (Double.ofInt n).isFinite = true

namespace Data

variable {data : Data}

theorem exists_toInt (hbasic : data.isBasic = true) (hlimits : data.IsWithinLimits .int) :
    ∃ n, data.toInt = .ok n := by
  obtain ⟨number, hnumber⟩ := exists_toNumber hbasic (hlimits.countable (.inl rfl))
  have hint : data.toInt = number.toInt := by
    rw [toInt, hnumber]
    rfl
  cases number with
  | int n => exact ⟨n, hint⟩
  | real x =>
    have hfinite := hlimits.finite rfl x hnumber
    cases x with
    | finite negative mantissa exponent => exact ⟨_, hint⟩
    | nan | infinite => cases hfinite

theorem exists_toReal (hbasic : data.isBasic = true) (hlimits : data.IsWithinLimits .real) :
    ∃ x, data.toReal = .ok x := by
  obtain ⟨number, hnumber⟩ := exists_toNumber hbasic (hlimits.countable (.inr (.inl rfl)))
  have hreal : data.toReal = number.toDouble := by
    rw [toReal, hnumber]
    rfl
  cases number with
  | int n =>
    have hfinite := hlimits.range rfl n hnumber
    rw [hreal, Number.toDouble]
    split
    · rename_i hinfinite
      rw [hinfinite] at hfinite
      cases hfinite
    · exact ⟨_, rfl⟩
  | real x => exact ⟨x, hreal⟩

end Data

namespace Script

variable {jobs : Job → Script Value} {execute : Value → Task Value} {value : Value} {target : Kind}
  {w v : World}

/-- Whether a run of a task answers a value of a kind. -/
def Gives (jobs : Job → Script Value) (w : World) (target : Kind) (x : Task Value) : Prop :=
  ∃ r v, x.run jobs w = (.ok r, v) ∧ v.store.isA r target = true

/-! ### Collections -/

theorem gives_newCell {content : Cell} (h : ∀ (s : Store) (n : Nat), s.cell n = content →
    s.isA (.cell n) target = true) : Gives jobs w target (newCell content) := by
  refine ⟨.cell w.store.cells.size, _, rfl, h _ _ ?_⟩
  show (w.store.cells.push content).getD w.store.cells.size _ = content
  simp [Array.getD_eq_getD_getElem?]

theorem run_itemsOf (jobs : Job → Script Value) (value : Value) (w : World) :
    ∃ items, (itemsOf value).run jobs w = (.ok items, w) := by
  unfold itemsOf
  split <;> exact ⟨_, rfl⟩

theorem run_entriesOf (jobs : Job → Script Value) (value : Value) (w : World) :
    ∃ entries, (entriesOf value).run jobs w = (.ok entries, w) := by
  have hstore : store.run jobs w = (.ok w.store, w) := rfl
  unfold entriesOf
  rw [Task.run_bind, bind_of_ok hstore]
  split
  · exact ⟨_, rfl⟩
  · split
    · exact ⟨_, rfl⟩
    · split
      · split <;> exact ⟨_, rfl⟩
      all_goals exact ⟨_, rfl⟩
    all_goals exact ⟨_, rfl⟩

theorem gives_pure {r : Value} (h : w.store.isA r target = true) : Gives jobs w target (pure r) :=
  ⟨r, w, rfl, h⟩

theorem gives_store {next : Store → Task Value} (h : Gives jobs w target (next w.store)) :
    Gives jobs w target (store >>= next) := by
  obtain ⟨r, v, hrun, hkind⟩ := h
  have hstore : store.run jobs w = (.ok w.store, w) := rfl
  exact ⟨r, v, by rw [Task.run_bind, bind_of_ok hstore, hrun], hkind⟩

/-- A task that begins with one that leaves the world goes on in the world. -/
theorem gives_bind {α : Type} {x : Task α} {next : α → Task Value}
    (hx : ∃ a, x.run jobs w = (.ok a, w)) (hnext : ∀ a, Gives jobs w target (next a)) :
    Gives jobs w target (x >>= next) := by
  obtain ⟨a, ha⟩ := hx
  obtain ⟨r, v, hrun, hkind⟩ := hnext a
  exact ⟨r, v, by rw [Task.run_bind, bind_of_ok ha, hrun], hkind⟩

theorem gives_newList (items : List Value) : Gives jobs w .list (newList items) :=
  gives_newCell fun s n hcell ↦ by simp [Store.isA, Store.kindOf, hcell]

theorem gives_toList (value : Value) : Gives jobs w .list (toList value) := by
  unfold toList
  refine gives_store ?_
  split
  · rename_i hkind
    exact gives_pure (by simp [Store.isA, hkind])
  · exact gives_bind (run_itemsOf jobs value w) gives_newList

theorem gives_toCollection (value : Value) : Gives jobs w .collection (toCollection value) := by
  unfold toCollection
  refine gives_store ?_
  split
  iterate 4
    rename_i hkind
    exact gives_pure (by simp [Store.isA, hkind])
  · rename_i which hkind
    exact gives_pure (by cases which <;> simp [Store.isA, hkind])
  · rename_i hkind
    exact gives_pure (by simp [Store.isA, hkind])
  obtain ⟨r, v, hrun, hkind⟩ : Gives jobs w .list (toList value) := gives_toList value
  refine ⟨r, v, hrun, ?_⟩
  have hlist : v.store.kindOf r = .list := eq_of_beq hkind
  simp [Store.isA, hlist]

theorem gives_tuple (value : Value) :
    Gives jobs w .tuple (do return .tuple (← itemsOf value)) :=
  gives_bind (run_itemsOf jobs value w) fun _ ↦ gives_pure rfl

/-- Scopes count as maps without being of their kind, but they are not built from scalars. -/
theorem kindOf_ne_scope (h : (w.store.view value).isBasic = true) :
    w.store.kindOf value ≠ .scope := by
  intro hscope
  cases value with
  | atom a =>
    cases a with
    | function f => cases h
    | kind k => cases h
    | _ => cases hscope
  | cell n =>
    rw [Store.kindOf] at hscope
    split at hscope <;> cases hscope
  | scope n => cases h
  | _ => cases hscope

theorem gives_toMap (h : w.store.kindOf value ≠ .scope) (htarget : target = .map ∨ target = .mapping) :
    Gives jobs w target (toMap value) := by
  unfold toMap
  refine gives_store ?_
  split
  · rename_i hkind
    exact gives_pure (by rcases htarget with rfl | rfl <;> simp [Store.isA, hkind])
  · rename_i hkind
    exact gives_pure (by rcases htarget with rfl | rfl <;> simp [Store.isA, hkind])
  · rename_i hkind
    exact absurd hkind h
  · refine gives_bind (run_entriesOf jobs value w) fun entries ↦ gives_newCell fun s n hcell ↦ ?_
    rcases htarget with rfl | rfl <;> simp [Store.isA, Store.kindOf, hcell]

theorem run_findSomeM? {α β : Type} {f : α → Task (Option β)}
    (hf : ∀ a, ∃ found, (f a).run jobs w = (.ok found, w)) (items : List α) :
    ∃ found, (items.findSomeM? f).run jobs w = (.ok found, w) := by
  induction items with
  | nil => exact ⟨none, rfl⟩
  | cons item rest ih =>
    obtain ⟨found, hfound⟩ := hf item
    rw [List.findSomeM?_cons, Task.run_bind, bind_of_ok hfound]
    cases found with
    | some b => exact ⟨some b, rfl⟩
    | none => exact ih

theorem run_distinct (jobs : Job → Script Value) (items : List Value) (w : World) :
    ∃ found, (distinct items).run jobs w = (.ok found, w) :=
  ⟨_, rfl⟩

/-- A set is made, or it is refused because of an item that cannot be a key. -/
theorem gives_setOf_or_refused (source : Kind) (items : List Value) :
    Gives jobs w .set (setOf source items) ∨
      ∃ cause, (setOf source items).run jobs w = (.error (.fault (.conversion cause)), w) := by
  have hfind : ∃ found, (items.findSomeM? fun item ↦ do return (← view item).unhashable?).run
      jobs w = (.ok found, w) :=
    run_findSomeM? (fun item ↦ ⟨_, rfl⟩) items
  obtain ⟨found, hfound⟩ := hfind
  unfold setOf Gives
  rw [Task.run_bind, bind_of_ok hfound]
  cases found with
  | some element => exact Or.inr ⟨_, rfl⟩
  | none =>
    refine Or.inl (gives_bind (run_distinct jobs items w) fun kept ↦ gives_newCell fun s n hcell ↦ ?_)
    simp [Store.isA, Store.kindOf, hcell]

theorem gives_toSet_or_refused (jobs : Job → Script Value) (w : World) (value : Value) :
    Gives jobs w .set (toSet value) ∨
    ∃ cause, (toSet value).run jobs w = (.error (.fault (.conversion cause)), w) := by
  obtain ⟨items, hitems⟩ := run_itemsOf jobs value w
  have hset (source : Kind) : (itemsOf value >>= setOf source).run jobs w =
      (setOf source items).run jobs w := by
    rw [Task.run_bind, bind_of_ok hitems]
  have hstore : store.run jobs w = (.ok w.store, w) := rfl
  unfold Gives toSet
  rw [Task.run_bind, bind_of_ok hstore]
  split
  · rename_i hkind
    exact Or.inl (gives_pure (by simp [Store.isA, hkind]))
  · rw [hset]
    exact gives_setOf_or_refused _ items

/-! ### Values without parts -/

/-- Built data within the limits is converted to a value of a kind without parts. -/
theorem run_convertData?_of_scalar {data : Data} (hbuilt : data.IsBuilt)
    (hlimits : data.IsWithinLimits target)
    (htarget : target ∈ [.text, .bytes, .int, .real, .number, .bool])
    (jobs : Job → Script Value) (w : World) :
    ∃ r, (convertData? data target).run jobs w = (.ok (some r), w) ∧
      w.store.isA r target = true := by
  have hdone {α : Type} {x : Except Fault α} {a : α} (h : x = .ok a) (made : α → Value) :
      (do return some (made (← ofExcept x)) : Task (Option Value)).run jobs w =
        (.ok (some (made a)), w) := by
    rw [h]
    rfl
  simp only [List.mem_cons, List.not_mem_nil, or_false] at htarget
  rcases htarget with rfl | rfl | rfl | rfl | rfl | rfl
  · obtain ⟨s, hs⟩ := hbuilt.isAcyclic.exists_toText (hlimits.digits (.inl rfl))
    exact ⟨_, hdone hs .text, rfl⟩
  · obtain ⟨bytes, hbytes⟩ := hbuilt.isAcyclic.exists_toBytes (hlimits.digits (.inr rfl))
    exact ⟨_, hdone hbytes fun bytes ↦ .atom (.bytes bytes), rfl⟩
  · obtain ⟨n, hn⟩ := Data.exists_toInt hbuilt.isBasic hlimits
    exact ⟨_, hdone hn .int, rfl⟩
  · obtain ⟨x, hx⟩ := Data.exists_toReal hbuilt.isBasic hlimits
    exact ⟨_, hdone hx .real, rfl⟩
  · obtain ⟨n, hn⟩ := Data.exists_toNumber hbuilt.isBasic (hlimits.countable (.inr (.inr rfl)))
    refine ⟨_, hdone hn .ofNumber, ?_⟩
    cases n <;> rfl
  · obtain ⟨b, hb⟩ := hbuilt.exists_truth
    exact ⟨_, hdone hb .bool, rfl⟩

/-- Beyond the limits of texts and numbers, built data is converted, or a number fails. -/
theorem run_convertData?_or_limit {data : Data} (hbuilt : data.IsBuilt)
    (htarget : target ∈ [.text, .bytes, .int, .real, .number]) (jobs : Job → Script Value)
    (w : World) :
    (∃ r, (convertData? data target).run jobs w = (.ok (some r), w) ∧
      w.store.isA r target = true) ∨
    ∃ cause : Fault, cause.IsLimit ∧
      (convertData? data target).run jobs w = (.error (.fault cause), w) := by
  have hdone {α : Type} {x : Except Fault α} (hx : OnlyFails (OrLimit data.HasBlock) x)
      (made : α → Value) (hmade : ∀ a, w.store.isA (made a) target = true)
      (hconvert : convertData? data target = do return some (made (← ofExcept x))) :
      (∃ r, (convertData? data target).run jobs w = (.ok (some r), w) ∧
        w.store.isA r target = true) ∨
      ∃ cause : Fault, cause.IsLimit ∧
        (convertData? data target).run jobs w = (.error (.fault cause), w) := by
    rw [hconvert]
    cases h : x with
    | ok a => exact .inl ⟨_, rfl, hmade a⟩
    | error cause => exact .inr ⟨cause, hbuilt.isAcyclic.onlyFails hx cause h, rfl⟩
  simp only [List.mem_cons, List.not_mem_nil, or_false] at htarget
  rcases htarget with rfl | rfl | rfl | rfl | rfl
  · exact hdone (Data.onlyFails_toText data).orLimit .text (fun _ ↦ rfl) rfl
  · exact hdone (Data.onlyFails_toBytes data).orLimit (fun bytes ↦ .atom (.bytes bytes))
      (fun _ ↦ rfl) rfl
  · exact hdone (Data.onlyFails_toInt data) .int (fun _ ↦ rfl) rfl
  · exact hdone (Data.onlyFails_toReal data) .real (fun _ ↦ rfl) rfl
  · exact hdone (Data.onlyFails_toNumber data) .ofNumber (fun n ↦ by cases n <;> rfl) rfl

/-- Built data is converted to the moment that it describes, or to null. -/
theorem run_convertData?_moment {data : Data} (hbuilt : data.IsBuilt) (jobs : Job → Script Value)
    (w : World) :
    (∃ m, (convertData? data .moment).run jobs w = (.ok (some (.atom (.moment m))), w)) ∨
      data.toMoment w.now = .ok none ∧
        (convertData? data .moment).run jobs w = (.ok (some .null), w) := by
  obtain ⟨found, hfound⟩ := hbuilt.exists_toMoment w.now
  have hnow : surroundings.run jobs w = (.ok w.surroundings, w) := rfl
  have hread : (ofExcept (data.toMoment w.surroundings.now) : Task _).run jobs w =
      (.ok found, w) := by
    show (ofExcept (data.toMoment w.now) : Task _).run jobs w = _
    rw [hfound]
    rfl
  unfold convertData?
  rw [Task.run_bind, bind_of_ok hnow, Task.run_bind, bind_of_ok hread]
  cases found with
  | some m => exact Or.inl ⟨m, rfl⟩
  | none => exact Or.inr ⟨hfound, rfl⟩

/-! ### Conversion -/

theorem run_convert_of_isA (h : w.store.isA value target = true) :
    (convert execute value target).run jobs w = (.ok value, w) := by
  have hstore : store.run jobs w = (.ok w.store, w) := rfl
  unfold convert
  rw [Task.run_bind, bind_of_ok hstore, if_pos h]
  rfl

/-- A value that is not of the kind is converted by what is there for the kind. -/
theorem run_convert_of_not_isA (h : w.store.isA value target = false)
    (htarget : target ∈ Kind.converted) :
    (convert execute value target).run jobs w =
      (convertPlain? execute value target >>= fun found ↦ match found with
        | some converted => pure converted
        | none => refuseConversion value target).run jobs w := by
  have hstore : store.run jobs w = (.ok w.store, w) := rfl
  unfold convert
  rw [Task.run_bind, bind_of_ok hstore, if_neg (by rw [h]; exact Bool.false_ne_true)]
  simp only [Kind.converted, List.mem_cons, List.not_mem_nil, or_false] at htarget
  rcases htarget with rfl | rfl | rfl | rfl | rfl | rfl | rfl | rfl | rfl | rfl | rfl | rfl | rfl <;>
    rfl

/-- What is there for the kind makes the value, or it fails. -/
theorem run_convert_of_convertPlain? {made : Except Stop Value} (h : w.store.isA value target = false)
    (htarget : target ∈ Kind.converted)
    (hplain : (convertPlain? execute value target).run jobs w = (made.map some, v)) :
    (convert execute value target).run jobs w = (made, v) := by
  rw [run_convert_of_not_isA h htarget, Task.run_bind]
  cases made with
  | ok r => rw [bind_of_ok hplain]; rfl
  | error stop => rw [bind_of_error hplain]

/-- A conversion to a kind without parts looks only at what the value shows. -/
theorem run_convert_of_convertData? {made : Except Stop Value} (h : w.store.isA value target = false)
    (htarget : target ∈ [.text, .bytes, .int, .real, .number, .bool, .moment])
    (hmade : (convertData? (w.store.view value) target).run jobs w = (made.map some, v)) :
    (convert execute value target).run jobs w = (made, v) := by
  have hview : (view value).run jobs w = (.ok (w.store.view value), w) := rfl
  have hplain : target ∈ Kind.converted ∧ convertPlain? execute value target =
      view value >>= fun data ↦ convertData? data target := by
    simp only [List.mem_cons, List.not_mem_nil, or_false] at htarget
    rcases htarget with rfl | rfl | rfl | rfl | rfl | rfl | rfl <;> exact ⟨by decide, rfl⟩
  refine run_convert_of_convertPlain? h hplain.1 ?_
  rw [hplain.2, Task.run_bind, bind_of_ok hview, hmade]

/-- A conversion by a task that makes every value. -/
theorem run_convert_of_maker {maker : Task Value} {made : Except Stop Value}
    (h : w.store.isA value target = false) (htarget : target ∈ Kind.converted)
    (hmaker : convertPlain? execute value target = do return some (← maker))
    (hrun : maker.run jobs w = (made, v)) : (convert execute value target).run jobs w = (made, v) := by
  refine run_convert_of_convertPlain? h htarget ?_
  rw [hmaker, Task.run_bind]
  cases made with
  | ok r => rw [bind_of_ok hrun]; rfl
  | error stop => rw [bind_of_error hrun]; rfl

theorem gives_convert_of_maker {maker : Task Value} (h : w.store.isA value target = false)
    (htarget : target ∈ Kind.converted)
    (hmaker : convertPlain? execute value target = do return some (← maker))
    (hgives : Gives jobs w target maker) : Gives jobs w target (convert execute value target) := by
  obtain ⟨r, v, hrun, hkind⟩ := hgives
  exact ⟨r, v, run_convert_of_maker h htarget hmaker hrun, hkind⟩

/-- A value within the limits is converted to every kind but sets and moments. -/
theorem gives_convert (h : w.store.isA value target = false)
    (hbuilt : (w.store.view value).IsBuilt) (hlimits : (w.store.view value).IsWithinLimits target)
    (htarget : target ∈ Kind.converted) (hset : target ≠ .set) (hmoment : target ≠ .moment) :
    Gives jobs w target (convert execute value target) := by
  have hscalar (hkinds : target ∈ [.text, .bytes, .int, .real, .number, .bool]) :
      Gives jobs w target (convert execute value target) := by
    obtain ⟨r, hrun, hkind⟩ := run_convertData?_of_scalar hbuilt hlimits hkinds jobs w
    have hscalars := List.mem_append_left [.moment] hkinds
    exact ⟨r, w, run_convert_of_convertData? h hscalars hrun, hkind⟩
  have hmap := kindOf_ne_scope hbuilt.isBasic
  have hkinds := htarget
  simp only [Kind.converted, List.mem_cons, List.not_mem_nil, or_false] at hkinds
  rcases hkinds with rfl | rfl | rfl | rfl | rfl | rfl | rfl | rfl | rfl | rfl | rfl | rfl | rfl
  iterate 6 exact hscalar (by decide)
  · exact absurd rfl hmoment
  · exact gives_convert_of_maker h htarget rfl (gives_toMap hmap (.inl rfl))
  · exact gives_convert_of_maker h htarget rfl (gives_toMap hmap (.inr rfl))
  · exact gives_convert_of_maker h htarget rfl (gives_toList value)
  · have htuple : convertPlain? execute value .tuple =
        (do return Value.tuple (← itemsOf value)) >>= fun r ↦ pure (some r) := by
      rw [bind_assoc]
      rfl
    exact gives_convert_of_maker h htarget htuple (gives_tuple value)
  · exact absurd rfl hset
  · exact gives_convert_of_maker h htarget rfl (gives_toCollection value)

/-- Only texts, bytes and numbers have limits as targets. -/
theorem mem_of_not_isWithinLimits {data : Data} (hlimits : ¬ data.IsWithinLimits target) :
    target ∈ [.text, .bytes, .int, .real, .number] := by
  by_contra hother
  simp only [List.mem_cons, List.not_mem_nil, or_false, not_or] at hother
  obtain ⟨htext, hbytes, hint, hreal, hnumber⟩ := hother
  exact hlimits ⟨by simp [htext, hbytes], by simp [hint, hreal, hnumber], by simp [hint],
    by simp [hreal]⟩

/-- A value beyond the limits is converted, or a number fails. -/
theorem gives_convert_or_limit (execute : Value → Task Value)
    (h : w.store.isA value target = false) (hbuilt : (w.store.view value).IsBuilt)
    (htarget : target ∈ [.text, .bytes, .int, .real, .number]) :
    Gives jobs w target (convert execute value target) ∨
      ∃ cause : Fault, cause.IsLimit ∧
        (convert execute value target).run jobs w = (.error (.fault cause), w) := by
  have hscalars := List.mem_append_left [.bool, .moment] htarget
  rcases run_convertData?_or_limit hbuilt htarget jobs w with ⟨r, hr, hkind⟩ | ⟨cause, hcause, hr⟩
  · exact .inl ⟨r, w, run_convert_of_convertData? h hscalars hr, hkind⟩
  · exact .inr ⟨cause, hcause, run_convert_of_convertData? h hscalars hr⟩

/-- A value becomes a set, or it is refused because of an item that cannot be a key. -/
theorem gives_convert_set_or_refused (execute : Value → Task Value)
    (h : w.store.isA value .set = false) :
    Gives jobs w .set (convert execute value .set) ∨
      ∃ cause, (convert execute value .set).run jobs w =
        (.error (.fault (.conversion cause)), w) := by
  rcases gives_toSet_or_refused jobs w value with hgives | ⟨cause, hrefused⟩
  · exact Or.inl (gives_convert_of_maker h (by decide) rfl hgives)
  · exact Or.inr ⟨cause, run_convert_of_maker h (by decide) rfl hrefused⟩

/-- A value becomes the moment that it describes, or null when it describes none. -/
theorem gives_convert_moment_or_null (execute : Value → Task Value)
    (h : w.store.isA value .moment = false) (hbuilt : (w.store.view value).IsBuilt) :
    Gives jobs w .moment (convert execute value .moment) ∨
      (w.store.view value).toMoment w.now = .ok none ∧
        (convert execute value .moment).run jobs w = (.ok .null, w) := by
  rcases run_convertData?_moment hbuilt jobs w with ⟨m, hm⟩ | ⟨hnone, hnull⟩
  · exact Or.inl ⟨_, w, run_convert_of_convertData? h (by decide) hm, rfl⟩
  · exact Or.inr ⟨hnone, run_convert_of_convertData? h (by decide) hnull⟩

/-- Converting a built value gives a value of the kind, which converting again gives back. Only sets
are refused, by a failure to convert; only what describes no moment becomes null; and only beyond the
limits does converting fail as numbers do. -/
theorem convert_gives (htarget : target ∈ Kind.converted)
    (hbuilt : (w.store.view value).IsBuilt) :
    (∃ r v, (convert execute value target).run jobs w = (.ok r, v) ∧
      v.store.isA r target = true ∧ (convert execute r target).run jobs v = (.ok r, v)) ∨
    (target = .set ∧ ∃ cause, (convert execute value target).run jobs w =
      (.error (.fault (.conversion cause)), w)) ∨
    (target = .moment ∧ (w.store.view value).toMoment w.now = .ok none ∧
      (convert execute value target).run jobs w = (.ok .null, w)) ∨
    (¬ (w.store.view value).IsWithinLimits target ∧ ∃ cause : Fault, cause.IsLimit ∧
      (convert execute value target).run jobs w = (.error (.fault cause), w)) := by
  have hagain (hgives : Gives jobs w target (convert execute value target)) :
      ∃ r v, (convert execute value target).run jobs w = (.ok r, v) ∧
        v.store.isA r target = true ∧ (convert execute r target).run jobs v = (.ok r, v) := by
    obtain ⟨r, v, hrun, hkind⟩ := hgives
    exact ⟨r, v, hrun, hkind, run_convert_of_isA hkind⟩
  by_cases hkind : w.store.isA value target = true
  · exact Or.inl (hagain ⟨value, w, run_convert_of_isA hkind, hkind⟩)
  rw [Bool.not_eq_true] at hkind
  by_cases hset : target = .set
  · subst hset
    rcases gives_convert_set_or_refused execute hkind with hgives | hrefused
    · exact Or.inl (hagain hgives)
    · exact Or.inr (Or.inl ⟨rfl, hrefused⟩)
  by_cases hmoment : target = .moment
  · subst hmoment
    rcases gives_convert_moment_or_null execute hkind hbuilt with hgives | hnull
    · exact Or.inl (hagain hgives)
    · exact Or.inr (Or.inr (Or.inl ⟨rfl, hnull⟩))
  by_cases hlimits : (w.store.view value).IsWithinLimits target
  · exact Or.inl (hagain (gives_convert hkind hbuilt hlimits htarget hset hmoment))
  · rcases gives_convert_or_limit execute hkind hbuilt
        (mem_of_not_isWithinLimits hlimits) with hgives | hfails
    · exact Or.inl (hagain hgives)
    · exact Or.inr (Or.inr (Or.inr ⟨hlimits, hfails⟩))

/-- A numeral becomes an integer. What is not a number is beyond the limits of integers, and a truth
value describes no moment. -/
theorem convert_gives_numeral :
    (∃ r v, (convert Script.execute (.text " 12 ") .int).run (Job.run Job.maxDepth)
        builtinWorld = (.ok r, v) ∧ v.store.isA r .int = true ∧
      (convert Script.execute r .int).run (Job.run Job.maxDepth) v = (.ok r, v)) ∧
    (convert Script.execute (.real .nan) .int).run (Job.run Job.maxDepth) builtinWorld =
      (.error (.fault .value), builtinWorld) ∧
    (convert Script.execute (.bool true) .moment).run (Job.run Job.maxDepth) builtinWorld =
      (.ok .null, builtinWorld) := by
  refine ⟨?_, rfl, rfl⟩
  have hview : builtinWorld.store.view (.text " 12 ") = .text " 12 " := rfl
  have hbuilt : (builtinWorld.store.view (.text " 12 ")).IsBuilt := by
    rw [hview]
    exact Data.isBuilt_atom rfl
  have hnumber : (Data.text " 12 ").toNumber = .ok (.int 12) := by decide +kernel
  have hlimits : (builtinWorld.store.view (.text " 12 ")).IsWithinLimits .int := by
    rw [hview]
    refine ⟨fun h ↦ ?_, fun _ ↦ ⟨fun s hs ↦ ?_, fun m hm ↦ ?_⟩, fun _ x hx ↦ ?_, fun h ↦ ?_⟩
    · rcases h with h | h <;> cases h
    · obtain rfl : " 12 " = s := by
        injection hs with hs
        injection hs
      exact fun h ↦ absurd h.2 (by decide)
    · cases hm
    · rw [hnumber] at hx
      cases hx
    · cases h
  rcases @convert_gives (Job.run Job.maxDepth) Script.execute (.text " 12 ") .int builtinWorld
    (by decide) hbuilt with hgives | ⟨hset, -⟩ | ⟨hmoment, -⟩ | ⟨hbeyond, -⟩
  · exact hgives
  · cases hset
  · cases hmoment
  · exact absurd hlimits hbeyond

end Script

end ResourceScript

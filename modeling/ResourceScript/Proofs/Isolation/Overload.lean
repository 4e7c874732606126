import Mathlib.Data.List.Forall2
import ResourceScript.Overload
import ResourceScript.Proofs.Isolation.Resource
/-!
# Methods and overloads on a placed store

The terms of host methods, conversions and the choice among overloads. An overload is no value: of
two overloads one follows the other when they have the same parameters and what they do does so
(`Placement.FollowsOverload`). The choice among overloads that follow one another chooses ones that
do.
-/

set_option autoImplicit false

namespace ResourceScript

namespace Placement

open Script

variable {P : Placement} {α β : Type}

/-! ### Host methods -/

@[simp] theorem number?_value (v : Value) : (P.value v).number? = v.number? := by
  cases v <;> simp [Value.number?]

theorem follows_classNamed? (name : String) :
    P.Follows (fun c ↦ c) (classNamed? name) (classNamed? name) :=
  follows_surroundings fun _ ↦ follows_pure rfl

theorem follows_classOf? (info : ClassInfo) :
    P.Follows (fun c ↦ c) (classOf? info) (classOf? info) :=
  follows_surroundings fun _ ↦ follows_pure rfl

theorem follows_plus (a b : Value) :
    P.Follows P.value (plus a b) (plus (P.value a) (P.value b)) := by
  unfold plus
  rw [number?_value, number?_value]
  split
  · exact (follows_ofExcept_same _).bind fun n ↦ follows_pure (P.value_ofNumber n)
  · cases a with
    | atom x =>
      rw [value_atom]
      cases b with
      | atom y =>
        rw [value_atom]
        split
        · exact follows_pure (P.value_atom _)
        · rename_i hcell _
          cases hcell
        · exact follows_fail _
      | _ => cases x <;> exact follows_fail _
    | cell n =>
      cases b with
      | cell m =>
        rw [value_cell, value_cell]
        refine (follows_cell n).bind fun c ↦ (follows_cell m).bind fun d ↦ ?_
        cases c with
        | list items =>
          cases d with
          | list others =>
            simp only [content, ← List.map_append]
            exact follows_newList _
          | _ => exact follows_fail _
        | _ => exact follows_fail _
      | _ => exact follows_fail _
    | _ => exact follows_fail _

theorem follows_times (a b : Value) :
    P.Follows P.value (times a b) (times (P.value a) (P.value b)) := by
  unfold times
  rw [number?_value, number?_value]
  split
  · exact follows_pure (P.value_atom _)
  · exact (follows_ofExcept_same _).bind fun x ↦ (follows_ofExcept_same _).bind fun y ↦
      follows_pure (P.value_atom _)
  · exact follows_fail _

theorem follows_double (a : Value) :
    P.Follows P.value (double a) (double (P.value a)) := by
  unfold double
  rw [number?_value]
  cases a.number? with
  | some x => exact (follows_ofExcept_same _).bind fun x ↦ follows_pure (P.value_atom _)
  | none =>
    cases a with
    | atom x =>
      rw [value_atom]
      cases x with
      | text s =>
        dsimp only
        split
        · exact follows_pure (P.value_atom _)
        · exact follows_fail _
      | _ => exact follows_fail _
    | _ => exact follows_fail _

theorem follows_fieldOf (self : Value) (name : String) :
    P.Follows P.value (fieldOf self name) (fieldOf (P.value self) name) := by
  cases self with
  | cell n =>
    rw [value_cell]
    refine (follows_cell n).bind fun c ↦ ?_
    cases c with
    | object info fields =>
      simp only [content, Holds.lookup_fields]
      cases fields.lookup name with
      | some v => exact follows_pure rfl
      | none => exact follows_fail _
    | _ => exact follows_fail _
  | _ => exact follows_fail _

mutual

theorem follows_answer (self : Value) (arguments : List Value) : ∀ term : HostTerm,
    P.Follows P.value (answer self arguments term)
      (answer (P.value self) (arguments.map P.value) term)
  | .constant a => follows_pure (P.value_atom a)
  | .field name => follows_fieldOf self name
  | .argument position missing => follows_pure (by
      rw [List.getElem?_map]
      cases arguments[position]? <;> simp)
  | .count => follows_pure (by rw [List.length_map]; exact P.value_atom _)
  | .arguments => follows_newList arguments
  | .plus a b => by
    rw [answer, answer]
    exact (follows_answer self arguments a).bind fun x ↦
      (follows_answer self arguments b).bind (follows_plus x)
  | .times a b => by
    rw [answer, answer]
    exact (follows_answer self arguments a).bind fun x ↦
      (follows_answer self arguments b).bind (follows_times x)
  | .double a => by
    rw [answer, answer]
    exact (follows_answer self arguments a).bind follows_double
  | .display a => by
    rw [answer, answer]
    exact (follows_answer self arguments a).bind fun x ↦ (follows_view x).bind fun _ ↦
      (follows_ofExcept_same _).bind fun _ ↦ follows_pure (P.value_atom _)
  | .textOnly a => by
    rw [answer, answer]
    refine (follows_answer self arguments a).bind fun x ↦ ?_
    cases x with
    | atom x =>
      rw [value_atom]
      cases x with
      | text s => exact follows_pure (P.value_atom _)
      | _ => exact follows_fail _
    | _ => exact follows_fail _
  | .new name fields => by
    rw [answer, answer]
    refine (follows_classNamed? name).bind fun c? ↦ ?_
    cases c? with
    | some c =>
      exact (follows_answers self arguments fields).bind fun made ↦
        follows_newCell (.object c.info made)
    | none => exact follows_fail _

theorem follows_answers (self : Value) (arguments : List Value) :
    ∀ fields : List (String × HostTerm),
      P.Follows (List.map P.field) (answers self arguments fields)
        (answers (P.value self) (arguments.map P.value) fields)
  | [] => follows_pure rfl
  | (name, term) :: rest => by
    rw [answers, answers]
    exact (follows_answer self arguments term).bind fun v ↦
      (follows_answers self arguments rest).bind fun made ↦ follows_pure rfl

end

/-! ### Conversions -/

theorem Holds.isA {own whole : Store} (h : P.Holds own whole) (v : Value) (target : Kind) :
    whole.isA (P.value v) target = own.isA v target := by
  unfold Store.isA
  rw [h.kindOf]

theorem follows_convertData? (data : Data) (target : Kind) :
    P.Follows (Option.map P.value) (convertData? data target) (convertData? data target) := by
  have hatom (a : Atom) : (some (Value.atom a)).map P.value = some (.atom a) :=
    congrArg some (P.value_atom a)
  unfold convertData?
  split
  iterate 4 exact (follows_ofExcept_same _).bind fun _ ↦ follows_pure (hatom _)
  · exact (follows_ofExcept_same _).bind fun n ↦ follows_pure (congrArg some (P.value_ofNumber n))
  · exact (follows_ofExcept_same _).bind fun _ ↦ follows_pure (hatom _)
  · refine follows_surroundings fun s ↦ (follows_ofExcept_same _).bind fun m? ↦ ?_
    split <;> exact follows_pure (hatom _)
  · exact follows_pure rfl

theorem follows_refuseConversion {move : α → α} (v : Value) (target : Kind) :
    P.Follows move (refuseConversion v target) (refuseConversion (P.value v) target) :=
  follows_store fun _ _ h ↦ by
    rw [h.kindOf]
    exact follows_fail _

section

variable {execute : Value → Task Value}
  (hexecute : ∀ v, P.Follows P.value (execute v) (execute (P.value v)))

include hexecute

theorem follows_holding (location : String) (v : Value) :
    P.Follows P.value (toResource.holding execute location v)
      (toResource.holding execute location (P.value v)) := by
  have hnew := follows_newResource (P := P) (.text location)
  rw [value_atom] at hnew
  exact hnew.bind fun n ↦ (follows_putData hexecute (.made n) v).discard.bind fun _ ↦
    follows_pure (P.value_resource (.made n))

theorem follows_toResource (v : Value) :
    P.Follows P.value (toResource execute v) (toResource execute (P.value v)) := by
  have hholding := follows_holding hexecute ResourceRecord.nullLocation v
  cases v with
  | resource r => exact follows_pure rfl
  | atom a =>
    have htext := fun location ↦ follows_holding hexecute location (.atom a)
    rw [value_atom] at hholding ⊢
    cases a with
    | null => exact follows_madeText _
    | text s =>
      have hnew := follows_newResource (P := P) (.text s)
      rw [value_atom] at hnew
      refine hnew.bind fun n ↦ (follows_resource (.made n)).bind fun record ↦ ?_
      rw [record_uri]
      split
      · exact follows_pure (P.value_resource (.made n))
      · have hplain := htext "data:text/plain,"
        rwa [value_atom] at hplain
    | _ => exact hholding
  | _ => exact hholding

theorem follows_convertPlain? (v : Value) (target : Kind) :
    P.Follows (Option.map P.value) (convertPlain? execute v target)
      (convertPlain? execute (P.value v) target) := by
  have hsome {x x' : Task Value} (hx : P.Follows P.value x x') :
      P.Follows (Option.map P.value) (do return some (← x)) (do return some (← x')) :=
    hx.bind fun _ ↦ follows_pure rfl
  unfold convertPlain?
  split
  · exact hsome (follows_toResource hexecute v)
  · exact hsome (follows_toMap v)
  · exact hsome (follows_toMap v)
  · exact hsome (follows_toList v)
  · exact (follows_itemsOf v).bind fun items ↦
      follows_pure (congrArg some (P.value_tuple items))
  · exact hsome (follows_toSet v)
  · exact hsome (follows_toCollection v)
  · exact (follows_view v).bind fun d ↦ follows_convertData? d target

theorem follows_constructFrom? (m : HostMethod) (v : Value) :
    P.Follows (Option.map P.value) (constructFrom? execute m v)
      (constructFrom? execute m (P.value v)) := by
  have hanswer (arguments : List Value) : P.Follows (Option.map P.value)
      (do return some (← answer .null arguments m.answer))
      (do return some (← answer .null (arguments.map P.value) m.answer)) := by
    have h := follows_answer (P := P) .null arguments m.answer
    rw [value_atom] at h
    exact h.bind fun _ ↦ follows_pure rfl
  unfold constructFrom?
  split
  · exact follows_pure rfl
  · rw [isNull_value]
    split
    · exact hanswer []
    · split
      · dsimp only
        split
        · refine follows_store fun own _ h ↦ ?_
          rw [h.isA]
          split
          · exact hanswer [v]
          · refine (follows_convertPlain? hexecute v _).bind fun converted ↦ ?_
            have hgetD : (converted.map P.value).getD (P.value v) =
                P.value (converted.getD v) := by cases converted <;> rfl
            rw [hgetD]
            exact hanswer [converted.getD v]
        · exact hanswer [v]
      · exact follows_pure rfl

theorem follows_constructFirst (target : Kind) (v : Value) (methods : List HostMethod) :
    P.Follows P.value (constructFirst execute target v methods)
      (constructFirst execute target (P.value v) methods) := by
  induction methods with
  | nil => exact follows_refuseConversion v target
  | cons m rest ih =>
    refine Follows.bind ((follows_constructFrom? hexecute m v).tryCatch fun stop ↦ ?_)
      fun made ↦ ?_
    · split
      · split
        · exact follows_pure rfl
        · exact follows_throw _
      · exact follows_throw _
    · cases made with
      | some object => exact follows_pure rfl
      | none => exact ih

theorem follows_convert (v : Value) (target : Kind) :
    P.Follows P.value (convert execute v target) (convert execute (P.value v) target) :=
  follows_store fun own _ h ↦ by
    rw [h.isA]
    split
    · exact follows_pure rfl
    · split
      · refine (follows_classOf? _).bind fun c? ↦ ?_
        split
        · exact follows_constructFirst hexecute _ v _
        · exact follows_refuseConversion v _
      · refine (follows_convertPlain? hexecute v _).bind fun converted ↦ ?_
        cases converted with
        | some made => exact follows_pure rfl
        | none => exact follows_refuseConversion v _

end

/-! ### Overloads -/

/-- Whether an overload follows another. -/
structure FollowsOverload (P : Placement) (o o' : Overload) : Prop where
  parameters : o'.parameters = o.parameters
  run : ∀ arguments, P.Follows P.value (o.run arguments) (o'.run (arguments.map P.value))

theorem followsOverload_ofMethod (self : Value) (m : HostMethod) :
    P.FollowsOverload (.ofMethod self m) (.ofMethod (P.value self) m) :=
  ⟨rfl, fun arguments ↦ follows_answer self arguments m.answer⟩

theorem forall₂_ofMethod (self : Value) (methods : List HostMethod) :
    List.Forall₂ P.FollowsOverload (methods.map (.ofMethod self))
      (methods.map (.ofMethod (P.value self))) := by
  induction methods with
  | nil => exact .nil
  | cons m rest ih => exact .cons (followsOverload_ofMethod self m) ih

theorem Holds.accepts {own whole : Store} (h : P.Holds own whole) {o o' : Overload}
    (ho : P.FollowsOverload o o') (arguments : List Value) :
    o'.accepts whole (arguments.map P.value) = o.accepts own arguments := by
  unfold Overload.accepts
  rw [ho.parameters, List.zip_map_right, List.all_map]
  congr 1
  funext ⟨parameter, argument⟩
  simp only [Function.comp_apply, Prod.map_apply, id_eq, isNull_value, h.isA]

/-- Tests that agree on related items find related items. -/
theorem rel_find? {R : α → β → Prop} {p : α → Bool} {q : β → Bool}
    (hpq : ∀ a b, R a b → q b = p a) {items : List α} {others : List β}
    (h : List.Forall₂ R items others) :
    (items.find? p = none ∧ others.find? q = none) ∨
      ∃ a b, items.find? p = some a ∧ others.find? q = some b ∧ R a b := by
  induction h with
  | nil => exact .inl ⟨rfl, rfl⟩
  | @cons a b rest rest' hab _ ih =>
    rw [List.find?_cons, List.find?_cons, hpq a b hab]
    cases p a with
    | true => exact .inr ⟨a, b, rfl, rfl, hab⟩
    | false => exact ih

/-- Of overloads that follow one another, ones that do are chosen. -/
theorem Holds.select? {own whole : Store} (h : P.Holds own whole)
    {overloads overloads' : List Overload} (ho : List.Forall₂ P.FollowsOverload overloads overloads')
    (arguments : List Value) :
    (Overload.select? own overloads arguments = none ∧
        Overload.select? whole overloads' (arguments.map P.value) = none) ∨
      ∃ o o', Overload.select? own overloads arguments = some o ∧
        Overload.select? whole overloads' (arguments.map P.value) = some o' ∧
        P.FollowsOverload o o' := by
  have hfit : List.Forall₂ P.FollowsOverload
      (overloads.filter fun o ↦ o.fits arguments.length)
      (overloads'.filter fun o ↦ o.fits (arguments.map P.value).length) := by
    refine List.rel_filter (fun o o' hoo ↦ ?_) ho
    have hfits : o'.fits (arguments.map P.value).length = o.fits arguments.length := by
      unfold Overload.fits
      rw [hoo.parameters, List.length_map]
    show o.fits _ = true ↔ o'.fits _ = true
    rw [hfits]
  unfold Overload.select?
  dsimp only
  have haccepts : ∀ o o', P.FollowsOverload o o' →
      o'.accepts whole (arguments.map P.value) = o.accepts own arguments :=
    fun o o' hoo ↦ h.accepts hoo arguments
  rcases rel_find? haccepts hfit with
    ⟨hown, hwhole⟩ | ⟨o, o', hown, hwhole, hoo⟩
  · rw [hown, hwhole]
    revert hfit
    generalize overloads.filter _ = fitting
    generalize overloads'.filter _ = fitting'
    intro hfit
    cases hfit with
    | nil => exact rel_find? (fun o o' hoo ↦ by rw [hoo.parameters]) ho
    | cons hoo _ => exact .inr ⟨_, _, rfl, rfl, hoo⟩
  · rw [hown, hwhole]
    exact .inr ⟨o, o', rfl, rfl, hoo⟩

theorem follows_select {move : α → α} {next next' : Overload → Task α} (name : String)
    {overloads overloads' : List Overload}
    (ho : List.Forall₂ P.FollowsOverload overloads overloads') (arguments : List Value)
    (hnext : ∀ o o', P.FollowsOverload o o' → P.Follows move (next o) (next' o')) :
    P.Follows move (Overload.select name overloads arguments >>= next)
      (Overload.select name overloads' (arguments.map P.value) >>= next') := by
  unfold Overload.select
  rw [bind_assoc, bind_assoc, List.length_map]
  refine follows_store fun own whole h ↦ ?_
  rcases h.select? ho arguments with ⟨hown, hwhole⟩ | ⟨o, o', hown, hwhole, hoo⟩
  · rw [hown, hwhole]
    exact follows_fail_bind _ _ _
  · rw [hown, hwhole]
    exact hnext o o' hoo

section

variable {execute : Value → Task Value}
  (hexecute : ∀ v, P.Follows P.value (execute v) (execute (P.value v)))

include hexecute

theorem follows_convertAll (parameters : List HostParameter) (arguments : List Value) :
    P.Follows (List.map P.value) (Overload.convertAll execute parameters arguments)
      (Overload.convertAll execute parameters (arguments.map P.value)) := by
  induction parameters generalizing arguments with
  | nil => exact follows_pure (by cases arguments <;> rfl)
  | cons parameter parameters ih =>
    cases arguments with
    | nil => exact follows_pure rfl
    | cons argument arguments =>
      have hrest (v : Value) : P.Follows (List.map P.value)
          (do return v :: (← Overload.convertAll execute parameters arguments))
          (do return P.value v :: (← Overload.convertAll execute parameters
            (arguments.map P.value))) :=
        (ih arguments).bind fun converted ↦ follows_pure rfl
      rw [List.map_cons, Overload.convertAll, Overload.convertAll]
      split
      · exact (follows_convert hexecute argument _).bind hrest
      · exact hrest argument

theorem follows_call {o o' : Overload} (ho : P.FollowsOverload o o') (arguments : List Value) :
    P.Follows P.value (o.call execute arguments) (o'.call execute (arguments.map P.value)) := by
  unfold Overload.call
  rw [ho.parameters]
  cases o.parameters with
  | none => exact ho.run arguments
  | some parameters =>
    refine (follows_convertAll hexecute parameters arguments).bind fun converted ↦ ?_
    rw [List.length_map]
    split
    · exact ho.run converted
    · exact follows_fail _

end

end Placement

end ResourceScript

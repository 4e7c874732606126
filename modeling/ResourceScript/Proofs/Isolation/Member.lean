import ResourceScript.Member
import ResourceScript.Proofs.Isolation.Collection
/-!
# Members in a placed store

The members of texts, bytes, numbers and moments follow themselves, since they only read arguments;
those that are left to the interpreter also read what the host holds, which is at images, too. With
those of collections and host objects, every call of a member of an image follows the call of
the member (`Placement.follows_callMember`).
-/

set_option autoImplicit false

namespace ResourceScript

namespace Placement

open Member

variable {P : Placement}

@[simp] theorem value_ofText (chars : List Char) : P.value (ofText chars) = ofText chars :=
  P.value_atom _

/-! ### Texts -/

theorem follows_splitArguments (arguments : List Value) :
    P.Follows (fun s ↦ s) (splitArguments arguments) (splitArguments (arguments.map P.value)) := by
  refine (follows_nullable follows_text arguments 0).bind fun separator ↦
    (follows_optional follows_size arguments 1).bind fun most ↦ ?_
  split
  · exact follows_fail_bind _ _ _
  · exact follows_pure rfl

theorem follows_newTexts (parts : List (List Char)) :
    P.Follows P.value (newTexts parts) (newTexts parts) := by
  have hlist := follows_newList (P := P) (parts.map ofText)
  rwa [List.map_map, show P.value ∘ ofText = ofText from funext value_ofText] at hlist

theorem follows_bounds (length : Nat) (arguments : List Value) (position : Nat) :
    P.Follows (fun b ↦ b) (bounds length arguments position)
      (bounds length (arguments.map P.value) position) :=
  (follows_nullable follows_integer arguments position).bind fun _ ↦
    (follows_nullable follows_integer arguments (position + 1)).bind fun _ ↦ follows_pure rfl

theorem follows_occurrences (chars : List Char) (arguments : List Value) :
    P.Follows (fun o ↦ o) (occurrences chars arguments)
      (occurrences chars (arguments.map P.value)) := by
  unfold occurrences
  rw [argument_map]
  exact (follows_text _).bind fun _ ↦ (follows_bounds _ arguments 1).bind fun _ ↦ follows_pure rfl

theorem follows_affixed (fits : List Char → List Char → Bool) (chars : List Char)
    (arguments : List Value) :
    P.Follows P.value (affixed fits chars arguments)
      (affixed fits chars (arguments.map P.value)) := by
  refine (follows_bounds _ arguments 1).bind fun b ↦ ?_
  have hanswer (affixes : List (List Char)) : P.Follows P.value
      (pure (.bool (b.2.2 && b.1 ≤ b.2.1 &&
        affixes.any fun affix ↦ fits affix ((chars.take b.2.1).drop b.1))))
      (pure (.bool (b.2.2 && b.1 ≤ b.2.1 &&
        affixes.any fun affix ↦ fits affix ((chars.take b.2.1).drop b.1)))) :=
    follows_pure (P.value_atom _)
  dsimp only
  rw [argument_map]
  have hsingle := follows_text (P := P) (argument arguments 0)
  cases hargument : argument arguments 0 with
  | tuple items =>
    rw [value_tuple]
    exact (follows_mapM_plain follows_text items).bind hanswer
  | _ =>
    rw [hargument] at hsingle
    exact hsingle.bind fun t ↦ hanswer [t]

theorem followsOverload_finding (choose : List Nat → Option Nat) {missing : Task Value}
    (hmissing : P.Follows P.value missing missing) (chars : List Char) :
    P.FollowsOverload (finding choose missing chars) (finding choose missing chars) := by
  refine followsOverload_checked (fun arguments ↦ ?_) 1 3
  refine (follows_occurrences chars arguments).bind fun found ↦ ?_
  split
  · exact follows_pure (P.value_atom _)
  · exact hmissing

theorem followsOverload_parting
    (cut : Option (List Char) → Option Nat → List Char → List (List Char))
    (whole : List (List Char)) (chars : List Char) :
    P.FollowsOverload (parting cut whole chars) (parting cut whole chars) := by
  have htuple (parts : List (List Char)) :
      P.value (.tuple (parts.map ofText)) = .tuple (parts.map ofText) := by
    simp [Function.comp_def]
  refine followsOverload_declared (fun arguments ↦ ?_) 1 1
  rw [argument_map]
  refine (follows_text _).bind fun separator ↦ ?_
  split
  · exact follows_fail _
  · exact follows_pure (htuple _)

theorem followsOverload_filling (fillUp : List Char → Int → Char → List Char) (chars : List Char) :
    P.FollowsOverload (filling fillUp chars) (filling fillUp chars) := by
  refine followsOverload_declared (fun arguments ↦ ?_) 1 2
  rw [argument_map]
  exact (follows_size _).bind fun _ ↦ (follows_optional follows_oneChar arguments 1).bind
    fun _ ↦ follows_pure (value_ofText _)

theorem followsOverload_stripping (strip : (Char → Bool) → List Char → List Char)
    (chars : List Char) :
    P.FollowsOverload (stripping strip chars) (stripping strip chars) := by
  refine followsOverload_declared (fun arguments ↦ ?_) 0 1
  refine (follows_nullable follows_text arguments 0).bind fun _ ↦ ?_
  split <;> exact follows_pure (value_ofText _)

theorem forall₂_textMethod? (chars : List Char) (name : String) :
    List.Forall₂ P.FollowsOverload (textMethod? chars name).toList
      (textMethod? chars name).toList := by
  unfold textMethod?
  split
  · -- split
    exact forall₂_some (followsOverload_declared (fun arguments ↦
      (follows_splitArguments arguments).bind fun _ ↦ follows_newTexts _) 0 2)
  · -- rsplit
    exact forall₂_some (followsOverload_declared (fun arguments ↦
      (follows_splitArguments arguments).bind fun _ ↦ follows_newTexts _) 0 2)
  · -- splitlines
    exact forall₂_some (followsOverload_declared (fun arguments ↦
      (follows_optional follows_shortSize arguments 0).bind fun _ ↦ follows_newTexts _) 0 1)
  · -- replace
    refine forall₂_some (followsOverload_declared (fun arguments ↦ ?_) 2 3)
    rw [argument_map, argument_map]
    exact (follows_text _).bind fun _ ↦ (follows_text _).bind fun _ ↦
      (follows_optional follows_size arguments 2).bind fun _ ↦ follows_pure (value_ofText _)
  -- strip, lstrip, rstrip
  iterate 3 exact forall₂_some (followsOverload_stripping _ chars)
  · -- join
    refine forall₂_some (followsOverload_declared (fun arguments ↦ ?_) 1 1)
    rw [argument_map]
    exact (follows_iterated _).bind fun items ↦ (follows_mapM_plain follows_text items).bind
      fun _ ↦ follows_pure (value_ofText _)
  · -- zfill
    refine forall₂_some (followsOverload_declared (fun arguments ↦ ?_) 1 1)
    rw [argument_map]
    exact (follows_size _).bind fun _ ↦ follows_pure (value_ofText _)
  -- center, ljust, rjust
  iterate 3 exact forall₂_some (followsOverload_filling _ chars)
  · -- expandtabs
    exact forall₂_some (followsOverload_declared (fun arguments ↦
      (follows_optional follows_shortSize arguments 0).bind fun _ ↦
        follows_pure (value_ofText _)) 0 1)
  -- partition, rpartition
  iterate 2 exact forall₂_some (followsOverload_parting _ _ chars)
  · -- removeprefix
    refine forall₂_some (followsOverload_declared (fun arguments ↦ ?_) 1 1)
    rw [argument_map]
    exact (follows_text _).bind fun _ ↦ follows_pure (value_ofText _)
  · -- removesuffix
    refine forall₂_some (followsOverload_declared (fun arguments ↦ ?_) 1 1)
    rw [argument_map]
    exact (follows_text _).bind fun _ ↦ follows_pure (value_ofText _)
  · -- encode
    exact forall₂_some (followsOverload_declared (fun arguments ↦
      (follows_optional follows_text arguments 0).bind fun _ ↦
        (follows_optional follows_text arguments 1).bind fun _ ↦
          (follows_ofExcept_same _).bind fun _ ↦ follows_pure (P.value_atom _)) 0 2)
  -- find, rfind
  iterate 2 exact forall₂_some (followsOverload_finding _ (follows_pure (P.value_atom _)) chars)
  -- index, rindex
  iterate 2 exact forall₂_some (followsOverload_finding _ (follows_fail _) chars)
  · -- count
    refine forall₂_some (followsOverload_checked (fun arguments ↦ ?_) 1 3)
    rw [argument_map]
    exact (follows_text _).bind fun _ ↦ (follows_occurrences chars arguments).bind fun _ ↦
      follows_pure (P.value_atom _)
  -- startswith, endswith
  iterate 2 exact forall₂_some (followsOverload_checked (follows_affixed _ chars) 1 3)
  · exact .nil

theorem forall₂_textMember? (chars : List Char) (name : String) :
    List.Forall₂ P.FollowsOverload (textMember? chars name).toList
      (textMember? chars name).toList := by
  unfold textMember?
  split
  · exact forall₂_some (followsOverload_plain (follows_pure (value_ofText _)))
  · exact forall₂_some (followsOverload_plain (follows_pure (P.value_atom _)))
  · exact forall₂_textMethod? chars name

theorem follows_hexSeparator (v : Value) :
    P.Follows (fun c ↦ c) (hexSeparator v) (hexSeparator (P.value v)) := by
  have hchar (c : Char) : P.Follows (fun c ↦ c)
      (do if 0x80 ≤ c.toNat then Script.fail .value
          return c)
      (do if 0x80 ≤ c.toNat then Script.fail .value
          return c) := by
    split
    · exact follows_fail_bind _ _ _
    · exact follows_pure rfl
  cases v with
  | atom a =>
    rw [value_atom]
    unfold hexSeparator
    dsimp only
    split
    · split
      · exact hchar _
      · exact follows_fail_bind _ _ _
    · exact hchar _
    · exact follows_fail_bind _ _ _
    · exact follows_fail_bind _ _ _
  | _ => exact follows_fail_bind _ _ _

theorem forall₂_bytesMember? (bytes : List UInt8) (name : String) :
    List.Forall₂ P.FollowsOverload (bytesMember? bytes name).toList
      (bytesMember? bytes name).toList := by
  unfold bytesMember?
  split
  · -- decode
    exact forall₂_some (followsOverload_declared (fun arguments ↦
      (follows_optional follows_text arguments 0).bind fun _ ↦
        (follows_optional follows_text arguments 1).bind fun _ ↦
          (follows_ofExcept_same _).bind fun _ ↦ follows_pure (value_ofText _)) 0 2)
  · -- hex
    refine forall₂_some (followsOverload_checked (fun arguments ↦ ?_) 0 2)
    refine (follows_optional follows_shortSize arguments 1).bind fun _ ↦ ?_
    cases arguments with
    | nil => exact follows_pure (value_ofText _)
    | cons separator rest =>
      exact (follows_hexSeparator separator).bind fun _ ↦ follows_pure (value_ofText _)
  · exact .nil

/-! ### Values without parts -/

/-- A member without arguments that is the same everywhere. -/
theorem forall₂_plain (a : Atom) :
    List.Forall₂ P.FollowsOverload (some (plain (pure (.atom a)))).toList
      (some (plain (pure (.atom a)))).toList :=
  forall₂_some (followsOverload_plain (follows_pure (P.value_atom a)))

/-- A member that checks that it has no arguments and is the same everywhere. -/
theorem forall₂_checked (a : Atom) :
    List.Forall₂ P.FollowsOverload (some (checked 0 0 fun _ ↦ return .atom a)).toList
      (some (checked 0 0 fun _ ↦ return .atom a)).toList :=
  forall₂_some (followsOverload_checked (fun _ ↦ follows_pure (P.value_atom a)) 0 0)

theorem forall₂_integerMember? (n : Int) (name : String) :
    List.Forall₂ P.FollowsOverload (integerMember? n name).toList
      (integerMember? n name).toList := by
  unfold integerMember?
  split
  · exact forall₂_plain _
  · exact forall₂_plain _
  · exact forall₂_some (followsOverload_plain (follows_pure (P.value_tuple [.int n, .int 1])))
  · exact forall₂_checked _
  · exact .nil

theorem forall₂_realMember? (x : Double) (name : String) :
    List.Forall₂ P.FollowsOverload (realMember? x name).toList (realMember? x name).toList := by
  unfold realMember?
  split
  · exact forall₂_plain _
  · exact forall₂_plain _
  · exact .nil

theorem follows_precision (name : List Char) :
    P.Follows (fun p ↦ p) (precision name) (precision name) := by
  unfold precision
  dsimp only
  split
  iterate 6 exact follows_pure rfl
  exact follows_fail _

theorem forall₂_momentMember? (m : Moment) (name : String) :
    List.Forall₂ P.FollowsOverload (momentMember? m name).toList
      (momentMember? m name).toList := by
  unfold momentMember?
  split
  · exact forall₂_some (followsOverload_checked (fun arguments ↦
      (follows_optional follows_oneChar arguments 0).bind fun _ ↦
        (follows_optional follows_text arguments 1).bind fun _ ↦
          (follows_precision _).bind fun _ ↦ follows_pure (value_ofText _)) 0 2)
  iterate 4 exact forall₂_checked _
  · exact .nil

theorem forall₂_dayMember? (d : Day) (name : String) :
    List.Forall₂ P.FollowsOverload (dayMember? d name).toList (dayMember? d name).toList := by
  unfold dayMember?
  split
  iterate 3 exact forall₂_checked _
  exact .nil

theorem forall₂_atomMember? (a : Atom) (name : String) :
    List.Forall₂ P.FollowsOverload (atomMember? a name).toList (atomMember? a name).toList := by
  cases a with
  | bool b => exact forall₂_integerMember? _ name
  | int n => exact forall₂_integerMember? n name
  | real x => exact forall₂_realMember? x name
  | text s => exact forall₂_textMember? _ name
  | bytes data => exact forall₂_bytesMember? data name
  | moment m => exact forall₂_momentMember? m name
  | day d => exact forall₂_dayMember? d name
  | url u =>
    have htuple := forall₂_tupleMember? (P := P) (u.parts.map .text) name
    rwa [map_value_map_text] at htuple
  | _ => exact .nil

theorem forall₂_cellMember? (n : Nat) (c : Cell) (name : String) :
    List.Forall₂ P.FollowsOverload (cellMember? n c name).toList
      (cellMember? (P.cell n) (P.content c) name).toList := by
  cases c with
  | list items => exact forall₂_listMember? n name
  | map entries => exact forall₂_mapMember? n name
  | page entries source => exact forall₂_mapMember? n name
  | set items => exact forall₂_setMember? n name
  | _ => exact .nil

/-! ### Calls of members -/

section

open Script

variable {α : Type} {move : α → α} {next next' : List Overload → Task α}
  (hnext : ∀ overloads overloads', List.Forall₂ P.FollowsOverload overloads overloads' →
    P.Follows move (next overloads) (next' overloads'))

include hnext

theorem follows_hostMembers (self : Value) (info : ClassInfo) (name : String) :
    P.Follows move (hostMembers self info name >>= next)
      (hostMembers (P.value self) info name >>= next') := by
  unfold hostMembers
  split
  · exact hnext [] [] .nil
  · rw [bind_assoc, bind_assoc]
    refine (follows_classOf? info).bind fun c? ↦ ?_
    cases c? with
    | some c => exact hnext _ _ (forall₂_ofMethod self _)
    | none => exact hnext [] [] .nil

theorem follows_staticMembers (info : ClassInfo) (name : String) :
    P.Follows move (staticMembers info name >>= next) (staticMembers info name >>= next') := by
  unfold staticMembers
  rw [bind_assoc, bind_assoc]
  refine (follows_classOf? info).bind fun c? ↦ ?_
  cases c? with
  | some c =>
    refine hnext _ _ ?_
    cases c.statics.lookup name with
    | none => exact .nil
    | some m =>
      have hmethod := followsOverload_ofMethod (P := P) .null m
      rw [value_atom] at hmethod
      exact forall₂_some hmethod
  | none => exact hnext [] [] .nil

theorem follows_nativeMembers (a : Atom) (name : String) :
    P.Follows move (nativeMembers a name >>= next) (nativeMembers a name >>= next') := by
  unfold nativeMembers
  split
  · rw [bind_assoc, bind_assoc]
    refine follows_surroundings fun s ↦ hnext _ _ ?_
    cases s.natives a.kindOf name with
    | none => exact .nil
    | some m => exact forall₂_some (followsOverload_ofNative a m)
  · exact hnext [] [] .nil

theorem follows_atomMembers (a : Atom) (name : String) :
    P.Follows move
      ((match Member.atomMember? a name with
        | some o => pure [o]
        | none => nativeMembers a name) >>= next)
      ((match Member.atomMember? a name with
        | some o => pure [o]
        | none => nativeMembers a name) >>= next') := by
  have hmember := forall₂_atomMember? (P := P) a name
  split
  · rename_i o hfound
    rw [hfound] at hmember
    exact hnext _ _ hmember
  · exact follows_nativeMembers hnext a name

theorem follows_members (target : Value) (name : String) :
    P.Follows move (members target name >>= next) (members (P.value target) name >>= next') := by
  unfold members
  split
  · exact hnext [] [] .nil
  · cases target with
    | atom a =>
      have hatom := follows_atomMembers hnext a name
      rw [value_atom]
      cases a with
      | kind k =>
        cases k with
        | host info => exact follows_staticMembers hnext info name
        | _ => exact hatom
      | _ => exact hatom
    | tuple items =>
      rw [value_tuple]
      exact hnext _ _ (forall₂_tupleMember? items name)
    | frozen items =>
      rw [value_frozen]
      exact hnext _ _ (forall₂_frozenMember? items name)
    | cell n =>
      rw [value_cell]
      simp only [bind_assoc]
      refine (follows_cell n).bind fun c ↦ ?_
      cases c with
      | object info fields =>
        have hhost := follows_hostMembers hnext (.cell n) info name
        rwa [value_cell] at hhost
      | _ => exact hnext _ _ (forall₂_cellMember? n _ name)
    | _ => exact hnext [] [] .nil

end

theorem follows_callMember {execute : Value → Task Value}
    (hexecute : ∀ v, P.Follows P.value (execute v) (execute (P.value v))) (target : Value)
    (name : String) (arguments : List Value) :
    P.Follows P.value (Script.callMember execute target name arguments)
      (Script.callMember execute (P.value target) name (arguments.map P.value)) := by
  refine follows_members (fun overloads overloads' ho ↦ ?_) target name
  have hempty : overloads'.isEmpty = overloads.isEmpty := by cases ho <;> rfl
  rw [hempty]
  split
  · refine follows_store fun own _ h ↦ ?_
    rw [h.kindOf]
    exact follows_fail_bind _ _ _
  · exact (follows_mapM hexecute arguments).bind fun first ↦
      follows_select name ho first fun o o' hoo ↦
        (follows_mapM hexecute arguments).bind fun second ↦ follows_call hexecute hoo second

end Placement

end ResourceScript

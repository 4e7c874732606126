import ResourceScript.Member
import ResourceScript.Proofs.Lasting.Resource
/-!
# Conversions and members keep resources

Converting a value may make a resource of it, which is a new one. Members change containers and
never touch a resource. Which overload of a member is called depends on the arguments, so all of
them have to keep resources (`Overload.Keeps`).
-/

set_option autoImplicit false

namespace ResourceScript

open Script (Keeping keeping_bind)

/-! ### Conversions -/

namespace Script

section

variable {execute : Value → Task Value} [hexecute : ∀ value, Keeping (execute value)]

instance (location : String) (value : Value) :
    Keeping (toResource.holding execute location value) := by
  unfold toResource.holding
  infer_instance

instance (value : Value) : Keeping (toResource execute value) := by
  unfold toResource
  split <;> infer_instance

instance (data : Data) (target : Kind) : Keeping (convertData? data target) := by
  unfold convertData?
  split
  case h_7 =>
    refine keeping_bind fun s ↦ keeping_bind fun m ↦ ?_
    split <;> infer_instance
  all_goals infer_instance

instance (value : Value) (target : Kind) : Keeping (convertPlain? execute value target) := by
  unfold convertPlain?
  split <;> infer_instance

instance {α : Type} (value : Value) (target : Kind) :
    Keeping (refuseConversion value target : Task α) := by
  unfold refuseConversion
  infer_instance

instance (m : HostMethod) (value : Value) : Keeping (constructFrom? execute m value) := by
  unfold constructFrom?
  split
  · infer_instance
  · split
    · infer_instance
    · split
      · split <;> infer_instance
      · infer_instance

instance (target : Kind) (value : Value) (constructors : List HostMethod) :
    Keeping (constructFirst execute target value constructors) := by
  induction constructors with
  | nil =>
    unfold constructFirst
    infer_instance
  | cons m rest ih =>
    unfold constructFirst
    have hmade : Keeping (tryCatch (constructFrom? execute m value) fun stop ↦
        match stop with
        | .fault cause => if isRejection cause then return none else throw stop
        | _ => throw stop) := by
      refine keeping_tryCatch fun stop ↦ ?_
      split <;> infer_instance
    refine keeping_bind fun made ↦ ?_
    split <;> infer_instance

instance (value : Value) (target : Kind) : Keeping (convert execute value target) := by
  unfold convert
  refine keeping_bind fun s ↦ ?_
  split
  · infer_instance
  · split
    · refine keeping_bind fun c ↦ ?_
      split <;> infer_instance
    · refine keeping_bind fun converted ↦ ?_
      split <;> infer_instance

end

end Script

/-! ### Overloads -/

namespace Overload

/-- An overload that keeps resources, whatever its arguments. -/
class Keeps (o : Overload) : Prop where
  /-- What a call does keeps resources. -/
  keeping : ∀ arguments, Keeping (o.run arguments)

instance (o : Overload) [ho : Keeps o] (arguments : List Value) : Keeping (o.run arguments) :=
  ho.keeping arguments

instance (self : Value) (m : HostMethod) : Keeps (ofMethod self m) :=
  ⟨fun arguments ↦ inferInstanceAs (Keeping (Script.answer self arguments m.answer))⟩

section

variable {execute : Value → Task Value} [hexecute : ∀ value, Keeping (execute value)]

instance (parameters : List HostParameter) (arguments : List Value) :
    Keeping (convertAll execute parameters arguments) := by
  induction parameters generalizing arguments with
  | nil => exact inferInstanceAs (Keeping (pure arguments))
  | cons parameter rest ih =>
    cases arguments with
    | nil => exact inferInstanceAs (Keeping (pure []))
    | cons argument others =>
      unfold convertAll
      split <;> infer_instance

instance (o : Overload) [Keeps o] (arguments : List Value) : Keeping (call execute o arguments) := by
  unfold call
  split <;> infer_instance

end

theorem mem_of_select? {s : Store} {overloads : List Overload} {arguments : List Value}
    {o : Overload} (h : select? s overloads arguments = some o) : o ∈ overloads := by
  unfold select? at h
  dsimp only at h
  split at h
  · rename_i hfind
    cases h
    exact List.mem_of_mem_filter (List.mem_of_find?_eq_some hfind)
  · split at h
    · rename_i hfitting
      cases h
      exact List.mem_of_mem_filter (hfitting ▸ List.mem_cons_self)
    · exact List.mem_of_find?_eq_some h

/-- The overload that is chosen is one of those that there are. -/
theorem keepsFrom_select {s : Store} (name : String) {overloads : List Overload}
    (hoverloads : ∀ o ∈ overloads, Keeps o) (arguments : List Value) :
    Script.KeepsFrom s (select name overloads arguments) Keeps := by
  refine Script.keepsFrom_store ?_
  split
  · rename_i hselect
    exact Script.keepsFrom_pure (hoverloads _ (mem_of_select? hselect))
  · exact Script.keepsFrom_throw _

end Overload

/-! ### Arguments -/

namespace Member

variable {α : Type}

section

variable {least most : Nat} {run : List Value → Task Value}

theorem keeps_declared (hrun : ∀ arguments, Keeping (run arguments)) :
    Overload.Keeps (declared least most run) :=
  ⟨hrun⟩

theorem keeps_checked (hrun : ∀ arguments, Keeping (run arguments)) :
    Overload.Keeps (checked least most run) := by
  refine ⟨fun arguments ↦ ?_⟩
  unfold checked
  infer_instance

instance [hrun : ∀ arguments, Keeping (run arguments)] : Overload.Keeps (declared least most run) :=
  keeps_declared hrun

instance [hrun : ∀ arguments, Keeping (run arguments)] : Overload.Keeps (checked least most run) :=
  keeps_checked hrun

end

instance (value : Task Value) [hvalue : Keeping value] : Overload.Keeps (plain value) :=
  ⟨fun _ ↦ hvalue⟩

instance (value : Value) : Keeping (text value) := by
  unfold text
  split <;> infer_instance

instance (value : Value) : Keeping (integer value) := by
  unfold integer
  split <;> infer_instance

instance (value : Value) : Keeping (size value) := by
  unfold size
  infer_instance

instance (value : Value) : Keeping (shortSize value) := by
  unfold shortSize
  infer_instance

instance (value : Value) : Keeping (oneChar value) := by
  unfold oneChar
  refine keeping_bind fun chars ↦ ?_
  split <;> infer_instance

section

variable {read : Value → Task α} [hread : ∀ value, Keeping (read value)]

instance (arguments : List Value) (position : Nat) : Keeping (optional read arguments position) := by
  unfold optional
  split <;> infer_instance

instance (arguments : List Value) (position : Nat) : Keeping (nullable read arguments position) := by
  unfold nullable
  split <;> infer_instance

end

instance (value : Value) : Keeping (iterated value) := by
  unfold iterated
  refine keeping_bind fun s ↦ ?_
  split <;> infer_instance

instance (key : Value) : Keeping (missingKey key : Task α) := by
  unfold missingKey
  refine keeping_bind fun data ↦ ?_
  split <;> infer_instance

instance (self : Atom) (m : NativeMember) : Overload.Keeps (ofNative self m) := by
  unfold ofNative
  dsimp only
  split
  · infer_instance
  · exact ⟨fun _ ↦ inferInstance⟩

/-! ### Texts and bytes -/

instance (arguments : List Value) : Keeping (splitArguments arguments) := by
  unfold splitArguments
  infer_instance

instance (parts : List (List Char)) : Keeping (newTexts parts) := by
  unfold newTexts
  infer_instance

instance (length : Nat) (arguments : List Value) (position : Nat) :
    Keeping (bounds length arguments position) := by
  unfold bounds
  infer_instance

instance (chars : List Char) (arguments : List Value) : Keeping (occurrences chars arguments) := by
  unfold occurrences
  infer_instance

instance (fits : List Char → List Char → Bool) (chars : List Char) (arguments : List Value) :
    Keeping (affixed fits chars arguments) := by
  unfold affixed
  refine keeping_bind fun bounds ↦ ?_
  dsimp only
  split <;> infer_instance

instance (choose : List Nat → Option Nat) (missing : Task Value) [hmissing : Keeping missing]
    (chars : List Char) : Overload.Keeps (finding choose missing chars) := by
  refine keeps_checked fun arguments ↦ keeping_bind fun found ↦ ?_
  split <;> infer_instance

instance (cut : Option (List Char) → Option Nat → List Char → List (List Char))
    (whole : List (List Char)) (chars : List Char) : Overload.Keeps (parting cut whole chars) := by
  refine keeps_declared fun arguments ↦ keeping_bind fun separator ↦ ?_
  have hparts : Keeping (match cut (some separator) (some 1) chars with
      | [before, behind] => pure (.tuple ([before, separator, behind].map ofText))
      | _ => pure (.tuple (whole.map ofText)) : Task Value) := by
    split <;> infer_instance
  dsimp only
  split <;> infer_instance

instance (fillUp : List Char → Int → Char → List Char) (chars : List Char) :
    Overload.Keeps (filling fillUp chars) := by
  unfold filling
  infer_instance

instance (strip : (Char → Bool) → List Char → List Char) (chars : List Char) :
    Overload.Keeps (stripping strip chars) := by
  refine keeps_declared fun arguments ↦ keeping_bind fun drop ↦ ?_
  split <;> infer_instance

theorem keeps_of_textMethod? {chars : List Char} {name : String} {o : Overload}
    (h : textMethod? chars name = some o) : o.Keeps := by
  unfold textMethod? at h
  split at h <;> cases h
  all_goals infer_instance

theorem keeps_of_textMember? {chars : List Char} {name : String} {o : Overload}
    (h : textMember? chars name = some o) : o.Keeps := by
  unfold textMember? at h
  split at h
  · cases h
    infer_instance
  · cases h
    infer_instance
  · exact keeps_of_textMethod? h

instance (value : Value) : Keeping (hexSeparator value) := by
  unfold hexSeparator
  dsimp only
  split
  · split <;> infer_instance
  all_goals infer_instance

theorem keeps_of_bytesMember? {bytes : List UInt8} {name : String} {o : Overload}
    (h : bytesMember? bytes name = some o) : o.Keeps := by
  unfold bytesMember? at h
  split at h <;> cases h
  · infer_instance
  · refine keeps_checked fun arguments ↦ keeping_bind fun size ↦ ?_
    dsimp only
    split <;> infer_instance

/-! ### Collections -/

theorem keeping_itemsPrecede (before : Value → Value → Task Bool)
    [hbefore : ∀ a b, Keeping (before a b)] (items others : List Value) :
    Keeping (precedes.itemsPrecede before items others) := by
  induction items generalizing others with
  | nil => cases others <;> exact inferInstanceAs (Keeping (pure _))
  | cons item rest ih =>
    cases others with
    | nil => exact inferInstanceAs (Keeping (pure false))
    | cons other others =>
      unfold precedes.itemsPrecede
      infer_instance

instance (depth : Nat) (a b : Value) : Keeping (precedes depth a b) := by
  induction depth generalizing a b with
  | zero => exact inferInstanceAs (Keeping (Script.fail .recursion))
  | succ depth ih =>
    have hitems := keeping_itemsPrecede (precedes depth)
    unfold precedes
    split
    · split <;> infer_instance
    · split
      case h_6 =>
        refine keeping_bind fun first ↦ keeping_bind fun second ↦ ?_
        split <;> infer_instance
      all_goals infer_instance

instance (depth : Nat) (run rest : List Value) : Keeping (fallingRun depth run rest) := by
  induction rest generalizing run with
  | nil => cases run <;> exact inferInstanceAs (Keeping (pure _))
  | cons value rest ih =>
    cases run with
    | nil => exact inferInstanceAs (Keeping (pure _))
    | cons last run =>
      unfold fallingRun
      infer_instance

instance (depth : Nat) (run rest : List Value) : Keeping (risingRun depth run rest) := by
  induction rest generalizing run with
  | nil => cases run <;> exact inferInstanceAs (Keeping (pure _))
  | cons value rest ih =>
    cases run with
    | nil => exact inferInstanceAs (Keeping (pure _))
    | cons last run =>
      unfold risingRun
      infer_instance

instance (depth : Nat) (values : List Value) : Keeping (firstRun depth values) := by
  unfold firstRun
  split <;> infer_instance

instance (depth : Nat) (run : Array Value) (value : Value) (fuel low high : Nat) :
    Keeping (insertPosition depth run value fuel low high) := by
  induction fuel generalizing low high with
  | zero => exact inferInstanceAs (Keeping (pure low))
  | succ fuel ih =>
    unfold insertPosition
    infer_instance

instance (depth : Nat) (run : Array Value) (values : List Value) :
    Keeping (insertAll depth run values) := by
  induction values generalizing run with
  | nil => exact inferInstanceAs (Keeping (pure (run, [])))
  | cons value rest ih =>
    unfold insertAll
    have hposition : Keeping (tryCatch
        (some <$> insertPosition depth run value (run.size + 1) 0 run.size) fun _ ↦ return none) :=
      Script.keeping_tryCatch fun _ ↦ inferInstance
    refine keeping_bind fun position ↦ ?_
    split <;> infer_instance

instance (items arguments : List Value) : Keeping (indexOf items arguments) := by
  unfold indexOf
  refine keeping_bind fun start ↦ keeping_bind fun stop ↦ ?_
  dsimp only
  refine keeping_bind fun s ↦ ?_
  split <;> infer_instance

instance (items arguments : List Value) : Keeping (countOf items arguments) := by
  unfold countOf
  infer_instance

theorem keeps_of_tupleMember? {items : List Value} {name : String} {o : Overload}
    (h : tupleMember? items name = some o) : o.Keeps := by
  unfold tupleMember? at h
  split at h <;> cases h
  all_goals infer_instance

theorem keeping_onList {n : Nat} {run : List Value → List Value → Task Value}
    (hrun : ∀ items arguments, Keeping (run items arguments)) (arguments : List Value) :
    Keeping (onList n run arguments) := by
  unfold onList
  refine keeping_bind fun content ↦ ?_
  split <;> infer_instance

instance (n : Nat) (run : List Value → List Value → Task Value)
    [hrun : ∀ items arguments, Keeping (run items arguments)] (arguments : List Value) :
    Keeping (onList n run arguments) :=
  keeping_onList hrun arguments

instance (n : Nat) (items : List Value) : Keeping (setItems n items) := by
  unfold setItems
  infer_instance

instance (n : Nat) (items arguments : List Value) : Keeping (popItem n items arguments) := by
  unfold popItem
  refine keeping_bind fun position ↦ ?_
  dsimp only
  split <;> infer_instance

instance (n : Nat) (items : List Value) : Keeping (sortItems n items) := by
  unfold sortItems
  infer_instance

theorem keeps_of_listMember? {n : Nat} {name : String} {o : Overload}
    (h : listMember? n name = some o) : o.Keeps := by
  unfold listMember? at h
  split at h <;> cases h
  case h_5 =>
    refine keeps_declared (keeping_onList fun items arguments ↦ keeping_bind fun s ↦ ?_)
    split <;> infer_instance
  all_goals infer_instance

/-! ### Maps and sets -/

instance (entries : List (Value × Value)) (key : Value) : Keeping (entryOf entries key) := by
  unfold entryOf
  infer_instance

instance (value : Value) : Keeping (pairOf value) := by
  unfold pairOf
  refine keeping_bind fun items ↦ ?_
  split <;> infer_instance

/-- What is done with the entries of a map may use the task that puts entries back. -/
theorem keeping_onMap (n : Nat)
    {run : (List (Value × Value) → Task Unit) → List (Value × Value) → List Value → Task Value}
    (hrun : ∀ restore entries arguments, (∀ entries, Keeping (restore entries)) →
      Keeping (run restore entries arguments)) (arguments : List Value) :
    Keeping (onMap n run arguments) := by
  unfold onMap
  refine keeping_bind fun content ↦ ?_
  split
  · exact hrun _ _ _ fun _ ↦ inferInstance
  · exact hrun _ _ _ fun _ ↦ inferInstance
  · infer_instance

instance (entries : List (Value × Value)) (source : Value) :
    Keeping (addEntries entries source) := by
  unfold addEntries
  refine keeping_bind fun s ↦ ?_
  dsimp only
  split <;> infer_instance

theorem keeps_of_mapMember? {n : Nat} {name : String} {o : Overload}
    (h : mapMember? n name = some o) : o.Keeps := by
  unfold mapMember? at h
  split at h <;> cases h
  · exact keeps_declared (keeping_onMap n fun _ _ _ _ ↦ inferInstance)
  · refine keeps_declared (keeping_onMap n fun restore entries arguments _ ↦
      keeping_bind fun found ↦ ?_)
    split <;> infer_instance
  · refine keeps_checked (keeping_onMap n fun restore entries arguments _ ↦
      keeping_bind fun found ↦ ?_)
    split <;> infer_instance
  · refine keeps_declared (keeping_onMap n fun restore entries arguments _ ↦ ?_)
    split <;> infer_instance
  · refine keeps_declared fun arguments ↦ keeping_bind fun keys ↦ keeping_bind fun _ ↦
      keeping_bind fun s ↦ ?_
    dsimp only
    refine keeping_bind fun content ↦ ?_
    split <;> infer_instance
  · exact keeps_checked (keeping_onMap n fun _ _ _ _ ↦ inferInstance)
  · exact keeps_checked (keeping_onMap n fun _ _ _ _ ↦ inferInstance)
  iterate 3
    · infer_instance
  · refine keeps_checked (keeping_onMap n fun restore entries arguments _ ↦ ?_)
    split <;> infer_instance

instance (value : Value) : Keeping (setArgument value) := by
  unfold setArgument
  infer_instance

instance (operation : Store → List Value → List Value → List Value) (make : List Value → Task Value)
    [hmake : ∀ items, Keeping (make items)] (items arguments : List Value) :
    Keeping (combining operation make items arguments) := by
  unfold combining
  infer_instance

instance (items others : List Value) : Keeping (isApart items others) := by
  induction others with
  | nil => exact inferInstanceAs (Keeping (pure true))
  | cons other rest ih =>
    unfold isApart
    infer_instance

theorem keeps_of_anySetMember?
    {onItems : (List Value → List Value → Task Value) → List Value → Task Value}
    {make : List Value → Task Value}
    (hitems : ∀ run, (∀ items arguments, Keeping (run items arguments)) →
      ∀ arguments, Keeping (onItems run arguments))
    [hmake : ∀ items, Keeping (make items)] {name : String} {o : Overload}
    (h : anySetMember? onItems make name = some o) : o.Keeps := by
  unfold anySetMember? at h
  split at h
  · cases h
    exact ⟨hitems _ fun _ _ ↦ inferInstance⟩
  · cases h
    exact keeps_declared (hitems _ fun _ _ ↦ inferInstance)
  · split at h <;> cases h
    all_goals exact keeps_checked (hitems _ fun _ _ ↦ inferInstance)

theorem keeps_of_frozenMember? {items : List Value} {name : String} {o : Overload}
    (h : frozenMember? items name = some o) : o.Keeps :=
  keeps_of_anySetMember? (fun _ hrun ↦ hrun items) h

theorem keeping_onSet {n : Nat} {run : List Value → List Value → Task Value}
    (hrun : ∀ items arguments, Keeping (run items arguments)) (arguments : List Value) :
    Keeping (onSet n run arguments) := by
  unfold onSet
  refine keeping_bind fun content ↦ ?_
  split <;> infer_instance

instance (n : Nat) (items : List Value) : Keeping (setMembers n items) := by
  unfold setMembers
  infer_instance

instance (value : Value) : Keeping (requireItem value) := by
  unfold requireItem
  infer_instance

instance (n : Nat) (missing : Value → Task Value) [hmissing : ∀ value, Keeping (missing value)]
    (items arguments : List Value) : Keeping (takeItem n missing items arguments) := by
  unfold takeItem
  infer_instance

theorem keeps_of_setChange? {n : Nat} {name : String} {o : Overload}
    (h : setChange? n name = some o) : o.Keeps := by
  unfold setChange? at h
  split at h
  · cases h
    exact ⟨keeping_onSet fun _ _ ↦ inferInstance⟩
  · split at h <;> cases h
    case h_6 =>
      refine keeps_checked (keeping_onSet fun items _ ↦ ?_)
      split <;> infer_instance
    all_goals exact keeps_checked (keeping_onSet fun _ _ ↦ inferInstance)

theorem keeps_of_setMember? {n : Nat} {name : String} {o : Overload}
    (h : setMember? n name = some o) : o.Keeps := by
  unfold setMember? at h
  split at h
  · rename_i hchange
    cases h
    exact keeps_of_setChange? hchange
  · exact keeps_of_anySetMember? (fun _ ↦ keeping_onSet) h

/-! ### All members -/

theorem keeps_of_integerMember? {m : Int} {name : String} {o : Overload}
    (h : integerMember? m name = some o) : o.Keeps := by
  unfold integerMember? at h
  split at h <;> cases h
  all_goals infer_instance

theorem keeps_of_realMember? {x : Double} {name : String} {o : Overload}
    (h : realMember? x name = some o) : o.Keeps := by
  unfold realMember? at h
  split at h <;> cases h
  all_goals infer_instance

instance (name : List Char) : Keeping (precision name) := by
  unfold precision
  dsimp only
  split <;> infer_instance

theorem keeps_of_momentMember? {m : Moment} {name : String} {o : Overload}
    (h : momentMember? m name = some o) : o.Keeps := by
  unfold momentMember? at h
  split at h <;> cases h
  all_goals infer_instance

theorem keeps_of_dayMember? {d : Day} {name : String} {o : Overload}
    (h : dayMember? d name = some o) : o.Keeps := by
  unfold dayMember? at h
  split at h <;> cases h
  all_goals infer_instance

theorem keeps_of_atomMember? {a : Atom} {name : String} {o : Overload}
    (h : atomMember? a name = some o) : o.Keeps := by
  unfold atomMember? at h
  split at h
  · exact keeps_of_integerMember? h
  · exact keeps_of_integerMember? h
  · exact keeps_of_realMember? h
  · exact keeps_of_textMember? h
  · exact keeps_of_bytesMember? h
  · exact keeps_of_momentMember? h
  · exact keeps_of_dayMember? h
  · exact keeps_of_tupleMember? h
  · cases h

theorem keeps_of_cellMember? {n : Nat} {content : Cell} {name : String} {o : Overload}
    (h : cellMember? n content name = some o) : o.Keeps := by
  unfold cellMember? at h
  split at h
  · exact keeps_of_listMember? h
  · exact keeps_of_mapMember? h
  · exact keeps_of_mapMember? h
  · exact keeps_of_setMember? h
  · cases h

end Member

namespace Script

/-- The overloads of an object or class of the host are terms over the object and the arguments. -/
theorem keepsFrom_hostMembers (s : Store) (self : Value) (info : ClassInfo) (name : String) :
    KeepsFrom s (hostMembers self info name) fun overloads ↦ ∀ o ∈ overloads, o.Keeps := by
  unfold hostMembers
  split
  · exact keepsFrom_pure fun o ho ↦ absurd ho List.not_mem_nil
  · refine KeepsFrom.of_keeping.bind fun t c _ _ ↦ ?_
    split
    · refine keepsFrom_pure fun o ho ↦ ?_
      obtain ⟨m, -, rfl⟩ := List.mem_map.mp ho
      infer_instance
    · exact keepsFrom_pure fun o ho ↦ absurd ho List.not_mem_nil

theorem keepsFrom_staticMembers (s : Store) (info : ClassInfo) (name : String) :
    KeepsFrom s (staticMembers info name) fun overloads ↦ ∀ o ∈ overloads, o.Keeps := by
  refine KeepsFrom.of_keeping.bind fun t c _ _ ↦ ?_
  split
  · refine keepsFrom_pure fun o ho ↦ ?_
    obtain ⟨m, -, rfl⟩ := Option.map_eq_some_iff.mp (Option.mem_toList.mp ho)
    infer_instance
  · exact keepsFrom_pure fun o ho ↦ absurd ho List.not_mem_nil

theorem keepsFrom_nativeMembers (s : Store) (a : Atom) (name : String) :
    KeepsFrom s (nativeMembers a name) fun overloads ↦ ∀ o ∈ overloads, o.Keeps := by
  unfold nativeMembers
  split
  · refine KeepsFrom.of_keeping.bind fun t surroundings _ _ ↦ keepsFrom_pure fun o ho ↦ ?_
    obtain ⟨m, -, rfl⟩ := Option.map_eq_some_iff.mp (Option.mem_toList.mp ho)
    infer_instance
  · exact keepsFrom_pure fun o ho ↦ absurd ho List.not_mem_nil

theorem keepsFrom_members (s : Store) (target : Value) (name : String) :
    KeepsFrom s (members target name) fun overloads ↦ ∀ o ∈ overloads, o.Keeps := by
  unfold members
  split
  · exact keepsFrom_pure fun o ho ↦ absurd ho List.not_mem_nil
  · split
    · exact keepsFrom_staticMembers s _ name
    · split
      · rename_i hmember
        refine keepsFrom_pure fun o ho ↦ ?_
        rw [List.mem_singleton.mp ho]
        exact Member.keeps_of_atomMember? hmember
      · exact keepsFrom_nativeMembers s _ name
    · exact keepsFrom_pure fun o ho ↦ Member.keeps_of_tupleMember? (Option.mem_toList.mp ho)
    · exact keepsFrom_pure fun o ho ↦ Member.keeps_of_frozenMember? (Option.mem_toList.mp ho)
    · refine KeepsFrom.of_keeping.bind fun t content _ _ ↦ ?_
      split
      · exact keepsFrom_hostMembers t _ _ name
      · exact keepsFrom_pure fun o ho ↦ Member.keeps_of_cellMember? (Option.mem_toList.mp ho)
    · exact keepsFrom_pure fun o ho ↦ absurd ho List.not_mem_nil

/-- Calling a member keeps resources, since all members do. -/
instance (execute : Value → Task Value) [hexecute : ∀ value, Keeping (execute value)]
    (target : Value) (name : String) (arguments : List Value) :
    Keeping (callMember execute target name arguments) := by
  refine KeepsFrom.keeping (P := fun _ ↦ True) fun s ↦ ?_
  refine (keepsFrom_members s target name).bind fun t overloads _ hoverloads ↦ ?_
  have hcall (u : Store) : KeepsFrom u (do
      let chosen ← Overload.select name overloads (← arguments.mapM execute)
      chosen.call execute (← arguments.mapM execute)) fun _ ↦ True := by
    refine KeepsFrom.of_keeping.bind fun u executed _ _ ↦ ?_
    refine (Overload.keepsFrom_select name hoverloads executed).bind fun u chosen _ hchosen ↦ ?_
    exact .of_keeping
  dsimp only
  split
  · exact KeepsFrom.of_keeping.bind fun u s' _ _ ↦
      KeepsFrom.of_keeping.bind fun u' _ _ _ ↦ hcall u'
  · exact hcall t

end Script

end ResourceScript

import ResourceScript.Format.Xml.Tree
import ResourceScript.Proofs.Format.Json
import ResourceScript.Proofs.Scope.Grouped
/-!
# Elements as fields

The fields of an element are its attributes, then its children under their names, then its text
(`elementValue`). A name stands where it occurs first: with the value of its only child, or with the
list of the values of its children in order (`gathered`). Pushing the children one by one makes the
same fields (`pushAll_eq`), since the value of an element is never a list.

Every element counts once among the fields (`elementCount`): pushing one more raises the count by
the elements of its value (`elementCount_pushField`).
-/

set_option autoImplicit false

namespace ResourceScript.Xml

open Text

/-! ### Values under names -/

/-- Whether a value is no list. -/
def IsSingle (value : Plain) : Prop :=
  ∀ items, value ≠ .list items

/-- Values under their names, in order of the first occurrence of the names. -/
def gathered (values : List (String × Plain)) : Fields :=
  (values.map Prod.fst).eraseDups.map fun name ↦ (.text name, joined (valuesOf name values))

/-- Pushes values under their names one by one. -/
def pushAll (fields : Fields) (values : List (String × Plain)) : Fields :=
  values.foldl (fun fields entry ↦ pushField fields entry.1 entry.2) fields

section Gathering

variable {name : String} {value : Plain} {fields : Fields} {values : List (String × Plain)}

/-- A key that is no other than a text is that text. -/
theorem sameKey_text_eq_false {key : Scalar} (hkey : key ≠ .text name) :
    Scalar.sameKey key (.text name) = false := by
  cases key with
  | text s =>
    rw [Json.sameKey_text]
    exact decide_eq_false fun h ↦ hkey (h ▸ rfl)
  | null | bool | int | real => simp [Scalar.sameKey, Scalar.number?]

theorem sameKey_of_fresh (hfresh : ∀ entry ∈ fields, entry.1 ≠ .text name) :
    ∀ entry ∈ fields, Scalar.sameKey entry.1 (.text name) = false :=
  fun entry hentry ↦ sameKey_text_eq_false (hfresh entry hentry)

theorem putEntry_append (hfresh : ∀ entry ∈ fields, entry.1 ≠ .text name) (more : Fields) :
    putEntry Scalar.sameKey (.text name) value (fields ++ more) =
      fields ++ putEntry Scalar.sameKey (.text name) value more := by
  induction fields with
  | nil => rfl
  | cons entry rest ih =>
    obtain ⟨hentry, hrest⟩ := List.forall_mem_cons.1 (sameKey_of_fresh hfresh)
    rw [List.cons_append, putEntry, hentry, ih fun e he ↦ hfresh e (List.mem_cons_of_mem _ he)]
    rfl

/-- One more value joins those that there are. -/
theorem joined_concat {old : List Plain} (hold : old ≠ []) (hsingle : ∀ v ∈ old, IsSingle v)
    (value : Plain) :
    joined (old ++ [value]) = match joined old with
      | .list items => .list (items ++ [value])
      | first => .list [first, value] := by
  match old, hold with
  | [first], _ =>
    have hfirst := hsingle first List.mem_cons_self
    cases first with
    | list items => exact absurd rfl (hfirst items)
    | scalar | map => rfl
  | first :: second :: rest, _ => rfl

/-- A value is pushed among the fields that may have its name. -/
theorem pushField_append (hfresh : ∀ entry ∈ fields, entry.1 ≠ .text name) (more : Fields) :
    pushField (fields ++ more) name value = fields ++ pushField more name value := by
  have hfind : findEntry Scalar.sameKey (.text name) (fields ++ more) =
      findEntry Scalar.sameKey (.text name) more := by
    rw [findEntry_append, findEntry_eq_none_iff.2 (sameKey_of_fresh hfresh)]
    rfl
  rw [pushField, hfind, putEntry_append hfresh]
  rfl

theorem gathered_eq (values : List (String × Plain)) : gathered values = grouped .text values :=
  rfl

/-- Pushing a value under a name that occurs gathers it with the values of that name. -/
theorem pushField_gathered_of_mem (hname : name ∈ values.map Prod.fst)
    (hsingle : ∀ entry ∈ values, IsSingle entry.2) :
    pushField (gathered values) name value = gathered (values ++ [(name, value)]) := by
  have hvalues : ∀ v ∈ valuesOf name values, IsSingle v := fun v hv ↦
    hsingle (name, v) (mem_valuesOf_iff.1 hv)
  have hjoined := joined_concat (mt valuesOf_eq_nil_iff.1 (not_not.2 hname)) hvalues value
  rw [pushField, gathered_eq, gathered_eq, findEntry_grouped Scalar.text Json.sameKey_text hname,
    ← putEntry_grouped Scalar.text Json.sameKey_text hname, hjoined]
  cases joined (valuesOf name values) <;> rfl

/-- Pushing a value under a new name puts it behind the values that there are. -/
theorem pushField_gathered_of_not_mem (hname : name ∉ values.map Prod.fst) :
    pushField (gathered values) name value = gathered (values ++ [(name, value)]) := by
  rw [pushField, gathered_eq, gathered_eq,
    findEntry_grouped_of_new Scalar.text Json.sameKey_text hname]
  exact putEntry_grouped_of_new Scalar.text Json.sameKey_text hname value

/-- Pushing a value gathers it with those that are gathered already. -/
theorem pushField_gathered (hsingle : ∀ entry ∈ values, IsSingle entry.2) :
    pushField (gathered values) name value = gathered (values ++ [(name, value)]) := by
  by_cases hname : name ∈ values.map Prod.fst
  · exact pushField_gathered_of_mem hname hsingle
  · exact pushField_gathered_of_not_mem hname

theorem pushAll_concat (fields : Fields) (values : List (String × Plain)) (name : String)
    (value : Plain) :
    pushAll fields (values ++ [(name, value)]) = pushField (pushAll fields values) name value := by
  rw [pushAll, List.foldl_concat, ← pushAll]

/-- Pushing values one by one gathers them behind the fields that there are. -/
theorem pushAll_eq (hfresh : ∀ entry ∈ fields, ∀ other ∈ values, entry.1 ≠ .text other.1)
    (hsingle : ∀ entry ∈ values, IsSingle entry.2) :
    pushAll fields values = fields ++ gathered values := by
  induction values using List.reverseRecOn with
  | nil => exact (List.append_nil fields).symm
  | append_singleton values last ih =>
    have hlast : last ∈ values ++ [last] := List.mem_append_right _ (List.mem_singleton_self last)
    have hbefore := ih (fun entry hentry other hother ↦
        hfresh entry hentry other (List.mem_append_left _ hother))
      fun entry hentry ↦ hsingle entry (List.mem_append_left _ hentry)
    rw [pushAll_concat, hbefore, pushField_append fun entry hentry ↦ hfresh entry hentry last hlast,
      pushField_gathered fun entry hentry ↦ hsingle entry (List.mem_append_left _ hentry)]

end Gathering

/-! ### The value of an element -/

/-- The name of an element. -/
def Node.name? : Node → Option String
  | .element name _ _ => some name
  | _ => none

/-- Whether a name is one of an element: it is no key of an attribute or of the text. -/
def isElementName (name : String) : Bool :=
  name.toList.head? != some '@' && name != textKey

theorem isElementName_iff {name : String} :
    isElementName name = true ↔ name.toList.head? ≠ some '@' ∧ name ≠ textKey := by
  simp [isElementName]

/-- The value of an element: the fields of its attributes, then its children gathered under their
names, then its trimmed text if there is any. An element without fields is its text, or null. -/
def elementValue (attributes : Fields) (children : List (String × Plain)) (text : List Char) :
    Plain :=
  let fields := attributes ++ gathered children
  let text := trim text
  if fields.isEmpty then (if text.isEmpty then .null else .text (String.ofList text))
  else .map (fields ++ if text.isEmpty then [] else [(.text textKey, .text (String.ofList text))])

theorem isSingle_elementValue (attributes : Fields) (children : List (String × Plain))
    (text : List Char) : IsSingle (elementValue attributes children text) := by
  intro items
  unfold elementValue
  dsimp only
  split
  · split <;> exact Plain.noConfusion
  · exact Plain.noConfusion

/-- The fields of an element have no entry for its text yet. -/
theorem forall_mem_fields_ne_textKey {attributes : Fields} {children : List (String × Plain)}
    (hattributes : ∀ entry ∈ attributes, ∃ name, entry.1 = .text ("@" ++ name))
    (hchildren : ∀ child ∈ children, isElementName child.1 = true) :
    ∀ entry ∈ attributes ++ gathered children, entry.1 ≠ .text textKey := by
  intro entry hentry
  rcases List.mem_append.1 hentry with hentry | hentry
  · obtain ⟨name, hname⟩ := hattributes entry hentry
    rw [hname]
    intro h
    have hhead := congrArg (fun s : String ↦ s.toList.head?) (Scalar.text.inj h)
    simp [textKey] at hhead
  · obtain ⟨name, hname, rfl⟩ := List.mem_map.1 hentry
    obtain ⟨child, hchild, rfl⟩ := List.mem_map.1 (List.mem_eraseDups.1 hname)
    exact fun h ↦ (isElementName_iff.1 (hchildren child hchild)).2 (Scalar.text.inj h)

/-- The children of an element are gathered behind its attributes. -/
theorem pushAll_attributes {attributes : Fields} {children : List (String × Plain)}
    (hattributes : ∀ entry ∈ attributes, ∃ name, entry.1 = .text ("@" ++ name))
    (hchildren : ∀ child ∈ children, isElementName child.1 = true ∧ IsSingle child.2) :
    pushAll attributes children = attributes ++ gathered children := by
  refine pushAll_eq (fun entry hentry child hchild ↦ ?_) fun child hchild ↦
    (hchildren child hchild).2
  obtain ⟨name, hname⟩ := hattributes entry hentry
  rw [hname]
  intro h
  refine (isElementName_iff.1 (hchildren child hchild).1).1 ?_
  rw [← Scalar.text.inj h]
  simp

theorem pushField_of_new {fields : Fields} {key : String} {value : Plain}
    (hfresh : ∀ entry ∈ fields, entry.1 ≠ .text key) :
    pushField fields key value = fields ++ [(.text key, value)] := by
  have hnew := sameKey_of_fresh hfresh
  rw [pushField, findEntry_eq_none_iff.2 hnew]
  exact putEntry_of_new hnew value

/-- The value that is read from an element of a document. -/
theorem fieldsValue_eq {attributes : Fields} {children : List (String × Plain)}
    (hattributes : ∀ entry ∈ attributes, ∃ name, entry.1 = .text ("@" ++ name))
    (hchildren : ∀ child ∈ children, isElementName child.1 = true) (text : List Char) :
    fieldsValue (attributes ++ gathered children) text =
      elementValue attributes children text := by
  rw [fieldsValue, elementValue, pushField_of_new (forall_mem_fields_ne_textKey hattributes hchildren)]
  by_cases htext : (trim text).isEmpty = true
  · simp [htext]
  · simp [htext]

/-! ### Counting elements -/

/-- Whether a key is that of an element. -/
def isElementKey : Scalar → Bool
  | .text name => isElementName name
  | _ => true

mutual

/-- The number of elements that a value under a name stands for, with all that is inside them: a list
counts one for each of its items. -/
def valueCount : Plain → Nat
  | .scalar _ => 1
  | .list items => itemCount items
  | .map entries => 1 + elementCount entries

/-- The number of elements that values stand for. -/
def itemCount : List Plain → Nat
  | [] => 0
  | item :: rest => valueCount item + itemCount rest

/-- The number of elements among fields. -/
def elementCount : List (Scalar × Plain) → Nat
  | [] => 0
  | (key, value) :: rest => (if isElementKey key then valueCount value else 0) + elementCount rest

end

section Counting

variable {name : String} {value : Plain} {fields : Fields}

theorem itemCount_append (first second : List Plain) :
    itemCount (first ++ second) = itemCount first + itemCount second := by
  induction first with
  | nil => simp [itemCount]
  | cons item rest ih => rw [List.cons_append, itemCount, itemCount, ih, Nat.add_assoc]

theorem elementCount_append (first second : Fields) :
    elementCount (first ++ second) = elementCount first + elementCount second := by
  induction first with
  | nil => simp [elementCount]
  | cons entry rest ih =>
    obtain ⟨key, value⟩ := entry
    rw [List.cons_append, elementCount, elementCount, ih, Nat.add_assoc]

theorem elementCount_eq_zero (hfields : ∀ entry ∈ fields, isElementKey entry.1 = false) :
    elementCount fields = 0 := by
  induction fields with
  | nil => rw [elementCount]
  | cons entry rest ih =>
    obtain ⟨key, value⟩ := entry
    obtain ⟨hkey, hrest⟩ := List.forall_mem_cons.1 hfields
    rw [elementCount, hkey, ih hrest]
    rfl

/-- Putting another value under the name of an element counts it in the place of the old one. -/
theorem elementCount_putEntry (hname : isElementName name = true) {old : Plain}
    (hold : findEntry Scalar.sameKey (.text name) fields = some old) (value : Plain) :
    elementCount (putEntry Scalar.sameKey (.text name) value fields) + valueCount old =
      elementCount fields + valueCount value := by
  induction fields with
  | nil => cases hold
  | cons entry rest ih =>
    obtain ⟨key, first⟩ := entry
    rw [findEntry_cons] at hold
    rw [putEntry]
    by_cases hkey : key = .text name
    · subst hkey
      have hsame : Scalar.sameKey (.text name) (.text name) = true := by
        rw [Json.sameKey_text]
        exact decide_eq_true rfl
      rw [if_pos hsame, Option.some.injEq] at hold
      rw [if_pos hsame, elementCount, elementCount, isElementKey, hname, hold]
      simp only [if_true]
      omega
    · have hother := sameKey_text_eq_false hkey
      rw [hother] at hold ⊢
      have hrest := ih hold
      rw [if_neg Bool.false_ne_true, elementCount, elementCount]
      omega

/-- A pushed value adds its elements. -/
theorem elementCount_pushField (hname : isElementName name = true) :
    elementCount (pushField fields name value) = elementCount fields + valueCount value := by
  unfold pushField
  dsimp only
  split
  · rename_i items hfound
    have hput := elementCount_putEntry hname hfound (.list (items ++ [value]))
    rw [valueCount, valueCount, itemCount_append, itemCount, itemCount] at hput
    omega
  · rename_i first hsingle hfound
    have hput := elementCount_putEntry hname hfound (.list [first, value])
    rw [valueCount.eq_2, itemCount, itemCount, itemCount] at hput
    omega
  · rename_i hnone
    rw [putEntry_of_new (findEntry_eq_none_iff.1 hnone), elementCount_append, elementCount,
      elementCount, isElementKey, hname]
    simp

theorem elementCount_pushAll {values : List (String × Plain)}
    (hvalues : ∀ entry ∈ values, isElementName entry.1 = true) (fields : Fields) :
    elementCount (pushAll fields values) =
      elementCount fields + (values.map fun entry ↦ valueCount entry.2).sum := by
  induction values generalizing fields with
  | nil => rfl
  | cons entry rest ih =>
    obtain ⟨hentry, hrest⟩ := List.forall_mem_cons.1 hvalues
    rw [pushAll, List.foldl_cons, ← pushAll, ih hrest, elementCount_pushField hentry, List.map_cons,
      List.sum_cons, Nat.add_assoc]

/-- The value of an element counts the element and the elements of its children. -/
theorem valueCount_elementValue {attributes : Fields} {children : List (String × Plain)}
    (hattributes : ∀ entry ∈ attributes, ∃ name, entry.1 = .text ("@" ++ name))
    (hchildren : ∀ child ∈ children, isElementName child.1 = true ∧ IsSingle child.2)
    (text : List Char) : valueCount (elementValue attributes children text) =
      1 + (children.map fun child ↦ valueCount child.2).sum := by
  have hkeys : ∀ entry ∈ attributes, isElementKey entry.1 = false := by
    intro entry hentry
    obtain ⟨name, hname⟩ := hattributes entry hentry
    rw [hname]
    simp [isElementKey, isElementName]
  have htextKey : isElementKey (.text textKey) = false := by simp [isElementKey, isElementName]
  have hcount := elementCount_pushAll (fun child hchild ↦ (hchildren child hchild).1) attributes
  rw [pushAll_attributes hattributes hchildren, elementCount_append,
    elementCount_eq_zero hkeys, Nat.zero_add, Nat.zero_add] at hcount
  rw [← hcount, elementValue]
  by_cases hempty : (attributes ++ gathered children).isEmpty = true
  · have hnone : gathered children = [] :=
      (List.append_eq_nil_iff.1 (List.isEmpty_iff.1 hempty)).2
    rw [if_pos hempty, hnone, elementCount]
    split <;> rw [valueCount]
  · rw [if_neg hempty, valueCount, elementCount_append, elementCount_append,
      elementCount_eq_zero hkeys, Nat.zero_add]
    split
    · rw [elementCount, Nat.add_zero]
    · rw [elementCount, elementCount, htextKey]
      rfl

end Counting

end ResourceScript.Xml

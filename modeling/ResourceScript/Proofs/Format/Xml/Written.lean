import ResourceScript.Media.Written
import ResourceScript.Proofs.Format.Xml.Fields
import ResourceScript.Proofs.Media.Json
/-!
# Maps as elements

A map whose keys are names is written as elements: one for each value, and one for each item of a list
(`Data.elementsOf`). Writing the plain form of the map comes to the text of these elements
(`Data.IsTree.exists_writes`).

A document has one element. A map of several entries stands inside an element `root`; a single entry
makes the document by itself. It is its one element unless the value is a list that has not one item
(`Data.toXml_eq`).
-/

set_option autoImplicit false

namespace ResourceScript

open Text

/-! ### Written elements -/

namespace Xml

mutual

/-- A node as it is written. -/
def Node.printed : Node → List Char
  | .element name attributes children =>
    wrap name.toList
      (attributes.flatMap fun entry ↦ ' ' :: entry.1.toList ++ '=' :: quoteValue entry.2.toList)
      (printedAll children)
  | .text content => escapeText content.toList
  | _ => []

/-- Nodes as they are written. -/
def printedAll : List Node → List Char
  | [] => []
  | node :: rest => node.printed ++ printedAll rest

end

theorem printedAll_append (first second : List Node) :
    printedAll (first ++ second) = printedAll first ++ printedAll second := by
  induction first with
  | nil => rw [printedAll]; rfl
  | cons node rest ih => rw [List.cons_append, printedAll, printedAll, ih, List.append_assoc]

theorem printedAll_singleton (node : Node) : printedAll [node] = node.printed := by
  rw [printedAll, printedAll, List.append_nil]

/-- What a document begins with. -/
def declaration : List Char :=
  "<?xml version=\"1.0\" encoding=\"utf-8\"?>\n".toList

/-- The nodes of a text. -/
def textNodes (content : String) : List Node :=
  if content = "" then [] else [.text content]

theorem printedAll_textNodes (content : String) :
    printedAll (textNodes content) = escapeText content.toList := by
  unfold textNodes
  split
  · rename_i hempty
    rw [hempty, printedAll]
    rfl
  · rw [printedAll_singleton, Node.printed]

/-- Whether a key is written as the name of an element: it is no key of an attribute, of the text or
of a comment, and has no character of tags in it. -/
def isTagName (name : String) : Bool :=
  isElementName name && name != commentKey && isWritableName name.toList

section Fields

variable {name : String} {value : Plain}

theorem isTagName_iff : isTagName name = true ↔
    isElementName name = true ∧ name ≠ commentKey ∧ isWritableName name.toList = true := by
  simp [isTagName, and_assoc]

theorem writeName_text (hname : isTagName name = true) :
    writeName (.text name) = .ok name.toList := by
  rw [writeName, if_pos (isTagName_iff.1 hname).2.2]

theorem ne_commentKey (hname : isTagName name = true) : Scalar.text name ≠ .text commentKey :=
  fun h ↦ (isTagName_iff.1 hname).2.1 (Scalar.text.inj h)

theorem contentText_text (content : String) : contentText (.text content) = .ok content.toList := by
  show (shown (.text content)).written true = .ok content.toList
  rw [shown, Data.written]
  rfl

/-- A text is written as the text of its element. -/
theorem writeField_text (hname : isTagName name = true) (content : String) :
    writeField (.text name) (.text content) =
      .ok (Node.printed (.element name [] (textNodes content))) := by
  rw [writeField, if_neg (ne_commentKey hname), writeName_text hname, contentText_text, Node.printed,
    printedAll_textNodes]
  rfl

variable {entries : List (String × Plain)}

theorem attributesOf_eq_none (hname : isElementName name = true) (value : Plain) :
    attributesOf (.text name) value = .ok none := by
  have hhead := (isElementName_iff.1 hname).1
  rw [attributesOf]
  split
  · rename_i heq
    rw [heq] at hhead
    exact absurd rfl hhead
  · rfl

/-- Fields under the names of elements make no attributes. -/
theorem writeAttributes_textKeyed (hnames : ∀ entry ∈ entries, isTagName entry.1 = true) :
    writeAttributes (Json.textKeyed entries) = .ok [] := by
  have hnone : ∀ entry ∈ Json.textKeyed entries, attributesOf entry.1 entry.2 = .ok none := by
    intro entry hentry
    obtain ⟨⟨name, value⟩, hmem, rfl⟩ := List.mem_map.1 hentry
    exact attributesOf_eq_none (isTagName_iff.1 (hnames _ hmem)).1 value
  have hempty : ((Json.textKeyed entries).map fun _ ↦ none).flatMap
      (fun more : Option (List (List Char × List Char)) ↦ more.getD []) = [] := by
    simp
  rw [writeAttributes, mapM_eq_ok hnone]
  simp only [bind, Except.bind, pure, Except.pure, hempty]
  rfl

/-- Fields under the names of elements make no text. -/
theorem writeContent_textKeyed (hnames : ∀ entry ∈ entries, isTagName entry.1 = true) :
    writeContent (Json.textKeyed entries) = .ok [] := by
  have hnone : findEntry Scalar.sameKey (.text textKey) (Json.textKeyed entries) = none := by
    refine findEntry_eq_none_iff.2 fun entry hentry ↦ ?_
    obtain ⟨⟨name, value⟩, hmem, rfl⟩ := List.mem_map.1 hentry
    rw [Json.sameKey_text]
    exact decide_eq_false (isElementName_iff.1 (isTagName_iff.1 (hnames _ hmem)).1).2
  rw [writeContent, hnone]

/-- A map is written as the elements of its fields between its tags. -/
theorem writeField_map (hname : isTagName name = true)
    (hnames : ∀ entry ∈ entries, isTagName entry.1 = true) {children : List Node}
    (hchildren : writeChildren (Json.textKeyed entries) = .ok (printedAll children)) :
    writeField (.text name) (.map (Json.textKeyed entries)) =
      .ok (Node.printed (.element name [] children)) := by
  rw [writeField, if_neg (ne_commentKey hname), writeName_text hname,
    writeAttributes_textKeyed hnames, writeContent_textKeyed hnames, hchildren, Node.printed]
  simp only [bind, Except.bind, pure, Except.pure, List.append_nil, List.flatMap_nil]

/-- A field under the name of an element is a child. An empty list is no child, and is written as
nothing. -/
theorem writeChildren_cons (hname : isTagName name = true) (rest : Fields) :
    writeChildren ((.text name, value) :: rest) =
      (do return (← writeField (.text name) value) ++ (← writeChildren rest)) := by
  rw [writeChildren]
  by_cases hempty : value = .list []
  · have hchild : isChild (.text name) (.list []) = false := Bool.and_false _
    rw [hempty, hchild, writeField, if_neg (ne_commentKey hname), writeElements, writeName_text hname]
    rfl
  · have hchild : isChild (.text name) value = true := by
      obtain ⟨hhead, htext⟩ := isElementName_iff.1 (isTagName_iff.1 hname).1
      simp [isChild, hhead, htext]
    rw [if_pos hchild]

/-- An item that is no list is written as the field that it is by itself. -/
theorem writeElements_cons (hname : isTagName name = true) (hvalue : IsSingle value)
    (rest : List Plain) : writeElements (.text name) (value :: rest) =
      (do return (← writeField (.text name) value) ++ (← writeElements (.text name) rest)) := by
  cases value with
  | list items => exact absurd rfl (hvalue items)
  | map entries =>
    rw [writeElements, writeField, if_neg (ne_commentKey hname)]
    simp only [bind_assoc, pure_bind]
  | scalar s =>
    rw [writeElements, writeField, if_neg (ne_commentKey hname)]
    · simp only [bind_assoc, pure_bind]
    · nofun

end Fields

end Xml

/-! ### Data as elements -/

namespace Data

/-- Data built from texts and maps, and from lists of these, where the keys of maps are distinct names
of a sort and the texts are of a sort. -/
inductive IsTree (isName isText : String → Bool) : Data → Prop
  /-- A text. -/
  | text {s : String} (hs : isText s = true) : IsTree isName isText (.text s)
  /-- A list of texts and maps. -/
  | list {items : List Data} (hitems : ∀ item ∈ items, IsTree isName isText item)
    (hsingle : ∀ item ∈ items, ∀ inner, item ≠ .list inner) : IsTree isName isText (.list items)
  /-- A map. -/
  | map {entries : List (String × Data)} (hkeys : (entries.map Prod.fst).Nodup)
    (hnames : ∀ entry ∈ entries, isName entry.1 = true)
    (hvalues : ∀ entry ∈ entries, IsTree isName isText entry.2) :
    IsTree isName isText (.map (textKeyed entries))

theorem IsTree.mono {isName isText isName' isText' : String → Bool} {data : Data}
    (h : data.IsTree isName isText) (hname : ∀ s, isName s = true → isName' s = true)
    (htext : ∀ s, isText s = true → isText' s = true) : data.IsTree isName' isText' := by
  induction h with
  | text hs => exact .text (htext _ hs)
  | list _ hsingle ih => exact .list ih hsingle
  | map hkeys hnames _ ih => exact .map hkeys (fun entry hentry ↦ hname _ (hnames entry hentry)) ih

mutual

/-- The elements of data under a name: one for a text or a map, and one for each item of a list. -/
def elementsOf (name : String) : Data → List Xml.Node
  | text s => [.element name [] (Xml.textNodes s)]
  | list items => itemElements name items
  | map entries => [.element name [] (entryElements entries)]
  | _ => []

/-- The elements of items under a name. -/
def itemElements (name : String) : List Data → List Xml.Node
  | [] => []
  | item :: rest => elementsOf name item ++ itemElements name rest

/-- The elements of entries under their keys. -/
def entryElements : List (Data × Data) → List Xml.Node
  | [] => []
  | (text key, value) :: rest => elementsOf key value ++ entryElements rest
  | _ :: rest => entryElements rest

end

/-- Whether plain data is the form of data under which its elements are written. -/
structure Writes (data : Data) (p : Plain) : Prop where
  /-- It is the plain form. -/
  plain : data.toPlain = .ok p
  /-- It is a list only if the data is one. -/
  single : (∀ items, data ≠ .list items) → Xml.IsSingle p
  /-- A list has as many items as the data. -/
  length : ∀ items, data = .list items → ∃ ps, p = .list ps ∧ ps.length = items.length
  /-- It is written as the elements of the data. -/
  field : ∀ name, Xml.isTagName name = true →
    Xml.writeField (.text name) p = .ok (Xml.printedAll (data.elementsOf name))

theorem exists_writes_items {items : List Data} (hitems : ∀ item ∈ items, ∃ p, item.Writes p)
    (hsingle : ∀ item ∈ items, ∀ inner, item ≠ .list inner) :
    ∃ ps, plainItems items = .ok ps ∧ ps.length = items.length ∧
      ∀ name, Xml.isTagName name = true →
        Xml.writeElements (.text name) ps = .ok (Xml.printedAll (itemElements name items)) := by
  induction items with
  | nil =>
    refine ⟨[], by rw [plainItems], rfl, fun name _ ↦ ?_⟩
    rw [Xml.writeElements, itemElements, Xml.printedAll]
  | cons item rest ih =>
    obtain ⟨⟨p, hp⟩, hothers⟩ := List.forall_mem_cons.1 hitems
    obtain ⟨hitem, hrest⟩ := List.forall_mem_cons.1 hsingle
    obtain ⟨ps, hplain, hlength, hwrite⟩ := ih hothers hrest
    refine ⟨p :: ps, ?_, congrArg Nat.succ hlength, fun name hname ↦ ?_⟩
    · rw [plainItems, hp.plain, hplain]
      rfl
    · rw [Xml.writeElements_cons hname (hp.single hitem), hp.field name hname, hwrite name hname,
        itemElements, Xml.printedAll_append]
      rfl

theorem exists_writes_entries {entries : List (String × Data)}
    (hnames : ∀ entry ∈ entries, Xml.isTagName entry.1 = true)
    (hvalues : ∀ entry ∈ entries, ∃ p, entry.2.Writes p) :
    ∃ ps : List (String × Plain), plainEntries (textKeyed entries) = .ok (Json.textKeyed ps) ∧
      ps.map Prod.fst = entries.map Prod.fst ∧
      Xml.writeChildren (Json.textKeyed ps) =
        .ok (Xml.printedAll (entryElements (textKeyed entries))) := by
  induction entries with
  | nil =>
    refine ⟨[], ?_, rfl, ?_⟩
    · rw [textKeyed, List.map_nil, plainEntries]
      rfl
    · rw [textKeyed, List.map_nil, entryElements, Xml.printedAll, Json.textKeyed, List.map_nil,
        Xml.writeChildren]
  | cons entry rest ih =>
    obtain ⟨key, value⟩ := entry
    obtain ⟨hname, hothers⟩ := List.forall_mem_cons.1 hnames
    obtain ⟨⟨p, hp⟩, hrest⟩ := List.forall_mem_cons.1 hvalues
    obtain ⟨ps, hplain, hkeys, hwrite⟩ := ih hothers hrest
    refine ⟨(key, p) :: ps, ?_, congrArg (key :: ·) hkeys, ?_⟩
    · show plainEntries ((.text key, value) :: textKeyed rest) = _
      rw [plainEntries, hplain]
      simp only [scalarKey?, hp.plain]
      rfl
    · show Xml.writeChildren ((.text key, p) :: Json.textKeyed ps) =
        .ok (Xml.printedAll (entryElements ((.text key, value) :: textKeyed rest)))
      rw [Xml.writeChildren_cons hname, hp.field key hname, hwrite, entryElements,
        Xml.printedAll_append]
      rfl

/-- A map of fields that are written is written as an element. -/
theorem writes_map {entries : List (String × Data)} {ps : List (String × Plain)}
    (hkeys : (entries.map Prod.fst).Nodup) (hnames : ∀ entry ∈ entries, Xml.isTagName entry.1 = true)
    (hplain : plainEntries (textKeyed entries) = .ok (Json.textKeyed ps))
    (hsame : ps.map Prod.fst = entries.map Prod.fst)
    (hwrite : Xml.writeChildren (Json.textKeyed ps) =
      .ok (Xml.printedAll (entryElements (textKeyed entries)))) :
    (map (textKeyed entries)).Writes (.map (Json.textKeyed ps)) where
  plain := by
    rw [toPlain, hplain]
    show Except.ok (Plain.map (mapOfEntries Scalar.sameKey (Json.textKeyed ps))) = _
    rw [mapOfEntries_textKeyed (hsame ▸ hkeys)]
  single := fun _ items ↦ Plain.noConfusion
  length := nofun
  field := by
    intro name hname
    have hplainNames : ∀ entry ∈ ps, Xml.isTagName entry.1 = true := by
      intro entry hentry
      have hmem : entry.1 ∈ entries.map Prod.fst := hsame ▸ List.mem_map_of_mem hentry
      obtain ⟨other, hother, hsameKey⟩ := List.mem_map.1 hmem
      exact hsameKey ▸ hnames other hother
    rw [Xml.writeField_map hname hplainNames hwrite, elementsOf, Xml.printedAll_singleton]

/-- Data whose keys are written as names has a plain form that is written as its elements. -/
theorem IsTree.exists_writes {data : Data} {isText : String → Bool}
    (h : data.IsTree Xml.isTagName isText) : ∃ p, data.Writes p := by
  induction h with
  | @text s _ =>
    refine ⟨.text s, by rw [toPlain], fun _ items ↦ Plain.noConfusion, nofun, fun name hname ↦ ?_⟩
    rw [Xml.writeField_text hname, elementsOf, Xml.printedAll_singleton]
  | @list items _ hsingle ih =>
    obtain ⟨ps, hplain, hlength, hwrite⟩ := exists_writes_items ih hsingle
    refine ⟨.list ps, by rw [toPlain, hplain]; rfl, fun hnone ↦ absurd rfl (hnone items), ?_,
      fun name hname ↦ ?_⟩
    · intro others heq
      cases heq
      exact ⟨ps, rfl, hlength⟩
    · rw [Xml.writeField, if_neg (Xml.ne_commentKey hname), Xml.writeName_text hname, elementsOf,
        hwrite name hname]
      rfl
  | map hkeys hnames _ ih =>
    obtain ⟨ps, hplain, hsame, hwrite⟩ := exists_writes_entries hnames ih
    exact ⟨_, writes_map hkeys hnames hplain hsame hwrite⟩

theorem textKeyed_injective : Function.Injective textKeyed := by
  refine List.map_injective_iff.2 fun first second h ↦ ?_
  obtain ⟨hkey, hvalue⟩ := Prod.mk.inj h
  exact Prod.ext (Atom.text.inj (atom.inj hkey)) hvalue

theorem isTree_map_iff {entries : List (String × Data)} {isName isText : String → Bool} :
    (map (textKeyed entries)).IsTree isName isText ↔ (entries.map Prod.fst).Nodup ∧
      (∀ entry ∈ entries, isName entry.1 = true) ∧
        ∀ entry ∈ entries, entry.2.IsTree isName isText := by
  constructor
  · intro h
    generalize hmap : map (textKeyed entries) = data at h
    cases h with
    | text | list => cases hmap
    | map hkeys hnames hvalues =>
      cases textKeyed_injective (map.inj hmap)
      exact ⟨hkeys, hnames, hvalues⟩
  · rintro ⟨hkeys, hnames, hvalues⟩
    exact .map hkeys hnames hvalues

/-! ### Documents -/

/-- The elements on the top level of a document: those of a single entry, or an element around all
entries. -/
def rootsOf : List (String × Data) → List Xml.Node
  | [(key, value)] => value.elementsOf key
  | entries => [.element "root" [] (entryElements (textKeyed entries))]

/-- The name of the element of a document. -/
def rootName : List (String × Data) → String
  | [(key, _)] => key
  | _ => "root"

theorem mem_itemElements {name : String} {items : List Data} {node : Xml.Node} :
    node ∈ itemElements name items ↔ ∃ item ∈ items, node ∈ item.elementsOf name := by
  induction items with
  | nil => simp [itemElements]
  | cons item rest ih => rw [itemElements, List.mem_append, ih, List.exists_mem_cons_iff]

theorem mem_entryElements {entries : List (String × Data)} {node : Xml.Node} :
    node ∈ entryElements (textKeyed entries) ↔
      ∃ entry ∈ entries, node ∈ entry.2.elementsOf entry.1 := by
  induction entries with
  | nil => simp [textKeyed, entryElements]
  | cons entry rest ih =>
    show node ∈ entryElements ((.text entry.1, entry.2) :: textKeyed rest) ↔ _
    rw [entryElements, List.mem_append, ih, List.exists_mem_cons_iff]

variable {isText : String → Bool}

/-- The elements of data have the name under which it stands. -/
theorem name?_of_mem_elementsOf {data : Data} {isName : String → Bool}
    (h : data.IsTree isName isText) {name : String} {node : Xml.Node}
    (hnode : node ∈ data.elementsOf name) : node.name? = some name := by
  induction h with
  | text | map =>
    rw [elementsOf] at hnode
    rw [List.mem_singleton.1 hnode]
    rfl
  | list _ _ ih =>
    rw [elementsOf] at hnode
    obtain ⟨item, hitem, hmem⟩ := mem_itemElements.1 hnode
    exact ih item hitem hmem

theorem length_elementsOf {data : Data} {isName : String → Bool} (h : data.IsTree isName isText)
    (hsingle : ∀ items, data ≠ .list items) (name : String) : (data.elementsOf name).length = 1 := by
  cases h with
  | text | map =>
    rw [elementsOf]
    rfl
  | @list items => exact absurd rfl (hsingle items)

theorem length_itemElements {items : List Data} {isName : String → Bool}
    (hitems : ∀ item ∈ items, item.IsTree isName isText)
    (hsingle : ∀ item ∈ items, ∀ inner, item ≠ .list inner) (name : String) :
    (itemElements name items).length = items.length := by
  induction items with
  | nil => rw [itemElements]; rfl
  | cons item rest ih =>
    obtain ⟨hitem, hothers⟩ := List.forall_mem_cons.1 hitems
    obtain ⟨hone, hrest⟩ := List.forall_mem_cons.1 hsingle
    rw [itemElements, List.length_append, length_elementsOf hitem hone, ih hothers hrest,
      List.length_cons, Nat.add_comm]

theorem writeDocument_of_several {key : String} (hkey : Xml.isTagName key = true)
    (first second : Plain) (rest : List Plain) :
    Xml.writeDocument (.text key) (.list (first :: second :: rest)) = .error .value := by
  rw [Xml.writeDocument, if_pos (Xml.ne_commentKey hkey)]
  rfl

theorem writeDocument_of_single {key : String} {p : Plain} {content : List Char}
    (hsingle : ∀ first second rest, p ≠ .list (first :: second :: rest))
    (hfield : Xml.writeField (.text key) p = .ok content) :
    Xml.writeDocument (.text key) p = .ok (Xml.declaration ++ content) := by
  rw [Xml.writeDocument]
  · rw [hfield]
    rfl
  · exact hsingle

/-- A single entry is written as the document of its elements, unless there are several. -/
theorem writeDocument_eq {key : String} {value : Data} {p : Plain} (hkey : Xml.isTagName key = true)
    (hvalue : value.IsTree Xml.isTagName isText) (hp : value.Writes p) :
    Xml.writeDocument (.text key) p =
      if 2 ≤ (value.elementsOf key).length then .error .value
      else .ok (Xml.declaration ++ Xml.printedAll (value.elementsOf key)) := by
  have hfield := hp.field key hkey
  by_cases hlist : ∃ items, value = .list items
  · obtain ⟨items, rfl⟩ := hlist
    obtain ⟨ps, rfl, hlength⟩ := hp.length items rfl
    have hcount : ((Data.list items).elementsOf key).length = ps.length := by
      cases hvalue with
      | list hitems hsingle => rw [elementsOf, length_itemElements hitems hsingle, hlength]
    rw [hcount]
    match ps with
    | [] | [_] => exact writeDocument_of_single (fun _ _ _ h ↦ by cases h) hfield
    | first :: second :: rest => exact writeDocument_of_several hkey first second rest
  · have hnone : ∀ items, value ≠ .list items := fun items hitems ↦ hlist ⟨items, hitems⟩
    rw [length_elementsOf hvalue hnone, if_neg (by decide)]
    exact writeDocument_of_single (fun _ _ _ ↦ hp.single hnone _) hfield

theorem toXml_of_single {entry : Data × Data} {key : Scalar} {p : Plain}
    (hplain : (map [entry]).toPlain = .ok (.map [(key, p)])) :
    (map [entry]).toXml = Xml.writeDocument key p := by
  unfold toXml
  simp only [entries?]
  rw [hplain]
  rfl

theorem toXml_of_length_ne {entries : List (Data × Data)} {fields : Xml.Fields}
    (hplain : (map entries).toPlain = .ok (.map fields)) (hfields : fields.length ≠ 1) :
    (map entries).toXml = Xml.writeDocument (.text "root") (.map fields) := by
  unfold toXml
  simp only [entries?]
  rw [hplain]
  match fields, hfields with
  | [], _ => rfl
  | _ :: _ :: _, _ => rfl

theorem rootsOf_of_length_ne {entries : List (String × Data)} (h : entries.length ≠ 1) :
    rootsOf entries = [.element "root" [] (entryElements (textKeyed entries))] := by
  match entries, h with
  | [], _ => rfl
  | _ :: _ :: _, _ => rfl

/-- A map is written as the document of its elements on the top level, unless there are several. -/
theorem toXml_eq {entries : List (String × Data)}
    (h : (map (textKeyed entries)).IsTree Xml.isTagName isText) :
    (map (textKeyed entries)).toXml =
      if 2 ≤ (rootsOf entries).length then .error .value
      else .ok (Xml.declaration ++ Xml.printedAll (rootsOf entries)) := by
  obtain ⟨hkeys, hnames, hvalues⟩ := isTree_map_iff.1 h
  by_cases hone : entries.length = 1
  · obtain ⟨⟨key, value⟩, rfl⟩ := List.length_eq_one_iff.1 hone
    obtain ⟨p, hp⟩ := (hvalues _ (List.mem_singleton_self _)).exists_writes
    have hplain : (map (textKeyed [(key, value)])).toPlain = .ok (.map [(.text key, p)]) := by
      show (map [(.text key, value)]).toPlain = _
      rw [toPlain, plainEntries, plainEntries]
      simp only [scalarKey?, hp.plain]
      rfl
    have hdocument := writeDocument_eq (hnames _ (List.mem_singleton_self _))
      (hvalues _ (List.mem_singleton_self _)) hp
    rw [textKeyed, List.map_singleton] at hplain ⊢
    rw [toXml_of_single hplain, hdocument, rootsOf]
  · obtain ⟨ps, hentries, hsame, hwrite⟩ := exists_writes_entries hnames fun entry hentry ↦
      (hvalues entry hentry).exists_writes
    have hmap := writes_map hkeys hnames hentries hsame hwrite
    have hlength : (Json.textKeyed ps).length ≠ 1 := by
      have hcount := congrArg List.length hsame
      rw [List.length_map, List.length_map] at hcount
      rwa [Json.textKeyed, List.length_map, hcount]
    rw [toXml_of_length_ne hmap.plain hlength, rootsOf_of_length_ne hone,
      writeDocument_eq (by decide) h hmap, elementsOf]

end Data

end ResourceScript

import ResourceScript.Proofs.Format.Xml.ReadBack
/-!
# Maps as XML documents

A map of texts, maps and lists of these under the names of elements is encoded as a document of one
element: that of its only entry, or an element `root` around all entries (`Media.encode_xml`). A single
entry is not looked at before it becomes the document, so a list in it leaves no document or one
without an element, unless the list has one item.
-/

set_option autoImplicit false

namespace ResourceScript

open Text

namespace Data

variable {entries : List (String × Data)} {isName isText : String → Bool}

/-- A list in a single entry has as many elements on the top level as it has items. -/
theorem length_rootsOf_list {key : String} {items : List Data}
    (h : (map (textKeyed [(key, list items)])).IsTree isName isText) :
    (rootsOf [(key, list items)]).length = items.length := by
  obtain ⟨-, -, hvalues⟩ := isTree_map_iff.1 h
  have hlist : (list items).IsTree isName isText := hvalues _ (List.mem_singleton_self _)
  cases hlist with
  | list hitems hsingle => rw [rootsOf, elementsOf, length_itemElements hitems hsingle]

/-- Unless the only entry is a list that has not one item, there is one element on the top level. -/
theorem exists_rootsOf_eq (h : (map (textKeyed entries)).IsTree isName isText)
    (hone : ∀ key items, entries = [(key, list items)] → items.length = 1) :
    ∃ root : Xml.Node, rootsOf entries = [root] ∧ root.name? = some (rootName entries) := by
  by_cases hsingle : entries.length = 1
  · obtain ⟨⟨key, value⟩, rfl⟩ := List.length_eq_one_iff.1 hsingle
    obtain ⟨-, -, hvalues⟩ := isTree_map_iff.1 h
    have hvalue := hvalues _ (List.mem_singleton_self _)
    have hlength : (value.elementsOf key).length = 1 := by
      by_cases hlist : ∃ items, value = list items
      · obtain ⟨items, rfl⟩ := hlist
        exact (length_rootsOf_list h).trans (hone key items rfl)
      · exact length_elementsOf hvalue (fun items hitems ↦ hlist ⟨items, hitems⟩) key
    obtain ⟨root, hroot⟩ := List.length_eq_one_iff.1 hlength
    exact ⟨root, hroot, name?_of_mem_elementsOf hvalue (hroot ▸ List.mem_singleton_self root)⟩
  · refine ⟨_, rootsOf_of_length_ne hsingle, ?_⟩
    match entries, hsingle with
    | [], _ | _ :: _ :: _, _ => rfl

end Data

namespace Media

/-- A map under the names of elements is encoded as a document of one element, with the name of its
only entry or the name `root`; if its names can be read and its texts hold no other characters than
those of documents, the document is read as that element. A list in the only entry is refused if it
has several items, and leaves a document without an element if it is empty. -/
theorem encode_xml {entries : List (String × Data)}
    (h : (Data.map (Data.textKeyed entries)).IsTree Xml.isTagName fun _ ↦ true) :
    ((∀ key items, entries = [(key, .list items)] → items.length = 1) →
      ∃ root : Xml.Node, root.name? = some (Data.rootName entries) ∧
        Data.rootsOf entries = [root] ∧
        encode (some xml.name) (.map (Data.textKeyed entries)) =
          .ok (Utf8.encode (Xml.declaration ++ root.printed)) ∧
        ((Data.map (Data.textKeyed entries)).IsTree Xml.isName Xml.isContent → ∀ entities,
          Xml.Document.read false entities (Xml.declaration ++ root.printed) = .ok ⟨[root]⟩)) ∧
    (∀ key items, entries = [(key, .list items)] → 2 ≤ items.length →
      encode (some xml.name) (.map (Data.textKeyed entries)) = .error .value) ∧
    (∀ key, entries = [(key, .list [])] →
      encode (some xml.name) (.map (Data.textKeyed entries)) =
        .ok (Utf8.encode Xml.declaration)) := by
  have hencode : encode (some xml.name) (.map (Data.textKeyed entries)) =
      (if 2 ≤ (Data.rootsOf entries).length then .error .value
        else .ok (Xml.declaration ++ Xml.printedAll (Data.rootsOf entries)) :
        Except Fault (List Char)).map Utf8.encode := by
    rw [encode_name, ← Data.toXml_eq h]
    rfl
  refine ⟨fun hone ↦ ?_, ?_, ?_⟩
  · obtain ⟨root, hroots, hname⟩ := Data.exists_rootsOf_eq h hone
    refine ⟨root, hname, hroots, ?_, fun hreadable entities ↦ ?_⟩
    · rw [hencode, hroots, Xml.printedAll_singleton]
      rfl
    · exact Xml.read_printed (Xml.isReadable_of_mem_rootsOf hreadable
        (hroots ▸ List.mem_singleton_self root)) entities
  · rintro key items rfl hmany
    rw [hencode, Data.length_rootsOf_list h, if_pos hmany]
    rfl
  · rintro key rfl
    have hnone : Data.rootsOf [(key, .list [])] = [] := List.length_eq_zero_iff.1
      (Data.length_rootsOf_list h)
    rw [hencode, hnone, Xml.printedAll]
    rfl

/-- Two entries stand inside a root; a list has an element for each item, and none if it is empty. The
same list in a single entry is refused. -/
theorem encode_xml_list :
    let items : List Data := [.text "1 < 2", .map (Data.textKeyed [("n", .text "")])]
    (∃ root : Xml.Node, root.name? = some "root" ∧
      encode (some xml.name) (.map (Data.textKeyed [("b", .list items), ("c", .list [])])) =
        .ok (Utf8.encode (Xml.declaration ++ root.printed)) ∧
      root.printed = "<root><b>1 &lt; 2</b><b><n></n></b></root>".toList ∧
      Xml.Document.read false false (Xml.declaration ++ root.printed) = .ok ⟨[root]⟩) ∧
    encode (some xml.name) (.map (Data.textKeyed [("b", .list items)])) = .error .value := by
  intro items
  have hinner : (Data.map (Data.textKeyed [("n", .text "")])).IsTree Xml.isName Xml.isContent :=
    .map (by decide) (List.forall_mem_singleton.2 (by decide))
      (List.forall_mem_singleton.2 (.text (by decide)))
  have hlist : (Data.list items).IsTree Xml.isName Xml.isContent := by
    refine .list (List.forall_mem_cons.2 ⟨.text (by decide), List.forall_mem_singleton.2 hinner⟩) ?_
    exact List.forall_mem_cons.2 ⟨nofun, List.forall_mem_singleton.2 nofun⟩
  have htwo : (Data.map (Data.textKeyed [("b", .list items), ("c", .list [])])).IsTree
      Xml.isName Xml.isContent := by
    have hnone : (Data.list []).IsTree Xml.isName Xml.isContent :=
      .list (List.forall_mem_nil _) (List.forall_mem_nil _)
    exact .map (by decide) (by decide)
      (List.forall_mem_cons.2 ⟨hlist, List.forall_mem_singleton.2 hnone⟩)
  have hone : (Data.map (Data.textKeyed [("b", .list items)])).IsTree Xml.isName Xml.isContent :=
    .map (by decide) (by decide) (List.forall_mem_singleton.2 hlist)
  constructor
  · obtain ⟨root, hname, hroots, hencode, hread⟩ := (encode_xml (Xml.isTree_isTagName htwo)).1
      fun key items heq ↦ by cases heq
    refine ⟨root, hname, hencode, ?_, hread htwo false⟩
    rw [← Xml.printedAll_singleton, ← hroots]
    decide
  · exact (encode_xml (Xml.isTree_isTagName hone)).2.1 "b" items rfl (by decide)

end Media

end ResourceScript

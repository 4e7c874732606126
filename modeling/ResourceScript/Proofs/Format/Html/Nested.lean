import ResourceScript.Format.Html.Read
import ResourceScript.Proofs.Format.Xml.Fields
/-!
# Nested markup is read as XML

The value of an element is said once (`Xml.Node.value`): its attributes, its children gathered under
their names, and its trimmed text. Reading a document as XML comes to this value
(`Xml.Node.tree?_eq`), and so does the lenient reading of its tags and texts (`Html.build_nodePieces`):
between its tags an element is the innermost open one, its children push their values into its
fields, and its end tag closes it and nothing else.
-/

set_option autoImplicit false

namespace ResourceScript

open Text

/-! ### The values of elements -/

namespace Xml

/-- The fields of attributes, one for each. -/
def namedAttributes (attributes : List (String × String)) : Fields :=
  attributes.map fun entry ↦ (.text ("@" ++ entry.1), .text entry.2)

mutual

/-- The value of an element. -/
def Node.value : Node → Plain
  | .element _ attributes children =>
    elementValue (namedAttributes attributes) (Node.childValues children) (textOfNodes children)
  | _ => .null

/-- The names and the values of the elements among nodes. -/
def Node.childValues : List Node → List (String × Plain)
  | [] => []
  | node :: rest =>
    match node.name? with
    | some name => (name, node.value) :: Node.childValues rest
    | none => Node.childValues rest

end

/-- Whether a node is text, or an element whose attributes have distinct names, whose name is not one
of an element without content, and whose children are such nodes. -/
inductive IsNested : Node → Prop
  /-- An element. -/
  | element {name : String} {attributes : List (String × String)} {children : List Node}
    (hname : isElementName name = true) (hcontent : name ∉ Html.voidElements)
    (hattributes : (attributes.map Prod.fst).Nodup)
    (hchildren : ∀ child ∈ children, IsNested child) : IsNested (.element name attributes children)
  /-- Text. -/
  | text (content : String) : IsNested (.text content)

variable {attributes : List (String × String)} {nodes : List Node}

theorem namedAttributes_keys (attributes : List (String × String)) :
    ∀ entry ∈ namedAttributes attributes, ∃ name, entry.1 = .text ("@" ++ name) := by
  intro entry hentry
  obtain ⟨⟨name, value⟩, -, rfl⟩ := List.mem_map.1 hentry
  exact ⟨name, rfl⟩

/-- Attributes with distinct names make up a map as they are. -/
theorem mapOfEntries_namedAttributes (hattributes : (attributes.map Prod.fst).Nodup) :
    mapOfEntries Scalar.sameKey (namedAttributes attributes) = namedAttributes attributes := by
  refine mapOfEntries_of_distinct (List.pairwise_map.2 ?_)
  refine (List.pairwise_map.1 hattributes).imp fun hne ↦ ?_
  rw [Json.sameKey_text]
  exact decide_eq_false fun h ↦ hne (String.append_right_inj "@" |>.1 h)

theorem isSingle_value (node : Node) : IsSingle node.value := by
  cases node with
  | element =>
    rw [Node.value]
    exact isSingle_elementValue _ _ _
  | text | verbatim | comment | instruction | doctype =>
    rw [Node.value]
    · exact fun items ↦ Plain.noConfusion
    · exact fun _ _ _ ↦ Node.noConfusion

/-- The children of an element have names of elements and values that are no lists. -/
theorem childValues_keys (hnodes : ∀ node ∈ nodes, IsNested node) :
    ∀ child ∈ Node.childValues nodes, isElementName child.1 = true ∧ IsSingle child.2 := by
  induction nodes with
  | nil =>
    rw [Node.childValues]
    nofun
  | cons node rest ih =>
    obtain ⟨hnode, hrest⟩ := List.forall_mem_cons.1 hnodes
    rw [Node.childValues]
    cases hnode with
    | element hname => exact List.forall_mem_cons.2 ⟨⟨hname, isSingle_value _⟩, ih hrest⟩
    | text => exact ih hrest

mutual

/-- A nested element of a document is read as its name and its value. -/
theorem Node.tree?_eq : ∀ node : Node, IsNested node →
    node.tree? = node.name?.map fun name ↦ (name, node.value)
  | .element name attributes children, .element _ _ hattributes hchildren => by
    have hkeys := childValues_keys hchildren
    have hfields := pushAll_attributes (namedAttributes_keys attributes) hkeys
    have hattrs : attributeFields attributes = namedAttributes attributes :=
      mapOfEntries_namedAttributes hattributes
    rw [Node.tree?, Node.value, Node.trees_eq children hchildren, hattrs]
    show some (name, fieldsValue (pushAll _ _) _) = _
    rw [hfields, fieldsValue_eq (namedAttributes_keys attributes) fun child hchild ↦
      (hkeys child hchild).1]
    rfl
  | .text content, _ => by
    rw [Node.tree?]
    · rfl
    · exact fun _ _ _ ↦ Node.noConfusion

theorem Node.trees_eq : ∀ nodes : List Node, (∀ node ∈ nodes, IsNested node) →
    Node.trees nodes = Node.childValues nodes
  | [], _ => by rw [Node.trees, Node.childValues]
  | node :: rest, h => by
    have hnode := Node.tree?_eq node (h node List.mem_cons_self)
    have hrest := Node.trees_eq rest fun other hother ↦ h other (List.mem_cons_of_mem _ hother)
    rw [Node.trees, Node.childValues, hnode, hrest]
    cases node.name? <;> rfl

end

end Xml

/-! ### The pieces of nested markup -/

namespace Html

mutual

/-- The tags and texts of a node. -/
def nodePieces : Xml.Node → List Piece
  | .element name attributes children =>
    .startTag name (attributes.map fun entry ↦ (entry.1, some entry.2)) ::
      (nodesPieces children ++ [.endTag name])
  | .text content => [.text content.toList]
  | _ => []

/-- The tags and texts of nodes in order. -/
def nodesPieces : List Xml.Node → List Piece
  | [] => []
  | node :: rest => nodePieces node ++ nodesPieces rest

end

namespace Tree

/-- What a node comes to among the open elements: an element is attached, text is added. -/
def addNode (t : Tree) : Xml.Node → Tree
  | .element name attributes children =>
    t.attach name (Xml.Node.value (.element name attributes children))
  | .text content => t.addText content.toList
  | _ => t

/-- The value of an element that is closed, from its attributes, its children and its text. -/
theorem valueOf_eq {attributes : Xml.Fields} {children : List (String × Plain)}
    (hattributes : ∀ entry ∈ attributes, ∃ name, entry.1 = .text ("@" ++ name))
    (hchildren : ∀ child ∈ children, Xml.isElementName child.1 = true ∧ Xml.IsSingle child.2)
    (name : String) (text : List Char) :
    valueOf ⟨name, Xml.pushAll attributes children, text⟩ =
      Xml.elementValue attributes children text := by
  have hnew := Xml.sameKey_of_fresh (Xml.forall_mem_fields_ne_textKey hattributes fun child hchild ↦
    (hchildren child hchild).1)
  rw [Xml.pushAll_attributes hattributes hchildren, valueOf, Xml.elementValue]
  dsimp only
  rw [putEntry_of_new hnew]
  by_cases htext : (trim text).isEmpty = true
  · simp [htext]
  · simp [htext]

/-- The end tag of the innermost open element closes that element. -/
theorem add_endTag_innermost (e : OpenElement) (outer : List OpenElement) (root : Xml.Fields) :
    add ⟨e :: outer, root⟩ (.endTag e.name) = attach ⟨outer, root⟩ e.name (valueOf e) := by
  have hinside : (e :: outer).findIdx? (fun open' ↦ open'.name == e.name) = some 0 := by
    rw [List.findIdx?_cons, beq_self_eq_true]
    rfl
  rw [add]
  simp only [hinside]
  rfl

theorem add_startTag {name : String} (hcontent : name ∉ voidElements) (t : Tree)
    (attributes : Attributes) : t.add (.startTag name attributes) =
      { t with elements := ⟨name, fieldsOf attributes, []⟩ :: t.elements } := by
  rw [add, if_neg fun h ↦ hcontent (List.contains_iff_mem.1 h)]

mutual

/-- The pieces of a nested node attach its value, or add its text, to what is open. -/
theorem foldl_nodePieces : ∀ node : Xml.Node, Xml.IsNested node → ∀ t : Tree,
    (nodePieces node).foldl add t = t.addNode node
  | .element name attributes children, .element hname hcontent hattributes hchildren, t => by
    have hkeys := Xml.childValues_keys hchildren
    have hfields : fieldsOf (attributes.map fun entry ↦ (entry.1, some entry.2)) =
        Xml.namedAttributes attributes := by
      rw [fieldsOf, List.map_map]
      exact Xml.mapOfEntries_namedAttributes hattributes
    rw [nodePieces, List.foldl_cons, List.foldl_append, add_startTag hcontent, hfields,
      foldl_nodesPieces children hchildren, List.foldl_cons, List.foldl_nil]
    have hclose := add_endTag_innermost
      ⟨name, Xml.pushAll (Xml.namedAttributes attributes) (Xml.Node.childValues children),
        Xml.textOfNodes children⟩ t.elements t.root
    rw [valueOf_eq (Xml.namedAttributes_keys attributes) hkeys] at hclose
    rw [addNode, Xml.Node.value]
    exact hclose
  | .text content, _, t => by
    rw [nodePieces]
    rfl

/-- The pieces of nested nodes go into the innermost open element. -/
theorem foldl_nodesPieces : ∀ nodes : List Xml.Node, (∀ node ∈ nodes, Xml.IsNested node) →
    ∀ (e : OpenElement) (outer : List OpenElement) (root : Xml.Fields),
      (nodesPieces nodes).foldl add ⟨e :: outer, root⟩ =
        ⟨⟨e.name, Xml.pushAll e.fields (Xml.Node.childValues nodes),
          e.text ++ Xml.textOfNodes nodes⟩ :: outer, root⟩
  | [], _, e, outer, root => by
    rw [nodesPieces, Xml.Node.childValues, Xml.textOfNodes, List.flatMap_nil, List.append_nil]
    rfl
  | node :: rest, h, e, outer, root => by
    have hnode := h node List.mem_cons_self
    have hrest := foldl_nodesPieces rest fun other hother ↦ h other (List.mem_cons_of_mem _ hother)
    rw [nodesPieces, List.foldl_append, foldl_nodePieces node hnode, Xml.Node.childValues]
    cases hnode with
    | element =>
      rw [addNode, attach, hrest]
      rfl
    | text content =>
      rw [addNode, addText, hrest]
      simp [Xml.textOfNodes, Xml.Node.name?]

end

end Tree

/-- Lenient reading of nested markup and reading it as a document come to the same: its element under
its name, with its attributes, its children gathered under their names, and its trimmed text. -/
theorem build_nodePieces {name : String} {attributes : List (String × String)}
    {children : List Xml.Node} (h : Xml.IsNested (.element name attributes children)) :
    build (nodePieces (.element name attributes children)) =
        [(.text name, Xml.Node.value (.element name attributes children))] ∧
      Xml.Document.toFields ⟨[.element name attributes children]⟩ =
        [(.text name, Xml.Node.value (.element name attributes children))] := by
  constructor
  · rw [build, Tree.foldl_nodePieces _ h]
    rfl
  · rw [Xml.Document.toFields, Xml.Node.trees_eq _ (List.forall_mem_singleton.2 h),
      Xml.Node.childValues, Xml.Node.childValues]
    rfl

theorem build_nodePieces_mixed :
    build (nodePieces (.element "ul" [("id", "x")] [.text " a ", .element "li" [] [.text " one\n"],
        .element "b" [] [], .text "b", .element "li" [] []])) =
      [(.text "ul", .map [(.text "@id", .text "x"), (.text "li", .list [.text "one", .null]),
        (.text "b", .null), (.text "#text", .text "a b")])] := by
  have hempty (name : String) (hname : Xml.isElementName name = true)
      (hcontent : name ∉ voidElements) : Xml.IsNested (.element name [] []) :=
    .element hname hcontent .nil (List.forall_mem_nil _)
  refine (build_nodePieces (.element (by decide) (by decide) (by decide) ?_)).1.trans rfl
  simp only [List.forall_mem_cons]
  exact ⟨.text _, .element (by decide) (by decide) .nil (List.forall_mem_singleton.2 (.text _)),
    hempty "b" (by decide) (by decide), .text _, hempty "li" (by decide) (by decide),
    List.forall_mem_nil _⟩

end Html

end ResourceScript

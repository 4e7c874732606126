/-!
# XML documents as trees

An XML document is a sequence of nodes with exactly one element among them. Text and the sections
that quote it verbatim are different nodes, since they are written differently.
-/

set_option autoImplicit false

namespace ResourceScript.Xml

/-- A node of a document. -/
inductive Node where
  /-- An element with its attributes in order and its children. -/
  | element (name : String) (attributes : List (String × String)) (children : List Node)
  /-- Text. -/
  | text (content : String)
  /-- Text written verbatim in a section of its own. -/
  | verbatim (content : String)
  /-- A comment. -/
  | comment (content : String)
  /-- A processing instruction. -/
  | instruction (target content : String)
  /-- A document type declaration: its name, public and system identifiers and internal part. -/
  | doctype (name : String) (publicId systemId internal : Option String)
  deriving Repr, Inhabited

/-- A document: the nodes on its top level. -/
structure Document where
  /-- The nodes in order. -/
  nodes : List Node
  deriving Repr, Inhabited

end ResourceScript.Xml

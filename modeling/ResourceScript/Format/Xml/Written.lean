import ResourceScript.Format.Xml.Document
import ResourceScript.Text.Space
/-!
# Writing XML documents

The text of a document tree. In text and attributes the markup characters are escaped; an element
without children is closed in its own tag.
-/

set_option autoImplicit false

namespace ResourceScript.Xml

open Text

/-- Text with the markup characters escaped, quotes included. -/
def escape (text : String) : List Char :=
  text.toList.flatMap fun c =>
    if c = '&' then "&amp;".toList
    else if c = '<' then "&lt;".toList
    else if c = '"' then "&quot;".toList
    else if c = '>' then "&gt;".toList
    else [c]

/-- The attributes of an element, each after a space. -/
def attributesText : List (String × String) → List Char
  | [] => []
  | (name, value) :: rest =>
    ' ' :: name.toList ++ "=\"".toList ++ escape value ++ '"' :: attributesText rest

/-- A document type declaration. -/
def doctypeText (name : String) (publicId systemId internal : Option String) : List Char :=
  "<!DOCTYPE ".toList ++ name.toList
    ++ (match publicId, systemId with
        | some publicId, some systemId =>
          "  PUBLIC '".toList ++ publicId.toList ++ "'  '".toList ++ systemId.toList ++ ['\'']
        | some publicId, none => "  PUBLIC '".toList ++ publicId.toList ++ "'  'None'".toList
        | none, some systemId => "  SYSTEM '".toList ++ systemId.toList ++ ['\'']
        | none, none => [])
    ++ (match internal with
        | some part => " [".toList ++ part.toList ++ [']']
        | none => [])
    ++ ['>']

mutual

/-- The text of a node. -/
def nodeText : Node → List Char
  | .element name attributes children =>
    '<' :: name.toList ++ attributesText attributes ++
      (if children.isEmpty then "/>".toList
       else '>' :: nodesText children ++ "</".toList ++ name.toList ++ ['>'])
  | .text content => escape content
  | .verbatim content => "<![CDATA[".toList ++ content.toList ++ "]]>".toList
  | .comment content => "<!--".toList ++ content.toList ++ "-->".toList
  | .instruction target content =>
    "<?".toList ++ target.toList ++ ' ' :: content.toList ++ "?>".toList
  | .doctype name publicId systemId internal => doctypeText name publicId systemId internal

/-- The text of nodes in order. -/
def nodesText : List Node → List Char
  | [] => []
  | node :: rest => nodeText node ++ nodesText rest

end

/-- The text of a document behind its declaration. -/
def Document.text (d : Document) : List Char :=
  "<?xml version=\"1.0\" ?>".toList ++ nodesText d.nodes

end ResourceScript.Xml

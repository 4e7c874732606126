import ResourceScript.Format.Yaml.Token
import ResourceScript.Format.Yaml.Tag
/-!
# Graphs of YAML documents

A document is a graph of nodes: scalars, sequences and mappings, each with a tag. An alias leads to
the node of its anchor, so a node can be part of several others and even of itself.
-/

set_option autoImplicit false

namespace ResourceScript.Yaml

/-- What a node consists of; other nodes are given by their numbers. -/
inductive Content where
  /-- A scalar. -/
  | scalar (text : List Char)
  /-- A sequence. -/
  | sequence (items : List Nat)
  /-- A mapping. -/
  | mapping (entries : List (Nat × Nat))
  deriving DecidableEq, Repr, Inhabited

/-- A node. -/
structure Node where
  /-- The tag. -/
  tag : Tag
  /-- What the node consists of. -/
  content : Content
  deriving Repr, Inhabited

/-- The nodes of a document. -/
structure Graph where
  /-- The nodes by their numbers. -/
  nodes : Array Node
  /-- The number of the outermost node. -/
  root : Nat
  deriving Repr

namespace Graph

/-- The node of a number. -/
def node (g : Graph) (n : Nat) : Node :=
  g.nodes.getD n ⟨.null, .scalar []⟩

end Graph

/-- A composer between two nodes. -/
structure Composer where
  /-- The tokens that are left. -/
  tokens : List Token
  /-- The nodes so far. -/
  nodes : Array Node
  /-- The nodes of the anchors. -/
  anchors : List (String × Nat)
  /-- What the handles of tags stand for. -/
  handles : List (String × String)

/-- A step of composing. -/
abbrev Compose := StateT Composer (Except Fault)

namespace Compose

/-- Refuses the document. -/
def refuse {α : Type} : Compose α :=
  throw .yaml

/-- The next token. -/
def peek : Compose Token := do
  return (← get).tokens.head?.getD .streamEnd

/-- Passes over the next token. -/
def drop : Compose Unit :=
  modify fun c => { c with tokens := c.tokens.drop 1 }

/-- Passes over a token that has to come next. -/
def expect (token : Token) : Compose Unit := do
  if (← peek) = token then drop else refuse

/-- Adds a node. -/
def add (node : Node) : Compose Nat := do
  let c ← get
  set { c with nodes := c.nodes.push node }
  return c.nodes.size

/-- Sets what a node consists of. -/
def fill (n : Nat) (node : Node) : Compose Unit :=
  modify fun c => { c with nodes := c.nodes.setIfInBounds n node }

/-- An empty scalar. -/
def addEmpty : Compose Nat :=
  add ⟨.null, .scalar []⟩

/-- Gives an anchor to a node; an anchor has one node only. -/
def bindAnchor (name : Option String) (n : Nat) : Compose Unit := do
  match name with
  | none => return ()
  | some name =>
    let c ← get
    if (c.anchors.lookup name).isSome then refuse
    set { c with anchors := (name, n) :: c.anchors }

/-- The full name of a tag; `!` alone stands for no tag. -/
def tagName (handle : Option String) (suffix : String) : Compose String := do
  match handle with
  | none => return suffix
  | some handle =>
    match (← get).handles.lookup handle with
    | some start => return start ++ suffix
    | none => refuse

/-- The anchor and the tag in front of a node, in either order. -/
def properties : Compose (Option String × Option String) := do
  match ← peek with
  | .anchor name =>
    drop
    match ← peek with
    | .tag handle suffix =>
      drop
      return (some name, some (← tagName handle suffix))
    | _ => return (some name, none)
  | .tag handle suffix =>
    drop
    let tag ← tagName handle suffix
    match ← peek with
    | .anchor name =>
      drop
      return (some name, some tag)
    | _ => return (none, some tag)
  | _ => return (none, none)

/-- The tag of a collection. -/
def collectionTag (default : Tag) (tag : Option String) : Tag :=
  match tag with
  | none | some "!" => default
  | some name => .ofName name

/-- The tag of a scalar: plain ones and those tagged `!` have it by their form. -/
def scalarTag (text : List Char) (plain : Bool) (tag : Option String) : Tag :=
  match tag with
  | none => if plain then .ofPlain text else .text
  | some "!" => .ofPlain text
  | some name => .ofName name

/-- Whether a token ends the place of a node in a block. -/
def endsBlockNode (inMapping : Bool) : Token → Bool
  | .key | .value => inMapping
  | .blockEnd => true
  | .blockEntry => !inMapping
  | _ => false

/-- Whether a token ends the place of a node between brackets or braces. -/
def endsFlowNode (close : Token) (token : Token) : Bool :=
  token = .flowEntry || token = close

mutual

/-- A node. In a block it may be a block; in the place of a mapping value it may be a sequence
without indentation. The fuel bounds the number of steps. -/
def node (block indentless : Bool) : Nat → Compose Nat
  | 0 => refuse
  | fuel + 1 => do
    match ← peek with
    | .reference name =>
      drop
      match (← get).anchors.lookup name with
      | some n => return n
      | none => refuse
    | _ =>
      let (anchor, tag) ← properties
      match ← peek with
      | .scalar text plain =>
        drop
        let n ← add ⟨scalarTag text plain tag, .scalar text⟩
        bindAnchor anchor n
        return n
      | .flowSequenceStart =>
        drop
        sequenceNode anchor tag (flowItems true fuel)
      | .flowMappingStart =>
        drop
        mappingNode anchor tag (flowEntries true fuel)
      | token =>
        if indentless && token = .blockEntry then
          sequenceNode anchor tag (indentlessItems fuel)
        else if block && token = .blockSequenceStart then do
          drop
          sequenceNode anchor tag (blockItems fuel)
        else if block && token = .blockMappingStart then do
          drop
          mappingNode anchor tag (blockEntries fuel)
        else if anchor.isSome || tag.isSome then do
          let n ← add ⟨scalarTag [] (tag.isNone) tag, .scalar []⟩
          bindAnchor anchor n
          return n
        else refuse

/-- A sequence whose items are composed by a given step. -/
def sequenceNode (anchor tag : Option String) (items : Compose (List Nat)) : Compose Nat := do
  let tag := collectionTag .sequence tag
  let n ← add ⟨tag, .sequence []⟩
  bindAnchor anchor n
  fill n ⟨tag, .sequence (← items)⟩
  return n

/-- A mapping whose entries are composed by a given step. -/
def mappingNode (anchor tag : Option String) (entries : Compose (List (Nat × Nat))) :
    Compose Nat := do
  let tag := collectionTag .mapping tag
  let n ← add ⟨tag, .mapping []⟩
  bindAnchor anchor n
  fill n ⟨tag, .mapping (← entries)⟩
  return n

/-- The items of a block sequence up to its end. -/
def blockItems : Nat → Compose (List Nat)
  | 0 => refuse
  | fuel + 1 => do
    match ← peek with
    | .blockEntry =>
      drop
      let item ← if endsBlockNode false (← peek) then addEmpty else node true false fuel
      return item :: (← blockItems fuel)
    | .blockEnd => do
      drop
      return []
    | _ => refuse

/-- The items of a sequence without indentation. -/
def indentlessItems : Nat → Compose (List Nat)
  | 0 => refuse
  | fuel + 1 => do
    match ← peek with
    | .blockEntry =>
      drop
      let next ← peek
      let item ←
        if endsBlockNode true next || endsBlockNode false next then addEmpty
        else node true false fuel
      return item :: (← indentlessItems fuel)
    | _ => return []

/-- The entries of a block mapping up to its end. -/
def blockEntries : Nat → Compose (List (Nat × Nat))
  | 0 => refuse
  | fuel + 1 => do
    match ← peek with
    | .key => do
      drop
      let key ← if endsBlockNode true (← peek) then addEmpty else node true true fuel
      let value ← blockValue fuel
      return (key, value) :: (← blockEntries fuel)
    | .blockEnd => do
      drop
      return []
    | _ => refuse

/-- The value of an entry of a block mapping. -/
def blockValue : Nat → Compose Nat
  | 0 => refuse
  | fuel + 1 => do
    match ← peek with
    | .value => do
      drop
      if endsBlockNode true (← peek) then addEmpty else node true true fuel
    | _ => addEmpty

/-- The items between brackets; an item with a key is a mapping of one entry. -/
def flowItems (first : Bool) : Nat → Compose (List Nat)
  | 0 => refuse
  | fuel + 1 => do
    if (← peek) = .flowSequenceEnd then do
      drop
      return []
    else do
      if !first then expect .flowEntry
      match ← peek with
      | .flowSequenceEnd => do
        drop
        return []
      | .key => do
        drop
        let n ← add ⟨.mapping, .mapping []⟩
        let key ←
          if (← peek) = .value || endsFlowNode .flowSequenceEnd (← peek) then addEmpty
          else node false false fuel
        let value ← flowValue .flowSequenceEnd fuel
        fill n ⟨.mapping, .mapping [(key, value)]⟩
        return n :: (← flowItems false fuel)
      | _ => do
        let item ← node false false fuel
        return item :: (← flowItems false fuel)

/-- The value of an entry between brackets or braces. -/
def flowValue (close : Token) : Nat → Compose Nat
  | 0 => refuse
  | fuel + 1 => do
    if (← peek) = .value then do
      drop
      if endsFlowNode close (← peek) then addEmpty else node false false fuel
    else addEmpty

/-- The entries between braces; an item without a key has an empty value. -/
def flowEntries (first : Bool) : Nat → Compose (List (Nat × Nat))
  | 0 => refuse
  | fuel + 1 => do
    if (← peek) = .flowMappingEnd then do
      drop
      return []
    else do
      if !first then expect .flowEntry
      match ← peek with
      | .flowMappingEnd => do
        drop
        return []
      | .key => do
        drop
        let key ←
          if (← peek) = .value || endsFlowNode .flowMappingEnd (← peek) then addEmpty
          else node false false fuel
        let value ← flowValue .flowMappingEnd fuel
        return (key, value) :: (← flowEntries false fuel)
      | _ => do
        let key ← node false false fuel
        let value ← addEmpty
        return (key, value) :: (← flowEntries false fuel)

end

/-- The directives in front of a document: whether the version was given, and the handles. -/
def directives (version : Bool) (handles : List (String × String)) : Nat →
    Compose (List (String × String))
  | 0 => refuse
  | fuel + 1 => do
    match ← peek with
    | .versionDirective major =>
      drop
      if version || major != 1 then refuse
      directives true handles fuel
    | .tagDirective handle start =>
      drop
      if (handles.lookup handle).isSome then refuse
      directives version ((handle, start) :: handles) fuel
    | .otherDirective => do
      drop
      directives version handles fuel
    | _ => return handles

/-- Passes over the marks of ended documents. -/
def dropEnds : Nat → Compose Unit
  | 0 => return ()
  | fuel + 1 => do
    if (← peek) = .documentEnd then do
      drop
      dropEnds fuel

/-- The handles that need no directive. -/
def defaultHandles : List (String × String) :=
  [("!", "!"), ("!!", Tag.home)]

/-- The root of a document behind its start mark. -/
def content (fuel : Nat) : Compose Nat := do
  match ← peek with
  | .versionDirective _ | .tagDirective .. | .otherDirective | .documentStart | .documentEnd
  | .streamEnd => addEmpty
  | _ => node true false fuel

/-- The only document of a text: its root, if there is a document. -/
def document (fuel : Nat) : Compose (Option Nat) := do
  match ← peek with
  | .streamEnd => return none
  | .versionDirective _ | .tagDirective .. | .otherDirective | .documentStart =>
    let handles ← directives false [] fuel
    modify fun c => { c with handles := handles ++ defaultHandles }
    expect .documentStart
    let root ← content fuel
    dropEnds fuel
    expect .streamEnd
    return some root
  | _ =>
    let root ← node true false fuel
    dropEnds fuel
    expect .streamEnd
    return some root

end Compose

/-- The graph of the document of a text; `none` when the text holds no document. -/
def Graph.ofText? (text : List Char) : Except Fault (Option Graph) := do
  let tokens ← Token.ofText text
  let fuel := 4 * tokens.size + 8
  let start : Composer := ⟨tokens.toList, #[], [], Compose.defaultHandles⟩
  let (root, composer) ← (Compose.document fuel).run start
  return root.map fun root => ⟨composer.nodes, root⟩

end ResourceScript.Yaml

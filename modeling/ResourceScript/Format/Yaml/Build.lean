import ResourceScript.Access
import ResourceScript.Format.Yaml.Graph
import ResourceScript.Text.Base64
/-!
# Values of YAML documents

Each node of a document becomes one value, however many aliases lead to it. A container is made
empty and filled later, those that are made first before the others, so that a container may be part
of itself. A merge key adds the entries of other
mappings in front of those of its own.
-/

set_option autoImplicit false

namespace ResourceScript.Yaml

open Text

/-! ### Scalars -/

/-- The digits of a numeral in a base; a digit beyond the base is refused. -/
def baseNumber (base : Nat) (digits : List Char) : Except Fault Int :=
  let trimmed := trim digits
  let (negative, digits) := Numeral.sign trimmed
  let number := digits.foldlM (fun (n : Nat) c =>
    match Cursor.hexNumber? [c] with
    | some d => if d < base then some (n * base + d) else none
    | none => none) 0
  match number with
  | some n =>
    if digits.isEmpty || (base == 10 && Numeral.maxDigits < digits.length) then .error .value
    else .ok (if negative then -(n : Int) else n)
  | none => .error .value

/-- An integer without its sign. -/
def magnitude (text : List Char) : Except Fault Int :=
  match text with
  | ['0'] => .ok 0
  | '0' :: 'b' :: digits => baseNumber 2 digits
  | '0' :: 'x' :: digits => baseNumber 16 digits
  | '0' :: _ => baseNumber 8 text
  | _ =>
    if text.contains ':' then
      (splitOn ':' text).foldlM (fun n part => do return n * 60 + (← baseNumber 10 part)) 0
    else baseNumber 10 text

/-- Whether a text begins with a minus sign. -/
def isNegative (text : List Char) : Bool :=
  text.head? = some '-'

/-- An integer scalar. -/
def intValue (text : List Char) : Except Fault Value := do
  let text := text.filter (· != '_')
  if text.isEmpty then .error .index
  else
    let n ← magnitude (unsigned text)
    return .int (if isNegative text then -n else n)

/-- The real of a text. -/
def realPart (text : List Char) : Except Fault Double :=
  match Numeral.freeReal? text with
  | some x => .ok x
  | none => .error .value

/-- A real scalar. -/
def floatValue (text : List Char) : Except Fault Value := do
  let text := (text.filter (· != '_')).map asciiLower
  if text.isEmpty then .error .index
  else
    let rest := unsigned text
    let x ←
      if rest = ".inf".toList then .ok (Double.infinite false)
      else if rest = ".nan".toList then .ok .nan
      else if rest.contains ':' then do
        let parts ← (splitOn ':' rest).mapM realPart
        let (sum, _) := parts.reverse.foldl (fun (sum, base) part =>
          (Double.add sum (Double.mul part (Double.ofInt base)), base * 60)) (Double.zero, (1 : Int))
        .ok sum
      else realPart rest
    return .real (if isNegative text then x.neg else x)

/-- A truth value. -/
def boolValue (text : List Char) : Except Fault Value :=
  match boolWords.lookup (String.ofList (text.map asciiLower)) with
  | some b => .ok (.bool b)
  | none => .error .key

/-- A number of digits at the beginning of a text, and the rest of it. -/
def takeNumber (least most : Nat) (text : List Char) : Option (Nat × List Char) :=
  (dropDigits? least most text).map fun rest =>
    (Numeral.digitsValue (text.take (text.length - rest.length)), rest)

/-- The offset of a zone in seconds; a text without a zone has none. -/
def zoneOffset (text : List Char) : Option (Option Int) :=
  match text.dropWhile fun c => c == ' ' || c == '\t' with
  | [] => if text.isEmpty then some none else none
  | ['Z'] => some (some 0)
  | sign :: rest => do
    let (hours, rest) ← takeNumber 1 2 rest
    let minutes ← match rest with
      | [] => some 0
      | ':' :: minutes => do
        let (minutes, rest) ← takeNumber 2 2 minutes
        if rest.isEmpty then some minutes else none
      | _ => none
    let seconds : Int := ((hours * 60 + minutes) * 60 : Nat)
    if sign = '-' then some (some (-seconds))
    else if sign = '+' then some (some seconds) else none

/-- The parts of a day and what follows it. -/
def dayParts (text : List Char) : Option (Day × List Char) := do
  let (year, rest) ← takeNumber 4 4 text
  let rest ← dropChar? '-' rest
  let (month, rest) ← takeNumber 1 2 rest
  let rest ← dropChar? '-' rest
  let (day, rest) ← takeNumber 1 2 rest
  return (⟨year, month, day⟩, rest)

/-- The parts of a time of day and what follows it. -/
def timeParts (text : List Char) : Option (TimeOfDay × List Char) := do
  let (hour, rest) ← takeNumber 1 2 text
  let rest ← dropChar? ':' rest
  let (minute, rest) ← takeNumber 2 2 rest
  let rest ← dropChar? ':' rest
  let (second, rest) ← takeNumber 2 2 rest
  match rest with
  | '.' :: rest =>
    let fraction := rest.takeWhile isAsciiDigit
    let digits := (fraction ++ List.replicate 6 '0').take 6
    return (⟨hour, minute, second, Numeral.digitsValue digits⟩, rest.dropWhile isAsciiDigit)
  | _ => return (⟨hour, minute, second, 0⟩, rest)

/-- A day or a moment. -/
def momentValue (text : List Char) : Except Fault Value :=
  let parts : Option (Day × Option (TimeOfDay × Option Int)) := do
    let (day, rest) ← dayParts text
    if rest.isEmpty then return (day, none)
    else
      let (time, rest) ← timeParts (← dropDaySeparator? rest)
      return (day, some (time, ← zoneOffset rest))
  match parts with
  | none => .error .noAttribute
  | some (day, none) => if day.isValid then .ok (.atom (.day day)) else .error .value
  | some (day, some (time, offset)) =>
    let m : Moment := ⟨day, time, offset⟩
    if m.isValid && (offset.map Int.natAbs).getD 0 < 86400 then .ok (.atom (.moment m))
    else .error .value

/-- Bytes in base64. -/
def binaryValue (text : List Char) : Except Fault Value :=
  if text.all fun c => c.toNat < 0x80 then
    match Base64.decodeFrom 0 0 0 text with
    | .ok bytes => .ok (.atom (.bytes bytes))
    | .error _ => .error .yaml
  else .error .yaml

/-- The value of a scalar with a tag. -/
def scalarValue (tag : Tag) (text : List Char) : Except Fault Value :=
  match tag with
  | .null => .ok .null
  | .bool => boolValue text
  | .int => intValue text
  | .float => floatValue text
  | .timestamp => momentValue text
  | .text => .ok (.text (String.ofList text))
  | .binary => binaryValue text
  | _ => .error .yaml

namespace Graph

/-- The text of a node that has to be a scalar; a mapping with a value key stands for the value
under it. -/
def scalarText (g : Graph) : (depth : Nat) → Nat → Except Fault (List Char)
  | 0, _ => .error .recursion
  | depth + 1, n =>
    match (g.node n).content with
    | .scalar text => .ok text
    | .mapping entries =>
      match entries.find? fun entry => (g.node entry.1).tag == .value with
      | some (_, value) => g.scalarText depth value
      | none => .error .yaml
    | .sequence _ => .error .yaml

/-- The entries of a mapping, those of merged mappings first. A mapping that is merged into itself
adds the entries that it has without merging; `path` holds the mappings on the way. -/
def mergedEntries (g : Graph) : (depth : Nat) → (path : List Nat) → Nat →
    Except Fault (List (Nat × Nat))
  | 0, _, _ => .error .recursion
  | depth + 1, path, n =>
    match (g.node n).content with
    | .mapping entries => do
      let isMerge := fun (entry : Nat × Nat) => (g.node entry.1).tag == .merge
      let own := entries.filter fun entry => !isMerge entry
      if path.contains n then return own
      let merged ← (entries.filter isMerge).mapM fun entry =>
        match (g.node entry.2).content with
        | .mapping _ => g.mergedEntries depth (n :: path) entry.2
        | .sequence items => do
          let parts ← items.mapM fun item =>
            match (g.node item).content with
            | .mapping _ => g.mergedEntries depth (n :: path) item
            | _ => .error .yaml
          return parts.reverse.flatten
        | .scalar _ => .error .yaml
      return merged.flatten ++ own
    | _ => .error .yaml

/-- The entries of a mapping as its value has them. -/
def entriesOf (g : Graph) (n : Nat) : Except Fault (List (Nat × Nat)) :=
  g.mergedEntries (g.nodes.size + 1) [] n

/-- The items of a sequence. -/
def itemsOf (g : Graph) (n : Nat) : Except Fault (List Nat) :=
  match (g.node n).content with
  | .sequence items => .ok items
  | _ => .error .yaml

/-- The entry of a mapping that has only one. -/
def singleEntry (g : Graph) (n : Nat) : Except Fault (Nat × Nat) :=
  match (g.node n).content with
  | .mapping [entry] => .ok entry
  | _ => .error .yaml

end Graph

/-- The values of a document that is being built. -/
structure Building where
  /-- The values of the nodes that are made so far. -/
  made : Array (Option Value)
  /-- The nodes whose containers are still empty, with the places of these, in order. -/
  waiting : List (Nat × Nat)

/-- A step of building values. -/
abbrev Build := StateT Building Task

namespace Build

/-- The container that a tag asks for, still empty. -/
def container? : Tag → Option Cell
  | .sequence | .ordered | .pairs => some (.list [])
  | .mapping => some (.map [])
  | .set => some (.set [])
  | _ => none

/-- Remembers the value of a node. -/
def remember (n : Nat) (value : Value) : Build Unit :=
  modify fun b => { b with made := b.made.setIfInBounds n (some value) }

/-- The value of a node. A container is filled later. -/
def value (g : Graph) (n : Nat) : Build Value := do
  match (← get).made.getD n none with
  | some made => return made
  | none =>
    let tag := (g.node n).tag
    match container? tag with
    | some content => do
      let place := (← Script.store).cells.size
      let made ← Script.newCell content
      remember n made
      modify fun b => { b with waiting := b.waiting ++ [(n, place)] }
      return made
    | none => do
      let text ← Script.ofExcept (g.scalarText (g.nodes.size + 1) n)
      let made ← Script.ofExcept (scalarValue tag text)
      remember n made
      return made

/-- The value of a key. No container can be one, and a key under the value tag is a text. -/
def key (g : Graph) (n : Nat) : Build Value := do
  let node := g.node n
  if (container? node.tag).isSome then Script.fail .yaml
  match node.tag, node.content with
  | .value, .scalar text => return .text (String.ofList text)
  | _, _ => value g n

/-- The values of entries; of several with one key the first place and the last value. -/
def entries (g : Graph) (numbers : List (Nat × Nat)) : Build (List (Value × Value)) :=
  numbers.foldlM (fun made entry => do
    let name ← key g entry.1
    let item ← value g entry.2
    return putEntry (← Script.store).same name item made) []

/-- Fills the container of a node. -/
def fill (g : Graph) (n place : Nat) : Build Unit := do
  match (g.node n).tag with
  | .sequence => do
    let items ← (← Script.ofExcept (g.itemsOf n)).mapM (value g)
    Script.setCell place (.list items)
  | .mapping => do
    let made ← entries g (← Script.ofExcept (g.entriesOf n))
    Script.setCell place (.map made)
  | .set => do
    let made ← entries g (← Script.ofExcept (g.entriesOf n))
    Script.setCell place (.set (made.map Prod.fst))
  | _ => do
    let pairs ← (← Script.ofExcept (g.itemsOf n)).mapM fun item => do
      let entry ← Script.ofExcept (g.singleEntry item)
      return Value.tuple [← value g entry.1, ← value g entry.2]
    Script.setCell place (.list pairs)

/-- Fills the containers that wait, in order; `count` bounds their number. -/
def fillAll (g : Graph) : (count : Nat) → Build Unit
  | 0 => return
  | count + 1 => do
    match (← get).waiting with
    | [] => return
    | (n, place) :: rest => do
      modify fun b => { b with waiting := rest }
      fill g n place
      fillAll g count

/-- The value of the document of a graph. -/
def document (g : Graph) : Build Value := do
  let root ← value g g.root
  fillAll g (g.nodes.size + 1)
  return root

end Build

/-- The value of the document of a text; a text without a document is null. -/
def read (text : List Char) : Task Value := do
  match ← Script.ofExcept (Graph.ofText? text) with
  | none => return .null
  | some g => return (← (Build.document g).run ⟨Array.replicate g.nodes.size none, []⟩).1

end ResourceScript.Yaml

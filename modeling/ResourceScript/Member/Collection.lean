import ResourceScript.Member.Argument
/-!
# Members of collections

What scripts can ask of lists, tuples, maps and sets. Lists, maps and sets change in place, and the
views of a map change with it.
-/

set_option autoImplicit false

namespace ResourceScript.Member

open Text

/-! ### The order of items -/

/-- Whether a value comes before another of the same sort; values of different sorts have no
order. -/
def precedes : (depth : Nat) → Value → Value → Task Bool
  | 0, _, _ => Script.fail .recursion
  | depth + 1, a, b => do
    match a.number?, b.number? with
    | some x, some y =>
      match x, y with
      | .int n, .int m => return n < m
      | .int n, .real y => return y.compareInt n == some .gt
      | .real x, .int m => return x.compareInt m == some .lt
      | .real x, .real y => return x.less y
    | _, _ =>
      match a, b with
      | .text s, .text t => return Data.orderChars s.toList t.toList == .lt
      | .atom (.bytes d), .atom (.bytes e) =>
        return Data.orderChars (d.map fun b => Char.ofNat b.toNat)
          (e.map fun b => Char.ofNat b.toNat) == .lt
      | .atom (.moment m), .atom (.moment n) => return (← Script.ofExcept (m.order n)) == .lt
      | .atom (.day d), .atom (.day e) => return d.number < e.number
      | .tuple items, .tuple others => itemsPrecede (precedes depth) items others
      | .cell n, .cell m =>
        match ← Script.cell n, ← Script.cell m with
        | .list items, .list others => itemsPrecede (precedes depth) items others
        | _, _ => Script.fail .type
      | _, _ => Script.fail .type
where
  /-- Whether a sequence comes before another: the first items that differ decide, then the
  lengths. -/
  itemsPrecede (before : Value → Value → Task Bool) : List Value → List Value → Task Bool
    | _, [] => return false
    | [], _ :: _ => return true
    | item :: rest, other :: others => do
      if (← Script.store).same item other then itemsPrecede before rest others
      else before item other

/-- The run at the front of a list and what follows it: while each value comes before the last one
the run grows downward from `run`, in its final order. -/
def fallingRun (depth : Nat) : (run rest : List Value) → Task (List Value × List Value)
  | last :: run, value :: rest => do
    if ← precedes depth value last then fallingRun depth (value :: last :: run) rest
    else return (last :: run, value :: rest)
  | run, rest => return (run, rest)

/-- The run at the front of a list and what follows it: while no value comes before the last one the
run grows upward; `run` holds it in reverse. -/
def risingRun (depth : Nat) : (run rest : List Value) → Task (List Value × List Value)
  | last :: run, value :: rest => do
    if ← precedes depth value last then return ((last :: run).reverse, value :: rest)
    else risingRun depth (value :: last :: run) rest
  | run, rest => return (run.reverse, rest)

/-- The ordered run at the front of a list, and what follows it. -/
def firstRun (depth : Nat) : List Value → Task (List Value × List Value)
  | first :: second :: rest => do
    if ← precedes depth second first then fallingRun depth [second, first] rest
    else risingRun depth [second, first] rest
  | values => return (values, [])

/-- The position between `low` and `high` at which a value goes into an ordered run: behind the
values that it does not come before, found by bisection. -/
def insertPosition (depth : Nat) (run : Array Value) (value : Value) :
    (fuel low high : Nat) → Task Nat
  | 0, low, _ => return low
  | fuel + 1, low, high => do
    if high ≤ low then return low
    let middle := low + (high - low) / 2
    if ← precedes depth value (run.getD middle .null) then
      insertPosition depth run value fuel low middle
    else insertPosition depth run value fuel (middle + 1) high

/-- Puts values into an ordered run one after the other. The second part of the answer holds what is
left when two values have no order. -/
def insertAll (depth : Nat) (run : Array Value) : List Value → Task (Array Value × List Value)
  | [] => return (run, [])
  | value :: rest => do
    let position ← tryCatch (some <$> insertPosition depth run value (run.size + 1) 0 run.size)
      fun _ => return none
    match position with
    | some position => insertAll depth (run.insertIdxIfInBounds position value) rest
    | none => return (run, value :: rest)

/-! ### Lists and tuples -/

/-- The position of a value between bounds. -/
def indexOf (items : List Value) (arguments : List Value) : Task Value := do
  let value := argument arguments 0
  let start ← optional integer arguments 1
  let stop ← optional integer arguments 2
  let first := (start.map (clamp items.length)).getD 0
  let last := (stop.map (clamp items.length)).getD items.length
  let s ← Script.store
  match ((items.take last).drop first).findIdx? (s.same value) with
  | some i => return .int (first + i)
  | none => Script.fail .value

/-- The number of items that equal a value. -/
def countOf (items : List Value) (arguments : List Value) : Task Value := do
  let s ← Script.store
  return .int (items.filter (s.same (argument arguments 0))).length

/-- The members of a tuple. -/
def tupleMember? (items : List Value) (name : String) : Option Overload :=
  match name with
  | "count" => some (declared 1 1 (countOf items))
  | "index" => some (declared 1 3 (indexOf items))
  | _ => none

/-- Does something with the items that a list has at the time of a call. -/
def onList (n : Nat) (run : List Value → List Value → Task Value) (arguments : List Value) :
    Task Value := do
  match ← Script.cell n with
  | .list items => run items arguments
  | _ => Script.fail .type

/-- Replaces the items of a list. -/
def setItems (n : Nat) (items : List Value) : Task Value := do
  Script.setCell n (.list items)
  return .null

/-- Takes an item out of a list. -/
def popItem (n : Nat) (items : List Value) (arguments : List Value) : Task Value := do
  let position := (← optional size arguments 0).getD (-1)
  let index := if position < 0 then position + items.length else position
  match if index < 0 then none else items[index.toNat]? with
  | some value => do
    discard (setItems n (items.eraseIdx index.toNat))
    return value
  | none => Script.fail .index

/-- The number of lists in lists through which items are ordered. -/
def sortDepth : Nat := 1000

/-- Orders the items of a list; equal ones stay in theirs. When two of them have no order, those
that have found their places keep them. -/
def sortItems (n : Nat) (items : List Value) : Task Value := do
  let (run, rest) ← firstRun sortDepth items
  let (placed, rest) ← insertAll sortDepth run.toArray rest
  Script.setCell n (.list (placed.toList ++ rest))
  if rest.isEmpty then return .null else Script.fail .type

/-- The members of the list at a place of the store. -/
def listMember? (n : Nat) (name : String) : Option Overload :=
  match name with
  | "append" => some (declared 1 1 (onList n fun items arguments =>
      setItems n (items ++ [argument arguments 0])))
  | "extend" => some (declared 1 1 (onList n fun items arguments => do
      setItems n (items ++ (← iterated (argument arguments 0)))))
  | "insert" => some (declared 2 2 (onList n fun items arguments => do
      let position := clamp items.length (← size (argument arguments 0))
      setItems n (items.take position ++ argument arguments 1 :: items.drop position)))
  | "pop" => some (declared 0 1 (onList n (popItem n)))
  | "remove" => some (declared 1 1 (onList n fun items arguments => do
      let s ← Script.store
      match items.findIdx? (s.same (argument arguments 0)) with
      | some i => setItems n (items.eraseIdx i)
      | none => Script.fail .value))
  | "clear" => some (declared 0 0 (onList n fun _ _ => setItems n []))
  | "index" => some (declared 1 3 (onList n indexOf))
  | "count" => some (declared 1 1 (onList n countOf))
  | "sort" => some (declared 0 0 (onList n fun items _ => sortItems n items))
  | "reverse" => some (declared 0 0 (onList n fun items _ => setItems n items.reverse))
  | "copy" => some (declared 0 0 (onList n fun items _ => Script.newList items))
  | _ => none

/-! ### Maps -/

/-- The value under a key. -/
def entryOf (entries : List (Value × Value)) (key : Value) : Task (Option Value) := do
  Script.requireKey key
  return findEntry (← Script.store).same key entries

/-- A key and a value from a sequence of two. -/
def pairOf (value : Value) : Task (Value × Value) := do
  match ← iterated value with
  | [key, item] => do
    Script.requireKey key
    return (key, item)
  | _ => Script.fail .value

/-- Does something with the entries that a map has at the time of a call; `restore` makes its content
from entries. -/
def onMap (n : Nat)
    (run : (List (Value × Value) → Task Unit) → List (Value × Value) → List Value → Task Value)
    (arguments : List Value) : Task Value := do
  match ← Script.cell n with
  | .map entries => run (fun entries => Script.setCell n (.map entries)) entries arguments
  | .page entries source =>
    run (fun entries => Script.setCell n (.page entries source)) entries arguments
  | _ => Script.fail .type

/-- Adds the entries of a map, or pairs, to entries. -/
def addEntries (entries : List (Value × Value)) (source : Value) : Task (List (Value × Value)) := do
  let added ← match (← Script.store).entries? source with
    | some added => pure added
    | none => do (← iterated source).mapM pairOf
  let s ← Script.store
  return added.foldl (fun map entry => putEntry s.same entry.1 entry.2 map) entries

/-- The members of the map at a place of the store. -/
def mapMember? (n : Nat) (name : String) : Option Overload :=
  match name with
  | "get" => some (declared 1 2 (onMap n fun _ entries arguments => do
      return (← entryOf entries (argument arguments 0)).getD (argument arguments 1)))
  | "setdefault" => some (declared 1 2 (onMap n fun restore entries arguments => do
      match ← entryOf entries (argument arguments 0) with
      | some value => return value
      | none => do
        restore (entries ++ [(argument arguments 0, argument arguments 1)])
        return argument arguments 1))
  | "pop" => some (checked 1 2 (onMap n fun restore entries arguments => do
      match ← entryOf entries (argument arguments 0), arguments[1]? with
      | some value, _ => do
        restore (dropEntry (← Script.store).same (argument arguments 0) entries)
        return value
      | none, some missing => return missing
      | none, none => missingKey (argument arguments 0)))
  | "popitem" => some (declared 0 0 (onMap n fun restore entries _ => do
      match entries.getLast? with
      | some (key, value) => do
        restore entries.dropLast
        return .tuple [key, value]
      | none => Script.fail .key))
  | "fromkeys" => some (declared 1 2 fun arguments => do
      let keys ← iterated (argument arguments 0)
      keys.forM Script.requireKey
      let s ← Script.store
      let entries := mapOfEntries s.same (keys.map fun key => (key, argument arguments 1))
      match ← Script.cell n with
      | .page .. => Script.newCell (.page entries none)
      | _ => Script.newMap entries)
  | "copy" => some (checked 0 0 (onMap n fun _ entries _ => Script.newMap entries))
  | "clear" => some (checked 0 0 (onMap n fun restore _ _ => do
      restore []
      return .null))
  | "keys" => some (checked 0 0 fun _ => Script.newCell (.side .keys n))
  | "values" => some (checked 0 0 fun _ => Script.newCell (.side .values n))
  | "items" => some (checked 0 0 fun _ => Script.newCell (.side .items n))
  | "update" => some (checked 0 1 (onMap n fun restore entries arguments => do
      match arguments with
      | [] => return .null
      | source :: _ => do
        restore (← addEntries entries source)
        return .null))
  | _ => none

/-! ### Sets -/

/-- The items that a set is combined with or compared to; each has to be fit for a set. -/
def setArgument (value : Value) : Task (List Value) := do
  let items ← iterated value
  items.forM Script.requireKey
  return items

/-- The items of which others have an equal one. -/
def itemsAmong (s : Store) (items others : List Value) : List Value :=
  items.filter fun item => others.any (s.same item)

/-- The items of which others have no equal one. -/
def itemsBeyond (s : Store) (items others : List Value) : List Value :=
  items.filter fun item => !others.any (s.same item)

/-- The operations that combine the items of a set with others, by name. -/
def setOperation? (name : String) : Option (Store → List Value → List Value → List Value) :=
  match name with
  | "union" => some fun s items others => others.foldl s.addItem items
  | "intersection" => some itemsAmong
  | "difference" => some itemsBeyond
  | _ => none

/-- The items of which exactly one of two sets has an equal one. -/
def itemsApart (s : Store) (items others : List Value) : List Value :=
  itemsBeyond s items others ++ itemsBeyond s (others.foldl s.addItem []) items

/-- The operations by which a set changes in place, by name. -/
def setUpdate? (name : String) : Option (Store → List Value → List Value → List Value) :=
  match name with
  | "update" => setOperation? "union"
  | "intersection_update" => setOperation? "intersection"
  | "difference_update" => setOperation? "difference"
  | _ => none

/-- A member that combines a set with others one after the other; `make` has the use of the items
that come of it. -/
def combining (operation : Store → List Value → List Value → List Value)
    (make : List Value → Task Value) (items arguments : List Value) : Task Value := do
  let others ← arguments.mapM setArgument
  let s ← Script.store
  make (others.foldl (operation s) items)

/-- Whether a set has none of the items of an argument. These are looked at one after the other. -/
def isApart (items : List Value) : List Value → Task Bool
  | [] => return true
  | item :: rest => do
    Script.requireKey item
    if items.any ((← Script.store).same item) then return false else isApart items rest

/-- The comparisons of a set with another one, by name. -/
def setTest? (name : String) : Option (Store → (items others : List Value) → Bool) :=
  match name with
  | "issubset" => some fun s items others => (itemsBeyond s items others).isEmpty
  | "issuperset" => some fun s items others => (itemsBeyond s others items).isEmpty
  | _ => none

/-- The members that sets and immutable sets share. `onItems` gives a member the items that the set
has at the time of a call, and `make` makes a set of the same sort. -/
def anySetMember? (onItems : (List Value → List Value → Task Value) → List Value → Task Value)
    (make : List Value → Task Value) (name : String) : Option Overload :=
  match setOperation? name, setTest? name with
  | some operation, _ => some ⟨none, onItems (combining operation make)⟩
  | none, some test => some (declared 1 1 (onItems fun items arguments => do
      let others ← setArgument (argument arguments 0)
      return .bool (test (← Script.store) items others)))
  | none, none =>
    match name with
    | "isdisjoint" => some (checked 1 1 (onItems fun items arguments => do
        return .bool (← isApart items (← iterated (argument arguments 0)))))
    | "symmetric_difference" => some (checked 1 1 (onItems (combining itemsApart make)))
    | "copy" => some (checked 0 0 (onItems fun items _ => make items))
    | _ => none

/-- The members of an immutable set. -/
def frozenMember? (items : List Value) (name : String) : Option Overload :=
  anySetMember? (fun run => run items) (fun items => pure (.frozen items)) name

/-- Does something with the items that a set has at the time of a call. -/
def onSet (n : Nat) (run : List Value → List Value → Task Value) (arguments : List Value) :
    Task Value := do
  match ← Script.cell n with
  | .set items => run items arguments
  | _ => Script.fail .type

/-- Replaces the items of a set. -/
def setMembers (n : Nat) (items : List Value) : Task Value := do
  Script.setCell n (.set items)
  return .null

/-- Refuses a value that cannot be in a set. A set itself is looked for as an immutable one. -/
def requireItem (value : Value) : Task Unit := do
  if (← Script.store).kindOf value = .set then return
  Script.requireKey value

/-- Takes an item out of a set, and does something else when the set does not have it. -/
def takeItem (n : Nat) (missing : Value → Task Value) (items arguments : List Value) :
    Task Value := do
  let item := argument arguments 0
  requireItem item
  let s ← Script.store
  if items.any (s.same item) then setMembers n (items.filter fun other => !s.same item other)
  else missing item

/-- The members by which a set changes in place. -/
def setChange? (n : Nat) (name : String) : Option Overload :=
  match setUpdate? name with
  | some operation => some ⟨none, onSet n (combining operation (setMembers n))⟩
  | none =>
    match name with
    | "symmetric_difference_update" =>
      some (checked 1 1 (onSet n (combining itemsApart (setMembers n))))
    | "add" => some (checked 1 1 (onSet n fun items arguments => do
        Script.requireKey (argument arguments 0)
        setMembers n ((← Script.store).addItem items (argument arguments 0))))
    | "clear" => some (checked 0 0 (onSet n fun _ _ => setMembers n []))
    | "remove" => some (checked 1 1 (onSet n (takeItem n missingKey)))
    | "discard" => some (checked 1 1 (onSet n (takeItem n fun _ => return .null)))
    | "pop" => some (checked 0 0 (onSet n fun items _ => do
        match items with
        | [] => Script.fail .key
        | item :: rest => do
          discard (setMembers n rest)
          return item))
    | _ => none

/-- The members of the set at a place of the store. -/
def setMember? (n : Nat) (name : String) : Option Overload :=
  match setChange? n name with
  | some o => some o
  | none => anySetMember? (onSet n) (fun items => Script.newCell (.set items)) name

end ResourceScript.Member

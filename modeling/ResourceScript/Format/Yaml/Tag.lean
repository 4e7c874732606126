import ResourceScript.Text.Space
/-!
# Tags of plain scalars

A YAML scalar that is written plainly has a tag by its form: truth values, numbers, null, moments,
the merge key and the value key; any other form is text.
-/

set_option autoImplicit false

namespace ResourceScript.Yaml

open Text

/-- A tag of a node. -/
inductive Tag where
  | null | bool | int | float | timestamp | text | binary
  | sequence | mapping | set | ordered | pairs
  | merge | value | indicator
  /-- A tag without a meaning here. -/
  | other (name : String)
  deriving DecidableEq, Repr, Inhabited

namespace Tag

/-- The beginning of the names of all tags that have a meaning. -/
def home : String := "tag:yaml.org,2002:"

/-- The tags with their short names. -/
def shortNames : List (String × Tag) :=
  [("null", null), ("bool", bool), ("int", int), ("float", float), ("timestamp", timestamp),
    ("str", text), ("binary", binary), ("seq", sequence), ("map", mapping), ("set", set),
    ("omap", ordered), ("pairs", pairs), ("merge", merge), ("value", value), ("yaml", indicator)]

/-- The tag of a full name. -/
def ofName (name : String) : Tag :=
  match (afterStart home.toList name.toList).bind fun short =>
    shortNames.lookup (String.ofList short) with
  | some tag => tag
  | none => other name

/-- A tag as it is written in front of a node. -/
def written (tag : Tag) : String :=
  match shortNames.find? fun entry => entry.2 == tag with
  | some (short, _) => "!!" ++ short
  | none =>
    match tag with
    | other name => "!<" ++ name ++ ">"
    | _ => "!"

end Tag

/-! ### Forms of plain scalars -/

/-- The words for truth values. -/
def boolWords : List (String × Bool) :=
  [("yes", true), ("Yes", true), ("YES", true), ("no", false), ("No", false), ("NO", false),
    ("true", true), ("True", true), ("TRUE", true), ("false", false), ("False", false),
    ("FALSE", false), ("on", true), ("On", true), ("ON", true), ("off", false), ("Off", false),
    ("OFF", false)]

/-- A text without one sign at its beginning. -/
def unsigned (text : List Char) : List Char :=
  match text with
  | '-' :: rest => rest
  | '+' :: rest => rest
  | _ => text

/-- Digits and low lines. -/
def isLoose (digit : Char → Bool) (c : Char) : Bool :=
  digit c || c == '_'

/-- The exponent of a real: nothing, or a mark, a sign and digits. -/
def isExponent (text : List Char) : Bool :=
  match text with
  | [] => true
  | mark :: sign :: digits =>
    (mark == 'e' || mark == 'E') && (sign == '-' || sign == '+') && !digits.isEmpty
      && digits.all isAsciiDigit
  | _ => false

/-- Whether a part between colons is below sixty: one digit, or two the first of which is at most
five. -/
def isSexagesimal (part : List Char) : Bool :=
  match part with
  | [a] => isAsciiDigit a
  | [a, b] => '0' ≤ a && a ≤ '5' && isAsciiDigit b
  | _ => false

/-- Whether a text is a digit other than zero, or one at all when `zero`, before digits and low
lines. -/
def isLooseNumber (zero : Bool) (text : List Char) : Bool :=
  match text with
  | [] => false
  | c :: rest => isAsciiDigit c && (zero || c != '0') && rest.all (isLoose isAsciiDigit)

/-- Whether a text is an integer: binary, octal, decimal, hexadecimal or to the base of sixty. -/
def isInt (text : List Char) : Bool :=
  match unsigned text with
  | '0' :: 'b' :: digits => !digits.isEmpty && digits.all (isLoose fun c => c == '0' || c == '1')
  | '0' :: 'x' :: digits =>
    !digits.isEmpty && digits.all (isLoose fun c =>
      isAsciiDigit c || ('a' ≤ c && c ≤ 'f') || ('A' ≤ c && c ≤ 'F'))
  | '0' :: digits => digits.all (isLoose fun c => '0' ≤ c && c ≤ '7')
  | digits =>
    match splitOn ':' digits with
    | [] => false
    | first :: rest => isLooseNumber false first && rest.all isSexagesimal

/-- Whether a text is a real with a point, perhaps to the base of sixty. -/
def isPointed (text : List Char) : Bool :=
  match cutAt '.' text with
  | none => false
  | some (whole, fraction) =>
    if whole.isEmpty then
      match fraction with
      | [] => false
      | c :: _ =>
        isAsciiDigit c && isExponent (fraction.dropWhile (isLoose isAsciiDigit))
    else if whole.contains ':' then
      match splitOn ':' whole with
      | [] => false
      | first :: rest =>
        isLooseNumber true first && rest.all isSexagesimal
          && fraction.all (isLoose isAsciiDigit)
    else
      isLooseNumber true whole && isExponent (fraction.dropWhile (isLoose isAsciiDigit))

/-- Whether a text is a real. -/
def isFloat (text : List Char) : Bool :=
  (if text.head? = some '.' then isPointed text
    else isPointed (unsigned text) && (unsigned text).head? != some '.')
    || [".inf", ".Inf", ".INF"].contains (String.ofList (unsigned text))
    || [".nan", ".NaN", ".NAN"].contains (String.ofList text)

/-- Drops a run of digits of a length between two bounds. -/
def dropDigits? (least most : Nat) (text : List Char) : Option (List Char) :=
  let run := (text.takeWhile isAsciiDigit).take most
  if run.length < least then none else some (text.drop run.length)

/-- The text after a given character. -/
def dropChar? (c : Char) : List Char → Option (List Char)
  | d :: rest => if d = c then some rest else none
  | [] => none

/-- Whether a text is nothing or a zone: a letter, or a sign, hours and perhaps minutes. -/
def isZone (text : List Char) : Bool :=
  match text.dropWhile fun c => c == ' ' || c == '\t' with
  | [] => text.isEmpty
  | ['Z'] => true
  | sign :: rest =>
    (sign == '-' || sign == '+') &&
      (match dropDigits? 1 2 rest with
        | some [] => true
        | some (':' :: minutes) => dropDigits? 2 2 minutes == some []
        | _ => false)

/-- Whether a text is a time of day, perhaps with a fraction of a second and a zone. -/
def isClock (text : List Char) : Bool :=
  ((do
    let rest ← dropDigits? 1 2 text
    let rest ← dropChar? ':' rest
    let rest ← dropDigits? 2 2 rest
    let rest ← dropChar? ':' rest
    let rest ← dropDigits? 2 2 rest
    return isZone (match rest with
      | '.' :: fraction => fraction.dropWhile isAsciiDigit
      | _ => rest)) : Option Bool).getD false

/-- A text behind the separator between a day and a time. -/
def dropDaySeparator? (text : List Char) : Option (List Char) :=
  match text with
  | c :: rest =>
    if c = 'T' ∨ c = 't' then some rest
    else if c = ' ' ∨ c = '\t' then some (rest.dropWhile fun c => c == ' ' || c == '\t')
    else none
  | [] => none

/-- Whether a text is a day, or a day and a time. -/
def isTimestamp (text : List Char) : Bool :=
  ((do
    let rest ← dropDigits? 4 4 text
    let rest ← dropChar? '-' rest
    let afterMonth ← dropDigits? 1 2 rest
    let rest ← dropChar? '-' afterMonth
    let afterDay ← dropDigits? 1 2 rest
    if afterDay.isEmpty then return text.length == 10
    else return isClock (← dropDaySeparator? afterDay)) : Option Bool).getD false

/-- The tag of a plain scalar by its form. -/
def Tag.ofPlain (text : List Char) : Tag :=
  let word := String.ofList text
  if (boolWords.lookup word).isSome then .bool
  else if isFloat text then .float
  else if isInt text then .int
  else if word = "<<" then .merge
  else if ["", "~", "null", "Null", "NULL"].contains word then .null
  else if isTimestamp text then .timestamp
  else if word = "=" then .value
  else if ["!", "&", "*"].contains word then .indicator
  else .text

end ResourceScript.Yaml

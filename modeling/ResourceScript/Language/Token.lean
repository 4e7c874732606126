import ResourceScript.Files
import ResourceScript.Language.Compiler
import ResourceScript.Language.Lexeme
/-!
# Tokens

A word denotes a keyword's value, a registered function, a number, a moment, a resource or, when it
is none of these, its own text. A literal denotes the text between its quotes.
-/

set_option autoImplicit false

namespace ResourceScript

open Text

namespace Token

/-- A number of digits between two bounds at the beginning of a text: the rest of the text after the
longest such run. -/
def digits? (least most : Nat) (text : List Char) : Option (List Char) :=
  let run := (text.takeWhile isDecimalDigit).take most
  if run.length < least then none else some (text.drop run.length)

/-- Whether a text is nothing or a fraction of a second. -/
def isFraction (text : List Char) : Bool :=
  match text with
  | [] => true
  | '.' :: rest => !rest.isEmpty && rest.all isDecimalDigit
  | _ => false

/-- Whether a text is a time of day: hours and minutes, and perhaps seconds with a fraction. -/
def isTime (text : List Char) : Bool :=
  match digits? 1 2 text with
  | some (':' :: rest) =>
    match digits? 1 2 rest with
    | some (':' :: rest) => ((digits? 1 2 rest).map isFraction).getD false
    | some rest => rest.isEmpty
    | none => false
  | _ => false

/-- Whether a text is nothing or a time of day behind a separator. -/
def isTimePart (text : List Char) : Bool :=
  match text with
  | [] => true
  | c :: rest => Moment.isSeparator c && isTime rest

/-- Whether a text is a date, perhaps with a time of day. -/
def isDate (text : List Char) : Bool :=
  match digits? 1 4 text with
  | some ('-' :: rest) =>
    match digits? 1 2 rest with
    | some ('-' :: rest) => ((digits? 1 2 rest).map isTimePart).getD false
    | some rest => isTimePart rest
    | none => false
  | _ => false

/-- Whether a word has the form of a moment. One line feed at the end is not seen. -/
def isMoment (text : List Char) : Bool :=
  let seen := Numeral.dropFinalLineFeed text
  isDate seen || isTime seen

/-- The value of a keyword. -/
def keyword? (word : String) : Option Value :=
  if word = "true" then some (.bool true)
  else if word = "false" then some (.bool false)
  else if word = "null" then some .null
  else none

end Token

namespace Compiler

/-- The resource that a word denotes, if it denotes a location. It gets its number when the source
text is loaded. -/
def resourceOfWord? (word : String) : Compiler (Option ResourceRef) := do
  let uri ← ofExcept (Location.ofText? (← surroundings).directories word.toList)
  return uri.map (.written 0 word)

/-- The moment that a word of the form of a moment denotes. -/
def momentOfWord (word : String) : Compiler (Option Moment) := do
  if Token.isMoment word.toList then ofExcept ((Data.text word).toMoment (← surroundings).now)
  else return none

/-- What a word denotes. -/
def evalWord (word : String) : Compiler Value := do
  match Token.keyword? word with
  | some value => return value
  | none =>
    match ← find word with
    | some f => return .function f
    | none =>
      match ← ofExcept (Numeral.read word.toList) with
      | some number => return .ofNumber number
      | none =>
        match ← momentOfWord word with
        | some m => return .atom (.moment m)
        | none =>
          match ← resourceOfWord? word with
          | some r => return .resource r
          | none => return .text word

section

variable {s : Surroundings} {word : String}

theorem evalWord_keyword {value : Value} (hword : Token.keyword? word = some value) :
    (evalWord word).Yields s value := by
  simp only [evalWord, hword, yields_pure]

theorem evalWord_name {f : Function} (hword : Token.keyword? word = none)
    (hf : s.find word = some f) : (evalWord word).Yields s (.function f) := by
  simp only [evalWord, hword, yields_bind, yields_find]
  exact ⟨_, hf, (yields_pure _ _).2 rfl⟩

theorem evalWord_number {number : Number} (hword : Token.keyword? word = none)
    (hf : s.find word = none) (hnumber : Numeral.read word.toList = .ok (some number)) :
    (evalWord word).Yields s (.ofNumber number) := by
  simp only [evalWord, hword, yields_bind, yields_find]
  exact ⟨none, hf, (yields_bind _ _ _).2 ⟨some number, hnumber, (yields_pure _ _).2 rfl⟩⟩

end

/-- What a lexeme of a line denotes, when words denote as given. -/
def evalLexeme (denote : String → Compiler Value) (line : String) : Lexeme → Compiler Value
  | .word text => denote (String.ofList text)
  | .literal body =>
    match Json.readString (body ++ ['"']) with
    | .ok (chars, _) => return .text (String.ofList chars)
    | .error fault =>
      fail (.parse (.badLiteral (String.ofList ('"' :: (body ++ ['"']))) fault.reason))
  | .unclosed => fail (.parse (.missingQuote line))

/-- The tokens of a line, when words denote as given. -/
def tokenizeWith (denote : String → Compiler Value) (line : String) : Compiler (List Value) :=
  (Lexeme.scan line.toList).mapM (evalLexeme denote line)

/-- The tokens of a line. -/
def tokenize (line : String) : Compiler (List Value) :=
  tokenizeWith evalWord line

end Compiler

end ResourceScript

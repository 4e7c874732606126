/-!
# Why an operation fails

Every failure is a cause. The four kinds of the language's own errors carry what their message
needs; the other causes are failures of an operation on plain data and carry nothing. The wording
of a message stands in one function.
-/

set_option autoImplicit false

namespace ResourceScript

/-- What is wrong with source text. -/
inductive ParseFault where
  /-- A literal in the line has no closing quote. -/
  | missingQuote (line : String)
  /-- A quoted literal is no valid string, for the given reason. -/
  | badLiteral (literal reason : String)
  /-- The text of the numbered line closes a bloc, and none that matches is open. -/
  | noOpenBloc (number : Nat) (text : String)
  deriving DecidableEq, Repr

/-- Why a call finds nothing to run. -/
inductive DispatchFault where
  /-- The bloc `each` has no header. -/
  | eachWithoutVariable
  /-- The word `end` is executed. -/
  | strayEnd
  /-- Values of the kind have no such member. -/
  | noMember (kind name : String)
  /-- No overload of the name takes that many arguments. -/
  | noOverload (name : String) (count : Nat)
  /-- The media type has no codec. -/
  | unsupportedMedia (mimetype : String)
  deriving DecidableEq, Repr

/-- Why a value does not become what was asked for. -/
inductive ConversionFault where
  /-- Nothing converts values of a kind to the target. -/
  | noConverter (kind target : String)
  /-- A set is asked of values of a kind, and an element of another kind cannot be in a set. -/
  | unhashable (kind element : String)
  /-- Form data is asked of a value that is no map. -/
  | formNotMap (kind : String)
  /-- XML is asked of a value that is neither a node nor a map. -/
  | xmlNotMap (kind : String)
  /-- HTML with a list of fields is asked for without a separator. -/
  | fieldsWithoutSeparator
  deriving DecidableEq, Repr

/-- Why a scope does not open or close. -/
inductive ScopeFault where
  /-- A root scope exists already. -/
  | alreadyInitialized
  /-- The scope is not the current one; the action names what was refused. -/
  | notCurrent (action : String)
  deriving DecidableEq, Repr

/-- The cause of a failure. -/
inductive Fault where
  /-- Malformed source text. -/
  | parse (cause : ParseFault)
  /-- A call without a function, member or constructor that matches it. -/
  | dispatch (cause : DispatchFault)
  /-- A value that cannot be coerced. -/
  | conversion (cause : ConversionFault)
  /-- A scope opened or closed out of order. -/
  | scope (cause : ScopeFault)
  /-- Malformed YAML. -/
  | yaml
  /-- Malformed XML. -/
  | xml
  /-- Malformed CSV. -/
  | csv
  /-- Malformed base64. -/
  | base64
  /-- Malformed JSON. -/
  | json
  /-- A value of the right kind outside the range of an operation. -/
  | value
  /-- A value of the wrong kind for an operation. -/
  | type
  /-- A number too large for its target. -/
  | overflow
  /-- A key that a map does not have. -/
  | key
  /-- A key that a map does not have, and that has no literal form for a cause. -/
  | unspokenKey (cause : Fault)
  /-- A field or name that is not there. -/
  | noAttribute
  /-- A position outside a sequence. -/
  | index
  /-- Data that contains itself, or calls nested too deeply. -/
  | recursion
  /-- An assertion about a location that does not hold. -/
  | assertion
  /-- A failure at run time of no other sort. -/
  | runtime
  /-- A refusal of the file system. -/
  | file
  /-- A transport failure of an HTTP request. -/
  | transport
  /-- A text that a character encoding cannot represent. -/
  | encoding
  /-- Bytes that are no text of a character encoding. -/
  | decoding
  /-- A name that denotes no character encoding. -/
  | lookup
  /-- A loop goes on for more rounds than are followed. The script has not failed, nor has it
  ended: nothing handles this. -/
  | unfinished
  deriving DecidableEq, Repr

namespace ParseFault

/-- The message of a fault in source text. -/
def message : ParseFault → String
  | missingQuote line => "Missing closing quote in line: " ++ line
  | badLiteral literal reason => "Invalid string literal " ++ literal ++ ": " ++ reason
  | noOpenBloc number text =>
    "line " ++ toString number ++ ": no open bloc to close with '" ++ text ++ "'"

end ParseFault

namespace DispatchFault

/-- The message of a call that finds nothing to run. -/
def message : DispatchFault → String
  | eachWithoutVariable => "each needs a collection and a variable name"
  | strayEnd => "end can only close a bloc"
  | noMember kind name => kind ++ " has no member '" ++ name ++ "'"
  | noOverload name count => "No '" ++ name ++ "' accepts " ++ toString count ++ " argument(s)"
  | unsupportedMedia mimetype => "Unsupported media type: " ++ mimetype

end DispatchFault

namespace ConversionFault

/-- The message of a conversion that is refused. -/
def message : ConversionFault → String
  | noConverter kind target => "No converter found for " ++ kind ++ " to " ++ target
  | unhashable kind element =>
    "Cannot build a set from " ++ kind ++ ": unhashable type: '" ++ element ++ "'"
  | formNotMap kind => "Form data must be a map, got " ++ kind
  | xmlNotMap kind => "XML data must be a DOM node or a map, got " ++ kind
  | fieldsWithoutSeparator => "HTML field rendering requires a separator"

end ConversionFault

namespace ScopeFault

/-- The message of a scope that does not open or close. -/
def message : ScopeFault → String
  | alreadyInitialized => "Context already initialized on this thread"
  | notCurrent action => "Cannot " ++ action ++ ": context is not current on this thread"

end ScopeFault

namespace Fault

/-- The message of one of the language's own errors. -/
def message? : Fault → Option String
  | parse cause => some cause.message
  | dispatch cause => some cause.message
  | conversion cause => some cause.message
  | scope cause => some cause.message
  | _ => none

/-- The name under which a failure is reported. -/
def label : Fault → String
  | parse _ => "ParseError"
  | dispatch _ => "DispatchError"
  | conversion _ => "ConversionError"
  | scope _ => "ContextStateError"
  | yaml => "YAMLError"
  | xml => "ExpatError"
  | csv => "Error"
  | base64 => "Error"
  | json => "JSONDecodeError"
  | value => "ValueError"
  | type => "TypeError"
  | overflow => "OverflowError"
  | key => "KeyError"
  | unspokenKey _ => "KeyError"
  | noAttribute => "AttributeError"
  | index => "IndexError"
  | recursion => "RecursionError"
  | assertion => "AssertionError"
  | runtime => "RuntimeError"
  | file => "OSError"
  | transport => "HTTPError"
  | encoding => "UnicodeEncodeError"
  | decoding => "UnicodeDecodeError"
  | lookup => "LookupError"
  | unfinished => "Unfinished"

/-- How a failed script is reported: the language's own errors with their message, every other
failure by its name. The wording of the interpreter, which follows the name, is left out: it is not
the language's, and whether it can be made is told by `Fault.reported`. -/
def report (fault : Fault) : String :=
  match fault.message? with
  | some message => fault.label ++ ": " ++ message
  | none => "InternalError: " ++ fault.label

/-- The report of a failed script, if it can be made. The message of a missing key is the literal
form of that key, so there is no report when the key has none. A loop that is unfinished has not
failed. -/
def reported : Fault → Except Fault String
  | unspokenKey cause => .error cause
  | unfinished => .error unfinished
  | fault => .ok fault.report

/-- The failures that a resource answers by a failure value instead of passing them on. -/
def isDataFault : Fault → Bool
  | yaml | xml | csv | base64 | json | value | file | transport | encoding | decoding => true
  | _ => false

end Fault

end ResourceScript

import Montage.Decimal.Text
import Montage.Text.Character

/-!
# Why a JSON text cannot be read

A text is **malformed** when it is no JSON at all, and **unfit** when it is
JSON that does not describe the value asked for.  Either way the fault that
counts is the first one met in the order of the text.
-/

namespace Montage

namespace Json

/-- What makes a text malformed. -/
inductive Malformed
  | endInList
  | endInObject
  | endInString
  | endInValue
  | expectedColon
  | expectedListCommaOrEnd
  | expectedObjectCommaOrEnd
  | expectedIdentifier
  | expectedValue
  | invalidEscape
  | invalidNumber
  | numberOutOfRange
  | controlCharacter
  | keyMustBeString
  | loneSurrogate
  | trailingComma
  | trailingCharacters
  | tooDeep
  deriving DecidableEq

/-- The wording of a malformed text. -/
def Malformed.message : Malformed → String
  | .endInList => "EOF while parsing a list"
  | .endInObject => "EOF while parsing an object"
  | .endInString => "EOF while parsing a string"
  | .endInValue => "EOF while parsing a value"
  | .expectedColon => "expected `:`"
  | .expectedListCommaOrEnd => "expected `,` or `]`"
  | .expectedObjectCommaOrEnd => "expected `,` or `\x7d`"
  | .expectedIdentifier => "expected ident"
  | .expectedValue => "expected value"
  | .invalidEscape => "invalid escape"
  | .invalidNumber => "invalid number"
  | .numberOutOfRange => "number out of range"
  | .controlCharacter => "control character (\\u0000-\\u001F) found while parsing a string"
  | .keyMustBeString => "key must be a string"
  | .loneSurrogate => "lone leading surrogate in hex escape"
  | .trailingComma => "trailing comma"
  | .trailingCharacters => "trailing characters"
  | .tooDeep => "recursion limit exceeded"

/-- The kind of value that was met where another was due. -/
inductive Found
  | null
  | boolean (value : Bool)
  | integer (value : Int)
  | floating (value : Float)
  | string (value : String)
  | sequence
  | map

/-- The wording of what was met.  A floating number is shown as JSON writes it. -/
def Found.message : Found → String
  | .null => "null"
  | .boolean value => "boolean `" ++ (if value then "true" else "false") ++ "`"
  | .integer value => "integer `" ++ toString value ++ "`"
  | .floating value => "floating point `" ++ Decimal.inStyle .json value ++ "`"
  | .string value => "string " ++ quoteForMessage value
  | .sequence => "sequence"
  | .map => "map"

/-- What makes a well-formed text unfit for the value asked for. -/
inductive Unfit
  /-- A value of another kind. -/
  | invalidType (found : Found) (expected : String)
  /-- A whole number outside the range asked for. -/
  | invalidValue (found : Found) (expected : String)
  /-- A word that is not in the vocabulary. -/
  | unknownWord (word : String) (known : List String)
  | missingField (name : String)
  | duplicateField (name : String)
  /-- A structure written as an array with too few elements. -/
  | tooShort (count : Nat) (title : String) (fields : Nat)

/-- A list of words a reader can choose from. -/
def oneOf : List String → String
  | [] => "there are no variants"
  | [a] => "expected `" ++ a ++ "`"
  | [a, b] => "expected `" ++ a ++ "` or `" ++ b ++ "`"
  | words => "expected one of " ++ ", ".intercalate (words.map fun w => "`" ++ w ++ "`")

/-- The wording of an unfit text. -/
def Unfit.message : Unfit → String
  | .invalidType found expected => "invalid type: " ++ found.message ++ ", expected " ++ expected
  | .invalidValue found expected => "invalid value: " ++ found.message ++ ", expected " ++ expected
  | .unknownWord word known => "unknown variant `" ++ word ++ "`, " ++ oneOf known
  | .missingField name => "missing field `" ++ name ++ "`"
  | .duplicateField name => "duplicate field `" ++ name ++ "`"
  | .tooShort count title fields =>
    "invalid length " ++ toString count ++ ", expected struct " ++ title ++ " with "
      ++ toString fields ++ " elements"

/-- The first fault of a text. -/
inductive Fault
  | malformed (cause : Malformed)
  | unfit (cause : Unfit)

/-- The wording of a fault. -/
def Fault.message : Fault → String
  | .malformed cause => cause.message
  | .unfit cause => cause.message

end Json

end Montage

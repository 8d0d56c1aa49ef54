import LayeredPreferences.Json.Writing
import LayeredPreferences.Text.Quoted

set_option autoImplicit false

/-!
# What a reader sees, and what it refuses

A fault has a cause and a place. The causes fall into two kinds: the text is not
JSON, or it is JSON of another shape than the one asked for.
-/
namespace LayeredPreferences.Json

inductive Number where
  | integer (n : Int)
  | real (x : Binary64)

/-- The value at the front of a text; of a list or an object only its opening bracket is seen. -/
inductive Sight where
  | null
  | boolean (b : Bool)
  | number (n : Number)
  | string (s : String)
  | list
  | object

/-- What a text was cut off in. -/
inductive Part where
  | value
  | list
  | object
  | string

/-- What was asked for. -/
inductive Shape where
  | string
  | boolean
  | integer
  | list
  | null
  | record (name : String)

inductive Cause where
  | endOf (part : Part)
  | expectedValue
  | expectedKeyword
  | expectedColon
  | expectedListEnd
  | expectedObjectEnd
  | expectedName
  | trailingComma
  | trailingCharacters
  | invalidNumber
  | numberOutOfRange
  | invalidEscape
  | loneSurrogate
  | missingSurrogate
  | controlCharacter
  | invalidUnicode
  | tooDeep
  | wrongShape (found : Sight) (expected : Shape)
  | integerTooLarge (n : Int)
  | wrongLength (length : Nat) (name : String) (expected : Nat)
  | unknownVariant (name : String) (known : List String)
  | duplicateField (name : String)
  | missingField (name : String)
  | noVariant (name : String)

/-- One step towards the place of a fault. -/
inductive Step where
  | member (name : String)
  | element (index : Nat)
  | unnamed

structure Fault where
  path : List Step
  cause : Cause

def Sight.describe : Sight → String
  | .null => "null"
  | .boolean b => s!"boolean `{b}`"
  | .number (.integer n) => s!"integer `{n}`"
  | .number (.real x) => "floating point `" ++ String.ofList (writeReal x) ++ "`"
  | .string s => "string " ++ String.ofList (Text.quoted s.toList)
  | .list => "sequence"
  | .object => "map"

def Part.describe : Part → String
  | .value => "value"
  | .list => "list"
  | .object => "object"
  | .string => "string"

def Shape.describe : Shape → String
  | .string => "a string"
  | .boolean => "a boolean"
  | .integer => "i64"
  | .list => "a sequence"
  | .null => "unit"
  | .record name => "struct " ++ name

def oneOf : List String → String
  | [a] => s!"`{a}`"
  | [a, b] => s!"`{a}` or `{b}`"
  | names => "one of " ++ ", ".intercalate (names.map fun name => s!"`{name}`")

namespace Cause

/-- Whether the text is JSON, but not of the shape asked for. -/
def isShape : Cause → Bool
  | .wrongShape .. | .integerTooLarge _ | .wrongLength .. | .unknownVariant .. => true
  | .duplicateField _ | .missingField _ | .noVariant _ => true
  | _ => false

/-- What is wrong. The line and the column at which it was found, which a reader tells after this, are
left out. -/
def message : Cause → String
  | .endOf part =>
    "EOF while parsing a" ++ (if part matches .object then "n " else " ") ++ part.describe
  | .expectedValue => "expected value"
  | .expectedKeyword => "expected ident"
  | .expectedColon => "expected `:`"
  | .expectedListEnd => "expected `,` or `]`"
  | .expectedObjectEnd => "expected `,` or `\x7d`"
  | .expectedName => "key must be a string"
  | .trailingComma => "trailing comma"
  | .trailingCharacters => "trailing characters"
  | .invalidNumber => "invalid number"
  | .numberOutOfRange => "number out of range"
  | .invalidEscape => "invalid escape"
  | .loneSurrogate => "lone leading surrogate in hex escape"
  | .missingSurrogate => "unexpected end of hex escape"
  | .controlCharacter => "control character (\\u0000-\\u001F) found while parsing a string"
  | .invalidUnicode => "invalid unicode code point"
  | .tooDeep => "recursion limit exceeded"
  | .wrongShape found expected =>
    "invalid type: " ++ found.describe ++ ", expected " ++ expected.describe
  | .integerTooLarge n => s!"invalid value: integer `{n}`, expected i64"
  | .wrongLength length name expected =>
    s!"invalid length {length}, expected struct {name} with {expected} element"
      ++ (if expected = 1 then "" else "s")
  | .unknownVariant name known => s!"unknown variant `{name}`, expected " ++ oneOf known
  | .duplicateField name => s!"duplicate field `{name}`"
  | .missingField name => s!"missing field `{name}`"
  | .noVariant name => s!"data did not match any variant of untagged enum {name}"

end Cause

namespace Step

def isIndex : Step → Bool
  | .element _ => true
  | _ => false

def text : Step → String
  | .member name => name
  | .element i => s!"[{i}]"
  | .unnamed => "?"

end Step

namespace Fault

/-- Names are joined by points; an index follows directly. -/
def pathText (first : Bool) : List Step → String
  | [] => ""
  | step :: rest =>
    (if first || step.isIndex then "" else ".") ++ step.text ++ pathText false rest

/-- The cause after its place, unless nothing on the way to it has a name or an index. -/
def placedMessage (fault : Fault) : String :=
  if fault.path.all fun step => step matches .unnamed then fault.cause.message
  else pathText true fault.path ++ ": " ++ fault.cause.message

end Fault

end LayeredPreferences.Json

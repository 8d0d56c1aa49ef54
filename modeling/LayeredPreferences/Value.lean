import LayeredPreferences.Json.Record

set_option autoImplicit false

/-!
# Preference values

Values, their types, and the two scopes at which a preference can be set. In
JSON a value is untagged: whether a number is an integer or a float is seen from
its text alone.
-/
namespace LayeredPreferences

inductive Scope where
  | org
  | user
deriving DecidableEq

inductive ValueType where
  | integer
  | float
  | string
  | boolean
deriving DecidableEq

inductive Value where
  | boolean (b : Bool)
  | integer (n : Int64)
  | float (x : Binary64)
  | string (s : String)
deriving DecidableEq

namespace Scope

def name : Scope → String
  | .org => "org"
  | .user => "user"

def names : List (String × Scope) := [Scope.org, .user].map fun s => (s.name, s)

def shape : Json.Shaped Scope := Json.variant names

def write (scope : Scope) : List Char := Json.writeString scope.name

end Scope

namespace ValueType

def name : ValueType → String
  | .integer => "integer"
  | .float => "float"
  | .string => "string"
  | .boolean => "boolean"

def names : List (String × ValueType) :=
  [ValueType.integer, .float, .string, .boolean].map fun t => (t.name, t)

def shape : Json.Shaped ValueType := Json.variant names

def write (type : ValueType) : List Char := Json.writeString type.name

end ValueType

namespace Value

def type : Value → ValueType
  | .boolean _ => .boolean
  | .integer _ => .integer
  | .float _ => .float
  | .string _ => .string

/-- Equality of values. Floats are compared as numbers, all else as it is. -/
def same : Value → Value → Bool
  | .float x, .float y => x.same y
  | v, w => v = w

/-- The value as JSON text. -/
def write : Value → List Char
  | .boolean b => Json.writeBool b
  | .integer n => Json.writeInteger n.toInt
  | .float x => Json.writeReal x
  | .string s => Json.writeString s

/-- Floats for a reader: every digit in its place. -/
def displayNotation : Notation where
  half := .up
  inPlace _ := true
  whole := []
  infinite negative := if negative then ['-', 'i', 'n', 'f'] else ['i', 'n', 'f']
  notANumber := ['N', 'a', 'N']

/-- The value for a reader. -/
def display : Value → String
  | .boolean b => String.ofList (Json.writeBool b)
  | .integer n => String.ofList (Json.writeInteger n.toInt)
  | .float x => String.ofList (displayNotation.write x)
  | .string s => String.ofList (Text.quoted s.toList)

/-- An integer beyond the range of 64 bits with a sign is taken as a float. -/
def ofSight? : Json.Sight → Option Value
  | .boolean b => some (.boolean b)
  | .number (.integer n) =>
    some (if n < Nat.pow 2 63 then .integer (.ofInt n)
      else .float (.ofRank false (Binary64.rankOfNat n.toNat)))
  | .number (.real x) => some (.float x)
  | .string s => some (.string s)
  | .null | .list | .object => none

/-- The whole value is read before it is looked at, so a fault inside it comes first. -/
def shape : Json.Shaped Value := fun room => do
  match ofSight? (← Json.kept room) with
  | some v => pure v
  | none => Json.refuse (.noVariant "PrefValue")

end Value

end LayeredPreferences

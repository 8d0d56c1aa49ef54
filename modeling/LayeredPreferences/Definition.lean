import LayeredPreferences.Value

set_option autoImplicit false

/-!
# Preference definitions

What is fixed about a preference: its key and texts, the type and the domain of
its values, the value it has when none is stored, and the scopes at which it can
be set.
-/
namespace LayeredPreferences

/-- Both ends are included. -/
structure ValueRange where
  min : Int64
  max : Int64
deriving DecidableEq

namespace ValueRange

def contains (range : ValueRange) (n : Int64) : Bool :=
  range.min ≤ n && n ≤ range.max

def write (range : ValueRange) : List Char :=
  Json.writeObject [("min", Json.writeInteger range.min.toInt),
    ("max", Json.writeInteger range.max.toInt)]

def shape : Json.Shaped ValueRange :=
  Json.record "ValueRange"
    [.required "min" Json.integer fun range n => { range with min := n },
     .required "max" Json.integer fun range n => { range with max := n }]
    ⟨0, 0⟩

end ValueRange

/-- The values of the right type that are accepted. -/
inductive Domain where
  /-- The listed values, or every value if none is listed. -/
  | discrete (allowed : List Value)
  /-- A range, which binds integers only. -/
  | range (range : ValueRange)
deriving DecidableEq

structure Definition where
  key : String
  name : String
  description : String
  valueType : ValueType
  defaultValue : Value
  domain : Domain
  scopes : List Scope
deriving DecidableEq

namespace Definition

def enabledAt (d : Definition) (scope : Scope) : Bool := d.scopes.contains scope

def isDiscrete (d : Definition) : Bool :=
  match d.domain with
  | .discrete _ => true
  | .range _ => false

/-- None unless the domain is discrete. -/
def allowedValues (d : Definition) : List Value :=
  match d.domain with
  | .discrete allowed => allowed
  | .range _ => []

def range? (d : Definition) : Option ValueRange :=
  match d.domain with
  | .discrete _ => none
  | .range range => some range

end Definition

end LayeredPreferences

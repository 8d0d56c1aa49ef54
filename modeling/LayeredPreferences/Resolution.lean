import LayeredPreferences.Registry
import LayeredPreferences.Validation

set_option autoImplicit false

/-!
# Effective values

The value of a preference at a scope, from the values stored for an organization
and a user. The user's value comes before that of the organization, and that
before the default; the value of the organization counts only where the
preference is enabled for organizations.
-/
namespace LayeredPreferences

namespace Definition

def requireScope (d : Definition) (scope : Scope) : Except Fault Unit :=
  if d.enabledAt scope then .ok () else .error (.forbidden d.key scope)

/-- A stored value in the form of its type. A stored boolean may have become a text or an integer;
    only one spelled `1` is true. -/
def sanitize (d : Definition) (v : Value) : Value :=
  if d.valueType = .boolean then
    match v with
    | .boolean b => .boolean b
    | .string s => .boolean (s = "1")
    | .integer n => .boolean (n = 1)
    | .float _ => .boolean false
  else v

/-- The stored value that counts for a user, or the default. -/
def select (d : Definition) (org user : Option Value) : Value :=
  let inherited := if d.enabledAt .org then org else none
  (user <|> inherited).getD d.defaultValue

/-- The value at a scope where the preference is enabled. For an organization a default stays as
    it is. -/
def effective (d : Definition) (scope : Scope) (org user : Option Value) : Value :=
  match scope with
  | .org =>
    match org with
    | some v => d.sanitize v
    | none => d.defaultValue
  | .user => d.sanitize (d.select org user)

def resolve (d : Definition) (scope : Scope) (org user : Option Value) : Except Fault Value := do
  d.requireScope scope
  return d.effective scope org user

/-- The value that is stored for a write, as it was accepted. -/
def acceptWrite (d : Definition) (scope : Scope) (v : Value) : Except Fault Value := do
  d.requireScope scope
  (d.validate v).mapError (Fault.badValue d.key)

end Definition

/-- A definition together with an effective value. -/
structure View where
  definition : Definition
  value : Value

namespace View

def write (view : View) : List Char :=
  let d := view.definition
  Json.writeObject <|
    [("key", Json.writeString d.key),
     ("name", Json.writeString d.name),
     ("description", Json.writeString d.description),
     ("valueType", d.valueType.write),
     ("defaultValue", d.defaultValue.write),
     ("usesDiscreteValues", Json.writeBool d.isDiscrete),
     ("allowedValues", Json.writeList (d.allowedValues.map Value.write))]
    ++ (d.range?.map fun range => ("range", range.write)).toList
    ++ [("allowedScopes", Json.writeList (d.scopes.map Scope.write)),
     ("value", view.value.write)]

def writeAll (views : List View) : List Char := Json.writeList (views.map write)

end View

/-- The key of a preference and its effective value. -/
structure Effective where
  key : String
  value : Value

def Effective.write (e : Effective) : List Char :=
  Json.writeObject [("preference_id", Json.writeString e.key),
    ("preference_value", e.value.write)]

/-- The values at a scope of all preferences that are enabled there, in the order of the
    registry. -/
def Registry.views (r : Registry) (scope : Scope) (org user : String → Option Value) : List View :=
  (r.definitions.filter (·.enabledAt scope)).map fun d =>
    ⟨d, d.effective scope (org d.key) (user d.key)⟩

end LayeredPreferences

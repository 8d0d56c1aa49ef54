import LayeredPreferences.Fault

set_option autoImplicit false

/-!
# Accepting a value

A value is accepted for a definition if it has the right type and lies in the
domain. A whole float counts as an integer where an integer is asked for.
-/
namespace LayeredPreferences

/-- The integer that a float is exactly, if it is one of 64 bits. -/
def Binary64.toInt64? (x : Binary64) : Option Int64 :=
  match x.toInt? with
  | some n => if -Nat.pow 2 63 ≤ n ∧ n < Nat.pow 2 63 then some (.ofInt n) else none
  | none => none

/-- The value as one of the type asked for. -/
def Value.coerce (expected : ValueType) (v : Value) : Except ValueFault Value :=
  match expected, v with
  | .integer, .float x =>
    match x.toInt64? with
    | some n => .ok (.integer n)
    | none => .error (.wrongType expected .float)
  | _, _ => if v.type = expected then .ok v else .error (.wrongType expected v.type)

namespace Domain

def check (domain : Domain) (v : Value) : Except ValueFault Unit :=
  match domain with
  | .discrete allowed =>
    if allowed.isEmpty || allowed.any (·.same v) then .ok () else .error (.notAllowed allowed)
  | .range bounds =>
    match v with
    | .integer n => if bounds.contains n then .ok () else .error (.outOfRange bounds)
    | _ => .ok ()

end Domain

/-- The accepted value, which is of the type of the definition. -/
def Definition.validate (d : Definition) (v : Value) : Except ValueFault Value := do
  let w ← v.coerce d.valueType
  d.domain.check w
  return w

end LayeredPreferences

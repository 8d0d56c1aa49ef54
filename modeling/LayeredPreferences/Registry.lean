import LayeredPreferences.Fault

set_option autoImplicit false

/-!
# Registry of definitions

Definitions in the order of their registration, no two with the same key.
-/
namespace LayeredPreferences

structure Registry where
  definitions : List Definition

namespace Registry

def empty : Registry := ⟨[]⟩

def keys (r : Registry) : List String := r.definitions.map Definition.key

def size (r : Registry) : Nat := r.definitions.length

def find? (r : Registry) (key : String) : Option Definition :=
  r.definitions.find? (·.key == key)

/-- Where the definition of the key stands. -/
def index? (r : Registry) (key : String) : Option Nat :=
  r.definitions.findIdx? (·.key == key)

def get (r : Registry) (key : String) : Except Fault Definition :=
  match r.find? key with
  | some d => .ok d
  | none => .error (.notFound key)

def register (r : Registry) (d : Definition) : Except SchemaFault Registry :=
  if (r.index? d.key).isSome then .error (.duplicateKey d.key) else .ok ⟨r.definitions ++ [d]⟩

def load (definitions : List Definition) : Except SchemaFault Registry :=
  definitions.foldlM register empty

end Registry

end LayeredPreferences

import LayeredPreferences.Registry

set_option autoImplicit false

/-!
# Registries with an index

While definitions are registered, an index is kept beside them that leads from a
key to the place of its definition. Once the registry is frozen, a key is looked
up by that place, without a search.
-/
namespace LayeredPreferences

/-- A registry that definitions can still be added to. -/
structure OpenRegistry where
  definitions : List Definition
  index : List (String × Nat)

/-- A registry that is only looked up in. -/
structure FrozenRegistry where
  definitions : List Definition
  index : List (String × Nat)

namespace OpenRegistry

def empty : OpenRegistry := ⟨[], []⟩

def size (r : OpenRegistry) : Nat := r.definitions.length

def place? (r : OpenRegistry) (key : String) : Option Nat := r.index.lookup key

/-- A key that has a place already is refused. -/
def register (d : Definition) : ExceptT SchemaFault (StateM OpenRegistry) Unit := do
  let r ← get
  if (r.place? d.key).isSome then throw (.duplicateKey d.key)
  else set (⟨r.definitions ++ [d], (d.key, r.size) :: r.index⟩ : OpenRegistry)

def freeze (r : OpenRegistry) : FrozenRegistry := ⟨r.definitions, r.index⟩

end OpenRegistry

namespace FrozenRegistry

def size (r : FrozenRegistry) : Nat := r.definitions.length

def find? (r : FrozenRegistry) (key : String) : Option Definition := do
  r.definitions[← r.index.lookup key]?

def get (r : FrozenRegistry) (key : String) : Except Fault Definition :=
  match r.find? key with
  | some d => .ok d
  | none => .error (.notFound key)

/-- The first definition that is refused ends the loading. -/
def load (definitions : List Definition) : Except SchemaFault FrozenRegistry :=
  match (forM definitions OpenRegistry.register).run.run .empty with
  | (.ok (), r) => .ok r.freeze
  | (.error fault, _) => .error fault

/-- The definitions alone, in their order. -/
def plain (r : FrozenRegistry) : Registry := ⟨r.definitions⟩

end FrozenRegistry

end LayeredPreferences

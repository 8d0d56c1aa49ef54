import LayeredPreferences.Fault

set_option autoImplicit false

/-!
# Stores of values

A store keeps values by owner and key. An owner is an organization or a user; the
two kinds do not share their ids. An action on a store answers or fails, and
leaves a store in both cases.
-/
namespace LayeredPreferences

structure Owner where
  scope : Scope
  id : String
deriving DecidableEq

abbrev Action (σ α : Type) := ExceptT Fault (StateM σ) α

/-- The store type `σ` offers the three accesses that preferences need. -/
class Backend (σ : Type) where
  read : Owner → String → Action σ (Option Value)
  list : Owner → Action σ (List (String × Value))
  upsert : Owner → String → Value → Action σ Unit

namespace Owner

/-- Organizations before users, then by id. -/
def precedes (a b : Owner) : Bool :=
  match a.scope, b.scope with
  | .org, .user => true
  | .user, .org => false
  | _, _ => a.id < b.id

end Owner

end LayeredPreferences

import LayeredPreferences.Resolution
import LayeredPreferences.Store.Backend

set_option autoImplicit false

/-!
# Reading and writing preferences

What a caller can ask for, over the definitions of a registry and any store of
values. Whatever the store need not be asked for is decided first.
-/
namespace LayeredPreferences.Service

variable {σ : Type} [Backend σ]

def readOrg (r : Registry) (org key : String) : Action σ Effective := do
  let d ← r.get key
  d.requireScope .org
  let stored ← Backend.read ⟨.org, org⟩ key
  return ⟨d.key, d.effective .org stored none⟩

/-- The organization is asked only where the preference is enabled for organizations. -/
def readUser (r : Registry) (org user key : String) : Action σ Effective := do
  let d ← r.get key
  d.requireScope .user
  let inherited ← if d.enabledAt .org then Backend.read ⟨.org, org⟩ key else pure none
  let stored ← Backend.read ⟨.user, user⟩ key
  return ⟨d.key, d.effective .user inherited stored⟩

/-- Stores the accepted value, which is not sanitized. -/
def write (r : Registry) (owner : Owner) (key : String) (v : Value) : Action σ Effective := do
  let d ← r.get key
  let accepted ← d.acceptWrite owner.scope v
  Backend.upsert owner key accepted
  return ⟨d.key, accepted⟩

def listOrg (r : Registry) (org : String) : Action σ (List View) := do
  let values ← Backend.list ⟨.org, org⟩
  return r.views .org (fun key => values.lookup key) fun _ => none

def listUser (r : Registry) (org user : String) : Action σ (List View) := do
  let inherited ← Backend.list ⟨.org, org⟩
  let values ← Backend.list ⟨.user, user⟩
  return r.views .user (fun key => inherited.lookup key) fun key => values.lookup key

end LayeredPreferences.Service

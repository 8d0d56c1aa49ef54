import LayeredPreferences.Store.Backend

set_option autoImplicit false

/-!
# Values in memory

A store that keeps values as they are, counts the writes, and can be told which
of its accesses fail.
-/
namespace LayeredPreferences

inductive Access where
  | read
  | list
  | upsert
deriving DecidableEq

/-- An access at a scope. -/
structure Call where
  access : Access
  scope : Scope
deriving DecidableEq

namespace Call

def all : List Call :=
  [Access.read, .list, .upsert].flatMap fun access =>
    [Scope.org, .user].map fun scope => ⟨access, scope⟩

end Call

namespace Memory

structure Row where
  owner : Owner
  key : String
  value : Value
deriving DecidableEq

end Memory

structure Memory where
  rows : List Memory.Row
  writes : Nat
  /-- The calls that fail, each with the reason that is given. -/
  failing : List (Call × String)
deriving DecidableEq

namespace Memory

def empty : Memory := ⟨[], 0, []⟩

namespace Row

def isAt (row : Row) (owner : Owner) (key : String) : Bool :=
  row.owner = owner && row.key = key

def precedes (a b : Row) : Bool :=
  a.owner.precedes b.owner || (a.owner = b.owner && a.key < b.key)

end Row

def find? (m : Memory) (owner : Owner) (key : String) : Option Value :=
  (m.rows.find? (·.isAt owner key)).map Row.value

/-- A row takes the place of the one at the same owner and key. -/
def put (m : Memory) (owner : Owner) (key : String) (v : Value) : Memory :=
  { m with rows := ⟨owner, key, v⟩ :: m.rows.filter fun row => !row.isAt owner key }

def valuesOf (m : Memory) (owner : Owner) : List (String × Value) :=
  (m.rows.filter fun row => row.owner = owner).map fun row => (row.key, row.value)

def sorted (m : Memory) : List Row := m.rows.mergeSort fun a b => !b.precedes a

def failOn (calls : List (Call × String)) (m : Memory) : Memory := { m with failing := calls }

def pass (call : Call) : Action Memory Unit := do
  match (← get).failing.lookup call with
  | some reason => throw (.store (.refused reason))
  | none => return

instance : Backend Memory where
  read owner key := do
    pass ⟨.read, owner.scope⟩
    return (← get).find? owner key
  list owner := do
    pass ⟨.list, owner.scope⟩
    return (← get).valuesOf owner
  upsert owner key v := do
    pass ⟨.upsert, owner.scope⟩
    modify fun m => { m.put owner key v with writes := m.writes + 1 }

end Memory

end LayeredPreferences

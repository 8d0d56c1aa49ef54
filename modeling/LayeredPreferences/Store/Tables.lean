import LayeredPreferences.Store.Backend
import LayeredPreferences.Store.Columns

set_option autoImplicit false

/-!
# Values in tables

For each scope a table of owners and a table of rows, in the order in which they
came. A row belongs to an owner, and has a key and a value or none; what it holds
may come from elsewhere and be no text. A row is written together with its owner,
and deleted with it.
-/
namespace LayeredPreferences

/-- What a column for texts holds. -/
inductive Stored where
  | text (bytes : List UInt8)
  | blob (bytes : List UInt8)
deriving DecidableEq

namespace Stored

def ofString (s : String) : Stored := .text (Text.bytesOf s)

def bytes : Stored → List UInt8
  | .text bytes | .blob bytes => bytes

def cell : Stored → Database.Cell
  | .text bytes => .text bytes
  | .blob bytes => .blob bytes

end Stored

namespace Tables

structure Row where
  owner : String
  key : Stored
  value : Option Stored
deriving DecidableEq

/-- The tables of one scope. The table of rows can be missing. -/
structure Pair where
  owners : List String
  rows : Option (List Row)
deriving DecidableEq

end Tables

structure Tables where
  org : Tables.Pair
  user : Tables.Pair
deriving DecidableEq

namespace Tables

def empty : Tables := ⟨⟨[], some []⟩, ⟨[], some []⟩⟩

def pair (t : Tables) : Scope → Pair
  | .org => t.org
  | .user => t.user

def setPair (t : Tables) (scope : Scope) (p : Pair) : Tables :=
  match scope with
  | .org => { t with org := p }
  | .user => { t with user := p }

def rowTable : Scope → String
  | .org => "org_preference"
  | .user => "user_preference"

namespace Row

def isAt (row : Row) (owner key : String) : Bool :=
  row.owner = owner && row.key = .ofString key

def columns (row : Row) : Columns where
  key := ⟨"preference_id", row.key.cell⟩
  value := ⟨"preference_value", (row.value.map Stored.cell).getD .null⟩

def precedes (a b : Row) : Bool :=
  a.owner < b.owner || (a.owner = b.owner && a.key.bytes < b.key.bytes)

end Row

/-- A row takes the place of the one of the same owner and key, or comes last. -/
def placed (owner key : String) (value : Option Stored) : List Row → List Row
  | [] => [⟨owner, .ofString key, value⟩]
  | row :: rows =>
    if row.isAt owner key then ⟨owner, .ofString key, value⟩ :: rows
    else row :: placed owner key value rows

/-! ## Statements -/

def selectRows (scope : Scope) : Action Tables (List Row) := do
  match ((← get).pair scope).rows with
  | some rows => return rows
  | none => throw (.store (.database (.noTable (rowTable scope))))

/-- An owner that is there already is left as it is. -/
def insertOwner (owner : Owner) : Action Tables Unit :=
  modify fun t =>
    let p := t.pair owner.scope
    if p.owners.contains owner.id then t
    else t.setPair owner.scope { p with owners := owner.id :: p.owners }

def replaceRow (owner : Owner) (key : String) (value : Option Stored) : Action Tables Unit := do
  let rows ← selectRows owner.scope
  modify fun t =>
    t.setPair owner.scope
      { t.pair owner.scope with rows := some (placed owner.id key value rows) }

/-- All of the action, or nothing of it. -/
def transaction {α : Type} (action : Action Tables α) : Action Tables α := fun t =>
  match action t with
  | (.ok x, t') => (.ok x, t')
  | (.error fault, _) => (.error fault, t)

/-! ## Accesses -/

def put (owner : Owner) (key : String) (value : Option Stored) : Action Tables Unit :=
  transaction do
    insertOwner owner
    replaceRow owner key value

def read (owner : Owner) (key : String) : Action Tables (Option Value) := do
  match (← selectRows owner.scope).find? (·.isAt owner.id key) with
  | some row => row.columns.value?.mapError Fault.store
  | none => return none

def list (owner : Owner) : Action Tables (List (String × Value)) := do
  let rows := (← selectRows owner.scope).filter (·.owner = owner.id)
  (Columns.listed (rows.map Row.columns)).mapError Fault.store

instance : Backend Tables where
  read := read
  list := list
  upsert owner key v := put owner key (some (.ofString v.encode))

/-- Deletes an owner with its rows, and says whether it was there. -/
def deleteOwner (owner : Owner) : Action Tables Bool := do
  let p := (← get).pair owner.scope
  modify fun t => t.setPair owner.scope
    { owners := p.owners.filter (· ≠ owner.id)
      rows := p.rows.map fun rows => rows.filter (·.owner ≠ owner.id) }
  return p.owners.contains owner.id

/-! ## The database as a whole -/

def dropRows (scope : Scope) (t : Tables) : Tables :=
  t.setPair scope { t.pair scope with rows := none }

/-- A database that is opened again has all tables. -/
def reopen (t : Tables) : Tables :=
  let complete (p : Pair) : Pair := { p with rows := some (p.rows.getD []) }
  ⟨complete t.org, complete t.user⟩

def sortedOwners (t : Tables) (scope : Scope) : List String :=
  (t.pair scope).owners.mergeSort fun a b => !(b < a)

def sortedRows (t : Tables) (scope : Scope) : List Row :=
  ((t.pair scope).rows.getD []).mergeSort fun a b => !b.precedes a

end Tables

end LayeredPreferences

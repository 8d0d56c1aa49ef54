import LayeredPreferences.Database.Opening
import LayeredPreferences.Database.Search

set_option autoImplicit false

/-!
# Preferences in a database

The rows of an owner are those with the owner's name in one column.
-/
namespace LayeredPreferences.Database

def ownerColumn : Scope → String
  | .org => "org_id"
  | .user => "user_id"

def ownerIndex : Scope → String
  | .org => "idx_org_preference_org"
  | .user => "idx_user_preference_user"

def newIndexes (catalog : Catalog) (scope : Scope) : List Index :=
  let name := ownerIndex scope
  if (catalog.index? name).isSome then []
  else
    let part : SortPart := ⟨some (ownerColumn scope), none, false⟩
    [⟨name, Tables.rowTable scope, [part], false, false, false, none, 0⟩]

/-- What is asked of the rows of an owner, in the order in which they are found. -/
def Image.ownColumns (image : Image) (catalog : Catalog) (shape : Shape) (root : Nat)
    (owner : Owner) : Except StoreFault (List Columns) := do
  let place (name : String) : Except StoreFault Nat :=
    match shape.column? name with
    | some i => .ok i
    | none => .error (.database (.noColumn name))
  let key ← place "preference_id"
  let value ← place "preference_value"
  let ownerPlace ← place (ownerColumn owner.scope)
  let cells : Except DatabaseFault (List (Cell × Cell)) := do
    if let some fault := shape.fault? value <|> shape.fault? key
        <|> shape.unknownCollation?.map .noCollation then
      throw fault
    image.search catalog (Tables.rowTable owner.scope) shape root
      (newIndexes catalog owner.scope) [key, value, ownerPlace] ownerPlace owner.id fun row =>
        return (← image.read shape row key, ← image.read shape row value)
  let named (i : Nat) (cell : Cell) : NamedCell :=
    ⟨(shape.column i).name, cell.decoded image.encoding⟩
  return (← cells.mapError StoreFault.database).map fun row => ⟨named key row.1, named value row.2⟩

def Image.list (image : Image) (catalog : Catalog) (shape : Shape) (root : Nat) (owner : Owner) :
    Except StoreFault (List (String × Value)) := do
  Columns.listed (← image.ownColumns catalog shape root owner)

def list (database : Database) (owner : Owner) : Except StoreFault (List (String × Value)) :=
  let table := Tables.rowTable owner.scope
  match database with
  | .unshared => .error (.database (.noTable table))
  | .new => .ok []
  | .held image catalog =>
    match catalog.relation? table with
    | some (.table shape root) => image.list catalog shape root owner
    | _ => .ok []

end LayeredPreferences.Database

import LayeredPreferences.Database.Catalog
import LayeredPreferences.Database.Evaluation
import LayeredPreferences.Database.Misuse

set_option autoImplicit false

/-!
# Rows of tables

A row holds the columns that are kept; the number of the row is not among them, and
computed columns are worked out. Texts stay as they are kept.
-/
namespace LayeredPreferences.Database

/-- A content as it is read: whole numbers can be kept for real ones. -/
def Column.readOr (column : Column) (encoding : Encoding) (cell : Option Cell) : Cell :=
  let default := (column.default.bind (·.kept? encoding column.affinity)).getD .null
  match column.affinity, cell.getD (default.encoded encoding) with
  | .real, .integer n => .real (Cell.realOfInt n)
  | _, cell => cell

namespace Shape

def affinity? (shape : Shape) (name : String) : Option Affinity :=
  (shape.column? name).map fun i => (shape.column i).affinity

def collation? (shape : Shape) (name : String) : Option String :=
  (shape.column? name).map fun i => (shape.column i).collation

/-- Why a column cannot be worked out. Those in `busy` are being worked out from it. -/
def faultAt? (shape : Shape) (busy : List Nat) (i : Nat) : Nat → Option DatabaseFault
  | 0 => none
  | fuel + 1 =>
    let column := shape.column i
    match column.origin with
    | .computed x false =>
      if busy.contains i then some (.loop column.name)
      else x.fault? {
        has := fun name => (shape.column? name).isSome
        fault := fun name => (shape.column? name).bind fun j => shape.faultAt? (i :: busy) j fuel
        affinity := shape.affinity?
        collation := shape.collation? }
    | _ => none

def fault? (shape : Shape) (i : Nat) : Option DatabaseFault :=
  shape.faultAt? [] i (shape.columns.length + 1)

end Shape

namespace Image

/-- The content of a column. The fuel bounds how deep computed columns depend on each other. -/
def value (image : Image) (shape : Shape) (entry : Entry) (i : Nat) : Nat → Outcome Content
  | 0 => .ok .null
  | fuel + 1 => do
    let column := shape.column i
    if shape.numberColumn = some i then return .ofCell (.integer entry.row)
    match column.origin with
    | .computed x false =>
      let content ← x.eval {
        encoding := image.encoding
        content := fun name => (shape.column? name).map fun j => image.value shape entry j fuel
        affinity := shape.affinity?
        collation := shape.collation? }
      return { content with cell := content.cell.adapted image.encoding column.affinity }
    | _ =>
      let cell ← image.column entry.payload (shape.kept.idxOf i)
      return .ofCell (column.readOr image.encoding cell)

def cell (image : Image) (shape : Shape) (entry : Entry) (i : Nat) : Outcome Cell :=
  return (← image.value shape entry i (shape.columns.length + 1)).cell

end Image

end LayeredPreferences.Database

import LayeredPreferences.Database.Cell
import LayeredPreferences.Fault
import LayeredPreferences.Store.Codec

set_option autoImplicit false

/-!
# Columns of rows

What is made of the two columns that are asked of the rows of an owner, whatever
the rows come from. The key must be a text, and the value a text or nothing.
-/
namespace LayeredPreferences

open Database

/-- A column as it is called in its table, with its content. -/
structure NamedCell where
  name : String
  cell : Cell

def NamedCell.get {α : Type} (c : NamedCell) (name : String)
    (read : Cell → Except ColumnFault α) : Except StoreFault α :=
  (if c.name = name then read c.cell else .error .unknown).mapError (StoreFault.column name)

structure Columns where
  key : NamedCell
  value : NamedCell

namespace Columns

def value? (columns : Columns) : Except StoreFault (Option Value) := do
  return (← columns.value.get "preference_value" Cell.asText?).map .decode

/-- What the row adds to the values of its owner. -/
def item? (columns : Columns) : Except StoreFault (Option (String × Value)) := do
  let key ← columns.key.get "preference_id" (Cell.asText false)
  return (← columns.value?).map (key, ·)

/-- An entry takes the place of one of the same key. -/
def insert (values : List (String × Value)) (entry : String × Value) : List (String × Value) :=
  values.filter (·.1 ≠ entry.1) ++ [entry]

/-- The values of an owner. The first row that cannot be read decides the fault. -/
def listed (rows : List Columns) : Except StoreFault (List (String × Value)) := do
  return ((← rows.mapM item?).filterMap id).foldl insert []

end Columns

end LayeredPreferences

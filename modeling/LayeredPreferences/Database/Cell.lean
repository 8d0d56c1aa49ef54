import LayeredPreferences.Database.Fault
import LayeredPreferences.Number.Binary64

set_option autoImplicit false

/-!
# Cells

What a column of a row holds, and as which text it is read. Bytes that are said to
be text need not be.
-/
namespace LayeredPreferences.Database

inductive Cell where
  | null
  | integer (n : Int)
  | real (x : Binary64)
  | text (bytes : List UInt8)
  | blob (bytes : List UInt8)
  /-- So many bytes that are all zero. -/
  | zeros (count : Nat)
deriving DecidableEq

namespace Cell

/-- The text of a cell, which is in UTF-8. Nothing has no bytes. -/
def asText (isOptional : Bool) : Cell → Except ColumnFault String
  | .null => .ok ""
  | .text bytes => (Text.ofBytes bytes).mapError ColumnFault.notText
  | .integer _ => .error (.wrongType isOptional "INTEGER")
  | .real _ => .error (.wrongType isOptional "REAL")
  | .blob _ | .zeros _ => .error (.wrongType isOptional "BLOB")

def asText? : Cell → Except ColumnFault (Option String)
  | .null => .ok none
  | cell => (cell.asText true).map some

end Cell

end LayeredPreferences.Database

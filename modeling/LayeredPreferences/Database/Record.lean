import LayeredPreferences.Database.Cell
import LayeredPreferences.Database.Page

set_option autoImplicit false

/-!
# Records

A record starts with a header: its own length, then a number for the type and the
size of each column. The contents of the columns follow.
-/
namespace LayeredPreferences.Database

namespace Record

def contentSize (type : Nat) : Nat :=
  if type < 12 then [0, 1, 2, 3, 4, 6, 8, 8, 0, 0, 0, 0].getD type 0 else (type - 12) / 2

/-- What is not a number is kept as nothing. -/
def real (bits : Nat) : Cell :=
  match Binary64.ofBits (.ofNat bits) with
  | .notANumber => .null
  | x => .real x

def cell (type : Nat) (bytes : List UInt8) : Cell :=
  let n := Bytes.number bytes.toArray 0 bytes.length
  if 12 ≤ type then if type % 2 = 0 then .blob bytes else .text bytes
  else if type = 8 ∨ type = 9 then .integer (type - 8)
  else if type = 7 then real n
  else if 1 ≤ type ∧ type ≤ 6 then .integer (Bytes.signed (8 * bytes.length) n)
  else .null

/-- Whether the header ends in the middle of a number, or the contents before the record does. -/
def endsBadly (stop size next finish : Nat) : Bool :=
  stop < next || stop = next && finish != size

/-- The type of a column and where its content starts, none if the record ends before. The header
    is read from `at` on and only as far as the column; its content must lie in the record, and
    fill it up if the header ends there. -/
def field? (header : Bytes) (stop size place start : Nat) :
    Nat → Except DatabaseFault (Option (Nat × Nat))
  | 0 =>
    let (type, width) := header.groups place
    let finish := start + contentSize type
    if size < finish ∨ endsBadly stop size (place + width) finish then .error .damaged
    else .ok (some (type, start))
  | column + 1 =>
    let (type, width) := header.groups place
    let next := place + width
    let finish := start + contentSize type
    if next < stop then field? header stop size next finish column
    else if endsBadly stop size next finish then .error .damaged
    else .ok none

abbrev longestHeader : Nat := 98307

end Record

/-- The content of a column, none if the record ends before it. A record with an empty header has
    no columns, whatever follows. -/
def Image.column (image : Image) (payload : Payload) (column : Nat) :
    Except DatabaseFault (Option Cell) := do
  let bytes := payload.page.bytes
  if payload.page.size ≤ payload.start then throw .damaged
  let (stop, width) := bytes.groups payload.start
  let header ←
    if stop ≤ payload.atHand then pure (bytes.extract payload.start bytes.size)
    else if Record.longestHeader < stop ∨ payload.size < stop then throw .damaged
    else pure (← image.content payload 0 stop).toArray
  if stop = 0 then return none
  match ← Record.field? header stop payload.size width stop column with
  | none => return none
  | some (type, start) =>
    let size := Record.contentSize type
    let content ←
      if size = 0 then pure []
      else if start + size ≤ payload.atHand then pure (bytes.slice (payload.start + start) size)
      else image.content payload start size
    return some (Record.cell type content)

end LayeredPreferences.Database

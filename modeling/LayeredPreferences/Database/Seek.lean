import LayeredPreferences.Database.Catalog
import LayeredPreferences.Database.Comparison

set_option autoImplicit false

/-!
# Seeking

Entries of a tree that are found by what they start with: the entries of an index
with a text in their first column, and the row of a key or of a number.
-/
namespace LayeredPreferences.Database.Image

/-! ## Fronts -/

structure FrontPart where
  cell : Cell
  collation : String
  isDown : Bool

structure Front where
  parts : List FrontPart
  columns : Nat

/-- Entries with few columns are looked at without care for their headers. -/
abbrev mostPlainColumns : Nat := 13

namespace Front

/-- Whether an entry that is kept on one page may have a header that is longer than itself. -/
def isPlain (front : Front) : Bool :=
  front.columns ≤ mostPlainColumns && front.parts.head?.any fun part =>
    match part.cell with
    | .text _ => sameName part.collation "binary"
    | _ => false

end Front

def FrontPart.needsBytes (part : FrontPart) (type : Nat) : Bool :=
  12 ≤ type && match part.cell with
    | .text _ => type % 2 = 1
    | .blob _ | .zeros _ => type % 2 = 0
    | _ => false

/-- How columns stand to parts, none if the entry is too short to tell. The next type is at `place`
    in a header that ends at `stop`, and the next content at `content`. -/
def compareParts (encoding : Encoding) (bytes : Bytes) (start size stop place content : Nat) :
    List FrontPart → Option Ordering
  | [] => some .eq
  | part :: rest =>
    let (type, width) := bytes.groups (start + place)
    let count := Record.contentSize type
    if part.needsBytes type ∧ size < content + count then none
    else
      let cell := Record.cell type (bytes.slice (start + content) count)
      match cell.order encoding part.collation part.cell with
      | .eq =>
        if rest.isEmpty ∨ size < content + count then some .eq
        else if stop ≤ place + width then none
        else compareParts encoding bytes start size stop (place + width) (content + count) rest
      | order => some (if part.isDown then order.swap else order)

/-- An entry that goes on in other pages is read as a whole. -/
def compareFront (image : Image) (front : Front) (isPlain : Bool) (entry : Entry) :
    Except DatabaseFault (Option Ordering) := do
  let payload := entry.payload
  let isHere : Bool := payload.size ≤ payload.atHand
  let isPlain := isPlain && isHere
  if !isHere ∧ image.pages < payload.size / image.usableSize then throw .damaged
  let start := if isHere then payload.start else 0
  let bytes ← if isHere then pure payload.page.bytes
    else (fun bytes => bytes.toArray) <$> image.content payload 0 payload.size
  let (stop, width) := if isPlain then (bytes.byte start, 1) else bytes.groups start
  if !isPlain ∧ payload.size < stop then return none
  return compareParts image.encoding bytes start payload.size stop width stop front.parts

/-- What is too short to tell cannot be sought. -/
def compareSought (image : Image) (front : Front) (entry : Entry) :
    Except DatabaseFault Ordering := do
  match ← image.compareFront front front.isPlain entry with
  | some order => return order
  | none => throw .damaged

def entriesFrom (image : Image) (root : Nat) (front : Front) : List Entry × Option DatabaseFault :=
  image.treeFrom root fun entry => do
    match ← image.compareSought front entry with
    | .lt => return .lt
    | _ => return .gt

/-- Whether an entry comes after those with the front. What is too short to tell ends them, too. -/
def isAfter (image : Image) (front : Front) (entry : Entry) : Except DatabaseFault Bool := do
  if entry.payload.size = 0 then throw .damaged
  let order ← image.compareFront front false entry
  return order.isNone || order = some .gt

/-! ## Keys -/

def keyOf (image : Image) (shape : Shape) (entry : Entry) : Except DatabaseFault (List Cell) :=
  (List.range shape.keyParts.length).mapM fun i =>
    return (← image.column entry.payload i).getD .null

def seekKey (image : Image) (shape : Shape) (root : Nat) (key : List Cell) :
    Except DatabaseFault (Option Entry) :=
  let parts := (key.zip (shape.keyParts.zip shape.keyDirections)).map fun (cell, part, isDown) =>
    ⟨cell, part.2, isDown⟩
  image.seekEntry root (image.compareSought ⟨parts, shape.kept.length⟩)

/-! ## Numbers -/

/-- The row with a number, which must be there. It is looked for first where the last one was found,
    and right after it. -/
def numbered (image : Image) (root : Nat) (rows : List Entry) (last : Option Entry) (row : Int) :
    Except DatabaseFault Entry := do
  let isSame (a b : Entry) : Bool :=
    a.payload.page.index = b.payload.page.index && a.place = b.place
  let near := last.bind fun last =>
    if last.row = row then some last
    else if last.row + 1 = row then
      ((rows.zip rows.tail).find? fun pair => isSame pair.1 last && pair.2.row = row).map Prod.snd
    else none
  match near with
  | some entry => return entry
  | none =>
    match ← image.seek root row with
    | some entry => return entry
    | none => throw .damaged

end LayeredPreferences.Database.Image

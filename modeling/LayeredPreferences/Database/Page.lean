import LayeredPreferences.Database.Image

set_option autoImplicit false

/-!
# Pages of trees

A page of a tree has cells. In the tree of a table they are sorted by the number
of the row, and only leaves hold rows. In the tree of an index they are sorted by
what they hold.
-/
namespace LayeredPreferences.Database

inductive PageKind where
  | tableLeaf
  | tableBranch
  | indexLeaf
  | indexBranch
deriving DecidableEq

namespace PageKind

def ofByte? : Nat → Option PageKind
  | 13 => some .tableLeaf
  | 5 => some .tableBranch
  | 10 => some .indexLeaf
  | 2 => some .indexBranch
  | _ => none

def isTable : PageKind → Bool
  | .tableLeaf | .tableBranch => true
  | _ => false

def isLeaf : PageKind → Bool
  | .tableLeaf | .indexLeaf => true
  | _ => false

end PageKind

structure Page where
  index : Nat
  kind : PageKind
  bytes : Bytes
  size : Nat
  usable : Nat

/-- What a cell holds. Its first bytes lie on the page of the cell, the rest on a chain of pages. -/
structure Payload where
  page : Page
  start : Nat
  size : Nat

structure Entry where
  row : Int
  payload : Payload
  /-- Where the cell starts, and what it takes of its page. -/
  place : Nat
  room : Nat

namespace Page

/-- The first page has its cells after the header of the image. -/
def start (page : Page) : Nat := if page.index = 1 then 100 else 0

def cells (page : Page) : Nat := page.bytes.number (page.start + 3) 2

def pointers (page : Page) : Nat := page.start + if page.kind.isLeaf then 8 else 12

def cellStart (page : Page) (i : Nat) : Nat :=
  page.bytes.number (page.pointers + 2 * i) 2 % page.size

/-- The page before the cell of a branch. After the last cell comes one more page. -/
def child (page : Page) (i : Nat) : Nat :=
  if i < page.cells then page.bytes.number (page.cellStart i) 4
  else page.bytes.number (page.start + 8) 4

def most (page : Page) : Nat :=
  if page.kind = .tableLeaf then page.usable - 35 else (page.usable - 12) * 64 / 255 - 23

def least (page : Page) : Nat := (page.usable - 12) * 32 / 255 - 23

/-- How many bytes of a payload lie on the page itself. -/
def share (page : Page) (size : Nat) : Nat :=
  if size ≤ page.most then size
  else
    let share := page.least + (size - page.least) % (page.usable - 4)
    if share ≤ page.most then share else page.least

/-- The number of the row is all that a branch of a table has in its cells. -/
def entry (page : Page) (i : Nat) : Entry :=
  let cell := page.cellStart i
  match page.kind with
  | .tableBranch =>
    let (row, width) := page.bytes.groups (cell + 4)
    ⟨Bytes.signed 64 row, ⟨page, 0, 0⟩, cell, 4 + width⟩
  | kind =>
    let front := if kind = .indexBranch then 4 else 0
    let (size, width) := page.bytes.groups (cell + front)
    let (row, rowWidth) :=
      if kind = .tableLeaf then page.bytes.groups (cell + front + width) else (0, 0)
    let size := size % Nat.pow 2 32
    let start := cell + front + width + rowWidth
    let share := page.share size
    let room := start + share + (if share < size then 4 else 0) - cell
    ⟨Bytes.signed 64 row, ⟨page, start, size⟩, cell, max 4 room⟩

def entries (page : Page) : List Entry := (List.range page.cells).map page.entry

end Page

def Image.page (image : Image) (index : Nat) : Except DatabaseFault Page := do
  if index = 0 ∨ image.pages < index then throw .damaged
  let bytes := image.pageBytes index
  match PageKind.ofByte? (bytes.byte (if index = 1 then 100 else 0)) with
  | none => throw .damaged
  | some kind =>
    let page : Page := ⟨index, kind, bytes, image.pageSize, image.usableSize⟩
    if (image.pageSize - 8) / 6 < page.cells then throw .damaged
    return page

/-! ## What cells hold -/

namespace Payload

def share (payload : Payload) : Nat := payload.page.share payload.size

def atHand (payload : Payload) : Nat :=
  min payload.share (payload.page.size - payload.start)

end Payload

namespace Image

/-- A page that is read from its start goes right behind what has been read, if its first four bytes
    find room there. Only then must all of it be in the file. -/
def endsBefore (image : Image) (page skipped got taken : Nat) : Bool :=
  skipped = 0 && 4 ≤ got && image.bytes.size < (page - 1) * image.pageSize + 4 + taken

/-- Bytes from a chain of pages, each of which starts with the index of the next one. -/
def chained (image : Image) (next skipped got count : Nat) :
    Nat → Except DatabaseFault (List UInt8)
  | 0 => .error .damaged
  | fuel + 1 =>
    if count = 0 then .ok []
    else if next = 0 ∨ image.pages < next then .error .damaged
    else
      let bytes := image.pageBytes next
      let held := image.usableSize - 4
      if held ≤ skipped then image.chained (bytes.number 0 4) (skipped - held) got count fuel
      else do
        let taken := min count (held - skipped)
        if image.endsBefore next skipped got taken then throw .cutOff
        let rest ← image.chained (bytes.number 0 4) 0 (got + taken) (count - taken) fuel
        return bytes.slice (4 + skipped) taken ++ rest

def content (image : Image) (payload : Payload) (start count : Nat) :
    Except DatabaseFault (List UInt8) := do
  if image.pageSize * image.pages < start + count then throw .damaged
  let share := payload.share
  if payload.page.usable < payload.start + share then throw .damaged
  let here := min count (share - start)
  let next := payload.page.bytes.number (payload.start + share) 4
  let skipped := start - share
  let rest ← image.chained next skipped here (count - here)
    ((skipped + count) / (image.usableSize - 4) + 2)
  return payload.page.bytes.slice (payload.start + start) here ++ rest

end Image

end LayeredPreferences.Database

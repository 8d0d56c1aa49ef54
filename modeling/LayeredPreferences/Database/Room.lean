import LayeredPreferences.Database.Page

set_option autoImplicit false

/-!
# Room on a page

The cells of a page lie at its end, above the gap that new ones are taken from.
Between them there are free blocks, in order, and scraps too small for a block.
What is free is counted once; whoever packs the cells finds out whether the count
is right.
-/
namespace LayeredPreferences.Database

structure Block where
  place : Nat
  size : Nat
deriving DecidableEq

def Block.stop (block : Block) : Nat := block.place + block.size

structure Room where
  usable : Nat
  pointers : Nat
  cells : List Block
  top : Nat
  blocks : List Block
  scraps : Nat
  free : Nat

namespace Room

/-- The free blocks from one on, none if they do not lie in order on the page. -/
def blocksFrom (page : Page) (place : Nat) : Nat → Option (List Block)
  | 0 => none
  | more + 1 =>
    if page.usable - 4 < place then none
    else
      let next := page.bytes.number place 2
      let block : Block := ⟨place, page.bytes.number (place + 2) 2⟩
      if next ≤ block.stop + 3 then
        if 0 < next ∨ page.usable < block.stop then none else some [block]
      else (blocksFrom page next more).map (block :: ·)

def ofPage? (page : Page) : Option Room := do
  let first := page.bytes.number (page.start + 1) 2
  let top := match page.bytes.number (page.start + 5) 2 with
    | 0 => 65536
    | n => n
  if 0 < first ∧ first < top then none
  let blocks ← if first = 0 then some [] else blocksFrom page first page.size
  let scraps := page.bytes.byte (page.start + 7)
  let free := scraps + top + blocks.foldr (·.size + ·) 0
  let gap := page.pointers + 2 * page.cells
  if page.usable < free ∨ free < gap then none
  let cells := page.entries.map fun entry => ⟨entry.place, entry.room⟩
  return ⟨page.usable, page.pointers, cells, top, blocks, scraps, free - gap⟩

def gap (room : Room) : Nat := room.pointers + 2 * room.cells.length

/-! ## Packing -/

/-- One or two blocks are filled by moving what lies before them. -/
def close (room : Room) : Option Room :=
  match room.blocks with
  | [] => none
  | a :: rest =>
    let size := room.blocks.foldr (·.size + ·) 0
    let last := rest.foldr (·.size + ·) 0
    if a.place ≤ room.top then none
    else some { room with
      cells := room.cells.map fun cell =>
        if cell.place < a.place then { cell with place := cell.place + size }
        else if rest.any (cell.place < ·.place) then { cell with place := cell.place + last }
        else cell
      top := room.top + size
      blocks := [] }

def packed (room : Room) : Option Room := do
  let step (done : Nat × List Block) (cell : Block) : Option (Nat × List Block) :=
    let (top, cells) := done
    if room.usable - 4 < cell.place ∨ top < room.top + cell.size ∨ room.usable < cell.stop then none
    else some (top - cell.size, cells ++ [⟨top - cell.size, cell.size⟩])
  let (top, cells) ← room.cells.foldlM step (room.usable, [])
  return { room with cells := cells, top := top, blocks := [], scraps := 0 }

/-- Brings what is free together, if it is as much as was counted. -/
def pack (room : Room) (mostScraps : Nat) : Option Room := do
  let isQuick := room.scraps ≤ mostScraps && 0 < room.blocks.length && room.blocks.length ≤ 2
  let room ← if isQuick then room.close else room.packed
  if room.scraps + room.top ≠ room.gap + room.free then none
  return room

/-! ## Cells -/

/-- A block that is large enough, with what is left of the blocks and with new scraps. A page with
    many scraps takes no more of them. -/
def fit? (usable size scraps : Nat) : List Block → Option (Nat × List Block × Nat)
  | [] => none
  | block :: rest =>
    if usable < block.place + size then none
    else if block.size < size then
      (fit? usable size scraps rest).map fun (place, rest, scraps) => (place, block :: rest, scraps)
    else
      let left := block.size - size
      if 4 ≤ left then some (block.place + left, { block with size := left } :: rest, scraps)
      else if 57 < scraps then none
      else some (block.place, rest, scraps + left)

def take (room : Room) (size : Nat) : Option (Nat × Room) := do
  if room.top < room.gap ∨ room.usable < room.top then none
  let found := if room.gap + 2 ≤ room.top then fit? room.usable size room.scraps room.blocks
    else none
  match found with
  | some (place, blocks, scraps) =>
    if place ≤ room.gap then none
    return (place, { room with blocks := blocks, scraps := scraps })
  | none =>
    let room ← if room.top < room.gap + 2 + size then room.pack (min 4 (room.free - (2 + size)))
      else some room
    return (room.top - size, { room with top := room.top - size })

def holds (room : Room) (size : Nat) : Bool := size + 2 ≤ room.free

/-- Puts a cell in. One that is written over another leaves neither readable. -/
def insert (room : Room) (i size : Nat) : Option Room := do
  let (place, room) ← room.take size
  if room.cells.any fun cell => cell.place < place + size && place < cell.stop then none
  return { room with
    cells := room.cells.take i ++ ⟨place, size⟩ :: room.cells.drop i
    free := room.free - (size + 2) }

/-- A freed block is joined with its neighbours and the scraps between. -/
def release (room : Room) (block : Block) : Option Room := do
  let before := room.blocks.takeWhile (·.place < block.place)
  let after := room.blocks.dropWhile (·.place < block.place)
  let (stop, scraps, after') ← match after with
    | next :: rest =>
      if next.place ≤ block.stop + 3 then
        if next.place < block.stop ∨ room.usable < next.stop then none
        else some (next.stop, next.place - block.stop, rest)
      else some (block.stop, 0, after)
    | [] => some (block.stop, 0, [])
  let (place, scraps, before') ← match before.getLast? with
    | some last =>
      if block.place ≤ last.stop + 3 then
        if block.place < last.stop then none
        else some (last.place, scraps + (block.place - last.stop), before.dropLast)
      else some (block.place, scraps, before)
    | none => some (block.place, scraps, before)
  if room.scraps < scraps then none
  let room := { room with scraps := room.scraps - scraps }
  if place < room.top then none
  if place = room.top then
    if !before.isEmpty then none
    return { room with blocks := after', top := stop }
  return { room with blocks := before' ++ ⟨place, stop - place⟩ :: after' }

def erase (room : Room) (i : Nat) : Option Room := do
  match room.cells[i]? with
  | none => return room
  | some cell =>
    if room.usable < cell.stop then none
    let room ← room.release cell
    let cells := room.cells.eraseIdx i
    if cells.isEmpty then
      return { room with
        cells := [], top := room.usable, blocks := [], scraps := 0
        free := room.usable - room.pointers }
    return { room with cells := cells, free := room.free + cell.size + 2 }

end Room

end LayeredPreferences.Database

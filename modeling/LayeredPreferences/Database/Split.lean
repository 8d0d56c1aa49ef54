import LayeredPreferences.Database.Room

set_option autoImplicit false

/-!
# Sharing cells among leaves

A leaf that has no room for a cell shares its cells anew with its neighbours, over
as many pages as it takes. What each page takes is reckoned from what was counted
as free on it, whether that is right or not.
-/
namespace LayeredPreferences.Database

structure Piece where
  size : Nat
  home : Option (Nat × Block)

structure Sharing where
  stops : Array Nat
  taken : Array Int

namespace Sharing

def sizeAt (sizes : Array Nat) (i : Nat) : Int := 2 + sizes.getD i 0

abbrev mostPages : Nat := 5

/-- Moves the last cells of a page to the next one until what is left fits. -/
def shrink (space : Nat) (sizes : Array Nat) (i : Nat) (s : Sharing) : Nat → Option Sharing
  | 0 => some s
  | fuel + 1 =>
    if s.taken.getD i 0 ≤ space then some s
    else
      let s := if i + 1 < s.stops.size then s else ⟨s.stops.push sizes.size, s.taken.push 0⟩
      if mostPages < s.stops.size then none
      else
        let stop := s.stops.getD i 0
        let size := sizeAt sizes (stop - 1)
        shrink space sizes i ⟨s.stops.setIfInBounds i (stop - 1),
          (s.taken.setIfInBounds i (s.taken.getD i 0 - size)).setIfInBounds (i + 1)
            (s.taken.getD (i + 1) 0 + size)⟩ fuel

def grow (space : Nat) (sizes : Array Nat) (i : Nat) (s : Sharing) : Nat → Sharing
  | 0 => s
  | fuel + 1 =>
    let stop := s.stops.getD i 0
    let size := sizeAt sizes stop
    if sizes.size ≤ stop ∨ (space : Int) < s.taken.getD i 0 + size then s
    else
      grow space sizes i ⟨s.stops.setIfInBounds i (stop + 1),
        (s.taken.setIfInBounds i (s.taken.getD i 0 + size)).setIfInBounds (i + 1)
          (s.taken.getD (i + 1) 0 - size)⟩ fuel

def start (s : Sharing) (i : Nat) : Nat := if i = 0 then 0 else s.stops.getD (i - 1) 0

/-- Fills the pages from the left. None may be left empty. -/
def fill (space : Nat) (sizes : Array Nat) (i : Nat) (s : Sharing) : Nat → Option Sharing
  | 0 => none
  | fuel + 1 => do
    if s.stops.size ≤ i then return s
    let s ← s.shrink space sizes i sizes.size
    let s := s.grow space sizes i sizes.size
    let stop := s.stops.getD i 0
    if sizes.size ≤ stop then return ⟨s.stops.take (i + 1), s.taken.take (i + 1)⟩
    if stop ≤ s.start i then none
    fill space sizes (i + 1) s fuel

/-- Moves cells to the page on the right while it is the emptier one. -/
def lean (sizes : Array Nat) (i : Nat) (isLast : Bool) (s : Sharing) : Nat → Sharing
  | 0 => s
  | fuel + 1 =>
    let r := s.stops.getD (i - 1) 0 - 1
    let size := sizeAt sizes r
    let right := s.taken.getD i 0
    let left := s.taken.getD (i - 1) 0
    if right ≠ 0 ∧ left - (size - if isLast then 2 else 0) < right + size then s
    else
      let s := ⟨s.stops.setIfInBounds (i - 1) r,
        (s.taken.setIfInBounds i (right + size)).setIfInBounds (i - 1) (left - size)⟩
      if r = 0 then s else lean sizes i isLast s fuel

def even (sizes : Array Nat) (s : Sharing) : Nat → Option Sharing
  | 0 => some s
  | i + 1 => do
    if s.stops.size ≤ i + 1 then even sizes s i
    else
      let s := s.lean sizes (i + 1) (i + 2 = s.stops.size) sizes.size
      if s.stops.getD i 0 ≤ s.start i then none
      even sizes s i

/-- None if the pages cannot hold what they say. -/
def settle (space : Nat) (sizes : Array Nat) (s : Sharing) : Option Sharing := do
  let s ← s.fill space sizes 0 (mostPages + 2)
  s.even sizes s.stops.size

end Sharing

namespace Room

abbrev leafPointers : Nat := 8

def rebuilt (usable : Nat) (pieces : List Piece) (i : Nat) : Option Room := do
  let place (done : Nat × List Block) (piece : Piece) : Option (Nat × List Block) :=
    let (top, cells) := done
    let isBroken : Bool := match piece.home with
      | some (home, block) => home = i && usable < block.stop
      | none => false
    if isBroken ∨ top < piece.size + leafPointers + 2 * (cells.length + 1) then none
    else some (top - piece.size, cells ++ [⟨top - piece.size, piece.size⟩])
  let (top, cells) ← pieces.foldlM place (usable, [])
  return ⟨usable, leafPointers, cells, top, [], 0, 0⟩

/-- Puts in a piece that was elsewhere, below all others if no free block fits. -/
def addPiece (floor : Nat) (room : Room) (piece : Piece) : Option (Room × Block) :=
  match fit? room.usable piece.size room.scraps room.blocks with
  | some (place, blocks, scraps) =>
    some ({ room with blocks := blocks, scraps := scraps }, ⟨place, piece.size⟩)
  | none =>
    if room.top < floor + piece.size then none
    else some ({ room with top := room.top - piece.size }, ⟨room.top - piece.size, piece.size⟩)

/-- Edits the page `i` in place: what it gives away is freed, then the pieces before those it
    keeps are put in, then those between, then those after. -/
def edited (room : Room) (i : Nat) (given kept : List Piece) : Option Room := do
  let floor := leafPointers + 2 * kept.length
  let isHere (piece : Piece) : Option Block := piece.home.bind fun (home, block) =>
    if home = i then some block else none
  let room := (given.filterMap isHere).foldl (fun room block => (room.release block).getD room) room
  if room.top < floor then none
  let put (done : Room × List Block) (piece : Piece) : Option (Room × List Block) := do
    let (room, cells) := done
    match isHere piece with
    | some block => return (room, cells ++ [block])
    | none =>
      let (room, block) ← room.addPiece floor piece
      return (room, cells ++ [block])
  let (room, cells) ← kept.foldlM put (room, [])
  return { room with cells := cells }

def blank (usable : Nat) : Room :=
  ⟨usable, leafPointers, [], usable, [], 0, usable - leafPointers⟩

def share (usable : Nat) (rooms : List Room) (i j size : Nat) : Option (List Room) := do
  let pieces := rooms.mapIdx fun k room =>
    let own := room.cells.map fun block => (⟨block.size, some (k, block)⟩ : Piece)
    if k = i then own.take j ++ ⟨size, none⟩ :: own.drop j else own
  let space := usable - leafPointers
  let ends := pieces.map List.length
  let stops := (List.range ends.length).map fun k => (ends.take (k + 1)).foldr (· + ·) 0
  let taken := rooms.mapIdx fun k room =>
    (space : Int) - room.free + if k = i then (2 + size : Int) else 0
  let all := pieces.flatten
  let sharing ← Sharing.settle space (all.map Piece.size).toArray ⟨stops.toArray, taken.toArray⟩
  (List.range sharing.stops.size).mapM fun k => do
    let start := sharing.start k
    let stop := sharing.stops.getD k 0
    let kept := (all.take stop).drop start
    let given := all.take start ++ all.drop stop
    let room ← ((rooms[k]?.getD (blank usable)).edited k given kept) <|> rebuilt usable kept k
    return { room with free := (space - sharing.taken.getD k 0).toNat }

end Room

end LayeredPreferences.Database

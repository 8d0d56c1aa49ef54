import LayeredPreferences.Database.Image

set_option autoImplicit false

/-!
# New pages

A page that is not in use comes before one at the end. Such pages are listed on some
of them, which are chained: each lists pages to be used first, the smallest one before
the others, and then itself. If the roots of all trees come first, maps tell of every
page what it is for.
-/
namespace LayeredPreferences.Database.Image

def isOwn (image : Image) (page : Nat) : Bool := 2 ≤ page && page ≤ image.pages

def pageStart (image : Image) (page : Nat) : Nat := (page - 1) * image.pageSize

def freeCount (image : Image) : Nat := image.bytes.number 36 4

/-! ## Maps -/

/-- The last root if all roots come first, else zero. -/
def lastRoot (image : Image) : Nat := image.bytes.number 52 4

/-- Whether free pages at the end are given up with every change, and not on demand. -/
def shrinks (image : Image) : Bool := image.lastRoot ≠ 0 && image.bytes.number 64 4 = 0

def mapOf (image : Image) (page : Nat) : Nat :=
  let span := image.usableSize / 5 + 1
  (page - 2) / span * span + 2

def isMap (image : Image) (page : Nat) : Bool := 2 ≤ page && image.mapOf page = page

def mapPlace (image : Image) (page : Nat) : Nat :=
  image.pageStart (image.mapOf page) + 5 * (page - image.mapOf page - 1)

structure Use where
  kind : Nat
  parent : Nat

def Use.root : Use := ⟨1, 0⟩

def Use.branch (parent : Nat) : Use := ⟨5, parent⟩

/-- Anything but a root and a free page can be moved elsewhere. -/
def Use.canMove (use : Use) : Bool := 3 ≤ use.kind && use.kind ≤ 5

def notMap (image : Image) (page : Nat) : Nat := if image.isMap page then page + 1 else page

def useOf (image : Image) (page : Nat) : Use :=
  ⟨image.bytes.byte (image.mapPlace page), image.bytes.number (image.mapPlace page + 1) 4⟩

def mapped (image : Image) (page : Nat) (use : Use) : Image :=
  if image.lastRoot = 0 then image
  else
    let place := image.mapPlace page
    (image.write place [.ofNat use.kind]).writeNumber (place + 1) use.parent

/-! ## Allocation -/

def taken (image : Image) : Except DatabaseFault (Nat × Image) := do
  let count := image.freeCount
  let list := image.bytes.number 32 4
  if image.pages ≤ count ∨ !image.isOwn list then throw .damaged
  let start := image.pageStart list
  let held := image.bytes.number (start + 4) 4
  let rest := image.writeNumber 36 (count - 1)
  if held = 0 then return (list, rest.writeNumber 32 (image.bytes.number start 4))
  if image.usableSize / 4 - 2 < held then throw .damaged
  let listed (i : Nat) : Nat := image.bytes.number (start + 8 + 4 * i) 4
  let distance (i : Nat) : Nat :=
    (Bytes.signed 32 ((listed i + 0xFFFFFFFF) % Nat.pow 2 32)).natAbs
  let i := (List.range held).foldl (fun best i => if distance i < distance best then i else best) 0
  if !image.isOwn (listed i) then throw .damaged
  let rest := rest.writeNumber (start + 8 + 4 * i) (listed (held - 1))
  return (listed i, rest.writeNumber (start + 4) (held - 1))

/-- Takes a page at the end, which counts at once. -/
def appended (image : Image) : Nat × Image :=
  let page := if image.lastRoot = 0 then image.pages + 1 else image.notMap (image.pages + 1)
  (page, (image.writeNumber 28 page).write 92 (image.bytes.slice 24 4))

def newPage (image : Image) (mark : UInt8) (use : Use) : Except DatabaseFault (Nat × Image) := do
  let (page, image) ← if image.freeCount = 0 then pure image.appended else image.taken
  let size := image.usableSize
  let header : List UInt8 := [mark, 0, 0, 0, 0, .ofNat (size / 256), .ofNat (size % 256)]
  let blank := header ++ List.replicate (image.pageSize - header.length) 0
  return (page, (image.write (image.pageStart page) blank).mapped page use)

/-- An empty root. If roots come first, what is on the page after them moves. -/
def newRoot (image : Image) (mark : UInt8) : Except DatabaseFault (Nat × Image) := do
  if image.lastRoot = 0 then image.newPage mark .root
  else
    if image.pages < image.lastRoot then throw .damaged
    let place := image.notMap (image.lastRoot + 1)
    if image.pages < place then
      let (page, image) ← image.newPage mark .root
      return (page, image.writeNumber 52 page)
    else
      let use := image.useOf place
      if !use.canMove && (use.kind ≠ 2 || image.freeCount = 0) then throw .damaged
      let (page, image) ← if image.freeCount = 0 then pure image.appended else image.taken
      return (place, ((image.mapped page use).mapped place .root).writeNumber 52 place)

end LayeredPreferences.Database.Image

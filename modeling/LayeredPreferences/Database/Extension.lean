import LayeredPreferences.Database.NewPages
import LayeredPreferences.Database.Rows
import LayeredPreferences.Database.Split

set_option autoImplicit false

/-!
# Objects made on opening

When a database is opened, the tables and indexes that preferences need are made,
those of them that are not there. Each takes a page for its tree and a row in the
catalog. What can go wrong is that a name stands for something else, or that pages
are not as they say.
-/
namespace LayeredPreferences.Database

inductive NewObject where
  | table (name definition : String)
  | index (name table column : String)

namespace NewObject

def owners (name : String) : NewObject :=
  .table name ("(\n\t\tid text NOT NULL,\n\t\tcreated_at datetime DEFAULT (unixepoch()),"
    ++ "\n\t\tPRIMARY KEY(id)\n\t)")

def preferences (name owner owners : String) : NewObject :=
  .table name ("(\n\t\tpreference_id text NOT NULL,\n\t\tpreference_value text,\n\t\t" ++ owner
    ++ " text NOT NULL,\n\t\tPRIMARY KEY(preference_id, " ++ owner ++ "),\n\t\tFOREIGN KEY("
    ++ owner ++ ")\n\t\t\tREFERENCES " ++ owners
    ++ "(id)\n\t\t\tON UPDATE CASCADE\n\t\t\tON DELETE CASCADE\n\t)")

def all : List NewObject :=
  [owners "organizations", owners "users",
    preferences "org_preference" "org_id" "organizations",
    .index "idx_org_preference_org" "org_preference" "org_id",
    preferences "user_preference" "user_id" "users",
    .index "idx_user_preference_user" "user_preference" "user_id"]

end NewObject

/-- A leaf of the catalog. Its room is found out when it is needed. -/
inductive Leaf where
  | untouched (page : Page)
  | known (room : Room)

namespace Leaf

def room? : Leaf → Option Room
  | .untouched page => Room.ofPage? page
  | .known room => some room

def count : Leaf → Nat
  | .untouched page => page.cells
  | .known room => room.cells.length

end Leaf

structure Growth where
  catalog : Catalog
  /-- The image with the new pages, still without the rows of the catalog. -/
  image : Image
  page : Page
  branch : Option Page
  /-- The leaves of the catalog, unknown in a deeper tree. -/
  leaves : Option (List Leaf)
  lastRow : Nat

abbrev Growing (α : Type) := StateT Growth (Except DatabaseFault) α

namespace Growing

def damaged {α : Type} : Growing α := throw .damaged

def newRoot (mark : UInt8) : Growing Nat := do
  let (page, image) ← (← get).image.newRoot mark
  modify ({ · with image := image })
  return page

def newLeaves (count : Nat) : Growing Unit := (List.range count).forM fun _ => do
  let (_, image) ← (← get).image.newPage 13 (.branch 1)
  modify ({ · with image := image })

/-! ## The last page of the catalog -/

def groupCount (n : Nat) : Nat := n.log2 / 7 + 1

def numberSize (n : Nat) : Nat :=
  if n < 2 then 0 else n.log2 / 8 + (if n.log2 % 8 = 7 then 2 else 1)

def rowSize (encoding : Encoding) (texts : List String) (hasStatement : Bool) (root : Nat) : Nat :=
  let sizes := texts.map encoding.size
  let header := 1 + sizes.foldr (fun n rest => groupCount (13 + 2 * n) + rest) 0 + 1
    + (if hasStatement then 0 else 1)
  header + sizes.foldr (· + ·) 0 + numberSize root

def cellSize (page : Page) (row size : Nat) : Nat :=
  let share := page.share size
  groupCount size + groupCount row + share + if share < size then 4 else 0

/-- The leaf of a cell, and its place there. After the last cell comes a new one. -/
def locate (leaves : List Leaf) (i : Nat) : Nat × Nat :=
  match leaves with
  | [] => (0, 0)
  | leaf :: rest =>
    if i < leaf.count ∨ rest.isEmpty then (0, i)
    else
      let (k, j) := locate rest (i - leaf.count)
      (k + 1, j)

/-- Once the root is split, its leaf has no header of the image before it, and nothing on it that
    lies before the cells. -/
def lowered (room : Room) : Room :=
  { room with
    pointers := Room.leafPointers
    free := room.free + (room.pointers - Room.leafPointers)
    cells := room.cells.map fun cell => if cell.place < room.top then { cell with size := 4 }
      else cell }

/-- Splits a leaf that has no room, together with up to two neighbours. -/
def split (g : Growth) (leaves : List Leaf) (k j size : Nat) : Growing Unit := do
  if g.branch.any fun page => (Room.ofPage? page).isNone then damaged
  let last := leaves.length - 1
  let first := if last < 2 ∨ k = 0 then 0 else if k = last then last - 2 else k - 1
  let chosen := (leaves.drop first).take 3
  match chosen.mapM Leaf.room? with
  | none => damaged
  | some rooms =>
    let isRoot := g.branch.isNone && leaves.length = 1
    let rooms := if isRoot then rooms.map lowered else rooms
    match Room.share g.page.usable rooms (k - first) j size with
    | none => damaged
    | some rooms =>
      set { g with leaves :=
        leaves.take first ++ rooms.map Leaf.known ++ leaves.drop (first + chosen.length) }
      newLeaves (if isRoot then rooms.length else rooms.length - chosen.length)

def insert (i size : Nat) : Growing Unit := do
  let g ← get
  if let some leaves := g.leaves then
    let (k, j) := locate leaves i
    match leaves[k]?.bind Leaf.room? with
    | none => damaged
    | some room =>
      if room.holds size then
        match room.insert j size with
        | some room => set { g with leaves := some (leaves.set k (.known room)) }
        | none => damaged
      else split g leaves k j size

def erase (i : Nat) : Growing Unit := do
  let g ← get
  if let some leaves := g.leaves then
    let (k, j) := locate leaves i
    match leaves[k]?.bind Leaf.room? |>.bind (·.erase j) with
    | some room => set { g with leaves := some (leaves.set k (.known room)) }
    | none => damaged

def cellCount : Growing Nat :=
  return ((← get).leaves.getD []).foldr (·.count + ·) 0

def append (size : Nat) : Growing Unit := do
  let g ← get
  let row := g.lastRow + 1
  modify ({ · with lastRow := row })
  insert (← cellCount) (cellSize g.page row size)

/-! ## Objects -/

/-- The size of a row that stands in for the one of a table. -/
abbrev blankRowSize : Nat := 6

/-- The row of a table is blank until its indexes are made. -/
def addTable (name definition : String) : Growing Unit := do
  let encoding := (← get).image.encoding
  let root ← newRoot 13
  append blankRowSize
  let keyRoot ← newRoot 10
  append (rowSize encoding ["index", s!"sqlite_autoindex_{name}_1", name] false keyRoot)
  let g ← get
  let i := (← cellCount) - 2
  let statement := "CREATE TABLE " ++ name ++ " " ++ definition
  erase i
  insert i (cellSize g.page (g.lastRow - 1)
    (rowSize encoding ["table", name, name, statement] true root))

def makeTable (name definition : String) : Growing Unit := do
  let catalog := (← get).catalog
  if (catalog.relation? name).isSome then return
  if (catalog.index? name).isSome then throw (.indexExists name)
  if !(← get).image.canBeWritten then throw .readOnly
  addTable name definition

/-- An index is made of a table, and under a name of its own. -/
def checkNames (catalog : Catalog) (name table : String) : Except DatabaseFault Unit :=
  match catalog.relation? table with
  | some .view => .error .viewIndexed
  | some .virtualTable => .error .virtualTableIndexed
  | _ => if (catalog.relation? name).isSome then .error (.tableExists name) else .ok ()

/-- The rows that are there already must be readable. -/
def checkRows (image : Image) (catalog : Catalog) (table column : String) :
    Except DatabaseFault Unit := do
  if let some (.table shape root) := catalog.relation? table then
    match shape.column? column with
    | none => throw (.noColumn column)
    | some i =>
      let collation := (shape.column i).collation
      if collation.toLower ∉ Collation.all then throw (.noCollation collation)
      if let some collation := shape.unknownCollation? then throw (.noKeyCollation collation)
      if let some fault := shape.fault? i then throw fault
      if !image.canBeWritten then throw .readOnly
      let (entries, fault) := image.tree root shape.isNumbered
      entries.forM fun entry => do
        let _ ← image.cell shape entry i
      if let some fault := fault then throw fault

def makeIndex (name table column : String) : Growing Unit := do
  let g ← get
  checkNames g.catalog name table
  if (g.catalog.index? name).isSome then return
  checkRows g.image g.catalog table column
  let root ← newRoot 10
  let statement := s!"CREATE INDEX {name} ON {table}({column})"
  append (rowSize g.image.encoding ["index", name, table, statement] true root)

def make : NewObject → Growing Unit
  | .table name definition => makeTable name definition
  | .index name table column => makeIndex name table column

end Growing

namespace Image

def lastLeaf (image : Image) (page : Page) : Nat → Except DatabaseFault Page
  | 0 => .error .damaged
  | level + 1 => do
    if page.kind.isLeaf then return page
    image.lastLeaf (← image.page (page.child page.cells)) level

def leaves? (image : Image) (root : Page) : Option (List Leaf) := do
  if root.kind.isLeaf then return [.untouched root]
  let pages ← (List.range (root.cells + 1)).mapM fun i => (image.page (root.child i)).toOption
  if pages.all (·.kind.isLeaf) then return pages.map Leaf.untouched
  none

def withoutReserved (image : Image) : Image :=
  ⟨image.bytes.mapIdx fun i b => if image.usableSize ≤ i && i < image.pageSize then 0 else b⟩

def checkWriting (image : Image) : Except DatabaseFault Unit := do
  if !image.canBeWritten then throw .readOnly
  if image.shrinks && image.isMap image.pages then throw .damaged

/-- Makes what is missing, and reads what is there already as it is found then: a split of the only
    leaf does not keep reserved bytes. -/
def extend (image : Image) (catalog : Catalog) : Except DatabaseFault (Image × Catalog) := do
  if !image.keepsLog then image.checkWriting
  let root ← image.root 1 true
  let last ← image.lastLeaf root deepest
  let row := (last.entries.getLast?.map (·.row.toNat)).getD 0
  let start : Growth :=
    ⟨catalog, image, last,
      if root.kind.isLeaf then none else some root, image.leaves? root, row⟩
  let (_, g) ← (NewObject.all.forM Growing.make).run start
  if row < g.lastRow then g.image.checkWriting
  let isSplit := root.kind.isLeaf && 1 < (g.leaves.getD []).length
  if isSplit && image.usableSize < image.pageSize then
    return (g.image, ← image.withoutReserved.catalog false)
  return (g.image, catalog)

end Image

end LayeredPreferences.Database

import LayeredPreferences.Database.Plan
import LayeredPreferences.Database.Rows
import LayeredPreferences.Database.Seek

set_option autoImplicit false

/-!
# Search

The rows of a table with a given text in one column, in the order in which the
cheapest way comes to them. Each row is read before the next one is looked for.
-/
namespace LayeredPreferences.Database

/-- A row as it was found: its entry in an index with the columns it has there, and its entry in
    the table, where it was looked up. -/
structure Found where
  indexed : Option (List (Option Nat) × Entry)
  entry : Option Entry

namespace Image

def statistics (image : Image) (catalog : Catalog) (table : String) (shape : Shape)
    (indexes : List Index) : TableStatistics :=
  match catalog.relation? "sqlite_stat1" with
  | some (.table own root) =>
    match own.column? "tbl", own.column? "idx", own.column? "stat" with
    | some tbl, some idx, some stat =>
      let text (entry : Entry) (i : Nat) : Option (Option String) := do
        let cell ← (image.cell own entry i).toOption
        return (cell.text? image.encoding).map shown
      let row (entry : Entry) : Option (Option String × Option String × Option String) :=
        return (← text entry tbl, ← text entry idx, ← text entry stat)
      let rows := (image.tree root own.isNumbered).1.map row
      ((rows.takeWhile Option.isSome).filterMap id).foldl (fun known row =>
        match row with
        | (some name, index, some counts) =>
          if !sameName name table then known
          else
            let index := index.bind fun index =>
              indexes.find? fun i =>
                if sameName index table then i.isPrimary else sameName i.name index
            known.learn shape index counts
        | _ => known) (.unknown shape)
    | _, _, _ => .unknown shape
  | _ => .unknown shape

/-- The content of a column, from the index if it is there. What is computed is worked out where the
    row is known. -/
def read (image : Image) (shape : Shape) (found : Found) (i : Nat) : Except DatabaseFault Cell := do
  let row := match found.entry with
    | some entry => image.cell shape entry i
    | none => .ok .null
  match found.indexed with
  | none => row
  | some (columns, entry) =>
    let own := if shape.numberColumn = some i then columns.length else columns.idxOf (some i)
    let isWorkedOut := found.entry.isSome && !(shape.column i).isKept
    if shape.numberColumn ≠ some i ∧ (!columns.contains (some i) ∨ isWorkedOut) then row
    else return (shape.column i).readOr image.encoding (← image.column entry.payload own)

/-- The row of an entry of an index. A key need not lead to a row. -/
def rowOf (image : Image) (shape : Shape) (root : Nat) (columns : List (Option Nat))
    (rows : List Entry) (last : Option Entry) (entry : Entry) :
    Except DatabaseFault (Option Entry) := do
  if shape.isNumbered then
    match ← image.column entry.payload columns.length with
    | some (.integer row) => return some (← image.numbered root rows last row)
    | _ => throw .damaged
  else
    let key ← (shape.keyParts.filterMap Prod.fst).mapM fun i =>
      return (← image.column entry.payload (columns.idxOf (some i))).getD .null
    image.seekKey shape root key

end Image

structure Sought (α : Type) where
  image : Image
  shape : Shape
  root : Nat
  place : Nat
  content : String
  read : Found → Except DatabaseFault α

namespace Sought

variable {α : Type} (sought : Sought α)

def collation : String := (sought.shape.column sought.place).collation

def isSuch (found : Found) : Except DatabaseFault Bool :=
  return (← sought.image.read sought.shape found sought.place).isText sought.image.encoding
    sought.collation sought.content

def taken (isOnly : Bool) (found : Found) : Except DatabaseFault (Image.Step (Found × α)) := do
  let x ← sought.read found
  return if isOnly then .takeLast (found, x) else .take (found, x)

def gathered (entries : List Entry × Option DatabaseFault)
    (step : Option Entry → Entry → Except DatabaseFault (Image.Step (Found × α))) :
    Except DatabaseFault (List α) :=
  return (← Image.gather (fun last entry => step (last.bind (·.1.entry)) entry) entries.2 []
    entries.1).map Prod.snd

def overTable : Except DatabaseFault (List α) :=
  gathered (sought.image.tree sought.root sought.shape.isNumbered) fun _ entry => do
    let found : Found := ⟨none, some entry⟩
    if ← sought.isSuch found then sought.taken false found else return .skip

def rows : List Entry := (sought.image.tree sought.root sought.shape.isNumbered).1

def overIndex (way : Way) (index : Index) : Except DatabaseFault (List α) := do
  let columns := index.columns sought.shape
  let rows := if way.isWhole then [] else sought.rows
  gathered (sought.image.tree index.root false) fun last entry => do
    let known : Found := ⟨some (columns, entry), none⟩
    if columns.contains (some sought.place) then
      if !(← sought.isSuch known) then return .skip
    if way.isWhole then return ← sought.taken false known
    match ← sought.image.rowOf sought.shape sought.root columns rows last entry with
    | none => return .skip
    | some row =>
      let whole : Found := ⟨known.indexed, some row⟩
      if ← sought.isSuch whole then sought.taken false whole else return .skip

/-- From the first entry of an index on that has the text. If no two rows agree there is only one. -/
def byIndex (way : Way) (index : Index) : Except DatabaseFault (List α) := do
  let image := sought.image
  let shape := sought.shape
  let columns := index.columns shape
  let isOfRows := !shape.isNumbered && index.isPrimary
  let text := image.encoding.encode sought.content.toUTF8.toList
  let front : Image.Front := {
    parts := [⟨.text text, sought.collation, index.parts.head?.any SortPart.isDescending⟩]
    columns := columns.length + if shape.isNumbered then 1 else 0 }
  let isOnly : Bool := index.isUnique && index.parts.length = 1
  let rows := if way.isWhole then [] else sought.rows
  let root := if isOfRows then sought.root else index.root
  gathered (image.entriesFrom root front) fun last entry => do
    if ← image.isAfter front entry then return .stop
    if isOfRows then sought.taken isOnly ⟨none, some entry⟩
    else if way.isWhole then sought.taken isOnly ⟨some (columns, entry), none⟩
    else match ← image.rowOf shape sought.root columns rows last entry with
      | some row => sought.taken isOnly ⟨some (columns, entry), some row⟩
      | none => return if isOnly then .stop else .skip

/-- Over an index that has just been made. Rows that agree are in the order of their numbers. -/
def byNewIndex : Except DatabaseFault (List α) := do
  let image := sought.image
  let shape := sought.shape
  let finding : Sought Found := { sought with read := .ok }
  let found ← finding.overTable
  let entries := found.filterMap Found.entry
  let entries := if shape.isNumbered then entries.mergeSort (fun a b => a.row ≤ b.row) else entries
  let all := sought.rows
  gathered (entries, none) fun last entry => do
    let row ←
      if shape.isNumbered then some <$> image.numbered sought.root all last entry.row
      else image.seekKey shape sought.root (← image.keyOf shape entry)
    match row with
    | some row => sought.taken false ⟨none, some row⟩
    | none => return .skip

end Sought

def Image.search {α : Type} (image : Image) (catalog : Catalog) (table : String) (shape : Shape)
    (root : Nat) (new : List Index) (columns : List Nat) (i : Nat) (content : String)
    (read : Found → Except DatabaseFault α) : Except DatabaseFault (List α) := do
  let indexes := (catalog.indexes ++ new).filter fun index => sameName index.table table
  let known := image.statistics catalog table shape indexes
  let way (content : Option String) := Way.best shape known indexes columns i content
  if !(way none).isSearch then
    if let some fault := shape.fault? i then throw fault
  let way := way (some content)
  let sought : Sought α := ⟨image, shape, root, i, content, read⟩
  match way.index with
  | none => sought.overTable
  | some index =>
    let isOfRows := !shape.isNumbered && index.isPrimary
    if !isOfRows && new.any (·.name = index.name) then sought.byNewIndex
    else
      if !isOfRows then
        if let some collation := unknownCollation? shape.columns index.parts then
          throw (.noCollation collation)
      if way.isSearch then sought.byIndex way index
      else if isOfRows then sought.overTable
      else sought.overIndex way index

end LayeredPreferences.Database

import LayeredPreferences.Database.Catalog
import LayeredPreferences.Database.Estimate

set_option autoImplicit false

/-!
# Ways to rows

Rows with a given content of one column are found over an index, or by a look at
all rows. Each way has a cost, and the cheapest one is taken. Costs follow from
estimates: how many rows there are, how many of them an index takes for one, and
how wide its entries are.
-/
namespace LayeredPreferences.Database

/-! ## Widths -/

/-- The number in a type's name after the part that tells of texts or bytes. -/
def statedLength (type : List Char) : Option Nat :=
  match type with
  | [] => none
  | _ :: rest => (statedLength rest).orElse fun _ =>
    if "char".toList.isPrefixOf type ∨ "blob(".toList.isPrefixOf type then
      let digits := ((type.drop 4).dropWhile (!·.isDigit)).takeWhile Char.isDigit
      some (Nat.ofDigitChars 10 digits 0)
    else none

def Column.width (column : Column) : Nat :=
  if column.type.isEmpty then 1
  else match column.affinity with
    | .any | .text => min 255 (((statedLength column.type.toLower.toList).getD 16) / 4 + 1)
    | _ => 1

def Shape.width (shape : Shape) : Estimate :=
  let columns := shape.columns.foldr (·.width + ·) 0
  .ofNat (4 * (columns + if shape.numberColumn.isNone then 1 else 0))

namespace Index

/-- The columns that an entry has, by their places in the table, none for what is computed. If
    rows have no numbers, entries have the key of their row. -/
def columns (index : Index) (shape : Shape) : List (Option Nat) :=
  let own := sorting shape.columns index.parts
  if shape.isNumbered then own.map Prod.fst
  else if index.isPrimary then shape.kept.map some
  else (own ++ shape.keyParts.filter (!own.contains ·)).map Prod.fst

def width (index : Index) (shape : Shape) : Estimate :=
  let columns := (index.columns shape).map fun
    | some i => (shape.column i).width
    | none => 1
  .ofNat (4 * (columns.foldr (· + ·) 0 + if shape.isNumbered then 1 else 0))

end Index

/-! ## Statistics -/

/-- What is known of an index: how many rows it has, and how many of them agree in the first of
    its columns, in the first two, and so on. -/
structure IndexStatistics where
  rows : List Estimate
  width : Estimate
  isUnordered : Bool
  isPoor : Bool

structure TableStatistics where
  rows : Estimate
  width : Estimate
  indexes : List (String × IndexStatistics)

namespace TableStatistics

/-- Rows that agree are thought to be few. -/
def guessed (rows : Estimate) (index : Index) : List Estimate :=
  let n := index.parts.length
  let rows := if index.condition.isNone then rows else rows - 10
  let agreeing := (List.range n).map fun i => [33, 32, 30, 28, 27].getD i 23
  rows :: if index.isUnique then agreeing.take (n - 1) ++ [0] else agreeing

/-- A table that nothing is known of is thought to have a million rows. -/
def unknown (shape : Shape) : TableStatistics := ⟨200, shape.width, []⟩

def index (known : TableStatistics) (shape : Shape) (index : Index) : IndexStatistics :=
  ((known.indexes.find? (·.1 = index.name)).map Prod.snd).getD
    ⟨guessed (max 99 known.rows) index, index.width shape, false, false⟩

def counts : Nat → List Char → List Estimate × List Char
  | 0, cs => ([], cs)
  | n + 1, cs =>
    if cs.isEmpty then ([], [])
    else
      let rest := cs.dropWhile Char.isDigit
      let rest := if rest.head? = some ' ' then rest.drop 1 else rest
      let (more, rest) := counts n rest
      (.ofNat (Nat.ofDigitChars 10 (cs.takeWhile Char.isDigit) 0) :: more, rest)

def statedWidth (words : List String) (width : Estimate) : Estimate :=
  words.foldl (fun width word =>
    let digits := (word.toList.drop 3).takeWhile Char.isDigit
    if (word.toList.take 3) = "sz=".toList ∧ !digits.isEmpty then
      .ofNat (max 2 (Nat.ofDigitChars 10 digits 0))
    else width) width

def learn (known : TableStatistics) (shape : Shape) (index : Option Index) (text : String) :
    TableStatistics :=
  let n := (index.map fun index => index.parts.length + 1).getD 1
  let (counts, rest) := counts n text.toList
  let words := ((String.ofList rest).splitOn " ").filter (· ≠ "")
  match index with
  | none =>
    { known with rows := counts.head?.getD known.rows, width := statedWidth words known.width }
  | some index =>
    let rows := counts ++ (guessed 200 index).drop counts.length
    let total := rows.head?.getD 0
    let isPoor := 66 < total && total ≤ rows.getLast?.getD 0
    let isUnordered := words.any fun word => "unordered".toList.isPrefixOf word.toList
    let found : IndexStatistics :=
      ⟨rows, statedWidth words (index.width shape), isUnordered, isPoor⟩
    { known with
      rows := if index.condition.isNone then total else known.rows
      indexes := (index.name, found) :: known.indexes }

end TableStatistics

/-! ## Ways -/

structure Way where
  index : Option Index
  isSearch : Bool
  isWhole : Bool
  cost : Estimate
  rows : Estimate

namespace Way

def isAbout (shape : Shape) (column : Nat) (index : Index) : Bool :=
  (sorting shape.columns index.parts).head?
    = some (some column, (shape.column column).collation.toLower)

def isOf (shape : Shape) (column : Nat) : Expression → Bool
  | .column _ name _ => shape.column? name = some column
  | _ => false

def isContent (shape : Shape) (content : Option String) (x : Expression) : Bool :=
  content.any fun s =>
    match x with
    | .column _ name (some _) => (shape.column? name).isNone && name = s
    | x => x.kept? .utf8 .any = some (.ofText s)

def isSame (shape : Shape) (column : Nat) (content : Option String) : Expression → Bool
  | .node (.binary operator) [x, y] =>
    ["=", "=="].contains operator && isOf shape column x && isContent shape content y
  | _ => false

def isImplied (shape : Shape) (column : Nat) (content : Option String) : Expression → Bool
  | .node (.binary "or") [x, y] =>
    isImplied shape column content x || isImplied shape column content y
  | .node (.unary "notnull") [x] =>
    isOf shape column x || isContent shape content x || isSame shape column content x
  | x => isSame shape column content x

/-- Whether a condition holds of every row with this content of a column, or with any if it is not
    known yet. -/
def follows (shape : Shape) (column : Nat) (content : Option String) : Expression → Bool
  | .node (.binary "and") [x, y] => follows shape column content x && follows shape column content y
  | x => isImplied shape column content x

/-- An index of some of the rows serves if it has all that are asked for. -/
def serves (shape : Shape) (column : Nat) (content : Option String) (index : Index) : Bool :=
  index.condition.all (follows shape column content)

/-- The columns that are read. A computed one can need any other. -/
def needed (shape : Shape) (columns : List Nat) : List Nat :=
  if columns.all fun i => !(shape.column i).isComputed then
    columns.filter fun i => shape.numberColumn ≠ some i
  else List.range shape.columns.length

def isWholeFor (shape : Shape) (columns : List Nat) (index : Index) : Bool :=
  !shape.isNumbered && index.isPrimary
    || (needed shape columns).all fun i =>
      (index.columns shape).contains (some i) && (shape.column i).isKept

/-- A look at all entries, if it is worth it. Rows without numbers are in some index in any case. -/
def ofAll? (shape : Shape) (known : TableStatistics) (columns : List Nat) (column : Nat)
    (index : Index) : Option Way :=
  let found := known.index shape index
  let rows := found.rows.head?.getD 0
  let isWhole := isWholeFor shape columns index
  if shape.isNumbered ∧ index.condition.isNone
      ∧ !(isWhole && !found.isUnordered && found.width < known.width) then none
  else
    let cost := rows + 1 + 15 * found.width / known.width
    let lookUps := if (index.columns shape).contains (some column) then rows - 4 else rows + 16
    let cost := if isWhole then cost else cost.sum lookUps
    some ⟨some index, false, isWhole, cost, rows - 20⟩

def ofSearch? (shape : Shape) (known : TableStatistics) (columns : List Nat) (column : Nat)
    (index : Index) : Option Way :=
  let found := known.index shape index
  if !isAbout shape column index ∨ found.isPoor then none
  else
    let all := found.rows.head?.getD 0
    let rows := found.rows.getD 1 0
    let isWhole := isWholeFor shape columns index
    let cost := (Estimate.depth all).sum (rows + 1 + 15 * found.width / known.width)
    let cost := if isWhole then cost else cost.sum (rows + 16)
    some ⟨some index, true, isWhole, cost, min rows all⟩

/-- Whether to look at all entries is no better than to search, so that it must not cost less. -/
def isLess (all search : Way) : Bool :=
  all.index.isSome && !all.isSearch && search.isSearch
    && (all.cost ≤ search.cost || all.rows ≤ search.rows) && (!all.isWhole || search.isWhole)

def insert (ways : List Way) (way : Way) : List Way :=
  ways ++ [ways.foldl (fun way other =>
    if isLess other way then
      { way with cost := min other.cost way.cost, rows := min (other.rows - 1) way.rows }
    else if isLess way other then
      { way with cost := max other.cost way.cost, rows := max (other.rows + 1) way.rows }
    else way) way]

/-- Of two ways that are as good the one found before. -/
def better (a b : Way) : Way :=
  let cost (way : Way) : Estimate := way.cost.sum 0
  if cost b < cost a ∨ cost b = cost a ∧ b.rows < a.rows then b else a

/-- New indexes come before old ones, those that replace rows at the end. -/
def ordered (indexes : List Index) : List Index :=
  let newest := indexes.reverse
  newest.filter (!·.replaces) ++ newest.filter Index.replaces

/-- The way to the rows with this content of one column, if these columns are asked for. An index in
    which no two rows agree is searched without a look at any cost. -/
def best (shape : Shape) (known : TableStatistics) (indexes : List Index) (columns : List Nat)
    (column : Nat) (content : Option String) : Way :=
  let known := if indexes.all fun i => known.indexes.any (·.1 = i.name) then known
    else { known with rows := max 99 known.rows }
  let all : Way := ⟨none, false, true, known.rows + 16, known.rows - 20⟩
  let indexes := ordered indexes
  let isSingle (index : Index) : Bool :=
    index.isUnique && index.condition.isNone && index.parts.length = 1
      && isAbout shape column index
  if shape.numberColumn = some column then all
  else match indexes.find? isSingle with
    | some index => ⟨some index, true, isWholeFor shape columns index, 0, 0⟩
    | none =>
      let ways := (indexes.filter (serves shape column content)).flatMap fun index =>
        (ofAll? shape known columns column index).toList
          ++ (ofSearch? shape known columns column index).toList
      let ways := ways.foldl insert (if shape.isNumbered then [all] else [])
      match ways with
      | [] => all
      | way :: rest => rest.foldl better way

end Way

end LayeredPreferences.Database

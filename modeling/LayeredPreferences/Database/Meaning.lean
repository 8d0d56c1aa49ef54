import LayeredPreferences.Database.Expression
import LayeredPreferences.Database.Function

set_option autoImplicit false

/-!
# What expressions may say

An expression in the description of a table speaks of its columns. Where it stands
decides what else it may not do. Of several faults the last one is told. After a
fault names and calls are still looked at, up to what is neither.
-/
namespace LayeredPreferences.Database

structure Place where
  kind : String
  table : String
  columns : List String
  hasRowNames : Bool
  hasPaths : Bool
  canChange : Bool

/-- What is found while an expression is looked at: the last fault, and whether to go on. -/
structure Findings where
  fault : Option String
  isOver : Bool

namespace Place

def rowNames : List String := ["rowid", "oid", "_rowid_"]

def has (place : Place) (name : String) : Bool :=
  place.columns.any fun c => c.toLower = name.toLower

def isOwn (place : Place) (path : List String) : Bool :=
  path.map String.toLower ∈ [[place.table.toLower], ["main", place.table.toLower]]

def ofColumn (place : Place) (path : List String) (name : String) (mark : Option Char) :
    Findings :=
  if path.isEmpty then
    if place.has name || place.hasRowNames && rowNames.contains name.toLower
        || (Expression.ofName? name mark).isSome then ⟨none, false⟩
    else ⟨some s!"no such column: {name}", true⟩
  else if place.isOwn path && place.has name then
    ⟨if place.hasPaths then none
      else some ("the \".\" operator prohibited in " ++ place.kind), false⟩
  else ⟨some ("no such column: " ++ ".".intercalate (path ++ [name])), true⟩

def isLikelihood : Expression → Bool
  | .number digits =>
    !Literal.isWhole digits
      && (Literal.cell false digits).signedUnits ≤ Binary64.unitsOfOne
  | _ => false

def ofFunction (place : Place) (f : Function) (name : String) (parts : List Expression) :
    Option String :=
  if f.kind = .changing && !place.canChange then
    some s!"non-deterministic functions prohibited in {place.kind}"
  else if f.name = "likelihood" && !parts.getLast?.any isLikelihood then
    some s!"second argument to {name}() must be a constant between 0.0 and 1.0"
  else none

/-- What only belongs to functions of many rows. -/
def ofForm (name : String) : CallForm → Option String
  | .plain => none
  | .sorted => some s!"ORDER BY may not be used with non-aggregate {name}()"
  | .filtered | .windowed => some s!"FILTER may not be used with non-aggregate {name}()"

def ofCall (place : Place) (name : String) (form : CallForm) (parts : List Expression) :
    Option String :=
  match Function.find? name parts.length with
  | none =>
    if Function.isKnown name then some s!"wrong number of arguments to function {name}()"
    else ofForm name form
  | some f =>
    match f.kind, form with
    | .window, _ | .aggregate, .windowed => some s!"misuse of window function {name}()"
    | .aggregate, _ => some s!"misuse of aggregate function {name}()"
    | _, .windowed => some s!"{name}() may not be used as a window function"
    | _, form => ofForm name form <|> place.ofFunction f name parts

def ofBareName (place : Place) : Expression → Option String
  | .column [] name mark => (place.ofColumn [] name mark).fault
  | .node (.collate _) [x] => place.ofBareName x
  | _ => none

/-- A name on the right of such an operator is looked at first. -/
def ofLast (place : Place) (operation : Operation) (parts : List Expression) : Option String :=
  match operation, parts with
  | .binary "is", [_, x] | .binary "isnot", [_, x] => place.ofBareName x
  | _, _ => none

def ofWidths (operation : Operation) (parts : List Expression) : Option String :=
  let widths := parts.map Expression.width
  if operation.isComparison && widths.any (· ≠ widths.headD 1) then some "row value misused"
  else none

def ofLeaf (place : Place) (known : Option String) : Expression → Findings
  | .column path name mark =>
    let found := place.ofColumn path name mark
    ⟨found.fault <|> known, found.isOver⟩
  | .variable => ⟨some s!"parameters prohibited in {place.kind}", true⟩
  | .query => ⟨some s!"subqueries prohibited in {place.kind}", true⟩
  | _ => ⟨known, known.isSome⟩

mutual

/-- What is found in an expression after a fault that is `known`. -/
def findings (place : Place) (known : Option String) : Expression → Findings
  | .node (.call name form) parts =>
    ⟨(findingsOf place (place.ofCall name form parts <|> known) parts).fault, false⟩
  | .node operation parts =>
    let settled := operation.settled place.has parts
    match place.ofLast operation parts <|> ofWidths settled parts <|> known with
    | some fault => ⟨some fault, true⟩
    | none => findingsOf place none parts
  | x => place.ofLeaf known x

def findingsOf (place : Place) (known : Option String) : List Expression → Findings
  | [] => ⟨known, false⟩
  | x :: rest =>
    let here := findings place known x
    if here.isOver then here else findingsOf place here.fault rest

end

def fault? (place : Place) (known : Option String) (x : Expression) : Option String :=
  (place.findings known x).fault

end Place

end LayeredPreferences.Database

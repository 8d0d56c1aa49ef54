import LayeredPreferences.Database.Characters
import LayeredPreferences.Database.Encoding
import LayeredPreferences.Database.Record
import LayeredPreferences.Database.Statement
import LayeredPreferences.Database.Tree

set_option autoImplicit false

/-!
# Catalogs

The first tree of a database is a table of what it holds: the kind and the name of
each object, the table it belongs to, the root of its tree, and the statement that
created it. Objects are taken in order, and each must fit those before it.
-/
namespace LayeredPreferences.Database

inductive Relation where
  | table (shape : Shape) (root : Nat)
  | view
  | virtualTable

structure Index where
  name : String
  table : String
  parts : List SortPart
  isUnique : Bool
  /-- Whether a second row takes the place of the one before. -/
  replaces : Bool
  isPrimary : Bool
  /-- What holds of the rows it has. -/
  condition : Option Expression
  root : Nat

structure Catalog where
  relations : List (String × Relation)
  indexes : List Index
  triggers : List String
  takesRows : Bool

structure Description where
  kind : Option String
  name : Option String
  table : Option String
  root : Option String
  statement : Option (List UInt8)

namespace Catalog

def ownName : String := "sqlite_master"

def ownShape : Shape where
  columns := [("type", "text"), ("name", "text"), ("tbl_name", "text"), ("rootpage", "int"),
    ("sql", "text")].map fun c => ⟨c.1, c.2, "binary", none, .given⟩
  numberColumn := none
  isNumbered := true
  keys := []

def empty (takesRows : Bool) : Catalog := ⟨[(ownName, .table ownShape 1)], [], [], takesRows⟩

/-- The catalog goes by two names. -/
def found? (catalog : Catalog) (name : String) : Option (String × Relation) :=
  let name := if sameName name "sqlite_schema" then ownName else name
  catalog.relations.find? fun r => sameName r.1 name

def relation? (catalog : Catalog) (name : String) : Option Relation :=
  (catalog.found? name).map Prod.snd

def index? (catalog : Catalog) (name : String) : Option Index :=
  catalog.indexes.find? fun index => sameName index.name name

def keyIndexes (table : String) (keys : List Key) : List Index :=
  keys.mapIdx fun i key => {
    name := s!"sqlite_autoindex_{table}_{i + 1}"
    table := table
    parts := key.parts
    isUnique := true
    replaces := key.conflict = some "replace"
    isPrimary := key.isPrimary
    condition := none
    root := 0 }

def rootOf? (root : String) : Option Nat :=
  if !root.isEmpty && root.toList.all Char.isDigit then
    let n := Nat.ofDigitChars 10 root.toList 0
    if n < Nat.pow 2 32 then some n else none
  else none

def isSaid (said : Option String) (name : String) : Bool := said.any (sameName name)

def isLike (row : Description) (kind name table : String) : Bool :=
  isSaid row.kind kind && isSaid row.name name && isSaid row.table table

/-- No two objects have one name. What is said to start where the catalog does is the catalog. -/
def fault? (catalog : Catalog) (row : Description) (kind : String) (head : Phrase.Head)
    (root : Nat) : Option StatementFault :=
  let name := if root = 1 then ownName else head.name.value
  if head.hasPath ∧ root ≠ 1 then some (.meaningless "corrupt database")
  else if !isLike row kind name name then some .unlike
  else match catalog.relation? name with
    | some relation =>
      let what := match relation with
        | .view => "view"
        | _ => "table"
      if head.isLenient then none
      else some (.meaningless s!"{what} {head.name.raw} already exists")
    | none =>
      if (catalog.index? name).isSome then
        some (.meaningless s!"there is already an index named {name}")
      else none

def has (catalog : Catalog) (head : Phrase.Head) (root : Nat) : Bool :=
  (catalog.relation? (if root = 1 then ownName else head.name.value)).isSome

def addRelation (catalog : Catalog) (name : String) (relation : Relation) : Catalog :=
  let keys := match relation with
    | .table shape _ => keyIndexes name shape.keys
    | _ => []
  { catalog with
    relations := catalog.relations ++ [(name, relation)]
    indexes := catalog.indexes ++ keys }

def createTable (catalog : Catalog) (row : Description) (root : Nat) (head : Phrase.Head) :
    Phrase Catalog := do
  if let some fault := catalog.fault? row "table" head root then Phrase.complain fault
  let name := head.name.value
  let isNew := !catalog.has head root
  let shape ← Phrase.table name isNew catalog.takesRows
  return if isNew then catalog.addRelation name (.table shape root) else catalog

def createView (catalog : Catalog) (row : Description) (root : Nat) (head : Phrase.Head) :
    Phrase Catalog := do
  if ← Phrase.seesSign "(" then
    let _ ← Phrase.sortedNames
  Phrase.words ["as"]
  let hasVariables ← Phrase.queryOfVariables
  Phrase.ending
  if hasVariables then throw (.meaningless "parameters are not allowed in views")
  if let some fault := catalog.fault? row "view" head root then throw fault
  Phrase.settle
  if catalog.has head root then return catalog
  if let some database := (← get).otherDatabase then
    throw (.meaningless
      s!"view {head.name.raw} cannot reference objects in database {database}")
  if root ≠ 0 then throw .unlike
  return catalog.addRelation head.name.value .view

/-- What a module is told is not looked at. -/
def createVirtualTable (catalog : Catalog) (row : Description) (root : Nat) (head : Phrase.Head) :
    Phrase Catalog := do
  Phrase.words ["using"]
  let _ ← Phrase.name
  if let some fault := catalog.fault? row "table" head root then Phrase.complain fault
  if ← Phrase.acceptSign "(" then Phrase.skipBrackets 0 (← Phrase.length)
  Phrase.finish
  return if catalog.has head root then catalog
    else catalog.addRelation head.name.value .virtualTable

def checkIndexed (name : String) (shape : Shape) (parts : Phrase.IndexParts) : Phrase Unit := do
  let columns := shape.columns.map Column.name
  let condition : Place :=
    ⟨"partial index WHERE clauses", name, columns, shape.isNumbered, true, false⟩
  let part : Place := ⟨"index expressions", name, columns, false, false, false⟩
  let known := parts.condition.bind (condition.fault? none)
  if let some reason := parts.terms.findSome? fun term =>
      part.fault? known (Phrase.asName term.expression) then
    throw (.meaningless reason)

def createIndex (catalog : Catalog) (row : Description) (root : Nat) (head : Phrase.Head)
    (table : String) (isUnique : Bool) : Phrase Catalog := do
  let parts ← Phrase.indexParts
  let name := head.name.value
  if let some reason := Phrase.nullsFault? parts.terms then throw (.meaningless reason)
  if head.hasPath then throw (.meaningless "corrupt database")
  match catalog.found? table with
  | none => throw (.meaningless s!"no such table: main.{table}")
  | some (_, .view) => throw (.meaningless "views may not be indexed")
  | some (_, .virtualTable) => throw (.meaningless "virtual tables may not be indexed")
  | some (table, .table shape _) =>
    if !isLike row "index" name table then throw .unlike
    if (catalog.index? name).isSome then
      if head.isLenient then return catalog
      throw (.meaningless s!"index {name} already exists")
    if let some reason := Phrase.tooManyTerms? parts.terms then throw (.meaningless reason)
    checkIndexed table shape parts
    if catalog.indexes.any fun index => sameName index.table table && index.root = root then
      throw (.meaningless "invalid rootpage")
    let index : Index :=
      ⟨name, table, parts.terms.map Phrase.Term.part, isUnique, false, false, parts.condition, root⟩
    return { catalog with indexes := catalog.indexes ++ [index] }

def isOfSystem (name : String) : Bool := "sqlite_".toList.isPrefixOf name.toLower.toList

def triggerFault? (catalog : Catalog) (row : Description) (head : Phrase.Head)
    (time : Phrase.TriggerTime) (table : String) : Option StatementFault :=
  let name := head.name.value
  if head.hasPath then some (.meaningless "corrupt database")
  else match catalog.found? table with
    | none => some (.meaningless s!"no such table: main.{table}")
    | some (_, .virtualTable) => some (.meaningless "cannot create triggers on virtual tables")
    | some (own, relation) =>
      if !isLike row "trigger" name own then some .unlike
      else if catalog.triggers.any (sameName name) then
        if head.isLenient then none
        else some (.meaningless s!"trigger {head.name.raw} already exists")
      else if isOfSystem own then some (.meaningless "cannot create trigger on system table")
      else match relation, time with
        | .view, .before => some (.meaningless s!"cannot create BEFORE trigger on view: {table}")
        | .view, .after => some (.meaningless s!"cannot create AFTER trigger on view: {table}")
        | .table _ _, .instead =>
          some (.meaningless s!"cannot create INSTEAD OF trigger on table: {table}")
        | _, _ => none

def createTrigger (catalog : Catalog) (row : Description) (head : Phrase.Head) :
    Phrase Catalog := do
  Phrase.trigger fun time table =>
    match catalog.triggerFault? row head time table with
    | some fault => Phrase.complain fault
    | none => pure ()
  if let some database := (← get).otherDatabase then
    throw (.meaningless
      s!"trigger {head.name.raw} cannot reference objects in database {database}")
  return { catalog with triggers := catalog.triggers ++ [head.name.value] }

def created (catalog : Catalog) (row : Description) (root : Nat) : Phrase Catalog := do
  let head ← Phrase.head
  match head.creation with
  | .table => catalog.createTable row root head
  | .view => catalog.createView row root head
  | .virtualTable => catalog.createVirtualTable row root head
  | .index table isUnique => catalog.createIndex row root head table isUnique
  | .trigger => catalog.createTrigger row head

/-- The index of a key has no statement, since its table tells of it. -/
def place (catalog : Catalog) (pages : Nat) (name root : String) :
    Except (Option String) Catalog :=
  match catalog.index? name with
  | none => .error (some "orphan index")
  | some index =>
    let others := catalog.indexes.filter fun i =>
      sameName i.table index.table && i.name ≠ index.name
    match rootOf? root with
    | none => .error (some "invalid rootpage")
    | some root =>
      if root < 2 ∨ pages < root ∨ others.any (·.root = root) then .error (some "invalid rootpage")
      else .ok { catalog with indexes := catalog.indexes.map fun i =>
        if i.name = index.name then { i with root := root } else i }

def startsStatement (statement : List UInt8) : Bool :=
  (Text.readable (statement.take 2)).toLower = "cr"

def add (catalog : Catalog) (pages : Nat) (row : Description) : Except (Option String) Catalog :=
  match row.root, row.statement.filter (!·.isEmpty) with
  | none, _ => .error none
  | some root, some statement =>
    if startsStatement statement then
      match rootOf? root with
      | none => .error (some "invalid rootpage")
      | some root =>
        if pages < root then .error (some "invalid rootpage")
        else (((catalog.created row root).run' (.ofBytes statement)).mapError
          StatementFault.message?)
    else .error none
  | some root, none =>
    match row.name with
    | none => .error none
    | some name => catalog.place pages name root

end Catalog

def shown (bytes : List UInt8) : String := Text.readable (Characters.ended bytes)

namespace Image

def encoding (image : Image) : Encoding := .ofNumber (image.bytes.number 56 4)

def description (image : Image) (row : Payload) : Except DatabaseFault Description := do
  let text (i : Nat) : Except DatabaseFault (Option (List UInt8)) := do
    return ((← image.column row i).getD .null).text? image.encoding
  let column (i : Nat) : Except DatabaseFault (Option String) := do
    return (← text i).map shown
  return ⟨← column 0, ← column 1, ← column 2, ← column 3, (← text 4).map Characters.ended⟩

/-- The first entry that does not fit is told of, or else that the catalog cannot be read to its
    end. -/
def catalog (image : Image) (isReadOnly : Bool) : Except DatabaseFault Catalog := do
  let (entries, fault) := image.tree 1 true
  let catalog ← entries.foldlM (fun catalog entry => do
    let row ← image.description entry.payload
    (catalog.add image.pages row).mapError (DatabaseFault.badEntry row.name))
    (Catalog.empty (!isReadOnly && image.canBeWritten))
  match fault with
  | none => return catalog
  | some fault => throw fault

end Image

end LayeredPreferences.Database

import LayeredPreferences.Database.Meaning
import LayeredPreferences.Database.Query

set_option autoImplicit false

/-!
# Statements that create

What a database holds is described by the statements that created it. Of a table
they tell the columns, which of them are its keys, and how its rows are kept.
-/
namespace LayeredPreferences.Database

def sameName (a b : String) : Bool := a.toLower = b.toLower

inductive Origin where
  | given
  | computed (x : Expression) (isKept : Bool)

structure Column where
  name : String
  type : String
  collation : String
  default : Option Expression
  origin : Origin

namespace Column

def affinity (column : Column) : Affinity := .ofType column.type

def isKept (column : Column) : Bool :=
  match column.origin with
  | .given => true
  | .computed _ isKept => isKept

def isComputed (column : Column) : Bool :=
  match column.origin with
  | .given => false
  | .computed _ _ => true

end Column

structure SortPart where
  name : Option String
  collation : Option String
  isDescending : Bool

structure Key where
  parts : List SortPart
  isPrimary : Bool
  conflict : Option String

structure Shape where
  columns : List Column
  numberColumn : Option Nat
  isNumbered : Bool
  keys : List Key

namespace SortPart

def place? (part : SortPart) (columns : List Column) : Option Nat :=
  part.name.bind fun name => columns.findIdx? fun c => sameName c.name name

def collationIn (part : SortPart) (columns : List Column) : String :=
  let own := ((part.place? columns).bind (columns[·]?)).map Column.collation
  part.collation.getD (own.getD "binary")

end SortPart

def sorting (columns : List Column) (parts : List SortPart) : List (Option Nat × String) :=
  parts.map fun part => (part.place? columns, (part.collationIn columns).toLower)

def unknownCollation? (columns : List Column) (parts : List SortPart) : Option String :=
  (parts.map (·.collationIn columns)).reverse.find? fun name => name.toLower ∉ Collation.all

namespace Shape

def column? (shape : Shape) (name : String) : Option Nat :=
  shape.columns.findIdx? fun column => sameName column.name name

def column (shape : Shape) (i : Nat) : Column :=
  shape.columns.getD i ⟨"", "", "binary", none, .given⟩

def primaryParts (shape : Shape) : List SortPart :=
  (shape.keys.filter Key.isPrimary).flatMap Key.parts

/-- What rows without numbers are sorted by. -/
def keyParts (shape : Shape) : List (Option Nat × String) :=
  (sorting shape.columns shape.primaryParts).eraseDups

def keyDirections (shape : Shape) : List Bool :=
  let parts := (sorting shape.columns shape.primaryParts).zip shape.primaryParts
  shape.keyParts.map fun part => ((parts.lookup part).map SortPart.isDescending).getD false

/-- Rows without numbers cannot be read if they are sorted by a collation that is not known. -/
def unknownCollation? (shape : Shape) : Option String :=
  if shape.isNumbered then none
  else Database.unknownCollation? shape.columns shape.primaryParts

/-- The kept columns in the order in which rows hold them. Rows without numbers start with their
    key. -/
def kept (shape : Shape) : List Nat :=
  let all := (List.range shape.columns.length).filter fun i => shape.columns[i]?.any Column.isKept
  let key := shape.keyParts.filterMap Prod.fst
  if shape.isNumbered then all else key ++ all.filter (!key.contains ·)

end Shape

structure Draft where
  name : String
  columns : List Column
  keys : List Key
  /-- The column of whole numbers that is the primary key, with whether the greatest comes first
      where rows are sorted by it. -/
  number : Option (Nat × Bool)
  hasPrimary : Bool
  isCounting : Bool
  primary : List Nat
  checks : List Expression
  /-- Whether the table is made. One that is there already is only read over. -/
  isNew : Bool

namespace Draft

def wrong (draft : Draft) (reason : String) : Phrase Unit :=
  if draft.isNew then Phrase.wrong reason else pure ()

def place? (draft : Draft) (name : String) : Option Nat :=
  draft.columns.findIdx? fun column => sameName column.name name

def last (draft : Draft) : Nat := draft.columns.length - 1

def lastName (draft : Draft) : String := (draft.columns.getLast?.map Column.name).getD ""

def changeLast (draft : Draft) (change : Column → Column) : Draft :=
  { draft with columns := draft.columns.modify draft.last change }

def names (draft : Draft) : List String := draft.columns.map Column.name

end Draft

namespace Phrase

def conflict : Phrase (Option String) := do
  if ← acceptWord "on" then
    words ["conflict"]
    let what ← expect (isOneOf ["rollback", "abort", "fail", "ignore", "replace"])
    return some what.raw.toLower
  else return none

/-! ## Keys -/

def sortPart (isDescending : Bool) : Expression → SortPart
  | .column [] name _ => ⟨some name, none, isDescending⟩
  | .content (.text bytes) => ⟨some (Text.readable bytes), none, isDescending⟩
  | .node (.collate collation) [x] => ⟨(sortPart isDescending x).name, some collation, isDescending⟩
  | _ => ⟨none, none, isDescending⟩

def Term.part (term : Term) : SortPart := sortPart term.isDescending term.expression

def asName : Expression → Expression
  | .content (.text bytes) => .column [] (Text.readable bytes) (some '\'')
  | .node (.collate collation) [x] => .node (.collate collation) [asName x]
  | x => x

/-- Equal keys share an index. -/
def addKey (draft : Draft) (key : Key) : Phrase Draft :=
  let sorted (key : Key) := sorting draft.columns key.parts
  match draft.keys.findIdx? fun other => sorted other = sorted key with
  | none => return { draft with keys := draft.keys ++ [key] }
  | some i => do
    let other := draft.keys.getD i key
    if other.conflict.isSome && key.conflict.isSome && other.conflict ≠ key.conflict then
      draft.wrong "conflicting ON CONFLICT clauses specified"
    let both : Key :=
      ⟨other.parts, other.isPrimary || key.isPrimary, other.conflict <|> key.conflict⟩
    return { draft with keys := draft.keys.set i both }

abbrev mostColumns : Nat := 2000

def nullsFault? (terms : List Term) : Option String :=
  (terms.findSome? Term.nulls).map fun place => s!"unsupported use of NULLS {place}"

def tooManyTerms? (terms : List Term) : Option String :=
  if mostColumns < terms.length then some "too many columns in index" else none

def stateKey (draft : Draft) (isPrimary : Bool) (terms : List Term) (conflict : Option String) :
    Phrase Draft := do
  if (← get).complaint.isSome then return draft
  let place : Place := ⟨"index expressions", draft.name, draft.names, false, false, false⟩
  let fault? (term : Term) : Option String :=
    place.fault? none (asName term.expression) <|>
      if (term.part.name.bind draft.place?).isSome then none
      else some "expressions prohibited in PRIMARY KEY and UNIQUE constraints"
  match nullsFault? terms <|> tooManyTerms? terms <|> terms.findSome? fault? with
  | some reason =>
    draft.wrong reason
    return draft
  | none => addKey draft ⟨terms.map Term.part, isPrimary, conflict⟩

/-- A primary key of one whole number is the number of the row and needs no index. It can be
    descending only if that is said of the whole table. -/
def statePrimary (draft : Draft) (terms : List Term) (conflict : Option String)
    (isOfTable isCounting : Bool) : Phrase Draft := do
  if draft.hasPrimary then
    draft.wrong ("table \"" ++ draft.name ++ "\" has more than one primary key")
    return draft
  let places := terms.filterMap fun term => term.part.name.bind draft.place?
  let draft := { draft with hasPrimary := true, primary := places }
  if places.any fun i => (draft.columns[i]?).any Column.isComputed then
    draft.wrong "generated columns cannot be part of the PRIMARY KEY"
  match terms, places with
  | [term], [i] =>
    if (isOfTable || !term.isDescending)
        && (draft.columns[i]?).any fun c => sameName c.type "integer" then
      if let some reason := nullsFault? terms then draft.wrong reason
      return { draft with number := some (i, term.isDescending), isCounting := isCounting }
  | _, _ => pure ()
  if isCounting then
    draft.wrong "AUTOINCREMENT is only allowed on an INTEGER PRIMARY KEY"
    return draft
  stateKey draft true terms conflict

/-! ## References -/

def sortedNames : Phrase (List String) := bracketed (separated do
  let name ← name
  if ← acceptWord "collate" then
    let _ ← expect Token.isPlainName
  let _ ← accept (isOneOf ["asc", "desc"])
  return name)

def deferral : Phrase Unit := do
  words ["deferrable"]
  if ← acceptWord "initially" then oneOf ["deferred", "immediate"]

def referenceRule : Phrase (Option Unit) := do
  if ← acceptWord "match" then
    let _ ← name
    return some ()
  else if ← acceptWord "on" then
    if ← acceptWord "insert" then pure ()
    else oneOf ["delete", "update"]
    if ← acceptWord "set" then oneOf ["null", "default"]
    else if ← acceptWord "no" then words ["action"]
    else oneOf ["cascade", "restrict"]
    return some ()
  else return none

def reference : Phrase (String × List String) := do
  words ["references"]
  let table ← expect Token.isName
  let columns ← if ← seesSign "(" then sortedNames else pure []
  let _ ← repeated referenceRule
  return (table.raw, columns)

/-! ## Columns -/

def defaultOf (draft : Draft) (x : Expression) : Phrase Draft := do
  if !x.isConstant true then
    draft.wrong s!"default value of column [{draft.lastName}] is not constant"
    return draft
  if draft.columns.getLast?.any Column.isComputed then
    draft.wrong "cannot use DEFAULT on a generated column"
    return draft
  return draft.changeLast fun c => { c with default := some x }

def signedLiteral : Phrase Expression := do
  let sign ← if ← acceptSign "-" then pure "-" else do
    let _ ← acceptSign "+"
    pure "+"
  let now := isOneOf ["current_date", "current_time", "current_timestamp"]
  let token ← expect fun t => t.literal?.isSome || now t
  match token.literal? with
  | some literal => return .node (.unary sign) [literal]
  | none => return .node (.call token.raw.toLower .plain) []

def default (draft : Draft) : Phrase Draft := do
  if ← acceptSign "(" then
    let x ← expression
    sign ")"
    defaultOf draft x
  else if (← sees fun t => t.literal?.isSome || t.isSign "-" || t.isSign "+"
      || isOneOf ["current_date", "current_time", "current_timestamp"] t) then
    defaultOf draft (← signedLiteral)
  else
    let token ← expect fun t =>
      t.isName && !(t.kind = .word && Token.joins.contains t.raw.toLower)
    let truth := if token.kind = .word then Token.truth? token.value else none
    defaultOf draft (truth.elim (.content (.text (Token.unquoted token.bytes))) .truth)

def computed (draft : Draft) : Phrase Draft := do
  let x ← bracketed expression
  let how ← if ← sees fun t => t.isPlainName && t.kind ≠ .text then some <$> name else pure none
  let column := draft.columns.getLast?
  let isKnown := how.all fun how => sameName how "virtual" || sameName how "stored"
  if !isKnown || column.any (·.default.isSome) then
    draft.wrong ("error in generated column \"" ++ draft.lastName ++ "\"")
    return draft
  if draft.primary.contains draft.last then
    draft.wrong "generated columns cannot be part of the PRIMARY KEY"
  let isKept := how.any (sameName · "stored")
  return draft.changeLast fun c => { c with origin := .computed x isKept }

def columnRule (draft : Draft) : Phrase (Option Draft) := do
  let own : Expression := .column [] draft.lastName none
  if ← acceptWord "constraint" then
    let _ ← name
    return some draft
  else if ← acceptWord "default" then return some (← default draft)
  else if ← acceptWord "null" then
    let _ ← conflict
    return some draft
  else if ← acceptWord "not" then
    if ← seesWord "deferrable" then deferral
    else
      words ["null"]
      let _ ← conflict
    return some draft
  else if ← acceptWord "primary" then
    words ["key"]
    let isDescending ← acceptWord "desc"
    if !isDescending then
      let _ ← acceptWord "asc"
    let conflict ← conflict
    let isCounting ← acceptWord "autoincrement"
    return some (← statePrimary draft [⟨own, isDescending, none⟩] conflict false isCounting)
  else if ← acceptWord "unique" then
    let conflict ← conflict
    return some (← stateKey draft false [⟨own, false, none⟩] conflict)
  else if ← acceptWord "check" then
    let x ← bracketed expression
    return some { draft with checks := draft.checks ++ [x] }
  else if ← seesWord "references" then
    let (table, columns) ← reference
    if 1 < columns.length then
      draft.wrong (s!"foreign key on {draft.lastName} should reference only one column of "
        ++ s!"table {table}")
    return some draft
  else if ← seesWord "deferrable" then
    deferral
    return some draft
  else if ← acceptWord "collate" then
    let collation := (← expect Token.isPlainName).value
    return some (draft.changeLast fun c => { c with collation := collation })
  else if ← acceptWord "generated" then
    words ["always", "as"]
    return some (← computed draft)
  else if ← acceptWord "as" then return some (← computed draft)
  else return none

def column (draft : Draft) : Phrase Draft := do
  let name ← name
  let type ← type
  if mostColumns ≤ draft.columns.length then draft.wrong s!"too many columns on {draft.name}"
  else if (draft.place? name).isSome then draft.wrong s!"duplicate column name: {name}"
  let column : Column := ⟨name, type, "binary", none, .given⟩
  grow columnRule { draft with columns := draft.columns ++ [column] }

/-! ## Tables -/

def keyed (draft : Draft) (isPrimary : Bool) : Phrase Draft := do
  sign "("
  let inner ← innermost
  let terms ← separated (order inner)
  let isCounting ← if isPrimary then acceptWord "autoincrement" else pure false
  sign ")"
  let conflict ← conflict
  if isPrimary then statePrimary draft terms conflict true isCounting
  else stateKey draft false terms conflict

def foreign (draft : Draft) : Phrase Draft := do
  let own ← sortedNames
  let (_, columns) ← reference
  let isNegated ← acceptWord "not"
  if isNegated then deferral
  else if ← seesWord "deferrable" then deferral
  if !columns.isEmpty ∧ columns.length ≠ own.length then
    draft.wrong ("number of columns in foreign key does not match the number of columns in the "
      ++ "referenced table")
  else if let some name := own.find? fun name => (draft.place? name).isNone then
    draft.wrong ("unknown column \"" ++ name ++ "\" in foreign key definition")
  return draft

def tableRule (draft : Draft) : Phrase (Option Draft) := do
  if ← acceptWord "constraint" then
    let _ ← name
    return some draft
  else if ← acceptWord "primary" then
    words ["key"]
    return some (← keyed draft true)
  else if ← acceptWord "unique" then return some (← keyed draft false)
  else if ← acceptWord "check" then
    let x ← bracketed expression
    let _ ← conflict
    return some { draft with checks := draft.checks ++ [x] }
  else if ← acceptWord "foreign" then
    words ["key"]
    return some (← foreign draft)
  else return none

def someRule (draft : Draft) : Phrase Draft := do
  match ← tableRule draft with
  | some draft => return draft
  | none => refuse

def tableItems (draft : Draft) : Phrase Draft := do
  let draft ← column draft
  let draft ← grow (fun draft => do
    if !(← seesSign ",") then return none
    if ← seesSecond (isOneOf ["constraint", "primary", "unique", "check", "foreign"]) then
      return none
    skip
    return some (← column draft)) draft
  if !(← seesSign ",") then return draft
  skip
  let draft ← someRule draft
  grow (fun draft => do
    if ← acceptSign "," then return some (← someRule draft)
    else tableRule draft) draft

inductive TableOption where
  | withoutNumbers
  | strict
deriving DecidableEq

def option : Phrase (Option TableOption) := do
  if ← acceptWord "without" then
    let what ← expect Token.isName
    if sameName what.value "rowid" then return some .withoutNumbers
    wrong s!"unknown table option: {what.raw}"
  else
    let what ← expect Token.isName
    if sameName what.raw "strict" then return some .strict
    wrong s!"unknown table option: {what.raw}"
  return none

def strictTypes : List String := ["any", "blob", "int", "integer", "real", "text"]

def checkTable (draft : Draft) (options : List TableOption) : Phrase Unit := do
  if options.contains .strict then
    if let some column := draft.columns.find? fun c => !strictTypes.contains c.type.toLower then
      throw (.meaningless (if column.type.isEmpty then
          s!"missing datatype for {draft.name}.{column.name}"
        else s!"unknown datatype for {draft.name}.{column.name}: \"{column.type}\""))
  if options.contains .withoutNumbers then
    if draft.isCounting then
      throw (.meaningless "AUTOINCREMENT not allowed on WITHOUT ROWID tables")
    if !draft.hasPrimary then throw (.meaningless s!"PRIMARY KEY missing on table {draft.name}")
  let isNumbered := !options.contains .withoutNumbers
  let check : Place := ⟨"CHECK constraints", draft.name, draft.names, isNumbered, true, true⟩
  let formula : Place := ⟨"generated columns", draft.name, draft.names, false, false, false⟩
  let formulas := draft.columns.filterMap fun column =>
    match column.origin with
    | .given => none
    | .computed (.column path name mark) _ => some (.node (.unary "+") [.column path name mark])
    | .computed x _ => some x
  let known := match (← get).complaint.bind StatementFault.message? with
    | none => draft.checks.findSome? (check.fault? none)
    | some reason => (draft.checks.take 1).foldl check.fault? (some reason)
  if formulas.length = draft.columns.length then
    throw (.meaningless "must have at least one non-generated column")
  if let some reason := formulas.foldl formula.fault? known then
    throw (.meaningless reason)

/-- Rows without numbers need an index of their key, which is the last one if the key is a whole
    number. -/
def shapeOf (draft : Draft) (isNumbered : Bool) : Shape where
  columns := draft.columns
  numberColumn := if isNumbered then draft.number.map Prod.fst else none
  isNumbered := isNumbered
  keys :=
    match draft.number with
    | some (i, isDescending) =>
      let name := (draft.columns[i]?).map Column.name
      if isNumbered then draft.keys else draft.keys ++ [⟨[⟨name, none, isDescending⟩], true, none⟩]
    | none => draft.keys

def table (name : String) (isNew takesRows : Bool) : Phrase Shape := do
  let draft : Draft := ⟨name, [], [], none, false, false, [], [], isNew⟩
  if ← acceptWord "as" then
    query
    if isNew then
      ending
      throw .unlike
    finish
    return shapeOf draft true
  sign "("
  let draft ← tableItems draft
  sign ")"
  let first ← if ← sees Token.isName then option else pure none
  let more ← repeated do
    if ← acceptSign "," then return some (← option)
    return none
  ending
  let options := (first :: more).filterMap id
  if isNew then checkTable (if takesRows then draft else { draft with checks := [] }) options
  settle
  return shapeOf draft (!options.contains .withoutNumbers)

/-! ## Triggers -/

def assignments (inner : Inner) : Phrase Unit := do
  let _ ← separated do
    if ← seesSign "(" then
      let _ ← bracketed names
    else
      let _ ← name
    sign "="
    let _ ← inner.expression 0

def condition (inner : Inner) : Phrase Unit := do
  if ← acceptWord "where" then
    let _ ← inner.expression 0

def otherwise : Phrase Unit := do
  if ← acceptWord "or" then oneOf ["rollback", "abort", "fail", "ignore", "replace"]

/-- What a change gives back. There is nobody to whom a trigger could give it. -/
def returning (inner : Inner) : Phrase Unit := do
  if ← acceptWord "returning" then
    let _ ← separated (resultColumn inner)
    wrong "cannot use RETURNING in a trigger"

/-- What is done about a second row. Of several rules the last one is about all columns. -/
def upsert (inner : Inner) : Phrase (Option Unit) := do
  if ← acceptWord "on" then
    words ["conflict"]
    let isLast := !(← seesSign "(")
    if !isLast then
      let _ ← bracketed (separated (order inner))
      condition inner
    words ["do"]
    if !(← acceptWord "nothing") then
      words ["update", "set"]
      assignments inner
      condition inner
    return if isLast then none else some ()
  else return none

def target : Phrase Unit := do
  let _ ← name
  if ← acceptSign "." then
    let _ ← name
    wrong ("qualified table names are not allowed on INSERT, UPDATE, and DELETE statements within "
      ++ "triggers")

def noIndex : Phrase Unit := do
  if ← acceptWord "indexed" then
    words ["by"]
    let _ ← name
    wrong ("the INDEXED BY clause is not allowed on UPDATE or DELETE statements within triggers")
  else if ← acceptWord "not" then
    words ["indexed"]
    wrong ("the NOT INDEXED clause is not allowed on UPDATE or DELETE statements within triggers")

def command (inner : Inner) : Phrase Unit := do
  if ← acceptWord "update" then
    otherwise
    target
    noIndex
    words ["set"]
    assignments inner
    if ← acceptWord "from" then sources inner (← length)
    condition inner
  else if ← acceptWord "delete" then
    words ["from"]
    target
    noIndex
    condition inner
  else if ← sees (isOneOf ["insert", "replace"]) then
    if !(← acceptWord "replace") then
      words ["insert"]
      otherwise
    words ["into"]
    target
    if ← seesSign "(" then
      let _ ← bracketed names
    inner.query
    let _ ← repeated (upsert inner)
    returning inner
  else inner.query

inductive TriggerTime where
  | before
  | after
  | instead
deriving DecidableEq

def trigger (check : TriggerTime → String → Phrase Unit) : Phrase Unit := do
  let inner ← innermost
  let time ←
    if ← acceptWord "after" then pure TriggerTime.after
    else if ← acceptWord "instead" then do
      words ["of"]
      pure TriggerTime.instead
    else do
      let _ ← acceptWord "before"
      pure TriggerTime.before
  if ← acceptWord "update" then
    if ← acceptWord "of" then
      let _ ← names
  else oneOf ["delete", "insert"]
  words ["on"]
  let table ← pathName
  if ← acceptWord "for" then words ["each", "row"]
  if ← acceptWord "when" then
    let _ ← inner.expression 0
  check time table
  words ["begin"]
  command inner
  sign ";"
  let _ ← repeated do
    if ← seesWord "end" then return none
    command inner
    sign ";"
    return some ()
  words ["end"]
  finish

/-! ## Heads -/

def ifNotExists : Phrase Bool := do
  if ← acceptWord "if" then
    words ["not", "exists"]
    return true
  else return false

def ownName : Phrase (Token × Bool) := do
  let name ← expect Token.isName
  if ← acceptSign "." then return (← expect Token.isName, true)
  return (name, false)

structure IndexParts where
  terms : List Term
  condition : Option Expression

def indexParts : Phrase IndexParts := do
  let inner ← innermost
  let terms ← bracketed (separated (order inner))
  let condition ← if ← acceptWord "where" then some <$> inner.expression 0 else pure none
  finish
  return ⟨terms, condition⟩

inductive Creation where
  | table
  | view
  | virtualTable
  | index (table : String) (isUnique : Bool)
  | trigger
deriving DecidableEq

structure Head where
  creation : Creation
  name : Token
  /-- Whether a database is named before it. In its own description it is not. -/
  hasPath : Bool
  isLenient : Bool

def head : Phrase Head := do
  words ["create"]
  let isUnique ← acceptWord "unique"
  if isUnique || (← seesWord "index") then
    words ["index"]
    let isLenient ← ifNotExists
    let (name, hasPath) ← ownName
    words ["on"]
    return ⟨.index (← Phrase.name) isUnique, name, hasPath, isLenient⟩
  let creation ←
    if ← acceptWord "virtual" then do
      words ["table"]
      pure Creation.virtualTable
    else do
      let _ ← accept (isOneOf ["temp", "temporary"])
      if ← acceptWord "table" then pure Creation.table
      else if ← acceptWord "view" then pure Creation.view
      else do
        words ["trigger"]
        pure Creation.trigger
  let isLenient ← ifNotExists
  let (name, hasPath) ← ownName
  return ⟨creation, name, hasPath, isLenient⟩

end Phrase

end LayeredPreferences.Database

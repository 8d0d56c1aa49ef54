import LayeredPreferences.Text.Blank
import LayeredPreferences.Validation

set_option autoImplicit false

/-!
# Drafts of definitions

A draft collects what is said about a definition by edits in any order. Finishing
it checks that a definition results.
-/
namespace LayeredPreferences

structure Draft where
  key : String
  name : Option String
  description : String
  valueType : Option ValueType
  defaultValue : Option Value
  discrete : Bool
  allowed : List Value
  range : Option ValueRange
  scopes : List Scope
deriving DecidableEq

inductive Edit where
  | name (name : String)
  | description (description : String)
  | valueType (type : ValueType)
  | defaultValue (v : Value)
  | discrete (discrete : Bool)
  /-- The domain becomes discrete, too. -/
  | allowedValues (allowed : List Value)
  | range (range : ValueRange)
  | scope (scope : Scope)
  | scopes (scopes : List Scope)

namespace Draft

def ofKey (key : String) : Draft where
  key := key
  name := none
  description := ""
  valueType := none
  defaultValue := none
  discrete := false
  allowed := []
  range := none
  scopes := []

/-- A scope that is there already keeps its place. -/
def addScope (draft : Draft) (scope : Scope) : Draft :=
  if draft.scopes.contains scope then draft
  else { draft with scopes := draft.scopes ++ [scope] }

def apply (draft : Draft) : Edit → Draft
  | .name name => { draft with name := some name }
  | .description description => { draft with description := description }
  | .valueType type => { draft with valueType := some type }
  | .defaultValue v => { draft with defaultValue := some v }
  | .discrete discrete => { draft with discrete := discrete }
  | .allowedValues allowed => { draft with allowed := allowed, discrete := true }
  | .range range => { draft with range := some range }
  | .scope scope => draft.addScope scope
  | .scopes scopes => scopes.foldl addScope draft

def applyAll (draft : Draft) (edits : List Edit) : Draft := edits.foldl apply draft

/-- The half of the domain that is not used is not looked at. -/
def domain (draft : Draft) (type : ValueType) : Except SchemaFault Domain :=
  if draft.discrete then
    match draft.allowed.mapM (Value.coerce type) with
    | .ok allowed => .ok (.discrete allowed)
    | .error fault => .error (.badAllowedValue draft.key fault)
  else
    match draft.range with
    | none => .error (.noDomain draft.key)
    | some range =>
      if range.max < range.min then .error (.emptyRange draft.key range) else .ok (.range range)

/-- The definition of the draft. Its default passes the same check as any value. -/
def finish (draft : Draft) : Except SchemaFault Definition := do
  if draft.key.isEmpty then
    throw .emptyKey
  if draft.name.any fun name => (Text.trim name.toList).isEmpty then
    throw (.blankName draft.key)
  let some defaultValue := draft.defaultValue
    | throw (.noDefault draft.key)
  if draft.scopes.isEmpty then
    throw (.noScope draft.key)
  let type := draft.valueType.getD defaultValue.type
  let definition : Definition :=
    { key := draft.key
      name := draft.name.getD draft.key
      description := draft.description
      valueType := type
      defaultValue := defaultValue
      domain := ← draft.domain type
      scopes := draft.scopes }
  match definition.validate defaultValue with
  | .ok accepted => return { definition with defaultValue := accepted }
  | .error fault => throw (.badDefault draft.key fault)

end Draft

end LayeredPreferences

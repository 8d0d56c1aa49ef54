import LayeredPreferences.Definition.Draft

set_option autoImplicit false

/-!
# Definitions as JSON text

An entry is one definition as it stands in a list of definitions. The whole list
is read before the first entry is made a definition.
-/
namespace LayeredPreferences

/-- The type and the default are missing only while the entry is being read. -/
structure Entry where
  key : String
  name : Option String
  description : String
  valueType : Option ValueType
  defaultValue : Option Value
  discrete : Bool
  allowed : Option (List Value)
  range : Option ValueRange
  scopes : List Scope
deriving DecidableEq

namespace Entry

def empty : Entry where
  key := ""
  name := none
  description := ""
  valueType := none
  defaultValue := none
  discrete := false
  allowed := none
  range := none
  scopes := []

def fields : List (Json.Field Entry) :=
  [.required "key" Json.string fun e x => { e with key := x },
   .optional "name" (Json.optional Json.string) fun e x => { e with name := x },
   .optional "description" Json.string fun e x => { e with description := x },
   .required "valueType" ValueType.shape fun e x => { e with valueType := some x },
   .required "defaultValue" Value.shape fun e x => { e with defaultValue := some x },
   .optional "usesDiscreteValues" Json.boolean fun e x => { e with discrete := x },
   .optional "allowedValues" (Json.optional (Json.list Value.shape)) fun e x =>
     { e with allowed := x },
   .optional "range" (Json.optional ValueRange.shape) fun e x => { e with range := x },
   .required "allowedScopes" (Json.list Scope.shape) fun e x => { e with scopes := x }]

def shape : Json.Shaped Entry := Json.record "DefinitionRecord" fields empty

/-- The edits that the entry stands for. -/
def edits (e : Entry) : List Edit :=
  [.description e.description]
    ++ (e.valueType.map Edit.valueType).toList
    ++ (e.defaultValue.map Edit.defaultValue).toList
    ++ [.discrete e.discrete, .scopes e.scopes]
    ++ (e.name.map Edit.name).toList
    ++ (if e.discrete then [.allowedValues (e.allowed.getD [])] else [])
    ++ (e.range.map Edit.range).toList

def define (e : Entry) : Except SchemaFault Definition :=
  ((Draft.ofKey e.key).applyAll e.edits).finish

end Entry

/-- The definitions of a JSON list of entries. -/
def parseDefinitions (source : Json.Source) : Except SchemaFault (List Definition) :=
  match Json.parse (Json.list Entry.shape) source with
  | .ok entries => entries.mapM Entry.define
  | .error fault => .error (.unreadableText fault.cause)

end LayeredPreferences

import LayeredPreferences.Json.Passage

set_option autoImplicit false

/-!
# Values of a given shape

Each reader takes the number of brackets that may still be opened, and is refused
at the first glyph that does not fit.
-/
namespace LayeredPreferences.Json

/-- How many brackets may be open in a value that is kept. -/
abbrev roomAtStart : Nat := 127

abbrev Shaped (α : Type) := Nat → Reader α

/-- Opens a bracket, if there is room for it. -/
def opened {α : Type} (room : Nat) (inside : Nat → Reader α) : Reader α :=
  match room with
  | 0 => refuse .tooDeep
  | room + 1 => inside room

def string : Shaped String := fun _ => do
  match ← sight with
  | .string s => pure s
  | found => refuse (.wrongShape found .string)

def boolean : Shaped Bool := fun _ => do
  match ← sight with
  | .boolean b => pure b
  | found => refuse (.wrongShape found .boolean)

/-- An integer in the range of 64 bits. -/
def integer : Shaped Int64 := fun _ => do
  match ← sight with
  | .number (.integer n) =>
    if n < Nat.pow 2 63 then pure (.ofInt n) else refuse (.integerTooLarge n)
  | found => refuse (.wrongShape found .integer)

def null : Reader Unit := do
  match ← sight with
  | .null => pure ()
  | found => refuse (.wrongShape found .null)

/-- The value may be missing, which is written `null`. -/
def optional {α : Type} (reader : Shaped α) : Shaped (Option α) := fun room => do
  match ← peek with
  | some (.char 'n') => keyword nullWord; pure none
  | _ => return some (← reader room)

def list {α : Type} (item : Shaped α) : Shaped (List α) := fun room => do
  match ← sight with
  | .list => opened room fun room => do
    let items ← elements .kept (item room) 0
    closeList
    pure items
  | found => refuse (.wrongShape found .list)

/-- A name among the known ones, or an object with that name as its only member and the value
    `null`. -/
def variant {α : Type} (known : List (String × α)) : Shaped α := fun room => do
  match ← peek with
  | none => refuse (.endOf .value)
  | some (.char '"') => choose (← string room)
  | some (.char '{') => opened room fun _ => do
    advance
    if ← nextMember .kept true then
      let x ← choose (← string room)
      colon
      null
      match ← peek with
      | some (.char '}') => advance; pure x
      | some _ => refuse .expectedValue
      | none => refuse (.endOf .object)
    else refuse .expectedValue
  | some _ => refuse .expectedValue
where
  choose (s : String) : Reader α :=
    match known.lookup s with
    | some x => pure x
    | none => refuse (.unknownVariant s (known.map (·.1)))

/-! ## Records -/

/-- A field reads its value into the record. -/
structure Field (ρ : Type) where
  name : String
  mustAppear : Bool
  read : Shaped (ρ → ρ)

def Field.required {ρ α : Type} (name : String) (shape : Shaped α) (put : ρ → α → ρ) : Field ρ :=
  ⟨name, true, fun room => do
    let x ← shape room
    return (put · x)⟩

def Field.optional {ρ α : Type} (name : String) (shape : Shaped α) (put : ρ → α → ρ) : Field ρ :=
  { Field.required name shape put with mustAppear := false }

/-- The fields of the record in their order as a list. Fields that need not appear may be left
    out at the end of the list. -/
def recordElements {ρ : Type} (name : String) (total : Nat) (room : Nat) :
    List (Field ρ) → Nat → ρ → Reader ρ
  | [], _, record => pure record
  | field :: fields, index, record => do
    if ← nextElement .kept (index = 0) then
      let put ← within (.element index) (field.read room)
      recordElements name total room fields (index + 1) (put record)
    else if field.mustAppear then refuse (.wrongLength index name total)
    else recordElements name total room fields (index + 1) record

/-- The fields of the record in any order as an object. A name that no field has is skipped with
    its value. -/
def recordMember {ρ : Type} (fields : List (Field ρ)) (room : Nat) (key : String)
    (state : List String × ρ) : Except Cause (Reader (List String × ρ)) :=
  match fields.find? (·.name == key) with
  | none => .ok do skipped; pure state
  | some field =>
    if state.1.contains key then .error (.duplicateField key)
    else .ok do return (key :: state.1, (← field.read room) state.2)

def record {ρ : Type} (name : String) (fields : List (Field ρ)) (empty : ρ) : Shaped ρ :=
  fun room => do
    match ← sight with
    | .list => opened room fun room => do
      let result ← recordElements name fields.length room fields 0 empty
      closeList
      pure result
    | .object => opened room fun room => do
      let (seen, result) ← members .kept quotation (recordMember fields room) true ([], empty)
      match fields.find? fun field => field.mustAppear && !seen.contains field.name with
      | some field => refuse (.missingField field.name)
      | none => closeObject; pure result
    | found => refuse (.wrongShape found (.record name))

/-- A text that holds one value of the shape and nothing else. -/
def parse {α : Type} (shape : Shaped α) (source : Source) : Except Fault α :=
  whole (shape roomAtStart) source

end LayeredPreferences.Json

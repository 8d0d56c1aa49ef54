import LayeredPreferences.Json.Sight

set_option autoImplicit false

/-!
# Lists and objects

A passage is a value of any depth. One that is kept may open only so many
brackets within each other; one that is skipped is only checked for its form, and
so has no limit, no pairs of surrogates and no places of faults.
-/
namespace LayeredPreferences.Json

inductive Care where
  | kept
  | skipped
deriving DecidableEq

/-! ## Lists -/

/-- Whether another element follows. The closing bracket stays in the source. -/
def nextElement (care : Care) (first : Bool) : Reader Bool := do
  match ← peek with
  | none => refuse (.endOf .list)
  | some (.char ']') => pure false
  | some (.char ',') =>
    if first then pure true
    else
      advance
      match care with
      | .skipped => pure true
      | .kept =>
        match ← peek with
        | none => refuse (.endOf .value)
        | some (.char ']') => refuse .trailingComma
        | some _ => pure true
  | some _ => if first then pure true else refuse .expectedListEnd

/-- The elements up to the closing bracket, the first one with the given index. -/
def elements {α : Type} (care : Care) (item : Reader α) (index : Nat) (source : Source) :
    Except Fault (List α × Source) :=
  match nextElement care (index = 0) source with
  | .error fault => .error fault
  | .ok (false, rest) => .ok ([], rest)
  | .ok (true, rest) =>
    match within (.element index) item rest with
    | .error fault => .error fault
    | .ok (x, more) =>
      if more.length < source.length then
        (elements care item (index + 1) more).map fun r => (x :: r.1, r.2)
      else .ok ([x], more)
termination_by source.length

/-- The closing bracket of a list, after the elements that were asked for. -/
def closeList : Reader Unit := do
  match ← peek with
  | none => refuse (.endOf .list)
  | some (.char ']') => advance
  | some (.char ',') =>
    advance
    match ← peek with
    | some (.char ']') => refuse .trailingComma
    | _ => refuse .trailingCharacters
  | some _ => refuse .trailingCharacters

/-! ## Objects -/

/-- Whether another member follows. Its opening quotation mark or the closing bracket stays in the
    source. -/
def nextMember (care : Care) (first : Bool) : Reader Bool := do
  match ← peek with
  | none => refuse (.endOf .object)
  | some (.char '}') => pure false
  | some (.char ',') =>
    if first then refuse .expectedName
    else
      advance
      match ← peek with
      | some (.char '"') => pure true
      | some (.char '}') =>
        match care with
        | .kept => refuse .trailingComma
        | .skipped => refuse .expectedName
      | some _ => refuse .expectedName
      | none =>
        match care with
        | .kept => refuse (.endOf .value)
        | .skipped => refuse (.endOf .object)
  | some (.char '"') => if first then pure true else refuse .expectedObjectEnd
  | some _ => if first then refuse .expectedName else refuse .expectedObjectEnd

def colon : Reader Unit := do
  match ← peek with
  | none => refuse (.endOf .object)
  | some (.char ':') => advance
  | some _ => refuse .expectedColon

/-- The name of the next member, none at the closing bracket. -/
def nextName (care : Care) (name : Reader String) (first : Bool) : Reader (Option String) :=
  within .unnamed do
    if ← nextMember care first then
      advance
      return some (← name)
    else pure none

/-- The members up to the closing bracket. Once its name is read, a member either is refused or
    says how its value is read and what becomes of the state. -/
def members {σ : Type} (care : Care) (name : Reader String)
    (member : String → σ → Except Cause (Reader σ)) (first : Bool) (state : σ) (source : Source) :
    Except Fault (σ × Source) :=
  match nextName care name first source with
  | .error fault => .error fault
  | .ok (none, rest) => .ok (state, rest)
  | .ok (some key, rest) =>
    match member key state with
    | .error cause => .error ⟨[], cause⟩
    | .ok value =>
      match (do colon; within (.member key) value : Reader σ) rest with
      | .error fault => .error fault
      | .ok (state, more) =>
        if more.length < source.length then members care name member false state more
        else .ok (state, more)
termination_by source.length

/-- The closing bracket of an object. -/
def closeObject : Reader Unit := do
  match ← peek with
  | none => refuse (.endOf .object)
  | some (.char '}') => advance
  | some (.char ',') => refuse .trailingComma
  | some _ => refuse .trailingCharacters

/-! ## Passages -/

/-- A value that is kept, in which `room` brackets may still be opened within each other. -/
def kept : Nat → Reader Sight
  | 0 => do
    match ← sight with
    | .list | .object => refuse .tooDeep
    | found => pure found
  | room + 1 => do
    match ← sight with
    | .list =>
      let _ ← elements .kept (kept room) 0
      closeList
      pure .list
    | .object =>
      members .kept quotation (fun _ _ => pure do let _ ← kept room) true ()
      closeObject
      pure .object
    | found => pure found

def skipDigits : Reader Unit := fun source => .ok ((), (countDigits 0 source).2)

/-- One digit and those after it. -/
def skipSomeDigits : Reader Unit := fun source =>
  if (source.head?.bind digit?).isSome then skipDigits source else .error ⟨[], .invalidNumber⟩

/-- A number of which only the form is checked. -/
def skipNumber : Reader Unit := fun source =>
  let unsigned := match source with
    | .char '-' :: rest => rest
    | rest => rest
  let afterDigits : Reader Unit := fun source =>
    match source with
    | .char '.' :: rest => do
      let ((), rest) ← skipSomeDigits rest
      afterFraction rest
    | rest => afterFraction rest
  match unsigned with
  | .char '0' :: rest =>
    if (rest.head?.bind digit?).isSome then .error ⟨[], .invalidNumber⟩ else afterDigits rest
  | rest => do
    let ((), rest) ← skipSomeDigits rest
    afterDigits rest
where
  afterFraction : Reader Unit := fun source =>
    match source with
    | .char 'e' :: rest | .char 'E' :: rest =>
      match rest with
      | .char '+' :: rest | .char '-' :: rest => skipSomeDigits rest
      | _ => skipSomeDigits rest
    | rest => .ok ((), rest)

/-- A quotation of which only the form is checked, as far as it is text. -/
def looseQuotation : Reader String := do
  return String.ofList ((← letters looseEscape).filterMap Glyph.char?)

/-- A passage with at most `depth` brackets within each other. -/
def skippedWithin : Nat → Reader Unit
  | 0 => refuse (.endOf .value)
  | depth + 1 => do
    match ← peek with
    | none => refuse (.endOf .value)
    | some (.char 'n') => keyword nullWord
    | some (.char 't') => keyword trueWord
    | some (.char 'f') => keyword falseWord
    | some (.char '"') => advance; let _ ← looseQuotation
    | some (.char '[') =>
      advance
      let _ ← elements .skipped (skippedWithin depth) 0
      closeList
    | some (.char '{') =>
      advance
      members .skipped looseQuotation (fun _ _ => pure (skippedWithin depth)) true ()
      closeObject
    | some g => if g = .char '-' ∨ (digit? g).isSome then skipNumber else refuse .expectedValue

/-- A source has no more opening brackets than glyphs. -/
def skipped : Reader Unit := fun source =>
  unplaced (skippedWithin source.length) source

end LayeredPreferences.Json

import LayeredPreferences.Json.Fault
import LayeredPreferences.Json.Glyph

set_option autoImplicit false

/-!
# Readers

A reader takes what it reads from the front of a source, or refuses it with a
cause. Blanks are skipped before a token is looked at, and nowhere else.
-/
namespace LayeredPreferences.Json

abbrev Reader (α : Type) := StateT Source (Except Fault) α

def refuse {α : Type} (cause : Cause) : Reader α := throw ⟨[], cause⟩

/-- Faults of the reader lie behind the given step. -/
def within {α : Type} (step : Step) (reader : Reader α) : Reader α := fun source =>
  (reader source).mapError fun fault => ⟨step :: fault.path, fault.cause⟩

/-- Faults of the reader lie where the reader starts. -/
def unplaced {α : Type} (reader : Reader α) : Reader α := fun source =>
  (reader source).mapError fun fault => ⟨[], fault.cause⟩

/-- The next glyph that is not blank. It stays in the source. -/
def peek : Reader (Option Glyph) := fun source =>
  let rest := source.dropWhile Glyph.isBlank
  .ok (rest.head?, rest)

def advance : Reader Unit := modify List.tail

/-- A value and nothing after it. -/
def whole {α : Type} (reader : Reader α) (source : Source) : Except Fault α := do
  let (x, rest) ← reader source
  if rest.all Glyph.isBlank then pure x else throw ⟨[], .trailingCharacters⟩

def keyword : List Char → Reader Unit
  | [] => pure ()
  | c :: word => fun source =>
    match source with
    | [] => .error ⟨[], .endOf .value⟩
    | g :: rest => if g = .char c then keyword word rest else .error ⟨[], .expectedKeyword⟩

end LayeredPreferences.Json

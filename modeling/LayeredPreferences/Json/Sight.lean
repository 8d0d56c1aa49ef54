import LayeredPreferences.Json.Numeral
import LayeredPreferences.Json.Quotation

set_option autoImplicit false

/-!
# The value at the front

Key words, numbers and strings are read whole. Of lists and objects only the
opening bracket is read.
-/
namespace LayeredPreferences.Json

/-- A value that is neither list nor object is read; of these only the opening bracket is. -/
def sight : Reader Sight := do
  match ← peek with
  | none => refuse (.endOf .value)
  | some (.char 'n') => keyword nullWord; pure .null
  | some (.char 't') => keyword trueWord; pure (.boolean true)
  | some (.char 'f') => keyword falseWord; pure (.boolean false)
  | some (.char '"') => advance; return .string (← quotation)
  | some (.char '[') => advance; pure .list
  | some (.char '{') => advance; pure .object
  | some g => if g = .char '-' ∨ (digit? g).isSome then return .number (← number)
              else refuse .expectedValue

end LayeredPreferences.Json

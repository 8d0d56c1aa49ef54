import LayeredPreferences.Value

set_option autoImplicit false

/-!
# Values as stored texts

Booleans are stored as the texts `1` and `0`, all other values as their JSON
text. A stored text that is no JSON value is taken as a string.
-/
namespace LayeredPreferences.Value

def encode : Value → String
  | .boolean true => "1"
  | .boolean false => "0"
  | v => String.ofList v.write

def decode (text : String) : Value :=
  match Json.parse shape (.ofString text) with
  | .ok v => v
  | .error _ => .string text

end LayeredPreferences.Value

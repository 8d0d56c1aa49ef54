set_option autoImplicit false

/-!
# Percent encoding

A percent sign and two hexadecimal digits stand for one byte.
-/
namespace LayeredPreferences.Text

def hexDigit? (b : UInt8) : Option UInt8 :=
  if 0x30 ≤ b ∧ b ≤ 0x39 then some (b - 0x30)
  else if 0x41 ≤ b ∧ b ≤ 0x46 then some (b - 0x41 + 10)
  else if 0x61 ≤ b ∧ b ≤ 0x66 then some (b - 0x61 + 10)
  else none

def hexByte? (a b : UInt8) : Option UInt8 :=
  match hexDigit? a, hexDigit? b with
  | some x, some y => some (16 * x + y)
  | _, _ => none

/-- A percent sign without two hexadecimal digits stands for itself. -/
def percentDecode : List UInt8 → List UInt8
  | [] => []
  | [a] => [a]
  | [a, b] => [a, b]
  | a :: b :: c :: rest =>
    if a = 0x25 then
      match hexByte? b c with
      | some x => x :: percentDecode rest
      | none => a :: percentDecode (b :: c :: rest)
    else a :: percentDecode (b :: c :: rest)
termination_by bytes => bytes.length

end LayeredPreferences.Text

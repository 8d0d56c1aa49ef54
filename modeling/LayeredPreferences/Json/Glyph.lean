set_option autoImplicit false

/-!
# Glyphs

A text to be read as JSON is a list of glyphs. A text that arrives as bytes may
hold bytes that belong to no character; such a byte is a glyph of its own.
-/
namespace LayeredPreferences.Json

inductive Glyph where
  | char (c : Char)
  | stray
deriving DecidableEq

abbrev Source := List Glyph

namespace Glyph

/-- The white space between the tokens of JSON. -/
def isBlank : Glyph → Bool
  | .char c => c = ' ' || c = '\t' || c = '\n' || c = '\r'
  | .stray => false

def char? : Glyph → Option Char
  | .char c => some c
  | .stray => none

/-- How many bytes stand for the glyph. -/
def byteSize : Glyph → Nat
  | .char c => c.utf8Size
  | .stray => 1

end Glyph

namespace Source

def ofString (s : String) : Source := s.toList.map .char

/-- Each character is taken as soon as its bytes are complete. -/
def ofBytes : List UInt8 → Source
  | [] => []
  | b :: bs =>
    match ((b :: bs).take 4).toByteArray.utf8DecodeChar? 0 with
    | some c => .char c :: ofBytes ((b :: bs).drop c.utf8Size)
    | none => .stray :: ofBytes bs
termination_by bytes => bytes.length
decreasing_by
  · have := c.utf8Size_pos
    simp only [List.length_drop, List.length_cons]
    omega
  · simp

end Source

end LayeredPreferences.Json

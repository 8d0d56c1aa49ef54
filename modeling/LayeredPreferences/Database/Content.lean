import LayeredPreferences.Database.Comparison
import LayeredPreferences.Database.Fault

set_option autoImplicit false

/-!
# Contents

What is worked out of the columns of a row. Texts and bytes count as the numbers at
their front. A content can be marked as a document, which is known from then on.
-/
namespace LayeredPreferences.Database

namespace Cell

def ofBool (b : Bool) : Cell := .integer (if b then 1 else 0)

def ofText (s : String) : Cell := .text s.toUTF8.toList

def ofReal : Binary64 → Cell
  | .notANumber => .null
  | x => .real x

def number (encoding : Encoding) : Cell → Cell
  | .text bytes | .blob bytes => (numberOfText (encoding.decode bytes)).1
  | .zeros _ => .integer 0
  | cell => cell

def isTrue? (encoding : Encoding) (cell : Cell) : Option Bool :=
  match cell.number encoding with
  | .integer n => some (n ≠ 0)
  | .real x => some (x.signedUnits ≠ 0)
  | _ => none

def least : Int := -Nat.pow 2 63

def greatest : Int := Nat.pow 2 63 - 1

def within (n : Int) : Int := max least (min greatest n)

def wholeOfText (bytes : List UInt8) : Int :=
  let cs := (bytes.dropWhile isSpace).map fun b => Char.ofNat b.toNat
  let isNegative := cs.head? = some '-'
  let digits := if isNegative ∨ cs.head? = some '+' then cs.drop 1 else cs
  let n : Int := Nat.ofDigitChars 10 (digits.takeWhile Char.isDigit) 0
  within (if isNegative then -n else n)

def wholeOfReal (x : Binary64) : Int := within (x.signedUnits.tdiv Binary64.unitsOfOne)

def whole? (encoding : Encoding) : Cell → Option Int
  | .null => none
  | .integer n => some n
  | .real x => some (wholeOfReal x)
  | .text bytes | .blob bytes => some (wholeOfText (encoding.decode bytes))
  | .zeros _ => some 0

def whole (encoding : Encoding) (cell : Cell) : Int := (cell.whole? encoding).getD 0

def count (encoding : Encoding) (cell : Cell) : Int :=
  Bytes.signed 32 (cell.whole encoding % Nat.pow 2 32).toNat

def asReal (encoding : Encoding) (cell : Cell) : Binary64 :=
  match cell.number encoding with
  | .null => realOfInt 0
  | cell => cell.realOf

def negative : Cell → Cell
  | .integer n => if n = least then .real (realOfInt (-n)) else .integer (-n)
  | .real (.finite isNegative rank) => .real (.finite (!isNegative) rank)
  | .real (.infinite isNegative) => .real (.infinite (!isNegative))
  | cell => cell

/-- The number at the front of a text or of bytes, whole if it can be and has few digits. -/
def numeric (encoding : Encoding) (cell : Cell) : Cell :=
  match cell, cell.number encoding with
  | .integer n, _ => .integer n
  | .real x, _ => .real x
  | _, .real x => ((wholeOf? 51 x).map Cell.integer).getD (.real x)
  | _, number => number

def casted (encoding : Encoding) (affinity : Affinity) (cell : Cell) : Cell :=
  let kept := (cell.kept? encoding).getD []
  match affinity, cell with
  | _, .null => .null
  | .any, _ => .blob kept
  | .text, _ => .text (if encoding = .utf8 then kept else kept.take (kept.length / 2 * 2))
  | .integer, cell => .integer (cell.whole encoding)
  | .real, cell => .real (cell.number encoding).realOf
  | .numeric, cell => cell.numeric encoding

def typeName : Cell → String
  | .null => "null"
  | .integer _ => "integer"
  | .real _ => "real"
  | .text _ => "text"
  | .blob _ | .zeros _ => "blob"

end Cell

structure Content where
  cell : Cell
  isDocument : Bool

namespace Content

def ofCell (cell : Cell) : Content := ⟨cell, false⟩

def null : Content := ofCell .null

end Content

abbrev longest : Nat := 1000000000

end LayeredPreferences.Database

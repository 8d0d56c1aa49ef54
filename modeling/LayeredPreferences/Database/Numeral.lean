import LayeredPreferences.Database.Record
import LayeredPreferences.Number.Extended
import LayeredPreferences.Number.Form

set_option autoImplicit false

/-!
# Numerals

How numbers are written in texts and in statements. As many digits are read as fit
a word of 64 bits, and the power of ten is multiplied in extended precision.
-/
namespace LayeredPreferences.Database

structure Numeral where
  whole : List Char
  fraction : List Char
  exponent : Int
  isWhole : Bool

namespace Numeral

/-- Exponents with more than four digits are all the same. -/
def exponentOf (digits : List Char) : Nat :=
  digits.foldl (fun n c => if n < 10000 then 10 * n + (c.toNat - 48) else 10000) 0

def front? (cs : List Char) : Option (Numeral × List Char) :=
  let whole := cs.takeWhile Char.isDigit
  let rest := cs.dropWhile Char.isDigit
  let hasPoint := rest.head? = some '.'
  let fraction := if hasPoint then (rest.drop 1).takeWhile Char.isDigit else []
  let rest := if hasPoint then (rest.drop 1).dropWhile Char.isDigit else rest
  if whole.isEmpty ∧ fraction.isEmpty then none
  else
    let exponent? : Option (Int × List Char) := match rest with
      | e :: tail =>
        let sign := tail.head?.filter fun c => c = '-' || c = '+'
        let digits := if sign.isSome then tail.drop 1 else tail
        if e.toLower = 'e' ∧ digits.head?.any Char.isDigit then
          let n := exponentOf (digits.takeWhile Char.isDigit)
          some (if sign = some '-' then -n else n, digits.dropWhile Char.isDigit)
        else none
      | [] => none
    match exponent? with
    | some (exponent, rest) => some (⟨whole, fraction, exponent, false⟩, rest)
    | none => some (⟨whole, fraction, 0, !hasPoint⟩, rest)

/-- No digit is added to a significand that is not below this. -/
abbrev fullSignificand : Nat := 1844674407370955160

/-- The significand, and the power of ten that goes with it. Digits that no longer fit are counted
    before the point, and dropped after it. -/
def significand (n : Numeral) : Nat × Int :=
  let take (next : Int) (left : Int) (known : Nat × Int) (c : Char) : Nat × Int :=
    if known.1 < fullSignificand then (10 * known.1 + (c.toNat - 48), known.2 + next)
    else (known.1, known.2 + left)
  n.fraction.foldl (take (-1) 0) (n.whole.foldl (take 0 1) (0, 0))

def widened (s : Nat) (e : Int) : Nat → Nat × Int
  | 0 => (s, e)
  | fuel + 1 => if 0 < e ∧ s ≤ fullSignificand then widened (10 * s) (e - 1) fuel else (s, e)

def narrowed (s : Nat) (e : Int) : Nat → Nat × Int
  | 0 => (s, e)
  | fuel + 1 => if e < 0 ∧ s % 10 = 0 then narrowed (s / 10) (e + 1) fuel else (s, e)

def rank (n : Numeral) : Nat :=
  let (s, power) := n.significand
  if s = 0 then 0
  else
    let (s, e) := widened s (n.exponent + power) 20
    let (s, e) := narrowed s e 20
    if e = 0 then Binary64.rankOfNat s else ((Extended.ofNat s).scaled e).rank

def real (isNegative : Bool) (n : Numeral) : Binary64 := .ofRank isNegative n.rank

def cell (isNegative : Bool) (n : Numeral) : Cell :=
  let digits := Nat.ofDigitChars 10 n.whole 0
  if n.isWhole ∧ (digits < Nat.pow 2 63 ∨ isNegative ∧ digits = Nat.pow 2 63) then
    .integer (if isNegative then -digits else digits)
  else .real (n.real isNegative)

end Numeral

namespace Cell

def isSpace (b : UInt8) : Bool := b = 0x20 || 0x09 ≤ b && b ≤ 0x0d

def numberOfText (bytes : List UInt8) : Cell × Bool :=
  let cs := (bytes.dropWhile isSpace).map fun b => Char.ofNat b.toNat
  let sign := cs.head?.filter fun c => c = '-' || c = '+'
  match Numeral.front? (if sign.isSome then cs.drop 1 else cs) with
  | none => (.integer 0, false)
  | some (numeral, rest) =>
    (numeral.cell (sign = some '-'), rest.all fun c => isSpace (.ofNat c.toNat) && c.toNat < 0x100)

end Cell

/-- Fifteen digits at most and one after the point at least, in place from the fourth digit after
    the point to the fifteenth before it. -/
def realForm : RealForm := ⟨.general, 15, false, true, false, false⟩

/-- Twenty-one digits, as they are needed where fifteen do not tell the number. -/
def exactForm : RealForm := ⟨.exponential, 20, false, true, false, false⟩

def realText (form : RealForm) (infinite : List Char) : Binary64 → String
  | .finite isNegative rank =>
    let magnitude := form.write (form.digits rank.val)
    String.ofList (if isNegative && rank.val ≠ 0 then '-' :: magnitude else magnitude)
  | .infinite isNegative => String.ofList (if isNegative then '-' :: infinite else infinite)
  | .notANumber => ""

def textOfReal (x : Binary64) : String := realText realForm "Inf".toList x

end LayeredPreferences.Database

import LayeredPreferences.Number.Shortest

set_option autoImplicit false

/-!
# Notations of floating-point numbers

A notation is a value: when digits are written in place, whether a whole number
keeps a zero after the point, where an exact half goes, and what stands for the
values that have no digits.
-/
namespace LayeredPreferences

structure Notation where
  half : HalfRule
  /-- Whether a number with this exponent of its leading digit is written without an exponent. -/
  inPlace : Int → Bool
  /-- What follows the digits of a whole number written in place. -/
  whole : List Char
  infinite : Bool → List Char
  notANumber : List Char

namespace Notation

/-- Written in place, where `exponent` is that of the first digit. -/
def placed (form : Notation) (digits : List Char) (exponent : Int) : List Char :=
  if exponent < 0 then
    '0' :: '.' :: (List.replicate (-exponent - 1).toNat '0' ++ digits)
  else
    let n := exponent.toNat + 1
    if digits.length ≤ n then
      digits ++ List.replicate (n - digits.length) '0' ++ form.whole
    else
      digits.take n ++ '.' :: digits.drop n

/-- One digit before the point, and a power of ten with its sign. -/
def scientific (digits : List Char) (exponent : Int) : List Char :=
  let fraction := match digits.drop 1 with
    | [] => []
    | rest => '.' :: rest
  let sign := if exponent < 0 then '-' else '+'
  digits.take 1 ++ fraction ++ 'e' :: sign :: Nat.toDigits 10 exponent.natAbs

/-- A positive decimal; zeros at the end of its coefficient do not count as digits. -/
def decimal (form : Notation) (d : Decimal) : List Char :=
  let all := Nat.toDigits 10 d.coefficient
  let digits := (all.reverse.dropWhile (· == '0')).reverse
  let exponent := d.exponent + all.length - 1
  if form.inPlace exponent then form.placed digits exponent else scientific digits exponent

def write (form : Notation) : Binary64 → List Char
  | .finite negative rank =>
    let magnitude :=
      if rank.val = 0 then '0' :: form.whole
      else form.decimal (Binary64.shortest form.half rank.val)
    if negative then '-' :: magnitude else magnitude
  | .infinite negative => form.infinite negative
  | .notANumber => form.notANumber

end Notation

end LayeredPreferences

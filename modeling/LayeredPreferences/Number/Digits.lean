import LayeredPreferences.Number.Extended

set_option autoImplicit false

/-!
# Digits of magnitudes

A magnitude is scaled by powers of ten until its whole part has about eighteen
digits. These digits are all that is known of it, and they are rounded in decimal,
a half up.
-/
namespace LayeredPreferences

/-- Digits without zeros at the end, and how many of them stand before the point. -/
structure Digits where
  digits : List Char
  point : Int

namespace Digits

def zero : Digits := ⟨['0'], 1⟩

/-- Where numbers are lowered to: with so many steps left, while they are not below the bound. -/
def lowered (bound step : Int) (x : Extended) (e : Int) : Nat → Extended × Int
  | 0 => (x, e)
  | fuel + 1 =>
    if x.isLess (.tenTo bound) then (x, e)
    else lowered bound step (x.product (.tenTo (-step))) (e + step) fuel

/-- The same for numbers that are below the bound. -/
def raised (bound step : Int) (x : Extended) (e : Int) : Nat → Extended × Int
  | 0 => (x, e)
  | fuel + 1 =>
    if x.isLess (.tenTo bound) then
      raised bound step (x.product (.tenTo step)) (e - step) fuel
    else (x, e)

/-- A number between `10 ^ 17` and `10 ^ 19`, and the power of ten that it is to be taken by. -/
def scaled (rank : Nat) : Extended × Int :=
  let x := Extended.ofRank rank
  if x.isLess (.tenTo 19) then
    let (x, e) := raised (-97) 100 x 0 10
    let (x, e) := raised 7 10 x e 20
    raised 17 1 x e 20
  else
    let (x, e) := lowered 119 100 x 0 10
    let (x, e) := lowered 29 10 x e 20
    lowered 19 1 x e 20

/-- The first `count` of so many digits, rounded. -/
def first (n length : Nat) (point : Int) (count : Nat) : Digits :=
  let unit := Nat.pow 10 (length - count)
  let kept := n / unit + (if 5 ≤ n / (unit / 10) % 10 then 1 else 0)
  ⟨Nat.toDigits 10 kept, if kept = Nat.pow 10 count then point + 1 else point⟩

/-- Rounded to `round` digits, or if that is not positive, to as many places after the point. No
    more than `most` digits are kept. -/
def rounded (n : Nat) (exponent round : Int) (most : Nat) : Digits :=
  let all := Nat.toDigits 10 n
  let length := all.length
  let point := length + exponent
  let places := if round ≤ 0 then point - round else round
  if round ≤ 0 ∧ places = 0 ∧ 5 ≤ n / Nat.pow 10 (length - 1) then ⟨['1'], point + 1⟩
  else if 0 < places ∧ (places < length ∨ most < length) then
    first n length point (min places.toNat most)
  else ⟨all, point⟩

def ofRank (rank : Nat) (round : Int) (most : Nat) : Digits :=
  if rank = 0 then zero
  else
    let (x, exponent) := scaled rank
    let found := rounded x.whole exponent round most
    ⟨(found.digits.reverse.dropWhile (· == '0')).reverse, found.point⟩

end Digits

end LayeredPreferences

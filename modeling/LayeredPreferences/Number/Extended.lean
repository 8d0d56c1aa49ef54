import LayeredPreferences.Number.Binary64

set_option autoImplicit false

/-!
# Extended precision

Positive numbers with a significand of 64 bits, as they stand between the digits of
a decimal and a magnitude of binary floating point. Each product is rounded to 64
bits, a half to the even neighbour.
-/
namespace LayeredPreferences

/-- `significand * 2 ^ exponent`; the first of the 64 bits is set. -/
structure Extended where
  significand : Nat
  exponent : Int
deriving DecidableEq

namespace Extended

/-- The number nearest to a fraction times `2 ^ e`. -/
def ofRatio (num den : Nat) (e : Int) : Extended :=
  let first : Int := 64 + den.log2 - num.log2
  let above (shift : Int) : Nat := num * Nat.pow 2 shift.toNat
  let below (shift : Int) : Nat := den * Nat.pow 2 (-shift).toNat
  let shift := if above first / below first < Nat.pow 2 64 then first else first - 1
  let s := Binary64.nearestEven (above shift) (below shift)
  if s = Nat.pow 2 64 then ⟨Nat.pow 2 63, e - shift + 1⟩ else ⟨s, e - shift⟩

def ofNat (n : Nat) : Extended := ofRatio n 1 0

/-- The number nearest to `10 ^ n`. -/
def tenTo : Int → Extended
  | .ofNat n => ofRatio (Nat.pow 10 n) 1 0
  | .negSucc n => ofRatio 1 (Nat.pow 10 (n + 1)) 0

def ofRank (rank : Nat) : Extended := ofRatio (Binary64.units rank) 1 (-1074)

def product (x y : Extended) : Extended :=
  ofRatio (x.significand * y.significand) 1 (x.exponent + y.exponent)

def isLess (x y : Extended) : Bool :=
  x.exponent < y.exponent || x.exponent = y.exponent && x.significand < y.significand

/-- The whole part. -/
def whole (x : Extended) : Nat :=
  x.significand * Nat.pow 2 x.exponent.toNat / Nat.pow 2 (-x.exponent).toNat

/-- The nearest rank. What is beyond the last finite magnitude, however little, is infinite. -/
def rank (x : Extended) : Nat :=
  if (ofRank (Binary64.rankBound - 1)).isLess x then Binary64.rankBound
  else if x.exponent < -1200 then 0
  else Binary64.nearestRank (x.significand * Nat.pow 2 x.exponent.toNat)
    (Nat.pow 2 (-x.exponent).toNat)

/-- Times `10 ^ e`: hundreds of tens at once, then tens, then one by one. -/
def scaled (x : Extended) (e : Int) : Extended :=
  let sign := e.sign
  let times (n : Nat) (step : Int) (x : Extended) : Extended :=
    n.repeat (·.product (tenTo (sign * step))) x
  times (e.natAbs % 10) 1 (times (e.natAbs % 100 / 10) 10 (times (e.natAbs / 100) 100 x))

end Extended

end LayeredPreferences

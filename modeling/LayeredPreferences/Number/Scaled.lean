import LayeredPreferences.Number.Binary64

set_option autoImplicit false

/-!
# A significand times a power of ten

The significand and the power of ten are rounded each by itself, and their
product or quotient is rounded once more. So the result is near the decimal, and
not always the nearest.
-/
namespace LayeredPreferences.Binary64

/-- Division by `10 ^ n`, at most `10 ^ 308` at a time, until nothing is left of the magnitude. -/
def lowered (rank n : Nat) : Nat :=
  if n ≤ 308 then divRank rank (rankOfNat (Nat.pow 10 n))
  else if rank = 0 then 0
  else lowered (divRank rank (rankOfNat (Nat.pow 10 308))) (n - 308)
termination_by n

/-- The magnitude of `significand * 10 ^ exponent`, none beyond the finite ones. -/
def scaledRank? (significand : Nat) : Int → Option Nat
  | .ofNat n =>
    if n ≤ 308 then
      let rank := mulRank (rankOfNat significand) (rankOfNat (Nat.pow 10 n))
      if rank < rankBound then some rank else none
    else if significand = 0 then some 0
    else none
  | .negSucc n => some (lowered (rankOfNat significand) (n + 1))

end LayeredPreferences.Binary64

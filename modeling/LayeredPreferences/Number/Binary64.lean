set_option autoImplicit false

/-!
# Binary floating point by rank

The finite numbers of the 64-bit binary format are a sign and a magnitude. The
magnitudes are counted in increasing order from zero, and this count, the
*rank*, is also the value of the low 63 bits of the format. Every magnitude is
a whole number of units of `2 ^ -1074`, so all arithmetic here is exact
arithmetic on natural numbers, followed by one rounding.
-/
namespace LayeredPreferences

inductive Binary64 where
  | finite (negative : Bool) (rank : Fin (2047 * Nat.pow 2 52))
  | infinite (negative : Bool)
  | notANumber
deriving DecidableEq

namespace Binary64

/-- The rank after the last finite one. -/
abbrev rankBound : Nat := 2047 * Nat.pow 2 52

/-- The magnitude of a rank, in units of `2 ^ -1074`. -/
def units (rank : Nat) : Nat :=
  let hidden := Nat.pow 2 52
  if rank < hidden then rank else (hidden + rank % hidden) * Nat.pow 2 (rank / hidden - 1)

/-- One in units of `2 ^ -1074`. -/
abbrev unitsOfOne : Nat := Nat.pow 2 1074

/-- A quotient to the nearest whole number, a half to the even neighbour. -/
def nearestEven (num den : Nat) : Nat :=
  let q := num / den
  let r := num % den
  if 2 * r < den then q else if den < 2 * r then q + 1 else q + q % 2

/-- The rank nearest to `num / den`, a half to the even neighbour. It may lie beyond the last
    finite rank. A binade of spacing `2 ^ k` units starts at rank `(k + 1) * 2 ^ 52`, and its
    first significand is `2 ^ 52`, hence the sum. -/
def nearestRank (num den : Nat) : Nat :=
  let k := (num * unitsOfOne / den).log2 - 52
  k * Nat.pow 2 52 + nearestEven (num * unitsOfOne) (den * Nat.pow 2 k)

def rankOfNat (n : Nat) : Nat := nearestRank n 1

def mulRank (a b : Nat) : Nat := nearestRank (units a * units b) (unitsOfOne * unitsOfOne)

def divRank (a b : Nat) : Nat := nearestRank (units a) (units b)

/-- A magnitude beyond the finite ones is infinite. -/
def ofRank (negative : Bool) (rank : Nat) : Binary64 :=
  if h : rank < rankBound then .finite negative ⟨rank, h⟩ else .infinite negative

def ofBits (bits : UInt64) : Binary64 :=
  let negative := Nat.pow 2 63 ≤ bits.toNat
  let rank := bits.toNat % Nat.pow 2 63
  if rank ≤ rankBound then ofRank negative rank else .notANumber

/-- All patterns of the not-a-number value become the one quiet pattern without a payload. -/
def toBits : Binary64 → UInt64
  | .finite negative rank => .ofNat (negative.toNat * Nat.pow 2 63 + rank.val)
  | .infinite negative => .ofNat (negative.toNat * Nat.pow 2 63 + rankBound)
  | .notANumber => .ofNat (rankBound + Nat.pow 2 51)

def isFinite : Binary64 → Bool
  | .finite .. => true
  | _ => false

/-- The usual comparison: the two zeros are equal, and what is not a number equals nothing. -/
def same : Binary64 → Binary64 → Bool
  | .finite s a, .finite t b => a == b && (s == t || a.val == 0)
  | .infinite s, .infinite t => s == t
  | _, _ => false

/-- The whole number that the value is exactly, if it is one. -/
def toInt? : Binary64 → Option Int
  | .finite negative rank =>
    let n : Int := (units rank.val / unitsOfOne : Nat)
    if units rank.val % unitsOfOne = 0 then some (if negative then -n else n) else none
  | _ => none

end Binary64

end LayeredPreferences

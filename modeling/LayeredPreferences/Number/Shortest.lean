import LayeredPreferences.Number.Binary64

set_option autoImplicit false

/-!
# Shortest decimal of a magnitude

The reals that round to a magnitude form an interval around it, ends included
for even ranks. Of the decimals with the fewest digits in this interval, the one
nearest to the magnitude is chosen. For a given count of digits only the two
neighbours of the magnitude on that decimal grid need to be tried.
-/
namespace LayeredPreferences

/-- `coefficient * 10 ^ exponent`. -/
structure Decimal where
  coefficient : Nat
  exponent : Int
deriving DecidableEq

/-- Which of two neighbours an exact half goes to. -/
inductive HalfRule where
  | even
  | up
deriving DecidableEq

namespace Binary64

/-- `c * 10 ^ e` against `n` units of `2 ^ -1075`, as two natural numbers. -/
def crossScaled (c : Nat) (e : Int) (n : Nat) : Nat × Nat :=
  (c * Nat.pow 10 e.toNat * (2 * unitsOfOne), n * Nat.pow 10 (-e).toNat)

/-- Whether `c * 10 ^ e` is read back as the magnitude of the rank. -/
def readsBack (rank : Nat) (c : Nat) (e : Int) : Bool :=
  let low := crossScaled c e (units (rank - 1) + units rank)
  let high := crossScaled c e (units rank + units (rank + 1))
  if rank % 2 = 0 then low.2 ≤ low.1 && high.1 ≤ high.2 else low.2 < low.1 && high.1 < high.2

/-- The decimal exponent of the leading digit of a positive magnitude. -/
def leadingExponent (rank : Nat) : Int :=
  (Nat.toDigits 10 (units rank * Nat.pow 10 324 / unitsOfOne)).length - 325

/-- The neighbours on the grid of `10 ^ e` that read back, the nearer one if both do. -/
def onGrid? (half : HalfRule) (rank : Nat) (e : Int) : Option Nat :=
  let num := units rank * Nat.pow 10 (-e).toNat
  let den := unitsOfOne * Nat.pow 10 e.toNat
  let c := num / den
  let r := num % den
  match readsBack rank c e, readsBack rank (c + 1) e with
  | false, false => none
  | true, false => some c
  | false, true => some (c + 1)
  | true, true =>
    if 2 * r < den then some c
    else if den < 2 * r then some (c + 1)
    else match half with
      | .even => some (c + c % 2)
      | .up => some (c + 1)

/-- Grids of one digit, two digits and so on; seventeen always suffice. -/
def shortestFrom (half : HalfRule) (rank : Nat) (e : Int) : Nat → Decimal
  | 0 => ⟨units rank * Nat.pow 10 (-e).toNat / (unitsOfOne * Nat.pow 10 e.toNat), e⟩
  | more + 1 =>
    match onGrid? half rank e with
    | some c => ⟨c, e⟩
    | none => shortestFrom half rank (e - 1) more

/-- The shortest decimal that reads back as the magnitude of a positive rank. -/
def shortest (half : HalfRule) (rank : Nat) : Decimal :=
  shortestFrom half rank (leadingExponent rank) 17

end Binary64

end LayeredPreferences

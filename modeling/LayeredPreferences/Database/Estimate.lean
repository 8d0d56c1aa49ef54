set_option autoImplicit false

/-!
# Estimates

A count is estimated by its logarithm: ten steps double it, and zero is one.
Between two powers of two there are eight counts that are told apart.
-/
namespace LayeredPreferences.Database

abbrev Estimate := Int

namespace Estimate

def ofNat (n : Nat) : Estimate :=
  if n < 2 then 0
  else 10 * n.log2 + ([0, 2, 3, 5, 6, 7, 8, 9].getD (8 * n / Nat.pow 2 n.log2 - 8) 0 : Nat)

/-- How far a sum is above the larger summand, by how far that one is above the other. -/
def surplus (distance : Nat) : Nat :=
  ([2, 4, 6, 9, 12, 15, 19, 25, 32, 50].filter (distance < ·)).length

def sum (a b : Estimate) : Estimate := max a b + surplus (a - b).natAbs

def depth (rows : Estimate) : Estimate := if rows ≤ 10 then 0 else ofNat rows.toNat - 33

end Estimate

end LayeredPreferences.Database

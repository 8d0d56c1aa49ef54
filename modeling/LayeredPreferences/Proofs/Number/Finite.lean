import LayeredPreferences.Proofs.Number.Nearness

set_option autoImplicit false

/-!
# What is read of a decimal is finite

A significand of 64 bits is finite, dividing it by a power of ten makes it no larger, and a product
that leaves the finite magnitudes is refused.
-/
namespace LayeredPreferences.Binary64

variable {s rank : Nat} {e : Int}

theorem isFinite_ofRank (negative : Bool) (h : rank < rankBound) :
    (ofRank negative rank).isFinite = true := by
  rw [ofRank, dif_pos h]
  rfl

theorem rankOfNat_lt (fits : s < 2 ^ 64) : rankOfNat s < rankBound := by
  refine nearestRank_lt Nat.one_pos ?_
  have product : s * unitsOfOne ≤ 2 ^ 64 * unitsOfOne := Nat.mul_le_mul_right _ fits.le
  have room : 2 ^ 64 * unitsOfOne + 1 * 2 ^ 2044 < 2 ^ 54 * (1 * 2 ^ 2044) := by decide +kernel
  omega

/-- What is less than one is far below the last magnitude. -/
theorem lt_rankBound_of_size (small : size rank < 1) : rank < rankBound := by
  refine size_strictMono.lt_iff_lt.1 (small.trans_le ?_)
  have least : unitsOfOne ≤ units rankBound := by decide +kernel
  rw [size, le_div_iff₀ cast_unitsOfOne_pos, one_mul]
  exact_mod_cast least

/-- The divisor is one at least. -/
theorem divRank_lt {a b : Nat} (bounded : size a ≤ 2 ^ 65) (divisor : unitsOfOne ≤ units b) :
    divRank a b < rankBound := by
  refine nearestRank_lt (Nat.lt_of_lt_of_le unitsOfOne_pos divisor) ?_
  have few : units a ≤ 2 ^ 65 * unitsOfOne := by
    rw [size, div_le_iff₀ cast_unitsOfOne_pos] at bounded
    exact_mod_cast bounded
  have product : units a * unitsOfOne ≤ 2 ^ 65 * unitsOfOne * unitsOfOne :=
    Nat.mul_le_mul_right _ few
  have place : unitsOfOne * 2 ^ 2044 ≤ units b * 2 ^ 2044 := Nat.mul_le_mul_right _ divisor
  have room : 2 ^ 65 * unitsOfOne * unitsOfOne + unitsOfOne * 2 ^ 2044
      < 2 ^ 54 * (unitsOfOne * 2 ^ 2044) := by decide +kernel
  omega

theorem lowered_lt {n : Nat} (bounded : size rank ≤ 2 ^ 65) : lowered rank n < rankBound := by
  rcases Nat.lt_or_ge 308 n with many | few
  · exact lt_rankBound_of_size (size_lowered_lt many bounded)
  · rw [lowered, if_pos few]
    exact divRank_lt bounded (unitsOfOne_le_units (tenPower_pos n))

theorem size_rankOfNat_bounded (fits : s < 2 ^ 64) : size (rankOfNat s) ≤ 2 ^ 65 := by
  rcases Nat.eq_zero_or_pos s with rfl | positive
  · rw [rankOfNat_zero, size_zero]
    positivity
  · exact size_rankOfNat_le positive fits

theorem scaledRank?_lt (fits : s < 2 ^ 64) (h : scaledRank? s e = some rank) :
    rank < rankBound := by
  cases e with
  | ofNat n =>
    rw [scaledRank?] at h
    dsimp only at h
    split_ifs at h with few finite zero
    · obtain rfl := Option.some.inj h
      exact finite
    · obtain rfl := Option.some.inj h
      decide
  | negSucc n =>
    obtain rfl := Option.some.inj h
    exact lowered_lt (size_rankOfNat_bounded fits)

end LayeredPreferences.Binary64

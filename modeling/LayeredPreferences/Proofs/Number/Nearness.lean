import LayeredPreferences.Proofs.Number.Exact
import Mathlib.Algebra.Order.Field.Power
import Mathlib.Tactic.Positivity

set_option autoImplicit false

/-!
# How near a decimal is read

Each rounding errs by one part in `2 ^ 53` at most, and a decimal is rounded three times. What is
read is a whole number of fewer than 53 bits only if the decimal is.
-/
namespace LayeredPreferences.Binary64

/-! ## Relative errors -/

/-- `x` is `y` up to a part of it. -/
def Within (part x y : ℚ) : Prop := (1 - part) * y ≤ x ∧ x ≤ (1 + part) * y

namespace Within

variable {u v w x y x' y' z : ℚ}

theorem refl (sign : 0 ≤ y) (part : 0 ≤ u) : Within u y y := by
  have less := mul_nonneg part sign
  constructor <;> linarith

theorem mono (h : Within u x y) (sign : 0 ≤ y) (less : u ≤ w) : Within w x y := by
  constructor
  · calc (1 - w) * y ≤ (1 - u) * y := mul_le_mul_of_nonneg_right (by linarith) sign
      _ ≤ x := h.1
  · calc x ≤ (1 + u) * y := h.2
      _ ≤ (1 + w) * y := mul_le_mul_of_nonneg_right (by linarith) sign

theorem trans (h : Within u x y) (h' : Within v y z) (sign : 0 ≤ z) (small : |u| ≤ 1)
    (low : 1 - w ≤ (1 - u) * (1 - v)) (high : (1 + u) * (1 + v) ≤ 1 + w) : Within w x z := by
  obtain ⟨above, below⟩ := abs_le.1 small
  constructor
  · calc (1 - w) * z ≤ (1 - u) * (1 - v) * z := mul_le_mul_of_nonneg_right low sign
      _ = (1 - u) * ((1 - v) * z) := mul_assoc ..
      _ ≤ (1 - u) * y := mul_le_mul_of_nonneg_left h'.1 (by linarith)
      _ ≤ x := h.1
  · calc x ≤ (1 + u) * y := h.2
      _ ≤ (1 + u) * ((1 + v) * z) := mul_le_mul_of_nonneg_left h'.2 (by linarith)
      _ = (1 + u) * (1 + v) * z := (mul_assoc ..).symm
      _ ≤ (1 + w) * z := mul_le_mul_of_nonneg_right high sign

theorem scale (h : Within u x y) (sign : 0 ≤ z) : Within u (x * z) (y * z) := by
  rw [Within, ← mul_assoc, ← mul_assoc]
  exact ⟨mul_le_mul_of_nonneg_right h.1 sign, mul_le_mul_of_nonneg_right h.2 sign⟩

theorem mul (h : Within u x y) (h' : Within v x' y') (sign : 0 ≤ y) (sign' : 0 ≤ y')
    (small : |u| ≤ 1) (small' : |v| ≤ 1) (low : 1 - w ≤ (1 - u) * (1 - v))
    (high : (1 + u) * (1 + v) ≤ 1 + w) : Within w (x * x') (y * y') := by
  obtain ⟨above, below⟩ := abs_le.1 small
  obtain ⟨above', below'⟩ := abs_le.1 small'
  have first : 0 ≤ (1 - v) * y' := mul_nonneg (by linarith) sign'
  have positive : 0 ≤ x := (mul_nonneg (by linarith) sign).trans h.1
  constructor
  · calc (1 - w) * (y * y') ≤ (1 - u) * (1 - v) * (y * y') :=
          mul_le_mul_of_nonneg_right low (mul_nonneg sign sign')
      _ = (1 - u) * y * ((1 - v) * y') := by ring
      _ ≤ x * x' := mul_le_mul h.1 h'.1 first positive
  · calc x * x' ≤ (1 + u) * y * ((1 + v) * y') :=
          mul_le_mul h.2 h'.2 (first.trans h'.1) (mul_nonneg (by linarith) sign)
      _ = (1 + u) * (1 + v) * (y * y') := by ring
      _ ≤ (1 + w) * (y * y') := mul_le_mul_of_nonneg_right high (mul_nonneg sign sign')

theorem div (h : Within u x y) (h' : Within v x' y') (sign : 0 ≤ y) (sign' : 0 < y')
    (small : v < 1) (part : |w| ≤ 1) (low : (1 - w) * (1 + v) ≤ 1 - u)
    (high : 1 + u ≤ (1 + w) * (1 - v)) : Within w (x / x') (y / y') := by
  obtain ⟨above, below⟩ := abs_le.1 part
  have positive : 0 < x' := (mul_pos (by linarith) sign').trans_le h'.1
  have quotient : 0 ≤ y / y' := div_nonneg sign sign'.le
  have cancel : y / y' * y' = y := div_mul_cancel₀ y sign'.ne'
  constructor
  · rw [le_div_iff₀ positive]
    calc (1 - w) * (y / y') * x' ≤ (1 - w) * (y / y') * ((1 + v) * y') :=
          mul_le_mul_of_nonneg_left h'.2 (mul_nonneg (by linarith) quotient)
      _ = (1 - w) * (1 + v) * (y / y' * y') := by ring
      _ = (1 - w) * (1 + v) * y := by rw [cancel]
      _ ≤ (1 - u) * y := mul_le_mul_of_nonneg_right low sign
      _ ≤ x := h.1
  · rw [div_le_iff₀ positive]
    calc x ≤ (1 + u) * y := h.2
      _ ≤ (1 + w) * (1 - v) * y := mul_le_mul_of_nonneg_right high sign
      _ = (1 + w) * (y / y') * ((1 - v) * y') := by rw [← cancel]; field_simp
      _ ≤ (1 + w) * (y / y') * x' :=
          mul_le_mul_of_nonneg_left h'.1 (mul_nonneg (by linarith) quotient)

end Within

/-! ## One rounding -/

section Rounding

variable {num den a b n : Nat}

theorem near_nearestRank (positive : 0 < den) (normal : den * 2 ^ 52 ≤ num * unitsOfOne) :
    Within (1 / 2 ^ 53) (size (nearestRank num den)) (num / den) := by
  obtain ⟨k, m, h⟩ := rounds num positive
  have enough := h.enough normal
  have up := h.half
  have down := h.below
  rw [← h.product] at up down
  have one := cast_unitsOfOne_pos
  have below : (0 : ℚ) < den := Nat.cast_pos.2 positive
  have exact : (num / den : ℚ) = (num * unitsOfOne : Nat) / (den * unitsOfOne) := by
    rw [Nat.cast_mul]
    field_simp
  have rounded : size (nearestRank num den)
      = (units (nearestRank num den) * den : Nat) / (den * unitsOfOne) := by
    rw [size, Nat.cast_mul]
    field_simp
  rw [Within, exact, rounded, ← mul_div_assoc, ← mul_div_assoc,
    div_le_div_iff_of_pos_right (mul_pos below one),
    div_le_div_iff_of_pos_right (mul_pos below one)]
  generalize units (nearestRank num den) * den = found, num * unitsOfOne = sought,
    den * 2 ^ k = place at up down enough ⊢
  have up : (2 * found : ℚ) ≤ 2 * sought + place := by exact_mod_cast up
  have down : (2 * sought : ℚ) ≤ 2 * found + place := by exact_mod_cast down
  have enough : (place * 2 ^ 52 : ℚ) ≤ sought := by exact_mod_cast enough
  constructor
  · linarith
  · linarith

/-- Small numbers are spaced too widely for that. -/
theorem normal_of_large (positive : 0 < den) (large : 1 / 2 ≤ size (nearestRank num den)) :
    den * 2 ^ 52 ≤ num * unitsOfOne := by
  obtain ⟨k, m, h⟩ := rounds num positive
  rcases h.first with rfl | enough
  · have half : unitsOfOne ≤ 2 * units (nearestRank num den) := by
      rw [size, div_le_div_iff₀ (by decide) cast_unitsOfOne_pos] at large
      rw [one_mul, mul_comm] at large
      exact_mod_cast large
    have few : 2 * 2 ^ 53 < unitsOfOne := by decide +kernel
    have last := h.last
    rw [h.units] at half
    omega
  · refine Nat.le_trans ?_ enough
    rw [Nat.mul_right_comm]
    exact Nat.le_mul_of_pos_right _ (Nat.two_pow_pos k)

/-- All that counts here of the number of units is that it is a power of two. -/
theorem exists_unitsOfOne : ∃ j, unitsOfOne = 2 ^ j := ⟨1074, rfl⟩

/-- A whole number of fewer than 53 bits is not rounded. -/
theorem size_nearestRank (positive : 0 < den) (small : n < 2 ^ 53) :
    size (nearestRank (n * den) den) = n := by
  obtain ⟨k, m, h⟩ := rounds (n * den) positive
  have units := h.units
  have up := h.half
  have down := h.below
  have first := h.first
  obtain ⟨j, one⟩ := exists_unitsOfOne
  have product : n * den * unitsOfOne = den * (n * 2 ^ j) := by
    rw [one, Nat.mul_comm n, Nat.mul_assoc]
  rw [product] at up down first
  have room : k ≤ j := by
    rcases first with rfl | enough
    · exact Nat.zero_le _
    · rw [Nat.mul_assoc] at enough
      have scaled : 2 ^ k * 2 ^ 52 ≤ n * 2 ^ j := Nat.le_of_mul_le_mul_left enough positive
      have below : n * 2 ^ j < 2 ^ 53 * 2 ^ j :=
        Nat.mul_lt_mul_of_pos_right small (Nat.two_pow_pos j)
      have less := Nat.lt_of_le_of_lt scaled below
      rw [← Nat.pow_add, ← Nat.pow_add] at less
      have powers := (Nat.pow_lt_pow_iff_right (by decide)).1 less
      omega
  -- In the binade the number is a whole number of places too, so it is less than one from it.
  have whole : n * 2 ^ j = 2 ^ k * (n * 2 ^ (j - k)) := by
    rw [Nat.mul_left_comm, ← Nat.pow_add, Nat.add_sub_cancel' room]
  have places : m = n * 2 ^ (j - k) := by
    rw [whole, ← Nat.mul_assoc den] at up down
    have place : 0 < den * 2 ^ k := Nat.mul_pos positive (Nat.two_pow_pos k)
    generalize den * 2 ^ k = width, n * 2 ^ (j - k) = sought at up down place ⊢
    have high : 2 * m ≤ 2 * sought + 1 := by
      refine Nat.le_of_mul_le_mul_left ?_ place
      linarith
    have low : 2 * sought ≤ 2 * m + 1 := by
      refine Nat.le_of_mul_le_mul_left ?_ place
      linarith
    omega
  rw [size_eq_natCast, units, places, one, whole, Nat.mul_comm]

theorem units_rankOfNat (small : n < 2 ^ 53) : units (rankOfNat n) = n * unitsOfOne := by
  have exact := size_nearestRank Nat.one_pos small
  rw [Nat.mul_one] at exact
  exact size_eq_natCast.1 exact

theorem unitsOfOne_le_units (positive : 0 < n) : unitsOfOne ≤ units (rankOfNat n) := by
  have one : units (rankOfNat 1) = 1 * unitsOfOne := units_rankOfNat (by decide)
  rw [← Nat.one_mul unitsOfOne, ← one]
  exact units_strictMono.monotone (nearestRank_mono Nat.one_pos positive)

theorem one_le_size (positive : 0 < n) : 1 ≤ size (rankOfNat n) := by
  rw [size, le_div_iff₀ cast_unitsOfOne_pos, one_mul, Nat.cast_le]
  exact unitsOfOne_le_units positive

theorem near_rankOfNat (positive : 0 < n) : Within (1 / 2 ^ 53) (size (rankOfNat n)) n := by
  have large : 1 / 2 ≤ size (rankOfNat n) := by
    have one := one_le_size positive
    linarith
  have near := near_nearestRank Nat.one_pos (normal_of_large Nat.one_pos large)
  rwa [Nat.cast_one, div_one] at near

theorem near_mulRank (large : 1 / 2 ≤ size (mulRank a b)) :
    Within (1 / 2 ^ 53) (size (mulRank a b)) (size a * size b) := by
  have positive : 0 < unitsOfOne * unitsOfOne := Nat.mul_pos unitsOfOne_pos unitsOfOne_pos
  have near := near_nearestRank positive (normal_of_large positive large)
  rwa [Nat.cast_mul, Nat.cast_mul, ← div_mul_div_comm] at near

theorem near_divRank (positive : 0 < units b) (large : 1 / 2 ≤ size (divRank a b)) :
    Within (1 / 2 ^ 53) (size (divRank a b)) (size a / size b) := by
  have near := near_nearestRank positive (normal_of_large positive large)
  have same : (units a / units b : ℚ) = size a / size b :=
    (div_div_div_cancel_right₀ cast_unitsOfOne_pos.ne' _ _).symm
  rwa [same] at near

/-- A product of numbers that are held exactly is not rounded if it has fewer than 53 bits. -/
theorem size_mulRank {s p : Nat} (first : units a = s * unitsOfOne) (second : units b = p * unitsOfOne)
    (small : s * p < 2 ^ 53) : size (mulRank a b) = (s * p : Nat) := by
  rw [mulRank, first, second, Nat.mul_mul_mul_comm,
    size_nearestRank (Nat.mul_pos unitsOfOne_pos unitsOfOne_pos) small]

/-- Nor is a quotient, unless it is a fraction. -/
theorem divRank_whole {s p m : Nat} (first : units a = s * unitsOfOne)
    (second : units b = p * unitsOfOne) (small : s < 2 ^ 53) (positive : 0 < p)
    (whole : size (divRank a b) = m) (some : 0 < m) : m * p = s := by
  have one : (1 : ℚ) ≤ m := by exact_mod_cast some
  have divisor : 0 < units b := second ▸ Nat.mul_pos positive unitsOfOne_pos
  obtain ⟨low, high⟩ := near_divRank divisor (by rw [whole]; linarith : 1 / 2 ≤ size (divRank a b))
  have below : (0 : ℚ) < p := Nat.cast_pos.2 positive
  have bound : (s : ℚ) < 2 ^ 53 := by exact_mod_cast small
  rw [size_eq_natCast.2 first, size_eq_natCast.2 second, whole, ← mul_div_assoc] at low high
  rw [div_le_iff₀ below] at low
  rw [le_div_iff₀ below] at high
  have above : (s : ℚ) < m * p + 1 := by linarith
  have under : (m * p : ℚ) < s + 1 := by linarith
  have above : s < m * p + 1 := by exact_mod_cast above
  have under : m * p < s + 1 := by exact_mod_cast under
  omega

end Rounding

/-! ## Three roundings -/

section Scaling

variable {s n rank : Nat} {e : Int}

theorem tenPower_pos (n : Nat) : 0 < Nat.pow 10 n := Nat.pow_pos (by decide)

theorem units_tenPower_pos (n : Nat) : 0 < units (rankOfNat (Nat.pow 10 n)) :=
  Nat.lt_of_lt_of_le unitsOfOne_pos (unitsOfOne_le_units (tenPower_pos n))

theorem near_tenPower (n : Nat) : Within (1 / 2 ^ 53) (size (rankOfNat (Nat.pow 10 n))) (10 ^ n) := by
  have near := near_rankOfNat (tenPower_pos n)
  have power : ((Nat.pow 10 n : Nat) : ℚ) = 10 ^ n := by
    rw [Nat.pow_eq, Nat.cast_pow, Nat.cast_ofNat]
  rwa [power] at near

/-- The factors are rounded each by itself. -/
theorem near_factors (positive : 0 < s) (n : Nat) :
    Within (9 / 2 ^ 55) (size (rankOfNat s) * size (rankOfNat (Nat.pow 10 n))) (s * 10 ^ n) :=
  (near_rankOfNat positive).mul (near_tenPower n) (by positivity) (by positivity)
    (by norm_num [abs_of_pos]) (by norm_num [abs_of_pos]) (by norm_num) (by norm_num)

theorem near_quotient (positive : 0 < s) (n : Nat) :
    Within (9 / 2 ^ 55) (size (rankOfNat s) / size (rankOfNat (Nat.pow 10 n))) (s / 10 ^ n) :=
  (near_rankOfNat positive).div (near_tenPower n) (by positivity) (by positivity) (by norm_num)
    (by norm_num [abs_of_pos]) (by norm_num) (by norm_num)

/-- So small a power of ten is not rounded. -/
theorem units_tenPower : ∀ n < 23, units (rankOfNat (Nat.pow 10 n)) = 10 ^ n * unitsOfOne := by
  decide +kernel

theorem tenPower_large (h : 70 ≤ n) : 2 ^ 70 ≤ size (rankOfNat (Nat.pow 10 n)) := by
  have near := (near_tenPower n).1
  have grown : (10 : ℚ) ^ 70 ≤ 10 ^ n := pow_le_pow_right₀ (by norm_num) h
  have large : 2 * 2 ^ 70 ≤ (10 : ℚ) ^ 70 := by norm_num
  linarith

/-- A quotient that is well below a bound is rounded to less than the bound. -/
theorem size_divRank_lt {a b : Nat} {bound : ℚ} (positive : 0 < units b) (room : 1 / 2 ≤ bound)
    (small : 4 * size a ≤ 3 * bound * size b) : size (divRank a b) < bound := by
  by_contra large
  have large := not_lt.1 large
  have near := (near_divRank positive (room.trans large)).2
  have divisor : 0 < size b := div_pos (Nat.cast_pos.2 positive) cast_unitsOfOne_pos
  have quotient : size a / size b ≤ 3 / 4 * bound := by
    rw [div_le_iff₀ divisor]
    linarith
  linarith

theorem size_lowered_lt (many : 308 < n) (bounded : size rank ≤ 2 ^ 65) :
    size (lowered rank n) < 1 := by
  -- Each division by `10 ^ 308` leaves less than a half, so the bound holds for the next one again.
  induction n using Nat.strongRecOn generalizing rank with
  | ind n ih =>
    rw [lowered, if_neg (by omega)]
    split_ifs with zero
    · rw [size_zero]
      exact zero_lt_one
    · have half : size (divRank rank (rankOfNat (Nat.pow 10 308))) < 1 / 2 := by
        refine size_divRank_lt (units_tenPower_pos 308) le_rfl ?_
        have large : 2 ^ 70 ≤ size (rankOfNat (Nat.pow 10 308)) := tenPower_large (by decide)
        linarith
      by_cases more : 308 < n - 308
      · exact ih (n - 308) (by omega) more (by linarith)
      · rw [lowered, if_pos (by omega)]
        refine size_divRank_lt (units_tenPower_pos _) (by norm_num) ?_
        have one := one_le_size (tenPower_pos (n - 308))
        linarith

theorem size_rankOfNat_le (positive : 0 < s) (fits : s < 2 ^ 64) : size (rankOfNat s) ≤ 2 ^ 65 := by
  have near := (near_rankOfNat positive).2
  have bound : (s : ℚ) < 2 ^ 64 := by exact_mod_cast fits
  linarith

/-- The ways in which a significand is scaled. -/
inductive Scales (s : Nat) : Int → Nat → Prop where
  | raised (n : Nat) : Scales s n (mulRank (rankOfNat s) (rankOfNat (Nat.pow 10 n)))
  | lowered (n : Nat) (some : 0 < n) (few : n ≤ 308) :
    Scales s (-n) (divRank (rankOfNat s) (rankOfNat (Nat.pow 10 n)))
  | zero (e : Int) (none : s = 0) : Scales s e 0
  | faint (n : Nat) (many : 308 < n) : Scales s (-n) (Binary64.lowered (rankOfNat s) n)

theorem nearestRank_zero (den : Nat) : nearestRank 0 den = 0 := by
  simp [nearestRank, nearestEven]

theorem rankOfNat_zero : rankOfNat 0 = 0 := nearestRank_zero 1

theorem scales (h : scaledRank? s e = some rank) : Scales s e rank := by
  cases e with
  | ofNat n =>
    rw [scaledRank?] at h
    dsimp only at h
    split_ifs at h with few finite zero
    · obtain rfl := Option.some.inj h
      exact .raised n
    · obtain rfl := Option.some.inj h
      exact .zero _ zero
  | negSucc n =>
    obtain rfl := Option.some.inj h
    by_cases few : n + 1 ≤ 308
    · rw [lowered, if_pos few]
      exact .lowered (n + 1) n.succ_pos few
    · exact .faint (n + 1) (Nat.lt_of_not_le few)

/-- The quotient of the digits by a power of ten that is in reach. -/
theorem scaledRank?_lowered (power : e = .negSucc n) (few : n + 1 ≤ 308) :
    scaledRank? s e = some (divRank (rankOfNat s) (rankOfNat (Nat.pow 10 (n + 1)))) := by
  rw [power, scaledRank?, lowered, if_pos few]

theorem Scales.eq_zero (h : Scales 0 e rank) : rank = 0 := by
  cases h with
  | raised n =>
    rw [mulRank, rankOfNat_zero, show units 0 = 0 from rfl, Nat.zero_mul, nearestRank_zero]
  | lowered n _ few => rw [divRank, rankOfNat_zero, show units 0 = 0 from rfl, nearestRank_zero]
  | zero => rfl
  | faint n many => rw [Binary64.lowered, if_neg (by omega), if_pos rankOfNat_zero]

theorem Scales.positive (h : Scales s e rank) (large : 1 ≤ size rank) : 0 < s := by
  by_contra none
  obtain rfl : s = 0 := by omega
  rw [h.eq_zero, size_zero] at large
  linarith

/-- Only a decimal that is far too small is read as zero. -/
theorem Scales.none (h : Scales s e 0) : s = 0 ∨ e < -308 := by
  rcases Nat.eq_zero_or_pos s with zero | positive
  · exact .inl zero
  have first : unitsOfOne ≤ units (rankOfNat s) := unitsOfOne_le_units positive
  generalize same : 0 = rank at h
  cases h with
  | raised n =>
    have second : unitsOfOne ≤ units (rankOfNat (Nat.pow 10 n)) :=
      unitsOfOne_le_units (tenPower_pos n)
    have product : 0 < mulRank (rankOfNat s) (rankOfNat (Nat.pow 10 n)) := by
      refine nearestRank_pos (Nat.mul_pos unitsOfOne_pos unitsOfOne_pos) ?_
      calc unitsOfOne * unitsOfOne
          ≤ units (rankOfNat s) * units (rankOfNat (Nat.pow 10 n)) := Nat.mul_le_mul first second
        _ ≤ _ := Nat.le_mul_of_pos_right _ unitsOfOne_pos
    omega
  | lowered n _ few =>
    have quotient : 0 < divRank (rankOfNat s) (rankOfNat (Nat.pow 10 n)) := by
      have divisor : units (rankOfNat (Nat.pow 10 308)) ≤ unitsOfOne * unitsOfOne := by
        decide +kernel
      refine nearestRank_pos (units_tenPower_pos n) ?_
      calc units (rankOfNat (Nat.pow 10 n))
          ≤ units (rankOfNat (Nat.pow 10 308)) :=
            units_strictMono.monotone
              (nearestRank_mono Nat.one_pos (Nat.pow_le_pow_right (by decide) few))
        _ ≤ unitsOfOne * unitsOfOne := divisor
        _ ≤ units (rankOfNat s) * unitsOfOne := Nat.mul_le_mul_right _ first
    omega
  | zero _ none => exact .inl none
  | faint n many => exact .inr (by omega)

theorem Scales.near (h : Scales s e rank) (fits : s < 2 ^ 64) (large : 1 ≤ size rank) :
    Within (7 / 2 ^ 54) (size rank) (s * 10 ^ e) := by
  have half : 1 / 2 ≤ size rank := by linarith
  have positive := h.positive large
  cases h with
  | raised n =>
    rw [zpow_natCast]
    exact (near_mulRank half).trans (near_factors positive n) (by positivity)
      (by norm_num [abs_of_pos]) (by norm_num)
      (by norm_num)
  | lowered n _ few =>
    rw [zpow_neg, zpow_natCast, ← div_eq_mul_inv]
    exact (near_divRank (units_tenPower_pos n) half).trans (near_quotient positive n) (by positivity)
      (by norm_num [abs_of_pos]) (by norm_num) (by norm_num)
  | zero _ none => omega
  | faint n many =>
    have small := size_lowered_lt many (size_rankOfNat_le positive fits)
    linarith

/-- Where the digits have fewer than 53 bits, and so has the decimal, a whole number is exact. -/
theorem Scales.exact (h : Scales s e rank) (short : s < 2 ^ 53) (small : s * 10 ^ e < (2 : ℚ) ^ 53)
    {m : Nat} (whole : size rank = m) (some : 0 < m) : (m : ℚ) = s * 10 ^ e := by
  have large : 1 ≤ size rank := by
    rw [whole]
    exact_mod_cast some
  have near := h.near (by omega) large
  have positive := h.positive large
  cases h with
  | raised n =>
    rw [zpow_natCast] at small ⊢
    have product : s * 10 ^ n < 2 ^ 53 := by exact_mod_cast small
    have power : 10 ^ n < 2 ^ 53 := Nat.lt_of_le_of_lt (Nat.le_mul_of_pos_left _ positive) product
    rw [Nat.pow_eq, size_mulRank (units_rankOfNat short) (units_rankOfNat power) product] at whole
    rw [← whole, Nat.cast_mul, Nat.cast_pow, Nat.cast_ofNat]
  | lowered n _ few =>
    have power : (0 : ℚ) < 10 ^ n := by positivity
    have bound : (s : ℚ) < 2 ^ 53 := by exact_mod_cast short
    rcases Nat.lt_or_ge n 23 with inside | beyond
    · have product : m * 10 ^ n = s :=
        divRank_whole (units_rankOfNat short) (units_tenPower n inside) short
          (Nat.pow_pos (by decide)) whole
          some
      rw [zpow_neg, zpow_natCast, ← div_eq_mul_inv, eq_div_iff power.ne']
      exact_mod_cast product
    · have high := large.trans near.2
      have grown : (10 : ℚ) ^ 23 ≤ 10 ^ n := pow_le_pow_right₀ (by norm_num) beyond
      rw [zpow_neg, zpow_natCast, ← div_eq_mul_inv, ← mul_div_assoc, le_div_iff₀ power] at high
      linarith
  | zero _ none => omega
  | faint n many =>
    have tiny := size_lowered_lt many (size_rankOfNat_le positive (by omega))
    linarith

theorem mulRank_mono {a a' b b' : Nat} (first : a ≤ a') (second : b ≤ b') :
    mulRank a b ≤ mulRank a' b' := by
  refine nearestRank_mono (Nat.mul_pos unitsOfOne_pos unitsOfOne_pos) ?_
  exact Nat.mul_le_mul (units_strictMono.monotone first) (units_strictMono.monotone second)

/-- What is at least `2 ^ 63` is not rounded to less. -/
theorem Scales.high (h : Scales s e rank) (fits : s < 2 ^ 64) (large : (2 : ℚ) ^ 63 ≤ s * 10 ^ e) :
    2 ^ 63 ≤ size rank := by
  have bound : (s : ℚ) < 2 ^ 64 := by exact_mod_cast fits
  have below {n : Nat} (some : 0 < n) : ¬ (2 : ℚ) ^ 63 ≤ s * 10 ^ (-n : Int) := by
    have ten : (10 : ℚ) ^ 1 ≤ 10 ^ n := pow_le_pow_right₀ (by norm_num) some
    rw [zpow_neg, zpow_natCast, ← div_eq_mul_inv, le_div_iff₀ (by positivity)]
    linarith
  cases h with
  | raised n =>
    rw [zpow_natCast] at large
    have product : 2 ^ 63 ≤ s * 10 ^ n := by exact_mod_cast large
    -- The least significands that reach the bound with a power of ten are looked at one by one.
    have least : ∀ k < 20, 2 ^ 63 * unitsOfOne ≤ units (mulRank
        (rankOfNat ((2 ^ 63 - 1) / 10 ^ k + 1)) (rankOfNat (Nat.pow 10 k))) := by
      decide +kernel
    obtain ⟨k, few, less, enough⟩ : ∃ k < 20, k ≤ n ∧ (2 ^ 63 - 1) / 10 ^ k < s := by
      rcases Nat.lt_or_ge n 20 with inside | beyond
      · refine ⟨n, inside, le_rfl, ?_⟩
        rw [Nat.div_lt_iff_lt_mul (Nat.pow_pos (by decide))]
        omega
      · refine ⟨19, by decide, by omega, Nat.pos_of_ne_zero ?_⟩
        rintro rfl
        omega
    have grown := mulRank_mono (nearestRank_mono Nat.one_pos enough)
      (nearestRank_mono Nat.one_pos (Nat.pow_le_pow_right (show 10 > 0 by decide) less))
    have all := (least k few).trans (units_strictMono.monotone grown)
    rw [size, le_div_iff₀ cast_unitsOfOne_pos]
    exact_mod_cast all
  | lowered n some few => exact absurd large (below some)
  | zero _ none =>
    rw [none, Nat.cast_zero, zero_mul] at large
    norm_num at large
  | faint n many => exact absurd large (below (by omega))

end Scaling

/-! ## Digits that find no room -/

/-- The decimal `q` is `s * 10 ^ e`, or the two agree in as many digits as 64 bits have room
    for. -/
inductive Retains (s : Nat) (e : Int) (q : ℚ) : Prop where
  | all (exact : q = s * 10 ^ e)
  | first (p : Nat) (k : Int) (full : 2 ^ 64 ≤ 10 * p + 9) (fits : p < 2 ^ 64)
    (kept : p * (10 : ℚ) ^ k ≤ s * 10 ^ e ∧ s * (10 : ℚ) ^ e < (p + 1) * 10 ^ k)
    (cut : p * 10 ^ k ≤ q ∧ q < (p + 1) * 10 ^ k)

section Retaining

variable {s rank : Nat} {e : Int} {q : ℚ}

theorem Retains.nonneg (h : Retains s e q) : 0 ≤ q := by
  cases h with
  | all exact =>
    rw [exact]
    positivity
  | first p k full fits kept cut => exact le_trans (by positivity) cut.1

theorem Retains.within (h : Retains s e q) : Within (1 / 2 ^ 60) (s * 10 ^ e) q := by
  cases h with
  | all exact =>
    have sign : (0 : ℚ) ≤ s * 10 ^ e := by positivity
    subst exact
    constructor <;> linarith
  | first p k full fits kept cut =>
    have many : (2 ^ 60 : ℚ) ≤ p := by
      have many : 2 ^ 60 ≤ p := by omega
      exact_mod_cast many
    have power : (0 : ℚ) < 10 ^ k := by positivity
    have step : 2 ^ 60 * (10 : ℚ) ^ k ≤ p * 10 ^ k := mul_le_mul_of_nonneg_right many power.le
    constructor <;> linarith

theorem Retains.high (h : Retains s e q) (large : 2 ^ 63 ≤ q) : (2 : ℚ) ^ 63 ≤ s * 10 ^ e := by
  cases h with
  | all exact => rwa [← exact]
  | first p k full fits kept cut =>
    rcases Int.lt_trichotomy k 0 with below | rfl | above
    · have bound : (p + 1 : ℚ) ≤ 2 ^ 64 := by exact_mod_cast fits
      have tenth : (10 : ℚ) ^ k ≤ 10 ^ (-1 : Int) :=
        zpow_le_zpow_right₀ (by norm_num) (by omega)
      have product : (p + 1) * (10 : ℚ) ^ k ≤ 2 ^ 64 * 10 ^ (-1 : Int) :=
        mul_le_mul bound tenth (by positivity) (by positivity)
      norm_num at product
      linarith
    · rw [zpow_zero, mul_one, mul_one] at kept cut
      have reached : 2 ^ 63 < p + 1 := by exact_mod_cast large.trans_lt cut.2
      have whole : (2 ^ 63 : ℚ) ≤ p := by exact_mod_cast Nat.lt_succ_iff.1 reached
      linarith
    · have ten : (10 : ℚ) ^ (1 : Int) ≤ 10 ^ k := zpow_le_zpow_right₀ (by norm_num) (by omega)
      have product : p * (10 : ℚ) ^ (1 : Int) ≤ p * 10 ^ k :=
        mul_le_mul_of_nonneg_left ten (by positivity)
      have many : (2 ^ 64 : ℚ) ≤ 10 * p + 9 := by exact_mod_cast full
      rw [zpow_one] at product
      linarith

/-- What is known of a decimal from the magnitude that it is read as. -/
structure ReadAs (q : ℚ) (rank : Nat) : Prop where
  zero : rank = 0 → q < 10 ^ (-289 : Int)
  near : 1 ≤ size rank → Within (1 / 2 ^ 51) (size rank) q
  high : 2 ^ 63 ≤ q → 2 ^ 63 ≤ size rank

theorem Scales.readAs (h : Scales s e rank) (fits : s < 2 ^ 64) (retains : Retains s e q) :
    ReadAs q rank where
  zero := by
    rintro rfl
    have near := retains.within
    have tiny : (0 : ℚ) < 10 ^ (-289 : Int) := by positivity
    rcases h.none with rfl | small
    · have least := near.1
      rw [Nat.cast_zero, zero_mul] at least
      linarith
    · have bound : (s : ℚ) ≤ 2 ^ 64 := by exact_mod_cast fits.le
      have power : (10 : ℚ) ^ e ≤ 10 ^ (-289 + -20 : Int) :=
        zpow_le_zpow_right₀ (by norm_num) (by omega)
      have product : s * (10 : ℚ) ^ e ≤ 2 ^ 64 * 10 ^ (-289 + -20 : Int) :=
        mul_le_mul bound power (by positivity) (by positivity)
      have least := near.1
      rw [zpow_add₀ (by norm_num)] at product
      have twenty : (10 : ℚ) ^ (-20 : Int) = 1 / 10 ^ 20 := by norm_num
      rw [twenty] at product
      linarith
  near := by
    intro large
    exact (h.near fits large).trans retains.within retains.nonneg (by norm_num [abs_of_pos])
      (by norm_num) (by norm_num)
  high := by
    intro large
    exact h.high fits (retains.high large)

theorem readAs_rankOfNat (n : Nat) : ReadAs n (rankOfNat n) where
  zero := by
    intro none
    rcases Nat.eq_zero_or_pos n with rfl | positive
    · rw [Nat.cast_zero]
      positivity
    · have one := one_le_size positive
      rw [none, size_zero] at one
      linarith
  near := by
    intro large
    rcases Nat.eq_zero_or_pos n with rfl | positive
    · rw [rankOfNat_zero, size_zero] at large
      linarith
    · exact (near_rankOfNat positive).mono (by positivity) (by norm_num)
  high := by
    intro large
    have least : 2 ^ 63 * unitsOfOne ≤ units (rankOfNat (2 ^ 63)) := by decide +kernel
    have enough : 2 ^ 63 ≤ n := by exact_mod_cast large
    have all := least.trans (units_strictMono.monotone (nearestRank_mono Nat.one_pos enough))
    rw [size, le_div_iff₀ cast_unitsOfOne_pos]
    exact_mod_cast all

end Retaining

end LayeredPreferences.Binary64

import LayeredPreferences.Proofs.Number.Return

set_option autoImplicit false

/-!
# How far a decimal is read from its rank

The significand and the power of ten are rounded before their product or quotient is. What is
rounded last is so near to the decimal that the rank is missed by a few places at most.
-/
namespace LayeredPreferences.Binary64

variable {s n rank found : Nat} {e : Int} {p q : ℚ}

/-! ## From nearness to places -/

/-- Either number is the other up to a small part of it and a tenth of the least magnitude. -/
structure Close (p q : ℚ) : Prop where
  above : p ≤ (1 + 19 / 2 ^ 55) * q + size 1 / 10
  below : q ≤ (1 + 19 / 2 ^ 55) * p + size 1 / 10

theorem Close.symm (h : Close p q) : Close q p := ⟨h.below, h.above⟩

/-- The part is less than five steps where the number is. -/
theorem Close.places_le (h : Close p q) (exact : Rounded q rank) (final : Rounded p found) :
    found ≤ rank + 5 := by
  by_contra beyond
  have first : size (rank + 5) ≤ size (found - 1) := size_strictMono.monotone (by omega)
  have second : size (rank + 1 + 5) ≤ size found := size_strictMono.monotone (by omega)
  have far := steps_le (Nat.le_refl rank) 5
  have far' := steps_le (Nat.le_add_right rank 1) 5
  have bound := size_le_step rank
  have least : size 1 ≤ step rank := by
    have steps : step 0 ≤ step rank := step_mono (Nat.zero_le rank)
    rwa [step, size_zero, sub_zero] at steps
  have some : 0 < size 1 := by
    rw [← size_zero]
    exact size_strictMono Nat.one_pos
  have low := final.low
  have high := exact.high
  have before : size rank ≤ size (rank + 1) := size_strictMono.monotone (Nat.le_succ rank)
  have above := h.above
  push_cast at far far'
  linarith

theorem Within.close {part : ℚ} (h : Within part p q) (sign : 0 ≤ q) (small : part ≤ 9 / 2 ^ 55) :
    Close p q := by
  obtain ⟨low, high⟩ := h.mono sign small
  have least := size_nonneg 1
  constructor <;> linarith

/-! ## What is rounded last -/

theorem rounded_mulRank (a b : Nat) : Rounded (size a * size b) (mulRank a b) := by
  have h := rounded_nearestRank (units a * units b)
    (Nat.mul_pos unitsOfOne_pos unitsOfOne_pos)
  rwa [Nat.cast_mul, Nat.cast_mul, ← div_mul_div_comm] at h

theorem rounded_divRank (a : Nat) {b : Nat} (positive : 0 < units b) :
    Rounded (size a / size b) (divRank a b) := by
  have h := rounded_nearestRank (units a) positive
  rwa [← div_div_div_cancel_right₀ cast_unitsOfOne_pos.ne' (units a : ℚ)] at h

theorem rounded_zero : Rounded 0 0 := by
  have h := rounded_nearestRank 0 Nat.one_pos
  rwa [Nat.cast_zero, zero_div, nearestRank_zero] at h

/-- Wherever the fraction lies, it is missed by a part of it and half the least magnitude at most. -/
theorem near_or_least {num den : Nat} (positive : 0 < den) :
    size (nearestRank num den) ≤ (1 + 1 / 2 ^ 53) * (num / den) + size 1 / 2 ∧
      (1 - 1 / 2 ^ 53) * (num / den) ≤ size (nearestRank num den) + size 1 / 2 := by
  obtain ⟨k, m, h⟩ := rounds num positive
  have up := h.half
  have down := h.below
  have first := h.first
  rw [← h.product] at up down
  have one := cast_unitsOfOne_pos
  have below : (0 : ℚ) < den := Nat.cast_pos.2 positive
  have exact : (num / den : ℚ) = (num * unitsOfOne : Nat) / (den * unitsOfOne) := by
    rw [Nat.cast_mul]
    field_simp
  have rounded : size (nearestRank num den)
      = (units (nearestRank num den) * den : Nat) / (den * unitsOfOne) := by
    rw [size, Nat.cast_mul]
    field_simp
  have least : size 1 = (den : Nat) / (den * unitsOfOne) := by
    have one : units 1 = 1 := rfl
    rw [size, one]
    field_simp
    exact Nat.cast_one
  rw [exact, rounded, least]
  have place : den * 2 ^ k * 2 ^ 52 ≤ num * unitsOfOne + den * 2 ^ 52 := by
    rcases first with rfl | enough
    · rw [Nat.pow_zero, Nat.mul_one]
      exact Nat.le_add_left _ _
    · exact Nat.le_trans enough (Nat.le_add_right _ _)
  generalize units (nearestRank num den) * den = found, num * unitsOfOne = sought,
    den * 2 ^ k = width at up down place ⊢
  have up : (2 * found : ℚ) ≤ 2 * sought + width := by exact_mod_cast up
  have down : (2 * sought : ℚ) ≤ 2 * found + width := by exact_mod_cast down
  have place : (width * 2 ^ 52 : ℚ) ≤ sought + den * 2 ^ 52 := by exact_mod_cast place
  have inverse : (0 : ℚ) ≤ (den * unitsOfOne : ℚ)⁻¹ := inv_nonneg.2 (mul_pos below one).le
  have high : (found : ℚ) ≤ (1 + 1 / 2 ^ 53) * sought + den / 2 := by linarith
  have low : (1 - 1 / 2 ^ 53) * (sought : ℚ) ≤ found + den / 2 := by linarith
  have high := mul_le_mul_of_nonneg_right high inverse
  have low := mul_le_mul_of_nonneg_right low inverse
  simp only [div_eq_mul_inv _ (den * unitsOfOne : ℚ)]
  constructor <;> linarith

theorem near_or_least_divRank (a : Nat) {b : Nat} (positive : 0 < units b) :
    size (divRank a b) ≤ (1 + 1 / 2 ^ 53) * (size a / size b) + size 1 / 2 ∧
      (1 - 1 / 2 ^ 53) * (size a / size b) ≤ size (divRank a b) + size 1 / 2 := by
  have h := @near_or_least (units a) (units b) positive
  rwa [← div_div_div_cancel_right₀ cast_unitsOfOne_pos.ne' (units a : ℚ)] at h

/-- Two divisions make a power of ten that is too small for one. What the first of them misses by is
divided by ten at least. -/
theorem close_lowered (positive : 0 < s) (some : 0 < n) :
    Close (size (divRank (rankOfNat s) (rankOfNat (Nat.pow 10 308)))
      / size (rankOfNat (Nat.pow 10 n))) (s / 10 ^ (308 + n)) := by
  have first := near_or_least_divRank (rankOfNat s) (units_tenPower_pos 308)
  obtain ⟨low, high⟩ := near_quotient positive 308
  obtain ⟨low', high'⟩ := near_tenPower n
  have ten : (10 : ℚ) ^ 1 ≤ 10 ^ n := pow_le_pow_right₀ (by norm_num) some
  have power : (0 : ℚ) < 10 ^ n := by positivity
  have least := size_nonneg 1
  have divisor : 0 < size (rankOfNat (Nat.pow 10 n)) := by linarith
  have size_y := size_nonneg (divRank (rankOfNat s) (rankOfNat (Nat.pow 10 308)))
  have whole : (s : ℚ) / 10 ^ (308 + n) = s / 10 ^ 308 / 10 ^ n := by
    rw [pow_add, div_div]
  rw [whole]
  generalize (s : ℚ) / 10 ^ 308 = sought, size (rankOfNat s) / size (rankOfNat (Nat.pow 10 308)) = x,
    size (divRank (rankOfNat s) (rankOfNat (Nat.pow 10 308))) = y,
    size (rankOfNat (Nat.pow 10 n)) = b, (10 : ℚ) ^ n = t at *
  have sign : 0 ≤ sought := by linarith
  have same : sought / t * t = sought := div_mul_cancel₀ _ power.ne'
  have same' : y / b * b = y := div_mul_cancel₀ _ divisor.ne'
  have quotient : 0 ≤ sought / t := div_nonneg sign power.le
  have quotient' : 0 ≤ y / b := div_nonneg size_y divisor.le
  generalize sought / t = q, y / b = p at *
  constructor
  · have product := mul_le_mul_of_nonneg_left low' quotient
    have room := mul_le_mul_of_nonneg_left (show 9 ≤ b by linarith) least
    refine le_of_mul_le_mul_right ?_ divisor
    linarith
  · have product := mul_le_mul_of_nonneg_left high' quotient'
    have room := mul_le_mul_of_nonneg_left ten least
    refine le_of_mul_le_mul_right ?_ power
    linarith

/-! ## What is read -/

theorem Scales.close (h : Scales s e found) (reach : -616 ≤ e) :
    ∃ p, Rounded p found ∧ Close p (s * 10 ^ e) := by
  rcases Nat.eq_zero_or_pos s with rfl | positive
  · obtain rfl := h.eq_zero
    refine ⟨0, rounded_zero, ?_⟩
    have least := size_nonneg 1
    rw [Nat.cast_zero, zero_mul]
    constructor <;> linarith
  · cases h with
    | raised n =>
      rw [zpow_natCast]
      exact ⟨_, rounded_mulRank _ _, (near_factors positive n).close (by positivity) le_rfl⟩
    | lowered n _ few =>
      rw [zpow_neg, zpow_natCast, ← div_eq_mul_inv]
      exact ⟨_, rounded_divRank _ (units_tenPower_pos n),
        (near_quotient positive n).close (by positivity) le_rfl⟩
    | zero _ none => omega
    | faint n many =>
      obtain ⟨rest, rfl⟩ := Nat.exists_eq_add_of_lt many
      have digits : rankOfNat s ≠ 0 := by
        intro none
        have one := one_le_size positive
        rw [none, size_zero] at one
        linarith
      rw [Binary64.lowered, if_neg (by omega), if_neg digits, Binary64.lowered, if_pos (by omega),
        zpow_neg, zpow_natCast, ← div_eq_mul_inv]
      have remaining : 308 + rest + 1 - 308 = rest + 1 := by omega
      rw [remaining]
      exact ⟨_, rounded_divRank _ (units_tenPower_pos _), close_lowered positive rest.succ_pos⟩

/-- A decimal that is rounded to a rank is read no further than five places from it. -/
theorem Scales.places (h : Scales s e found) (reach : -616 ≤ e) (exact : Rounded (s * 10 ^ e) rank) :
    found ≤ rank + 5 ∧ rank ≤ found + 5 := by
  obtain ⟨p, final, close⟩ := h.close reach
  exact ⟨close.places_le exact final, close.symm.places_le final exact⟩

/-- Where neither the significand nor the power of ten is rounded, the decimal is. -/
theorem Scales.rounded (h : Scales s e found) (short : s < 2 ^ 53) (few : e.natAbs ≤ 22) :
    Rounded (s * 10 ^ e) found := by
  have first : size (rankOfNat s) = s := size_eq_natCast.2 (units_rankOfNat short)
  have second (n : Nat) (few : n < 23) : size (rankOfNat (Nat.pow 10 n)) = 10 ^ n := by
    have power := size_eq_natCast.2 (units_tenPower n few)
    rwa [Nat.cast_pow, Nat.cast_ofNat] at power
  cases h with
  | raised n =>
    rw [zpow_natCast, ← first, ← second n (by omega)]
    exact rounded_mulRank _ _
  | lowered n _ _ =>
    rw [zpow_neg, zpow_natCast, ← div_eq_mul_inv, ← first, ← second n (by omega)]
    exact rounded_divRank _ (units_tenPower_pos n)
  | zero e none =>
    rw [none, Nat.cast_zero, zero_mul]
    exact rounded_zero
  | faint n many => omega

/-- A decimal with few digits that is not far below the least magnitude has its power of ten in
reach. -/
theorem Rounded.reach (h : Rounded (s * 10 ^ e) rank) (fits : s < 2 ^ 64) (positive : 0 < rank) :
    -616 ≤ e := by
  by_contra far
  have low := h.low
  have before := size_nonneg (rank - 1)
  have least : size 1 ≤ size rank := size_strictMono.monotone positive
  have digits : (s : ℚ) < 2 ^ 64 := by exact_mod_cast fits
  have tiny : (10 : ℚ) ^ e ≤ 10 ^ (-616 : Int) := zpow_le_zpow_right₀ (by norm_num) (by omega)
  have product : (s : ℚ) * 10 ^ e ≤ 2 ^ 64 * 10 ^ (-616 : Int) :=
    mul_le_mul digits.le tiny (by positivity) (by positivity)
  have room : 2 * (2 ^ 64 * (10 : ℚ) ^ (-616 : Int)) < size 1 := by
    have one : units 1 = 1 := rfl
    have whole : 2 * 2 ^ 64 * unitsOfOne < 10 ^ 616 := by decide +kernel
    have ten : (10 : ℚ) ^ (-616 : Int) = 1 / 10 ^ 616 := by
      rw [zpow_neg, one_div]
      rfl
    rw [ten, size, one, Nat.cast_one, ← mul_assoc, ← mul_div_assoc, mul_one,
      div_lt_div_iff₀ (by positivity) cast_unitsOfOne_pos, one_mul]
    exact_mod_cast whole
  linarith

end LayeredPreferences.Binary64

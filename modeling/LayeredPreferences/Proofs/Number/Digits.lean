import LayeredPreferences.Number.Digits
import LayeredPreferences.Proofs.Number.Extended

set_option autoImplicit false

/-!
# Digits of magnitudes

The number that the digits are taken from lies between `10 ^ 17` and `10 ^ 19`, and
is within one part in `2 ^ 56` of the magnitude. Its first digits are rounded to the
nearest, a half up.
-/
namespace LayeredPreferences.Digits

open Binary64 (Within)
open Extended (Normal Near tenTo near_tenTo near_times isLess_iff)

variable {bound step e : Int} {steps fuel : Nat} {q low high : ℚ} {x : Extended}

/-! ## Steps -/

theorem tenTo_bounds (n : Int) : (10 : ℚ) ^ n / 2 ≤ (tenTo n).size ∧ (tenTo n).size ≤ 2 * 10 ^ n := by
  obtain ⟨-, low, high⟩ := near_tenTo n
  have positive : (0 : ℚ) < 10 ^ n := by positivity
  constructor <;> linarith

theorem times_bounds (h : x.Normal) (k : Int) : x.size * (10 ^ k / 2) ≤ (x.product (tenTo k)).size ∧
    (x.product (tenTo k)).size ≤ x.size * (2 * 10 ^ k) := by
  obtain ⟨-, low, high⟩ := near_times h k
  have positive : 0 < x.size * 10 ^ k := mul_pos h.size_pos (by positivity)
  constructor <;> linarith

theorem near_lowered (h : Near steps q x e) (few : steps + fuel ≤ 2 ^ 60) :
    Near (steps + fuel) q (lowered bound step x e fuel).1 (lowered bound step x e fuel).2 := by
  induction fuel generalizing steps x e with
  | zero => exact h
  | succ fuel ih =>
    unfold lowered
    split_ifs
    · exact h.mono (by omega)
    · have next := ih (h.step (by omega) (-step)) (by omega)
      rwa [sub_neg_eq_add, Nat.add_right_comm] at next

theorem near_raised (h : Near steps q x e) (few : steps + fuel ≤ 2 ^ 60) :
    Near (steps + fuel) q (raised bound step x e fuel).1 (raised bound step x e fuel).2 := by
  induction fuel generalizing steps x e with
  | zero => exact h
  | succ fuel ih =>
    unfold raised
    split_ifs
    · have next := ih (h.step (by omega) step) (by omega)
      rwa [Nat.add_right_comm] at next
    · exact h.mono (by omega)

/-- With enough steps the number gets below the bound. -/
theorem lowered_lt (h : x.Normal)
    (reach : x.size * (2 * 10 ^ (-step)) ^ fuel < (tenTo bound).size) :
    (lowered bound step x e fuel).1.size < (tenTo bound).size := by
  induction fuel generalizing x e with
  | zero => simpa [lowered] using reach
  | succ fuel ih =>
    unfold lowered
    split_ifs with less
    · exact (isLess_iff h (near_tenTo bound).1).1 less
    · refine ih (near_times h _).1 (lt_of_le_of_lt ?_ reach)
      rw [pow_succ', ← mul_assoc]
      exact mul_le_mul_of_nonneg_right (times_bounds h _).2 (by positivity)

/-- A step is only made from a number that is not below the bound. -/
theorem le_lowered (h : x.Normal) (start : low ≤ x.size)
    (keeps : low ≤ (tenTo bound).size * (10 ^ (-step) / 2)) :
    low ≤ (lowered bound step x e fuel).1.size := by
  induction fuel generalizing x e with
  | zero => exact start
  | succ fuel ih =>
    unfold lowered
    split_ifs with less
    · exact start
    · rw [isLess_iff h (near_tenTo bound).1, not_lt] at less
      refine ih (near_times h _).1 (keeps.trans (le_trans ?_ (times_bounds h _).1))
      exact mul_le_mul_of_nonneg_right less (by positivity)

theorem le_raised (h : x.Normal) (reach : (tenTo bound).size ≤ x.size * (10 ^ step / 2) ^ fuel) :
    (tenTo bound).size ≤ (raised bound step x e fuel).1.size := by
  induction fuel generalizing x e with
  | zero => simpa [raised] using reach
  | succ fuel ih =>
    unfold raised
    split_ifs with less
    · refine ih (near_times h _).1 (reach.trans ?_)
      rw [pow_succ', ← mul_assoc]
      exact mul_le_mul_of_nonneg_right (times_bounds h _).1 (by positivity)
    · rwa [isLess_iff h (near_tenTo bound).1, not_lt] at less

theorem raised_lt (h : x.Normal) (start : x.size < high)
    (keeps : (tenTo bound).size * (2 * 10 ^ step) ≤ high) :
    (raised bound step x e fuel).1.size < high := by
  induction fuel generalizing x e with
  | zero => exact start
  | succ fuel ih =>
    unfold raised
    split_ifs with less
    · rw [isLess_iff h (near_tenTo bound).1] at less
      refine ih (near_times h _).1 (((times_bounds h _).2.trans_lt ?_).trans_le keeps)
      exact mul_lt_mul_of_pos_right less (by positivity)
    · exact start

/-! ## Magnitudes -/

theorem size_tenTo_17 : (tenTo 17).size = 10 ^ 17 := by
  have value : tenTo 17 = ⟨2 ^ 7 * 10 ^ 17, -7⟩ := by decide +kernel
  rw [value, Extended.size]
  norm_num

theorem size_tenTo_19 : (tenTo 19).size = 10 ^ 19 := by
  have value : tenTo 19 = ⟨10 ^ 19, 0⟩ := by decide +kernel
  rw [value, Extended.size]
  norm_num

theorem size_bounds {rank : Nat} (positive : 0 < rank) (finite : rank < Binary64.rankBound) :
    (2 : ℚ) ^ (-1074 : Int) ≤ Binary64.size rank ∧ Binary64.size rank ≤ 2 ^ (1024 : Int) := by
  have least : Binary64.size 1 = 2 ^ (-1074 : Int) := by
    have units : Binary64.units 1 = 1 := rfl
    rw [Binary64.size, units, Extended.cast_unitsOfOne, Nat.cast_one, one_div, ← zpow_natCast,
      ← zpow_neg]
    rfl
  have most : Binary64.size Binary64.rankBound = 2 ^ (1024 : Int) := by
    have units : Binary64.units Binary64.rankBound = 2 ^ 2098 := by decide +kernel
    rw [Binary64.size, units, Extended.cast_unitsOfOne, Nat.cast_pow, Nat.cast_ofNat, ← zpow_natCast,
      ← zpow_natCast, ← zpow_sub₀ two_ne_zero]
    rfl
  exact ⟨least ▸ Binary64.size_strictMono.monotone positive,
    most ▸ Binary64.size_strictMono.monotone finite.le⟩

/-- What is below `10 ^ 19` is raised in three stages. -/
theorem raised_stages (h : Near 1 q x e) (least : (2 : ℚ) ^ (-1075 : Int) ≤ x.size)
    (most : x.size < 10 ^ 19) :
    let a := raised (-97) 100 x e 10
    let b := raised 7 10 a.1 a.2 20
    let c := raised 17 1 b.1 b.2 20
    Near 51 q c.1 c.2 ∧ 10 ^ 17 ≤ c.1.size ∧ c.1.size < 10 ^ 19 := by
  intro a b c
  have first : Near 11 q a.1 a.2 := near_raised h (by norm_num : 1 + 10 ≤ 2 ^ 60)
  have second : Near 31 q b.1 b.2 := near_raised first (by norm_num : 11 + 20 ≤ 2 ^ 60)
  have third : Near 51 q c.1 c.2 := near_raised second (by norm_num : 31 + 20 ≤ 2 ^ 60)
  have hundreds : (tenTo (-97)).size ≤ a.1.size := by
    have factor : (2 : ℚ) ^ (1080 : Int) ≤ (10 ^ (100 : Int) / 2) ^ 10 := by
      have one : (2 : ℚ) ^ 108 ≤ 10 ^ (100 : Int) / 2 := by norm_num
      calc (2 : ℚ) ^ (1080 : Int) = (2 ^ 108) ^ 10 := by rw [← pow_mul]; rfl
        _ ≤ _ := pow_le_pow_left₀ (by positivity) one 10
    refine le_raised h.normal ?_
    calc (tenTo (-97)).size ≤ 2 * 10 ^ (-97 : Int) := (tenTo_bounds _).2
      _ ≤ 2 ^ (5 : Int) := by norm_num
      _ = 2 ^ (-1075 : Int) * 2 ^ (1080 : Int) := by rw [← zpow_add₀ two_ne_zero]; rfl
      _ ≤ _ := mul_le_mul least factor (by positivity) h.normal.size_pos.le
  have tens : (tenTo 7).size ≤ b.1.size := by
    refine le_raised first.normal ?_
    calc (tenTo 7).size ≤ 2 * 10 ^ (7 : Int) := (tenTo_bounds _).2
      _ ≤ 10 ^ (-97 : Int) / 2 * (10 ^ (10 : Int) / 2) ^ 20 := by norm_num
      _ ≤ _ := mul_le_mul_of_nonneg_right ((tenTo_bounds _).1.trans hundreds) (by positivity)
  have ones : (tenTo 17).size ≤ c.1.size := by
    refine le_raised second.normal ?_
    calc (tenTo 17).size = 10 ^ 17 := size_tenTo_17
      _ ≤ 10 ^ (7 : Int) / 2 * (10 ^ (1 : Int) / 2) ^ 20 := by norm_num
      _ ≤ _ := mul_le_mul_of_nonneg_right ((tenTo_bounds _).1.trans tens) (by positivity)
  have stays {bound step : Int} (few : (2 * 10 ^ bound * (2 * 10 ^ step) : ℚ) ≤ 10 ^ 19) :
      (tenTo bound).size * (2 * 10 ^ step) ≤ 10 ^ 19 :=
    (mul_le_mul_of_nonneg_right (tenTo_bounds bound).2 (by positivity)).trans few
  have below : a.1.size < 10 ^ 19 := raised_lt h.normal most (stays (by norm_num))
  have below : b.1.size < 10 ^ 19 := raised_lt first.normal below (stays (by norm_num))
  exact ⟨third, size_tenTo_17 ▸ ones, raised_lt second.normal below (stays (by norm_num))⟩

/-- What is not is lowered in three stages. -/
theorem lowered_stages (h : Near 1 q x e) (least : 10 ^ 19 ≤ x.size)
    (most : x.size ≤ (2 : ℚ) ^ (1025 : Int)) :
    let a := lowered 119 100 x e 10
    let b := lowered 29 10 a.1 a.2 20
    let c := lowered 19 1 b.1 b.2 20
    Near 51 q c.1 c.2 ∧ 10 ^ 17 ≤ c.1.size ∧ c.1.size < 10 ^ 19 := by
  intro a b c
  have first : Near 11 q a.1 a.2 := near_lowered h (by norm_num : 1 + 10 ≤ 2 ^ 60)
  have second : Near 31 q b.1 b.2 := near_lowered first (by norm_num : 11 + 20 ≤ 2 ^ 60)
  have third : Near 51 q c.1 c.2 := near_lowered second (by norm_num : 31 + 20 ≤ 2 ^ 60)
  have hundreds : a.1.size < (tenTo 119).size := by
    have factor : (2 * 10 ^ (-100 : Int) : ℚ) ^ 10 ≤ 2 ^ (-1080 : Int) := by
      have one : (2 * 10 ^ (-100 : Int) : ℚ) ≤ 2 ^ (-108 : Int) := by norm_num
      calc _ ≤ ((2 : ℚ) ^ (-108 : Int)) ^ 10 := pow_le_pow_left₀ (by positivity) one 10
        _ = 2 ^ (-1080 : Int) := by rw [← zpow_natCast, ← zpow_mul]; rfl
    refine lowered_lt h.normal ?_
    calc x.size * (2 * 10 ^ (-100 : Int)) ^ 10 ≤ 2 ^ (1025 : Int) * 2 ^ (-1080 : Int) :=
          mul_le_mul most factor (by positivity) (by positivity)
      _ = 2 ^ (-55 : Int) := by rw [← zpow_add₀ two_ne_zero]; rfl
      _ < 10 ^ (119 : Int) / 2 := by norm_num
      _ ≤ _ := (tenTo_bounds _).1
  have tens : b.1.size < (tenTo 29).size := by
    refine lowered_lt first.normal ?_
    calc a.1.size * (2 * 10 ^ (-10 : Int)) ^ 20 ≤ 2 * 10 ^ (119 : Int) * (2 * 10 ^ (-10 : Int)) ^ 20 :=
          mul_le_mul_of_nonneg_right (hundreds.le.trans (tenTo_bounds _).2) (by positivity)
      _ < 10 ^ (29 : Int) / 2 := by norm_num
      _ ≤ _ := (tenTo_bounds _).1
  have ones : c.1.size < (tenTo 19).size := by
    refine lowered_lt second.normal ?_
    calc b.1.size * (2 * 10 ^ (-1 : Int)) ^ 20 ≤ 2 * 10 ^ (29 : Int) * (2 * 10 ^ (-1 : Int)) ^ 20 :=
          mul_le_mul_of_nonneg_right (tens.le.trans (tenTo_bounds _).2) (by positivity)
      _ < 10 ^ 19 := by norm_num
      _ = _ := size_tenTo_19.symm
  have stays {bound step : Int} (enough : (10 : ℚ) ^ 17 ≤ 10 ^ bound / 2 * (10 ^ (-step) / 2)) :
      10 ^ 17 ≤ (tenTo bound).size * (10 ^ (-step) / 2) :=
    enough.trans (mul_le_mul_of_nonneg_right (tenTo_bounds bound).1 (by positivity))
  have start : 10 ^ 17 ≤ x.size := le_trans (by norm_num) least
  have above : 10 ^ 17 ≤ a.1.size := le_lowered h.normal start (stays (by norm_num))
  have above : 10 ^ 17 ≤ b.1.size := le_lowered first.normal above (stays (by norm_num))
  exact ⟨third, le_lowered second.normal above (stays (by norm_num)), size_tenTo_19 ▸ ones⟩

/-- The number that the digits are taken from has 18 or 19 of them before the point. -/
theorem scaled_near {rank : Nat} (positive : 0 < rank) (finite : rank < Binary64.rankBound) :
    Near 51 (Binary64.size rank) (scaled rank).1 (scaled rank).2 ∧
      10 ^ 17 ≤ (scaled rank).1.size ∧ (scaled rank).1.size < 10 ^ 19 := by
  obtain ⟨normal, near⟩ := Extended.near_ofRank positive
  obtain ⟨least, most⟩ := size_bounds positive finite
  have sign := Binary64.size_nonneg rank
  have start : Near 1 (Binary64.size rank) (.ofRank rank) 0 := by
    refine ⟨normal, ?_⟩
    rw [zpow_zero, mul_one]
    exact near.mono sign (by norm_num)
  obtain ⟨low, high⟩ := near
  unfold scaled
  dsimp only
  split_ifs with less
  · rw [isLess_iff normal (near_tenTo 19).1, size_tenTo_19] at less
    refine raised_stages start (le_trans ?_ low) less
    have half : (2 : ℚ) ^ (-1075 : Int) = 2 ^ (-1074 : Int) * 2⁻¹ := by
      rw [← zpow_sub_one₀ two_ne_zero]
      rfl
    rw [half]
    linarith
  · rw [isLess_iff normal (near_tenTo 19).1, size_tenTo_19, not_lt] at less
    refine lowered_stages start less (high.trans ?_)
    have twice : (2 : ℚ) ^ (1025 : Int) = 2 ^ (1024 : Int) * 2 :=
      zpow_add_one₀ (by norm_num : (2 : ℚ) ≠ 0) 1024
    rw [twice]
    generalize (2 : ℚ) ^ (1024 : Int) = bound at most ⊢
    linarith

/-! ## Rounding to digits -/

/-- What the digits stand for. -/
def value (d : Digits) : ℚ := Nat.ofDigitChars 10 d.digits 0 * 10 ^ (d.point - d.digits.length)

theorem value_toDigits (n : Nat) (point : Int) :
    value ⟨Nat.toDigits 10 n, point⟩ = n * 10 ^ (point - (Nat.toDigits 10 n).length) := by
  rw [value, Nat.ofDigitChars_ten_toDigits]

theorem value_stripped (d : Digits) :
    value ⟨(d.digits.reverse.dropWhile (· == '0')).reverse, d.point⟩ = d.value := by
  obtain ⟨zeros, all⟩ := Binary64.exists_zeros d.digits
  generalize (d.digits.reverse.dropWhile (· == '0')).reverse = kept at *
  rw [value, value, all, Nat.ofDigitChars_append, Nat.ofDigitChars_replicate_zero, List.length_append,
    List.length_replicate]
  have places : (d.point - kept.length : Int) = d.point - (kept.length + zeros : Nat) + zeros := by
    push_cast
    ring
  rw [places, zpow_add₀ (by norm_num), zpow_natCast]
  push_cast
  ring

variable {n length count : Nat} {point : Int}

/-- Whether the next digit is a five at least tells on which side of the half the rest is. -/
theorem next_digit (n k : Nat) :
    5 ≤ n / (10 ^ (k + 1) / 10) % 10 ↔ 10 ^ (k + 1) ≤ 2 * (n % 10 ^ (k + 1)) := by
  have unit : 10 ^ (k + 1) / 10 = 10 ^ k := by rw [Nat.pow_succ, Nat.mul_div_cancel _ (by decide)]
  rw [unit, ← Nat.mod_mul_right_div_self, ← Nat.pow_succ, Nat.succ_eq_add_one,
    Nat.le_div_iff_mul_le (Nat.pow_pos (by decide))]
  have tenfold := Nat.pow_succ 10 k
  omega

/-- A whole number over a power of ten is rounded to the nearest, a half up. -/
theorem rounded_half (n k : Nat) :
    |((n / 10 ^ k + if 5 ≤ n / (10 ^ k / 10) % 10 then 1 else 0 : Nat) : ℚ) - n / 10 ^ k| ≤ 1 / 2 := by
  cases k with
  | zero => simp
  | succ k =>
    have positive : (0 : ℚ) < 10 ^ (k + 1) := by positivity
    have rest : n % 10 ^ (k + 1) < 10 ^ (k + 1) := Nat.mod_lt n (Nat.pow_pos (by decide))
    have parts : (n : ℚ) / 10 ^ (k + 1)
        = (n / 10 ^ (k + 1) : Nat) + (n % 10 ^ (k + 1) : Nat) / 10 ^ (k + 1) := by
      have whole : (10 ^ (k + 1) * (n / 10 ^ (k + 1) : Nat) + (n % 10 ^ (k + 1) : Nat) : ℚ) = n := by
        exact_mod_cast Nat.div_add_mod n (10 ^ (k + 1))
      rw [← whole, add_div, mul_div_cancel_left₀ _ positive.ne']
    rw [parts, abs_le, Nat.cast_add, sub_add_eq_sub_sub, add_sub_cancel_left]
    simp only [next_digit]
    generalize n % 10 ^ (k + 1) = r at rest ⊢
    split_ifs with up
    · have low : (1 : ℚ) / 2 ≤ r / 10 ^ (k + 1) := by
        rw [div_le_div_iff₀ two_pos positive, one_mul, mul_comm]
        exact_mod_cast up
      have high : (r : ℚ) / 10 ^ (k + 1) < 1 := by
        rw [div_lt_one positive]
        exact_mod_cast rest
      push_cast
      constructor <;> linarith
    · have low : (0 : ℚ) ≤ r / 10 ^ (k + 1) := by positivity
      have high : (r : ℚ) / 10 ^ (k + 1) < 1 / 2 := by
        rw [div_lt_div_iff₀ positive two_pos, one_mul, mul_comm]
        exact_mod_cast not_le.1 up
      push_cast
      constructor <;> linarith

theorem near_first (positive : 0 < n) (digits : (Nat.toDigits 10 n).length = length)
    (some : 0 < count) (few : count ≤ length) :
    |(first n length point count).value - n * 10 ^ (point - length)| ≤ 10 ^ (point - count) / 2 := by
  obtain ⟨c, rfl⟩ := Nat.exists_eq_add_one.2 some
  obtain ⟨k, rfl⟩ := Nat.exists_eq_add_of_le few
  obtain ⟨low, high⟩ := Binary64.length_toDigits_bounds (k := c + k) positive (by omega)
  have half := rounded_half n k
  unfold first
  have unit : c + 1 + k - (c + 1) = k := by omega
  rw [unit]
  dsimp only [Nat.pow_eq]
  have least : 10 ^ c ≤ n / 10 ^ k := by
    rw [Nat.le_div_iff_mul_le (Nat.pow_pos (by decide)), ← Nat.pow_add]
    exact low
  have most : n / 10 ^ k < 10 ^ (c + 1) := by
    rw [Nat.div_lt_iff_lt_mul (Nat.pow_pos (by decide)), ← Nat.pow_add, Nat.add_right_comm]
    exact high
  have first : 10 ^ c ≤ n / 10 ^ k + (if 5 ≤ n / (10 ^ k / 10) % 10 then 1 else 0) :=
    Nat.le_add_right_of_le least
  have last : n / 10 ^ k + (if 5 ≤ n / (10 ^ k / 10) % 10 then 1 else 0) ≤ 10 ^ (c + 1) := by
    split_ifs <;> omega
  generalize n / 10 ^ k + (if 5 ≤ n / (10 ^ k / 10) % 10 then 1 else 0) = m at half first last ⊢
  have value : value ⟨Nat.toDigits 10 m, if m = 10 ^ (c + 1) then point + 1 else point⟩
      = m * 10 ^ (point - (c + 1 : Nat)) := by
    rw [value_toDigits]
    split_ifs with carried
    · have more : m < 10 ^ (c + 1 + 1) := by
        rw [carried]
        exact Nat.pow_lt_pow_right (by decide) (by omega)
      rw [Binary64.length_toDigits_eq carried.ge more]
      congr 2
      push_cast
      ring
    · rw [Binary64.length_toDigits_eq first (lt_of_le_of_ne last carried)]
  have exact : (n * 10 ^ (point - (c + 1 + k : Nat)) : ℚ)
      = n / 10 ^ k * 10 ^ (point - (c + 1 : Nat)) := by
    have places : point - (c + 1 + k : Nat) = point - (c + 1 : Nat) - (k : Int) := by
      push_cast
      ring
    rw [places, zpow_sub₀ (by norm_num), zpow_natCast]
    ring
  have unit : (0 : ℚ) < 10 ^ (point - (c + 1 : Nat)) := by positivity
  rw [value, exact, ← sub_mul, abs_mul, abs_of_pos unit]
  calc _ ≤ 1 / 2 * (10 : ℚ) ^ (point - (c + 1 : Nat)) := mul_le_mul_of_nonneg_right half unit.le
    _ = _ := by ring

/-- The digits that are kept are right up to half of the last one. -/
theorem near_rounded (positive : 0 < n) (exponent : Int) {round : Int} {most : Nat} (some : 0 < round)
    (kept : 0 < most) :
    Within (10 ^ (1 - (min round.toNat most : Nat) : Int) / 2) (rounded n exponent round most).value
      (n * 10 ^ exponent) := by
  obtain ⟨k, digits⟩ : ∃ k, (Nat.toDigits 10 n).length = k + 1 :=
    Nat.exists_eq_add_one.2 Nat.length_toDigits_pos
  obtain ⟨low, -⟩ := Binary64.length_toDigits_bounds positive digits
  have sign : (0 : ℚ) ≤ n * 10 ^ exponent := by positivity
  unfold rounded
  dsimp only
  rw [if_neg (by omega), if_neg (c := round ≤ 0) (by omega), digits]
  generalize counted : min round.toNat most = count
  have half : (0 : ℚ) ≤ 10 ^ (1 - count : Int) / 2 := by positivity
  split_ifs with short
  · have near := @near_first n (k + 1) count ((k + 1 : Nat) + exponent) positive digits (by omega)
      (by omega)
    have last : (10 : ℚ) ^ ((k + 1 : Nat) + exponent - count)
        ≤ 10 ^ (1 - count : Int) * (n * 10 ^ exponent) := by
      have places : ((k + 1 : Nat) + exponent - count : Int) = 1 - count + (k + exponent) := by
        push_cast
        ring
      have first : (10 : ℚ) ^ k ≤ n := by exact_mod_cast low
      rw [places, zpow_add₀ (by norm_num), zpow_add₀ (by norm_num) (k : Int), zpow_natCast]
      gcongr
    rw [add_sub_cancel_left, abs_le] at near
    constructor <;> linarith [near.1, near.2]
  · rw [value_toDigits, digits, add_sub_cancel_left]
    exact .refl sign half

/-- To so many digits a magnitude is told up to half of the last one, and one part in `2 ^ 54`. -/
theorem near_ofRank {rank : Nat} {round : Int} {most : Nat} (positive : 0 < rank)
    (finite : rank < Binary64.rankBound) (some : 0 < round) (kept : 0 < most) :
    Within (10 ^ (1 - (min round.toNat most : Nat) : Int) / 2 + 1 / 2 ^ 54)
      (ofRank rank round most).value (Binary64.size rank) := by
  obtain ⟨near, low, -⟩ := scaled_near positive finite
  have sign := Binary64.size_nonneg rank
  unfold ofRank
  rw [if_neg positive.ne']
  generalize scaled rank = found at near low ⊢
  obtain ⟨x, e⟩ := found
  dsimp only at near low ⊢
  rw [value_stripped]
  have least : 10 ^ 17 ≤ x.whole := Extended.le_whole.2 (by exact_mod_cast low)
  have whole : Within (1 / 2 ^ 56) (x.whole : ℚ) x.size := by
    have below : (x.whole : ℚ) ≤ x.size := Extended.le_whole.1 (Nat.le_refl _)
    have above : x.size < x.whole + 1 := by
      have beyond := mt Extended.le_whole.2 (Nat.not_succ_le_self x.whole)
      rw [not_le] at beyond
      exact_mod_cast beyond
    constructor <;> linarith
  have units : Within (1 / 2 ^ 55) (x.whole * 10 ^ e) (Binary64.size rank) :=
    (whole.scale (by positivity)).trans near.within sign (by norm_num [abs_of_pos]) (by norm_num)
      (by norm_num)
  have digits := near_rounded (by omega : 0 < x.whole) e some kept
  have count : (1 - (min round.toNat most : Nat) : Int) ≤ 0 := by omega
  have half : (10 : ℚ) ^ (1 - (min round.toNat most : Nat) : Int) ≤ 1 :=
    zpow_le_one_of_nonpos₀ (by norm_num) count
  have nonneg : (0 : ℚ) ≤ 10 ^ (1 - (min round.toNat most : Nat) : Int) := by positivity
  generalize (10 : ℚ) ^ (1 - (min round.toNat most : Nat) : Int) = part at *
  exact digits.trans units sign (abs_le.2 ⟨by linarith, by linarith⟩) (by linarith) (by linarith)

end LayeredPreferences.Digits

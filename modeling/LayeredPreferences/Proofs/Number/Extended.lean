import LayeredPreferences.Number.Extended
import LayeredPreferences.Proofs.Number.Return
import Mathlib.Tactic.GCongr

set_option autoImplicit false

/-!
# How near extended numbers are

A number of 64 bits errs by one part in `2 ^ 64` at most, and so does each product.
Where the first bit is set, numbers are in the order of their exponents first.
-/
namespace LayeredPreferences.Extended

open Binary64 (nearestEven Within zpow_parts)

variable {num den s m : Nat} {e shift : Int} {q : ℚ} {x y : Extended}

def size (x : Extended) : ℚ := x.significand * 2 ^ x.exponent

/-- The first of the 64 bits is set. -/
structure Normal (x : Extended) : Prop where
  first : 2 ^ 63 ≤ x.significand
  last : x.significand < 2 ^ 64

theorem Normal.size_pos (h : x.Normal) : 0 < x.size := by
  have positive : 0 < x.significand := Nat.lt_of_lt_of_le (by decide) h.first
  exact mul_pos (Nat.cast_pos.2 positive) (by positivity)

/-! ## Order -/

theorem size_lt_of_exponent (hx : x.Normal) (hy : y.Normal) (less : x.exponent < y.exponent) :
    x.size < y.size := by
  have last : (x.significand : ℚ) < 2 ^ 64 := by exact_mod_cast hx.last
  have first : (2 : ℚ) ^ 63 ≤ y.significand := by exact_mod_cast hy.first
  calc x.size < 2 ^ 64 * 2 ^ x.exponent := mul_lt_mul_of_pos_right last (by positivity)
    _ = 2 ^ 63 * 2 ^ (x.exponent + 1) := by
      rw [zpow_add₀ (by norm_num)]
      ring
    _ ≤ 2 ^ 63 * 2 ^ y.exponent := by
      gcongr
      · norm_num
      · omega
    _ ≤ y.size := mul_le_mul_of_nonneg_right first (by positivity)

theorem isLess_iff (hx : x.Normal) (hy : y.Normal) : x.isLess y = true ↔ x.size < y.size := by
  rcases lt_trichotomy x.exponent y.exponent with less | same | greater
  · simp [isLess, less, size_lt_of_exponent hx hy less]
  · have positive : (0 : ℚ) < 2 ^ y.exponent := by positivity
    simp [isLess, same, size, mul_lt_mul_iff_left₀ positive]
  · simp [isLess, greater.not_gt, greater.ne', (size_lt_of_exponent hy hx greater).not_gt]

/-! ## One rounding -/

theorem nearestEven_near (positive : 0 < den) (large : 2 ^ 63 ≤ (num / den : ℚ)) :
    Within (1 / 2 ^ 64) (nearestEven num den) (num / den : ℚ) := by
  have below : (0 : ℚ) < den := Nat.cast_pos.2 positive
  have up : (2 * (den * nearestEven num den) : ℚ) ≤ 2 * num + den := by
    exact_mod_cast Binary64.nearestEven_half positive
  have down : (2 * num : ℚ) ≤ 2 * (den * nearestEven num den) + den := by
    exact_mod_cast Binary64.half_nearestEven positive
  have whole : (num : ℚ) = num / den * den := (div_mul_cancel₀ _ below.ne').symm
  rw [whole] at up down
  have high : (nearestEven num den : ℚ) ≤ num / den + 1 / 2 := by
    refine le_of_mul_le_mul_right ?_ below
    linarith
  have low : (num / den : ℚ) ≤ nearestEven num den + 1 / 2 := by
    refine le_of_mul_le_mul_right ?_ below
    linarith
  constructor <;> linarith

/-- How far the fraction is moved to the left to have 64 bits. -/
def shiftOf (num den : Nat) : Int :=
  let first : Int := 64 + den.log2 - num.log2
  if num * Nat.pow 2 first.toNat / (den * Nat.pow 2 (-first).toNat) < Nat.pow 2 64 then first
  else first - 1

theorem ofRatio_eq (num den : Nat) (e : Int) : ofRatio num den e =
    let s := nearestEven (num * Nat.pow 2 (shiftOf num den).toNat)
      (den * Nat.pow 2 (-shiftOf num den).toNat)
    if s = Nat.pow 2 64 then ⟨Nat.pow 2 63, e - shiftOf num den + 1⟩ else ⟨s, e - shiftOf num den⟩ :=
  rfl

theorem shifted (num den : Nat) (shift : Int) :
    ((num * Nat.pow 2 shift.toNat : Nat) : ℚ) / (den * Nat.pow 2 (-shift).toNat : Nat)
      = num / den * 2 ^ shift := by
  rw [zpow_parts (by norm_num) shift, div_mul_div_comm, Nat.pow_eq, Nat.pow_eq]
  push_cast
  rfl

/-- With the first shift the fraction has 64 bits or 65. -/
theorem first_shift (above : 0 < num) (below : 0 < den) :
    (2 : ℚ) ^ 63 ≤ num / den * 2 ^ (64 + den.log2 - num.log2 : Int) ∧
      num / den * 2 ^ (64 + den.log2 - num.log2 : Int) < (2 : ℚ) ^ 65 := by
  have least {n : Nat} (h : 0 < n) : (2 : ℚ) ^ n.log2 ≤ n := by
    exact_mod_cast Nat.log2_self_le h.ne'
  have most (n : Nat) : (n : ℚ) < 2 * 2 ^ n.log2 := by
    rw [← pow_succ']
    exact_mod_cast Nat.lt_log2_self
  have parts : (num / den * 2 ^ (64 + den.log2 - num.log2 : Int) : ℚ)
      = 2 ^ 64 * (num * 2 ^ den.log2) / (den * 2 ^ num.log2) := by
    rw [zpow_sub₀ (by norm_num), zpow_add₀ (by norm_num)]
    simp only [zpow_natCast, zpow_ofNat]
    field_simp
  have positive : (0 : ℚ) < den * 2 ^ num.log2 := by positivity
  rw [parts, le_div_iff₀ positive, div_lt_iff₀ positive]
  constructor
  · have product := mul_le_mul (most den).le (least above) (by positivity) (by positivity)
    linarith
  · have product := mul_lt_mul (most num) (least below) (by positivity) (by positivity)
    linarith

theorem le_floor {a b n : Nat} (positive : 0 < b) : n ≤ a / b ↔ (n : ℚ) ≤ a / b := by
  rw [Nat.le_div_iff_mul_le positive, le_div_iff₀ (Nat.cast_pos.2 positive)]
  exact_mod_cast Iff.rfl

theorem shift_bits (above : 0 < num) (below : 0 < den) :
    (2 : ℚ) ^ 63 ≤ num / den * 2 ^ shiftOf num den ∧
      num / den * 2 ^ shiftOf num den < (2 : ℚ) ^ 64 := by
  obtain ⟨low, high⟩ := first_shift above below
  have divisor (shift : Int) : 0 < den * Nat.pow 2 (-shift).toNat :=
    Nat.mul_pos below (Nat.pow_pos (by decide))
  unfold shiftOf
  dsimp only
  split_ifs with few
  · rw [← not_le, le_floor (divisor _), shifted, not_le] at few
    exact ⟨low, by exact_mod_cast few⟩
  · rw [not_lt, le_floor (divisor _), shifted] at few
    have few : (2 : ℚ) ^ 64 ≤ num / den * 2 ^ (64 + den.log2 - num.log2 : Int) := by
      exact_mod_cast few
    rw [zpow_sub_one₀ (by norm_num)]
    constructor <;> linarith

/-- A fraction times a power of two becomes the number of 64 bits that is nearest to it. -/
theorem near_ofRatio (above : 0 < num) (below : 0 < den) (e : Int) :
    (ofRatio num den e).Normal ∧
      Within (1 / 2 ^ 64) (ofRatio num den e).size (num / den * 2 ^ e) := by
  obtain ⟨low, high⟩ := shift_bits above below
  have divisor : 0 < den * Nat.pow 2 (-shiftOf num den).toNat :=
    Nat.mul_pos below (Nat.pow_pos (by decide))
  rw [ofRatio_eq]
  rw [← shifted] at low high
  have ratio := shifted num den (shiftOf num den)
  generalize shiftOf num den = shift at *
  generalize num * Nat.pow 2 shift.toNat = a, den * Nat.pow 2 (-shift).toNat = b at *
  have near := (nearestEven_near divisor low).scale (zpow_nonneg two_pos.le (e - shift))
  have exact : (a / b * 2 ^ (e - shift) : ℚ) = num / den * 2 ^ e := by
    rw [ratio, mul_assoc, ← zpow_add₀ (by norm_num)]
    congr 2
    omega
  rw [exact] at near
  have least : 2 ^ 63 ≤ nearestEven a b :=
    ((le_floor divisor).2 (by exact_mod_cast low)).trans (Binary64.div_le_nearestEven a b)
  have most : nearestEven a b ≤ 2 ^ 64 := by
    have few : a / b < 2 ^ 64 := by
      rw [← not_le, le_floor divisor, not_le]
      exact_mod_cast high
    exact (Binary64.nearestEven_le a b).trans few
  dsimp only
  split_ifs with carried
  · have same : (⟨Nat.pow 2 63, e - shift + 1⟩ : Extended).size
        = nearestEven a b * 2 ^ (e - shift) := by
      rw [carried, size, zpow_add₀ (by norm_num), Nat.pow_eq, Nat.pow_eq]
      push_cast
      ring
    exact ⟨⟨Nat.le_refl _, Nat.pow_lt_pow_right (by decide) (by decide)⟩, same ▸ near⟩
  · exact ⟨⟨least, lt_of_le_of_ne most carried⟩, near⟩

/-! ## Numbers and products -/

theorem near_whole (above : 0 < num) (value : (num * 2 ^ e : ℚ) = q) :
    (ofRatio num 1 e).Normal ∧ Within (1 / 2 ^ 64) (ofRatio num 1 e).size q := by
  have h := near_ofRatio above Nat.one_pos e
  rwa [Nat.cast_one, div_one, value] at h

theorem near_ofNat {n : Nat} (positive : 0 < n) :
    (ofNat n).Normal ∧ Within (1 / 2 ^ 64) (ofNat n).size n :=
  near_whole positive (by rw [zpow_zero, mul_one])

theorem near_tenTo (n : Int) :
    (tenTo n).Normal ∧ Within (1 / 2 ^ 64) (tenTo n).size (10 ^ n) := by
  have ten (n : Nat) : 0 < Nat.pow 10 n := Nat.pow_pos (by decide)
  cases n with
  | ofNat n => exact near_whole (ten n) (by simp)
  | negSucc n =>
    have h := near_ofRatio Nat.one_pos (ten (n + 1)) 0
    rwa [zpow_zero, mul_one, Nat.cast_one, one_div (Nat.cast _), Nat.pow_eq, Nat.cast_pow, Nat.cast_ofNat,
      ← zpow_negSucc] at h

theorem cast_unitsOfOne : (Binary64.unitsOfOne : ℚ) = 2 ^ 1074 := Nat.cast_pow 2 1074

theorem near_ofRank {rank : Nat} (positive : 0 < rank) :
    (ofRank rank).Normal ∧ Within (1 / 2 ^ 64) (ofRank rank).size (Binary64.size rank) := by
  refine near_whole (Binary64.units_pos positive) ?_
  rw [Binary64.size, cast_unitsOfOne, zpow_neg, ← div_eq_mul_inv]
  rfl

theorem near_product (hx : x.Normal) (hy : y.Normal) :
    (x.product y).Normal ∧ Within (1 / 2 ^ 64) (x.product y).size (x.size * y.size) := by
  have positive {z : Extended} (hz : z.Normal) : 0 < z.significand :=
    Nat.lt_of_lt_of_le (by decide) hz.first
  refine near_whole (Nat.mul_pos (positive hx) (positive hy)) ?_
  rw [size, size, zpow_add₀ (by norm_num), Nat.cast_mul]
  ring

theorem near_times (h : x.Normal) (k : Int) : (x.product (tenTo k)).Normal ∧
    Within (1 / 2 ^ 63 + 1 / 2 ^ 128) (x.product (tenTo k)).size (x.size * 10 ^ k) := by
  obtain ⟨ten, near⟩ := near_tenTo k
  obtain ⟨normal, product⟩ := near_product h ten
  have factor := near.scale h.size_pos.le
  rw [mul_comm _ x.size, mul_comm _ x.size] at factor
  have sign : 0 ≤ x.size * 10 ^ k := mul_nonneg h.size_pos.le (by positivity)
  exact ⟨normal, product.trans factor sign (by norm_num [abs_of_pos]) (by norm_num) (by norm_num)⟩

/-! ## Products with powers of ten -/

/-- After so many products the number, taken by the power of ten that is left, is near to what it was
in the beginning. -/
structure Near (steps : Nat) (q : ℚ) (x : Extended) (e : Int) : Prop where
  normal : x.Normal
  within : Within (steps / 2 ^ 62) (x.size * 10 ^ e) q

variable {steps : Nat}

theorem Near.pos (h : Near steps q x e) : 0 < q := by
  have positive : 0 < x.size * 10 ^ e := mul_pos h.normal.size_pos (by positivity)
  have part : (0 : ℚ) < 1 + steps / 2 ^ 62 := by positivity
  exact (pos_iff_pos_of_mul_pos (positive.trans_le h.within.2)).1 part

theorem Near.mono {more : Nat} (h : Near steps q x e) (le : steps ≤ more) : Near more q x e := by
  have casted : (steps : ℚ) ≤ more := Nat.cast_le.2 le
  exact ⟨h.normal, h.within.mono h.pos.le (by gcongr)⟩

theorem Near.step (h : Near steps q x e) (few : steps < 2 ^ 60) (k : Int) :
    Near (steps + 1) q (x.product (tenTo k)) (e - k) := by
  obtain ⟨normal, times⟩ := near_times h.normal k
  have near := times.scale (z := 10 ^ (e - k)) (by positivity)
  rw [mul_assoc, ← zpow_add₀ (by norm_num), add_sub_cancel] at near
  have bound : (steps : ℚ) < 2 ^ 60 := by exact_mod_cast few
  have some : (0 : ℚ) ≤ steps := Nat.cast_nonneg steps
  have positive := h.pos
  refine ⟨normal, near.trans h.within positive.le (by norm_num [abs_of_pos]) ?_ ?_⟩
  · push_cast
    nlinarith
  · push_cast
    nlinarith

theorem Near.repeated {n : Nat} (h : Near steps q x e) (few : steps + n ≤ 2 ^ 60) (k : Int) :
    Near (steps + n) q (n.repeat (·.product (tenTo k)) x) (e - n * k) := by
  induction n with
  | zero => simpa [Nat.repeat] using h
  | succ n ih =>
    have next := (ih (by omega)).step (by omega) k
    have left : e - (n + 1 : Nat) * k = e - n * k - k := by
      push_cast
      ring
    rw [left]
    exact next

/-- A number times a power of ten, for which it is multiplied once for each hundred, ten and one. -/
theorem near_scaled (h : x.Normal) (few : e.natAbs < 2 ^ 60) : (x.scaled e).Normal ∧
    Within ((e.natAbs / 100 + e.natAbs % 100 / 10 + e.natAbs % 10 : Nat) / 2 ^ 62) (x.scaled e).size
      (x.size * 10 ^ e) := by
  have start : Near 0 (x.size * 10 ^ e) x e := ⟨h, by simp [Within]⟩
  have all := ((start.repeated (n := e.natAbs / 100) (by omega) (e.sign * 100)).repeated
    (n := e.natAbs % 100 / 10) (by omega) (e.sign * 10)).repeated (n := e.natAbs % 10) (by omega)
    (e.sign * 1)
  have left : e - (e.natAbs / 100 : Nat) * (e.sign * 100) - (e.natAbs % 100 / 10 : Nat) * (e.sign * 10)
      - (e.natAbs % 10 : Nat) * (e.sign * 1) = 0 := by
    have whole : ((e.natAbs / 100 : Nat) * 100 + (e.natAbs % 100 / 10 : Nat) * 10
        + (e.natAbs % 10 : Nat) : Int) = e.natAbs := by omega
    calc _ = e - e.sign * ((e.natAbs / 100 : Nat) * 100 + (e.natAbs % 100 / 10 : Nat) * 10
          + (e.natAbs % 10 : Nat)) := by ring
      _ = 0 := by rw [whole, Int.sign_mul_natAbs, sub_self]
  rw [left, Nat.zero_add] at all
  have near := all.within
  rw [zpow_zero, mul_one] at near
  exact ⟨all.normal, near⟩

/-! ## Whole parts and ranks -/

theorem size_eq_div (x : Extended) : x.size
    = ((x.significand * Nat.pow 2 x.exponent.toNat : Nat) : ℚ)
      / (Nat.pow 2 (-x.exponent).toNat : Nat) := by
  have h := shifted x.significand 1 x.exponent
  rw [Nat.one_mul, Nat.cast_one, div_one] at h
  exact h.symm

theorem le_whole {n : Nat} : n ≤ x.whole ↔ (n : ℚ) ≤ x.size := by
  rw [size_eq_div]
  exact le_floor (Nat.pow_pos (by decide))

/-- What is not beyond the last finite magnitude is rounded to the nearest one. -/
theorem rounded_rank (h : x.Normal)
    (inside : x.size ≤ (ofRank (Binary64.rankBound - 1)).size) : Binary64.Rounded x.size x.rank := by
  have last : (ofRank (Binary64.rankBound - 1)).Normal := (near_ofRank (by decide)).1
  have finite : ¬ (ofRank (Binary64.rankBound - 1)).isLess x = true := by
    rw [isLess_iff last h]
    exact inside.not_gt
  unfold rank
  rw [if_neg finite]
  split_ifs with faint
  · have low : (2 : ℚ) ^ x.exponent ≤ 2 ^ (-1200 : Int) :=
      zpow_le_zpow_right₀ (by norm_num) faint.le
    have least : (2 : ℚ) ^ (-1135 : Int) ≤ Binary64.size 1 := by
      have units : Binary64.units 1 = 1 := rfl
      rw [Binary64.size, units, cast_unitsOfOne, Nat.cast_one, one_div, ← zpow_natCast, ← zpow_neg]
      exact zpow_le_zpow_right₀ (by norm_num) (by decide)
    have half : 2 * x.size < Binary64.size 1 :=
      calc 2 * x.size < 2 * (2 ^ 64 * 2 ^ x.exponent) := by
            have last : (x.significand : ℚ) < 2 ^ 64 := by exact_mod_cast h.last
            exact mul_lt_mul_of_pos_left (mul_lt_mul_of_pos_right last (by positivity)) two_pos
        _ ≤ 2 * (2 ^ 64 * 2 ^ (-1200 : Int)) := by gcongr
        _ = 2 ^ (-1135 : Int) := by
          rw [← mul_assoc, ← pow_succ', ← zpow_natCast, ← zpow_add₀ two_ne_zero]; rfl
        _ ≤ Binary64.size 1 := least
    have none := Binary64.size_zero
    exact ⟨by linarith [h.size_pos, none], by linarith, fun _ => rfl, fun _ => rfl⟩
  · have rounded := Binary64.rounded_nearestRank (x.significand * Nat.pow 2 x.exponent.toNat)
      (Nat.pow_pos (n := (-x.exponent).toNat) (by decide : 0 < 2))
    rwa [size_eq_div]

end LayeredPreferences.Extended

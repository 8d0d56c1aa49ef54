import LayeredPreferences.Proofs.Number.Interval

set_option autoImplicit false

/-!
# Shortest decimals read back

Seventeen digits tell all magnitudes apart. So the shortest decimal of a magnitude lies in the
interval that is rounded to it.
-/
namespace LayeredPreferences.Binary64

variable {rank c : Nat} {e : Int}

/-! ## Decimals in the interval -/

theorem zpow_parts {b : ℚ} (nonzero : b ≠ 0) (e : Int) :
    b ^ e = b ^ e.toNat / b ^ (-e).toNat := by
  rw [← zpow_natCast, ← zpow_natCast, ← zpow_sub₀ nonzero]
  congr 1
  omega

/-- The comparison without denominators. -/
theorem crossScaled_le {n : Nat} : (crossScaled c e n).2 ≤ (crossScaled c e n).1 ↔
    (n : ℚ) / unitsOfOne ≤ 2 * (c * 10 ^ e) := by
  have one := cast_unitsOfOne_pos
  have right : (0 : ℚ) < 10 ^ (-e).toNat := by positivity
  have cross : 2 * (c * (10 : ℚ) ^ e) = (c * 10 ^ e.toNat * 2 : ℚ) / 10 ^ (-e).toNat := by
    rw [zpow_parts (by norm_num)]
    ring
  rw [cross, div_le_div_iff₀ one right, mul_assoc _ 2, crossScaled]
  exact_mod_cast Iff.rfl

theorem le_crossScaled {n : Nat} : (crossScaled c e n).1 ≤ (crossScaled c e n).2 ↔
    2 * (c * 10 ^ e) ≤ (n : ℚ) / unitsOfOne := by
  have one := cast_unitsOfOne_pos
  have right : (0 : ℚ) < 10 ^ (-e).toNat := by positivity
  have cross : 2 * (c * (10 : ℚ) ^ e) = (c * 10 ^ e.toNat * 2 : ℚ) / 10 ^ (-e).toNat := by
    rw [zpow_parts (by norm_num)]
    ring
  rw [cross, div_le_div_iff₀ right one, mul_assoc _ 2, crossScaled]
  exact_mod_cast Iff.rfl

theorem units_add (a b : Nat) : ((units a + units b : Nat) : ℚ) / unitsOfOne = size a + size b := by
  rw [Nat.cast_add, add_div]
  rfl

theorem readsBack_iff : readsBack rank c e = true ↔ Rounded (c * 10 ^ e) rank := by
  unfold readsBack
  dsimp only
  split_ifs with even
  · rw [Bool.and_eq_true, decide_eq_true_iff, decide_eq_true_iff, crossScaled_le, le_crossScaled,
      units_add, units_add]
    exact ⟨fun h => ⟨h.1, h.2, fun _ => even, fun _ => even⟩, fun h => ⟨h.low, h.high⟩⟩
  · rw [Bool.and_eq_true, decide_eq_true_iff, decide_eq_true_iff, ← Nat.not_le, ← Nat.not_le,
      le_crossScaled, crossScaled_le, units_add, units_add, not_le, not_le]
    constructor
    · intro h
      exact ⟨h.1.le, h.2.le, fun equal => absurd equal h.1.ne', fun equal => absurd equal h.2.ne⟩
    · intro h
      exact ⟨lt_of_le_of_ne h.low fun equal => even (h.lowEnd equal.symm),
        lt_of_le_of_ne h.high fun equal => even (h.highEnd equal)⟩

/-! ## Seventeen digits -/

theorem onGrid_size (rank : Nat) (e : Int) :
    onGrid rank e * (10 : ℚ) ^ e ≤ size rank ∧ size rank < (onGrid rank e + 1) * (10 : ℚ) ^ e := by
  have one := cast_unitsOfOne_pos
  have right : (0 : ℚ) < 10 ^ (-e).toNat := by positivity
  have grid : 0 < unitsOfOne * 10 ^ e.toNat := Nat.mul_pos unitsOfOne_pos (Nat.pow_pos (by decide))
  have part := Nat.div_add_mod (units rank * 10 ^ (-e).toNat) (unitsOfOne * 10 ^ e.toNat)
  have rest := Nat.mod_lt (units rank * 10 ^ (-e).toNat) grid
  change unitsOfOne * 10 ^ e.toNat * onGrid rank e + _ = _ at part
  rw [zpow_parts (by norm_num), size, ← mul_div_assoc, ← mul_div_assoc, div_le_div_iff₀ right one,
    div_lt_div_iff₀ one right]
  generalize onGrid rank e = n, units rank * 10 ^ (-e).toNat % (unitsOfOne * 10 ^ e.toNat) = r at *
  have low : n * 10 ^ e.toNat * unitsOfOne ≤ units rank * 10 ^ (-e).toNat := by linarith
  have high : units rank * 10 ^ (-e).toNat < (n + 1) * 10 ^ e.toNat * unitsOfOne := by linarith
  exact ⟨by exact_mod_cast low, by exact_mod_cast high⟩

theorem leadingExponent_size (positive : 0 < rank) :
    (10 : ℚ) ^ leadingExponent rank ≤ size rank := by
  obtain ⟨k, n, sum, low, -⟩ := leadingExponent_bounds positive
  have place : leadingExponent rank = (k : Int) - n := by omega
  have right : (0 : ℚ) < 10 ^ n := by positivity
  rw [place, zpow_sub₀ (by norm_num), zpow_natCast, zpow_natCast, size,
    div_le_div_iff₀ right cast_unitsOfOne_pos, mul_comm]
  exact_mod_cast low

/-- On the grid of seventeen digits the steps are smaller than those of the ranks, so one of the two
neighbours is near enough. -/
theorem onGrid?_ne_none (half : HalfRule) (positive : 0 < rank)
    (place : e + 16 = leadingExponent rank) : onGrid? half rank e ≠ none := by
  obtain ⟨low, high⟩ := onGrid_size rank e
  have lead := leadingExponent_size positive
  rw [← place, zpow_add₀ (by norm_num)] at lead
  have fine : (10 : ℚ) ^ e < step (rank - 1) := by
    have bound := size_le_step (rank - 1)
    rw [Nat.sub_add_cancel positive] at bound
    have some : (0 : ℚ) < 10 ^ e := by positivity
    have ten : (10 : ℚ) ^ (16 : Int) = 10 ^ 16 := by norm_num
    rw [ten] at lead
    linarith
  have steps : step (rank - 1) ≤ step rank := step_mono (by omega)
  have before : step (rank - 1) = size rank - size (rank - 1) := by
    rw [step, Nat.sub_add_cancel positive]
  have after : step rank = size (rank + 1) - size rank := rfl
  have either : readsBack rank (onGrid rank e) e = true ∨
      readsBack rank (onGrid rank e + 1) e = true := by
    rw [readsBack_iff, readsBack_iff]
    push_cast
    by_cases near : size rank - onGrid rank e * (10 : ℚ) ^ e < step (rank - 1) / 2
    · exact .inl ⟨by linarith, by linarith, fun equal => by linarith, fun equal => by linarith⟩
    · exact .inr ⟨by linarith, by linarith, fun equal => by linarith, fun equal => by linarith⟩
  intro none
  unfold onGrid? at none
  dsimp only at none
  split at none
  · rename_i below above
    rcases either with first | second
    · exact Bool.false_ne_true (below.symm.trans first)
    · exact Bool.false_ne_true (above.symm.trans second)
  · cases none
  · cases none
  · split_ifs at none
    cases half <;> cases none

theorem rounded_shortestFrom (half : HalfRule) (positive : 0 < rank) (more : Nat) {i : Nat}
    (place : e + i = leadingExponent rank) (count : i + more = 16) :
    Rounded ((shortestFrom half rank e (more + 1)).coefficient
      * 10 ^ (shortestFrom half rank e (more + 1)).exponent) rank := by
  -- On each grid a decimal is found or the next grid is tried, and on the last one there is one.
  induction more generalizing e i with
  | zero =>
    unfold shortestFrom
    cases found : onGrid? half rank e with
    | none => exact absurd found (onGrid?_ne_none half positive (by omega))
    | some c => exact readsBack_iff.1 (onGrid?_eq_some found).2
  | succ more ih =>
    rw [shortestFrom]
    cases found : onGrid? half rank e with
    | none => exact ih (i := i + 1) (by omega) (by omega)
    | some c => exact readsBack_iff.1 (onGrid?_eq_some found).2

theorem rounded_shortest (half : HalfRule) (positive : 0 < rank) :
    Rounded ((shortest half rank).coefficient * 10 ^ (shortest half rank).exponent) rank :=
  rounded_shortestFrom half positive 16 (i := 0) (by simp) (by decide)

end LayeredPreferences.Binary64

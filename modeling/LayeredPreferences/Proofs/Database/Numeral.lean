import LayeredPreferences.Database.Numeral
import LayeredPreferences.Proofs.Number.Extended

set_option autoImplicit false

/-!
# Numerals in texts

The digits that fit a significand and the power of ten are read as the magnitude
nearest to a number that is next to theirs.
-/
namespace LayeredPreferences.Database.Numeral

open Binary64 (Within Rounded rankBound)
open Extended (near_ofNat near_scaled near_ofRank isLess_iff rounded_rank)

variable {s : Nat} {e : Int}

/-! ## Moving the point -/

theorem widened_value (s : Nat) (e : Int) (fuel : Nat) :
    ((widened s e fuel).1 : ℚ) * 10 ^ (widened s e fuel).2 = s * 10 ^ e := by
  induction fuel generalizing s e with
  | zero => rfl
  | succ fuel ih =>
    unfold widened
    split_ifs
    · rw [ih, zpow_sub_one₀ (by norm_num)]
      push_cast
      ring
    · rfl

theorem narrowed_value (s : Nat) (e : Int) (fuel : Nat) :
    ((narrowed s e fuel).1 : ℚ) * 10 ^ (narrowed s e fuel).2 = s * 10 ^ e := by
  induction fuel generalizing s e with
  | zero => rfl
  | succ fuel ih =>
    unfold narrowed
    split_ifs with round
    · have whole : ((s / 10 : Nat) : ℚ) * 10 = s := by
        exact_mod_cast Nat.div_mul_cancel (Nat.dvd_of_mod_eq_zero round.2)
      rw [ih, zpow_add_one₀ (by norm_num), ← whole]
      ring
    · rfl

theorem natAbs_widened (s : Nat) (e : Int) (fuel : Nat) : (widened s e fuel).2.natAbs ≤ e.natAbs := by
  induction fuel generalizing s e with
  | zero => exact Nat.le_refl _
  | succ fuel ih =>
    unfold widened
    split_ifs with some
    · exact (ih _ _).trans (by omega)
    · exact Nat.le_refl _

theorem natAbs_narrowed (s : Nat) (e : Int) (fuel : Nat) :
    (narrowed s e fuel).2.natAbs ≤ e.natAbs := by
  induction fuel generalizing s e with
  | zero => exact Nat.le_refl _
  | succ fuel ih =>
    unfold narrowed
    split_ifs with some
    · exact (ih _ _).trans (by omega)
    · exact Nat.le_refl _

/-! ## Reading -/

theorem near_scaled_ofNat {steps : Nat} (positive : 0 < s) (few : steps ≤ 2 ^ 50)
    (count : e.natAbs / 100 + e.natAbs % 100 / 10 + e.natAbs % 10 ≤ steps) :
    ((Extended.ofNat s).scaled e).Normal ∧
      Within ((steps + 1 : Nat) / 2 ^ 62) ((Extended.ofNat s).scaled e).size (s * 10 ^ e) := by
  obtain ⟨whole, first⟩ := near_ofNat positive
  obtain ⟨normal, second⟩ := near_scaled whole (e := e) (by omega)
  have unit : (0 : ℚ) ≤ 10 ^ e := by positivity
  have most : ((e.natAbs / 100 + e.natAbs % 100 / 10 + e.natAbs % 10 : Nat) : ℚ) ≤ steps :=
    Nat.cast_le.2 count
  have bound : (steps : ℚ) ≤ 2 ^ 50 := by exact_mod_cast few
  have sign : (0 : ℚ) ≤ steps := Nat.cast_nonneg steps
  have near := second.mono (mul_nonneg whole.size_pos.le unit)
    (div_le_div_of_nonneg_right most (by positivity))
  refine ⟨normal, near.trans (first.scale unit) (by positivity) ?_ ?_ ?_⟩
  · rw [abs_of_nonneg (by positivity)]
    linarith
  · push_cast
    nlinarith
  · push_cast
    nlinarith

/-- A numeral is read as the magnitude nearest to a number next to it, or as beyond all magnitudes. -/
theorem near_rank (n : Numeral) {s : Nat} {power : Int} (digits : n.significand = (s, power))
    (positive : 0 < s) {steps : Nat} (few : steps ≤ 2 ^ 50)
    (count : (n.exponent + power).natAbs / 100 + 18 ≤ steps) : ∃ q : ℚ,
      Within ((steps + 1 : Nat) / 2 ^ 62) q (s * 10 ^ (n.exponent + power)) ∧
      (Rounded q n.rank ∨
        n.rank = rankBound ∧ (1 - 1 / 2 ^ 64) * Binary64.size (rankBound - 1) < q) := by
  have moved := narrowed_value (widened s (n.exponent + power) 20).1
    (widened s (n.exponent + power) 20).2 20
  have place := (natAbs_narrowed (widened s (n.exponent + power) 20).1
    (widened s (n.exponent + power) 20).2 20).trans (natAbs_widened s (n.exponent + power) 20)
  rw [widened_value] at moved
  unfold rank
  rw [digits]
  dsimp only
  rw [if_neg positive.ne']
  generalize narrowed _ _ 20 = found at moved place ⊢
  obtain ⟨t, e⟩ := found
  dsimp only at moved place ⊢
  rw [← moved]
  have some : 0 < t := by
    refine Nat.pos_of_ne_zero fun zero => ?_
    have nonzero : (0 : ℚ) < s * 10 ^ (n.exponent + power) := by positivity
    rw [zero, Nat.cast_zero, zero_mul] at moved
    exact nonzero.ne moved
  split_ifs with whole
  · have rounded := Binary64.rounded_nearestRank t Nat.one_pos
    rw [Nat.cast_one, div_one] at rounded
    rw [whole, zpow_zero, mul_one]
    exact ⟨t, .refl (by positivity) (by positivity), .inl rounded⟩
  · obtain ⟨normal, near⟩ := near_scaled_ofNat some few (e := e) (by omega)
    obtain ⟨last, low, -⟩ := near_ofRank (by decide : 0 < rankBound - 1)
    refine ⟨_, near, ?_⟩
    by_cases inside : ((Extended.ofNat t).scaled e).size ≤ (Extended.ofRank (rankBound - 1)).size
    · exact .inl (rounded_rank normal inside)
    · have beyond := not_le.1 inside
      exact .inr ⟨if_pos ((isLess_iff last normal).2 beyond), low.trans_lt beyond⟩

end LayeredPreferences.Database.Numeral

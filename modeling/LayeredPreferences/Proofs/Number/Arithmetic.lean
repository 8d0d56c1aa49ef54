import LayeredPreferences.Number.Arithmetic
import LayeredPreferences.Proofs.Number.Reread

set_option autoImplicit false

/-!
# Results rounded once

A sum, a product or a quotient of finite numbers is the number nearest to the exact
result. So a result that is a number itself is found exactly.
-/
namespace LayeredPreferences.Binary64

variable {x y z : Binary64} {p q : ℚ}

/-- The nearest number, which is infinite beyond the finite ones. A zero may have either sign. -/
inductive Nearest (q : ℚ) : Binary64 → Prop where
  | intro (negative : Bool) (rank : Nat) (rounded : Rounded |q| rank)
    (sign : q ≠ 0 → (negative = true ↔ q < 0)) : Nearest q (ofRank negative rank)

theorem nearest_ofRank {negative : Bool} {rank : Nat} (sign : 0 ≤ q) (h : Rounded q rank) :
    Nearest (if negative then -q else q) (ofRank negative rank) := by
  cases negative with
  | false => exact ⟨false, rank, (abs_of_nonneg sign).symm ▸ h, by simp [sign]⟩
  | true =>
    refine ⟨true, rank, ?_, fun nonzero => ?_⟩
    · rw [if_pos rfl, abs_neg, abs_of_nonneg sign]
      exact h
    · have positive : 0 < q := lt_of_le_of_ne sign fun zero => nonzero (by simp [← zero])
      simpa using positive

theorem Nearest.same (h : Nearest q x) (h' : Nearest q y) : x.same y = true := by
  obtain ⟨s, a, first, signs⟩ := h
  obtain ⟨t, b, second, signs'⟩ := h'
  obtain rfl := first.unique second
  by_cases zero : q = 0
  · have none : a = 0 := by
      rw [zero, abs_zero] at first
      exact first.unique rounded_zero
    subst none
    have finite (u : Bool) : ofRank u 0 = .finite u ⟨0, by decide⟩ := rfl
    rw [finite, finite]
    simp [Binary64.same]
  · have signs : s = t := Bool.eq_iff_iff.2 ((signs zero).trans (signs' zero).symm)
    subst signs
    unfold ofRank
    split_ifs <;> simp [Binary64.same]

/-- A number is not rounded. -/
theorem nearest_rational (h : x.rational? = some q) : Nearest q x := by
  cases x with
  | finite negative rank =>
    cases h
    have whole : ofRank negative rank.val = .finite negative rank := dif_pos rank.isLt
    exact whole ▸ nearest_ofRank (size_nonneg _) (.of_size _)
  | infinite negative => cases h
  | notANumber => cases h

theorem finite_of_rational (h : x.rational? = some q) : ∃ s rank, x = .finite s rank ∧
    q = if s then -size rank else size rank := by
  cases x with
  | finite negative rank => exact ⟨negative, rank, rfl, (Option.some.inj h).symm⟩
  | infinite negative => cases h
  | notANumber => cases h

/-! ## Sums -/

theorem rational_signedUnits (h : x.rational? = some q) : q = x.signedUnits / unitsOfOne := by
  obtain ⟨s, rank, rfl, rfl⟩ := finite_of_rational h
  rw [size]
  generalize unitsOfOne = one
  cases s <;> simp [signedUnits, neg_div]

theorem nearest_ofSignedUnits (n : Int) : Nearest (n / unitsOfOne) (ofSignedUnits n) := by
  have one := cast_unitsOfOne_pos
  have h := rounded_nearestRank n.natAbs unitsOfOne_pos
  refine ⟨_, _, ?_, fun _ => ?_⟩
  · rwa [abs_div, abs_of_pos one, ← Int.cast_abs, Int.abs_eq_natAbs]
  · rw [decide_eq_true_iff, div_lt_iff₀ one, zero_mul, Int.cast_lt_zero]

theorem nearest_sum (first : x.rational? = some p) (second : y.rational? = some q) :
    Nearest (p + q) (x.sum y) := by
  have total : p + q = (x.signedUnits + y.signedUnits : Int) / unitsOfOne := by
    rw [Int.cast_add, add_div, rational_signedUnits first, rational_signedUnits second]
  obtain ⟨s, a, rfl, -⟩ := finite_of_rational first
  obtain ⟨t, b, rfl, -⟩ := finite_of_rational second
  rw [total]
  exact nearest_ofSignedUnits _

theorem sum_comm (x y : Binary64) : x.sum y = y.sum x := by
  cases x with
  | finite s a =>
    cases y with
    | finite t b => exact congrArg ofSignedUnits (Int.add_comm _ _)
    | infinite _ | notANumber => rfl
  | infinite s =>
    cases y with
    | infinite t => cases s <;> cases t <;> rfl
    | finite _ _ | notANumber => rfl
  | notANumber => cases y <;> rfl

/-! ## Products and quotients -/

theorem nearest_product (first : x.rational? = some p) (second : y.rational? = some q) :
    Nearest (p * q) (x.product y) := by
  obtain ⟨s, a, rfl, rfl⟩ := finite_of_rational first
  obtain ⟨t, b, rfl, rfl⟩ := finite_of_rational second
  have h := @nearest_ofRank _ (s != t) _ (mul_nonneg (size_nonneg a) (size_nonneg b))
    (rounded_mulRank a b)
  change Nearest _ (ofRank (s != t) (mulRank a b))
  cases s <;> cases t <;> simpa using h

theorem nearest_quotient (first : x.rational? = some p) (second : y.rational? = some q)
    (divisor : q ≠ 0) : Nearest (p / q) (x.quotient y) := by
  obtain ⟨s, a, rfl, rfl⟩ := finite_of_rational first
  obtain ⟨t, b, rfl, rfl⟩ := finite_of_rational second
  have some : b.val ≠ 0 := by
    intro zero
    simp [zero, size_zero] at divisor
  have h := @nearest_ofRank _ (s != t) _ (div_nonneg (size_nonneg a) (size_nonneg b))
    (rounded_divRank a (units_pos (Nat.pos_of_ne_zero some)))
  have found : (finite s a).quotient (finite t b) = ofRank (s != t) (divRank a b) := if_neg some
  rw [found]
  cases s <;> cases t <;> simpa [neg_div, div_neg] using h

end LayeredPreferences.Binary64

import LayeredPreferences.Proofs.Number.Rounding
import LayeredPreferences.Validation
import Mathlib.Algebra.Order.Field.Rat
import Mathlib.Data.Rat.Cast.Order
import Mathlib.Tactic.FieldSimp

set_option autoImplicit false

/-!
# Floats as rational numbers

A finite float is a rational number. Two floats are the same if they are one number or the same
infinity, and a float counts as an integer if it is that number.
-/
namespace LayeredPreferences.Binary64

/-- The magnitude of a rank. -/
def size (rank : Nat) : ℚ := units rank / unitsOfOne

def rational? : Binary64 → Option ℚ
  | .finite negative rank => some (if negative then -size rank else size rank)
  | .infinite _ => none
  | .notANumber => none

theorem cast_unitsOfOne_pos : 0 < (unitsOfOne : ℚ) := Nat.cast_pos.2 unitsOfOne_pos

theorem size_strictMono : StrictMono size := by
  intro a b less
  have more : (units a : ℚ) < units b := Nat.cast_lt.2 (units_strictMono less)
  exact div_lt_div_of_pos_right more cast_unitsOfOne_pos

theorem size_zero : size 0 = 0 := by
  have none : units 0 = 0 := rfl
  rw [size, none, Nat.cast_zero, zero_div]

theorem size_nonneg (rank : Nat) : 0 ≤ size rank := by
  rw [← size_zero]
  exact size_strictMono.monotone (Nat.zero_le rank)

theorem size_eq_zero {rank : Nat} : size rank = 0 ↔ rank = 0 := by
  rw [← size_zero, size_strictMono.injective.eq_iff]

/-- Only the two zeros are one number with two signs. -/
theorem signed_size_eq {s t : Bool} {a b : Nat} :
    (if s then -size a else size a) = (if t then -size b else size b) ↔
      a = b ∧ (s = t ∨ a = 0) := by
  have first := size_nonneg a
  have second := size_nonneg b
  constructor
  · intro equal
    by_cases signs : s = t
    · subst signs
      have sizes : size a = size b := by
        cases s with
        | false => exact equal
        | true => exact neg_injective equal
      exact ⟨size_strictMono.injective sizes, .inl rfl⟩
    · have zeros : size a = 0 ∧ size b = 0 := by
        cases s <;> cases t <;> simp at signs equal <;> constructor <;> linarith
      have none : a = 0 := size_eq_zero.1 zeros.1
      exact ⟨none.trans (size_eq_zero.1 zeros.2).symm, .inr none⟩
  · rintro ⟨rfl, rfl | rfl⟩
    · rfl
    · simp [size_zero]

theorem same_iff {x y : Binary64} : x.same y = true ↔
    (∃ q, x.rational? = some q ∧ y.rational? = some q) ∨
      ∃ negative, x = .infinite negative ∧ y = .infinite negative := by
  cases x with
  | finite s a =>
    cases y with
    | finite t b =>
      simp only [same, rational?, Bool.and_eq_true, Bool.or_eq_true, beq_iff_eq, Fin.ext_iff]
      simp only [Option.some.injEq, exists_eq_left', reduceCtorEq, false_and, exists_false, or_false]
      rw [eq_comm (a := ite _ _ _), signed_size_eq]
    | infinite t => simp [same, rational?]
    | notANumber => simp [same, rational?]
  | infinite s =>
    cases y with
    | finite t b => simp [same, rational?]
    | infinite t => simpa [same, rational?] using eq_comm
    | notANumber => simp [same, rational?]
  | notANumber => simp [same, rational?]

/-! ## Whole numbers -/

theorem size_eq_natCast {rank n : Nat} : size rank = n ↔ units rank = n * unitsOfOne := by
  rw [size, div_eq_iff cast_unitsOfOne_pos.ne', ← Nat.cast_mul, Nat.cast_inj]

theorem natCast_of_size_eq {rank : Nat} {n : Int} (h : size rank = n) : ∃ m : Nat, n = m := by
  have sign : 0 ≤ n := by
    have positive := size_nonneg rank
    rw [h] at positive
    exact Int.cast_nonneg_iff.1 positive
  exact Int.eq_ofNat_of_zero_le sign

/-- A finite float is whole if its magnitude is. -/
theorem rational?_finite {negative : Bool} {rank : Fin rankBound} {n : Int} :
    (finite negative rank).rational? = some (n : ℚ) ↔
      ∃ m : Nat, size rank = m ∧ n = if negative then -(m : Int) else m := by
  cases negative with
  | false =>
    simp only [rational?, Bool.false_eq_true, if_false, Option.some.injEq]
    constructor
    · intro number
      obtain ⟨m, rfl⟩ := natCast_of_size_eq number
      exact ⟨m, number.trans (Int.cast_natCast m), rfl⟩
    · rintro ⟨m, number, rfl⟩
      rw [number, Int.cast_natCast]
  | true =>
    simp only [rational?, if_true, Option.some.injEq]
    constructor
    · intro number
      have opposite : size rank = ((-n : Int) : ℚ) := by
        rw [Int.cast_neg, ← number, neg_neg]
      obtain ⟨m, same⟩ := natCast_of_size_eq opposite
      refine ⟨m, ?_, by omega⟩
      rw [opposite, same, Int.cast_natCast]
    · rintro ⟨m, number, rfl⟩
      rw [number, Int.cast_neg, Int.cast_natCast]

theorem toInt?_eq_some {x : Binary64} {n : Int} :
    x.toInt? = some n ↔ x.rational? = some (n : ℚ) := by
  have unit := unitsOfOne_pos
  cases x with
  | infinite s => simp [toInt?, rational?]
  | notANumber => simp [toInt?, rational?]
  | finite negative rank =>
    have whole (m : Nat) : units rank = m * unitsOfOne ↔
        units rank % unitsOfOne = 0 ∧ units rank / unitsOfOne = m := by
      generalize units rank = u, unitsOfOne = one at *
      constructor
      · rintro rfl
        exact ⟨Nat.mul_mod_left m one, Nat.mul_div_cancel m unit⟩
      · rintro ⟨even, rfl⟩
        exact (Nat.div_mul_cancel (Nat.dvd_of_mod_eq_zero even)).symm
    simp only [rational?_finite, size_eq_natCast, whole, toInt?]
    split_ifs with even
    all_goals simp only [even, true_and, false_and, exists_false, exists_eq_left',
      Option.some.injEq]
    all_goals exact eq_comm

/-- Only the integers of 64 bits are found. -/
theorem toInt64?_eq_some {x : Binary64} {k : Int64} : x.toInt64? = some k ↔
    ∃ n : Int, x.rational? = some (n : ℚ) ∧ -2 ^ 63 ≤ n ∧ n < 2 ^ 63 ∧ k = .ofInt n := by
  simp only [← toInt?_eq_some]
  unfold toInt64?
  cases x.toInt? with
  | none => simp
  | some n =>
    have bounds : (-Nat.pow 2 63 ≤ n ∧ n < Nat.pow 2 63) ↔ (-2 ^ 63 ≤ n ∧ n < 2 ^ 63) := Iff.rfl
    simp only [bounds, Option.some.injEq, exists_eq_left']
    split_ifs with fits
    · simp only [Option.some.injEq, fits, true_and]
      exact eq_comm
    · simp only [false_iff]
      rintro ⟨low, high, -⟩
      exact fits ⟨low, high⟩

end LayeredPreferences.Binary64

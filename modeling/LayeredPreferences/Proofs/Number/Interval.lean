import LayeredPreferences.Proofs.Number.Nearness
import LayeredPreferences.Proofs.Number.Shortest

set_option autoImplicit false

/-!
# What is rounded to a rank

The fractions that are rounded to a rank form an interval. It ends halfway to the neighbours, and the
ends belong to it if the rank is even.
-/
namespace LayeredPreferences.Binary64

variable {num den rank k m : Nat}

/-- The fraction lies no further from the rank than halfway to its neighbours, and only an even rank
reaches the middle on either side. -/
structure Rounded (q : ℚ) (rank : Nat) : Prop where
  low : size (rank - 1) + size rank ≤ 2 * q
  high : 2 * q ≤ size rank + size (rank + 1)
  lowEnd : 2 * q = size (rank - 1) + size rank → rank % 2 = 0
  highEnd : 2 * q = size rank + size (rank + 1) → rank % 2 = 0

/-! ## Steps between ranks -/

theorem units_next (normal : k = 0 ∨ 2 ^ 52 ≤ m) (last : m ≤ 2 ^ 53) :
    (m + 1) * 2 ^ k ≤ units (k * 2 ^ 52 + m + 1) := by
  rcases Nat.lt_or_eq_of_le last with inside | last
  · rw [Nat.add_assoc]
    exact (units_binade (normal.imp_right (by omega)) inside).ge
  · have place : k * 2 ^ 52 + m + 1 = (k + 1) * 2 ^ 52 + (2 ^ 52 + 1) := by omega
    have there : units ((k + 1) * 2 ^ 52 + (2 ^ 52 + 1)) = (2 ^ 52 + 1) * 2 ^ (k + 1) :=
      units_binade (.inr (by omega)) (by omega)
    rw [place, there, last, Nat.pow_succ]
    omega

theorem exists_gap (rank : Nat) : ∃ gap, units (rank + 1) = units rank + gap ∧
    units (rank + 1) + gap ≤ units (rank + 2) ∧ units (rank + 1) ≤ 2 ^ 53 * gap := by
  obtain ⟨k, m, place, normal, within⟩ := exists_place rank
  have here : units rank = m * 2 ^ k := place ▸ units_binade normal (by omega)
  have second : units (rank + 1) = (m + 1) * 2 ^ k := by
    rw [place, Nat.add_assoc]
    exact units_binade (normal.imp_right (by omega)) within
  have third : (m + 1 + 1) * 2 ^ k ≤ units (rank + 1 + 1) := by
    rw [place, Nat.add_assoc (k * 2 ^ 52)]
    exact units_next (normal.imp_right (by omega)) within
  refine ⟨2 ^ k, ?_, ?_, ?_⟩
  · rw [here, second, Nat.succ_mul]
  · rw [second, ← Nat.succ_mul]
    exact third
  · rw [second]
    exact Nat.mul_le_mul_right _ within

/-- From a rank to the next. -/
def step (rank : Nat) : ℚ := size (rank + 1) - size rank

/-- Steps do not get smaller. -/
theorem step_mono : Monotone step := by
  refine monotone_nat_of_le_succ fun rank => ?_
  obtain ⟨gap, first, second, -⟩ := exists_gap rank
  have one := cast_unitsOfOne_pos
  have whole : 2 * units (rank + 1) ≤ units rank + units (rank + 2) := by omega
  have whole : (2 * units (rank + 1) : ℚ) ≤ units rank + units (rank + 2) := by exact_mod_cast whole
  rw [step, step, size, size, size, ← sub_div, ← sub_div, div_le_div_iff_of_pos_right one]
  linarith

theorem size_le_step (rank : Nat) : size (rank + 1) ≤ 2 ^ 53 * step rank := by
  obtain ⟨gap, first, -, bound⟩ := exists_gap rank
  have one := cast_unitsOfOne_pos
  have difference : (units (rank + 1) : ℚ) - units rank = gap := by
    rw [first, Nat.cast_add]
    ring
  rw [step, size, size, ← sub_div, difference, ← mul_div_assoc, div_le_div_iff_of_pos_right one]
  exact_mod_cast bound

theorem steps_le {low high : Nat} (before : low ≤ high) (n : Nat) :
    n * step low ≤ size (high + n) - size high := by
  induction n with
  | zero => simp
  | succ n ih =>
    have last : step low ≤ size (high + n + 1) - size (high + n) := step_mono (by omega)
    rw [Nat.cast_add, Nat.cast_one, ← Nat.add_assoc]
    linarith

/-! ## The nearest rank -/

theorem nearestEven_even (positive : 0 < den)
    (half : 2 * num = 2 * (den * nearestEven num den) + den ∨
      2 * num + den = 2 * (den * nearestEven num den)) : nearestEven num den % 2 = 0 := by
  have whole := Nat.div_add_mod num den
  have rest := Nat.mod_lt num positive
  unfold nearestEven at half ⊢
  dsimp only at half ⊢
  split_ifs at half ⊢ with below above
  · omega
  · rw [Nat.mul_add, Nat.mul_one] at half
    omega
  · omega

namespace Rounds

theorem next (h : Rounds num den k m) :
    (m + 1) * 2 ^ k ≤ Binary64.units (nearestRank num den + 1) := by
  rw [h.rank]
  exact units_next h.normal h.last

/-- Where a binade starts, the rank before is nearer than one place. -/
theorem before (h : Rounds num den k m) :
    Binary64.units (nearestRank num den - 1) = (m - 1) * 2 ^ k ∨ (0 < k ∧ m = 2 ^ 52) := by
  rw [h.rank]
  have last := h.last
  by_cases inside : k = 0 ∨ 2 ^ 52 < m
  · have place : k * 2 ^ 52 + m - 1 = k * 2 ^ 52 + (m - 1) := by
      have normal := h.normal
      omega
    rw [place]
    exact .inl (units_binade (inside.imp_right (by omega)) (by omega))
  · obtain ⟨binade, first⟩ := not_or.1 inside
    have normal := h.normal.resolve_left binade
    exact .inr ⟨Nat.pos_of_ne_zero binade, by omega⟩

/-- Halfway down is half a place down, or what is rounded lies no lower. -/
theorem middle (h : Rounds num den k m) :
    2 * (den * 2 ^ k * m) = Binary64.units (nearestRank num den - 1) * den + den * 2 ^ k * m
        + den * 2 ^ k ∨
      (Binary64.units (nearestRank num den - 1) * den + den * 2 ^ k * m ≤ 2 * (num * unitsOfOne)
        ∧ m % 2 = 0) := by
  rcases h.before with before | ⟨binade, first⟩
  · rw [before]
    rcases Nat.eq_zero_or_pos m with rfl | some
    · refine .inr ⟨?_, rfl⟩
      rw [Nat.zero_sub, Nat.zero_mul, Nat.zero_mul, Nat.mul_zero]
      exact Nat.zero_le _
    · refine .inl ?_
      obtain ⟨p, rfl⟩ := Nat.exists_eq_add_of_lt some
      simp only [Nat.zero_add, Nat.add_sub_cancel]
      ring
  · refine .inr ⟨?_, by rw [first]; decide⟩
    have enough := h.first.resolve_left (Nat.pos_iff_ne_zero.1 binade)
    have less : Binary64.units (nearestRank num den - 1) * den
        ≤ Binary64.units (nearestRank num den) * den :=
      Nat.mul_le_mul_right den (units_strictMono.monotone (Nat.sub_le _ _))
    rw [h.product, first] at less
    rw [first]
    generalize num * unitsOfOne = sought at enough ⊢
    omega

end Rounds

/-- The ends are met by even places only, and halfway up by the first place of a binade. -/
theorem nearestRank_bounds (num : Nat) (positive : 0 < den) :
    (units (nearestRank num den - 1) + units (nearestRank num den)) * den ≤ 2 * (num * unitsOfOne) ∧
    2 * (num * unitsOfOne) ≤ (units (nearestRank num den) + units (nearestRank num den + 1)) * den ∧
    (2 * (num * unitsOfOne) = (units (nearestRank num den - 1) + units (nearestRank num den)) * den →
      nearestRank num den % 2 = 0) ∧
    (2 * (num * unitsOfOne) = (units (nearestRank num den) + units (nearestRank num den + 1)) * den →
      nearestRank num den % 2 = 0) := by
  obtain ⟨k, m, h⟩ := rounds num positive
  have even (h' : m % 2 = 0) : nearestRank num den % 2 = 0 := by
    rw [h.rank]
    omega
  have tie (h' : 2 * (num * unitsOfOne) = 2 * (den * 2 ^ k * m) + den * 2 ^ k ∨
      2 * (num * unitsOfOne) + den * 2 ^ k = 2 * (den * 2 ^ k * m)) : m % 2 = 0 := by
    rw [h.place] at h' ⊢
    exact nearestEven_even (Nat.mul_pos positive (Nat.two_pow_pos k)) h'
  have after : den * 2 ^ k * m + den * 2 ^ k ≤ units (nearestRank num den + 1) * den := by
    calc den * 2 ^ k * m + den * 2 ^ k = (m + 1) * 2 ^ k * den := by ring
      _ ≤ units (nearestRank num den + 1) * den := Nat.mul_le_mul_right den h.next
  have before := h.middle
  have half := h.half
  have below := h.below
  suffices parts :
      units (nearestRank num den - 1) * den + den * 2 ^ k * m ≤ 2 * (num * unitsOfOne) ∧
      2 * (num * unitsOfOne) ≤ den * 2 ^ k * m + units (nearestRank num den + 1) * den ∧
      (2 * (num * unitsOfOne) = units (nearestRank num den - 1) * den + den * 2 ^ k * m →
        m % 2 = 0) ∧
      (2 * (num * unitsOfOne) = den * 2 ^ k * m + units (nearestRank num den + 1) * den →
        m % 2 = 0) by
    simp only [← h.product, ← Nat.add_mul] at parts
    exact ⟨parts.1, parts.2.1, fun equal => even (parts.2.2.1 equal),
      fun equal => even (parts.2.2.2 equal)⟩
  generalize num * unitsOfOne = sought, den * 2 ^ k = place at half below tie after before ⊢
  refine ⟨?_, by omega, fun equal => ?_, fun equal => tie (.inl (by omega))⟩
  · rcases before with far | ⟨near, -⟩
    · omega
    · exact near
  · rcases before with far | ⟨-, first⟩
    · exact tie (.inr (by omega))
    · exact first

theorem rounded_nearestRank (num : Nat) (positive : 0 < den) :
    Rounded (num / den) (nearestRank num den) := by
  obtain ⟨low, high, lowEnd, highEnd⟩ := nearestRank_bounds num positive
  have below : (0 : ℚ) < den := Nat.cast_pos.2 positive
  have one := cast_unitsOfOne_pos
  have left (a b : Nat) : size a + size b ≤ 2 * (num / den : ℚ)
      ↔ (units a + units b) * den ≤ 2 * (num * unitsOfOne) := by
    rw [size, size, ← add_div, ← mul_div_assoc, div_le_div_iff₀ one below, mul_assoc]
    exact_mod_cast Iff.rfl
  have right (a b : Nat) : 2 * (num / den : ℚ) ≤ size a + size b
      ↔ 2 * (num * unitsOfOne) ≤ (units a + units b) * den := by
    rw [size, size, ← add_div, ← mul_div_assoc, div_le_div_iff₀ below one, mul_assoc]
    exact_mod_cast Iff.rfl
  have ends (a b : Nat) : 2 * (num / den : ℚ) = size a + size b
      → 2 * (num * unitsOfOne) = (units a + units b) * den := fun equal =>
    Nat.le_antisymm ((right a b).1 equal.le) ((left a b).1 equal.ge)
  exact ⟨(left _ _).2 low, (right _ _).2 high, fun equal => lowEnd (ends _ _ equal),
    fun equal => highEnd (ends _ _ equal)⟩

namespace Rounded

variable {q : ℚ} {other : Nat}

/-- Intervals of neighbours meet in one end at most, which belongs to the even one only. -/
theorem le (h : Rounded q rank) (h' : Rounded q other) : rank ≤ other := by
  by_contra beyond
  have first : size other ≤ size (rank - 1) := size_strictMono.monotone (by omega)
  have second : size (other + 1) ≤ size rank := size_strictMono.monotone (by omega)
  have low := h.low
  have high := h'.high
  have even := h.lowEnd (by linarith)
  have even' := h'.highEnd (by linarith)
  have neighbours : other = rank - 1 := size_strictMono.injective (by linarith)
  omega

theorem unique (h : Rounded q rank) (h' : Rounded q other) : rank = other :=
  Nat.le_antisymm (h.le h') (h'.le h)

/-- A magnitude is not rounded. -/
theorem of_size (rank : Nat) : Rounded (size rank) rank where
  low := by linarith [size_strictMono.monotone (Nat.sub_le rank 1)]
  high := by linarith [size_strictMono.monotone (Nat.le_succ rank)]
  lowEnd equal := by
    have same : size rank = size (rank - 1) := by linarith
    have place := size_strictMono.injective same
    omega
  highEnd equal := by
    have same : size rank = size (rank + 1) := by linarith
    have place := size_strictMono.injective same
    omega

end Rounded

end LayeredPreferences.Binary64

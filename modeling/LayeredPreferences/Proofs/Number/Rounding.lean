import LayeredPreferences.Number.Scaled
import Mathlib.Algebra.Order.Ring.Nat
import Mathlib.Data.Nat.Log
import Mathlib.Order.Monotone.Basic
import Mathlib.Tactic.Linarith
import Mathlib.Tactic.Ring
import Mathlib.Tactic.SplitIfs

set_option autoImplicit false

/-!
# How far rounding can go

The nearest magnitude to a fraction is at most half a unit of its last place from it, and a larger
fraction is never rounded to less. So a significand times a power of ten stays finite, if the exact
product stays a little below the middle between the last magnitude and what would come after it.
-/
namespace LayeredPreferences.Binary64

theorem div_le_nearestEven (num den : Nat) : num / den ≤ nearestEven num den := by
  unfold nearestEven
  dsimp only
  split_ifs <;> omega

theorem nearestEven_le (num den : Nat) : nearestEven num den ≤ num / den + 1 := by
  unfold nearestEven
  dsimp only
  split_ifs <;> omega

theorem nearestEven_half {num den : Nat} (positive : 0 < den) :
    2 * (den * nearestEven num den) ≤ 2 * num + den := by
  have whole := Nat.div_add_mod num den
  have rest := Nat.mod_lt num positive
  unfold nearestEven
  dsimp only
  split_ifs with below above
  · omega
  · rw [Nat.mul_add, Nat.mul_one]
    omega
  · have parity : num / den % 2 ≤ 1 := by omega
    have step : den * (num / den % 2) ≤ den * 1 := Nat.mul_le_mul_left den parity
    rw [Nat.mul_add]
    omega

theorem half_nearestEven {num den : Nat} (positive : 0 < den) :
    2 * num ≤ 2 * (den * nearestEven num den) + den := by
  have whole := Nat.div_add_mod num den
  have rest := Nat.mod_lt num positive
  unfold nearestEven
  dsimp only
  split_ifs with below above
  · omega
  · rw [Nat.mul_add, Nat.mul_one]
    omega
  · rw [Nat.mul_add]
    omega

theorem nearestEven_mono {a b : Nat} (less : a ≤ b) (den : Nat) :
    nearestEven a den ≤ nearestEven b den := by
  have wholes : a / den ≤ b / den := Nat.div_le_div_right less
  rcases Nat.lt_or_eq_of_le wholes with before | same
  · have up := nearestEven_le a den
    have down := div_le_nearestEven b den
    omega
  · have first := Nat.div_add_mod a den
    have second := Nat.div_add_mod b den
    unfold nearestEven
    rw [same] at first ⊢
    dsimp only
    split_ifs <;> omega

/-! ## Binades -/

/-- Also the first magnitude of the next binade is so many units. -/
theorem units_binade {k m : Nat} (normal : k = 0 ∨ 2 ^ 52 ≤ m) (last : m ≤ 2 ^ 53) :
    units (k * Nat.pow 2 52 + m) = m * 2 ^ k := by
  change units (k * 2 ^ 52 + m) = m * 2 ^ k
  have at_rank (rank : Nat) : units rank = if rank < 2 ^ 52 then rank
      else (2 ^ 52 + rank % 2 ^ 52) * 2 ^ (rank / 2 ^ 52 - 1) := rfl
  rw [at_rank]
  by_cases small : m < 2 ^ 52
  · obtain rfl : k = 0 := normal.resolve_right (by omega)
    rw [if_pos (by omega)]
    omega
  · rw [if_neg (by omega)]
    rcases Nat.lt_or_eq_of_le last with below | rfl
    · have quotient : (k * 2 ^ 52 + m) / 2 ^ 52 = k + 1 := by omega
      have rest : (k * 2 ^ 52 + m) % 2 ^ 52 = m - 2 ^ 52 := by omega
      have whole : 2 ^ 52 + (m - 2 ^ 52) = m := by omega
      rw [quotient, rest, Nat.add_sub_cancel, whole]
    · have quotient : (k * 2 ^ 52 + 2 ^ 53) / 2 ^ 52 = k + 2 := by omega
      have rest : (k * 2 ^ 52 + 2 ^ 53) % 2 ^ 52 = 0 := by omega
      have next : k + 2 - 1 = k + 1 := rfl
      rw [quotient, rest, next, Nat.pow_succ]
      omega

/-- Each rank has a place in a binade, and it is not the last place. -/
theorem exists_place (rank : Nat) :
    ∃ k m, rank = k * 2 ^ 52 + m ∧ (k = 0 ∨ 2 ^ 52 ≤ m) ∧ m < 2 ^ 53 := by
  by_cases small : rank < 2 ^ 53
  · exact ⟨0, rank, by omega, .inl rfl, small⟩
  · exact ⟨rank / 2 ^ 52 - 1, rank % 2 ^ 52 + 2 ^ 52, by omega, .inr (by omega), by omega⟩

theorem units_succ (rank : Nat) : units rank < units (rank + 1) := by
  obtain ⟨k, m, place, normal, within⟩ := exists_place rank
  have here : units rank = m * 2 ^ k := place ▸ units_binade normal (by omega)
  have next : units (rank + 1) = (m + 1) * 2 ^ k := by
    rw [place, Nat.add_assoc]
    exact units_binade (normal.imp_right (by omega)) within
  rw [here, next]
  exact Nat.mul_lt_mul_of_pos_right (Nat.lt_succ_self m) (Nat.two_pow_pos k)

theorem units_strictMono : StrictMono units := strictMono_nat_of_lt_succ units_succ

/-- The binade that a fraction is rounded in, and its place there. -/
structure Rounds (num den k m : Nat) : Prop where
  binade : k = (num * unitsOfOne / den).log2 - 52
  place : m = nearestEven (num * unitsOfOne) (den * 2 ^ k)
  rank : nearestRank num den = k * 2 ^ 52 + m
  units : units (nearestRank num den) = m * 2 ^ k
  last : m ≤ 2 ^ 53
  first : k = 0 ∨ den * 2 ^ k * 2 ^ 52 ≤ num * unitsOfOne
  normal : k = 0 ∨ 2 ^ 52 ≤ m
  half : 2 * (den * 2 ^ k * m) ≤ 2 * (num * unitsOfOne) + den * 2 ^ k
  below : 2 * (num * unitsOfOne) ≤ 2 * (den * 2 ^ k * m) + den * 2 ^ k

theorem rounds (num : Nat) {den : Nat} (positive : 0 < den) : ∃ k m, Rounds num den k m := by
  have room : 0 < 2 ^ ((num * unitsOfOne / den).log2 - 52) := Nat.two_pow_pos _
  let n := num * unitsOfOne / den
  let k := n.log2 - 52
  let m := nearestEven (num * unitsOfOne) (den * 2 ^ k)
  have scaled : num * unitsOfOne / (den * 2 ^ k) = n / 2 ^ k := (Nat.div_div_eq_div_mul ..).symm
  have last : m ≤ 2 ^ 53 := by
    have above : n < 2 ^ (n.log2 + 1) := Nat.lt_log2_self
    have within : 2 ^ (n.log2 + 1) ≤ 2 ^ (53 + k) := Nat.pow_le_pow_right (by decide) (by omega)
    have below : n / 2 ^ k < 2 ^ 53 := by
      rw [Nat.div_lt_iff_lt_mul (Nat.two_pow_pos k), ← Nat.pow_add]
      exact Nat.lt_of_lt_of_le above within
    have near : m ≤ n / 2 ^ k + 1 := scaled ▸ nearestEven_le _ _
    omega
  have first : k = 0 ∨ 2 ^ k * 2 ^ 52 ≤ n := by
    by_cases zero : k = 0
    · exact .inl zero
    · have nonzero : n ≠ 0 := by
        intro none
        apply zero
        simp [k, none]
      have bits : k + 52 = n.log2 := by omega
      refine .inr ?_
      rw [← Nat.pow_add, bits]
      exact Nat.log2_self_le nonzero
  have normal : k = 0 ∨ 2 ^ 52 ≤ m := by
    refine first.imp_right fun enough => ?_
    have whole : 2 ^ 52 ≤ n / 2 ^ k := by
      rw [Nat.le_div_iff_mul_le (Nat.two_pow_pos k), Nat.mul_comm]
      exact enough
    exact Nat.le_trans whole (scaled ▸ div_le_nearestEven _ _)
  have place : 0 < den * 2 ^ k := Nat.mul_pos positive (Nat.two_pow_pos k)
  refine ⟨k, m, rfl, rfl, rfl, units_binade normal last, last, first.imp_right fun enough => ?_, normal,
    nearestEven_half place, half_nearestEven place⟩
  have whole : den * n ≤ num * unitsOfOne := Nat.mul_div_le _ _
  calc den * 2 ^ k * 2 ^ 52 = den * (2 ^ k * 2 ^ 52) := Nat.mul_assoc ..
    _ ≤ den * n := Nat.mul_le_mul_left den enough
    _ ≤ num * unitsOfOne := whole

theorem Rounds.enough {num den k m : Nat} (h : Rounds num den k m)
    (normal : den * 2 ^ 52 ≤ num * unitsOfOne) : den * 2 ^ k * 2 ^ 52 ≤ num * unitsOfOne := by
  rcases h.first with rfl | enough
  · rwa [Nat.pow_zero, Nat.mul_one]
  · exact enough

theorem Rounds.product {num den k m : Nat} (h : Rounds num den k m) :
    Binary64.units (nearestRank num den) * den = den * 2 ^ k * m := by
  rw [h.units, Nat.mul_comm, Nat.mul_comm m, Nat.mul_assoc]

theorem nearestRank_mono {a b den : Nat} (positive : 0 < den) (less : a ≤ b) :
    nearestRank a den ≤ nearestRank b den := by
  obtain ⟨k, m, first⟩ := rounds a positive
  obtain ⟨k', m', second⟩ := rounds b positive
  have products : a * unitsOfOne ≤ b * unitsOfOne := Nat.mul_le_mul_right _ less
  have logarithms : (a * unitsOfOne / den).log2 ≤ (b * unitsOfOne / den).log2 := by
    rw [Nat.log2_eq_log_two, Nat.log2_eq_log_two]
    exact Nat.log_mono_right (Nat.div_le_div_right products)
  have binades : k ≤ k' := by
    rw [first.binade, second.binade]
    omega
  rw [first.rank, second.rank]
  rcases Nat.lt_or_eq_of_le binades with before | rfl
  · have last := first.last
    have normal := second.normal.resolve_left (by omega)
    omega
  · have places := nearestEven_mono products (den * 2 ^ k)
    rw [← first.place, ← second.place] at places
    omega

theorem nearestRank_pos {num den : Nat} (positive : 0 < den) (enough : den ≤ num * unitsOfOne) :
    0 < nearestRank num den := by
  obtain ⟨k, m, h⟩ := rounds num positive
  rw [h.rank]
  rcases Nat.eq_zero_or_pos k with rfl | binade
  · have some : 0 < num * unitsOfOne / (den * 2 ^ 0) := by
      rw [Nat.pow_zero, Nat.mul_one]
      exact Nat.div_pos enough positive
    have near := div_le_nearestEven (num * unitsOfOne) (den * 2 ^ 0)
    rw [← h.place] at near
    omega
  · omega

/-- Half a unit of the last place is no more than one part in `2 ^ 53`. -/
theorem half_place {n place m : Nat} (normal : place * 2 ^ 52 ≤ n)
    (half : 2 * (place * m) ≤ 2 * n + place) : place * m * 2 ^ 53 ≤ n * (2 ^ 53 + 1) := by
  linarith

theorem units_nearestRank_le {num den : Nat} (positive : 0 < den)
    (normal : den * 2 ^ 52 ≤ num * unitsOfOne) :
    units (nearestRank num den) * den * 2 ^ 53 ≤ num * unitsOfOne * (2 ^ 53 + 1) := by
  obtain ⟨k, m, h⟩ := rounds num positive
  rw [h.product]
  exact half_place (h.enough normal) h.half

/-- What stays below the middle between the last magnitude and what would come after it, is rounded
    to a finite magnitude. -/
theorem nearestRank_lt {num den : Nat} (positive : 0 < den)
    (below : num * unitsOfOne + den * 2 ^ 2044 < 2 ^ 54 * (den * 2 ^ 2044)) :
    nearestRank num den < rankBound := by
  obtain ⟨k, m, h⟩ := rounds num positive
  have bound : rankBound = 2047 * 2 ^ 52 := rfl
  have last := h.last
  have half := h.half
  have twice (n : Nat) : den * 2 ^ (n + 1) = 2 * (den * 2 ^ n) := by rw [Nat.pow_succ]; ring
  have fourfold {n : Nat} (far : n + 1 < k) : 4 * (den * 2 ^ n) ≤ den * 2 ^ k := by
    have far : den * 2 ^ (n + 1 + 1) ≤ den * 2 ^ k :=
      Nat.mul_le_mul_left den (Nat.pow_le_pow_right (by decide) far)
    rw [twice, twice] at far
    omega
  rw [h.rank, bound]
  -- The last binade starts two binades before the bound.
  rcases Nat.lt_trichotomy k (2044 + 1) with before | rfl | beyond
  · omega
  · have inside : m < 2 ^ 53 := by
      by_contra full
      have top : den * 2 ^ (2044 + 1) * 2 ^ 53 ≤ den * 2 ^ (2044 + 1) * m :=
        Nat.mul_le_mul_left _ (Nat.le_of_not_lt full)
      rw [twice] at top half
      generalize den * 2 ^ 2044 = place, num * unitsOfOne = n at *
      linarith
    omega
  · have enough := h.first.resolve_left (by omega)
    have large := fourfold beyond
    generalize den * 2 ^ 2044 = place, num * unitsOfOne = n, den * 2 ^ k = last at *
    linarith

/-! ## Scaling -/

theorem unitsOfOne_pos : 0 < unitsOfOne := by
  apply Nat.two_pow_pos

theorem two_pow_le_unitsOfOne : 2 ^ 52 ≤ unitsOfOne := by
  apply Nat.pow_le_pow_right <;> decide

theorem units_rankOfNat_le {n : Nat} (positive : 0 < n) :
    units (rankOfNat n) * 2 ^ 53 ≤ n * unitsOfOne * (2 ^ 53 + 1) := by
  have normal : 1 * 2 ^ 52 ≤ n * unitsOfOne :=
    Nat.mul_le_mul positive two_pow_le_unitsOfOne
  have near := units_nearestRank_le Nat.one_pos normal
  rwa [Nat.mul_one] at near

/-- The significand and the power of ten are rounded each by itself, and their product once more.
    The bound leaves room for all three. -/
theorem mulRank_lt {s t : Nat} (hs : 0 < s) (ht : 0 < t)
    (below : s * t * unitsOfOne + 5 * 2 ^ 2044 ≤ 2 ^ 54 * 2 ^ 2044) :
    mulRank (rankOfNat s) (rankOfNat t) < rankBound := by
  have positive := unitsOfOne_pos
  have first := units_rankOfNat_le hs
  have second := units_rankOfNat_le ht
  have middle : 0 < 2 ^ 2044 := by positivity
  refine nearestRank_lt (Nat.mul_pos positive positive) ?_
  generalize units (rankOfNat s) = a, units (rankOfNat t) = b, 2 ^ 2044 = place,
    unitsOfOne = u at *
  have product : a * b * u * 2 ^ 106 ≤ s * t * u * (u * u) * (2 ^ 53 + 1) ^ 2 := by
    have scaled := Nat.mul_le_mul_right u (Nat.mul_le_mul first second)
    linarith
  have room := Nat.mul_le_mul_right (u * u) below
  have some : 0 < u * u * place := by positivity
  linarith

theorem scaledRank?_isSome {s n : Nat} (positive : 0 < s)
    (below : s * 10 ^ n * unitsOfOne + 5 * 2 ^ 2044 ≤ 2 ^ 54 * 2 ^ 2044) :
    (scaledRank? s n).isSome := by
  have few : n ≤ 308 := by
    by_contra many
    have large : 2 ^ 54 * 2 ^ 2044 < 10 ^ 309 * unitsOfOne := by decide +kernel
    have grown : 10 ^ 309 ≤ 10 ^ n := by
      apply Nat.pow_le_pow_right (by decide)
      omega
    have all : 10 ^ n ≤ s * 10 ^ n := Nat.le_mul_of_pos_left _ positive
    have product := Nat.mul_le_mul_right unitsOfOne (Nat.le_trans grown all)
    exact absurd (Nat.le_trans (Nat.le_add_right _ _) below)
      (Nat.not_le.2 (Nat.lt_of_lt_of_le large product))
  have finite : mulRank (rankOfNat s) (rankOfNat (Nat.pow 10 n)) < rankBound :=
    mulRank_lt positive (Nat.pow_pos (by decide)) below
  change (scaledRank? s (.ofNat n)).isSome
  rw [scaledRank?, if_pos few]
  dsimp only
  rw [if_pos finite]
  rfl

end LayeredPreferences.Binary64

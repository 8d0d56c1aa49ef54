import LayeredPreferences.Number.Shortest
import LayeredPreferences.Proofs.Number.Rounding
import Mathlib.Data.List.TakeWhile

set_option autoImplicit false

/-!
# Bounds of shortest decimals

The shortest decimal of a magnitude has no more than eighteen digits, and lies no higher than the
middle between the magnitude and the next one.
-/
namespace LayeredPreferences.Binary64

/-! ## Powers of ten on two sides -/

/-- A power of ten that stands on the left if it is above one and on the right if it is below, stands
    on the left when both sides are raised enough. -/
theorem raised_le_iff {a b k n : Nat} {e : Int} (h : (k : Int) = e + n) :
    a * 10 ^ e.toNat ≤ b * 10 ^ (-e).toNat ↔ a * 10 ^ k ≤ b * 10 ^ n := by
  have ten (i : Nat) : 0 < 10 ^ i := Nat.pow_pos (by decide)
  cases e with
  | ofNat m =>
    have exponents : k = m + n := by simp at h; omega
    have left : (Int.ofNat m).toNat = m := rfl
    have right : (-Int.ofNat m).toNat = 0 := by simp
    rw [exponents, left, right, Nat.pow_zero, Nat.mul_one, Nat.pow_add, ← Nat.mul_assoc,
      Nat.mul_le_mul_right_iff (ten n)]
  | negSucc m =>
    have exponents : n = (m + 1) + k := by omega
    have left : (Int.negSucc m).toNat = 0 := rfl
    have right : (-Int.negSucc m).toNat = m + 1 := rfl
    rw [exponents, left, right, Nat.pow_zero, Nat.mul_one, Nat.pow_add 10 (m + 1) k,
      ← Nat.mul_assoc, Nat.mul_le_mul_right_iff (ten k)]

/-! ## The first digit -/

theorem units_pos {rank : Nat} (positive : 0 < rank) : 0 < units rank :=
  Nat.lt_of_le_of_lt (Nat.zero_le _) (units_strictMono positive)

theorem length_toDigits_bounds {n k : Nat} (positive : 0 < n)
    (length : (Nat.toDigits 10 n).length = k + 1) : 10 ^ k ≤ n ∧ n < 10 ^ (k + 1) := by
  have atMost (j : Nat) (h : 0 < j) : (Nat.toDigits 10 n).length ≤ j ↔ n < 10 ^ j :=
    Nat.length_toDigits_le_iff (by decide) h
  refine ⟨?_, (atMost (k + 1) (by omega)).1 (by omega)⟩
  cases k with
  | zero => exact positive
  | succ k =>
    have above := mt (atMost (k + 1) (by omega)).2
    omega

theorem length_toDigits_eq {n k : Nat} (low : 10 ^ k ≤ n) (high : n < 10 ^ (k + 1)) :
    (Nat.toDigits 10 n).length = k + 1 := by
  have atMost (j : Nat) (h : 0 < j) : (Nat.toDigits 10 n).length ≤ j ↔ n < 10 ^ j :=
    Nat.length_toDigits_le_iff (by decide) h
  refine Nat.le_antisymm ((atMost (k + 1) (by omega)).2 high) ?_
  cases k with
  | zero => exact Nat.length_toDigits_pos
  | succ k =>
    have above := mt (atMost (k + 1) (by omega)).1
    omega

/-- What is dropped from the end of digits are zeros. -/
theorem exists_zeros (ds : List Char) : ∃ zeros,
    ds = (ds.reverse.dropWhile (· == '0')).reverse ++ List.replicate zeros '0' := by
  let dropped := ds.reverse.takeWhile (· == '0')
  have zeros : dropped = List.replicate dropped.length '0' := by
    refine List.eq_replicate_of_mem fun c hc => ?_
    simpa using List.mem_takeWhile_imp hc
  refine ⟨dropped.length, ?_⟩
  rw [← List.reverse_replicate, ← zeros, ← List.reverse_append,
    List.takeWhile_append_dropWhile, List.reverse_reverse]

/-- The magnitude lies between the powers of ten that its first digit stands for. -/
theorem leadingExponent_bounds {rank : Nat} (positive : 0 < rank) :
    ∃ k n : Nat, (k : Int) = leadingExponent rank + n ∧
      unitsOfOne * 10 ^ k ≤ units rank * 10 ^ n ∧
      units rank * 10 ^ n < unitsOfOne * 10 ^ (k + 1) := by
  have unit := unitsOfOne_pos
  -- The least magnitude is above `10 ^ -324`.
  let most := units rank * Nat.pow 10 324 / unitsOfOne
  obtain ⟨k, length⟩ : ∃ k, (Nat.toDigits 10 most).length = k + 1 :=
    Nat.exists_eq_add_one.2 Nat.length_toDigits_pos
  have some : 0 < most := by
    have fine : unitsOfOne ≤ Nat.pow 10 324 := by decide +kernel
    have least : Nat.pow 10 324 ≤ units rank * Nat.pow 10 324 :=
      Nat.le_mul_of_pos_left _ (units_pos positive)
    exact Nat.div_pos (Nat.le_trans fine least) unit
  have exponent : leadingExponent rank = (k + 1 : Nat) - 325 := by rw [← length]; rfl
  obtain ⟨low, high⟩ := length_toDigits_bounds some length
  refine ⟨k, 324, by omega, ?_, ?_⟩
  · rw [Nat.mul_comm]
    exact (Nat.le_div_iff_mul_le unit).1 low
  · rw [Nat.mul_comm unitsOfOne]
    exact (Nat.div_lt_iff_lt_mul unit).1 high

/-! ## Grids -/

/-- The part of a magnitude on the grid of `10 ^ e`. -/
def onGrid (rank : Nat) (e : Int) : Nat :=
  units rank * Nat.pow 10 (-e).toNat / (unitsOfOne * Nat.pow 10 e.toNat)

section Grids

variable {rank : Nat} {e : Int}

theorem onGrid_bounds (positive : 0 < rank) {i : Nat} (place : e + i = leadingExponent rank) :
    0 < onGrid rank e ∧ onGrid rank e < 10 ^ (i + 1) := by
  obtain ⟨k, n, sum, low, high⟩ := leadingExponent_bounds positive
  have raised (a : Nat) := raised_le_iff (a := a) (b := units rank) (k := k) (n := n + i) (e := e)
    (by omega)
  have ten : 0 < 10 ^ i := Nat.pow_pos (by decide)
  have grid : 0 < unitsOfOne * 10 ^ e.toNat := Nat.mul_pos unitsOfOne_pos (Nat.pow_pos (by decide))
  constructor
  · refine Nat.div_pos ((raised _).2 ?_) grid
    rw [Nat.pow_add, ← Nat.mul_assoc]
    exact Nat.le_trans low (Nat.le_mul_of_pos_right _ ten)
  · refine (Nat.div_lt_iff_lt_mul grid).2 (Nat.lt_of_not_le fun beyond => ?_)
    rw [← Nat.mul_assoc] at beyond
    have above := (raised _).1 beyond
    have below := Nat.mul_lt_mul_of_pos_right high ten
    refine absurd above (Nat.not_le.2 ?_)
    calc units rank * 10 ^ (n + i) = units rank * 10 ^ n * 10 ^ i := by rw [Nat.pow_add]; ring
      _ < unitsOfOne * 10 ^ (k + 1) * 10 ^ i := below
      _ = 10 ^ (i + 1) * unitsOfOne * 10 ^ k := by rw [Nat.pow_succ, Nat.pow_succ]; ring

theorem onGrid_le (rank : Nat) (e : Int) :
    onGrid rank e * 10 ^ e.toNat * unitsOfOne ≤ units rank * 10 ^ (-e).toNat := by
  have part := Nat.div_mul_le_self (units rank * 10 ^ (-e).toNat) (unitsOfOne * 10 ^ e.toNat)
  rw [Nat.mul_assoc, Nat.mul_comm (10 ^ _)]
  exact part

/-- Which decimal is chosen on a grid. -/
theorem onGrid?_eq_some {half : HalfRule} {c : Nat} (h : onGrid? half rank e = some c) :
    (c = onGrid rank e ∨ c = onGrid rank e + 1) ∧ readsBack rank c e := by
  unfold onGrid? at h
  dsimp only at h
  split at h
  · cases h
  · rename_i below _
    cases h
    exact ⟨.inl rfl, below⟩
  · rename_i _ above
    cases h
    exact ⟨.inr rfl, above⟩
  · rename_i below above
    split_ifs at h
    · cases h
      exact ⟨.inl rfl, below⟩
    · cases h
      exact ⟨.inr rfl, above⟩
    · cases half with
      | even =>
        have chosen : onGrid rank e + onGrid rank e % 2 = c := Option.some.inj h
        have neighbour : c = onGrid rank e ∨ c = onGrid rank e + 1 := by omega
        refine ⟨neighbour, ?_⟩
        rcases neighbour with rfl | rfl
        · exact below
        · exact above
      | up =>
        cases h
        exact ⟨.inr rfl, above⟩

/-- Twice the decimal is at most the magnitude and the next one. -/
structure Near (rank : Nat) (d : Decimal) : Prop where
  positive : 0 < d.coefficient
  few : d.coefficient ≤ 10 ^ 18
  high : d.coefficient * 10 ^ d.exponent.toNat * (2 * unitsOfOne)
    ≤ (units rank + units (rank + 1)) * 10 ^ (-d.exponent).toNat

theorem readsBack_high {c : Nat} (h : readsBack rank c e) :
    c * 10 ^ e.toNat * (2 * unitsOfOne) ≤ (units rank + units (rank + 1)) * 10 ^ (-e).toNat := by
  unfold readsBack at h
  dsimp only [crossScaled] at h
  split_ifs at h
  · simp only [Bool.and_eq_true, decide_eq_true_eq] at h
    exact h.2
  · simp only [Bool.and_eq_true, decide_eq_true_eq] at h
    exact Nat.le_of_lt h.2

/-- With each grid the decimal has one digit more. -/
theorem near_shortestFrom (half : HalfRule) (positive : 0 < rank) (more : Nat) {i : Nat}
    (place : e + i = leadingExponent rank) (few : i + more ≤ 17) :
    Near rank (shortestFrom half rank e more) := by
  induction more generalizing e i with
  | zero =>
    obtain ⟨some, bound⟩ := onGrid_bounds positive place
    have digits : 10 ^ (i + 1) ≤ 10 ^ 18 := Nat.pow_le_pow_right (by decide) (by omega)
    have low := onGrid_le rank e
    have next : units rank ≤ units (rank + 1) := Nat.le_of_lt (units_succ rank)
    refine ⟨some, Nat.le_of_lt (Nat.lt_of_lt_of_le bound digits), ?_⟩
    calc onGrid rank e * 10 ^ e.toNat * (2 * unitsOfOne)
        = 2 * (onGrid rank e * 10 ^ e.toNat * unitsOfOne) := by ring
      _ ≤ 2 * (units rank * 10 ^ (-e).toNat) := Nat.mul_le_mul_left 2 low
      _ = (units rank + units rank) * 10 ^ (-e).toNat := by ring
      _ ≤ (units rank + units (rank + 1)) * 10 ^ (-e).toNat :=
        Nat.mul_le_mul_right _ (Nat.add_le_add_left next _)
  | succ more ih =>
    unfold shortestFrom
    cases found : onGrid? half rank e with
    | none => exact ih (i := i + 1) (by omega) (by omega)
    | some c =>
      obtain ⟨neighbour, reads⟩ := onGrid?_eq_some found
      obtain ⟨some, bound⟩ := onGrid_bounds positive place
      have digits : 10 ^ (i + 1) ≤ 10 ^ 18 := Nat.pow_le_pow_right (by decide) (by omega)
      refine ⟨?_, ?_, readsBack_high reads⟩
      · dsimp only
        omega
      · dsimp only
        omega

theorem near_shortest (half : HalfRule) (positive : 0 < rank) : Near rank (shortest half rank) :=
  near_shortestFrom half positive 17 (i := 0) (by simp) (by decide)

/-- A decimal near a magnitude is read as a finite one, wherever zeros at its end are counted. The
    two last magnitudes are too close to the bound for this argument. -/
theorem Near.scaledRank?_isSome {d : Decimal} (near : Near rank d) (low : rank + 3 ≤ rankBound)
    {s z n : Nat} (stripped : d.coefficient = s * 10 ^ z) (place : (n : Int) = d.exponent + z) :
    (scaledRank? s n).isSome := by
  have ten : 0 < 10 ^ z := Nat.pow_pos (by decide)
  have some : 0 < s := Nat.pos_of_mul_pos_right (stripped ▸ near.positive)
  refine Binary64.scaledRank?_isSome some ?_
  have high := near.high
  rw [Nat.mul_right_comm, raised_le_iff place, stripped] at high
  have middle : s * 10 ^ n * (2 * unitsOfOne) ≤ units rank + units (rank + 1) := by
    refine Nat.le_of_mul_le_mul_right ?_ ten
    calc s * 10 ^ n * (2 * unitsOfOne) * 10 ^ z
        = s * 10 ^ z * (2 * unitsOfOne) * 10 ^ n := by ring
      _ ≤ (units rank + units (rank + 1)) * 10 ^ z := high
  have first : units rank ≤ units (rankBound - 3) := units_strictMono.monotone (by omega)
  have second : units (rank + 1) ≤ units (rankBound - 2) := units_strictMono.monotone (by omega)
  have sum : units (rankBound - 3) + units (rankBound - 2) + 10 * 2 ^ 2044 = 2 ^ 55 * 2 ^ 2044 := by
    decide +kernel
  generalize units (rankBound - 3) = a, units (rankBound - 2) = b, 2 ^ 2044 = place at *
  linarith

/-- The same for the two last magnitudes, whose decimals do not end in zeros. -/
theorem scaledRank?_isSome_last {c e s z n : Nat} (stripped : c = s * 10 ^ z) (nonzero : c % 10 ≠ 0)
    (place : (n : Int) = e + z) (finite : (scaledRank? c e).isSome) : (scaledRank? s n).isSome := by
  cases z with
  | zero =>
    have same : n = e := by omega
    rw [same]
    simpa [stripped] using finite
  | succ z =>
    rw [Nat.pow_succ, ← Nat.mul_assoc] at stripped
    omega

theorem scaledRank?_shortest (positive : 0 < rank) (bound : rank < rankBound) {s z n : Nat}
    (stripped : (shortest .even rank).coefficient = s * 10 ^ z)
    (place : (n : Int) = (shortest .even rank).exponent + z) : (scaledRank? s n).isSome := by
  by_cases low : rank + 3 ≤ rankBound
  · exact (near_shortest .even positive).scaledRank?_isSome low stripped place
  · have last : rank = rankBound - 2 ∨ rank = rankBound - 1 := by omega
    rcases last with rfl | rfl
    · have decimal : shortest .even (rankBound - 2) = ⟨17976931348623155, (292 : Nat)⟩ := by
        decide +kernel
      rw [decimal] at stripped place
      exact scaledRank?_isSome_last stripped (by decide) place (by decide +kernel)
    · have decimal : shortest .even (rankBound - 1) = ⟨17976931348623157, (292 : Nat)⟩ := by
        decide +kernel
      rw [decimal] at stripped place
      exact scaledRank?_isSome_last stripped (by decide) place (by decide +kernel)

end Grids

end LayeredPreferences.Binary64

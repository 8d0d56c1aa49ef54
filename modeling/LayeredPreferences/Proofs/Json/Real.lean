import LayeredPreferences.Proofs.Json.Spelling
import LayeredPreferences.Proofs.Number.Shortest

set_option autoImplicit false

/-!
# Written reals are read as reals

The text of a finite real is a number with a fraction or a power of ten, all its digits find room in
the significand, and they tell the shortest decimal. What is read is a real again, if not always the
same one.
-/
namespace LayeredPreferences.Json

open Binary64

/-! ## Digits -/

/-- The digits of a number up to the last that is no zero. -/
structure Figures (n : Nat) (digits : List Char) (zeros : Nat) : Prop where
  all : Nat.toDigits 10 n = digits ++ List.replicate zeros '0'
  front : ∃ c cs, digits = c :: cs ∧ c ≠ '0'

theorem figures {n : Nat} (positive : 0 < n) : ∃ zeros,
    Figures n ((Nat.toDigits 10 n).reverse.dropWhile (· == '0')).reverse zeros := by
  obtain ⟨zeros, all⟩ := exists_zeros (Nat.toDigits 10 n)
  obtain ⟨c, ds, digits, nonzero⟩ := head_toDigits positive
  generalize ((Nat.toDigits 10 n).reverse.dropWhile (· == '0')).reverse = kept at all ⊢
  refine ⟨zeros, all, ?_⟩
  cases kept with
  | nil =>
    -- Then all digits are zeros, but the first is none.
    have mem : c ∈ List.replicate zeros '0' := by
      rw [List.nil_append] at all
      rw [← all, digits]
      exact List.mem_cons_self
    exact absurd (List.eq_of_mem_replicate mem) nonzero
  | cons k kept =>
    rw [digits] at all
    exact ⟨k, kept, rfl, (List.cons.inj all).1 ▸ nonzero⟩

namespace Figures

variable {n zeros : Nat} {ds : List Char}

theorem digits (h : Figures n ds zeros) : ∀ c ∈ ds, c.isDigit := by
  intro c hc
  refine isDigit_toDigits (n := n) ?_
  rw [h.all]
  exact List.mem_append_left _ hc

theorem value (h : Figures n ds zeros) : n = Nat.ofDigitChars 10 ds 0 * 10 ^ zeros := by
  have same := congrArg (Nat.ofDigitChars 10 · 0) h.all
  simpa [Nat.ofDigitChars_append, Nat.ofDigitChars_replicate_zero, Nat.mul_comm] using same

theorem value_le (h : Figures n ds zeros) : Nat.ofDigitChars 10 ds 0 ≤ n := by
  have product := h.value
  have grown := Nat.le_mul_of_pos_right (Nat.ofDigitChars 10 ds 0)
    (Nat.pow_pos (by decide) : 0 < 10 ^ zeros)
  omega

theorem magnitude (h : Figures n ds zeros) (e : Int) :
    (n : ℚ) * 10 ^ e = Nat.ofDigitChars 10 ds 0 * 10 ^ (e + zeros) := by
  rw [zpow_add₀ (by norm_num), zpow_natCast, mul_comm ((10 : ℚ) ^ e), ← mul_assoc]
  exact congrArg (· * (10 : ℚ) ^ e) (by exact_mod_cast h.value)

end Figures

/-! ## Forms -/

/-- A literal that is read as a real. -/
structure Readable (l : Literal) : Prop extends l.WellFormed where
  part : l.fraction ≠ [] ∨ l.power ≠ none
  fits : l.significand < Nat.pow 2 64
  finite : (scaledRank? l.significand l.exponent).isSome

/-- Digits that are written without a sign are those of a literal with either sign, and tell this
magnitude. -/
def ReadableText (text : List Char) (q : ℚ) : Prop :=
  ∀ negative, ∃ l : Literal, Readable l ∧ l.negative = negative ∧ l.whole ++ l.afterWhole = text ∧
    l.magnitude = q

theorem scaledRank?_below {s : Nat} {e : Int} (h : e < 0) : (scaledRank? s e).isSome := by
  cases e with
  | ofNat n => exact absurd h (by simp)
  | negSucc n => rfl

section Forms

variable {n zeros : Nat} {ds : List Char} {e : Int}

/-- Digits with zeros between the point and them. -/
theorem small_readable (h : Figures n ds zeros) (fits : n < Nat.pow 2 64) {k : Nat}
    (place : e + zeros = -(k + ds.length : Nat)) :
    ReadableText ('0' :: '.' :: (List.replicate k '0' ++ ds)) (n * 10 ^ e) := by
  intro negative
  obtain ⟨c, cs, front, -⟩ := h.front
  let l : Literal := ⟨negative, ['0'], List.replicate k '0' ++ ds, none⟩
  have some : l.fraction ≠ [] := by simp [l, front]
  have value : l.significand = Nat.ofDigitChars 10 ds 0 := by
    simp [l, Literal.significand, Nat.ofDigitChars_cons, Nat.ofDigitChars_append]
  have wellFormed : l.WellFormed := by
    refine ⟨by simp [l], .inl rfl, fun d hd => ?_, by simp [l]⟩
    rcases List.mem_append.1 hd with zero | digit
    · rw [List.eq_of_mem_replicate zero]
      rfl
    · exact h.digits d digit
  have power : l.exponent = e + zeros := by
    rw [place]
    simp [Literal.exponent, Literal.shift, l]
  refine ⟨l, ⟨wellFormed, .inl some, ?_, scaledRank?_below ?_⟩, rfl, ?_, ?_⟩
  · rw [value]
    exact Nat.lt_of_le_of_lt h.value_le fits
  · have length := List.length_pos_iff.2 some
    change 0 - (l.fraction.length : Int) < 0
    omega
  · rw [Literal.afterWhole_fraction some]
    simp [l, Literal.scale]
  · rw [Literal.magnitude, value, power, h.magnitude]

/-- Digits with zeros between them and the point, and one behind it. -/
theorem large_readable (h : Figures n ds zeros) {k : Nat} (few : ds.length + k ≤ 18)
    (place : e + zeros = k) :
    ReadableText (ds ++ List.replicate k '0' ++ ['.', '0']) (n * 10 ^ e) := by
  intro negative
  obtain ⟨c, cs, front, nonzero⟩ := h.front
  let l : Literal := ⟨negative, ds ++ List.replicate k '0', ['0'], none⟩
  have wellFormed : l.WellFormed := by
    refine ⟨fun d hd => ?_, .inr ⟨c, cs ++ List.replicate k '0', by simp [l, front], nonzero⟩,
      by simp [l], by simp [l]⟩
    rcases List.mem_append.1 hd with digit | zero
    · exact h.digits d digit
    · rw [List.eq_of_mem_replicate zero]
      rfl
  have value : l.significand = Nat.ofDigitChars 10 ds 0 * 10 ^ (k + 1) := by
    simp [l, Literal.significand, Nat.ofDigitChars_append, Nat.ofDigitChars_cons, Nat.pow_succ]
    ring
  have power : l.exponent = -1 := rfl
  refine ⟨l, ⟨wellFormed, .inl (by simp [l]), ?_, scaledRank?_below (by rw [power]; decide)⟩, rfl, rfl,
    ?_⟩
  swap
  · rw [Literal.magnitude, value, power, h.magnitude, place]
    push_cast
    rw [pow_succ, zpow_natCast, zpow_neg_one, ← mul_assoc, mul_inv_cancel_right₀ (by norm_num)]
  calc l.significand = Nat.ofDigitChars 10 ds 0 * 10 ^ (k + 1) := value
    _ < 10 ^ ds.length * 10 ^ (k + 1) :=
        Nat.mul_lt_mul_of_pos_right (ofDigitChars_lt h.digits) (by positivity)
    _ = 10 ^ (ds.length + k + 1) := by rw [← Nat.pow_add]; rfl
    _ ≤ 10 ^ 19 := Nat.pow_le_pow_right (by decide) (by omega)
    _ ≤ Nat.pow 2 64 := by decide

/-- Digits with the point between them. -/
theorem parted_readable (h : Figures n ds zeros) (fits : n < Nat.pow 2 64) {k : Nat}
    (inside : k + 1 < ds.length) (place : e + zeros = (k + 1 : Nat) - ds.length) :
    ReadableText (ds.take (k + 1) ++ '.' :: ds.drop (k + 1)) (n * 10 ^ e) := by
  intro negative
  obtain ⟨c, cs, front, nonzero⟩ := h.front
  let l : Literal := ⟨negative, ds.take (k + 1), ds.drop (k + 1), none⟩
  have some : l.fraction ≠ [] := by simp [l]; omega
  have wellFormed : l.WellFormed := by
    refine ⟨fun d hd => h.digits d (List.mem_of_mem_take hd), .inr ⟨c, cs.take k, ?_, nonzero⟩,
      fun d hd => h.digits d (List.mem_of_mem_drop hd), by simp [l]⟩
    simp [l, front]
  have value : l.significand = Nat.ofDigitChars 10 ds 0 := by
    simp [l, Literal.significand, List.take_append_drop]
  have power : l.exponent = e + zeros := by
    rw [place]
    simp [Literal.exponent, Literal.shift, l]
    omega
  refine ⟨l, ⟨wellFormed, .inl some, ?_, scaledRank?_below ?_⟩, rfl, ?_, ?_⟩
  · rw [value]
    exact Nat.lt_of_le_of_lt h.value_le fits
  · have length := List.length_pos_iff.2 some
    change 0 - (l.fraction.length : Int) < 0
    omega
  · rw [Literal.afterWhole_fraction some]
    simp [l, Literal.scale]
  · rw [Literal.magnitude, value, power, h.magnitude]

theorem placed_readable (h : Figures n ds zeros) (fits : n < Nat.pow 2 64) {exponent : Int}
    (place : exponent = e + (ds.length + zeros : Nat) - 1) (few : exponent ≤ 15) :
    ReadableText (realNotation.placed ds exponent) (n * 10 ^ e) := by
  unfold Notation.placed
  dsimp only
  split_ifs with small whole
  · exact small_readable h fits (by omega)
  · exact large_readable h (by omega) (by omega)
  · exact parted_readable h fits (by omega) (by omega)

theorem scientific_readable (h : Figures n ds zeros) (fits : n < Nat.pow 2 64) {exponent : Int}
    (place : exponent = e + (ds.length + zeros : Nat) - 1)
    (finite : ∀ k : Nat, (k : Int) = e + zeros →
      (scaledRank? (Nat.ofDigitChars 10 ds 0) k).isSome) :
    ReadableText (Notation.scientific ds exponent) (n * 10 ^ e) := by
  intro negative
  obtain ⟨c, cs, front, nonzero⟩ := h.front
  let l : Literal := ⟨negative, [c], cs, some (exponent < 0, Nat.toDigits 10 exponent.natAbs)⟩
  have wellFormed : l.WellFormed := by
    refine ⟨fun d hd => h.digits d ?_, .inr ⟨c, [], rfl, nonzero⟩, fun d hd => h.digits d ?_, ?_⟩
    · rw [front, List.mem_singleton.1 hd]
      exact List.mem_cons_self
    · rw [front]
      exact List.mem_cons_of_mem c hd
    · rintro p ⟨⟩
      exact ⟨Nat.toDigits_ne_nil, fun _ => isDigit_toDigits⟩
  have value : l.significand = Nat.ofDigitChars 10 ds 0 := by
    rw [front]
    rfl
  have shift : l.shift = exponent := by
    change (if decide (exponent < 0) then
        -(Nat.ofDigitChars 10 (Nat.toDigits 10 exponent.natAbs) 0 : Int)
      else _) = exponent
    rw [Nat.ofDigitChars_ten_toDigits]
    split_ifs with below
    all_goals
      simp at below
      omega
  have power : l.exponent = e + zeros := by
    have length : ds.length = cs.length + 1 := by rw [front]; rfl
    change l.shift - (cs.length : Int) = _
    omega
  refine ⟨l, ⟨wellFormed, .inr (by simp [l]), ?_, ?_⟩, rfl, ?_, ?_⟩
  · rw [value]
    exact Nat.lt_of_le_of_lt h.value_le fits
  · rw [value, power]
    cases sum : e + zeros with
    | ofNat k => exact finite k sum.symm
    | negSucc k => rfl
  · rw [front]
    unfold Notation.scientific Literal.afterWhole
    cases cs with
    | nil => by_cases below : exponent < 0 <;> simp [l, Literal.scale, below]
    | cons d cs => by_cases below : exponent < 0 <;> simp [l, Literal.scale, below]
  · rw [Literal.magnitude, value, power, h.magnitude]

theorem decimal_readable {d : Decimal} (positive : 0 < d.coefficient)
    (fits : d.coefficient < Nat.pow 2 64)
    (finite : ∀ {s z k : Nat}, d.coefficient = s * 10 ^ z → (k : Int) = d.exponent + z →
      (scaledRank? s k).isSome) :
    ReadableText (realNotation.decimal d) (d.coefficient * 10 ^ d.exponent) := by
  obtain ⟨zeros, h⟩ := figures positive
  have length : (Nat.toDigits 10 d.coefficient).length
      = ((Nat.toDigits 10 d.coefficient).reverse.dropWhile (· == '0')).reverse.length + zeros := by
    have same := congrArg List.length h.all
    rwa [List.length_append, List.length_replicate] at same
  unfold Notation.decimal
  dsimp only
  split_ifs with inPlace
  · refine placed_readable h fits (by omega) ?_
    simp only [realNotation, Bool.and_eq_true, decide_eq_true_eq] at inPlace
    exact inPlace.2
  · refine scientific_readable h fits (by omega) fun k place => ?_
    exact finite h.value place

end Forms

theorem zero_readable : ReadableText ('0' :: realNotation.whole) 0 := by
  intro negative
  have zero : Nat.ofDigitChars 10 ['0', '0'] 0 < Nat.pow 2 64 := by decide
  exact ⟨⟨negative, ['0'], ['0'], none⟩,
    ⟨⟨by simp, .inl rfl, by simp, by simp⟩, .inl (by simp), zero, rfl⟩, rfl, rfl, by
      simp [Literal.magnitude, Literal.significand, Nat.ofDigitChars]⟩

/-- The magnitude that is told for a rank. -/
def told (rank : Nat) : ℚ :=
  if rank = 0 then 0 else (shortest .even rank).coefficient * 10 ^ (shortest .even rank).exponent

theorem shortest_readable {rank : Nat} (positive : 0 < rank) (bound : rank < rankBound) :
    ReadableText (realNotation.decimal (shortest .even rank))
      ((shortest .even rank).coefficient * 10 ^ (shortest .even rank).exponent) := by
  have near := near_shortest .even positive
  exact decimal_readable near.positive (Nat.lt_of_le_of_lt near.few (by decide))
    (scaledRank?_shortest positive bound)

theorem writeReal_told (negative : Bool) (rank : Fin rankBound) :
    ∃ l : Literal, Readable l ∧ l.text = writeReal (.finite negative rank) ∧
      l.negative = negative ∧ l.magnitude = told rank := by
  have magnitude : ReadableText (if rank.val = 0 then '0' :: realNotation.whole
      else realNotation.decimal (shortest .even rank.val)) (told rank) := by
    unfold told
    split_ifs with zero
    · exact zero_readable
    · exact shortest_readable (Nat.pos_of_ne_zero zero) rank.isLt
  obtain ⟨l, readable, sign, text, value⟩ := magnitude negative
  refine ⟨l, readable, ?_, sign, value⟩
  unfold Literal.text writeReal Notation.write
  rw [text, sign]
  cases negative <;> rfl

theorem writeReal_readable {x : Binary64} (finite : x.isFinite) :
    ∃ l : Literal, Readable l ∧ l.text = writeReal x := by
  cases x with
  | infinite negative => cases finite
  | notANumber => cases finite
  | finite negative rank =>
    obtain ⟨l, readable, text, -⟩ := writeReal_told negative rank
    exact ⟨l, readable, text⟩

theorem Readable.number {l : Literal} (h : Readable l) {rank : Nat}
    (read : scaledRank? l.significand l.exponent = some rank) {rest : Source}
    (ends : EndsNumber rest) :
    Json.number (l.text.map .char ++ rest) = .ok (.real (.ofRank l.negative rank), rest) := by
  rw [Literal.text_eq_spelled, Literal.number_real h.toWellFormed h.part h.fits false true ends,
    real, read]
  rfl

theorem writeReal_not_finite {x : Binary64} (h : ¬ x.isFinite) : writeReal x = nullWord := by
  cases x with
  | finite => exact absurd rfl h
  | infinite => rfl
  | notANumber => rfl

end LayeredPreferences.Json

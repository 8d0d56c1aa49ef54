import LayeredPreferences.Proofs.Json.Numeral
import LayeredPreferences.Proofs.Number.Nearness

set_option autoImplicit false

/-!
# Numbers of any length

A number may have more digits than there is room for. What is read of it then has the
digits that found room, and the power of ten that goes with them.
-/
namespace LayeredPreferences.Json

open Binary64

namespace Literal

/-- What the number is without its sign. -/
def magnitude (l : Literal) : ℚ := l.significand * 10 ^ l.exponent

def value (l : Literal) : ℚ := if l.negative then -l.magnitude else l.magnitude

end Literal

/-! ## Digits -/

section Digits

variable {ds : List Char} {s : Nat}

/-- Digits are taken up to the first that finds no room. -/
structure Parts (s : Nat) (ds front back : List Char) : Prop where
  all : ds = front ++ back
  fits : Nat.ofDigitChars 10 front s < 2 ^ 64
  full : back ≠ [] → 2 ^ 64 ≤ 10 * Nat.ofDigitChars 10 front s + 9
  beyond : back ≠ [] → 2 ^ 64 ≤ Nat.ofDigitChars 10 ds s

theorem digit_le {c : Char} (digit : c.isDigit) : c.toNat - '0'.toNat ≤ 9 := by
  simp only [Char.isDigit, Bool.and_eq_true, decide_eq_true_eq] at digit
  have last : c.toNat ≤ 57 := digit.2
  change c.toNat - 48 ≤ 9
  omega

theorem significand_parts (digits : ∀ c ∈ ds, c.isDigit) (fits : s < 2 ^ 64) :
    ∃ front back, Parts s ds front back ∧ ∀ (taken : Nat) (rest : Source), EndsDigits rest →
      significand s taken (ds.map .char ++ rest) = (Nat.ofDigitChars 10 front s,
        taken + front.length, back.map .char ++ rest) := by
  -- Over the digits, for every significand that has been read so far and fits.
  induction ds generalizing s with
  | nil =>
    refine ⟨[], [], ⟨rfl, fits, by simp, by simp⟩, fun taken rest ends => ?_⟩
    cases rest with
    | nil => rfl
    | cons g rest =>
      have stop := ends g (by simp)
      simp [significand, stop]
  | cons c ds ih =>
    have first := digit?_of_isDigit (digits c (by simp))
    have others : ∀ c ∈ ds, c.isDigit := fun c hc => digits c (by simp [hc])
    have least := le_ofDigitChars ds (10 * s + (c.toNat - '0'.toNat))
    have small := digit_le (digits c (by simp))
    by_cases room : 10 * s + (c.toNat - '0'.toNat) < Nat.pow 2 64
    · obtain ⟨front, back, parts, read⟩ := ih others room
      refine ⟨c :: front, back, ⟨by rw [parts.all]; rfl, ?_, ?_, ?_⟩, fun taken rest ends => ?_⟩
      · rw [Nat.ofDigitChars_cons]
        exact parts.fits
      · rw [Nat.ofDigitChars_cons]
        exact parts.full
      · rw [Nat.ofDigitChars_cons]
        exact parts.beyond
      · rw [List.map_cons, List.cons_append, significand]
        simp only [first]
        rw [if_pos room, read _ rest ends, Nat.ofDigitChars_cons, List.length_cons, Nat.add_assoc,
          Nat.add_comm 1]
    · have past : 2 ^ 64 ≤ 10 * s + (c.toNat - '0'.toNat) := Nat.le_of_not_lt room
      refine ⟨[], c :: ds, ⟨rfl, fits, fun _ => ?_, fun _ => ?_⟩, fun taken rest _ => ?_⟩
      · rw [Nat.ofDigitChars_nil]
        omega
      · rw [Nat.ofDigitChars_cons]
        omega
      · rw [List.map_cons, List.cons_append, significand]
        simp only [first]
        rw [if_neg room]
        rfl

theorem ofDigitChars_lt (digits : ∀ c ∈ ds, c.isDigit) :
    Nat.ofDigitChars 10 ds 0 < 10 ^ ds.length := by
  induction ds using List.reverseRecOn with
  | nil => simp
  | append_singleton ds c ih =>
    have small := digit_le (digits c (by simp))
    have others := ih fun c hc => digits c (by simp [hc])
    rw [Nat.ofDigitChars_append, Nat.ofDigitChars_cons, Nat.ofDigitChars_nil, List.length_append,
      List.length_singleton, Nat.pow_succ]
    omega

/-- Digits after the first ones change less than one of their last place. -/
theorem ofDigitChars_bounds (digits : ∀ c ∈ ds, c.isDigit) (p : Nat) (k : Int) :
    (p * 10 ^ k : ℚ) ≤ Nat.ofDigitChars 10 ds p * 10 ^ (k - ds.length) ∧
      (Nat.ofDigitChars 10 ds p * 10 ^ (k - ds.length) : ℚ) < (p + 1) * 10 ^ k := by
  have less := ofDigitChars_lt digits
  have power : (0 : ℚ) < 10 ^ (k - ds.length) := by positivity
  have whole : (10 : ℚ) ^ k = 10 ^ ds.length * 10 ^ (k - ds.length) := by
    rw [← zpow_natCast, ← zpow_add₀ (by norm_num), add_sub_cancel]
  rw [Nat.ofDigitChars_eq_ofDigitChars_zero, whole, ← mul_assoc, ← mul_assoc]
  generalize Nat.ofDigitChars 10 ds 0 = after, (10 : ℚ) ^ (k - ds.length) = place at *
  have low : p * 10 ^ ds.length ≤ 10 ^ ds.length * p + after := by
    rw [Nat.mul_comm]
    exact Nat.le_add_right _ _
  have high : 10 ^ ds.length * p + after < (p + 1) * 10 ^ ds.length := by
    rw [Nat.add_mul, Nat.one_mul, Nat.mul_comm]
    omega
  constructor
  · exact mul_le_mul_of_nonneg_right (by exact_mod_cast low) power.le
  · exact mul_lt_mul_of_pos_right (by exact_mod_cast high) power

end Digits

/-! ## Reading -/

section Reading

variable (negative : Bool) {l : Literal} {rest : Source}

namespace Literal

theorem power_spelled (wellFormed : l.WellFormed) {down : Bool} {digits : List Char}
    (power : l.power = some (down, digits)) (plus : Bool) (s : Nat) (e : Int)
    (ends : EndsDigits rest) :
    Json.power negative s e ((powerSign down plus ++ digits).map .char ++ rest)
      = real negative s (e + l.shift) rest := by
  obtain ⟨nonempty, isDigits⟩ := wellFormed.power _ power
  obtain ⟨c, cs, rfl⟩ := List.exists_cons_of_ne_nil nonempty
  have first : (digit? (.char c)).isSome := by
    rw [digit?_of_isDigit (isDigits c (by simp))]
    rfl
  have value := natural_digits isDigits 0 ends
  have shift : l.shift = if down then -(Nat.ofDigitChars 10 (c :: cs) 0 : Int)
      else Nat.ofDigitChars 10 (c :: cs) 0 := by
    rw [Literal.shift, power]
  rw [List.map_cons, List.cons_append] at value
  rw [shift]
  cases down with
  | true =>
    simp only [powerSign, if_true, List.cons_append, List.nil_append, List.map_cons, Json.power,
      first]
    rw [value]
    rfl
  | false =>
    cases plus with
    | true =>
      simp only [powerSign, if_true, if_false, Bool.false_eq_true, List.cons_append,
        List.nil_append, List.map_cons, Json.power, first]
      rw [value]
    | false =>
      have digit := isDigits c (by simp)
      have noPlus : c ≠ '+' := by
        rintro rfl
        exact absurd digit (by decide)
      have noMinus : c ≠ '-' := by
        rintro rfl
        exact absurd digit (by decide)
      simp [powerSign, Json.power, noPlus, noMinus, first, value]

theorem spelledScale_none (none : l.power = none) (capital plus : Bool) :
    l.spelledScale capital plus = [] := by
  rw [spelledScale, none]

theorem spelledScale_some {down : Bool} {digits : List Char} (power : l.power = some (down, digits))
    (capital plus : Bool) : l.spelledScale capital plus
      = (if capital then 'E' else 'e') :: (powerSign down plus ++ digits) := by
  rw [spelledScale, power]

theorem shift_none (none : l.power = none) : l.shift = 0 := by
  rw [shift, none]

theorem countDigits_back {back : List Char} (digits : ∀ c ∈ back, c.isDigit)
    (ends : EndsDigits rest) : countDigits 0 (back.map .char ++ rest) = (back.length, rest) := by
  rw [countDigits_digits digits 0 ends, Nat.zero_add]

theorem fraction_spelled (wellFormed : l.WellFormed) (some : l.fraction ≠ []) {s : Nat}
    (fits : s < 2 ^ 64) (skipped : Nat) (capital plus : Bool) :
    ∃ front back, Parts s l.fraction front back ∧ ∀ rest, EndsNumber rest →
      Json.fraction negative s skipped
          (l.fraction.map .char ++ ((l.spelledScale capital plus).map .char ++ rest))
        = real negative (Nat.ofDigitChars 10 front s) (skipped - front.length + l.shift) rest := by
  obtain ⟨front, back, parts, read⟩ := significand_parts wellFormed.fraction fits
  have behind : ∀ c ∈ back, c.isDigit := by
    intro c member
    exact wellFormed.fraction c (parts.all ▸ List.mem_append_right front member)
  have digit : ¬ (0 + front.length = 0 ∧ back.length = 0) := by
    rintro ⟨none, nothing⟩
    apply some
    have first := List.eq_nil_of_length_eq_zero (show front.length = 0 by omega)
    rw [parts.all, first, List.eq_nil_of_length_eq_zero nothing]
    rfl
  refine ⟨front, back, parts, fun rest ends => ?_⟩
  have next := endsDigits_spelledScale (l := l) capital plus ends
  unfold Json.fraction
  rw [read 0 _ next]
  dsimp only
  rw [countDigits_back behind next]
  dsimp only
  rw [if_neg digit, Nat.zero_add]
  cases power : l.power with
  | none =>
    rw [spelledScale_none power, List.map_nil, List.nil_append, shift_none power, add_zero]
    split
    · exact absurd rfl (ends (.char 'e') rfl).2.2.1
    · exact absurd rfl (ends (.char 'E') rfl).2.2.2
    · rfl
  | some p =>
    have scaled := power_spelled negative wellFormed power plus (Nat.ofDigitChars 10 front s)
      (skipped - front.length) ends.endsDigits
    rw [spelledScale_some power]
    cases capital with
    | true => exact scaled
    | false => exact scaled

/-- After the digits before the point, the last `skipped` of which found no room. -/
theorem afterInteger_spelled (wellFormed : l.WellFormed) {s : Nat} (fits : s < 2 ^ 64)
    (skipped : Nat) (capital plus : Bool) :
    (l.fraction = [] ∧ l.power = none ∧ skipped = 0 ∧ ∀ rest, EndsNumber rest →
      afterInteger negative s skipped ((l.spelledAfterWhole capital plus).map .char ++ rest)
        = .ok (integral negative s, rest)) ∨
    ∃ front back, Parts s l.fraction front back ∧ (l.fraction = [] → l.power = none → skipped ≠ 0) ∧
      ∀ rest, EndsNumber rest →
        afterInteger negative s skipped ((l.spelledAfterWhole capital plus).map .char ++ rest)
          = real negative (Nat.ofDigitChars 10 front s) (skipped - front.length + l.shift) rest := by
  unfold spelledAfterWhole
  by_cases fraction : l.fraction = []
  · have parts : Parts s l.fraction [] [] := ⟨fraction, fits, by simp, by simp⟩
    rw [if_pos fraction, List.nil_append]
    cases power : l.power with
    | none =>
      rw [spelledScale_none power, List.map_nil]
      by_cases all : skipped = 0
      · rw [all]
        exact .inl ⟨fraction, rfl, rfl, fun rest ends => afterInteger_integral negative s ends⟩
      · refine .inr ⟨[], [], parts, fun _ _ => all, fun rest ends => ?_⟩
        rw [List.nil_append, shift_none power]
        unfold afterInteger
        split
        · exact absurd rfl (ends (.char '.') rfl).2.1
        · exact absurd rfl (ends (.char 'e') rfl).2.2.1
        · exact absurd rfl (ends (.char 'E') rfl).2.2.2
        · simp [all]
    | some p =>
      refine .inr ⟨[], [], parts, by simp, fun rest ends => ?_⟩
      have scaled := power_spelled negative wellFormed power plus s skipped ends.endsDigits
      rw [spelledScale_some power, List.length_nil, Nat.cast_zero, sub_zero, Nat.ofDigitChars_nil]
      cases capital with
      | true => exact scaled
      | false => exact scaled
  · obtain ⟨front, back, parts, read⟩ :=
      fraction_spelled negative wellFormed fraction fits skipped capital plus
    refine .inr ⟨front, back, parts, fun none => absurd none fraction, fun rest ends => ?_⟩
    rw [if_neg fraction, List.map_append, List.append_assoc]
    exact read rest ends

theorem magnitude_spelled (wellFormed : l.WellFormed) :
    ∃ front back, Parts 0 l.whole front back ∧ ∀ rest, EndsDigits rest →
      Json.magnitude negative (l.whole.map .char ++ rest)
        = afterInteger negative (Nat.ofDigitChars 10 front 0) back.length rest := by
  rcases wellFormed.front with zero | ⟨c, cs, first, nonzero⟩
  · refine ⟨['0'], [], ⟨zero, by decide, by simp, by simp⟩, fun rest ends => ?_⟩
    rw [zero]
    have stop : (rest.head?.bind digit?).isSome = false := by
      cases rest with
      | nil => rfl
      | cons g rest => simp [ends g (by simp)]
    change (if (rest.head?.bind digit?).isSome then _ else afterInteger negative 0 0 rest) = _
    rw [stop]
    rfl
  · obtain ⟨front, back, parts, read⟩ :=
      significand_parts (s := 0) wellFormed.whole (by decide)
    have behind : ∀ c ∈ back, c.isDigit := by
      intro c member
      exact wellFormed.whole c (parts.all ▸ List.mem_append_right front member)
    refine ⟨front, back, parts, fun rest ends => ?_⟩
    have digit : (digit? (.char c)).isSome := by
      rw [digit?_of_isDigit (wellFormed.whole c (by simp [first]))]
      rfl
    have counted := countDigits_back behind ends
    have read := read 0 rest ends
    rw [first] at read ⊢
    unfold Json.magnitude
    split
    · simp at *
    · simp_all
    · rename_i g more _ same
      have same' : g = .char c := by simp_all
      rw [same', if_pos digit, read]
      dsimp only
      rw [counted]

theorem significand_eq {front back : List Char} (parts : Parts 0 l.whole front back) :
    l.significand = Nat.ofDigitChars 10 (back ++ l.fraction) (Nat.ofDigitChars 10 front 0) := by
  rw [Literal.significand, parts.all, List.append_assoc, Nat.ofDigitChars_append]

/-- Where a digit before the point finds no room, one after it may still find some. -/
theorem retains_parts (wellFormed : l.WellFormed) {front back front' back' : List Char}
    (before : Parts 0 l.whole front back)
    (after : Parts (Nat.ofDigitChars 10 front 0) l.fraction front' back') {s : Nat} {e : Int}
    (hs : s = Nat.ofDigitChars 10 front' (Nat.ofDigitChars 10 front 0))
    (he : e = back.length - front'.length + l.shift) :
    Retains s e l.magnitude ∧
      (l.significand < 2 ^ 64 → s = l.significand ∧ e = l.exponent ∧ back = []) := by
  have digits : ∀ c ∈ l.fraction, c.isDigit := wellFormed.fraction
  have length := congrArg List.length after.all
  rw [List.length_append] at length
  by_cases none : back = []
  · -- The digits before the point are all read, so what is cut off stands at the end of the number.
    subst none
    have whole : l.significand = Nat.ofDigitChars 10 l.fraction (Nat.ofDigitChars 10 front 0) :=
      significand_eq before
    have parted : l.significand = Nat.ofDigitChars 10 back' s := by
      rw [whole, after.all, Nat.ofDigitChars_append, hs]
    have place : l.exponent = e - back'.length := by
      rw [Literal.exponent, he]
      simp only [List.length_nil]
      omega
    by_cases none' : back' = []
    · subst none'
      rw [Nat.ofDigitChars_nil] at parted
      rw [List.length_nil, Nat.cast_zero, sub_zero] at place
      refine ⟨.all ?_, fun _ => ⟨parted.symm, place.symm, rfl⟩⟩
      rw [magnitude, parted, place]
    · have behind : ∀ c ∈ back', c.isDigit := by
        intro c member
        exact digits c (after.all ▸ List.mem_append_right front' member)
      have cut := ofDigitChars_bounds behind s e
      rw [← parted, ← place] at cut
      refine ⟨.first s e (hs ▸ after.full none') (hs ▸ after.fits) ⟨le_rfl, ?_⟩ cut, ?_⟩
      · have power : (0 : ℚ) < 10 ^ e := by positivity
        linarith
      · intro small
        have beyond := after.beyond none'
        omega
  · -- The digits before the cut fill the room alone. They bound both the number and what is read,
    -- as each of the two only has more digits after them.
    have behind : ∀ c ∈ back ++ l.fraction, c.isDigit := by
      intro c member
      rcases List.mem_append.1 member with inWhole | inFraction
      · exact wellFormed.whole c (before.all ▸ List.mem_append_right front inWhole)
      · exact digits c inFraction
    have taken : ∀ c ∈ front', c.isDigit := by
      intro c member
      exact digits c (after.all ▸ List.mem_append_left back' member)
    have kept := ofDigitChars_bounds taken (Nat.ofDigitChars 10 front 0) (back.length + l.shift)
    have cut := ofDigitChars_bounds behind (Nat.ofDigitChars 10 front 0) (back.length + l.shift)
    have place : e = back.length + l.shift - front'.length := by omega
    have place' : l.exponent = back.length + l.shift - (back ++ l.fraction).length := by
      rw [Literal.exponent, List.length_append]
      omega
    rw [← hs, ← place] at kept
    rw [← significand_eq before, ← place'] at cut
    refine ⟨.first _ _ (before.full none) before.fits kept cut, fun small => ?_⟩
    have beyond := before.beyond none
    have least := le_ofDigitChars l.fraction (Nat.ofDigitChars 10 l.whole 0)
    rw [← Nat.ofDigitChars_append, ← Literal.significand] at least
    omega

/-- A number without fraction and power of ten whose digits find room is whole. Any other is
    real. -/
theorem number_spelled (wellFormed : l.WellFormed) (capital plus : Bool) :
    (l.fraction = [] ∧ l.power = none ∧ l.significand < 2 ^ 64 ∧ ∀ rest, EndsNumber rest →
      number ((l.spelled capital plus).map .char ++ rest)
        = .ok (integral l.negative l.significand, rest)) ∨
    ∃ s e, s < 2 ^ 64 ∧ Retains s e l.magnitude ∧
      (l.significand < 2 ^ 64 → s = l.significand ∧ e = l.exponent ∧
        (l.fraction ≠ [] ∨ l.power ≠ none)) ∧
      ∀ rest, EndsNumber rest →
        number ((l.spelled capital plus).map .char ++ rest) = real l.negative s e rest := by
  obtain ⟨front, back, before, digits⟩ := magnitude_spelled l.negative wellFormed
  have start (rest : Source) (ends : EndsNumber rest) :
      number ((l.spelled capital plus).map .char ++ rest)
        = afterInteger l.negative (Nat.ofDigitChars 10 front 0) back.length
          ((l.spelledAfterWhole capital plus).map .char ++ rest) := by
    rw [← digits _ (endsDigits_spelledAfterWhole capital plus ends)]
    unfold spelled
    cases l.negative with
    | true => simp [number]
    | false =>
      obtain ⟨c, cs, all, -, sign⟩ := wellFormed.front_digit
      simp [all, number, sign]
  rcases afterInteger_spelled l.negative wellFormed before.fits back.length capital plus with
    ⟨fraction, power, all, read⟩ | ⟨front', back', parts, part, read⟩
  · have none : back = [] := List.eq_nil_of_length_eq_zero all
    have value : l.significand = Nat.ofDigitChars 10 front 0 := by
      rw [significand_eq before, none, fraction]
      rfl
    rw [value]
    exact .inl ⟨fraction, power, before.fits, fun rest ends => (start rest ends).trans (read rest ends)⟩
  · obtain ⟨retains, exact⟩ := retains_parts wellFormed before parts rfl rfl
    refine .inr ⟨_, _, parts.fits, retains, fun small => ?_,
      fun rest ends => (start rest ends).trans (read rest ends)⟩
    obtain ⟨same, place, all⟩ := exact small
    refine ⟨same, place, ?_⟩
    by_contra plain
    obtain ⟨fraction, power⟩ := not_or.1 plain
    exact part (not_not.1 fraction) (not_not.1 power) (by rw [all]; rfl)

/-- Without fraction and power of ten a number is whole. -/
theorem number_integral (wellFormed : l.WellFormed) (fraction : l.fraction = [])
    (power : l.power = none) (fits : l.significand < 2 ^ 64) (capital plus : Bool)
    (ends : EndsNumber rest) : number ((l.spelled capital plus).map .char ++ rest)
      = .ok (integral l.negative l.significand, rest) := by
  rcases number_spelled wellFormed capital plus with ⟨-, -, -, read⟩ | ⟨s, e, -, -, all, -⟩
  · exact read rest ends
  · obtain ⟨-, -, part⟩ := all fits
    exact part.elim (fun some => absurd fraction some) fun some => absurd power some

/-- With a fraction or a power of ten a number is real. -/
theorem number_real (wellFormed : l.WellFormed) (part : l.fraction ≠ [] ∨ l.power ≠ none)
    (fits : l.significand < 2 ^ 64) (capital plus : Bool) (ends : EndsNumber rest) :
    number ((l.spelled capital plus).map .char ++ rest)
      = real l.negative l.significand l.exponent rest := by
  rcases number_spelled wellFormed capital plus with
    ⟨fraction, power, -, -⟩ | ⟨s, e, -, -, all, read⟩
  · exact part.elim (fun some => absurd fraction some) fun some => absurd power some
  · obtain ⟨rfl, rfl, -⟩ := all fits
    exact read rest ends

end Literal

end Reading

/-! ## Integers -/

def Literal.ofInteger (n : Int) : Literal := ⟨n < 0, Nat.toDigits 10 n.natAbs, [], none⟩

namespace Literal

theorem text_ofInteger (n : Int) : (ofInteger n).text = writeInteger n := by
  cases n with
  | ofNat n => simp [ofInteger, text, afterWhole, scale, writeInteger]
  | negSucc n => simp [ofInteger, text, afterWhole, scale, writeInteger]

theorem wellFormed_ofInteger (n : Int) : (ofInteger n).WellFormed where
  whole _ := isDigit_toDigits
  front := by
    by_cases zero : n.natAbs = 0
    · exact .inl (by simp only [ofInteger, zero]; rfl)
    · exact .inr (head_toDigits (Nat.pos_of_ne_zero zero))
  fraction := by simp [ofInteger]
  power := by simp [ofInteger]

theorem significand_ofInteger (n : Int) : (ofInteger n).significand = n.natAbs := by
  simp [ofInteger, significand]

end Literal

theorem number_writeInteger {n : Int} (low : -Nat.pow 2 63 ≤ n) (high : n < Nat.pow 2 64)
    {rest : Source} (ends : EndsNumber rest) :
    number ((writeInteger n).map .char ++ rest) = .ok (.integer n, rest) := by
  have fits : (Literal.ofInteger n).significand < 2 ^ 64 := by
    rw [Literal.significand_ofInteger]
    change -2 ^ 63 ≤ n at low
    change n < 2 ^ 64 at high
    omega
  rw [← Literal.text_ofInteger, Literal.text_eq_spelled,
    Literal.number_integral (Literal.wellFormed_ofInteger n) rfl rfl fits false true ends,
    Literal.significand_ofInteger]
  cases n with
  | ofNat n => rfl
  | negSucc n =>
    have bound : n + 1 ≤ Nat.pow 2 63 := by omega
    have below : (Literal.ofInteger (.negSucc n)).negative = true := by simp [Literal.ofInteger]
    rw [below, Int.natAbs_negSucc, integral, if_pos rfl, if_pos ⟨by omega, bound⟩]
    rfl

end LayeredPreferences.Json

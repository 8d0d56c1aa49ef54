import LayeredPreferences.Json.Numeral
import LayeredPreferences.Json.Writing
import LayeredPreferences.Proofs.Json.Reader

set_option autoImplicit false

/-!
# Numbers as they are spelled

The parts of a number, and the texts that are made of them. What follows a text
and can be no part of a number ends it.
-/
namespace LayeredPreferences.Json

/-- Nothing that a number could go on with stands at the front. -/
def EndsNumber (rest : Source) : Prop :=
  ∀ g ∈ rest.head?, digit? g = none ∧ g ≠ .char '.' ∧ g ≠ .char 'e' ∧ g ≠ .char 'E'

theorem endsNumber_nil : EndsNumber [] := by
  intro g hg
  cases hg

/-- No digit stands at the front. -/
def EndsDigits (rest : Source) : Prop := ∀ g ∈ rest.head?, digit? g = none

theorem EndsNumber.endsDigits {rest : Source} (ends : EndsNumber rest) : EndsDigits rest :=
  fun g hg => (ends g hg).1

theorem digit?_of_isDigit {c : Char} (h : c.isDigit) :
    digit? (.char c) = some (c.toNat - '0'.toNat) := by
  simp only [digit?, if_pos h]

/-- A minus sign or a digit opens a token. -/
theorem isBlank_number {g : Glyph} (first : g = .char '-' ∨ (digit? g).isSome) :
    g.isBlank = false := by
  cases g with
  | stray => rfl
  | char c =>
    cases blank : (Glyph.char c).isBlank with
    | false => rfl
    | true =>
      have cases : c = ' ' ∨ c = '\t' ∨ c = '\n' ∨ c = '\r' := by
        simpa [Glyph.isBlank, or_assoc] using blank
      rcases cases with rfl | rfl | rfl | rfl <;> exact absurd first (by decide)

theorem EndsNumber.blanks {pad rest : Source} (ends : EndsNumber rest) (blanks : Blanks pad) :
    EndsNumber (pad ++ rest) := by
  cases pad with
  | nil => exact ends
  | cons b pad =>
    intro g front
    cases front
    have blank : b.isBlank = true := blanks b (by simp)
    have other {g : Glyph} (h : g.isBlank = false) : b ≠ g := by
      rintro rfl
      rw [blank] at h
      cases h
    refine ⟨?_, other rfl, other rfl, other rfl⟩
    cases digit : digit? b with
    | none => rfl
    | some n =>
      rw [isBlank_number (.inr (by simp [digit]))] at blank
      cases blank

theorem endsNumber_blanks {pad : Source} (blanks : Blanks pad) : EndsNumber pad := by
  simpa using endsNumber_nil.blanks blanks

theorem endsNumber_comma (rest : Source) : EndsNumber (.char ',' :: rest) := by
  simp [EndsNumber, digit?]

theorem endsNumber_colon (rest : Source) : EndsNumber (.char ':' :: rest) := by
  simp [EndsNumber, digit?]

theorem endsNumber_bracket (rest : Source) : EndsNumber (.char ']' :: rest) := by
  simp [EndsNumber, digit?]

theorem endsNumber_brace (rest : Source) : EndsNumber (.char '}' :: rest) := by
  simp [EndsNumber, digit?]

/-! ## Digits of naturals -/

theorem le_ofDigitChars (ds : List Char) (s : Nat) : s ≤ Nat.ofDigitChars 10 ds s := by
  rw [Nat.ofDigitChars_eq_ofDigitChars_zero]
  have positive : 0 < 10 ^ ds.length := Nat.pow_pos (by decide)
  have grows := Nat.le_mul_of_pos_left s positive
  omega

theorem countDigits_digits {ds : List Char} (digits : ∀ c ∈ ds, c.isDigit) (n : Nat)
    {rest : Source} (ends : EndsDigits rest) :
    countDigits n (ds.map .char ++ rest) = (n + ds.length, rest) := by
  induction ds generalizing n with
  | nil =>
    cases rest with
    | nil => rfl
    | cons g rest =>
      have stop := ends g (by simp)
      simp [countDigits, stop]
  | cons c ds ih =>
    have first := digit?_of_isDigit (digits c (by simp))
    have others : ∀ c ∈ ds, c.isDigit := fun c hc => digits c (by simp [hc])
    rw [List.map_cons, List.cons_append, countDigits]
    simp only [first, Option.isSome_some, if_true]
    rw [ih others, List.length_cons]
    congr 1
    omega

theorem natural_digits {ds : List Char} (digits : ∀ c ∈ ds, c.isDigit) (n : Nat) {rest : Source}
    (ends : EndsDigits rest) :
    natural n (ds.map .char ++ rest) = (Nat.ofDigitChars 10 ds n, rest) := by
  induction ds generalizing n with
  | nil =>
    cases rest with
    | nil => rfl
    | cons g rest =>
      have stop := ends g (by simp)
      simp [natural, stop]
  | cons c ds ih =>
    have first := digit?_of_isDigit (digits c (by simp))
    have others : ∀ c ∈ ds, c.isDigit := fun c hc => digits c (by simp [hc])
    rw [List.map_cons, List.cons_append, natural]
    simp only [first]
    rw [ih others, Nat.ofDigitChars_cons]

/-- Decimal digits start with a zero only if that is all there is. -/
theorem head_toDigits {n : Nat} (h : 0 < n) : ∃ c ds, Nat.toDigits 10 n = c :: ds ∧ c ≠ '0' := by
  induction n using Nat.strongRecOn with
  | ind n ih =>
    by_cases small : n < 10
    · refine ⟨n.digitChar, [], Nat.toDigits_of_lt_base small, ?_⟩
      have : ∀ n < 10, 0 < n → n.digitChar ≠ '0' := by decide
      exact this n small h
    · obtain ⟨c, ds, front, nonzero⟩ := ih (n / 10) (by omega) (by omega)
      refine ⟨c, ds ++ [(n % 10).digitChar], ?_, nonzero⟩
      rw [Nat.toDigits_of_base_le (by decide) (by omega), front]
      rfl

theorem isDigit_toDigits {n : Nat} {c : Char} (h : c ∈ Nat.toDigits 10 n) : c.isDigit :=
  Nat.isDigit_of_mem_toDigits (by decide) (by decide) h

/-! ## Literals -/

/-- The parts of a number as it is written. -/
structure Literal where
  negative : Bool
  whole : List Char
  fraction : List Char
  /-- Whether the power of ten is one below zero, and its digits. -/
  power : Option (Bool × List Char)

namespace Literal

/-- No digit stands before a zero at the front, and no part is empty but one that is missing. -/
structure WellFormed (l : Literal) : Prop where
  whole : ∀ c ∈ l.whole, c.isDigit
  front : l.whole = ['0'] ∨ ∃ c cs, l.whole = c :: cs ∧ c ≠ '0'
  fraction : ∀ c ∈ l.fraction, c.isDigit
  power : ∀ p ∈ l.power, p.2 ≠ [] ∧ ∀ c ∈ p.2, c.isDigit

theorem WellFormed.front_digit {l : Literal} (h : l.WellFormed) :
    ∃ c cs, l.whole = c :: cs ∧ c.isDigit ∧ c ≠ '-' := by
  obtain ⟨c, cs, front⟩ : ∃ c cs, l.whole = c :: cs := by
    rcases h.front with front | ⟨c, cs, front, -⟩
    · exact ⟨_, _, front⟩
    · exact ⟨c, cs, front⟩
  have digit : c.isDigit := h.whole c (by simp [front])
  refine ⟨c, cs, front, digit, ?_⟩
  rintro rfl
  exact absurd digit (by decide)

def scale (l : Literal) : List Char :=
  match l.power with
  | none => []
  | some (down, digits) => 'e' :: (if down then '-' else '+') :: digits

def afterWhole (l : Literal) : List Char :=
  match l.fraction with
  | [] => l.scale
  | digits => '.' :: (digits ++ l.scale)

def text (l : Literal) : List Char :=
  (if l.negative then ['-'] else []) ++ (l.whole ++ l.afterWhole)

/-- All digits, the point left out. -/
def significand (l : Literal) : Nat := Nat.ofDigitChars 10 (l.whole ++ l.fraction) 0

def shift (l : Literal) : Int :=
  match l.power with
  | none => 0
  | some (down, digits) =>
    let n : Int := Nat.ofDigitChars 10 digits 0
    if down then -n else n

/-- The power of ten that the significand is to be taken by. -/
def exponent (l : Literal) : Int := l.shift - l.fraction.length

/-- A power of ten that is not below zero may do without a sign. -/
def powerSign (down plus : Bool) : List Char :=
  if down then ['-'] else if plus then ['+'] else []

/-- The letter before the power of ten may be small or capital. -/
def spelledScale (l : Literal) (capital plus : Bool) : List Char :=
  match l.power with
  | none => []
  | some (down, digits) => (if capital then 'E' else 'e') :: (powerSign down plus ++ digits)

def spelledAfterWhole (l : Literal) (capital plus : Bool) : List Char :=
  (if l.fraction = [] then [] else '.' :: l.fraction) ++ l.spelledScale capital plus

/-- Every number is spelled so. -/
def spelled (l : Literal) (capital plus : Bool) : List Char :=
  (if l.negative then ['-'] else []) ++ (l.whole ++ l.spelledAfterWhole capital plus)

theorem scale_eq_spelled (l : Literal) : l.scale = l.spelledScale false true := by
  unfold scale spelledScale powerSign
  cases l.power with
  | none => rfl
  | some p =>
    obtain ⟨down, digits⟩ := p
    cases down <;> rfl

theorem afterWhole_eq_spelled (l : Literal) : l.afterWhole = l.spelledAfterWhole false true := by
  unfold afterWhole spelledAfterWhole
  rw [← scale_eq_spelled]
  cases l.fraction <;> rfl

theorem text_eq_spelled (l : Literal) : l.text = l.spelled false true := by
  rw [text, afterWhole_eq_spelled, spelled]

end Literal

/-! ## Numbers -/

section Reading

variable {rest : Source}

theorem afterInteger_integral (negative : Bool) (s : Nat) {rest : Source}
    (ends : EndsNumber rest) :
    afterInteger negative s 0 rest = .ok (integral negative s, rest) := by
  cases rest with
  | nil => rfl
  | cons g rest =>
    obtain ⟨-, point, lower, upper⟩ := ends g (by simp)
    unfold afterInteger
    split
    · simp_all
    · simp_all
    · simp_all
    · rw [if_pos rfl]

variable {l : Literal}

namespace Literal

theorem afterWhole_fraction (some : l.fraction ≠ []) :
    l.afterWhole = '.' :: (l.fraction ++ l.scale) := by
  obtain ⟨c, cs, front⟩ := List.exists_cons_of_ne_nil some
  simp [afterWhole, front]

theorem endsDigits_spelledScale (capital plus : Bool) (ends : EndsNumber rest) :
    EndsDigits ((l.spelledScale capital plus).map .char ++ rest) := by
  unfold spelledScale
  split
  · exact ends.endsDigits
  · intro g hg
    cases capital <;> cases hg <;> decide

theorem endsDigits_spelledAfterWhole (capital plus : Bool) (ends : EndsNumber rest) :
    EndsDigits ((l.spelledAfterWhole capital plus).map .char ++ rest) := by
  unfold spelledAfterWhole
  split
  · exact endsDigits_spelledScale capital plus ends
  · intro g hg
    cases hg
    decide

theorem front_spelled (wellFormed : l.WellFormed) (capital plus : Bool) :
    ∃ c cs, l.spelled capital plus = c :: cs ∧
      (Glyph.char c = .char '-' ∨ (digit? (.char c)).isSome) := by
  obtain ⟨c, cs, all, isDigit, -⟩ := wellFormed.front_digit
  unfold spelled
  cases l.negative with
  | true => exact ⟨'-', _, rfl, .inl rfl⟩
  | false =>
    refine ⟨c, cs ++ l.spelledAfterWhole capital plus, by simp [all], .inr ?_⟩
    rw [digit?_of_isDigit isDigit]
    rfl

theorem front_text (wellFormed : l.WellFormed) :
    ∃ c cs, l.text = c :: cs ∧ (Glyph.char c = .char '-' ∨ (digit? (.char c)).isSome) :=
  text_eq_spelled l ▸ front_spelled wellFormed false true

end Literal

end Reading

end LayeredPreferences.Json

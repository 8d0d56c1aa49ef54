import LayeredPreferences.Json.Passage
import LayeredPreferences.Proofs.Json.Numeral

set_option autoImplicit false

/-!
# Tokens are skipped

A number, or one of the words, is skipped as a whole.
-/
namespace LayeredPreferences.Json

/-! ## Numbers -/

section Numbers

variable {rest : Source}

theorem skipSomeDigits_digits {ds : List Char} (nonempty : ds ≠ [])
    (digits : ∀ c ∈ ds, c.isDigit) (ends : EndsDigits rest) :
    skipSomeDigits (ds.map .char ++ rest) = .ok ((), rest) := by
  obtain ⟨c, cs, rfl⟩ := List.exists_cons_of_ne_nil nonempty
  have first : digit? (.char c) = some _ := digit?_of_isDigit (digits c (by simp))
  have all := countDigits_digits digits 0 ends
  unfold skipSomeDigits skipDigits
  rw [all]
  simp [first]

namespace Literal

variable {l : Literal}

theorem afterFraction_scale (wellFormed : l.WellFormed) (capital plus : Bool)
    (ends : EndsNumber rest) :
    skipNumber.afterFraction ((l.spelledScale capital plus).map .char ++ rest) = .ok ((), rest) := by
  unfold spelledScale
  cases power : l.power with
  | none =>
    unfold skipNumber.afterFraction
    simp only [List.map_nil, List.nil_append]
    split
    · exact absurd rfl (ends (.char 'e') rfl).2.2.1
    · exact absurd rfl (ends (.char 'E') rfl).2.2.2
    · rfl
  | some p =>
    obtain ⟨down, digits⟩ := p
    obtain ⟨nonempty, isDigits⟩ := wellFormed.power _ power
    have skips := skipSomeDigits_digits nonempty isDigits ends.endsDigits
    have signed : skipNumber.afterFraction (.char 'e' ::
        ((powerSign down plus ++ digits).map .char ++ rest)) = .ok ((), rest) := by
      cases down with
      | true => exact skips
      | false =>
        cases plus with
        | true => exact skips
        | false =>
          obtain ⟨c, cs, rfl⟩ := List.exists_cons_of_ne_nil nonempty
          have digit := isDigits c (by simp)
          have noPlus : c ≠ '+' := by
            rintro rfl
            exact absurd digit (by decide)
          have noMinus : c ≠ '-' := by
            rintro rfl
            exact absurd digit (by decide)
          simpa [powerSign, skipNumber.afterFraction, noPlus, noMinus] using skips
    cases capital with
    | true => exact signed
    | false => exact signed

theorem skip_afterWhole (wellFormed : l.WellFormed) (capital plus : Bool) (ends : EndsNumber rest) :
    (match (l.spelledAfterWhole capital plus).map Glyph.char ++ rest with
      | .char '.' :: more => do
        let (_, more) ← skipSomeDigits more
        skipNumber.afterFraction more
      | more => skipNumber.afterFraction more) = .ok ((), rest) := by
  have skipped := afterFraction_scale wellFormed capital plus ends
  unfold spelledAfterWhole
  by_cases fraction : l.fraction = []
  · rw [if_pos fraction, List.nil_append]
    split
    · rename_i more point
      cases power : l.power with
      | none =>
        simp only [spelledScale, power, List.map_nil, List.nil_append] at point
        exact absurd rfl (ends (.char '.') (by simp [point])).2.1
      | some p => cases capital <;> simp [spelledScale, power] at point
    · exact skipped
  · have digits := skipSomeDigits_digits fraction wellFormed.fraction
      (endsDigits_spelledScale (l := l) capital plus ends)
    rw [if_neg fraction, List.cons_append, List.map_cons, List.cons_append, List.map_append,
      List.append_assoc]
    change (skipSomeDigits _ >>= fun r => skipNumber.afterFraction r.2) = _
    rw [digits]
    exact skipped

theorem skipNumber_whole (wellFormed : l.WellFormed) (capital plus : Bool)
    (ends : EndsNumber rest) :
    skipNumber (l.whole.map .char ++ ((l.spelledAfterWhole capital plus).map .char ++ rest))
      = .ok ((), rest) := by
  have next := endsDigits_spelledAfterWhole (l := l) capital plus ends
  have skipped := skip_afterWhole wellFormed capital plus ends
  rcases wellFormed.front with zero | ⟨c, cs, front, nonzero⟩
  · have stop : (((l.spelledAfterWhole capital plus).map Glyph.char ++ rest).head?.bind
        digit?).isSome = false := by
      cases front : ((l.spelledAfterWhole capital plus).map Glyph.char ++ rest).head? with
      | none => rfl
      | some g => simp [next g front]
    rw [zero]
    change (if (((l.spelledAfterWhole capital plus).map Glyph.char ++ rest).head?.bind
      digit?).isSome then _ else _) = _
    rw [stop]
    exact skipped
  · have digits := skipSomeDigits_digits (by simp [front]) wellFormed.whole next
    have sign : c ≠ '-' := by
      obtain ⟨c', cs', front', -, sign⟩ := wellFormed.front_digit
      rw [front] at front'
      exact (List.cons.inj front').1 ▸ sign
    rw [front, List.map_cons, List.cons_append] at digits ⊢
    unfold skipNumber
    -- Neither of the rows for a sign and for a zero fits.
    split
    · simp_all
    · dsimp only
      split
      · simp_all
      · change (skipSomeDigits _ >>= _) = _
        rw [digits]
        exact skipped

theorem skipNumber_sign {g : Glyph} (sign : g ≠ .char '-') (more : Source) :
    skipNumber (.char '-' :: g :: more) = skipNumber (g :: more) := by
  conv =>
    rhs
    unfold skipNumber
  split
  · simp_all
  · rfl

theorem skipNumber_spelled (wellFormed : l.WellFormed) (capital plus : Bool)
    (ends : EndsNumber rest) :
    skipNumber ((l.spelled capital plus).map .char ++ rest) = .ok ((), rest) := by
  have unsigned := skipNumber_whole wellFormed capital plus ends
  unfold spelled
  cases l.negative with
  | true =>
    obtain ⟨c, cs, front, -, sign⟩ := wellFormed.front_digit
    rw [front] at unsigned
    simp only [front]
    exact (skipNumber_sign (by simpa using sign) _).trans (by simpa using unsigned)
  | false => simpa using unsigned

end Literal

theorem skippedWithin_number (depth : Nat) {g : Glyph} {more : Source}
    (first : g = .char '-' ∨ (digit? g).isSome) (h : skipNumber (g :: more) = .ok ((), rest)) :
    skippedWithin (depth + 1) (g :: more) = .ok ((), rest) := by
  unfold skippedWithin
  rw [bind_ok (peek_here (isBlank_number first) _)]
  generalize seen : some g = front
  split
  case h_8 =>
    obtain rfl := Option.some.inj seen
    rw [if_pos first]
    exact h
  case h_1 => cases seen
  all_goals
    obtain rfl := Option.some.inj seen
    exact absurd first (by decide)

theorem skippedWithin_spelled (depth : Nat) {l : Literal} (wellFormed : l.WellFormed)
    (capital plus : Bool) (ends : EndsNumber rest) :
    skippedWithin (depth + 1) ((l.spelled capital plus).map .char ++ rest) = .ok ((), rest) := by
  have skips := Literal.skipNumber_spelled wellFormed capital plus ends
  obtain ⟨c, cs, text, first⟩ := Literal.front_spelled wellFormed capital plus
  rw [text] at skips ⊢
  exact skippedWithin_number depth first skips

end Numbers

/-! ## Words -/

section Words

variable {rest : Source}

theorem skippedWithin_writeBool (depth : Nat) (b : Bool) :
    skippedWithin (depth + 1) ((writeBool b).map .char ++ rest) = .ok ((), rest) := by
  unfold skippedWithin
  cases b with
  | false =>
    change (peek >>= _) (.char 'f' :: _) = _
    rw [bind_ok (peek_here rfl _)]
    exact keyword_word falseWord rest
  | true =>
    change (peek >>= _) (.char 't' :: _) = _
    rw [bind_ok (peek_here rfl _)]
    exact keyword_word trueWord rest

theorem skippedWithin_null (depth : Nat) :
    skippedWithin (depth + 1) (nullWord.map .char ++ rest) = .ok ((), rest) := by
  unfold skippedWithin
  change (peek >>= _) (.char 'n' :: _) = _
  rw [bind_ok (peek_here rfl _)]
  exact keyword_word nullWord rest

end Words

end LayeredPreferences.Json

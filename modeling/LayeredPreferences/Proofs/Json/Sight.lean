import LayeredPreferences.Proofs.Json.Quotation
import LayeredPreferences.Proofs.Json.Real
import LayeredPreferences.Value

set_option autoImplicit false

/-!
# Written values are read back

A boolean, an integer or a string is what its JSON text is read as, wherever the
text stands. A finite float is read as a float, but reading is not always exact; one
that is not finite has the text of no value.
-/
namespace LayeredPreferences

namespace Json

section Tokens

variable {pad : Source}

theorem sight_writeString (blanks : Blanks pad) (s : String) (rest : Source) :
    sight (pad ++ ((writeString s).map .char ++ rest)) = .ok (.string s, rest) := by
  rw [map_writeString]
  unfold sight
  rw [bind_ok (peek_token blanks rfl _)]
  change (do advance; return Sight.string (← quotation) : Reader Sight) _ = _
  rw [bind_ok (advance_cons _ _), bind_ok (quotation_written s rest)]
  rfl

theorem sight_writeBool (blanks : Blanks pad) (b : Bool) (rest : Source) :
    sight (pad ++ ((writeBool b).map .char ++ rest)) = .ok (.boolean b, rest) := by
  unfold sight
  cases b with
  | false =>
    change (peek >>= _) (pad ++ .char 'f' :: _) = _
    rw [bind_ok (peek_token blanks rfl _)]
    change (do keyword falseWord; pure (Sight.boolean false) : Reader Sight)
      (falseWord.map .char ++ rest) = _
    rw [bind_ok (keyword_word falseWord rest)]
    rfl
  | true =>
    change (peek >>= _) (pad ++ .char 't' :: _) = _
    rw [bind_ok (peek_token blanks rfl _)]
    change (do keyword trueWord; pure (Sight.boolean true) : Reader Sight)
      (trueWord.map .char ++ rest) = _
    rw [bind_ok (keyword_word trueWord rest)]
    rfl

/-- A minus sign or a digit opens no other token. -/
theorem sight_numeral (blanks : Blanks pad) {g : Glyph} (first : g = .char '-' ∨ (digit? g).isSome)
    (rest : Source) :
    sight (pad ++ g :: rest) = (do return .number (← number) : Reader Sight) (g :: rest) := by
  unfold sight
  rw [bind_ok (peek_token blanks (isBlank_number first) _)]
  generalize seen : some g = front
  split
  case h_8 =>
    obtain rfl := Option.some.inj seen
    rw [if_pos first]
  case h_1 => cases seen
  all_goals
    obtain rfl := Option.some.inj seen
    exact absurd first (by decide)

theorem sight_number (blanks : Blanks pad) {g : Glyph} {rest more : Source} {n : Number}
    (first : g = .char '-' ∨ (digit? g).isSome) (h : number (g :: rest) = .ok (n, more)) :
    sight (pad ++ g :: rest) = .ok (.number n, more) := by
  rw [sight_numeral blanks first, bind_ok h]
  rfl

theorem sight_literal (blanks : Blanks pad) {l : Literal} (wellFormed : l.WellFormed)
    {rest more : Source} {n : Number} (h : number (l.text.map .char ++ rest) = .ok (n, more)) :
    sight (pad ++ (l.text.map .char ++ rest)) = .ok (.number n, more) := by
  obtain ⟨c, cs, text, first⟩ := Literal.front_text wellFormed
  rw [text] at h ⊢
  exact sight_number blanks first h

theorem sight_writeInteger (blanks : Blanks pad) {n : Int} (low : -Nat.pow 2 63 ≤ n)
    (high : n < Nat.pow 2 64) {rest : Source} (ends : EndsNumber rest) :
    sight (pad ++ ((writeInteger n).map .char ++ rest)) = .ok (.number (.integer n), rest) := by
  have read := number_writeInteger low high ends
  rw [← Literal.text_ofInteger] at read ⊢
  exact sight_literal blanks (Literal.wellFormed_ofInteger n) read

theorem sight_null (blanks : Blanks pad) (rest : Source) :
    sight (pad ++ (nullWord.map .char ++ rest)) = .ok (.null, rest) := by
  unfold sight
  change (peek >>= _) (pad ++ .char 'n' :: _) = _
  rw [bind_ok (peek_token blanks rfl _)]
  change (do keyword nullWord; pure Sight.null : Reader Sight) (nullWord.map .char ++ rest) = _
  rw [bind_ok (keyword_word nullWord rest)]
  rfl

theorem kept_of_sight {source rest : Source} {found : Sight} (h : sight source = .ok (found, rest))
    (list : found ≠ .list) (object : found ≠ .object) (room : Nat) :
    kept room source = .ok (found, rest) := by
  cases room with
  | zero => rw [kept, bind_ok h]; cases found <;> simp_all [pure_apply]
  | succ room => rw [kept, bind_ok h]; cases found <;> simp_all [pure_apply]

end Tokens

end Json

namespace Value

open Json

variable {pad rest : Source}

theorem sight_write (v : Value) (h : v.type ≠ .float) (blanks : Blanks pad)
    (ends : EndsNumber rest) : ∃ found, found ≠ .list ∧ found ≠ .object ∧ ofSight? found = some v ∧
      sight (pad ++ (v.write.map .char ++ rest)) = .ok (found, rest) := by
  cases v with
  | boolean b => exact ⟨.boolean b, nofun, nofun, rfl, sight_writeBool blanks b rest⟩
  | integer n =>
    have low : -Nat.pow 2 63 ≤ n.toInt := n.minValue_le_toInt
    have high : n.toInt < Nat.pow 2 63 := n.toInt_lt
    refine ⟨.number (.integer n.toInt), nofun, nofun, ?_, sight_writeInteger blanks low ?_ ends⟩
    · simp only [ofSight?, if_pos high, Int64.ofInt_toInt]
    · exact Int.lt_trans high (by decide)
  | float x => exact absurd rfl h
  | string s => exact ⟨.string s, nofun, nofun, rfl, sight_writeString blanks s rest⟩

theorem shape_write (v : Value) (h : v.type ≠ .float) (room : Nat) (blanks : Blanks pad)
    (ends : EndsNumber rest) : shape room (pad ++ (v.write.map .char ++ rest)) = .ok (v, rest) := by
  obtain ⟨found, list, object, value, seen⟩ := v.sight_write h blanks ends
  unfold shape
  rw [bind_ok (kept_of_sight seen list object room), value]
  rfl

theorem shape_readable {l : Literal} (h : Readable l) {rank : Nat}
    (read : Binary64.scaledRank? l.significand l.exponent = some rank) (room : Nat)
    (blanks : Blanks pad) (ends : EndsNumber rest) :
    shape room (pad ++ (l.text.map .char ++ rest)) = .ok (.float (.ofRank l.negative rank), rest) := by
  have seen := sight_literal blanks h.toWellFormed (h.number read ends)
  unfold shape
  rw [bind_ok (kept_of_sight seen nofun nofun room)]
  rfl

theorem shape_null (room : Nat) (blanks : Blanks pad) :
    shape room (pad ++ (nullWord.map .char ++ rest)) = .error ⟨[], .noVariant "PrefValue"⟩ := by
  unfold shape
  rw [bind_ok (kept_of_sight (sight_null blanks rest) nofun nofun room)]
  rfl

end Value

end LayeredPreferences

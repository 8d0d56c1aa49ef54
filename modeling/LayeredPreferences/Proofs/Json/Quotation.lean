import LayeredPreferences.Json.Passage
import LayeredPreferences.Json.Writing
import LayeredPreferences.Proofs.Json.Reader
import Mathlib.Tactic.SplitIfs

set_option autoImplicit false

/-!
# Written strings are read back

Every text, whatever characters it holds, is what its written form is read as, and
the reader stops right behind the closing quotation mark.
-/
namespace LayeredPreferences.Json

theorem hexDigit?_digitChar (n : Nat) (h : n < 16) :
    hexDigit? (.char (Nat.digitChar n)) = some n := by
  revert n
  decide

theorem hexFour_control {c : Char} (h : c.toNat < 0x20) (more : Source) :
    hexFour (.char '0' :: .char '0' :: .char (Nat.digitChar (c.toNat / 16))
      :: .char (Nat.digitChar (c.toNat % 16)) :: more) = .ok (c.toNat, more) := by
  have zero : hexDigit? (.char '0') = some 0 := by decide
  have high := hexDigit?_digitChar (c.toNat / 16) (by omega)
  have low := hexDigit?_digitChar (c.toNat % 16) (by omega)
  simp only [hexFour, List.take_succ_cons, List.take_zero, List.mapM_cons, List.mapM_nil, zero,
    high, low]
  simp
  omega

theorem letters_escape {reader : Reader Char} {rest more : Source} {c : Char}
    (h : reader rest = .ok (c, more)) (shorter : more.length ≤ rest.length) :
    letters reader (.char '\\' :: rest)
      = (letters reader more).map fun r => (.char c :: r.1, r.2) := by
  rw [letters]
  simp only [h, if_pos shorter]

theorem letters_plain {reader : Reader Char} {c : Char} (rest : Source) (quote : c ≠ '"')
    (backslash : c ≠ '\\') (visible : ¬ c.toNat < 0x20) : letters reader (.char c :: rest)
      = (letters reader rest).map fun r => (.char c :: r.1, r.2) := by
  rw [letters]
  · simp [Glyph.isControl, visible]
  all_goals simpa

/-! ## Escapes -/

theorem writeChar_cases (c : Char) : (∃ s, writeChar c = '\\' :: s) ∨
    writeChar c = [c] ∧ c ≠ '"' ∧ c ≠ '\\' ∧ ¬ c.toNat < 0x20 := by
  unfold writeChar
  split_ifs with quote backslash back feed line ret tab control
  case neg => exact .inr ⟨rfl, quote, backslash, control⟩
  all_goals exact .inl ⟨_, rfl⟩

/-- A row for each letter, and one for all characters that have no letter. -/
theorem escape_written {c : Char} {s : List Char} (h : writeChar c = '\\' :: s) (more : Source) :
    escape (s.map .char ++ more) = .ok (c, more) := by
  unfold writeChar at h
  split_ifs at h with quote backslash back feed line ret tab low
  case pos | pos | pos | pos | pos | pos | pos =>
    cases h
    subst c
    rfl
  · cases h
    change codePoint (.char '0' :: .char '0' :: .char (Nat.digitChar (c.toNat / 16))
      :: .char (Nat.digitChar (c.toNat % 16)) :: more) = _
    unfold codePoint
    rw [bind_ok (hexFour_control low more), if_neg (by omega), if_neg (by omega)]
    simp [pure_apply]
  · exact absurd (List.cons.inj h).1 backslash

/-! ## Texts -/

theorem letters_writeChar (c : Char) (more : Source) :
    letters escape ((writeChar c).map .char ++ more)
      = (letters escape more).map fun r => (.char c :: r.1, r.2) := by
  rcases writeChar_cases c with ⟨s, escaped⟩ | ⟨plain, quote, backslash, visible⟩
  · rw [escaped]
    exact letters_escape (escape_written escaped more) (by simp)
  · rw [plain]
    exact letters_plain more quote backslash visible

theorem letters_written (cs : List Char) (rest : Source) :
    letters escape ((cs.flatMap writeChar).map .char ++ .char '"' :: rest)
      = .ok (cs.map .char, rest) := by
  induction cs with
  | nil => rw [List.flatMap_nil, List.map_nil, List.nil_append, letters]
  | cons c cs ih =>
    rw [List.flatMap_cons, List.map_append, List.append_assoc, letters_writeChar, ih]
    rfl

theorem mapM_char (cs : List Char) : (cs.map Glyph.char).mapM Glyph.char? = some cs := by
  induction cs with
  | nil => rfl
  | cons c cs ih => simp [ih, Glyph.char?]

theorem map_writeString (s : String) (rest : Source) :
    (writeString s).map Glyph.char ++ rest
      = .char '"' :: ((s.toList.flatMap writeChar).map .char ++ .char '"' :: rest) := by
  simp [writeString]

/-- The source starts behind the opening mark. -/
theorem quotation_written (s : String) (rest : Source) :
    quotation ((s.toList.flatMap writeChar).map .char ++ .char '"' :: rest) = .ok (s, rest) := by
  unfold quotation
  rw [bind_ok (letters_written s.toList rest), mapM_char]
  simp [pure_apply]

end LayeredPreferences.Json

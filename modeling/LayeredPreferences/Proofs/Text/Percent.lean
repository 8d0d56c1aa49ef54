import LayeredPreferences.Http.Path
import LayeredPreferences.Proofs.Text.Utf8

set_option autoImplicit false

/-!
# Spellings of a text in a segment

Characters that a segment can hold stand for themselves; all bytes can be escaped. A
segment that spells the bytes of a text stands for this text.
-/
namespace LayeredPreferences.Text

/-- Whether a character can stand in a segment as it is. -/
def isSegmentChar (c : Char) : Bool :=
  c.isAlphanum || "-._~!$&'()*+,;=:@".toList.contains c

/-- A digit can be written in either case. -/
def IsHexDigit (n : Fin 16) (c : Char) : Prop :=
  c = Nat.digitChar n ∨ c = (Nat.digitChar n).toUpper

/-- Each byte is escaped, or is the character that it stands for. -/
inductive Spells : List Char → List UInt8 → Prop where
  | nil : Spells [] []
  | plain {c : Char} {cs : List Char} {bs : List UInt8} (allowed : isSegmentChar c = true)
    (rest : Spells cs bs) : Spells (c :: cs) (c.toUInt8 :: bs)
  | escaped {m n : Fin 16} {a b : Char} {cs : List Char} {bs : List UInt8}
    (first : IsHexDigit m a) (second : IsHexDigit n b) (rest : Spells cs bs) :
    Spells ('%' :: a :: b :: cs) (UInt8.ofNat (16 * m + n) :: bs)

/-! ## Every text has a spelling -/

theorem exists_spells (bs : List UInt8) : ∃ segment, Spells segment bs := by
  induction bs with
  | nil => exact ⟨[], .nil⟩
  | cons b bs ih =>
    obtain ⟨segment, spelled⟩ := ih
    have size : b.toNat < 256 := b.toNat_lt
    let m : Fin 16 := ⟨b.toNat / 16, by omega⟩
    let n : Fin 16 := ⟨b.toNat % 16, by omega⟩
    have whole : UInt8.ofNat (16 * m + n) = b := by
      have parts : 16 * (b.toNat / 16) + b.toNat % 16 = b.toNat := Nat.div_add_mod _ _
      simp [m, n, parts]
    have escaped := Spells.escaped (m := m) (n := n) (.inl rfl) (.inl rfl) spelled
    rw [whole] at escaped
    exact ⟨_, escaped⟩

/-! ## What a spelling stands for -/

theorem percentDecode_cons {b : UInt8} (h : b ≠ 0x25) (bs : List UInt8) :
    percentDecode (b :: bs) = b :: percentDecode bs := by
  match bs with
  | [] => simp [percentDecode]
  | [_] => simp [percentDecode]
  | _ :: _ :: _ => rw [percentDecode, if_neg h]

theorem percentDecode_escape {a b x : UInt8} (h : hexByte? a b = some x) (bs : List UInt8) :
    percentDecode (0x25 :: a :: b :: bs) = x :: percentDecode bs := by
  rw [percentDecode, if_pos rfl, h]

theorem hexDigit?_digit {n : Fin 16} {c : Char} (h : IsHexDigit n c) :
    c.toNat < 128 ∧ hexDigit? c.toUInt8 = some (UInt8.ofNat n) := by
  rcases h with rfl | rfl
  all_goals
    revert n
    decide

theorem hexByte?_digits {m n : Fin 16} {a b : Char} (first : IsHexDigit m a)
    (second : IsHexDigit n b) :
    hexByte? a.toUInt8 b.toUInt8 = some (UInt8.ofNat (16 * m + n)) := by
  rw [hexByte?, (hexDigit?_digit first).2, (hexDigit?_digit second).2]
  simp

theorem utf8EncodeChar_ascii {c : Char} (h : c.toNat < 128) :
    String.utf8EncodeChar c = [c.toUInt8] := by
  have one : c.utf8Size = 1 := by
    rw [Char.utf8Size_eq_one_iff, UInt32.le_iff_toNat_le]
    exact Nat.le_of_lt_succ h
  rw [String.utf8EncodeChar_eq_singleton one]
  rfl

theorem segmentChar_ascii {c : Char} (h : isSegmentChar c = true) : c.toNat < 128 := by
  simp only [isSegmentChar, Bool.or_eq_true, List.contains_iff_mem] at h
  rcases h with letter | mark
  · unfold Char.isAlphanum Char.isAlpha Char.isUpper Char.isLower Char.isDigit at letter
    simp only [Bool.or_eq_true, Bool.and_eq_true, decide_eq_true_eq,
      UInt32.le_iff_toNat_le] at letter
    rcases letter with (⟨_, upper⟩ | ⟨_, lower⟩) | ⟨_, digit⟩
    · exact Nat.lt_of_le_of_lt upper (by decide)
    · exact Nat.lt_of_le_of_lt lower (by decide)
    · exact Nat.lt_of_le_of_lt digit (by decide)
  · have marks : ("-._~!$&'()*+,;=:@".toList.all fun d => d.toNat < 128) = true := by decide
    exact of_decide_eq_true (List.all_eq_true.1 marks c mark)

theorem hexDigit_segmentChar {n : Fin 16} {c : Char} (h : IsHexDigit n c) :
    isSegmentChar c = true := by
  rcases h with rfl | rfl
  all_goals
    revert n
    decide

theorem segmentChar_ne {c d : Char} (h : isSegmentChar c = true)
    (other : isSegmentChar d = false) : c ≠ d := by
  rintro rfl
  rw [h] at other
  contradiction

theorem toUInt8_ne_percent {c : Char} (ascii : c.toNat < 128) (h : c ≠ '%') :
    c.toUInt8 ≠ 0x25 := by
  intro same
  have code : c.toNat % 256 = 0x25 := congrArg UInt8.toNat same
  rw [Nat.mod_eq_of_lt (by omega)] at code
  exact h (Char.toNat_inj.1 code)

theorem percentDecode_spelling {segment : List Char} {bs : List UInt8} (h : Spells segment bs) :
    percentDecode (segment.flatMap String.utf8EncodeChar) = bs := by
  induction h with
  | nil => simp [percentDecode]
  | plain allowed _ ih =>
    have ascii := segmentChar_ascii allowed
    have no_escape := toUInt8_ne_percent ascii (segmentChar_ne allowed (by decide))
    rw [List.flatMap_cons, utf8EncodeChar_ascii ascii, List.singleton_append,
      percentDecode_cons no_escape, ih]
  | escaped first second _ ih =>
    rw [List.flatMap_cons, List.flatMap_cons, List.flatMap_cons,
      utf8EncodeChar_ascii (hexDigit?_digit first).1,
      utf8EncodeChar_ascii (hexDigit?_digit second).1]
    refine (percentDecode_escape (hexByte?_digits first second) _).trans ?_
    rw [← ih]
    rfl

theorem eq_empty_of_spelling {text : String} (h : Spells [] (bytesOf text)) : text = "" := by
  generalize spelled : bytesOf text = bs at h
  cases h
  have same := fromUTF8?_bytesOf text
  rw [spelled] at same
  exact (Option.some.inj same).symm

end LayeredPreferences.Text

namespace LayeredPreferences.Http

theorem decodeSegment_spelling {segment : List Char} {key : String}
    (h : Text.Spells segment (Text.bytesOf key)) : decodeSegment segment = some key := by
  rw [decodeSegment, Text.percentDecode_spelling h, Text.fromUTF8?_bytesOf]

end LayeredPreferences.Http

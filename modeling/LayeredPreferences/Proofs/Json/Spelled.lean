import LayeredPreferences.Proofs.Json.Quotation
import LayeredPreferences.Proofs.Json.Suffix
import LayeredPreferences.Proofs.Text.Percent

set_option autoImplicit false

/-!
# Strings as they are spelled

Between its quotation marks a string is spelled in pieces. A piece is a character that stands for
itself, a letter after a backslash, or a code unit in hexadecimal digits. Every spelling is read as
the characters that it denotes, or refused if surrogates are left alone, and nothing else is read.
-/
namespace LayeredPreferences.Json

/-! ## Pieces -/

/-- The letters that may follow a backslash, with the characters that they denote. -/
def shortEscapes : List (Char × Char) :=
  [('"', '"'), ('\\', '\\'), ('/', '/'), ('b', '\x08'), ('f', '\x0c'), ('n', '\n'), ('r', '\r'),
    ('t', '\t')]

/-- Four hexadecimal digits of a code unit. -/
inductive Hex : Nat → List Char → Prop where
  | digits {i j k l : Fin 16} {a b c d : Char} (first : Text.IsHexDigit i a)
    (second : Text.IsHexDigit j b) (third : Text.IsHexDigit k c) (fourth : Text.IsHexDigit l d) :
    Hex (((i * 16 + j) * 16 + k) * 16 + l) [a, b, c, d]

inductive Piece where
  | plain (c : Char)
  | short (letter c : Char)
  | unit (n : Nat) (digits : List Char)

namespace Piece

def text : Piece → List Char
  | plain c => [c]
  | short letter _ => ['\\', letter]
  | unit _ digits => '\\' :: 'u' :: digits

inductive WellFormed : Piece → Prop where
  | plain {c : Char} (quote : c ≠ '"') (backslash : c ≠ '\\') (visible : ¬ c.toNat < 0x20) :
    WellFormed (plain c)
  | short {letter c : Char} (known : (letter, c) ∈ shortEscapes) : WellFormed (short letter c)
  | unit {n : Nat} {digits : List Char} (hex : Hex n digits) : WellFormed (unit n digits)

end Piece

abbrev IsHigh (n : Nat) : Prop := 0xD800 ≤ n ∧ n ≤ 0xDBFF

abbrev IsLow (n : Nat) : Prop := 0xDC00 ≤ n ∧ n ≤ 0xDFFF

/-- The character of a pair of surrogates. -/
def joined (high low : Nat) : Char :=
  Char.ofNat ((high - 0xD800) * 1024 + (low - 0xDC00) + 0x10000)

/-- The characters that pieces denote. A surrogate denotes something only as a half of a pair. -/
inductive Denotes : List Piece → List Char → Prop where
  | nil : Denotes [] []
  | plain {c : Char} {ps : List Piece} {cs : List Char} (more : Denotes ps cs) :
    Denotes (.plain c :: ps) (c :: cs)
  | short {letter c : Char} {ps : List Piece} {cs : List Char} (more : Denotes ps cs) :
    Denotes (.short letter c :: ps) (c :: cs)
  | unit {n : Nat} {digits : List Char} {ps : List Piece} {cs : List Char} (high : ¬ IsHigh n)
    (low : ¬ IsLow n) (more : Denotes ps cs) : Denotes (.unit n digits :: ps) (Char.ofNat n :: cs)
  | pair {n m : Nat} {digits digits' : List Char} {ps : List Piece} {cs : List Char}
    (high : IsHigh n) (low : IsLow m) (more : Denotes ps cs) :
    Denotes (.unit n digits :: .unit m digits' :: ps) (joined n m :: cs)

/-- What stands between the quotation marks. -/
def spelling (ps : List Piece) : List Char := ps.flatMap Piece.text

def WellSpelled (ps : List Piece) : Prop := ∀ p ∈ ps, p.WellFormed

/-! ## Hexadecimal digits -/

theorem hexDigit?_isHexDigit {i : Fin 16} {c : Char} (h : Text.IsHexDigit i c) :
    hexDigit? (.char c) = some i.val := by
  rcases h with rfl | rfl
  all_goals
    revert i
    decide

theorem isHexDigit_ascii : ∀ v < 128, ∀ n, hexDigit? (.char (Char.ofNat v)) = some n →
    ∃ i : Fin 16, i.val = n ∧ Text.IsHexDigit i (Char.ofNat v) := by
  have all : ∀ v < 128, hexDigit? (.char (Char.ofNat v)) = none ∨
      ∃ i : Fin 16, hexDigit? (.char (Char.ofNat v)) = some i.val ∧
        (Char.ofNat v = Nat.digitChar i ∨ Char.ofNat v = (Nat.digitChar i).toUpper) := by
    decide +kernel
  intro v small n found
  rcases all v small with none | ⟨i, value, digit⟩
  · rw [none] at found
    cases found
  · rw [value] at found
    exact ⟨i, Option.some.inj found, digit⟩

theorem isHexDigit_of_hexDigit? {g : Glyph} {n : Nat} (h : hexDigit? g = some n) :
    ∃ (i : Fin 16) (c : Char), i.val = n ∧ g = .char c ∧ Text.IsHexDigit i c := by
  cases g with
  | stray => cases h
  | char c =>
    have small : c.toNat < 128 := by
      unfold hexDigit? at h
      dsimp only at h
      split_ifs at h with digit lower upper
      · exact Nat.lt_of_le_of_lt digit.2 (by decide)
      · exact Nat.lt_of_le_of_lt lower.2 (by decide)
      · exact Nat.lt_of_le_of_lt upper.2 (by decide)
    rw [← Char.ofNat_toNat c] at h
    obtain ⟨i, value, digit⟩ := isHexDigit_ascii _ small n h
    rw [Char.ofNat_toNat] at digit
    exact ⟨i, c, value, rfl, digit⟩

theorem hexFour_spelled {n : Nat} {digits : List Char} (h : Hex n digits) (more : Source) :
    hexFour (digits.map .char ++ more) = .ok (n, more) := by
  cases h with
  | digits first second third fourth =>
    simp [hexFour, hexDigit?_isHexDigit first, hexDigit?_isHexDigit second,
      hexDigit?_isHexDigit third, hexDigit?_isHexDigit fourth]

theorem hexFour_inv {source rest : Source} {n : Nat} (h : hexFour source = .ok (n, rest)) :
    ∃ digits, Hex n digits ∧ source = digits.map .char ++ rest := by
  unfold hexFour at h
  split at h
  case h_2 => split_ifs at h
  case h_1 four =>
    cases h
    match source with
    | [] | [_] | [_, _] | [_, _, _] => simp [Option.bind_eq_some_iff] at four
    | g₁ :: g₂ :: g₃ :: g₄ :: rest =>
      simp only [List.take_succ_cons, List.take_zero, List.mapM_cons, List.mapM_nil,
        Option.bind_eq_bind, Option.bind_eq_some_iff, Option.pure_def, Option.some.injEq,
        List.cons.injEq] at four
      obtain ⟨_, first, _, ⟨_, second, _, ⟨_, third, _, ⟨_, fourth, _, rfl, rfl⟩, rfl⟩, rfl⟩,
        rfl, rfl, rfl, rfl, -⟩ := four
      obtain ⟨i, _, rfl, rfl, isFirst⟩ := isHexDigit_of_hexDigit? first
      obtain ⟨j, _, rfl, rfl, isSecond⟩ := isHexDigit_of_hexDigit? second
      obtain ⟨k, _, rfl, rfl, isThird⟩ := isHexDigit_of_hexDigit? third
      obtain ⟨l, _, rfl, rfl, isFourth⟩ := isHexDigit_of_hexDigit? fourth
      exact ⟨_, .digits isFirst isSecond isThird isFourth, rfl⟩

/-! ## Escapes -/

theorem escape_short {letter c : Char} (known : (letter, c) ∈ shortEscapes) (more : Source) :
    escape (.char letter :: more) = .ok (c, more) := by
  simp only [shortEscapes, List.mem_cons, List.not_mem_nil, or_false, Prod.mk.injEq] at known
  rcases known with ⟨rfl, rfl⟩ | ⟨rfl, rfl⟩ | ⟨rfl, rfl⟩ | ⟨rfl, rfl⟩ | ⟨rfl, rfl⟩ | ⟨rfl, rfl⟩
    | ⟨rfl, rfl⟩ | ⟨rfl, rfl⟩ <;> rfl

theorem short_ne_u {letter c : Char} (known : (letter, c) ∈ shortEscapes) : letter ≠ 'u' := by
  rintro rfl
  simp [shortEscapes] at known

theorem escape_unit {n : Nat} {digits : List Char} (hex : Hex n digits) (high : ¬ IsHigh n)
    (low : ¬ IsLow n) (more : Source) :
    escape (.char 'u' :: (digits.map .char ++ more)) = .ok (Char.ofNat n, more) := by
  change codePoint _ = _
  unfold codePoint
  rw [bind_ok (hexFour_spelled hex more), if_neg low, if_neg high]
  rfl

theorem escape_pair {n m : Nat} {digits digits' : List Char} (hex : Hex n digits)
    (hex' : Hex m digits') (high : IsHigh n) (low : IsLow m) (more : Source) :
    escape (.char 'u' :: (digits.map .char ++
        .char '\\' :: .char 'u' :: (digits'.map .char ++ more))) = .ok (joined n m, more) := by
  have other : ¬ IsLow n := by omega
  have second : lowSurrogate n (.char '\\' :: .char 'u' :: (digits'.map .char ++ more))
      = .ok (joined n m, more) := by
    change (hexFour _ >>= _) = _
    rw [hexFour_spelled hex' more]
    change (if IsLow m then _ else _) = _
    rw [if_pos low]
    rfl
  change codePoint _ = _
  unfold codePoint
  rw [bind_ok (hexFour_spelled hex _), if_neg other, if_pos high]
  exact second

theorem lowSurrogate_inv {n : Nat} {source rest : Source} {c : Char}
    (h : lowSurrogate n source = .ok (c, rest)) :
    ∃ m digits, Hex m digits ∧ IsLow m ∧ c = joined n m ∧
      source = .char '\\' :: .char 'u' :: (digits.map .char ++ rest) := by
  unfold lowSurrogate at h
  split at h
  case h_3 more =>
    change (hexFour more >>= _) = _ at h
    rcases read : hexFour more with fault | ⟨m, middle⟩ <;> rw [read] at h
    · cases h
    · change (if IsLow m then _ else _) = _ at h
      by_cases low : IsLow m
      · rw [if_pos low] at h
        obtain ⟨char, same⟩ := Prod.mk.inj (Except.ok.inj h)
        obtain ⟨digits, hex, rfl⟩ := hexFour_inv read
        exact ⟨m, digits, hex, low, char.symm, by rw [same]⟩
      · rw [if_neg low] at h
        cases h
  all_goals cases h

theorem escape_inv {source rest : Source} {c : Char} (h : escape source = .ok (c, rest)) :
    (∃ letter, (letter, c) ∈ shortEscapes ∧ source = .char letter :: rest) ∨
    (∃ n digits, Hex n digits ∧ ¬ IsHigh n ∧ ¬ IsLow n ∧ c = Char.ofNat n ∧
      source = .char 'u' :: (digits.map .char ++ rest)) ∨
    (∃ n m digits digits', Hex n digits ∧ Hex m digits' ∧ IsHigh n ∧ IsLow m ∧ c = joined n m ∧
      source = .char 'u' :: (digits.map .char ++
        .char '\\' :: .char 'u' :: (digits'.map .char ++ rest))) := by
  unfold escape at h
  split at h
  case h_1 => cases h
  case h_11 => cases h
  case h_10 more =>
    unfold codePoint at h
    obtain ⟨n, middle, read, chosen⟩ := bind_inv h
    obtain ⟨digits, hex, rfl⟩ := hexFour_inv read
    split_ifs at chosen with low high
    · cases chosen
    · obtain ⟨m, digits', hex', low, char, rfl⟩ := lowSurrogate_inv chosen
      exact .inr (.inr ⟨n, m, digits, digits', hex, hex', high, low, char, rfl⟩)
    · cases chosen
      exact .inr (.inl ⟨n, digits, hex, high, low, rfl, rfl⟩)
  all_goals
    cases h
    exact .inl ⟨_, by simp [shortEscapes], rfl⟩

/-! ## Strings -/

theorem spelling_cons (p : Piece) (ps : List Piece) : spelling (p :: ps) = p.text ++ spelling ps :=
  List.flatMap_cons

theorem wellSpelled_cons {p : Piece} {ps : List Piece} :
    WellSpelled (p :: ps) ↔ p.WellFormed ∧ WellSpelled ps := List.forall_mem_cons

theorem letters_closing (reader : Reader Char) (rest : Source) :
    letters reader (.char '"' :: rest) = .ok ([], rest) := by
  rw [letters]

/-- The source starts behind the opening mark. -/
theorem letters_denoted {ps : List Piece} {cs : List Char} (wellSpelled : WellSpelled ps)
    (denotes : Denotes ps cs) (rest : Source) :
    letters escape ((spelling ps).map .char ++ .char '"' :: rest) = .ok (cs.map .char, rest) := by
  induction denotes with
  | nil => exact letters_closing escape rest
  | plain _ ih =>
    obtain ⟨front, others⟩ := wellSpelled_cons.1 wellSpelled
    cases front with
    | plain quote backslash visible =>
      rw [spelling_cons]
      exact (letters_plain _ quote backslash visible).trans (congrArg (Except.map _) (ih others))
  | short _ ih =>
    obtain ⟨front, others⟩ := wellSpelled_cons.1 wellSpelled
    cases front with
    | short known =>
      rw [spelling_cons]
      exact (letters_escape (escape_short known _) (by simp)).trans
        (congrArg (Except.map _) (ih others))
  | unit high low _ ih =>
    obtain ⟨front, others⟩ := wellSpelled_cons.1 wellSpelled
    cases front with
    | unit hex =>
      rw [spelling_cons, List.map_append, List.append_assoc]
      exact (letters_escape (escape_unit hex high low _) (by simp; omega)).trans
        (congrArg (Except.map _) (ih others))
  | pair high low _ ih =>
    obtain ⟨front, others⟩ := wellSpelled_cons.1 wellSpelled
    obtain ⟨next, others⟩ := wellSpelled_cons.1 others
    cases front with
    | unit hex =>
    cases next with
    | unit hex' =>
      rw [spelling_cons, spelling_cons, List.map_append, List.append_assoc, List.map_append,
        List.append_assoc]
      exact (letters_escape (escape_pair hex hex' high low _) (by simp; omega)).trans
        (congrArg (Except.map _) (ih others))

theorem letters_inv {source rest : Source} {cs : List Char}
    (h : letters escape source = .ok (cs.map .char, rest)) : ∃ ps, WellSpelled ps ∧ Denotes ps cs ∧
      source = (spelling ps).map .char ++ .char '"' :: rest := by
  fun_induction letters escape source generalizing cs with
  | case1 => cases h
  | case2 more =>
    obtain ⟨none, rfl⟩ := Prod.mk.inj (Except.ok.inj h)
    obtain rfl := List.map_eq_nil_iff.1 none.symm
    exact ⟨[], by simp [WellSpelled], .nil, rfl⟩
  | case3 => cases h
  | case4 inside c more escaped _ ih =>
    rcases others : letters escape more with fault | ⟨gs, last⟩ <;> rw [others] at h
    · cases h
    · obtain ⟨all, rfl⟩ := Prod.mk.inj (Except.ok.inj h)
      obtain ⟨c', cs', rfl, first, rfl⟩ := List.map_eq_cons_iff.1 all.symm
      obtain rfl := Glyph.char.inj first
      obtain ⟨ps, wellSpelled, denotes, rfl⟩ := ih others
      rcases escape_inv escaped with ⟨letter, known, rfl⟩ | ⟨n, digits, hex, high, low, char, rfl⟩
        | ⟨n, m, digits, digits', hex, hex', high, low, char, rfl⟩
      · exact ⟨.short letter _ :: ps, wellSpelled_cons.2 ⟨.short known, wellSpelled⟩,
          .short denotes, rfl⟩
      · exact ⟨.unit n digits :: ps, wellSpelled_cons.2 ⟨.unit hex, wellSpelled⟩,
          char ▸ .unit high low denotes, by simp [spelling, Piece.text]⟩
      · exact ⟨.unit n digits :: .unit m digits' :: ps,
          wellSpelled_cons.2 ⟨.unit hex, wellSpelled_cons.2 ⟨.unit hex', wellSpelled⟩⟩,
          char ▸ .pair high low denotes, by simp [spelling, Piece.text]⟩
  | case5 => cases h
  | case6 => cases h
  | case7 g more quote backslash visible ih =>
    rcases others : letters escape more with fault | ⟨gs, last⟩ <;> rw [others] at h
    · cases h
    · obtain ⟨all, rfl⟩ := Prod.mk.inj (Except.ok.inj h)
      obtain ⟨c, cs', rfl, rfl, rfl⟩ := List.map_eq_cons_iff.1 all.symm
      obtain ⟨ps, wellSpelled, denotes, rfl⟩ := ih others
      have plain : (Piece.plain c).WellFormed := by
        refine .plain ?_ ?_ (by simpa [Glyph.isControl] using visible)
        · rintro rfl
          exact quote rfl
        · rintro rfl
          exact backslash rfl
      exact ⟨.plain c :: ps, wellSpelled_cons.2 ⟨plain, wellSpelled⟩, .plain denotes, rfl⟩

theorem chars_of_mapM {gs : List Glyph} {cs : List Char} (h : gs.mapM Glyph.char? = some cs) :
    gs = cs.map .char := by
  induction gs generalizing cs with
  | nil =>
    cases h
    rfl
  | cons g gs ih =>
    simp only [List.mapM_cons, Option.bind_eq_bind, Option.bind_eq_some_iff, Option.pure_def,
      Option.some.injEq] at h
    obtain ⟨c, char, cs, others, rfl⟩ := h
    cases g with
    | stray => cases char
    | char c' =>
      cases char
      rw [ih others]
      rfl

/-- The source starts behind the opening mark. -/
theorem quotation_denoted {ps : List Piece} {cs : List Char} (wellSpelled : WellSpelled ps)
    (denotes : Denotes ps cs) (rest : Source) :
    quotation ((spelling ps).map .char ++ .char '"' :: rest) = .ok (String.ofList cs, rest) := by
  unfold quotation
  rw [bind_ok (letters_denoted wellSpelled denotes rest), mapM_char]
  rfl

theorem quotation_inv {source rest : Source} {s : String} (h : quotation source = .ok (s, rest)) :
    ∃ ps, WellSpelled ps ∧ Denotes ps s.toList ∧
      source = (spelling ps).map .char ++ .char '"' :: rest := by
  unfold quotation at h
  obtain ⟨gs, middle, read, chosen⟩ := bind_inv h
  cases all : gs.mapM Glyph.char? with
  | none =>
    rw [all] at chosen
    cases chosen
  | some cs =>
    rw [all] at chosen
    obtain ⟨rfl, rfl⟩ := Prod.mk.inj (Except.ok.inj chosen)
    rw [chars_of_mapM all] at read
    obtain ⟨ps, wellSpelled, denotes, rfl⟩ := letters_inv read
    exact ⟨ps, wellSpelled, by simpa using denotes, rfl⟩

end LayeredPreferences.Json

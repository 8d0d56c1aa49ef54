import LayeredPreferences.Proofs.Json.Sight
import LayeredPreferences.Proofs.Json.Spelled
import LayeredPreferences.Proofs.Json.Spelling

set_option autoImplicit false

/-!
# What was seen stands there

From the value that a reader saw at the front, what stands there is known: a word, a string that is
spelled so, an opening bracket, or what the number was read from.
-/
namespace LayeredPreferences

namespace Json

theorem peek_inv {source rest : Source} {front : Option Glyph}
    (h : peek source = .ok (front, rest)) :
    ∃ pad, Blanks pad ∧ source = pad ++ rest ∧ rest.head? = front := by
  obtain ⟨rfl, rfl⟩ := Prod.mk.inj (Except.ok.inj h)
  refine ⟨source.takeWhile Glyph.isBlank, fun g member => ?_, List.takeWhile_append_dropWhile.symm,
    rfl⟩
  exact List.mem_takeWhile_imp member

theorem keyword_inv {word : List Char} {source rest : Source}
    (h : keyword word source = .ok ((), rest)) : source = word.map .char ++ rest := by
  induction word generalizing source with
  | nil =>
    cases h
    rfl
  | cons c word ih =>
    cases source with
    | nil => cases h
    | cons g source =>
      unfold keyword at h
      dsimp only at h
      split at h
      · rename_i same
        rw [same, ih h]
        rfl
      · cases h

/-- What stands at the front of the source where the value is seen, and what is left of it. -/
inductive Stands : Sight → Source → Source → Prop where
  | null (rest : Source) : Stands .null (nullWord.map .char ++ rest) rest
  | boolean (b : Bool) (rest : Source) : Stands (.boolean b) ((writeBool b).map .char ++ rest) rest
  | number {n : Number} {source rest : Source} (read : number source = .ok (n, rest)) :
    Stands (.number n) source rest
  | string {s : String} {ps : List Piece} (rest : Source) (wellSpelled : WellSpelled ps)
    (denotes : Denotes ps s.toList) :
    Stands (.string s) (.char '"' :: ((spelling ps).map .char ++ .char '"' :: rest)) rest
  | list (rest : Source) : Stands .list (.char '[' :: rest) rest
  | object (rest : Source) : Stands .object (.char '{' :: rest) rest

theorem sight_inv {source rest : Source} {found : Sight} (h : sight source = .ok (found, rest)) :
    ∃ pad front, Blanks pad ∧ source = pad ++ front ∧ Stands found front rest := by
  unfold sight at h
  obtain ⟨g, front, peeked, seen⟩ := bind_inv h
  obtain ⟨pad, blanks, rfl, head⟩ := peek_inv peeked
  refine ⟨pad, front, blanks, rfl, ?_⟩
  split at seen
  case h_1 => cases seen
  case h_2 =>
    obtain ⟨_, middle, word, ended⟩ := bind_inv seen
    cases ended
    rw [keyword_inv word]
    exact .null rest
  case h_3 =>
    obtain ⟨_, middle, word, ended⟩ := bind_inv seen
    cases ended
    rw [keyword_inv word]
    exact .boolean true rest
  case h_4 =>
    obtain ⟨_, middle, word, ended⟩ := bind_inv seen
    cases ended
    rw [keyword_inv word]
    exact .boolean false rest
  case h_5 =>
    obtain ⟨more, rfl⟩ := List.head?_eq_some_iff.1 head
    obtain ⟨_, inner, stepped, seen⟩ := bind_inv seen
    cases stepped
    obtain ⟨s, middle, read, ended⟩ := bind_inv seen
    cases ended
    obtain ⟨ps, wellSpelled, denotes, rfl⟩ := quotation_inv read
    exact .string rest wellSpelled denotes
  case h_6 =>
    obtain ⟨more, rfl⟩ := List.head?_eq_some_iff.1 head
    cases seen
    exact .list more
  case h_7 =>
    obtain ⟨more, rfl⟩ := List.head?_eq_some_iff.1 head
    cases seen
    exact .object more
  case h_8 =>
    split at seen
    · obtain ⟨n, middle, read, ended⟩ := bind_inv seen
      cases ended
      exact .number read
    · cases seen

/-- A string is seen however it is spelled. -/
theorem sight_spelled {pad : Source} (blanks : Blanks pad) {ps : List Piece} {cs : List Char}
    (wellSpelled : WellSpelled ps) (denotes : Denotes ps cs) (rest : Source) :
    sight (pad ++ .char '"' :: ((spelling ps).map .char ++ .char '"' :: rest))
      = .ok (.string (String.ofList cs), rest) := by
  unfold sight
  rw [bind_ok (peek_token blanks rfl _)]
  change (do advance; return Sight.string (← quotation) : Reader Sight) _ = _
  rw [bind_ok (advance_cons _ _), bind_ok (quotation_denoted wellSpelled denotes rest)]
  rfl

theorem kept_inv {room : Nat} {source rest : Source} {found : Sight}
    (h : kept room source = .ok (found, rest)) (list : found ≠ .list) (object : found ≠ .object) :
    sight source = .ok (found, rest) := by
  cases room with
  | zero =>
    unfold kept at h
    obtain ⟨seen, middle, read, chosen⟩ := bind_inv h
    cases seen <;> cases chosen <;> exact read
  | succ room =>
    unfold kept at h
    obtain ⟨seen, middle, read, chosen⟩ := bind_inv h
    cases seen with
    | list =>
      obtain ⟨_, _, -, chosen⟩ := bind_inv chosen
      obtain ⟨_, _, -, chosen⟩ := bind_inv chosen
      cases chosen
      exact absurd rfl list
    | object =>
      obtain ⟨_, _, -, chosen⟩ := bind_inv chosen
      obtain ⟨_, _, -, chosen⟩ := bind_inv chosen
      cases chosen
      exact absurd rfl object
    | _ =>
      cases chosen
      exact read

theorem whole_inv {α : Type} {x : Reader α} {source : Source} {a : α}
    (h : whole x source = .ok a) : ∃ rest, x source = .ok (a, rest) ∧ Blanks rest := by
  unfold whole at h
  cases read : x source with
  | error fault =>
    rw [read] at h
    cases h
  | ok r =>
    obtain ⟨b, rest⟩ := r
    rw [read] at h
    change (if rest.all Glyph.isBlank then _ else _) = _ at h
    by_cases blank : rest.all Glyph.isBlank
    · rw [if_pos blank] at h
      cases h
      exact ⟨rest, rfl, List.all_eq_true.1 blank⟩
    · rw [if_neg blank] at h
      cases h

/-! ## The number one -/

theorem le_significand (s taken : Nat) (source : Source) : s ≤ (significand s taken source).1 := by
  fun_induction significand s taken source with
  | case2 s taken g rest d digit fits ih => omega
  | _ => exact Nat.le_refl _

theorem real_not_integer {negative : Bool} {s : Nat} {e n : Int} {source rest : Source} :
    real negative s e source ≠ .ok (.integer n, rest) := by
  intro h
  unfold real at h
  cases scaled : Binary64.scaledRank? s e <;> rw [scaled] at h <;> cases h

theorem power_not_integer {negative : Bool} {s : Nat} {e n : Int} {source rest : Source} :
    power negative s e source ≠ .ok (.integer n, rest) := by
  intro h
  unfold power at h
  split at h
  split at h
  · cases h
  · split at h
    · exact real_not_integer h
    · cases h

theorem fraction_not_integer {negative : Bool} {s e : Nat} {n : Int} {source rest : Source} :
    fraction negative s e source ≠ .ok (.integer n, rest) := by
  intro h
  unfold fraction at h
  dsimp only at h
  split at h
  · split at h <;> cases h
  · split at h
    · exact power_not_integer h
    · exact power_not_integer h
    · exact real_not_integer h

/-- An integer has neither a fraction nor an exponent. -/
theorem afterInteger_integer {negative : Bool} {s skipped : Nat} {n : Int} {source rest : Source}
    (h : afterInteger negative s skipped source = .ok (.integer n, rest)) :
    skipped = 0 ∧ source = rest ∧ integral negative s = .integer n := by
  unfold afterInteger at h
  split at h
  · exact absurd h fraction_not_integer
  · exact absurd h power_not_integer
  · exact absurd h power_not_integer
  · split at h
    · rename_i none
      obtain ⟨whole, left⟩ := Prod.mk.inj (Except.ok.inj h)
      exact ⟨none, left, whole⟩
    · exact absurd h real_not_integer

theorem integral_one {negative : Bool} {s : Nat} (h : integral negative s = .integer 1) :
    negative = false ∧ s = 1 := by
  unfold integral at h
  cases negative with
  | true =>
    rw [if_pos rfl] at h
    split_ifs at h with whole
    have := Number.integer.inj h
    omega
  | false =>
    rw [if_neg (by decide)] at h
    have := Number.integer.inj h
    exact ⟨rfl, by omega⟩

theorem digit?_inv {g : Glyph} {n : Nat} (h : digit? g = some n) :
    ∃ c, g = .char c ∧ c.isDigit ∧ c.toNat = n + '0'.toNat := by
  unfold digit? at h
  split at h
  · rename_i c
    split_ifs at h with digit
    have first : '0'.toNat ≤ c.toNat := by
      simp only [Char.isDigit, Bool.and_eq_true, decide_eq_true_eq] at digit
      exact digit.1
    have value := Option.some.inj h
    exact ⟨c, rfl, digit, by omega⟩
  · cases h

/-- A significand that is not zero grows with every digit. -/
theorem significand_same {s taken : Nat} {source : Source} (positive : 0 < s)
    (h : (significand s taken source).1 = s) : (significand s taken source).2.2 = source := by
  cases source with
  | nil => rfl
  | cons g rest =>
    unfold significand at h ⊢
    cases digit : digit? g with
    | none => rfl
    | some d =>
      rw [digit] at h
      dsimp only at h ⊢
      split at h
      · have := le_significand (10 * s + d) (taken + 1) rest
        omega
      · rename_i full
        rw [if_neg full]

theorem le_countDigits (n : Nat) (source : Source) : n ≤ (countDigits n source).1 := by
  fun_induction countDigits n source with
  | case2 n g rest digit ih => omega
  | _ => exact Nat.le_refl _

theorem countDigits_same {n : Nat} {source : Source} (h : (countDigits n source).1 = n) :
    (countDigits n source).2 = source := by
  cases source with
  | nil => rfl
  | cons g rest =>
    unfold countDigits at h ⊢
    split at h
    · have := le_countDigits (n + 1) rest
      omega
    · rename_i other
      rw [if_neg other]

/-- The digit `1` is all that a significand of one is made of, if no zeros stand before it. -/
theorem significand_one {g : Glyph} {more : Source} (digit : (digit? g).isSome)
    (nonzero : g ≠ .char '0') (h : (significand 0 0 (g :: more)).1 = 1) :
    g = .char '1' ∧ (significand 0 0 (g :: more)).2.2 = more := by
  obtain ⟨d, value⟩ := Option.isSome_iff_exists.1 digit
  obtain ⟨c, rfl, isDigit, code⟩ := digit?_inv value
  have small : d ≤ 9 := by
    have := digit_le isDigit
    omega
  have first : significand 0 0 (.char c :: more) = significand d 1 more := by
    rw [significand, value]
    dsimp only
    rw [if_pos (by rw [Nat.mul_zero, Nat.zero_add]; exact Nat.lt_of_le_of_lt small (by decide)),
      Nat.mul_zero, Nat.zero_add]
  rw [first] at h ⊢
  have positive : 0 < d := by
    refine Nat.pos_of_ne_zero ?_
    rintro rfl
    exact nonzero (congrArg Glyph.char (Char.toNat_inj.1 (by omega)))
  have one : d = 1 := by
    have := le_significand d 1 more
    omega
  subst one
  exact ⟨congrArg Glyph.char (Char.toNat_inj.1 (by rw [code]; rfl)), significand_same positive h⟩

theorem magnitude_one {negative : Bool} {source rest : Source}
    (h : magnitude negative source = .ok (.integer 1, rest)) :
    negative = false ∧ source = .char '1' :: rest := by
  unfold magnitude at h
  split at h
  case h_1 => cases h
  case h_2 =>
    split at h
    · cases h
    · obtain ⟨-, -, one⟩ := afterInteger_integer h
      exact absurd (integral_one one).2 (by decide)
  case h_3 g more other =>
    split at h
    · rename_i digit
      dsimp only at h
      obtain ⟨skipped, left, one⟩ := afterInteger_integer h
      obtain ⟨positive, value⟩ := integral_one one
      have nonzero : g ≠ .char '0' := by
        rintro rfl
        exact other rfl
      obtain ⟨rfl, taken⟩ := significand_one digit nonzero value
      rw [taken] at skipped left
      exact ⟨positive, by rw [← left, countDigits_same skipped]⟩
    · cases h

theorem number_one {source rest : Source} (h : number source = .ok (.integer 1, rest)) :
    source = .char '1' :: rest := by
  unfold number at h
  split at h
  · exact absurd (magnitude_one h).1 (by decide)
  · exact (magnitude_one h).2

end Json

open Json

/-- Of a value only what is seen at the front counts. -/
theorem Value.shape_inv {room : Nat} {source rest : Source} {v : Value}
    (h : shape room source = .ok (v, rest)) :
    ∃ found, sight source = .ok (found, rest) ∧ Value.ofSight? found = some v := by
  unfold Value.shape at h
  obtain ⟨found, middle, read, chosen⟩ := bind_inv h
  cases value : ofSight? found with
  | none =>
    rw [value] at chosen
    cases chosen
  | some w =>
    rw [value] at chosen
    cases chosen
    refine ⟨found, kept_inv read ?_ ?_, value⟩
    · rintro rfl
      cases value
    · rintro rfl
      cases value

end LayeredPreferences

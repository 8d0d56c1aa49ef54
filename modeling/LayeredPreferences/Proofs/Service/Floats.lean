import LayeredPreferences.Proofs.Number.Finite
import LayeredPreferences.Proofs.Number.Reread
import LayeredPreferences.Proofs.Service.Independence
import LayeredPreferences.Proofs.Service.Typing

set_option autoImplicit false

/-!
# How floats come back

The text of a finite float tells its shortest decimal, which no other float has. But the digits and the
power of ten are rounded before they are put together, so another float can come back, though never one
that is far away. The float itself comes back where neither has to be rounded.
-/
namespace LayeredPreferences

open LayeredPreferences.Action CellStore

namespace Binary64

/-- Finite floats of one sign, no more than five places apart. -/
def Beside : Binary64 → Binary64 → Prop
  | .finite negative a, .finite negative' b =>
    negative = negative' ∧ b.val ≤ a.val + 5 ∧ a.val ≤ b.val + 5
  | _, _ => False

/-- What comes back for a float is beside it. It is the float itself where the digits of the text find
room in 53 bits and the power of ten is a float. -/
structure ComesBackAs (x y : Binary64) : Prop where
  beside : x.Beside y
  exact : ∃ l : Json.Literal, l.WellFormed ∧ l.text = Json.writeReal x ∧
    (l.significand < 2 ^ 53 → l.exponent.natAbs ≤ 22 → y = x)

theorem rounded_told (rank : Nat) : Rounded (Json.told rank) rank := by
  unfold Json.told
  split_ifs with zero
  · rw [zero]
    exact rounded_zero
  · exact rounded_shortest .even (Nat.pos_of_ne_zero zero)

/-- Beyond its digits a text that tells a rank has no power of ten that is out of reach. -/
theorem places_told {s rank found : Nat} {e : Int} (fits : s < 2 ^ 64)
    (told : s * (10 : ℚ) ^ e = Json.told rank) (read : scaledRank? s e = some found) :
    found ≤ rank + 5 ∧ rank ≤ found + 5 := by
  rcases Nat.eq_zero_or_pos rank with rfl | positive
  · have none : (s : ℚ) * 10 ^ e = 0 := told
    obtain digits | power := mul_eq_zero.1 none
    · obtain rfl : s = 0 := by exact_mod_cast digits
      rw [(scales read).eq_zero]
      omega
    · exact absurd power (by positivity)
  · have exact : Rounded (s * 10 ^ e) rank := told ▸ rounded_told rank
    exact (scales read).places (exact.reach fits positive) exact

end Binary64

namespace Value

open Binary64 Json

/-- The digits and the power of ten of the text are what is read. -/
theorem decode_encode_float {x : Binary64} (finite : x.isFinite = true) :
    ∃ y, decode (encode (.float x)) = .float y ∧ x.ComesBackAs y := by
  cases x with
  | infinite negative => cases finite
  | notANumber => cases finite
  | finite negative rank =>
    obtain ⟨l, readable, text, sign, magnitude⟩ := writeReal_told negative rank
    obtain ⟨found, read⟩ := Option.isSome_iff_exists.1 readable.finite
    have bound : found < rankBound := scaledRank?_lt readable.fits read
    have back : decode (String.ofList l.text) = .float (.finite negative ⟨found, bound⟩) := by
      rw [decode_readable readable read, sign, ofRank, dif_pos bound]
    refine ⟨.finite negative ⟨found, bound⟩, ?_, ⟨rfl, places_told readable.fits magnitude read⟩,
      l, readable.toWellFormed, text, fun short few => ?_⟩
    · change decode (String.ofList (writeReal (.finite negative rank))) = _
      rw [← text]
      exact back
    · -- Both ranks have the decimal in their interval.
      have exact : Rounded (told rank) found := magnitude ▸ (scales read).rounded short few
      have same : found = rank := exact.unique (rounded_told rank)
      simp only [same]

end Value

namespace Service

/-- What is answered at the scope where a value was stored. -/
structure Answers (r : Registry) (t : Tables) (owner : Owner) (key : String) (v : Value) :
    Prop where
  org : owner.scope = .org → outcome (readOrg r owner.id key) t = (.ok ⟨key, v⟩, t)
  user : owner.scope = .user → ∀ org,
    outcome (readUser r org owner.id key) t = (.ok ⟨key, v⟩, t)

variable {r : Registry} {d : Definition} {t t' : Tables} {owner : Owner} {key : String}

/-- A value that was accepted is answered as its text is read. -/
theorem answers_written (intact : Intact t) (found : r.find? key = some d) {v w : Value}
    (accepted : r.Accepts owner.scope key v w) :
    ∃ t', outcome (write r owner key v) t = (.ok ⟨key, w⟩, t') ∧
      Answers r t' owner key (d.sanitize (Value.decode w.encode)) := by
  obtain ⟨t', stored, intact', cells⟩ := CellStore.upsert intact owner key w
  refine ⟨t', by rw [write_accepted accepted, stored]; rfl, ?_⟩
  obtain ⟨d', found', on, -⟩ := accepted
  obtain rfl : d' = d := Option.some.inj (found'.symm.trans found)
  have here : cell t' owner key = some (Value.decode w.encode) := by
    rw [cells, if_pos ⟨rfl, rfl⟩]
    rfl
  obtain ⟨scope, id⟩ := owner
  refine ⟨fun ofOrg => ?_, fun ofUser org => ?_⟩
  · obtain rfl : scope = .org := ofOrg
    have read : outcome (readAt r id id key .org) t' = _ := readAt_intact intact' found on
    rw [here] at read
    exact read
  · obtain rfl : scope = .user := ofUser
    have read : outcome (readAt r org id key .user) t' = _ := readAt_intact intact' found on
    rw [here] at read
    exact read

/-- A finite float that was set for a preference of this type comes back as it was or nearly so. -/
theorem floats_come_back (intact : Intact t) (found : r.find? key = some d)
    (float : d.valueType = .float) {x : Binary64} (finite : x.isFinite = true) {e : Effective}
    (written : outcome (write r owner key (.float x)) t = (.ok e, t')) :
    e = ⟨key, .float x⟩ ∧ ∃ y, Value.decode (Value.encode (.float x)) = .float y ∧
      x.ComesBackAs y ∧ Answers r t' owner key (.float y) := by
  obtain ⟨y, back, near⟩ := Value.decode_encode_float finite
  rcases r.refuses_or_accepts owner.scope key (.float x) with ⟨fault, refused⟩ | ⟨w, accepted⟩
  · rw [write_refused refused] at written
    cases written
  obtain ⟨u, stored, answers⟩ := answers_written intact found accepted
  obtain ⟨rfl, rfl⟩ : (⟨key, w⟩ : Effective) = e ∧ u = t' := by
    rw [stored] at written
    exact ⟨Except.ok.inj (congrArg Prod.fst written), congrArg Prod.snd written⟩
  have same : w = .float x := by
    obtain ⟨d', found', -, valid⟩ := accepted
    obtain rfl : d' = d := Option.some.inj (found'.symm.trans found)
    have coerced := (Definition.validate_eq_ok.1 valid).1
    rw [Value.coerce_same (show (Value.float x).type = _ from float.symm)] at coerced
    exact (Except.ok.inj coerced).symm
  rw [same, back, Definition.sanitize_same (v := .float y) float.symm] at answers
  exact ⟨by rw [same], y, back, near, answers⟩

/-- A factor of any size. -/
def factor : Definition where
  key := "FACTOR"
  name := "FACTOR"
  description := ""
  valueType := .float
  defaultValue := .float (.finite false ⟨0x3ff0000000000000, by decide⟩)
  domain := .range ⟨0, 1⟩
  scopes := [.org, .user]

theorem factor_accepts (scope : Scope) (x : Binary64) :
    Registry.Accepts ⟨[factor]⟩ scope "FACTOR" (.float x) (.float x) :=
  ⟨factor, rfl, by cases scope <;> decide, rfl⟩

/-- One half is set, and comes back. -/
theorem floats_come_back_half :
    let half : Binary64 := .finite false ⟨0x3fe0000000000000, by decide⟩
    ∃ t y, outcome (write ⟨[factor]⟩ ⟨.user, "ada"⟩ "FACTOR" (.float half)) Tables.empty
        = (.ok ⟨"FACTOR", .float half⟩, t) ∧ half.ComesBackAs y ∧
      outcome (readUser ⟨[factor]⟩ "acme" "ada" "FACTOR") t = (.ok ⟨"FACTOR", .float y⟩, t) := by
  intro half
  obtain ⟨t, written, -⟩ := @answers_written ⟨[factor]⟩ factor Tables.empty ⟨.user, "ada"⟩ "FACTOR"
    intact_empty rfl _ _ (factor_accepts .user half)
  have found : Registry.find? ⟨[factor]⟩ "FACTOR" = some factor := rfl
  obtain ⟨-, y, -, near, answers⟩ := floats_come_back intact_empty found rfl rfl written
  exact ⟨t, y, written, near, answers.user rfl "acme"⟩

/-- The text has seventeen digits, and its power of ten is no float. The next float below comes back. -/
theorem not_always_given_back :
    let wide : Binary64 := .finite false ⟨0x4a595c7ea02f34a6, by decide⟩
    let below : Binary64 := .finite false ⟨0x4a595c7ea02f34a5, by decide⟩
    ∃ t, outcome (write ⟨[factor]⟩ ⟨.org, "acme"⟩ "FACTOR" (.float wide)) Tables.empty
        = (.ok ⟨"FACTOR", .float wide⟩, t) ∧
      outcome (readOrg ⟨[factor]⟩ "acme" "FACTOR") t = (.ok ⟨"FACTOR", .float below⟩, t) ∧
      Value.float below ≠ Value.float wide := by
  intro wide below
  obtain ⟨t, written, answers⟩ := @answers_written ⟨[factor]⟩ factor Tables.empty ⟨.org, "acme"⟩
    "FACTOR" intact_empty rfl _ _ (factor_accepts .org wide)
  have back : Value.decode (Value.encode (.float wide)) = .float below := by decide +kernel
  rw [back] at answers
  exact ⟨t, written, answers.org rfl, by decide⟩

end Service

end LayeredPreferences

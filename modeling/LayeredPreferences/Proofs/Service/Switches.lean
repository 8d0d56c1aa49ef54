import LayeredPreferences.Proofs.Json.Finite
import LayeredPreferences.Proofs.Service.Steady
import LayeredPreferences.Proofs.Store.Tables

set_option autoImplicit false

/-!
# Booleans from any stored text

A boolean is on if the text in its row is `true`, the number `1` or a string that denotes `1`, blanks
around it left aside. Any other text, whether it is JSON or not, is read as off. Bytes that are said
to be text and are not in UTF-8 are not read at all.
-/
namespace LayeredPreferences

open Json LayeredPreferences.Action

/-- The spellings of what is on. -/
inductive Affirms : List Char → Prop where
  | literal : Affirms trueWord
  | number : Affirms ['1']
  | string {ps : List Piece} (wellSpelled : WellSpelled ps) (denotes : Denotes ps ['1']) :
    Affirms ('"' :: (spelling ps ++ ['"']))

/-- Blanks may stand around the spelling, and nothing else. -/
def Affirmed (text : String) : Prop :=
  ∃ before inside after : List Char, Blanks (before.map .char) ∧ Blanks (after.map .char) ∧
    Affirms inside ∧ text.toList = before ++ (inside ++ after)

namespace Value

/-- Sanitizing takes these values for on. -/
inductive IsOn : Value → Prop where
  | boolean : IsOn (.boolean true)
  | integer : IsOn (.integer 1)
  | string : IsOn (.string "1")

theorem decode_inv {text : String} {v : Value} (h : decode text = v) :
    v = .string text ∨ ∃ found rest, sight (.ofString text) = .ok (found, rest) ∧ Blanks rest ∧
      ofSight? found = some v := by
  unfold decode at h
  cases parsed : parse shape (.ofString text) with
  | error fault =>
    rw [parsed] at h
    exact .inl h.symm
  | ok w =>
    rw [parsed] at h
    obtain rfl : w = v := h
    obtain ⟨rest, read, blanks⟩ := whole_inv parsed
    obtain ⟨found, seen, value⟩ := shape_inv read
    exact .inr ⟨found, rest, seen, blanks, value⟩

theorem decode_of_sight {text : String} {found : Sight} {rest : Source} {v : Value}
    (seen : sight (.ofString text) = .ok (found, rest)) (blanks : Blanks rest)
    (value : ofSight? found = some v) : decode text = v := by
  have read : shape roomAtStart (.ofString text) = .ok (v, rest) := by
    unfold shape
    rw [bind_ok (kept_of_sight seen (by rintro rfl; cases value) (by rintro rfl; cases value) _),
      value]
    rfl
  unfold decode parse
  rw [whole_ok read (List.all_eq_true.2 blanks)]

theorem ofInt_one {n : Int} (low : -Nat.pow 2 63 ≤ n) (high : n < Nat.pow 2 63)
    (one : Int64.ofInt n = 1) : n = 1 := by
  have same := congrArg Int64.toInt one
  rw [Int64.toInt_ofInt_of_le low high] at same
  exact same

/-- What stands where a value is seen that is on. -/
theorem affirms_of_stands {found : Sight} {front rest : Source} {v : Value}
    (stands : Stands found front rest) (value : ofSight? found = some v) (on : IsOn v) :
    ∃ inside, Affirms inside ∧ front = inside.map .char ++ rest := by
  cases stands with
  | null | list | object => cases value
  | boolean b =>
    cases value
    cases on
    exact ⟨trueWord, .literal, rfl⟩
  | string rest wellSpelled denotes =>
    cases value
    cases on
    exact ⟨_, .string wellSpelled denotes, by simp⟩
  | @number n _ _ read =>
    cases n with
    | real x =>
      cases value
      cases on
    | integer n =>
      have whole : (if n < Nat.pow 2 63 then Value.integer (.ofInt n)
        else .float (.ofRank false (Binary64.rankOfNat n.toNat))) = v := Option.some.inj value
      split_ifs at whole with high
      · subst whole
        generalize same : Int64.ofInt n = m at on
        cases on
        obtain rfl := ofInt_one (number_fits read).1 high same
        exact ⟨['1'], .number, number_one read⟩
      · subst whole
        cases on

/-- Affirmed texts are decoded as what is on, and no other texts are. -/
theorem isOn_decode (text : String) : IsOn (decode text) ↔ Affirmed text := by
  constructor
  · intro on
    rcases decode_inv (rfl : decode text = decode text) with itself | ⟨found, rest, seen, blanks, value⟩
    · rw [itself] at on
      -- The text itself is a string that is on, so it is the digit.
      generalize same : text = s at on
      cases on
      exact ⟨[], ['1'], [], blanks_nil, blanks_nil, .number, rfl⟩
    · obtain ⟨pad, front, padded, all, stands⟩ := sight_inv seen
      obtain ⟨inside, affirms, rfl⟩ := affirms_of_stands stands value on
      obtain ⟨before, more, chars, rfl, behind⟩ := List.map_eq_append_iff.1 all
      obtain ⟨inside', after, rfl, same, rfl⟩ := List.map_eq_append_iff.1 behind
      obtain rfl := List.map_injective_iff.2 (fun _ _ => Glyph.char.inj) same
      exact ⟨before, inside', after, padded, blanks, affirms, chars⟩
  · rintro ⟨before, inside, after, padded, blanks, affirms, chars⟩
    have source : Source.ofString text
        = before.map .char ++ (inside.map .char ++ after.map .char) := by
      rw [Source.ofString, chars, List.map_append, List.map_append]
    cases affirms with
    | literal =>
      have seen := sight_writeBool padded true (after.map .char)
      change sight (_ ++ (trueWord.map .char ++ _)) = _ at seen
      rw [← source] at seen
      rw [decode_of_sight seen blanks rfl]
      exact .boolean
    | number =>
      have seen := sight_writeInteger padded (n := 1) (by decide) (by decide)
        (endsNumber_blanks blanks)
      change sight (_ ++ (['1'].map .char ++ _)) = _ at seen
      rw [← source] at seen
      rw [decode_of_sight seen blanks rfl]
      exact .integer
    | @string ps wellSpelled denotes =>
      have seen := sight_spelled padded wellSpelled denotes (after.map .char)
      have inside : ('"' :: (spelling ps ++ ['"'])).map Glyph.char ++ after.map .char
          = .char '"' :: ((spelling ps).map .char ++ .char '"' :: after.map .char) := by simp
      rw [← inside, ← source] at seen
      rw [decode_of_sight seen blanks rfl]
      exact .string

example : Affirmed " \"\\u0031\"\n" ∧ ¬ Affirmed "01" := by
  have escaped : decode " \"\\u0031\"\n" = .string "1" := by cbv
  have padded : decode "01" = .string "01" := by cbv
  rw [← isOn_decode, ← isOn_decode, escaped, padded]
  refine ⟨.string, fun on => ?_⟩
  generalize same : "01" = s at on
  cases on
  exact absurd same (by decide)

end Value

namespace Definition

variable {d : Definition}

theorem sanitize_boolean (boolean : d.valueType = .boolean) (v : Value) :
    ∃ b, d.sanitize v = .boolean b ∧ (b = true ↔ v.IsOn) := by
  unfold sanitize
  rw [if_pos boolean]
  cases v with
  | boolean b =>
    refine ⟨b, rfl, ?_, ?_⟩
    · rintro rfl
      exact .boolean
    · rintro ⟨⟩
      rfl
  | integer n =>
    refine ⟨n = 1, rfl, ?_, ?_⟩
    · intro one
      obtain rfl := of_decide_eq_true one
      exact .integer
    · rintro ⟨⟩
      rfl
  | float x => exact ⟨false, rfl, nofun, nofun⟩
  | string s =>
    refine ⟨s = "1", rfl, ?_, ?_⟩
    · intro one
      obtain rfl := of_decide_eq_true one
      exact .string
    · rintro ⟨⟩
      rfl

end Definition

namespace Service

variable {r : Registry} {d : Definition} {t : Tables} {owner : Owner}

/-- The organization comes first where the preference is enabled for it. If its row cannot be read, the
user's row is not asked for. -/
def Blocks (d : Definition) (t : Tables) (org : String) (fault : Fault) : Prop :=
  .org ∈ d.scopes ∧ outcome (Backend.read ⟨.org, org⟩ d.key) t = (.error fault, t)

/-- Where the organization does not stand in the way, the row of the user decides. -/
theorem readUser_asks (found : r.find? d.key = some d) (on : Scope.user ∈ d.scopes)
    (org user : String) :
    (∃ inherited, outcome (readUser r org user d.key) t = outcome
      (do return ⟨d.key, d.effective .user inherited (← Backend.read ⟨.user, user⟩ d.key)⟩ :
        Action Tables Effective) t) ∨
    ∃ fault, Blocks d t org fault ∧ outcome (readUser r org user d.key) t = (.error fault, t) := by
  have start : outcome (readUser r org user d.key) t = outcome (do
      let inherited ← if d.enabledAt .org then Backend.read ⟨.org, org⟩ d.key else pure none
      let stored ← Backend.read ⟨.user, user⟩ d.key
      return ⟨d.key, d.effective .user inherited stored⟩ : Action Tables Effective) t :=
    (outcome_found found _ t).trans (outcome_enabled on _ t)
  rw [start]
  by_cases both : d.enabledAt .org
  · rw [if_pos both]
    have left := Tables.read_leaves ⟨.org, org⟩ d.key t
    rcases asked : outcome (Backend.read ⟨.org, org⟩ d.key) t with ⟨fault | inherited, t'⟩
    · obtain rfl : t' = t := (congrArg Prod.snd asked).symm.trans left
      exact .inr ⟨fault, ⟨Definition.enabledAt_iff.1 both, asked⟩, outcome_bind_error asked⟩
    · obtain rfl : t' = t := (congrArg Prod.snd asked).symm.trans left
      exact .inl ⟨inherited, outcome_bind_ok asked⟩
  · rw [if_neg both]
    exact .inl ⟨none, outcome_bind_ok (outcome_pure none t)⟩

/-- What is answered from a row that holds a boolean as a text. -/
structure Decides (r : Registry) (d : Definition) (t : Tables) (owner : Owner) (text : String)
    (b : Bool) : Prop where
  read : outcome (Backend.read owner d.key) t = (.ok (some (.decode text)), t)
  org : owner.scope = .org →
    (∀ other, d.resolve .org (some (.decode text)) other = .ok (.boolean b)) ∧
    outcome (readOrg r owner.id d.key) t = (.ok ⟨d.key, .boolean b⟩, t)
  user : owner.scope = .user →
    (∀ other, d.resolve .user other (some (.decode text)) = .ok (.boolean b)) ∧
    ∀ org, outcome (readUser r org owner.id d.key) t = (.ok ⟨d.key, .boolean b⟩, t) ∨
      ∃ fault, Blocks d t org fault ∧
        outcome (readUser r org owner.id d.key) t = (.error fault, t)

/-- What is answered from a row whose bytes are not read. -/
structure Fails (r : Registry) (d : Definition) (t : Tables) (owner : Owner)
    (fault : Text.Utf8Fault) : Prop where
  read : outcome (Backend.read owner d.key) t
    = (.error (.store (.column "preference_value" (.notText fault))), t)
  org : owner.scope = .org → outcome (readOrg r owner.id d.key) t
    = (.error (.store (.column "preference_value" (.notText fault))), t)
  user : owner.scope = .user → ∀ org, ∃ fault,
    outcome (readUser r org owner.id d.key) t = (.error (.store fault), t)

theorem decides (boolean : d.valueType = .boolean) (found : r.find? d.key = some d)
    (on : owner.scope ∈ d.scopes) {text : String}
    (read : outcome (Backend.read owner d.key) t = (.ok (some (.decode text)), t)) :
    ∃ b, (b = true ↔ Affirmed text) ∧
      (∀ written, text = Value.encode (.boolean written) → b = written) ∧
      Decides r d t owner text b := by
  obtain ⟨b, sanitized, isOn⟩ := d.sanitize_boolean boolean (.decode text)
  refine ⟨b, isOn.trans (Value.isOn_decode text), ?_, read, fun ofOrg => ?_, fun ofUser => ?_⟩
  · rintro written rfl
    have back := Definition.sanitize_decode_encode (d := d) (v := .boolean written) boolean.symm
      (by simp [boolean])
    rw [sanitized] at back
    exact Value.boolean.inj back
  all_goals obtain ⟨scope, id⟩ := owner
  · obtain rfl : scope = .org := ofOrg
    refine ⟨fun other => ?_, ?_⟩
    · rw [Definition.resolve, Definition.requireScope_on on]
      exact congrArg Except.ok sanitized
    · refine (outcome_found found _ t).trans ?_
      refine (outcome_enabled on _ t).trans ?_
      rw [outcome_bind_ok read, ← sanitized]
      rfl
  · obtain rfl : scope = .user := ofUser
    refine ⟨fun other => ?_, fun org => (readUser_asks found on org id).imp_left ?_⟩
    · rw [Definition.resolve, Definition.requireScope_on on]
      exact congrArg Except.ok sanitized
    · rintro ⟨inherited, asked⟩
      rw [asked, outcome_bind_ok read, ← sanitized]
      rfl

theorem fails (found : r.find? d.key = some d) (on : owner.scope ∈ d.scopes)
    {fault : Text.Utf8Fault} (read : outcome (Backend.read owner d.key) t
      = (.error (.store (.column "preference_value" (.notText fault))), t)) :
    Fails r d t owner fault := by
  refine ⟨read, fun ofOrg => ?_, fun ofUser org => ?_⟩
  all_goals obtain ⟨scope, id⟩ := owner
  · obtain rfl : scope = .org := ofOrg
    refine (outcome_found found _ t).trans ?_
    exact (outcome_enabled on _ t).trans (outcome_bind_error read)
  · obtain rfl : scope = .user := ofUser
    rcases readUser_asks found on org id with ⟨inherited, asked⟩ | ⟨first, blocks, failed⟩
    · exact ⟨_, asked.trans (outcome_bind_error read)⟩
    · have blamed := BlamesStore.read (congrArg Prod.fst blocks.2)
      cases first with
      | store first => exact ⟨first, failed⟩
      | _ => exact blamed.elim

/-- Bytes in UTF-8 in the row of a boolean are read as a text. It counts as on exactly if it is
affirmed, and the text of a boolean that was stored counts as that boolean. Other bytes fail. -/
theorem decides_by_any_text (boolean : d.valueType = .boolean) (found : r.find? d.key = some d)
    (on : owner.scope ∈ d.scopes) {rows : List Tables.Row}
    (present : (t.pair owner.scope).rows = some rows) {row : Tables.Row}
    (stored : rows.find? (·.isAt owner.id d.key) = some row) {bytes : List UInt8}
    (content : row.value = some (.text bytes)) :
    (∀ text, bytes = Text.bytesOf text → ∃ b, (b = true ↔ Affirmed text) ∧
      (∀ written, text = Value.encode (.boolean written) → b = written) ∧
      Decides r d t owner text b) ∧
    ((∀ text, bytes ≠ Text.bytesOf text) → ∃ fault, Fails r d t owner fault) := by
  have read : outcome (Backend.read owner d.key) t
      = (row.columns.value?.mapError Fault.store, t) := by
    change outcome (Tables.read owner d.key) t = _
    rw [Tables.read_present present, stored]
  constructor
  · rintro text rfl
    rw [Tables.Row.value?_eq_ok.2 ⟨some text, content, rfl⟩] at read
    exact decides boolean found on read
  · intro unspelled
    obtain ⟨fault, broken⟩ : ∃ fault, Text.ofBytes bytes = .error fault := by
      cases ofBytes : Text.ofBytes bytes with
      | error fault => exact ⟨fault, rfl⟩
      | ok text => exact absurd (Text.ofBytes_eq_ok.1 ofBytes) (unspelled text)
    rw [Tables.Row.value?_broken content broken] at read
    exact ⟨fault, fails found on read⟩

/-- A switch for both scopes, which is off if nothing is set. -/
def alerts : Definition where
  key := "ALERTS"
  name := "ALERTS"
  description := ""
  valueType := .boolean
  defaultValue := .boolean false
  domain := .discrete []
  scopes := [.org, .user]

/-- The user's row holds the digit in a string, with an escape and blanks, and the organization's row
holds bytes that are said to be text. -/
def escapedRow : Tables where
  org := ⟨["acme"], some [⟨"acme", .ofString "ALERTS", some (.text [0xff])⟩]⟩
  user := ⟨["ada"], some [⟨"ada", .ofString "ALERTS", some (.ofString " \"\\u0031\"\n")⟩]⟩

theorem byte_no_text (text : String) : [0xff] ≠ Text.bytesOf text := by
  intro same
  have broken : (Text.ofBytes [0xff]).isOk = false := by decide +kernel
  rw [Text.ofBytes_eq_ok.2 same] at broken
  cases broken

theorem decides_by_any_text_escaped :
    (∃ b, (b = true ↔ Affirmed " \"\\u0031\"\n") ∧
      (∀ written, " \"\\u0031\"\n" = Value.encode (.boolean written) → b = written) ∧
      Decides ⟨[alerts]⟩ alerts escapedRow ⟨.user, "ada"⟩ " \"\\u0031\"\n" b) ∧
    ∃ fault, Fails ⟨[alerts]⟩ alerts escapedRow ⟨.org, "acme"⟩ fault := by
  have user := @decides_by_any_text ⟨[alerts]⟩ alerts escapedRow ⟨.user, "ada"⟩ rfl (by decide)
    (by decide) [⟨"ada", .ofString "ALERTS", some (.ofString " \"\\u0031\"\n")⟩] rfl _ rfl _ rfl
  have org := @decides_by_any_text ⟨[alerts]⟩ alerts escapedRow ⟨.org, "acme"⟩ rfl (by decide)
    (by decide) [⟨"acme", .ofString "ALERTS", some (.text [0xff])⟩] rfl _ rfl _ rfl
  exact ⟨user.1 _ rfl, org.2 byte_no_text⟩

/-- Not all that is said to be text in the row of a boolean can be read. -/
theorem not_any_text_is_read : ¬ ∀ (r : Registry) (d : Definition) (t : Tables) (owner : Owner)
    (rows : List Tables.Row) (row : Tables.Row) (bytes : List UInt8), d.valueType = .boolean →
    r.find? d.key = some d → owner.scope ∈ d.scopes → (t.pair owner.scope).rows = some rows →
    rows.find? (·.isAt owner.id d.key) = some row → row.value = some (.text bytes) →
    ∃ v, outcome (Backend.read owner d.key) t = (.ok v, t) := by
  intro always
  obtain ⟨v, read⟩ := always ⟨[alerts]⟩ alerts escapedRow ⟨.org, "acme"⟩
    [⟨"acme", .ofString "ALERTS", some (.text [0xff])⟩] _ [0xff] rfl (by decide) (by decide)
    rfl rfl rfl
  have refused : (outcome (Tables.read ⟨.org, "acme"⟩ "ALERTS") escapedRow).1.isOk = false := by
    decide +kernel
  change outcome (Tables.read ⟨.org, "acme"⟩ "ALERTS") escapedRow = _ at read
  rw [read] at refused
  cases refused

end Service

end LayeredPreferences

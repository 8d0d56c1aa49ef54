import LayeredPreferences.Proofs.Http.Reached
import LayeredPreferences.Proofs.Json.Spelling
import LayeredPreferences.Proofs.Number.Reread
import LayeredPreferences.Proofs.Service.Refusal
import LayeredPreferences.Proofs.Store.Memory
import LayeredPreferences.Proofs.Validation

set_option autoImplicit false

/-!
# Numbers that are put

A number without fraction and power of ten is taken as the integer that it is, if 64 bits have room
for it. Any other number is read as a float, and taken as an integer where the float is one.
-/
namespace LayeredPreferences

open Json Binary64

/-! ## Numbers as values -/

namespace Json.Literal

variable {l : Literal}

/-- The value that a number stands for. -/
inductive Reads (l : Literal) : Value → Prop where
  | integer {n : Int64} (exact : (n.toInt : ℚ) = l.value) : Reads l (.integer n)
  | float {rank : Nat} (near : ReadAs l.magnitude rank)
    (short : l.significand < 2 ^ 53 → l.magnitude < 2 ^ 53 →
      ∀ m : Nat, size rank = m → 0 < m → (m : ℚ) = l.magnitude)
    (held : l.significand < 2 ^ 53 → l.exponent.natAbs ≤ 22 → Rounded l.magnitude rank)
    (beyond : l.fraction = [] → l.power = none →
      l.value = 0 ∨ l.value < -2 ^ 63 ∨ 2 ^ 63 ≤ l.value) :
    Reads l (.float (.ofRank l.negative rank))

theorem magnitude_plain (fraction : l.fraction = []) (power : l.power = none) :
    l.magnitude = l.significand := by
  rw [magnitude, exponent, shift_none power, fraction]
  simp

theorem magnitude_nonneg : 0 ≤ l.magnitude := by
  unfold magnitude
  positivity

theorem abs_value : |l.value| = l.magnitude := by
  unfold value
  split_ifs
  · rw [abs_neg, abs_of_nonneg magnitude_nonneg]
  · rw [abs_of_nonneg magnitude_nonneg]

theorem reads_integral (fraction : l.fraction = []) (power : l.power = none) :
    ∃ v, Value.ofSight? (.number (integral l.negative l.significand)) = some v ∧ l.Reads v := by
  have plain := magnitude_plain fraction power
  have near : ReadAs l.magnitude (rankOfNat l.significand) := plain ▸ readAs_rankOfNat l.significand
  have held : Rounded l.magnitude (rankOfNat l.significand) := by
    have rounded := rounded_nearestRank l.significand Nat.one_pos
    rwa [Nat.cast_one, div_one, ← plain] at rounded
  have short (small : l.significand < 2 ^ 53) (m : Nat)
      (whole : size (rankOfNat l.significand) = m) : (m : ℚ) = l.magnitude := by
    rw [plain, ← whole, size_eq_natCast.2 (units_rankOfNat small)]
  have fits64 : Nat.pow 2 63 = 2 ^ 63 := rfl
  cases sign : l.negative with
  | true =>
    have value : l.value = -(l.significand : ℚ) := by
      rw [Literal.value, sign, if_pos rfl, plain]
    by_cases fits : 0 < l.significand ∧ l.significand ≤ Nat.pow 2 63
    · have low : -2 ^ 63 ≤ -(l.significand : Int) := by omega
      have high : -(l.significand : Int) < Nat.pow 2 63 := by omega
      refine ⟨.integer (.ofInt (-l.significand)), ?_, .integer ?_⟩
      · rw [integral, if_pos rfl, if_pos fits, Value.ofSight?, if_pos high]
      · rw [Int64.toInt_ofInt_of_le low high, value, Int.cast_neg, Int.cast_natCast]
    · refine ⟨.float (.ofRank true (rankOfNat l.significand)), ?_, sign ▸ .float near
        (fun small _ m whole _ => short small m whole) (fun _ _ => held) fun _ _ => ?_⟩
      · rw [integral, if_pos rfl, if_neg fits]
        rfl
      · rw [value]
        rcases Nat.eq_zero_or_pos l.significand with zero | positive
        · rw [zero]
          exact .inl (by norm_num)
        · have large : 2 ^ 63 < l.significand := by omega
          have large : (2 ^ 63 : ℚ) < l.significand := by exact_mod_cast large
          exact .inr (.inl (neg_lt_neg large))
  | false =>
    have value : l.value = l.significand := by
      rw [Literal.value, sign, if_neg (by simp), plain]
    by_cases fits : (l.significand : Int) < Nat.pow 2 63
    · refine ⟨.integer (.ofInt l.significand), ?_, .integer ?_⟩
      · rw [integral, if_neg (by simp), Value.ofSight?, if_pos fits]
      · rw [Int64.toInt_ofInt_of_le (by omega) fits, value, Int.cast_natCast]
    · refine ⟨.float (.ofRank false (rankOfNat l.significand)), ?_, sign ▸ .float near
        (fun small _ m whole _ => short small m whole) (fun _ _ => held) fun _ _ => ?_⟩
      · rw [integral, if_neg (by simp), Value.ofSight?, if_neg fits, Int.toNat_natCast]
      · rw [value]
        have large : 2 ^ 63 ≤ l.significand := by omega
        exact .inr (.inr (by exact_mod_cast large))

theorem reads_real {s rank : Nat} {e : Int} (fits : s < 2 ^ 64) (retains : Retains s e l.magnitude)
    (all : l.significand < 2 ^ 64 →
      s = l.significand ∧ e = l.exponent ∧ (l.fraction ≠ [] ∨ l.power ≠ none))
    (scaled : scaledRank? s e = some rank) : l.Reads (.float (.ofRank l.negative rank)) := by
  refine .float ((scales scaled).readAs fits retains) ?_ ?_ ?_
  · intro small less m whole some
    obtain ⟨rfl, rfl, -⟩ := all (by omega)
    exact (scales scaled).exact small less whole some
  · intro small few
    obtain ⟨rfl, rfl, -⟩ := all (by omega)
    exact (scales scaled).rounded small few
  · intro fraction power
    have large : 2 ^ 64 ≤ l.significand := by
      by_contra small
      obtain ⟨-, -, part⟩ := all (Nat.lt_of_not_le small)
      exact part.elim (absurd fraction) (absurd power)
    have large : (2 ^ 64 : ℚ) ≤ l.significand := by exact_mod_cast large
    rw [value, magnitude_plain fraction power]
    split_ifs
    · exact .inr (.inl (by linarith))
    · exact .inr (.inr (by linarith))

/-- A number is refused, or read as a value that it stands for. -/
theorem reads_number (wellFormed : l.WellFormed) (capital plus : Bool) {rest : Source}
    (ends : EndsNumber rest) :
    (∃ fault, number ((l.spelled capital plus).map .char ++ rest) = .error fault) ∨
    ∃ found v, number ((l.spelled capital plus).map .char ++ rest) = .ok (found, rest) ∧
      Value.ofSight? (.number found) = some v ∧ l.Reads v := by
  rcases number_spelled wellFormed capital plus with
    ⟨fraction, power, -, read⟩ | ⟨s, e, fits, retains, all, read⟩
  · obtain ⟨v, value, reads⟩ := reads_integral fraction power
    exact .inr ⟨_, v, read rest ends, value, reads⟩
  · rw [read rest ends, real]
    cases scaled : scaledRank? s e with
    | none => exact .inl ⟨_, rfl⟩
    | some rank => exact .inr ⟨_, _, rfl, rfl, reads_real fits retains all scaled⟩

/-- What is said of the integer that a number is taken as. The digits of the number are those before
    and after the point. -/
structure TakenAs (l : Literal) (n : Int64) : Prop where
  plain : l.fraction = [] → l.power = none → -2 ^ 63 ≤ l.value → (n.toInt : ℚ) = l.value
  short : l.significand < 2 ^ 53 → |l.value| < 2 ^ 53 →
    (l.value = 0 ∨ 10 ^ (-289 : Int) ≤ |l.value|) → (n.toInt : ℚ) = l.value
  held : l.significand < 2 ^ 53 → l.exponent.natAbs ≤ 22 →
    (∃ x : Binary64, x.rational? = some l.value) → (n.toInt : ℚ) = l.value
  near : |n.toInt - l.value| ≤ |l.value| / 2 ^ 51 ∨ (n = 0 ∧ |l.value| < 10 ^ (-289 : Int))
  below : l.value < 2 ^ 63

/-- A float with the magnitude of a rank is a whole number only if the magnitude is one. -/
theorem whole_ofRank {negative : Bool} {rank : Nat} {k : Int}
    (number : (Binary64.ofRank negative rank).rational? = some (k : ℚ)) :
    ∃ m : Nat, size rank = m ∧ k = if negative then -(m : Int) else m := by
  unfold Binary64.ofRank at number
  split_ifs at number
  · exact rational?_finite.1 number
  · cases number

theorem tiny_le_one : (10 : ℚ) ^ (-289 : Int) ≤ 1 :=
  zpow_le_one_of_nonpos₀ (by norm_num) (by decide)

/-- A magnitude that a float holds is read exactly if it is rounded only once. -/
theorem magnitude_of_held {rank : Nat} (rounded : Rounded l.magnitude rank)
    (holds : ∃ x : Binary64, x.rational? = some l.value) : l.magnitude = size rank := by
  obtain ⟨x, number⟩ := holds
  obtain ⟨other, same⟩ : ∃ other, l.magnitude = size other := by
    rw [← abs_value]
    cases x with
    | finite negative other =>
      refine ⟨other, ?_⟩
      rw [← Option.some.inj number]
      split_ifs
      · rw [abs_neg, abs_of_nonneg (size_nonneg _)]
      · rw [abs_of_nonneg (size_nonneg _)]
    | infinite negative => cases number
    | notANumber => cases number
  rw [same] at rounded ⊢
  rw [rounded.unique (.of_size other)]

theorem takenAs_zero (tiny : l.magnitude < 10 ^ (-289 : Int))
    (held : l.significand < 2 ^ 53 → l.exponent.natAbs ≤ 22 → Rounded l.magnitude 0)
    (beyond : l.fraction = [] → l.power = none →
      l.value = 0 ∨ l.value < -2 ^ 63 ∨ 2 ^ 63 ≤ l.value) : l.TakenAs 0 := by
  have small : |l.value| < 10 ^ (-289 : Int) := abs_value (l := l) ▸ tiny
  obtain ⟨low, high⟩ := abs_lt.1 (small.trans_le tiny_le_one)
  have zero : ((0 : Int64).toInt : ℚ) = 0 := by simp
  refine ⟨fun fraction power least => ?_, fun _ _ large => ?_, fun digits few holds => ?_,
    .inr ⟨rfl, small⟩, by linarith⟩
  · rw [zero]
    rcases beyond fraction power with none | below | above
    · exact none.symm
    · linarith
    · linarith
  · rw [zero]
    rcases large with none | large
    · exact none.symm
    · linarith
  · have none := magnitude_of_held (held digits few) holds
    rw [size_zero, ← abs_value, abs_eq_zero] at none
    rw [zero, none]

theorem takenAs_positive {rank m : Nat} (near : ReadAs l.magnitude rank)
    (short : l.significand < 2 ^ 53 → l.magnitude < 2 ^ 53 →
      ∀ m : Nat, size rank = m → 0 < m → (m : ℚ) = l.magnitude)
    (held : l.significand < 2 ^ 53 → l.exponent.natAbs ≤ 22 → Rounded l.magnitude rank)
    (beyond : l.fraction = [] → l.power = none →
      l.value = 0 ∨ l.value < -2 ^ 63 ∨ 2 ^ 63 ≤ l.value)
    (whole : size rank = m) (some : 0 < m) {n : Int64}
    (signed : n.toInt = if l.negative then -(m : Int) else m) : l.TakenAs n := by
  have one : (1 : ℚ) ≤ m := by exact_mod_cast some
  obtain ⟨low, high⟩ := near.near (whole ▸ one)
  rw [whole] at low high
  have sign := magnitude_nonneg (l := l)
  have same (exact : (m : ℚ) = l.magnitude) : (n.toInt : ℚ) = l.value := by
    rw [signed, value, ← exact]
    split_ifs <;> simp
  have below : l.value < 2 ^ 63 := by
    have bound : n.toInt < 2 ^ 63 := n.toInt_lt
    unfold value
    split_ifs with negative
    · linarith
    · by_contra large
      have reached := near.high (not_lt.1 large)
      rw [signed, if_neg negative] at bound
      have bound : (m : ℚ) < 2 ^ 63 := by exact_mod_cast bound
      rw [whole] at reached
      linarith
  have distance : |n.toInt - l.value| ≤ |l.value| / 2 ^ 51 := by
    have apart : |(m : ℚ) - l.magnitude| ≤ l.magnitude / 2 ^ 51 := by
      rw [abs_le]
      constructor <;> linarith
    rw [abs_value, signed, value]
    split_ifs
    · rw [Int.cast_neg, Int.cast_natCast, neg_sub_neg, abs_sub_comm]
      exact apart
    · rw [Int.cast_natCast]
      exact apart
  refine ⟨fun fraction power least => ?_, fun digits small _ => ?_, fun digits few holds => ?_,
    .inl distance, below⟩
  · -- Such a number is read as a float only if it is zero or has no room in 64 bits.
    rcases beyond fraction power with none | far | far
    · have zero : l.magnitude = 0 := by rw [← abs_value, none, abs_zero]
      rw [zero] at high
      linarith
    · linarith
    · linarith
  · rw [abs_value] at small
    exact same (short digits small m whole some)
  · exact same (whole.symm.trans (magnitude_of_held (held digits few) holds).symm)

theorem Reads.takenAs {v : Value} {n : Int64} (reads : l.Reads v)
    (counts : Value.CountsAs .integer v (.integer n)) : l.TakenAs n := by
  cases reads with
  | integer exact =>
    cases counts
    refine ⟨fun _ _ _ => exact, fun _ _ _ => exact, fun _ _ _ => exact, .inl ?_, ?_⟩
    · rw [exact, sub_self, abs_zero]
      positivity
    · rw [← exact]
      exact_mod_cast n.toInt_lt
  | float near short held beyond =>
    generalize read : Value.float _ = x, taken : Value.integer n = w at counts
    cases counts with
    | itself float =>
      rw [← read] at float
      cases float
    | whole _ number low high =>
      cases read
      cases taken
      obtain ⟨m, whole, signed⟩ := whole_ofRank number
      rw [← Int64.toInt_ofInt_of_le low high] at signed
      -- A zero says nothing of how near the number is, only that it is tiny.
      rcases Nat.eq_zero_or_pos m with rfl | some
      · have tiny := near.zero (size_eq_zero.1 (whole.trans Nat.cast_zero))
        have zero : Int64.ofInt _ = 0 := Int64.toInt_inj.1 (by rw [signed]; split_ifs <;> rfl)
        obtain rfl := size_eq_zero.1 (whole.trans Nat.cast_zero)
        rw [zero]
        exact takenAs_zero tiny held beyond
      · exact takenAs_positive near short held beyond whole some signed

/-! ## Numbers in bodies -/

theorem shape_ok (wellFormed : l.WellFormed) {capital plus : Bool} (room : Nat)
    {pad rest : Source} (blanks : Blanks pad) {found : Number} {v : Value}
    (read : number ((l.spelled capital plus).map .char ++ rest) = .ok (found, rest))
    (value : Value.ofSight? (.number found) = some v) :
    Value.shape room (pad ++ ((l.spelled capital plus).map .char ++ rest)) = .ok (v, rest) := by
  obtain ⟨c, cs, text, first⟩ := front_spelled wellFormed capital plus
  rw [text, List.map_cons, List.cons_append] at read ⊢
  unfold Value.shape
  rw [bind_ok (kept_of_sight (sight_number blanks first read) nofun nofun room), value]
  rfl

theorem shape_error (wellFormed : l.WellFormed) {capital plus : Bool} (room : Nat)
    {pad rest : Source} (blanks : Blanks pad) {fault : Json.Fault}
    (failed : number ((l.spelled capital plus).map .char ++ rest) = .error fault) :
    Value.shape room (pad ++ ((l.spelled capital plus).map .char ++ rest)) = .error fault := by
  obtain ⟨c, cs, text, first⟩ := front_spelled wellFormed capital plus
  rw [text, List.map_cons, List.cons_append] at failed ⊢
  have refused := sight_numeral blanks first (cs.map .char ++ rest)
  rw [bind_error failed] at refused
  unfold Value.shape
  refine bind_error ?_
  cases room with
  | zero => rw [kept, bind_error refused]
  | succ room => rw [kept, bind_error refused]

end Json.Literal

namespace Http

open LayeredPreferences.Action Service

/-- The body is a record whose only field is the value, and the value is the number. -/
def Carries (request : Request) (l : Literal) : Prop :=
  ∃ (capital plus : Bool) (pad pad' : List Char), Blanks (pad.map .char) ∧ Blanks (pad'.map .char) ∧
    request.body = (writeBody (pad ++ (l.spelled capital plus ++ pad'))).flatMap
      String.utf8EncodeChar

theorem update_carries {request : Request} {l : Literal} (wellFormed : l.WellFormed)
    (carries : Carries request l) {v : Value} (sent : update request = .ok v) : l.Reads v := by
  obtain ⟨capital, plus, pad, pad', blanks, blanks', body⟩ := carries
  let closing : Source := pad'.map .char ++ [.char '}']
  let source : Source := pad.map .char ++ ((l.spelled capital plus).map .char ++ closing)
  let field : Json.Field (Option Value) :=
    .required "preference_value" Value.shape fun _ v => some v
  have text : Source.ofBytes request.body
      = .char '{' :: ((writeString field.name).map .char ++ .char ':' :: source) := by
    rw [body, Source.ofBytes_text, writeBody_eq]
    simp [source, closing, field, Json.Field.required]
  have parsed : Json.parse updateShape (.ofBytes request.body) = .ok (some v) := by
    unfold update at sent
    split at sent
    · cases sent
    · split_ifs at sent
      split at sent
      · rename_i parsed
        cases sent
        exact parsed
      · cases sent
      · cases sent
  rw [text] at parsed
  rcases Literal.reads_number wellFormed capital plus ((endsNumber_brace []).blanks blanks') with
    ⟨fault, failed⟩ | ⟨found, w, read, value, reads⟩
  · have failed : field.read 126 source = .error fault :=
      bind_error (Literal.shape_error wellFormed 126 blanks failed)
    obtain ⟨fault, refused⟩ := record_one_error "UpdatePreferenceRequest" none failed
    cases (whole_error refused).symm.trans parsed
  · have read := Literal.shape_ok wellFormed 126 blanks read value
    rw [← List.append_assoc] at read
    have all := parse_updateShape blanks' read
    rw [List.append_assoc] at all
    cases all.symm.trans parsed
    exact reads

/-! ## Accepted numbers -/

theorem status_ofRefusal (refusal : Refusal) : (ofRefusal refusal).status ≠ 200 := by
  cases refusal with
  | fault fault => cases fault <;> simp [ofRefusal, ofFault, json, status]
  | badKey => simp [ofRefusal, Http.plain]
  | wrongMediaType => simp [ofRefusal, Http.plain]
  | bodyTooLarge => simp [ofRefusal, Http.plain]
  | badBody fault =>
    unfold ofRefusal
    dsimp only
    split_ifs <;> simp [Http.plain]

/-- The request puts a single preference. -/
structure Puts (request : Request) (scope : Scope) (key : String) : Prop where
  method : request.method = "PUT"
  route : ∃ segment, Route.ofPath? (pathOf request.target.toList) = some (.single scope segment) ∧
    decodeSegment segment = some key

section Accepted

variable {σ : Type} {r : Registry} {request : Request} {scope : Scope} {key : String} {s : σ}

theorem run_accepted {handler : Handler σ Response} (accepted : ((run handler).run s).1.status = 200) :
    ∃ response t, outcome handler s = (.ok response, t) := by
  rw [run_outcome] at accepted
  rcases answer : outcome handler s with ⟨refusal | response, t⟩
  · rw [answer] at accepted
    exact absurd accepted (status_ofRefusal refusal)
  · exact ⟨response, t, rfl⟩

variable [Backend σ]

/-- A request that puts a preference is accepted only for a caller and a value. -/
theorem puts_accepted (puts : Puts request scope key)
    (accepted : ((respond r request).run s).1.status = 200) :
    ∃ c v, caller request scope = .ok c ∧ update request = .ok v ∧
      (respond r request).run s
        = (run (serve (Service.write r (c.owner scope) key v) Effective.write)).run s := by
  obtain ⟨segment, route, decoded⟩ := puts.route
  have handled : (respond r request).run s
      = (run (putSingle r request scope segment)).run s := by
    unfold respond
    rw [route, puts.method]
    rfl
  rw [handled] at accepted
  obtain ⟨response, t, answer⟩ := run_accepted accepted
  unfold putSingle at answer
  cases called : caller request scope with
  | error refusal =>
    rw [outcome_bind_error (by rw [outcome_lift, called])] at answer
    cases answer
  | ok c =>
    rw [outcome_caller called, outcome_key decoded] at answer
    cases sent : update request with
    | error refusal =>
      rw [outcome_bind_error (by rw [outcome_lift, sent])] at answer
      cases answer
    | ok v => exact ⟨c, v, rfl, rfl, respond_put ⟨puts.method, puts.route, called⟩ sent s⟩

/-- What is acknowledged has been accepted, and is what the store was given. -/
theorem write_acknowledged {owner : Owner} {v : Value} {action : StateM σ Response}
    (served : action.run s = (run (serve (Service.write r owner key v) Effective.write)).run s)
    (accepted : (action.run s).1.status = 200) :
    ∃ w, r.Accepts owner.scope key v w ∧ (action.run s).1 = data (Effective.write ⟨key, w⟩) ∧
      outcome (Backend.upsert owner key w) s = (.ok (), (action.run s).2) := by
  rw [served] at accepted ⊢
  obtain ⟨response, t, answer⟩ := run_accepted accepted
  rw [run_ok answer]
  rw [outcome_serve] at answer
  rcases written : outcome (Service.write r owner key v) s with ⟨fault | e, u⟩
  · rw [written] at answer
    cases answer
  · rw [written] at answer
    cases answer
    obtain ⟨w, accepts, rfl, stored⟩ := write_ok_iff.1 (congrArg Prod.fst written)
    refine ⟨w, accepts, rfl, Prod.ext stored ?_⟩
    rw [write_accepted accepts] at written
    have left := congrArg Prod.snd written
    exact left

end Accepted

theorem write_integer (n : Int64) : (Value.integer n).write = (toString n.toInt).toList :=
  writeInteger_eq n.toInt

/-- Whatever the domain is: what is acknowledged and stored is the number itself, unless digits or
    powers of ten are too many to be read exactly. -/
theorem takes_numbers_as_read {σ : Type} [Backend σ] {r : Registry} {d : Definition} {key : String}
    (found : r.find? key = some d) (integer : d.valueType = .integer) {request : Request}
    {scope : Scope} (puts : Puts request scope key) {l : Literal} (wellFormed : l.WellFormed)
    (carries : Carries request l) {s : σ}
    (accepted : ((respond r request).run s).1.status = 200) :
    ∃ c n, caller request scope = .ok c ∧ l.TakenAs n ∧
      ((respond r request).run s).1 = shownSingle key (toString n.toInt).toList ∧
      outcome (Backend.upsert (c.owner scope) key (.integer n)) s
        = (.ok (), ((respond r request).run s).2) := by
  obtain ⟨c, v, called, sent, served⟩ := puts_accepted puts accepted
  obtain ⟨w, ⟨e, known, -, valid⟩, answer, stored⟩ := write_acknowledged served accepted
  cases found.symm.trans known
  have counts := (Definition.validate_eq_ok_iff.1 valid).1
  rw [integer] at counts
  obtain ⟨n, rfl⟩ : ∃ n, w = .integer n := by
    have type := counts.type
    cases w with
    | integer n => exact ⟨n, rfl⟩
    | boolean b => cases type
    | float x => cases type
    | string s => cases type
  rw [data_effective, write_integer] at answer
  exact ⟨c, n, called, (update_carries wellFormed carries sent).takenAs counts, answer, stored⟩

/-- A number for organizations that floats do not hold exactly. -/
def quota : Definition where
  key := "QUOTA"
  name := "Quota"
  description := ""
  valueType := .integer
  defaultValue := .integer 0
  domain := .range ⟨0, 10000000000000000⟩
  scopes := [.org]

def forQuota : Request where
  method := "PUT"
  target := "/api/org/preferences/QUOTA"
  headers := [("x-org-id", "acme"), ("content-type", "application/json")]
  body := []

def putQuota (l : Literal) : Request :=
  { forQuota with
    body := (writeBody (l.spelled false false)).flatMap String.utf8EncodeChar }

theorem puts_quota (l : Literal) : Puts (putQuota l) .org "QUOTA" where
  method := rfl
  route := by
    refine ⟨"QUOTA".toList, ?_, by decide +kernel⟩
    change Route.ofPath? (pathOf forQuota.target.toList) = _
    decide +kernel

theorem carries_quota (l : Literal) : Carries (putQuota l) l :=
  ⟨false, false, [], [], blanks_nil, blanks_nil, by rw [List.append_nil, List.nil_append]; rfl⟩

/-- What comes of a number that is read as a float with a whole value. -/
theorem quota_taken {l : Literal} (wellFormed : l.WellFormed)
    (part : l.fraction ≠ [] ∨ l.power ≠ none) (fits : l.significand < 2 ^ 64)
    (size : (putQuota l).body.length ≤ bodyLimit) {rank : Nat}
    (scaled : scaledRank? l.significand l.exponent = some rank) {n : Int}
    (whole : (Binary64.ofRank l.negative rank).toInt? = some n) (low : 0 ≤ n)
    (high : n ≤ 10000000000000000) : ∃ t,
      (respond ⟨[quota]⟩ (putQuota l)).run Memory.empty
        = (shownSingle "QUOTA" (toString n).toList, t) := by
  have ends : EndsNumber [.char '}'] := endsNumber_brace []
  have read : number ((l.spelled false false).map .char ++ [.char '}'])
      = .ok (.real (.ofRank l.negative rank), [.char '}']) := by
    rw [Literal.number_real wellFormed part fits false false ends, real, scaled]
    rfl
  have sent : update (putQuota l) = .ok (.float (.ofRank l.negative rank)) := by
    have type : (putQuota l).plainHeader? "content-type" = some "application/json" := by
      change forQuota.plainHeader? "content-type" = _
      decide +kernel
    refine update_parsed ⟨_, type, by decide +kernel⟩ size ?_
    have parsed := parse_updateShape blanks_nil
      (Literal.shape_ok wellFormed 126 blanks_nil read rfl)
    rw [putQuota, Source.ofBytes_text, writeBody_eq]
    simpa using parsed
  have called : caller (putQuota l) .org = .ok ⟨"acme", ""⟩ := by
    have org : identity? forQuota "x-org-id" = some "acme" := by decide +kernel
    change caller forQuota .org = _
    simp only [caller, org]
  have addressed : Addresses (putQuota l) "PUT" .org "QUOTA" ⟨"acme", ""⟩ :=
    ⟨rfl, (puts_quota l).route, called⟩
  have toInt : (Int64.ofInt n).toInt = n := Int64.toInt_ofInt_of_le (by omega) (by omega)
  have accepts : Registry.Accepts ⟨[quota]⟩ .org "QUOTA" (.float (.ofRank l.negative rank))
      (.integer (.ofInt n)) := by
    refine ⟨quota, rfl, by decide, Definition.validate_eq_ok_iff.2 ⟨?_, ?_⟩⟩
    · exact .whole rfl (toInt?_eq_some.1 whole) (by omega) (by omega)
    · refine .between ?_ ?_
      · rw [Int64.le_iff_toInt_le, toInt]
        exact low
      · rw [Int64.le_iff_toInt_le, toInt]
        exact high
  obtain ⟨t, stored, -⟩ := CellStore.upsert (CellStore.intact_empty (σ := Memory)) ⟨.org, "acme"⟩
    "QUOTA" (.integer (.ofInt n))
  have text : (Value.integer (.ofInt n)).write = (toString n).toList := by
    rw [write_integer, toInt]
  refine ⟨t, text ▸ served_single (respond_put addressed sent _) ?_⟩
  change outcome (Backend.upsert (Caller.owner ⟨"acme", ""⟩ .org) "QUOTA" (.integer (.ofInt n)))
    Memory.empty = _ at stored
  rw [write_accepted accepts, stored]
  rfl

/-- So large a number is taken, although not all numbers of its size are floats. -/
theorem takes_numbers_as_read_tens :
    let l : Literal := ⟨false, ['1'], ['0'], some (false, ['1', '6'])⟩
    ∃ c, caller (putQuota l) .org = .ok c ∧
      ((respond ⟨[quota]⟩ (putQuota l)).run Memory.empty).1
        = ⟨200, some "application/json", none,
          "\x7b\"data\":\x7b\"preference_id\":\"QUOTA\",\"preference_value\":10000000000000000\x7d\x7d"⟩ ∧
      outcome (Backend.upsert (c.owner .org) "QUOTA" (.integer 10000000000000000)) Memory.empty
        = (.ok (), ((respond ⟨[quota]⟩ (putQuota l)).run Memory.empty).2) := by
  intro l
  have wellFormed : l.WellFormed :=
    ⟨List.all_eq_true.1 (by decide), .inr ⟨'1', [], rfl, by decide⟩,
      List.all_eq_true.1 (by decide), by simp [l]⟩
  have digits : l.significand = 10 := by decide
  have power : l.exponent = 15 := by decide
  have scaled : scaledRank? l.significand l.exponent
      = some (mulRank (rankOfNat 10) (rankOfNat (10 ^ 15))) := by decide +kernel
  have whole : Binary64.toInt? (.ofRank false (mulRank (rankOfNat 10) (rankOfNat (10 ^ 15))))
      = some 10000000000000000 := by decide +kernel
  obtain ⟨t, answer⟩ := quota_taken wellFormed (.inl (by simp [l])) (by rw [digits]; decide)
    (by decide +kernel) scaled whole (by decide) (by decide)
  obtain ⟨c, n, called, taken, shown, stored⟩ :=
    takes_numbers_as_read (r := ⟨[quota]⟩) (d := quota) rfl rfl (puts_quota l) wellFormed
      (carries_quota l) (s := Memory.empty) (by rw [answer]; rfl)
  have value : l.value = 10000000000000000 := by
    rw [Literal.value, if_neg (by simp [l]), Literal.magnitude, digits, power]
    norm_num
  have exact := taken.held (by rw [digits]; decide) (by rw [power]; decide)
    ⟨_, by rw [toInt?_eq_some.1 whole, value]; norm_num⟩
  rw [value] at exact
  obtain rfl : n = 10000000000000000 := Int64.toInt_inj.1 (by exact_mod_cast exact)
  exact ⟨c, called, shown.trans (by decide +kernel), stored⟩

/-- No float is this number, and so the number is taken as another one. -/
theorem not_always_the_number_written :
    let l : Literal := ⟨false, "9007199254740993".toList, ['0'], none⟩
    l.WellFormed ∧ Puts (putQuota l) .org "QUOTA" ∧ Carries (putQuota l) l ∧
      l.value = 9007199254740993 ∧
      ∃ t, (respond ⟨[quota]⟩ (putQuota l)).run Memory.empty
        = (⟨200, some "application/json", none,
          "\x7b\"data\":\x7b\"preference_id\":\"QUOTA\",\"preference_value\":9007199254740994\x7d\x7d"⟩, t) := by
  intro l
  have wellFormed : l.WellFormed :=
    ⟨List.all_eq_true.1 (by decide +kernel), .inr ⟨'9', "007199254740993".toList, rfl, by decide⟩,
      List.all_eq_true.1 (by decide +kernel), by simp [l]⟩
  have digits : l.significand = 90071992547409930 := by decide +kernel
  have power : l.exponent = .negSucc 0 := by decide +kernel
  refine ⟨wellFormed, puts_quota l, carries_quota l, ?_, ?_⟩
  · rw [Literal.value, if_neg (by simp [l]), Literal.magnitude, digits, power]
    norm_num
  · obtain ⟨t, answer⟩ := quota_taken (n := 9007199254740994) wellFormed (.inl (by simp [l]))
      (by rw [digits]; decide) (by decide +kernel) (scaledRank?_lowered power (by decide))
      (by decide +kernel) (by decide) (by decide)
    exact ⟨t, answer.trans (congrArg (·, t) (by decide +kernel))⟩

end Http

end LayeredPreferences

import LayeredPreferences.Proofs.Json.Token
import LayeredPreferences.Proofs.Number.Finite
import LayeredPreferences.Store.Codec

set_option autoImplicit false

/-!
# No text is read as an infinity

A number that is read is an integer of about 64 bits or a finite float. So is a value, and what is
decoded from a stored text, whoever wrote it.
-/
namespace LayeredPreferences

namespace Json

def Number.Fits : Number → Prop
  | .integer n => -Nat.pow 2 63 ≤ n ∧ n < Nat.pow 2 64
  | .real x => x.isFinite = true

section Numbers

variable {negative : Bool} {s : Nat} {source rest : Source} {n : Number}

theorem significand_lt (taken : Nat) (fits : s < Nat.pow 2 64) (source : Source) :
    (significand s taken source).1 < Nat.pow 2 64 := by
  fun_induction significand s taken source with
  | case2 s taken g rest d digit room ih => exact ih room
  | _ => exact fits

theorem real_fits {e : Int} (fits : s < Nat.pow 2 64)
    (h : real negative s e source = .ok (n, rest)) : n.Fits := by
  unfold real at h
  cases scaled : Binary64.scaledRank? s e with
  | none =>
    rw [scaled] at h
    cases h
  | some rank =>
    rw [scaled] at h
    cases h
    exact Binary64.isFinite_ofRank negative (Binary64.scaledRank?_lt fits scaled)

theorem power_fits {e : Int} (fits : s < Nat.pow 2 64)
    (h : power negative s e source = .ok (n, rest)) : n.Fits := by
  unfold power at h
  split at h
  split at h
  · cases h
  · split at h
    · exact real_fits fits h
    · cases h

theorem fraction_fits {e : Nat} (fits : s < Nat.pow 2 64)
    (h : fraction negative s e source = .ok (n, rest)) : n.Fits := by
  have fits := significand_lt 0 fits source
  unfold fraction at h
  dsimp only at h
  split at h
  · split at h <;> cases h
  · split at h
    · exact power_fits fits h
    · exact power_fits fits h
    · exact real_fits fits h

theorem integral_fits (fits : s < Nat.pow 2 64) : (integral negative s).Fits := by
  unfold integral
  split_ifs with below whole
  · exact ⟨Int.neg_le_neg (Int.ofNat_le.2 whole.2),
      Int.lt_of_le_of_lt (Int.neg_nonpos_of_nonneg (Int.natCast_nonneg s)) (by decide)⟩
  · exact Binary64.isFinite_ofRank true (Binary64.rankOfNat_lt fits)
  · exact ⟨Int.le_trans (by decide) (Int.natCast_nonneg s), Int.ofNat_lt.2 fits⟩

theorem afterInteger_fits {skipped : Nat} (fits : s < Nat.pow 2 64)
    (h : afterInteger negative s skipped source = .ok (n, rest)) : n.Fits := by
  unfold afterInteger at h
  split at h
  · exact fraction_fits fits h
  · exact power_fits fits h
  · exact power_fits fits h
  · split at h
    · cases h
      exact integral_fits fits
    · exact real_fits fits h

theorem magnitude_fits (h : magnitude negative source = .ok (n, rest)) : n.Fits := by
  unfold magnitude at h
  split at h
  · cases h
  · split at h
    · cases h
    · exact afterInteger_fits (Nat.two_pow_pos 64) h
  · split at h
    · dsimp only at h
      exact afterInteger_fits (significand_lt 0 (Nat.two_pow_pos 64) _) h
    · cases h

theorem number_fits (h : number source = .ok (n, rest)) : n.Fits := by
  unfold number at h
  split at h <;> exact magnitude_fits h

end Numbers

theorem sight_fits {source rest : Source} {n : Number}
    (h : sight source = .ok (.number n, rest)) : n.Fits := by
  obtain ⟨pad, front, -, -, stands⟩ := sight_inv h
  cases stands with
  | number read => exact number_fits read

/-! ## Records -/

section Records

variable {ρ : Type} {P : ρ → Prop}

/-- Whatever the field reads, it keeps the property of the record. -/
def Field.Keeps (field : Field ρ) (P : ρ → Prop) : Prop :=
  ∀ room source put rest, field.read room source = .ok (put, rest) → ∀ x, P x → P (put x)

theorem members_keeps {σ : Type} {Q : σ → Prop} {care : Care} {name : Reader String}
    {member : String → σ → Except Cause (Reader σ)}
    (keeps : ∀ key state value, member key state = .ok value → Q state →
      ∀ source state' rest, value source = .ok (state', rest) → Q state')
    {first : Bool} {state state' : σ} {source rest : Source} (start : Q state)
    (h : members care name member first state source = .ok (state', rest)) : Q state' := by
  fun_induction members care name member first state source with
  | case1 => cases h
  | case2 =>
    cases h
    exact start
  | case3 => cases h
  | case4 => cases h
  | case5 first state source key more named value chosen next left read shorter ih =>
    obtain ⟨_, inner, _, read⟩ := bind_inv read
    exact ih (keeps _ _ _ chosen start _ _ _ (within_inv read)) h
  | case6 first state source key more named value chosen next left read longer =>
    cases h
    obtain ⟨_, inner, _, read⟩ := bind_inv read
    exact keeps _ _ _ chosen start _ _ _ (within_inv read)

theorem recordElements_keeps {name : String} {total room index : Nat} {fields : List (Field ρ)}
    (keeps : ∀ field ∈ fields, field.Keeps P) {x y : ρ} {source rest : Source} (start : P x)
    (h : recordElements name total room fields index x source = .ok (y, rest)) : P y := by
  induction fields generalizing index x source with
  | nil =>
    cases h
    exact start
  | cons field fields ih =>
    have others : ∀ field ∈ fields, field.Keeps P := fun f hf => keeps f (by simp [hf])
    unfold recordElements at h
    obtain ⟨more, middle, _, chosen⟩ := bind_inv h
    cases more with
    | true =>
      rw [if_pos rfl] at chosen
      obtain ⟨put, inner, read, ended⟩ := bind_inv chosen
      exact ih others (keeps field (by simp) _ _ _ _ (within_inv read) x start) ended
    | false =>
      rw [if_neg (by decide)] at chosen
      split_ifs at chosen
      · cases chosen
      · exact ih others start chosen

theorem record_keeps {name : String} {fields : List (Field ρ)} {empty x : ρ} {room : Nat}
    {source rest : Source} (keeps : ∀ field ∈ fields, field.Keeps P) (start : P empty)
    (h : record name fields empty room source = .ok (x, rest)) : P x := by
  unfold record at h
  obtain ⟨found, middle, _, h⟩ := bind_inv h
  cases found with
  | list =>
    cases room with
    | zero => cases h
    | succ room =>
      obtain ⟨y, inner, read, h⟩ := bind_inv h
      obtain ⟨_, _, _, h⟩ := bind_inv h
      cases h
      exact recordElements_keeps keeps start read
  | object =>
    cases room with
    | zero => cases h
    | succ room =>
      obtain ⟨⟨seen, y⟩, inner, read, h⟩ := bind_inv h
      have kept : P y := by
        refine members_keeps (Q := fun state : List String × ρ => P state.2) ?_ start read
        intro key state value chosen before source state' rest read
        unfold recordMember at chosen
        split at chosen
        · cases chosen
          obtain ⟨_, _, _, ended⟩ := bind_inv read
          cases ended
          exact before
        · rename_i field sought
          split_ifs at chosen
          cases chosen
          obtain ⟨put, _, taken, ended⟩ := bind_inv read
          cases ended
          exact keeps field (List.mem_of_find?_eq_some sought) _ _ _ _ taken _ before
      dsimp only at h
      generalize fields.find? _ = missing at h
      cases missing with
      | some field => cases h
      | none =>
        obtain ⟨_, _, _, h⟩ := bind_inv h
        cases h
        exact kept
  | _ => cases h

end Records

end Json

namespace Value

open Json

/-- A float that is finite, or any other value. -/
def IsFinite (v : Value) : Prop := ∀ x, v = .float x → x.isFinite = true

theorem ofSight?_finite {found : Sight} {v : Value} (h : ofSight? found = some v)
    (fits : ∀ n, found = .number n → n.Fits) : v.IsFinite := by
  rintro x rfl
  cases found with
  | number n =>
    have room := fits n rfl
    cases n with
    | real y =>
      cases h
      exact room
    | integer n =>
      have chosen := Option.some.inj h
      split_ifs at chosen with small
      have same := Value.float.inj chosen
      rw [← same]
      refine Binary64.isFinite_ofRank false (Binary64.rankOfNat_lt ?_)
      have high : n < Nat.pow 2 64 := room.2
      change n < (2 ^ 64 : Nat) at high
      omega
  | _ => cases h

theorem shape_finite {room : Nat} {source rest : Source} {v : Value}
    (h : shape room source = .ok (v, rest)) : v.IsFinite := by
  obtain ⟨found, seen, value⟩ := shape_inv h
  refine ofSight?_finite value ?_
  rintro n rfl
  exact sight_fits seen

theorem decode_finite (text : String) : (decode text).IsFinite := by
  unfold decode
  cases parsed : parse shape (.ofString text) with
  | error fault => nofun
  | ok v =>
    obtain ⟨rest, read, -⟩ := whole_inv parsed
    exact shape_finite read

end Value

end LayeredPreferences

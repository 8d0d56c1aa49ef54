import LayeredPreferences.Proofs.Definition
import LayeredPreferences.Proofs.Number.Exact

set_option autoImplicit false

/-!
# Which values are accepted

A value is accepted as the value that it counts as, if that lies in the domain. Otherwise it is
refused for its type, or for the domain if only that is missed.
-/
namespace LayeredPreferences

namespace Value

/-- What a value counts as where a type is asked for. -/
inductive CountsAs (type : ValueType) : Value → Value → Prop where
  | itself {v : Value} (h : v.type = type) : CountsAs type v v
  | whole {x : Binary64} {n : Int} (h : type = .integer) (number : x.rational? = some (n : ℚ))
    (low : -2 ^ 63 ≤ n) (high : n < 2 ^ 63) : CountsAs type (.float x) (.integer (.ofInt n))

/-- Floats are equal as numbers, all other values as they are. -/
inductive Equal : Value → Value → Prop where
  | itself {v : Value} (h : v.type ≠ .float) : Equal v v
  | number {x y : Binary64} {q : ℚ} (first : x.rational? = some q) (second : y.rational? = some q) :
    Equal (.float x) (.float y)
  | infinite (negative : Bool) : Equal (.float (.infinite negative)) (.float (.infinite negative))

theorem CountsAs.type {type : ValueType} {v w : Value} (h : CountsAs type v w) : w.type = type := by
  cases h with
  | itself same => exact same
  | whole integer => exact integer.symm

theorem coerce_eq_ok {type : ValueType} {v w : Value} :
    v.coerce type = .ok w ↔ CountsAs type v w := by
  constructor
  · intro h
    unfold coerce at h
    split at h
    · split at h
      · rename_i found
        cases h
        obtain ⟨n, number, low, high, rfl⟩ := Binary64.toInt64?_eq_some.1 found
        exact .whole rfl number low high
      · cases h
    · split_ifs at h with same
      cases h
      exact .itself same
  · intro h
    cases h with
    | itself same => exact coerce_same same
    | whole integer number low high =>
      subst integer
      have found := Binary64.toInt64?_eq_some.2 ⟨_, number, low, high, rfl⟩
      simp only [coerce, found]

theorem coerce_error {type : ValueType} {v : Value} {fault : ValueFault}
    (h : v.coerce type = .error fault) : fault = .wrongType type v.type := by
  unfold coerce at h
  split at h
  · split at h
    · cases h
    · cases h
      rfl
  · split_ifs at h
    cases h
    rfl

theorem coerce_eq_error {type : ValueType} {v : Value} {fault : ValueFault} :
    v.coerce type = .error fault ↔
      (∀ w, ¬ CountsAs type v w) ∧ fault = .wrongType type v.type := by
  constructor
  · intro failed
    refine ⟨fun w counts => ?_, coerce_error failed⟩
    rw [coerce_eq_ok.2 counts] at failed
    cases failed
  · rintro ⟨none, rfl⟩
    cases coerced : v.coerce type with
    | ok w => exact absurd (coerce_eq_ok.1 coerced) (none w)
    | error fault => rw [coerce_error coerced]

theorem CountsAs.unique {type : ValueType} {v w u : Value} (first : CountsAs type v w)
    (second : CountsAs type v u) : w = u := by
  have same := (coerce_eq_ok.2 first).symm.trans (coerce_eq_ok.2 second)
  exact Except.ok.inj same

theorem same_iff {v w : Value} : v.same w = true ↔ Equal v w := by
  constructor
  · intro h
    unfold same at h
    split at h
    · rcases Binary64.same_iff.1 h with ⟨q, first, second⟩ | ⟨negative, rfl, rfl⟩
      · exact .number first second
      · exact .infinite negative
    · rename_i other
      obtain rfl : v = w := of_decide_eq_true h
      refine .itself fun float => ?_
      cases v with
      | float x => exact other x x rfl rfl
      | boolean b => cases float
      | integer n => cases float
      | string s => cases float
  · intro h
    cases h with
    | itself float => exact same_self float
    | number first second => exact Binary64.same_iff.2 (.inl ⟨_, first, second⟩)
    | infinite negative => exact Binary64.same_iff.2 (.inr ⟨negative, rfl, rfl⟩)

theorem equal_self {v : Value} (h : v ≠ .float .notANumber) : Equal v v := by
  cases v with
  | float x =>
    cases x with
    | finite negative rank => exact .number rfl rfl
    | infinite negative => exact .infinite negative
    | notANumber => exact absurd rfl h
  | boolean b => exact .itself nofun
  | integer n => exact .itself nofun
  | string s => exact .itself nofun

end Value

namespace Domain

inductive Contains : Domain → Value → Prop where
  | anything (w : Value) : Contains (.discrete []) w
  | listed {allowed : List Value} {a w : Value} (member : a ∈ allowed) (equal : a.Equal w) :
    Contains (.discrete allowed) w
  | between {range : ValueRange} {n : Int64} (low : range.min ≤ n) (high : n ≤ range.max) :
    Contains (.range range) (.integer n)
  | unbound (range : ValueRange) {w : Value} (h : w.type ≠ .integer) : Contains (.range range) w

/-- What is said of a value that lies outside. -/
def refusal : Domain → ValueFault
  | .discrete allowed => .notAllowed allowed
  | .range bounds => .outOfRange bounds

theorem check_eq_ok {domain : Domain} {w : Value} : domain.check w = .ok () ↔ domain.Contains w := by
  cases domain with
  | discrete allowed =>
    have passes : check (.discrete allowed) w = .ok () ↔
        allowed = [] ∨ ∃ a ∈ allowed, a.Equal w := by
      simp only [check, ← Value.same_iff]
      split_ifs with inside
      · simpa using inside
      · simpa using inside
    rw [passes]
    constructor
    · rintro (rfl | ⟨a, member, equal⟩)
      · exact .anything w
      · exact .listed member equal
    · intro contains
      cases contains with
      | anything => exact .inl rfl
      | listed member equal => exact .inr ⟨_, member, equal⟩
  | range range =>
    cases w with
    | integer n =>
      have passes : check (.range range) (.integer n) = .ok () ↔
          range.min ≤ n ∧ n ≤ range.max := by
        simp [check, ValueRange.contains]
      rw [passes]
      constructor
      · rintro ⟨low, high⟩
        exact .between low high
      · intro contains
        cases contains with
        | between low high => exact ⟨low, high⟩
        | unbound _ h => exact absurd rfl h
    | boolean b => exact iff_of_true rfl (.unbound range fun h => by cases h)
    | float x => exact iff_of_true rfl (.unbound range fun h => by cases h)
    | string s => exact iff_of_true rfl (.unbound range fun h => by cases h)

theorem check_error {domain : Domain} {w : Value} {fault : ValueFault}
    (h : domain.check w = .error fault) : fault = domain.refusal := by
  unfold check at h
  split at h
  · split_ifs at h
    cases h
    rfl
  · split at h
    · split_ifs at h
      cases h
      rfl
    · cases h

theorem check_eq_error {domain : Domain} {w : Value} {fault : ValueFault} :
    domain.check w = .error fault ↔ ¬ domain.Contains w ∧ fault = domain.refusal := by
  rw [← check_eq_ok]
  constructor
  · intro failed
    exact ⟨by simp [failed], check_error failed⟩
  · rintro ⟨outside, rfl⟩
    cases checked : domain.check w with
    | ok _ => exact absurd checked outside
    | error fault => rw [check_error checked]

end Domain

namespace Definition

/-- Why a value is refused. Its type is looked at before the domain. -/
inductive Refuses (type : ValueType) (domain : Domain) (v : Value) : ValueFault → Prop where
  | wrongType (none : ∀ w, ¬ v.CountsAs type w) : Refuses type domain v (.wrongType type v.type)
  | outside {w : Value} (counts : v.CountsAs type w) (h : ¬ domain.Contains w) :
    Refuses type domain v domain.refusal

theorem validate_eq_ok_iff {d : Definition} {v w : Value} :
    d.validate v = .ok w ↔ v.CountsAs d.valueType w ∧ d.domain.Contains w := by
  rw [validate_eq_ok, Value.coerce_eq_ok, Domain.check_eq_ok]

theorem validate_eq_error {d : Definition} {v : Value} {fault : ValueFault} :
    d.validate v = .error fault ↔ Refuses d.valueType d.domain v fault := by
  unfold validate
  cases coerced : v.coerce d.valueType with
  | error found =>
    obtain ⟨none, rfl⟩ := Value.coerce_eq_error.1 coerced
    constructor
    · intro failed
      cases failed
      exact .wrongType none
    · intro refused
      cases refused with
      | wrongType _ => rfl
      | outside counts _ => exact absurd counts (none _)
  | ok w =>
    have counts := Value.coerce_eq_ok.1 coerced
    have checked : (Except.ok w >>= fun w => do d.domain.check w; return w) = .error fault ↔
        d.domain.check w = .error fault := by
      change (d.domain.check w >>= fun _ => Except.ok w) = .error fault ↔ _
      cases d.domain.check w <;> simp [bind, Except.bind]
    rw [checked, Domain.check_eq_error]
    constructor
    · rintro ⟨outside, rfl⟩
      exact .outside counts outside
    · intro refused
      cases refused with
      | wrongType none => exact absurd counts (none w)
      | outside counts' outside => exact ⟨counts.unique counts' ▸ outside, rfl⟩

/-- What is accepted is accepted again as it is. -/
theorem accepts_what_counts_in_the_domain (d : Definition) (v : Value) :
    (∀ w, d.validate v = .ok w ↔ v.CountsAs d.valueType w ∧ d.domain.Contains w) ∧
    (∀ fault, d.validate v = .error fault ↔ Refuses d.valueType d.domain v fault) ∧
    ∀ w, d.validate v = .ok w → d.validate w = .ok w :=
  ⟨fun _ => validate_eq_ok_iff, fun _ => validate_eq_error, fun _ => validate_again⟩

/-- Any integer of 64 bits. -/
def tally : Definition where
  key := "TALLY"
  name := "TALLY"
  description := ""
  valueType := .integer
  defaultValue := .integer 0
  domain := .range ⟨Int64.minValue, Int64.maxValue⟩
  scopes := [.org]

/-- The least integer is a float too, and so is the one after the greatest. -/
theorem accepts_what_counts_in_the_domain_ends :
    let least : Value := .float (.finite true ⟨0x43e0000000000000, by decide⟩)
    let above : Value := .float (.finite false ⟨0x43e0000000000000, by decide⟩)
    tally.validate least = .ok (.integer Int64.minValue) ∧
      tally.validate (.integer Int64.minValue) = .ok (.integer Int64.minValue) ∧
      tally.validate above = .error (.wrongType .integer .float) := by
  intro least above
  obtain ⟨accepts, -, again⟩ := accepts_what_counts_in_the_domain tally least
  obtain ⟨-, refuses, -⟩ := accepts_what_counts_in_the_domain tally above
  have counts : least.CountsAs .integer (.integer Int64.minValue) :=
    .whole (n := -2 ^ 63) rfl (Binary64.toInt?_eq_some.1 (by decide +kernel)) (by decide) (by decide)
  have accepted := (accepts _).2 ⟨counts, .between (by decide) (by decide)⟩
  refine ⟨accepted, again _ accepted, (refuses _).2 (.wrongType fun w counts => ?_)⟩
  generalize seen : above = v at counts
  cases counts with
  | itself h =>
    subst seen
    cases h
  | @whole x n _ number low high =>
    obtain rfl := Value.float.inj seen
    have beyond : Binary64.toInt? (.finite false ⟨0x43e0000000000000, by decide⟩)
      = some (2 ^ 63) := by decide +kernel
    rw [Binary64.toInt?_eq_some.2 number] at beyond
    obtain rfl := Option.some.inj beyond
    exact absurd high (by decide)

end Definition

end LayeredPreferences

import LayeredPreferences.Definition.Draft
import LayeredPreferences.Proofs.Traversal
import LayeredPreferences.Resolution
import Mathlib.Tactic.SplitIfs

set_option autoImplicit false

/-!
# Accepted values

What is accepted is accepted again as it is. The default of a finished definition
has been accepted, and its allowed values have its type.
-/
namespace LayeredPreferences

namespace Value

theorem coerce_type {v w : Value} {type : ValueType} (h : v.coerce type = .ok w) :
    w.type = type := by
  unfold coerce at h
  split at h
  · split at h
    · cases h
      rfl
    · cases h
  · split_ifs at h with same
    cases h
    exact same

theorem coerce_same {v : Value} {type : ValueType} (h : v.type = type) :
    v.coerce type = .ok v := by
  subst h
  cases v <;> rfl

theorem same_self {v : Value} (h : v.type ≠ .float) : v.same v = true := by
  cases v with
  | float x => exact absurd rfl h
  | _ => simp [same]

end Value

namespace Definition

theorem validate_eq_ok {d : Definition} {v w : Value} :
    d.validate v = .ok w ↔ v.coerce d.valueType = .ok w ∧ d.domain.check w = .ok () := by
  unfold validate
  simp only [Except.bind_eq_ok]
  constructor
  · rintro ⟨a, coerced, ⟨⟩, checked, rest⟩
    cases rest
    exact ⟨coerced, checked⟩
  · rintro ⟨coerced, checked⟩
    exact ⟨w, coerced, (), checked, rfl⟩

theorem validate_type {d : Definition} {v w : Value} (h : d.validate v = .ok w) :
    w.type = d.valueType := Value.coerce_type (validate_eq_ok.1 h).1

/-- An accepted value is accepted again. -/
theorem validate_again {d : Definition} {v w : Value} (h : d.validate v = .ok w) :
    d.validate w = .ok w :=
  validate_eq_ok.2 ⟨Value.coerce_same (validate_type h), (validate_eq_ok.1 h).2⟩

/-- The definition was made from a draft. -/
def Built (d : Definition) : Prop := ∃ draft : Draft, draft.finish = .ok d

end Definition

theorem mapM_coerce {type : ValueType} {vs ws : List Value}
    (h : vs.mapM (Value.coerce type) = .ok ws) : ∀ w ∈ ws, w.type = type := by
  induction vs generalizing ws with
  | nil =>
    cases h
    simp
  | cons v vs ih =>
    rw [List.mapM_cons] at h
    obtain ⟨w, first, h⟩ := Except.bind_eq_ok.1 h
    obtain ⟨others, rest, h⟩ := Except.bind_eq_ok.1 h
    cases h
    intro x hx
    rcases List.mem_cons.1 hx with rfl | hx
    · exact Value.coerce_type first
    · exact ih rest x hx

namespace Draft

theorem domain_allowed {draft : Draft} {type : ValueType} {allowed : List Value}
    (h : draft.domain type = .ok (.discrete allowed)) : ∀ v ∈ allowed, v.type = type := by
  unfold domain at h
  split at h
  · split at h
    · rename_i coerced
      cases h
      exact mapM_coerce coerced
    · cases h
  · split at h
    · cases h
    · split_ifs at h
      cases h

/-- What a draft must have, and the definition that it becomes. -/
structure Finishes (draft : Draft) (d : Definition) : Prop where
  key : d.key = draft.key
  keyed : draft.key.isEmpty = false
  name : d.name = draft.name.getD draft.key
  named : draft.name.any (fun name => (Text.trim name.toList).isEmpty) = false
  description : d.description = draft.description
  scopes : d.scopes = draft.scopes
  placed : draft.scopes.isEmpty = false
  domain : draft.domain d.valueType = .ok d.domain
  accepted : ∃ v, draft.defaultValue = some v ∧ d.valueType = draft.valueType.getD v.type ∧
    d.validate v = .ok d.defaultValue

theorem finish_eq_ok {draft : Draft} {d : Definition} : draft.finish = .ok d ↔ draft.Finishes d := by
  constructor
  · intro h
    unfold finish at h
    dsimp only at h
    -- The checks in their order; only a draft that passes all of them is finished.
    split at h
    · cases h
    rename_i keyed
    split at h
    · cases h
    rename_i named
    split at h
    · rename_i v unset
      split at h
      · cases h
      rename_i placed
      obtain ⟨domain, built, h⟩ := Except.bind_eq_ok.1 h
      split at h
      · rename_i accepted valid
        cases h
        exact ⟨rfl, by simpa using keyed, rfl, by simpa using named, rfl, rfl, by simpa using placed,
          built, v, unset, rfl, valid⟩
      · cases h
    · cases h
  · rintro ⟨key, keyed, name, named, description, scopes, placed, domain, v, default, type, valid⟩
    obtain ⟨_, _, _, _, accepted, _, _⟩ := d
    dsimp only at key name description scopes domain type
    subst key name description scopes type
    unfold finish
    simp only [keyed, named, default, placed, Bool.false_eq_true, if_false]
    refine Except.bind_eq_ok.2 ⟨_, domain, ?_⟩
    -- The default that is checked plays no part in the check.
    have checked : (Definition.mk draft.key (draft.name.getD draft.key) draft.description
        (draft.valueType.getD v.type) v _ draft.scopes).validate v = .ok accepted := valid
    rw [checked]
    rfl

end Draft

namespace Definition

theorem Built.validate_default {d : Definition} (h : d.Built) :
    d.validate d.defaultValue = .ok d.defaultValue := by
  obtain ⟨draft, finished⟩ := h
  obtain ⟨v, -, -, valid⟩ := (Draft.finish_eq_ok.1 finished).accepted
  exact validate_again valid

theorem Built.validate_allowed {d : Definition} (h : d.Built) (float : d.valueType ≠ .float)
    {v : Value} (listed : v ∈ d.allowedValues) : d.validate v = .ok v := by
  obtain ⟨draft, finished⟩ := h
  have domain := (Draft.finish_eq_ok.1 finished).domain
  unfold allowedValues at listed
  split at listed
  · rename_i allowed discrete
    rw [discrete] at domain
    have type : v.type = d.valueType := Draft.domain_allowed domain v listed
    have same : v.same v = true := Value.same_self (type ▸ float)
    refine validate_eq_ok.2 ⟨Value.coerce_same type, ?_⟩
    rw [discrete, Domain.check, if_pos]
    exact Bool.or_eq_true _ _ ▸ .inr (List.any_eq_true.2 ⟨v, listed, same⟩)
  · cases listed

/-- The value that counts at a scope, if none had changed in a store. -/
def choose (d : Definition) (scope : Scope) (org user : Option Value) : Value :=
  match scope with
  | .org => org.getD d.defaultValue
  | .user => d.select org user

theorem choose_cases (d : Definition) (scope : Scope) (org user : Option Value) :
    d.choose scope org user = d.defaultValue ∨ org = some (d.choose scope org user) ∨
      user = some (d.choose scope org user) := by
  cases scope with
  | org => cases org <;> simp [choose]
  | user =>
    unfold choose select
    cases user with
    | some v => simp
    | none =>
      cases org with
      | none => simp
      | some v => by_cases on : d.enabledAt .org <;> simp [on]

end Definition

end LayeredPreferences

import LayeredPreferences.Proofs.Definition
import LayeredPreferences.Proofs.Service.Access
import LayeredPreferences.Proofs.Store.Codec

set_option autoImplicit false

/-!
# The service over a store that is intact

Reading and listing leave the store, and a write fills its cell or leaves the
store. What is read for a finished definition is the value that was stored, or the
default.
-/
namespace LayeredPreferences

open LayeredPreferences.Action CellStore

variable {σ : Type} [Backend σ] [CellStore σ]

namespace Definition

/-- Sanitizing undoes whatever became of the values in the store. -/
theorem effective_returned {d : Definition} (float : d.valueType ≠ .float)
    {org user : Option Value} (horg : ∀ v ∈ org, v.type = d.valueType)
    (huser : ∀ v ∈ user, v.type = d.valueType) (scope : Scope) :
    d.effective scope (org.map (returned σ)) (user.map (returned σ))
      = d.effective scope org user := by
  have kept (v : Value) (type : v.type = d.valueType) :
      d.sanitize (returned σ v) = d.sanitize v := by
    rw [sanitize_returned type float, sanitize_same type]
  cases scope with
  | org =>
    cases org with
    | none => rfl
    | some v => exact kept v (horg v rfl)
  | user =>
    simp only [effective, select]
    cases user with
    | some v => simpa using kept v (huser v rfl)
    | none =>
      cases org with
      | none => rfl
      | some v =>
        by_cases on : d.enabledAt .org
        · simpa [on] using kept v (horg v rfl)
        · simp [on]

/-- Values of the right type count as they are, and so does the default of a finished
    definition. -/
theorem effective_eq_choose {d : Definition} (built : d.Built) {org user : Option Value}
    (horg : ∀ v ∈ org, v.type = d.valueType) (huser : ∀ v ∈ user, v.type = d.valueType)
    (scope : Scope) : d.effective scope org user = d.choose scope org user := by
  cases scope with
  | org =>
    cases org with
    | none => rfl
    | some v => exact sanitize_same (horg v rfl)
  | user =>
    refine sanitize_same ?_
    change (d.choose .user org user).type = d.valueType
    rcases d.choose_cases .user org user with default | inOrg | inUser
    · rw [default]
      exact validate_type built.validate_default
    · exact horg _ inOrg
    · exact huser _ inUser

end Definition

namespace Service

variable {s : σ} {r : Registry} {org user key : String} {scope : Scope}

theorem readAt_intact (intact : Intact s) {d : Definition} (found : r.find? key = some d)
    (on : scope ∈ d.scopes) : outcome (readAt r org user key scope) s
      = (.ok ⟨key, d.effective scope (cell s ⟨.org, org⟩ key) (cell s ⟨.user, user⟩ key)⟩, s) :=
  readAt_open org user found on (reads intact _) fun _ => reads intact _

theorem readAt_leaves (intact : Intact s) : (outcome (readAt r org user key scope) s).2 = s := by
  rcases r.closed_or_open scope key with ⟨fault, closed⟩ | ⟨d, found, on⟩
  · rw [readAt_closed org user closed]
  · rw [readAt_intact intact found on]

theorem listAt_intact (intact : Intact s) : outcome (listAt r org user scope) s
    = (.ok (r.views scope (cell s ⟨.org, org⟩) (cell s ⟨.user, user⟩)), s) :=
  listAt_reads org user (reads intact _) fun _ => reads intact _

end Service

/-- What was given before, and one more value. -/
def give (given : Owner → String → Option Value) (owner : Owner) (key : String) (v : Value) :
    Owner → String → Option Value :=
  fun o k => if o = owner ∧ k = key then some v else given o k

theorem give_same (given : Owner → String → Option Value) (owner : Owner) (key : String)
    (v : Value) : give given owner key v owner key = some v := if_pos ⟨rfl, rfl⟩

/-- The store keeps the values that were given, each accepted for its key, and no others. -/
structure Keeps (r : Registry) (given : Owner → String → Option Value) (s : σ) : Prop where
  intact : Intact s
  cells : ∀ owner key, cell s owner key = (given owner key).map (returned σ)
  accepted : ∀ {owner key v d}, given owner key = some v → r.find? key = some d →
    d.validate v = .ok v

namespace Keeps

theorem empty (r : Registry) : Keeps r (fun _ _ => none) (CellStore.empty : σ) where
  intact := intact_empty
  cells owner key := cell_empty owner key
  accepted := nofun

variable {r : Registry} {given : Owner → String → Option Value} {s : σ} {d : Definition}
  {key : String}

theorem type_given (h : Keeps r given s) (found : r.find? key = some d) (owner : Owner) :
    ∀ v ∈ given owner key, v.type = d.valueType :=
  fun _ hv => Definition.validate_type (h.accepted hv found)

/-- The cells count as the values that were given. -/
theorem effective_given (h : Keeps r given s) (float : d.valueType ≠ .float)
    (found : r.find? key = some d) (scope : Scope) (o o' : Owner) :
    d.effective scope (cell s o key) (cell s o' key)
      = d.effective scope (given o key) (given o' key) := by
  rw [h.cells, h.cells,
    Definition.effective_returned float (h.type_given found o) (h.type_given found o')]

theorem effective (h : Keeps r given s) (built : d.Built) (float : d.valueType ≠ .float)
    (found : r.find? key = some d) (scope : Scope) (o o' : Owner) :
    d.effective scope (cell s o key) (cell s o' key)
      = d.choose scope (given o key) (given o' key) := by
  rw [h.effective_given float found,
    Definition.effective_eq_choose built (h.type_given found o) (h.type_given found o')]

theorem readAt (h : Keeps r given s) (built : d.Built) (float : d.valueType ≠ .float)
    (found : r.find? key = some d) {scope : Scope} (on : scope ∈ d.scopes) (org user : String) :
    outcome (Service.readAt r org user key scope) s
      = (.ok ⟨key, d.choose scope (given ⟨.org, org⟩ key) (given ⟨.user, user⟩ key)⟩, s) := by
  rw [Service.readAt_intact h.intact found on, h.effective built float found]

/-- What is read would be accepted. -/
theorem validate_choose (h : Keeps r given s) (built : d.Built) (found : r.find? key = some d)
    (scope : Scope) (o o' : Owner) : d.validate (d.choose scope (given o key) (given o' key))
      = .ok (d.choose scope (given o key) (given o' key)) := by
  rcases d.choose_cases scope (given o key) (given o' key) with default | inOrg | inUser
  · rw [default]
    exact built.validate_default
  · exact h.accepted inOrg found
  · exact h.accepted inUser found

/-- An accepted value is given from now on. -/
theorem write_accepted (h : Keeps r given s) {owner : Owner} {v w : Value}
    (accepted : r.Accepts owner.scope key v w) : ∃ t,
      outcome (Service.write r owner key v) s = (.ok ⟨key, w⟩, t) ∧
      Keeps r (give given owner key w) t := by
  obtain ⟨t, stored, intact, cells⟩ := CellStore.upsert h.intact owner key w
  refine ⟨t, ?_, intact, fun o k => ?_, fun {o k x d} hx found => ?_⟩
  · rw [Service.write_accepted accepted, stored]
    rfl
  · rw [cells, h.cells, give]
    split <;> rfl
  · obtain ⟨d', found', -, valid⟩ := accepted
    unfold give at hx
    split at hx
    -- The one new value was accepted for this very key.
    · rename_i here
      obtain ⟨rfl, rfl⟩ := here
      cases hx
      cases found.symm.trans found'
      exact Definition.validate_again valid
    · exact h.accepted hx found

theorem write (h : Keeps r given s) (owner : Owner) (key : String) (v : Value) :
    (∃ fault, outcome (Service.write r owner key v) s = (.error fault, s)) ∨
    ∃ w t, outcome (Service.write r owner key v) s = (.ok ⟨key, w⟩, t) ∧
      Keeps r (give given owner key w) t := by
  rcases r.refuses_or_accepts owner.scope key v with ⟨fault, refused⟩ | ⟨w, accepted⟩
  · exact .inl ⟨fault, Service.write_refused refused s⟩
  · exact .inr ⟨w, h.write_accepted accepted⟩

end Keeps

end LayeredPreferences

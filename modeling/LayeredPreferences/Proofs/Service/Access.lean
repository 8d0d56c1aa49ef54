import LayeredPreferences.Proofs.Registry
import LayeredPreferences.Proofs.Store.Cells
import LayeredPreferences.Service

set_option autoImplicit false

/-!
# What the service answers

Which requests are decided by the registry alone, and what the others make of the
store. Reading and listing are taken for both scopes at once.
-/
namespace LayeredPreferences

/-! ## Refusals -/

namespace Registry

/-- Why nothing can be read or written at a key and a scope. -/
inductive Closed (r : Registry) (scope : Scope) (key : String) : Fault → Prop where
  | unknown (absent : key ∉ r.keys) : Closed r scope key (.notFound key)
  | disabled {d : Definition} (found : r.find? key = some d) (off : scope ∉ d.scopes) :
    Closed r scope key (.forbidden key scope)

/-- Why a value is not written. A key that is closed is not asked about its values. -/
inductive Refuses (r : Registry) (scope : Scope) (key : String) (v : Value) : Fault → Prop where
  | closed {fault : Fault} (h : r.Closed scope key fault) : Refuses r scope key v fault
  | invalid {d : Definition} {fault : ValueFault} (found : r.find? key = some d)
    (on : scope ∈ d.scopes) (bad : d.validate v = .error fault) :
    Refuses r scope key v (.badValue key fault)

/-- A value is written as `w`. -/
def Accepts (r : Registry) (scope : Scope) (key : String) (v w : Value) : Prop :=
  ∃ d, r.find? key = some d ∧ scope ∈ d.scopes ∧ d.validate v = .ok w

theorem closed_or_open (r : Registry) (scope : Scope) (key : String) :
    (∃ fault, r.Closed scope key fault) ∨ ∃ d, r.find? key = some d ∧ scope ∈ d.scopes := by
  by_cases known : key ∈ r.keys
  · obtain ⟨d, found⟩ := find?_eq_some_of_mem_keys known
    by_cases on : scope ∈ d.scopes
    · exact .inr ⟨d, found, on⟩
    · exact .inl ⟨_, .disabled found on⟩
  · exact .inl ⟨_, .unknown known⟩

theorem refuses_or_accepts (r : Registry) (scope : Scope) (key : String) (v : Value) :
    (∃ fault, r.Refuses scope key v fault) ∨ ∃ w, r.Accepts scope key v w := by
  rcases r.closed_or_open scope key with ⟨fault, h⟩ | ⟨d, found, on⟩
  · exact .inl ⟨fault, .closed h⟩
  · cases verdict : d.validate v with
    | error fault => exact .inl ⟨_, .invalid found on verdict⟩
    | ok w => exact .inr ⟨w, d, found, on, verdict⟩

end Registry

namespace Definition

theorem enabledAt_iff {d : Definition} {scope : Scope} :
    d.enabledAt scope = true ↔ scope ∈ d.scopes := by
  simp [enabledAt]

theorem requireScope_on {d : Definition} {scope : Scope} (h : scope ∈ d.scopes) :
    d.requireScope scope = .ok () := if_pos (enabledAt_iff.2 h)

theorem requireScope_off {d : Definition} {scope : Scope} (h : scope ∉ d.scopes) :
    d.requireScope scope = .error (.forbidden d.key scope) :=
  if_neg fun on => h (enabledAt_iff.1 on)

theorem effective_inherited (d : Definition) (org user : Option Value) :
    d.effective .user (if d.enabledAt .org then org else none) user
      = d.effective .user org user := by
  unfold effective select
  cases d.enabledAt .org <;> rfl

end Definition

namespace Service

open LayeredPreferences.Action

section Lookup

variable {σ α : Type} {r : Registry} {key : String} {d : Definition}

theorem outcome_unknown (absent : key ∉ r.keys) (next : Definition → Action σ α) (s : σ) :
    outcome (liftM (r.get key) >>= next) s = (.error (.notFound key), s) := by
  refine outcome_bind_error ?_
  rw [outcome_lift, Registry.get_unknown absent]

theorem outcome_found (found : r.find? key = some d) (next : Definition → Action σ α) (s : σ) :
    outcome (liftM (r.get key) >>= next) s = outcome (next d) s := by
  refine outcome_bind_ok ?_
  rw [outcome_lift, Registry.get_of_find? found]

theorem outcome_shut {scope : Scope} (off : scope ∉ d.scopes) (next : Unit → Action σ α) (s : σ) :
    outcome (liftM (d.requireScope scope) >>= next) s = (.error (.forbidden d.key scope), s) := by
  refine outcome_bind_error ?_
  rw [outcome_lift, Definition.requireScope_off off]

theorem outcome_enabled {scope : Scope} (on : scope ∈ d.scopes) (next : Unit → Action σ α)
    (s : σ) : outcome (liftM (d.requireScope scope) >>= next) s = outcome (next ()) s := by
  refine outcome_bind_ok ?_
  rw [outcome_lift, Definition.requireScope_on on]

end Lookup

section Requests

variable {σ : Type} [Backend σ] (r : Registry) (org user key : String)

def readAt : Scope → Action σ Effective
  | .org => readOrg r org key
  | .user => readUser r org user key

def listAt : Scope → Action σ (List View)
  | .org => listOrg r org
  | .user => listUser r org user

variable {r key}

theorem readAt_closed {scope : Scope} {fault : Fault} (h : r.Closed scope key fault) (s : σ) :
    outcome (readAt r org user key scope) s = (.error fault, s) := by
  cases h with
  | unknown absent => cases scope <;> exact outcome_unknown absent _ s
  | disabled found off =>
    obtain ⟨-, rfl⟩ := Registry.mem_of_find? found
    cases scope with
    | org =>
      refine (outcome_found found _ s).trans ?_
      exact outcome_shut off _ s
    | user =>
      refine (outcome_found found _ s).trans ?_
      exact outcome_shut off _ s

/-- Where the definition is open, the cells of the two owners are all that counts. -/
theorem readAt_open {scope : Scope} {d : Definition} (found : r.find? key = some d)
    (on : scope ∈ d.scopes) {s : σ} {orgCells userCells : String → Option Value}
    (horg : Reads s ⟨.org, org⟩ orgCells)
    (huser : scope = .user → Reads s ⟨.user, user⟩ userCells) :
    outcome (readAt r org user key scope) s
      = (.ok ⟨key, d.effective scope (orgCells key) (userCells key)⟩, s) := by
  obtain ⟨-, rfl⟩ := Registry.mem_of_find? found
  cases scope with
  | org =>
    refine (outcome_found found _ s).trans ?_
    refine (outcome_enabled on _ s).trans ?_
    exact outcome_bind_ok (horg.read d.key)
  | user =>
    refine (outcome_found found _ s).trans ?_
    refine (outcome_enabled on _ s).trans ?_
    have last (inherited : Option Value) : outcome
        (do return ⟨d.key, d.effective .user inherited (← Backend.read ⟨.user, user⟩ d.key)⟩) s
          = (.ok (Effective.mk d.key (d.effective .user inherited (userCells d.key))), s) :=
      outcome_bind_ok ((huser rfl).read d.key)
    -- An organization that is not asked counts as one without a value.
    rw [← Definition.effective_inherited]
    dsimp only
    split
    · refine (outcome_bind_ok (horg.read d.key)).trans ?_
      exact last (orgCells d.key)
    · refine (outcome_bind_ok (outcome_pure none s)).trans ?_
      exact last none

theorem listAt_reads {scope : Scope} {s : σ} {orgCells userCells : String → Option Value}
    (horg : Reads s ⟨.org, org⟩ orgCells)
    (huser : scope = .user → Reads s ⟨.user, user⟩ userCells) :
    outcome (listAt r org user scope) s = (.ok (r.views scope orgCells userCells), s) := by
  obtain ⟨inherited, listed, lookup⟩ := horg.list
  cases scope with
  | org =>
    refine (outcome_bind_ok listed).trans ?_
    simp only [outcome_pure, lookup]
    rfl
  | user =>
    obtain ⟨values, listed', lookup'⟩ := (huser rfl).list
    refine (outcome_bind_ok listed).trans ?_
    refine (outcome_bind_ok listed').trans ?_
    simp only [outcome_pure, lookup, lookup']

theorem write_refused {owner : Owner} {v : Value} {fault : Fault}
    (h : r.Refuses owner.scope key v fault) (s : σ) :
    outcome (write r owner key v) s = (.error fault, s) := by
  cases h with
  | closed h =>
    cases h with
    | unknown absent => exact outcome_unknown absent _ s
    | disabled found off =>
      refine (outcome_found found _ s).trans (outcome_bind_error ?_)
      rw [outcome_lift, Definition.acceptWrite, Definition.requireScope_off off,
        (Registry.mem_of_find? found).2]
      rfl
  | invalid found on bad =>
    refine (outcome_found found _ s).trans (outcome_bind_error ?_)
    rw [outcome_lift, Definition.acceptWrite, Definition.requireScope_on on, bad,
      (Registry.mem_of_find? found).2]
    rfl

/-- An accepted write is one access to the store, and fails only as this access does. -/
theorem write_accepted {owner : Owner} {v w : Value} (h : r.Accepts owner.scope key v w) (s : σ) :
    outcome (write r owner key v) s
      = ((outcome (Backend.upsert owner key w) s).1.map fun _ => ⟨key, w⟩,
        (outcome (Backend.upsert owner key w) s).2) := by
  obtain ⟨d, found, on, valid⟩ := h
  have accepted : outcome (liftM (d.acceptWrite owner.scope v) : Action σ Value) s
      = (.ok w, s) := by
    rw [outcome_lift, Definition.acceptWrite, Definition.requireScope_on on, valid]
    rfl
  refine (outcome_found found _ s).trans ?_
  refine (outcome_bind_ok accepted).trans ?_
  rw [outcome_bind, (Registry.mem_of_find? found).2]
  rcases outcome (Backend.upsert owner key w) s with ⟨_ | _, t⟩ <;> rfl

end Requests

end Service

end LayeredPreferences

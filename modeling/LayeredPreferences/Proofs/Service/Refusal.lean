import LayeredPreferences.Proofs.Service.Access
import LayeredPreferences.Proofs.Store.Contacts

set_option autoImplicit false

/-!
# Refusals

What is refused is refused without the store: no access is made, and any other
store, of whatever kind, refuses the same. What is not refused makes one access.
-/
namespace LayeredPreferences

theorem Registry.Refuses.not_store {r : Registry} {scope : Scope} {key : String} {v : Value}
    {fault : Fault} (h : r.Refuses scope key v fault) : ¬ fault.IsStore := by
  cases h with
  | closed h => cases h <;> exact id
  | invalid _ _ _ => exact id

namespace Service

open LayeredPreferences.Action Recorded

section Writing

variable {σ : Type} [Backend σ] {r : Registry} {owner : Owner} {key : String} {v : Value} {s : σ}

theorem contacts_refused {fault : Fault} (h : r.Refuses owner.scope key v fault) :
    contactsFrom s (write r owner key v) = [] := by
  rw [contactsFrom, write_refused h]

theorem contacts_accepted {w : Value} (h : r.Accepts owner.scope key v w) :
    contactsFrom s (write r owner key v) = [.upsert owner key w] := by
  rw [contactsFrom, write_accepted h, Recorded.outcome_upsert]
  rfl

/-- A write is refused, or fails in the store, or is answered with what was stored. -/
theorem write_answers (r : Registry) (owner : Owner) (key : String) (v : Value) (s : σ) :
    (∃ fault, r.Refuses owner.scope key v fault ∧
      (outcome (write r owner key v) s).1 = .error fault) ∨
    (∃ w fault, r.Accepts owner.scope key v w ∧
      (outcome (Backend.upsert owner key w) s).1 = .error fault ∧
      (outcome (write r owner key v) s).1 = .error fault) ∨
    ∃ w, r.Accepts owner.scope key v w ∧ (outcome (Backend.upsert owner key w) s).1 = .ok () ∧
      (outcome (write r owner key v) s).1 = .ok ⟨key, w⟩ := by
  rcases r.refuses_or_accepts owner.scope key v with ⟨fault, refused⟩ | ⟨w, accepted⟩
  · refine .inl ⟨fault, refused, ?_⟩
    rw [write_refused refused]
  · rw [write_accepted accepted]
    cases upserted : (outcome (Backend.upsert owner key w) s).1 with
    | ok x => exact .inr (.inr ⟨w, accepted, upserted, rfl⟩)
    | error fault => exact .inr (.inl ⟨w, fault, accepted, upserted, rfl⟩)

theorem write_error_iff [BlamesStore σ] {fault : Fault} (h : ¬ fault.IsStore) :
    (outcome (write r owner key v) s).1 = .error fault ↔ r.Refuses owner.scope key v fault := by
  constructor
  · intro failed
    rcases write_answers r owner key v s with ⟨_, refused, answer⟩ | ⟨_, _, _, upserted, answer⟩ |
      ⟨_, _, _, answer⟩
    all_goals cases answer.symm.trans failed
    · exact refused
    · exact absurd (BlamesStore.upsert upserted) h
  · intro refused
    rw [write_refused refused]

theorem write_store_error_iff {fault : Fault} (h : fault.IsStore) :
    (outcome (write r owner key v) s).1 = .error fault ↔ ∃ w, r.Accepts owner.scope key v w
      ∧ (outcome (Backend.upsert owner key w) s).1 = .error fault := by
  constructor
  · intro failed
    rcases write_answers r owner key v s with ⟨_, refused, answer⟩ |
      ⟨w, _, accepted, upserted, answer⟩ | ⟨_, _, _, answer⟩
    all_goals cases answer.symm.trans failed
    · exact absurd h refused.not_store
    · exact ⟨w, accepted, upserted⟩
  · rintro ⟨w, accepted, upserted⟩
    rw [write_accepted accepted, upserted]
    rfl

theorem write_ok_iff {e : Effective} : (outcome (write r owner key v) s).1 = .ok e ↔
    ∃ w, r.Accepts owner.scope key v w ∧ e = ⟨key, w⟩
      ∧ (outcome (Backend.upsert owner key w) s).1 = .ok () := by
  constructor
  · intro succeeded
    rcases write_answers r owner key v s with ⟨_, _, answer⟩ | ⟨_, _, _, _, answer⟩ |
      ⟨w, accepted, upserted, answer⟩
    all_goals cases answer.symm.trans succeeded
    exact ⟨w, accepted, rfl, upserted⟩
  · rintro ⟨w, accepted, rfl, upserted⟩
    rw [write_accepted accepted, upserted]
    rfl

end Writing

section Reading

variable {σ : Type} [Backend σ] {r : Registry} {org user key : String} {scope : Scope} {s : σ}

theorem read_then_error [BlamesStore σ] {α : Type} {owner : Owner}
    {next : Option Value → Action σ α} {fault : Fault}
    (h : (outcome (Backend.read owner key >>= next) s).1 = .error fault) :
    fault.IsStore ∨ ∃ stored t, (outcome (next stored) t).1 = .error fault := by
  rcases seen : outcome (Backend.read owner key) s with ⟨_ | stored, t⟩
  · rw [outcome_bind_error seen] at h
    cases h
    exact .inl (BlamesStore.read (congrArg Prod.fst seen))
  · rw [outcome_bind_ok seen] at h
    exact .inr ⟨stored, t, h⟩

/-- Reading what is open fails only in the store. -/
theorem readAt_open_error [BlamesStore σ] {d : Definition} {fault : Fault}
    (found : r.find? key = some d) (on : scope ∈ d.scopes)
    (h : (outcome (readAt r org user key scope) s).1 = .error fault) : fault.IsStore := by
  have last {owner : Owner} {value : Option Value → Value} {t : σ} (failed : (outcome
      (do return Effective.mk d.key (value (← Backend.read owner key))) t).1 = .error fault) :
      fault.IsStore := by
    rcases read_then_error failed with store | ⟨stored, u, later⟩
    · exact store
    · cases later
  cases scope with
  | org =>
    change (outcome (readOrg r org key) s).1 = _ at h
    rw [readOrg, outcome_found found, outcome_enabled on] at h
    exact last h
  | user =>
    change (outcome (readUser r org user key) s).1 = _ at h
    rw [readUser, outcome_found found, outcome_enabled on] at h
    dsimp only at h
    split at h
    · rcases read_then_error h with store | ⟨inherited, t, later⟩
      · exact store
      · exact last later
    · rw [outcome_bind_ok (outcome_pure none s)] at h
      exact last h

theorem readAt_error_iff [BlamesStore σ] {fault : Fault} (h : ¬ fault.IsStore) :
    (outcome (readAt r org user key scope) s).1 = .error fault ↔ r.Closed scope key fault := by
  constructor
  · intro failed
    rcases r.closed_or_open scope key with ⟨other, closed⟩ | ⟨d, found, on⟩
    · rw [readAt_closed org user closed] at failed
      cases failed
      exact closed
    · exact absurd (readAt_open_error found on failed) h
  · intro closed
    rw [readAt_closed org user closed]

theorem contacts_closed {fault : Fault} (h : r.Closed scope key fault) :
    contactsFrom s (readAt r org user key scope) = [] := by
  rw [contactsFrom, readAt_closed org user h]

end Reading

/-- A write is refused for the key, the scope and the value alone, in this order, and is otherwise
    one access; a key is closed to reading alike. -/
theorem refused_without_store {σ τ : Type} [Backend σ] [BlamesStore σ] [Backend τ] (r : Registry)
    (owner : Owner) (key : String) (v : Value) (s : σ) (t : τ) :
    (∀ fault, ¬ fault.IsStore → ((outcome (write r owner key v) s).1 = .error fault ↔
      r.Refuses owner.scope key v fault)) ∧
    (∀ fault, r.Refuses owner.scope key v fault →
      contactsFrom s (write r owner key v) = [] ∧
      outcome (write r owner key v) s = (.error fault, s) ∧
      outcome (write r owner key v) t = (.error fault, t)) ∧
    (∀ w, r.Accepts owner.scope key v w →
      contactsFrom s (write r owner key v) = [.upsert owner key w] ∧
      outcome (write r owner key v) s
        = ((outcome (Backend.upsert owner key w) s).1.map fun _ => ⟨key, w⟩,
          (outcome (Backend.upsert owner key w) s).2)) ∧
    (∀ fault, fault.IsStore → ((outcome (write r owner key v) s).1 = .error fault ↔
      ∃ w, r.Accepts owner.scope key v w
        ∧ (outcome (Backend.upsert owner key w) s).1 = .error fault)) ∧
    (∀ e, (outcome (write r owner key v) s).1 = .ok e ↔
      ∃ w, r.Accepts owner.scope key v w ∧ e = ⟨key, w⟩
        ∧ (outcome (Backend.upsert owner key w) s).1 = .ok ()) ∧
    ∀ org user scope fault,
      (¬ fault.IsStore → ((outcome (readAt r org user key scope) s).1 = .error fault ↔
        r.Closed scope key fault)) ∧
      (r.Closed scope key fault →
        contactsFrom s (readAt r org user key scope) = [] ∧
        outcome (readAt r org user key scope) s = (.error fault, s) ∧
        outcome (readAt r org user key scope) t = (.error fault, t)) := by
  refine ⟨fun fault h => write_error_iff h, ?_, ?_, fun fault h => write_store_error_iff h,
    fun e => write_ok_iff, ?_⟩
  · intro fault refused
    exact ⟨contacts_refused refused, write_refused refused s, write_refused refused t⟩
  · intro w accepted
    exact ⟨contacts_accepted accepted, write_accepted accepted s⟩
  · intro org user scope fault
    refine ⟨fun h => readAt_error_iff h, fun closed => ?_⟩
    exact ⟨contacts_closed closed, readAt_closed org user closed s,
      readAt_closed org user closed t⟩

/-- A limit that organizations set to one of ten numbers. -/
def limit : Definition where
  key := "LIMIT"
  name := "Limit"
  description := ""
  valueType := .integer
  defaultValue := .integer 5
  domain := .range ⟨1, 10⟩
  scopes := [.org]

/-- A number that is too large is refused by a store in which everything fails as by tables, and
    one that is not reaches the store. -/
theorem refused_without_store_limit :
    let broken := Memory.empty.failOn (Call.all.map (·, "connection refused"))
    outcome (write ⟨[limit]⟩ ⟨.org, "acme"⟩ "LIMIT" (.integer 11)) broken
      = (.error (.badValue "LIMIT" (.outOfRange ⟨1, 10⟩)), broken) ∧
    outcome (write ⟨[limit]⟩ ⟨.org, "acme"⟩ "LIMIT" (.integer 11)) Tables.empty
      = (.error (.badValue "LIMIT" (.outOfRange ⟨1, 10⟩)), Tables.empty) ∧
    (outcome (write ⟨[limit]⟩ ⟨.org, "acme"⟩ "LIMIT" (.integer 10)) broken).1
      = .error (.store (.refused "connection refused")) ∧
    contactsFrom broken (write ⟨[limit]⟩ ⟨.org, "acme"⟩ "LIMIT" (.integer 10))
      = [.upsert ⟨.org, "acme"⟩ "LIMIT" (.integer 10)] := by
  have found : Registry.find? ⟨[limit]⟩ "LIMIT" = some limit := by decide
  have tooLarge : Registry.Refuses ⟨[limit]⟩ .org "LIMIT" (.integer 11)
      (.badValue "LIMIT" (.outOfRange ⟨1, 10⟩)) := .invalid found (by decide) (by rfl)
  have fits : Registry.Accepts ⟨[limit]⟩ .org "LIMIT" (.integer 10) (.integer 10) :=
    ⟨limit, found, by decide, by rfl⟩
  intro broken
  obtain ⟨-, refused, -⟩ := refused_without_store ⟨[limit]⟩ ⟨.org, "acme"⟩ "LIMIT" (.integer 11)
    broken Tables.empty
  obtain ⟨-, -, accepted, failed, -⟩ := refused_without_store ⟨[limit]⟩ ⟨.org, "acme"⟩ "LIMIT"
    (.integer 10) broken Tables.empty
  obtain ⟨-, inMemory, inTables⟩ := refused _ tooLarge
  refine ⟨inMemory, inTables, (failed (.store _) trivial).2 ⟨_, fits, ?_⟩, (accepted _ fits).1⟩
  rfl

end Service

end LayeredPreferences

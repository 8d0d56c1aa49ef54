import LayeredPreferences.Proofs.Store.Cells
import LayeredPreferences.Proofs.Store.Codec
import LayeredPreferences.Store.Memory

set_option autoImplicit false

/-!
# Memory as cells

Values in memory come back as they are. No two rows need to be at different
places for that: the first one counts wherever the rows are asked.
-/
namespace LayeredPreferences.Memory

open LayeredPreferences.Action

theorem pass_ok {m : Memory} {call : Call} (h : m.failing.lookup call = none) :
    outcome (pass call) m = (.ok (), m) := by
  unfold pass
  rw [outcome_bind_ok (outcome_get m), h]
  rfl

theorem pass_refused {m : Memory} {call : Call} {reason : String}
    (h : m.failing.lookup call = some reason) :
    outcome (pass call) m = (.error (.store (.refused reason)), m) := by
  unfold pass
  rw [outcome_bind_ok (outcome_get m), h]
  rfl

theorem lookup_valuesOf (m : Memory) (owner : Owner) (key : String) :
    (m.valuesOf owner).lookup key = m.find? owner key := by
  unfold valuesOf find?
  rw [lookup_map Row.key Row.value, List.find?_filter]
  simp [Row.isAt]

theorem reads {m : Memory} {owner : Owner} (read : m.failing.lookup ⟨.read, owner.scope⟩ = none)
    (list : m.failing.lookup ⟨.list, owner.scope⟩ = none) : Reads m owner (m.find? owner) where
  read key := by
    change outcome (pass _ >>= _) m = _
    rw [outcome_bind_ok (pass_ok read)]
    rfl
  list := by
    refine ⟨m.valuesOf owner, ?_, m.lookup_valuesOf owner⟩
    change outcome (pass _ >>= _) m = _
    rw [outcome_bind_ok (pass_ok list)]
    rfl

theorem upsert_ok {m : Memory} {owner : Owner}
    (h : m.failing.lookup ⟨.upsert, owner.scope⟩ = none) (key : String) (v : Value) :
    outcome (Backend.upsert owner key v) m
      = (.ok (), { m.put owner key v with writes := m.writes + 1 }) := by
  change outcome (pass _ >>= _) m = _
  rw [outcome_bind_ok (pass_ok h)]
  rfl

theorem find?_put (m : Memory) (owner o : Owner) (key k : String) (v : Value) :
    (m.put owner key v).find? o k = if o = owner ∧ k = key then some v else m.find? o k := by
  unfold find? put
  by_cases same : o = owner ∧ k = key
  · obtain ⟨rfl, rfl⟩ := same
    simp [Row.isAt]
  · have first : Row.isAt ⟨owner, key, v⟩ o k = false := by
      have : owner = o → key ≠ k := fun h h' => same ⟨h.symm, h'.symm⟩
      simpa [Row.isAt] using this
    have apart : ∀ row : Row, row.isAt o k = true → row.isAt owner key = false := by
      intro row here
      simp only [Row.isAt, Bool.and_eq_true, decide_eq_true_eq] at here
      obtain ⟨rfl, rfl⟩ := here
      simpa [Row.isAt] using fun h h' => same ⟨h, h'⟩
    rw [if_neg same, List.find?_cons_of_neg (by simp [first]), find?_filter_apart apart]

instance : CellStore Memory where
  Intact m := m.failing = []
  cell := find?
  returned v := v
  empty := Memory.empty
  intact_empty := rfl
  cell_empty _ _ := rfl
  reads h owner := reads (by simp [h]) (by simp [h])
  upsert {m} h owner key v :=
    ⟨_, upsert_ok (by simp [h]) key v, h, fun o k => m.find?_put owner o key k v⟩
  sanitize_returned type _ := Definition.sanitize_same type

end LayeredPreferences.Memory

import LayeredPreferences.Registry
import Mathlib.Data.List.Induction
import Mathlib.Data.List.Nodup

set_option autoImplicit false

/-!
# Keys in a registry

A key leads to a definition of that key or to none. In a registry that was loaded
no key occurs twice, so each definition is found by its key.
-/
namespace LayeredPreferences.Registry

theorem mem_of_find? {r : Registry} {key : String} {d : Definition} (h : r.find? key = some d) :
    d ∈ r.definitions ∧ d.key = key :=
  ⟨List.mem_of_find?_eq_some h, by simpa using List.find?_some h⟩

theorem find?_eq_none_iff {r : Registry} {key : String} : r.find? key = none ↔ key ∉ r.keys := by
  simp [find?, keys]

theorem find?_eq_some_of_mem_keys {r : Registry} {key : String} (h : key ∈ r.keys) :
    ∃ d, r.find? key = some d := by
  cases found : r.find? key with
  | none => exact absurd h (find?_eq_none_iff.1 found)
  | some d => exact ⟨d, rfl⟩

theorem get_of_find? {r : Registry} {key : String} {d : Definition} (h : r.find? key = some d) :
    r.get key = .ok d := by
  simp [get, h]

theorem get_unknown {r : Registry} {key : String} (h : key ∉ r.keys) :
    r.get key = .error (.notFound key) := by
  simp [get, find?_eq_none_iff.2 h]

theorem find?_of_mem {r : Registry} (distinct : r.keys.Nodup) {d : Definition}
    (h : d ∈ r.definitions) : r.find? d.key = some d := by
  obtain ⟨e, found⟩ := find?_eq_some_of_mem_keys (List.mem_map.2 ⟨d, h, rfl⟩)
  obtain ⟨member, same⟩ := mem_of_find? found
  rw [found, List.inj_on_of_nodup_map distinct member h same]

theorem get_eq_ok {r : Registry} (distinct : r.keys.Nodup) {key : String} {d : Definition} :
    r.get key = .ok d ↔ d ∈ r.definitions ∧ d.key = key := by
  constructor
  · intro h
    unfold get at h
    split at h
    · rename_i found
      cases h
      exact mem_of_find? found
    · cases h
  · rintro ⟨member, rfl⟩
    exact get_of_find? (find?_of_mem distinct member)

/-! ## Loading -/

theorem register_eq (r : Registry) (d : Definition) : r.register d =
    if d.key ∈ r.keys then .error (.duplicateKey d.key) else .ok ⟨r.definitions ++ [d]⟩ := by
  simp [register, index?, List.findIdx?_isSome, keys]

theorem foldlM_register {ds : List Definition} {r : Registry}
    (fresh : (r.keys ++ ds.map Definition.key).Nodup) :
    ds.foldlM register r = .ok ⟨r.definitions ++ ds⟩ := by
  induction ds generalizing r with
  | nil => simp [pure, Except.pure]
  | cons d ds ih =>
    have absent : d.key ∉ r.keys := by
      intro member
      have apart := (List.nodup_append.1 fresh).2.2
      exact apart _ member _ (by simp) rfl
    have others : (keys ⟨r.definitions ++ [d]⟩ ++ ds.map Definition.key).Nodup := by
      simpa [keys] using fresh
    rw [List.foldlM_cons, register_eq, if_neg absent]
    exact (ih others).trans (by simp)

theorem load_distinct {ds : List Definition} (distinct : (ds.map Definition.key).Nodup) :
    load ds = .ok ⟨ds⟩ :=
  foldlM_register (by simpa [empty, keys] using distinct)

/-- The first key that has been there before ends the loading. -/
theorem load_duplicate {before : List Definition} (distinct : (before.map Definition.key).Nodup)
    {d : Definition} (again : d.key ∈ before.map Definition.key) (after : List Definition) :
    load (before ++ d :: after) = .error (.duplicateKey d.key) := by
  have front : before.foldlM register empty = .ok ⟨before⟩ := load_distinct distinct
  rw [load, List.foldlM_append, front]
  change (d :: after).foldlM register ⟨before⟩ = _
  rw [List.foldlM_cons, register_eq, if_pos (by exact again)]
  rfl

theorem distinct_or_duplicate (ds : List Definition) : (ds.map Definition.key).Nodup ∨
    ∃ before d after, ds = before ++ d :: after ∧ (before.map Definition.key).Nodup ∧
      d.key ∈ before.map Definition.key := by
  induction ds using List.reverseRecOn with
  | nil => simp
  | append_singleton ds d ih =>
    rcases ih with distinct | ⟨before, e, after, rfl, distinct, again⟩
    · by_cases again : d.key ∈ ds.map Definition.key
      · exact .inr ⟨ds, d, [], rfl, distinct, again⟩
      · left
        rw [List.map_append]
        exact List.nodup_append_comm.1 (List.nodup_cons.2 ⟨again, distinct⟩)
    · exact .inr ⟨before, e, after ++ [d], by simp, distinct, again⟩

theorem load_ok {ds : List Definition} {r : Registry} (h : load ds = .ok r) :
    r.definitions = ds ∧ r.keys.Nodup := by
  rcases distinct_or_duplicate ds with distinct | ⟨before, d, after, rfl, distinct, again⟩
  · rw [load_distinct distinct] at h
    cases h
    exact ⟨rfl, distinct⟩
  · rw [load_duplicate distinct again] at h
    cases h

end LayeredPreferences.Registry

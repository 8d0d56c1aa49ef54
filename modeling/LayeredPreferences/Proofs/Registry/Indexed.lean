import LayeredPreferences.Proofs.Registry
import LayeredPreferences.Proofs.Store.Outcome
import LayeredPreferences.Registry.Indexed

set_option autoImplicit false

/-!
# The index of a registry

Whatever was registered and refused, the index leads from each key to the place of
its definition, and from no other key anywhere. So a key that is looked up by its
place leads to the definition that was the first to be registered with it.
-/
namespace LayeredPreferences

open LayeredPreferences.Action

namespace OpenRegistry

def keys (r : OpenRegistry) : List String := r.definitions.map Definition.key

structure Consistent (r : OpenRegistry) : Prop where
  place : ∀ key i, r.place? key = some i ↔ ∃ d, r.definitions[i]? = some d ∧ d.key = key
  distinct : r.keys.Nodup

theorem Consistent.empty : OpenRegistry.empty.Consistent where
  place key i := by simp [place?, OpenRegistry.empty]
  distinct := List.nodup_nil

variable {r : OpenRegistry} {d : Definition} {key : String}

theorem Consistent.place?_isSome (h : r.Consistent) : (r.place? key).isSome ↔ key ∈ r.keys := by
  rw [Option.isSome_iff_exists]
  constructor
  · rintro ⟨i, found⟩
    obtain ⟨d, here, rfl⟩ := (h.place key i).1 found
    exact List.mem_map.2 ⟨d, List.mem_of_getElem? here, rfl⟩
  · intro member
    obtain ⟨d, hd, rfl⟩ := List.mem_map.1 member
    obtain ⟨i, here⟩ := List.mem_iff_getElem?.1 hd
    exact ⟨i, (h.place d.key i).2 ⟨d, here, rfl⟩⟩

theorem Consistent.refused (h : r.Consistent) (again : d.key ∈ r.keys) :
    outcome (register d) r = (.error (.duplicateKey d.key), r) := by
  have known : (r.place? d.key).isSome = true := h.place?_isSome.2 again
  unfold register
  rw [outcome_bind_ok (outcome_get r), if_pos known]
  rfl

/-- The registry with one more definition. -/
def added (r : OpenRegistry) (d : Definition) : OpenRegistry :=
  ⟨r.definitions ++ [d], (d.key, r.size) :: r.index⟩

theorem Consistent.registered (h : r.Consistent) (fresh : d.key ∉ r.keys) :
    outcome (register d) r = (.ok (), r.added d) := by
  have unknown : ¬ (r.place? d.key).isSome = true := fun known => fresh (h.place?_isSome.1 known)
  unfold register
  rw [outcome_bind_ok (outcome_get r), if_neg unknown]
  rfl

/-- The new place is the one behind all others, so none of them is taken over. -/
theorem Consistent.added (h : r.Consistent) (fresh : d.key ∉ r.keys) : (r.added d).Consistent where
  place key i := by
    have newest : (r.added d).place? key
        = if key = d.key then some r.size else r.place? key := by
      by_cases same : key = d.key
      · simp [place?, OpenRegistry.added, same]
      · have differ : (key == d.key) = false := by simpa using same
        simp [place?, OpenRegistry.added, List.lookup_cons, differ, same]
    rw [newest]
    change _ ↔ ∃ e, (r.definitions ++ [d])[i]? = some e ∧ e.key = key
    by_cases same : key = d.key
    · subst same
      rw [if_pos rfl]
      constructor
      · rintro ⟨⟩
        exact ⟨d, List.getElem?_concat_length, rfl⟩
      · rintro ⟨e, here, equal⟩
        by_cases before : i < r.definitions.length
        · rw [List.getElem?_append_left before] at here
          exact absurd (List.mem_map.2 ⟨e, List.mem_of_getElem? here, equal⟩) fresh
        · have inside := (List.getElem?_eq_some_iff.1 here).1
          rw [List.length_append, List.length_singleton] at inside
          exact congrArg some (by change r.definitions.length = i; omega)
    · rw [if_neg same, h.place key i]
      constructor
      · rintro ⟨e, here, equal⟩
        have before := (List.getElem?_eq_some_iff.1 here).1
        exact ⟨e, by rw [List.getElem?_append_left before, here], equal⟩
      · rintro ⟨e, here, equal⟩
        by_cases before : i < r.definitions.length
        · exact ⟨e, by rw [← here, List.getElem?_append_left before], equal⟩
        · rw [List.getElem?_append_right (by omega)] at here
          have last := List.mem_singleton.1 (List.mem_of_getElem? here)
          exact absurd (by rw [← equal, last]) same
  distinct := by
    change ((r.definitions ++ [d]).map Definition.key).Nodup
    rw [List.map_append]
    exact List.nodup_append_comm.1 (List.nodup_cons.2 ⟨fresh, h.distinct⟩)

/-! ## Any number of definitions -/

/-- Registers the definitions one after the other. One that is refused does not end it. -/
def registerEach : List Definition → OpenRegistry → List (Except SchemaFault Unit) × OpenRegistry
  | [], r => ([], r)
  | d :: ds, r =>
    let (answer, next) := outcome (register d) r
    let (answers, last) := registerEach ds next
    (answer :: answers, last)

theorem registerEach_refused (h : r.Consistent) (again : d.key ∈ r.keys) (ds : List Definition) :
    registerEach (d :: ds) r
      = (.error (.duplicateKey d.key) :: (registerEach ds r).1, (registerEach ds r).2) := by
  rw [registerEach, h.refused again]

theorem registerEach_registered (h : r.Consistent) (fresh : d.key ∉ r.keys)
    (ds : List Definition) : registerEach (d :: ds) r
      = (.ok () :: (registerEach ds (r.added d)).1, (registerEach ds (r.added d)).2) := by
  rw [registerEach, h.registered fresh]

theorem Consistent.registerEach (h : r.Consistent) (ds : List Definition) :
    (registerEach ds r).2.Consistent := by
  induction ds generalizing r with
  | nil => exact h
  | cons d ds ih =>
    by_cases again : d.key ∈ r.keys
    · rw [registerEach_refused h again]
      exact ih h
    · rw [registerEach_registered h again]
      exact ih (h.added again)

/-- The definitions that were not refused, in their order. -/
theorem definitions_registerEach (h : r.Consistent) (ds : List Definition) :
    (registerEach ds r).2.definitions
      = r.definitions ++ ((ds.zip (registerEach ds r).1).filter (·.2.isOk)).map Prod.fst := by
  induction ds generalizing r with
  | nil => simp [OpenRegistry.registerEach]
  | cons d ds ih =>
    by_cases again : d.key ∈ r.keys
    · rw [registerEach_refused h again, List.zip_cons_cons,
        List.filter_cons_of_neg (by simp [Except.isOk, Except.toBool])]
      exact ih h
    · rw [registerEach_registered h again, List.zip_cons_cons,
        List.filter_cons_of_pos (by simp [Except.isOk, Except.toBool]), List.map_cons]
      have others := ih (h.added again)
      rw [others]
      simp [OpenRegistry.added]

theorem size_registerEach (h : r.Consistent) (ds : List Definition) :
    (registerEach ds r).2.size = r.size + (registerEach ds r).1.countP (·.isOk) := by
  induction ds generalizing r with
  | nil => rfl
  | cons d ds ih =>
    by_cases again : d.key ∈ r.keys
    · rw [registerEach_refused h again, List.countP_cons_of_neg (by simp [Except.isOk, Except.toBool])]
      exact ih h
    · have others := ih (h.added again)
      have longer : (r.added d).size = r.size + 1 := List.length_append
      rw [registerEach_registered h again, List.countP_cons_of_pos rfl]
      change (OpenRegistry.registerEach ds (r.added d)).2.size = _
      omega

/-- A definition that was refused stands behind another one of its key. -/
theorem find?_registerEach (h : r.Consistent) (ds : List Definition) (key : String) :
    (registerEach ds r).2.definitions.find? (·.key == key)
      = (r.definitions ++ ds).find? (·.key == key) := by
  induction ds generalizing r with
  | nil => simp [OpenRegistry.registerEach]
  | cons d ds ih =>
    by_cases again : d.key ∈ r.keys
    · rw [registerEach_refused h again]
      refine (ih h).trans ?_
      rw [List.find?_append, List.find?_append]
      by_cases same : d.key = key
      · obtain ⟨e, he, equal⟩ := List.mem_map.1 again
        have found : (r.definitions.find? (·.key == key)).isSome := by
          rw [List.find?_isSome]
          exact ⟨e, he, by simp [equal, same]⟩
        obtain ⟨first, hfirst⟩ := Option.isSome_iff_exists.1 found
        rw [hfirst]
        rfl
      · rw [List.find?_cons_of_neg (by simpa using same)]
    · rw [registerEach_registered h again]
      refine (ih (h.added again)).trans ?_
      simp [OpenRegistry.added]

/-! ## Looking up -/

theorem Consistent.find?_freeze (h : r.Consistent) (key : String) :
    r.freeze.find? key = r.definitions.find? (·.key == key) := by
  change (r.place? key >>= fun i => r.definitions[i]?) = _
  cases place : r.place? key with
  | none =>
    have absent : key ∉ r.keys := fun member => by
      have known := h.place?_isSome.2 member
      rw [place] at known
      cases known
    have unfound : r.definitions.find? (·.key == key) = none :=
      (Registry.find?_eq_none_iff (r := ⟨r.definitions⟩)).2 absent
    rw [unfound]
    rfl
  | some i =>
    obtain ⟨d, here, rfl⟩ := (h.place key i).1 place
    have found : r.definitions.find? (·.key == d.key) = some d :=
      Registry.find?_of_mem (r := ⟨r.definitions⟩) h.distinct (List.mem_of_getElem? here)
    rw [found]
    exact here

/-! ## Loading -/

theorem forM_register (h : r.Consistent) {ds : List Definition}
    (fresh : (r.keys ++ ds.map Definition.key).Nodup) :
    outcome (forM ds register) r = (.ok (), (registerEach ds r).2) ∧
      (registerEach ds r).2.definitions = r.definitions ++ ds := by
  induction ds generalizing r with
  | nil => exact ⟨rfl, (List.append_nil _).symm⟩
  | cons d ds ih =>
    have new : d.key ∉ r.keys := fun member =>
      (List.nodup_append.1 fresh).2.2 _ member _ (by simp) rfl
    have others : ((r.added d).keys ++ ds.map Definition.key).Nodup := by
      simpa [keys, OpenRegistry.added] using fresh
    obtain ⟨loaded, definitions⟩ := ih (h.added new) others
    rw [registerEach_registered h new, List.forM_cons, outcome_bind_ok (h.registered new), loaded]
    exact ⟨rfl, definitions.trans (by simp [OpenRegistry.added])⟩

theorem forM_register_duplicate (h : r.Consistent) {before : List Definition}
    (fresh : (r.keys ++ before.map Definition.key).Nodup)
    (again : d.key ∈ before.map Definition.key) (after : List Definition) :
    outcome (forM (before ++ d :: after) register) r
      = (.error (.duplicateKey d.key), (registerEach before r).2) := by
  obtain ⟨front, definitions⟩ := forM_register h fresh
  have known : d.key ∈ (registerEach before r).2.keys := by
    change d.key ∈ (registerEach before r).2.definitions.map Definition.key
    rw [definitions, List.map_append]
    exact List.mem_append_right _ again
  rw [List.forM_append, outcome_bind_ok front, List.forM_cons]
  exact outcome_bind_error ((h.registerEach before).refused known)

end OpenRegistry

namespace FrozenRegistry

open OpenRegistry

theorem load_distinct {ds : List Definition} (distinct : (ds.map Definition.key).Nodup) :
    load ds = .ok (registerEach ds .empty).2.freeze ∧
      (registerEach ds .empty).2.definitions = ds := by
  obtain ⟨loaded, definitions⟩ := forM_register Consistent.empty distinct
  refine ⟨?_, definitions⟩
  change (match outcome (forM ds register) OpenRegistry.empty with
    | (.ok (), r) => Except.ok r.freeze
    | (.error fault, _) => .error fault) = _
  rw [loaded]

theorem load_duplicate {before : List Definition} (distinct : (before.map Definition.key).Nodup)
    {d : Definition} (again : d.key ∈ before.map Definition.key) (after : List Definition) :
    load (before ++ d :: after) = .error (.duplicateKey d.key) := by
  have stopped := forM_register_duplicate Consistent.empty distinct again after
  change (match outcome (forM (before ++ d :: after) register) OpenRegistry.empty with
    | (.ok (), r) => Except.ok r.freeze
    | (.error fault, _) => .error fault) = _
  rw [stopped]

theorem plain_load (ds : List Definition) : (load ds).map plain = Registry.load ds := by
  rcases Registry.distinct_or_duplicate ds with distinct | ⟨before, d, after, rfl, distinct, again⟩
  · obtain ⟨loaded, definitions⟩ := load_distinct distinct
    rw [loaded, Registry.load_distinct distinct]
    exact congrArg (fun ds => Except.ok (Registry.mk ds)) definitions
  · rw [load_duplicate distinct again, Registry.load_duplicate distinct again]
    rfl

/-- What is looked up by its place is what a search finds. -/
theorem get_eq_plain {r : OpenRegistry} (h : r.Consistent) (key : String) :
    r.freeze.get key = r.freeze.plain.get key := by
  unfold get
  rw [h.find?_freeze]
  rfl

end FrozenRegistry

/-! ## What a registry answers -/

open OpenRegistry

/-- The registry that definitions led to, each of them registered with its answer. -/
structure Registered (ds : List Definition) (answers : List (Except SchemaFault Unit))
    (r : OpenRegistry) : Prop where
  consistent : r.Consistent
  refuses : ∀ d, (∃ fault, (outcome (register d) r).1 = .error fault) ↔ d.key ∈ r.keys
  unchanged : ∀ d fault, (outcome (register d) r).1 = .error fault →
    fault = .duplicateKey d.key ∧ (outcome (register d) r).2 = r
  listed : r.freeze.definitions = ((ds.zip answers).filter (·.2.isOk)).map Prod.fst
  size : r.freeze.size = answers.countP (·.isOk)
  found : ∀ key d, r.freeze.get key = .ok d ↔ ds.find? (·.key == key) = some d
  unknown : ∀ key fault, r.freeze.get key = .error fault ↔
    fault = .notFound key ∧ ∀ d ∈ ds, d.key ≠ key
  searched : ∀ key, r.freeze.get key = r.freeze.plain.get key

theorem registered_each (ds : List Definition) :
    Registered ds (registerEach ds .empty).1 (registerEach ds .empty).2 := by
  have consistent := Consistent.empty.registerEach ds
  have definitions := definitions_registerEach .empty ds
  have found (key : String) : (registerEach ds .empty).2.freeze.find? key
      = ds.find? (·.key == key) :=
    (consistent.find?_freeze key).trans (find?_registerEach .empty ds key)
  refine ⟨consistent, fun d => ?_, fun d fault refused => ?_, definitions, ?_, fun key d => ?_,
    fun key fault => ?_, FrozenRegistry.get_eq_plain consistent⟩
  · constructor
    · rintro ⟨fault, refused⟩
      refine Classical.byContradiction fun fresh => ?_
      rw [consistent.registered fresh] at refused
      cases refused
    · intro again
      exact ⟨_, by rw [consistent.refused again]⟩
  · by_cases again : d.key ∈ (registerEach ds .empty).2.keys
    · rw [consistent.refused again] at refused ⊢
      cases refused
      exact ⟨rfl, rfl⟩
    · rw [consistent.registered again] at refused
      cases refused
  · have size := size_registerEach .empty ds
    exact size.trans (Nat.zero_add _)
  · rw [FrozenRegistry.get, found]
    cases ds.find? (·.key == key) <;> simp
  · rw [FrozenRegistry.get, found]
    cases first : ds.find? (·.key == key) with
    | some d =>
      have member := List.mem_of_find?_eq_some first
      have same : d.key = key := by simpa using List.find?_some first
      simp only [reduceCtorEq, false_iff, not_and]
      exact fun _ none => none d member same
    | none =>
      have absent : ∀ d ∈ ds, d.key ≠ key := by simpa using List.find?_eq_none.1 first
      constructor
      · rintro ⟨⟩
        exact ⟨rfl, absent⟩
      · rintro ⟨rfl, -⟩
        rfl

theorem not_nodup_again {before : List Definition} {d : Definition}
    (again : d.key ∈ before.map Definition.key) (after : List Definition) :
    ¬ ((before ++ d :: after).map Definition.key).Nodup := by
  intro distinct
  rw [List.map_append] at distinct
  exact (List.nodup_append.1 distinct).2.2 _ again _ (by simp) rfl

/-- A list of definitions is loaded as a whole or refused for the first key that comes again. -/
structure LoadsWhole (ds : List Definition) : Prop where
  loads : (∃ r, FrozenRegistry.load ds = .ok r) ↔ (ds.map Definition.key).Nodup
  listed : ∀ r, FrozenRegistry.load ds = .ok r →
    r.definitions = ds ∧ r = (registerEach ds .empty).2.freeze
  refused : ∀ fault, FrozenRegistry.load ds = .error fault ↔ ∃ before d after,
    ds = before ++ d :: after ∧ (before.map Definition.key).Nodup ∧
      d.key ∈ before.map Definition.key ∧ fault = .duplicateKey d.key
  plain : (FrozenRegistry.load ds).map FrozenRegistry.plain = Registry.load ds

theorem loads_whole (ds : List Definition) : LoadsWhole ds := by
  have plain := FrozenRegistry.plain_load ds
  rcases Registry.distinct_or_duplicate ds with distinct | ⟨before, d, after, rfl, distinct, again⟩
  · obtain ⟨loaded, definitions⟩ := FrozenRegistry.load_distinct distinct
    refine ⟨⟨fun _ => distinct, fun _ => ⟨_, loaded⟩⟩, fun r h => ?_, fun fault => ?_, plain⟩
    · rw [loaded] at h
      cases h
      exact ⟨definitions, rfl⟩
    · rw [loaded]
      constructor
      · rintro ⟨⟩
      · rintro ⟨before, d, after, rfl, -, again, -⟩
        exact absurd distinct (not_nodup_again again after)
  · have refused := FrozenRegistry.load_duplicate distinct again after
    refine ⟨⟨?_, fun whole => absurd whole (not_nodup_again again after)⟩, fun r h => ?_,
      fun fault => ⟨fun h => ?_, ?_⟩, plain⟩
    · rintro ⟨r, h⟩
      rw [refused] at h
      cases h
    · rw [refused] at h
      cases h
    · rw [refused] at h
      cases h
      exact ⟨before, d, after, rfl, distinct, again, rfl⟩
    · rintro ⟨before', d', after', same, distinct', again', rfl⟩
      rw [same, FrozenRegistry.load_duplicate distinct' again']

/-- Whatever is registered, the index and the definitions stay in step, a key is registered once,
    and it leads to the definition that came first. -/
theorem registers_each_key_once (ds : List Definition) :
    Registered ds (registerEach ds .empty).1 (registerEach ds .empty).2 ∧ LoadsWhole ds :=
  ⟨registered_each ds, loads_whole ds⟩

end LayeredPreferences

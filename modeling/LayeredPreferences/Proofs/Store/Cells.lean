import LayeredPreferences.Proofs.Store.Outcome
import LayeredPreferences.Resolution

set_option autoImplicit false

/-!
# Stores as cells

A cell is an owner with a key. What can be asked about an owner's values agrees
with the cells of the owner, a write fills one cell and touches no other, and a
value may come back changed as long as sanitizing gives it back.
-/
namespace LayeredPreferences

open LayeredPreferences.Action

/-- Both ways to ask for the values of an owner answer by these cells, and leave the store. -/
structure Reads {σ : Type} [Backend σ] (s : σ) (owner : Owner)
    (cells : String → Option Value) : Prop where
  read : ∀ key, outcome (Backend.read owner key) s = (.ok (cells key), s)
  list : ∃ values, outcome (Backend.list owner) s = (.ok values, s) ∧
    ∀ key, values.lookup key = cells key

class CellStore (σ : Type) [Backend σ] where
  /-- Every access to such a store succeeds. -/
  Intact : σ → Prop
  cell : σ → Owner → String → Option Value
  /-- What a value is read as once it has been stored. -/
  returned : Value → Value
  empty : σ
  intact_empty : Intact empty
  cell_empty : ∀ owner key, cell empty owner key = none
  reads : ∀ {s}, Intact s → ∀ owner, Reads s owner (cell s owner)
  upsert : ∀ {s}, Intact s → ∀ owner key v, ∃ t,
    outcome (Backend.upsert owner key v) s = (.ok (), t) ∧ Intact t ∧
      ∀ o k, cell t o k = if o = owner ∧ k = key then some (returned v) else cell s o k
  sanitize_returned : ∀ {d : Definition} {v}, v.type = d.valueType → d.valueType ≠ .float →
    d.sanitize (returned v) = v

/-- Among rows of distinct keys, listed as far as they hold something, a key is looked up as in
    the rows themselves. -/
theorem lookup_filterMap {ρ α : Type} (key : ρ → String) (held : ρ → Option α) (rows : List ρ)
    (distinct : (rows.map key).Nodup) (k : String) :
    (rows.filterMap fun row => (held row).map (key row, ·)).lookup k
      = (rows.find? fun row => key row = k).bind held := by
  induction rows with
  | nil => rfl
  | cons row rows ih =>
    obtain ⟨fresh, others⟩ := List.nodup_cons.1 distinct
    by_cases same : key row = k
    · subst k
      have absent : rows.find? (fun r => key r = key row) = none := by
        rw [List.find?_eq_none]
        intro r hr equal
        exact fresh (List.mem_map.2 ⟨r, hr, by simpa using equal⟩)
      cases content : held row with
      | none => simp [content, ih others, absent]
      | some v => simp [content]
    · have different : (k == key row) = false := by simpa using fun h => same h.symm
      cases content : held row with
      | none => simp [content, same, ih others]
      | some v => simp [content, same, ih others, List.lookup_cons, different]

/-- Where every row holds a value, the first row of a key counts in both. -/
theorem lookup_map {ρ α : Type} (key : ρ → String) (value : ρ → α) (rows : List ρ) (k : String) :
    (rows.map fun row => (key row, value row)).lookup k
      = (rows.find? fun row => key row = k).map value := by
  induction rows with
  | nil => rfl
  | cons row rows ih =>
    by_cases same : key row = k
    · simp [same]
    · have different : (k == key row) = false := by simpa using fun h => same h.symm
      simp [same, ih, List.lookup_cons, different]

/-- Dropping rows that are not looked for changes nothing. -/
theorem find?_filter_apart {ρ : Type} {dropped sought : ρ → Bool}
    (apart : ∀ row, sought row = true → dropped row = false) (rows : List ρ) :
    (rows.filter fun row => !dropped row).find? sought = rows.find? sought := by
  rw [List.find?_filter]
  congr 1
  funext row
  cases here : sought row with
  | false => simp
  | true => simp [apart row here]

end LayeredPreferences

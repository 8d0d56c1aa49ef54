import LayeredPreferences.Proofs.Service.Demand
import LayeredPreferences.Proofs.Service.Intact
import LayeredPreferences.Proofs.Store.Memory
import LayeredPreferences.Proofs.Store.Tables

set_option autoImplicit false

/-!
# Memory and tables answer alike

Two stores in which the same values were given answer every demand alike, and the
same values are given afterwards. What the stores hold is not the same: a boolean
has become a number in tables.
-/
namespace LayeredPreferences

open LayeredPreferences.Action CellStore

namespace Keeps

variable {σ : Type} [Backend σ] [CellStore σ] {r : Registry}
  {given : Owner → String → Option Value} {s : σ}

/-- A list shows the values that were given, whatever the store made of them. -/
theorem views_given (h : Keeps r given s) (distinct : r.keys.Nodup)
    (floatless : ∀ d ∈ r.definitions, d.valueType ≠ .float) (scope : Scope) (org user : Owner) :
    r.views scope (cell s org) (cell s user) = r.views scope (given org) (given user) := by
  refine List.map_congr_left fun d enabled => ?_
  have member : d ∈ r.definitions := (List.mem_filter.1 enabled).1
  have found : r.find? d.key = some d := Registry.find?_of_mem distinct member
  rw [h.effective_given (floatless d member) found]

end Keeps

namespace Service

/-- The same values were given in both stores, none of them a float. -/
structure Alike {σ τ : Type} [Backend σ] [CellStore σ] [Backend τ] [CellStore τ] (r : Registry)
    (given : Owner → String → Option Value) (s : σ) (t : τ) : Prop where
  left : Keeps r given s
  right : Keeps r given t
  floatless : ∀ {owner key v}, given owner key = some v → v.type ≠ .float

namespace Alike

variable {σ τ : Type} [Backend σ] [CellStore σ] [Backend τ] [CellStore τ] {r : Registry}
  {given : Owner → String → Option Value} {s : σ} {t : τ}

theorem empty (r : Registry) :
    Alike r (fun _ _ => none) (CellStore.empty : σ) (CellStore.empty : τ) where
  left := .empty r
  right := .empty r
  floatless := nofun

theorem readAt (h : Alike r given s t) (floatless : ∀ d ∈ r.definitions, d.valueType ≠ .float)
    (scope : Scope) (org user key : String) :
    (outcome (readAt r org user key scope) s).1 = (outcome (readAt r org user key scope) t).1 := by
  rcases r.closed_or_open scope key with ⟨fault, closed⟩ | ⟨d, found, on⟩
  · rw [readAt_closed org user closed, readAt_closed org user closed]
  · have float : d.valueType ≠ .float := floatless d (Registry.mem_of_find? found).1
    rw [readAt_intact h.left.intact found on, readAt_intact h.right.intact found on,
      h.left.effective_given float found, h.right.effective_given float found]

theorem listAt (h : Alike r given s t) (distinct : r.keys.Nodup)
    (floatless : ∀ d ∈ r.definitions, d.valueType ≠ .float) (scope : Scope) (org user : String) :
    (outcome (listAt r org user scope) s).1 = (outcome (listAt r org user scope) t).1 := by
  rw [listAt_intact h.left.intact, listAt_intact h.right.intact,
    h.left.views_given distinct floatless, h.right.views_given distinct floatless]

/-- A write is refused in both stores, or its value is given in both from now on. -/
theorem write (h : Alike r given s t) (floatless : ∀ d ∈ r.definitions, d.valueType ≠ .float)
    (owner : Owner) (key : String) (v : Value) :
    (outcome (write r owner key v) s).1 = (outcome (write r owner key v) t).1 ∧
    ∃ given', Alike r given' (outcome (write r owner key v) s).2
      (outcome (write r owner key v) t).2 := by
  rcases r.refuses_or_accepts owner.scope key v with ⟨fault, refused⟩ | ⟨w, accepted⟩
  · rw [write_refused refused, write_refused refused]
    exact ⟨rfl, given, h⟩
  · obtain ⟨s', stored, left⟩ := h.left.write_accepted accepted
    obtain ⟨t', stored', right⟩ := h.right.write_accepted accepted
    rw [stored, stored']
    refine ⟨rfl, give given owner key w, left, right, fun {o k x} hx => ?_⟩
    obtain ⟨d, found, -, valid⟩ := accepted
    unfold give at hx
    split at hx
    · cases hx
      rw [Definition.validate_type valid]
      exact floatless d (Registry.mem_of_find? found).1
    · exact h.floatless hx

/-- One demand is answered alike, and leaves the stores alike. -/
theorem serve (h : Alike r given s t) (distinct : r.keys.Nodup)
    (floatless : ∀ d ∈ r.definitions, d.valueType ≠ .float) (demand : Demand) :
    (outcome (demand.serve r) s).1 = (outcome (demand.serve r) t).1 ∧
    ∃ given', Alike r given' (outcome (demand.serve r) s).2 (outcome (demand.serve r) t).2 := by
  cases demand with
  | read scope org user key =>
    simp only [Demand.serve, outcome_map, readAt_leaves h.left.intact,
      readAt_leaves h.right.intact, h.readAt floatless, true_and]
    exact ⟨given, h⟩
  | list scope org user =>
    have answers := h.listAt distinct floatless scope org user
    simp only [Demand.serve, outcome_map, answers, true_and]
    rw [listAt_intact h.left.intact, listAt_intact h.right.intact]
    exact ⟨given, h⟩
  | write owner key v =>
    obtain ⟨answers, alike⟩ := h.write floatless owner key v
    simp only [Demand.serve, outcome_map, answers, true_and]
    exact alike

theorem serveAll (distinct : r.keys.Nodup)
    (floatless : ∀ d ∈ r.definitions, d.valueType ≠ .float) (demands : List Demand)
    (h : Alike r given s t) :
    (serveAll r demands s).1 = (serveAll r demands t).1 ∧
    ∃ given', Alike r given' (serveAll r demands s).2 (serveAll r demands t).2 := by
  induction demands generalizing given s t with
  | nil => exact ⟨rfl, given, h⟩
  | cons demand demands ih =>
    obtain ⟨answer, given', alike⟩ := h.serve distinct floatless demand
    obtain ⟨answers, ended⟩ := ih alike
    exact ⟨congrArg₂ List.cons answer answers, ended⟩

end Alike

/-- What was given is what memory holds. -/
theorem read_memory {r : Registry} {given : Owner → String → Option Value} {m : Memory}
    (h : Keeps r given m) (owner : Owner) (key : String) :
    outcome (Backend.read owner key) m = (.ok (given owner key), m) := by
  rw [(reads h.intact owner).read, h.cells]
  exact congrArg (fun held => (Except.ok held, m)) Option.map_id'

/-- Tables hold the text of what was given. -/
theorem read_tables {r : Registry} {given : Owner → String → Option Value} {t : Tables}
    (h : Keeps r given t)
    (floatless : ∀ {owner key v}, given owner key = some v → v.type ≠ .float) (owner : Owner)
    (key : String) :
    outcome (Backend.read owner key) t = (.ok ((given owner key).map Value.recoded), t) := by
  have held : (given owner key).map (returned Tables) = (given owner key).map Value.recoded := by
    cases value : given owner key with
    | none => rfl
    | some v => exact congrArg some (v.decode_encode (floatless value))
  rw [(reads h.intact owner).read, h.cells, held]

/-- Starting from nothing, memory and tables answer any number of demands alike. In the end they
    hold values at the same places, though not the same values. -/
theorem memory_and_tables_answer_alike {ds : List Definition} {r : Registry}
    (loaded : Registry.load ds = .ok r) (floatless : ∀ d ∈ ds, d.valueType ≠ .float)
    (demands : List Demand) :
    let inMemory := serveAll r demands Memory.empty
    let inTables := serveAll r demands Tables.empty
    inMemory.1 = inTables.1 ∧ ∀ owner key, ∃ held,
      outcome (Backend.read owner key) inMemory.2 = (.ok held, inMemory.2) ∧
      outcome (Backend.read owner key) inTables.2
        = (.ok (held.map Value.recoded), inTables.2) := by
  intro inMemory inTables
  obtain ⟨rfl, distinct⟩ := Registry.load_ok loaded
  obtain ⟨answers, given, alike⟩ := Alike.serveAll distinct floatless demands
    (Alike.empty r : Alike r _ Memory.empty Tables.empty)
  refine ⟨answers, fun owner key => ⟨given owner key, ?_, ?_⟩⟩
  · exact read_memory alike.left owner key
  · exact read_tables alike.right alike.floatless owner key

/-- A switch that was filled in without a check: its default is a text. -/
def muted : Definition where
  key := "MUTED"
  name := "Muted"
  description := ""
  valueType := .boolean
  defaultValue := .string "1"
  domain := .discrete []
  scopes := [.user, .org]

/-- The switch is `true` in memory and `1` in tables, and is shown alike. -/
theorem memory_and_tables_answer_alike_muted :
    let demands : List Demand :=
      [.read .org "acme" "" "MUTED", .write ⟨.org, "acme"⟩ "MUTED" (.boolean true),
        .write ⟨.user, "ada"⟩ "MUTED" (.integer 1), .read .user "acme" "ada" "MUTED",
        .write ⟨.user, "ada"⟩ "MUTED" (.boolean false), .list .user "acme" "ada"]
    (serveAll ⟨[muted]⟩ demands Memory.empty).1 = (serveAll ⟨[muted]⟩ demands Tables.empty).1 := by
  intro demands
  have loaded : Registry.load [muted] = .ok ⟨[muted]⟩ := rfl
  exact (memory_and_tables_answer_alike loaded (by decide) demands).1

end Service

end LayeredPreferences

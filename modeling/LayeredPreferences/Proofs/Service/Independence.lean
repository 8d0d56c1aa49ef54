import LayeredPreferences.Proofs.Service.Demand
import LayeredPreferences.Proofs.Service.Intact
import LayeredPreferences.Proofs.Store.Frame
import Mathlib.Data.List.Forall2

set_option autoImplicit false

/-!
# Writes do not interfere

A cell is an owner with a key. What is read at a key and a scope comes from one
cell, or from two where a user inherits; a write changes its own cell. So whatever
is read from other cells stays, and writes at different cells can change their
order.
-/
namespace LayeredPreferences

open LayeredPreferences.Action CellStore

variable {σ : Type} [Backend σ] [CellStore σ]

namespace Definition

/-- The owners whose cells count for the value of a preference. The organization counts for a user
    only where the user has no value and the preference is enabled for organizations. -/
def Counts (d : Definition) (s : σ) (org user : String) : Scope → Owner → Prop
  | .org, owner => owner = ⟨.org, org⟩
  | .user, owner => owner = ⟨.user, user⟩ ∨
    owner = ⟨.org, org⟩ ∧ .org ∈ d.scopes ∧ cell s ⟨.user, user⟩ d.key = none

/-- The cells that count in `s` are the same in `u`. -/
def SameCells (d : Definition) (s u : σ) (org user : String) (scope : Scope) : Prop :=
  ∀ owner, d.Counts s org user scope owner → cell s owner d.key = cell u owner d.key

theorem effective_congr {d : Definition} {s u : σ} {org user : String} {scope : Scope}
    (same : d.SameCells s u org user scope) :
    d.effective scope (cell s ⟨.org, org⟩ d.key) (cell s ⟨.user, user⟩ d.key)
      = d.effective scope (cell u ⟨.org, org⟩ d.key) (cell u ⟨.user, user⟩ d.key) := by
  cases scope with
  | org =>
    have own := same ⟨.org, org⟩ rfl
    simp only [effective, own]
  | user =>
    have own := same ⟨.user, user⟩ (.inl rfl)
    simp only [effective, select, ← own]
    cases value : cell s ⟨.user, user⟩ d.key with
    | some v => rfl
    | none =>
      by_cases on : Scope.org ∈ d.scopes
      · rw [same ⟨.org, org⟩ (.inr ⟨rfl, on, value⟩)]
      · simp [enabledAt, on]

end Definition

/-- The views are of the same definitions, and do not differ where the condition is met. -/
def ShownAlike (condition : Definition → Prop) : List View → List View → Prop :=
  List.Forall₂ fun view view' =>
    view.definition = view'.definition ∧ (condition view.definition → view = view')

theorem Registry.views_alike {condition : Definition → Prop} (r : Registry) {scope : Scope}
    {org user org' user' : String → Option Value}
    (same : ∀ d, condition d → d.effective scope (org d.key) (user d.key)
      = d.effective scope (org' d.key) (user' d.key)) :
    ShownAlike condition (r.views scope org user) (r.views scope org' user') := by
  unfold ShownAlike views
  rw [List.forall₂_map_left_iff, List.forall₂_map_right_iff, List.forall₂_same]
  exact fun d _ => ⟨rfl, fun met => by rw [same d met]⟩

namespace Service

/-! ## Reading -/

variable {r : Registry} {s u : σ}

theorem readAt_congr (hs : Intact s) (hu : Intact u) {org user key : String} {scope : Scope}
    (same : ∀ d ∈ r.find? key, d.SameCells s u org user scope) :
    (outcome (readAt r org user key scope) s).1 = (outcome (readAt r org user key scope) u).1 := by
  rcases r.closed_or_open scope key with ⟨fault, closed⟩ | ⟨d, found, on⟩
  · rw [readAt_closed org user closed, readAt_closed org user closed]
  · obtain ⟨-, rfl⟩ := Registry.mem_of_find? found
    rw [readAt_intact hs found on, readAt_intact hu found on,
      Definition.effective_congr (same d found)]

theorem listAt_congr (r : Registry) (hs : Intact s) (hu : Intact u) (org user : String)
    (scope : Scope) :
    ∃ views views', outcome (listAt r org user scope) s = (.ok views, s) ∧
      outcome (listAt r org user scope) u = (.ok views', u) ∧
      ShownAlike (·.SameCells s u org user scope) views views' :=
  ⟨_, _, listAt_intact hs, listAt_intact hu,
    r.views_alike fun _ same => Definition.effective_congr same⟩

/-- What is read and listed in two stores differs only where cells differ that count. -/
structure DependsOnCells (r : Registry) (s u : σ) : Prop where
  read : ∀ org user key scope, (∀ d ∈ r.find? key, d.SameCells s u org user scope) →
    (outcome (readAt r org user key scope) s).1 = (outcome (readAt r org user key scope) u).1
  listed : ∀ org user scope, ∃ views views',
    outcome (listAt r org user scope) s = (.ok views, s) ∧
    outcome (listAt r org user scope) u = (.ok views', u) ∧
    ShownAlike (·.SameCells s u org user scope) views views'

theorem dependsOnCells (r : Registry) (hs : Intact s) (hu : Intact u) : DependsOnCells r s u where
  read _ _ _ _ same := readAt_congr hs hu same
  listed := listAt_congr r hs hu

/-! ## Writing -/

theorem write_cell (intact : Intact s) {owner : Owner} {key : String} {v : Value} {e : Effective}
    {t : σ} (h : outcome (write r owner key v) s = (.ok e, t)) :
      (outcome (Backend.upsert owner key e.value) s).2 = t ∧
      ∀ o k, cell t o k
        = if o = owner ∧ k = key then some (returned σ e.value) else cell s o k := by
  rcases r.refuses_or_accepts owner.scope key v with ⟨fault, refused⟩ | ⟨w, accepted⟩
  · rw [write_refused refused] at h
    cases h
  · obtain ⟨u, stored, -, cells⟩ := CellStore.upsert intact owner key w
    rw [write_accepted accepted, stored] at h
    cases h
    exact ⟨by rw [stored], cells⟩

/-- Whether it is accepted or refused, a write keeps the store intact and all other cells. -/
theorem write_elsewhere (r : Registry) (intact : Intact s) (owner : Owner) (key : String)
    (v : Value) : Intact (outcome (write r owner key v) s).2 ∧ ∀ o k, ¬ (o = owner ∧ k = key) →
      cell (outcome (write r owner key v) s).2 o k = cell s o k := by
  rcases r.refuses_or_accepts owner.scope key v with ⟨fault, refused⟩ | ⟨w, accepted⟩
  · rw [write_refused refused]
    exact ⟨intact, fun _ _ _ => rfl⟩
  · obtain ⟨u, stored, intact', cells⟩ := CellStore.upsert intact owner key w
    rw [write_accepted accepted, stored]
    exact ⟨intact', fun o k apart => by rw [cells, if_neg apart]⟩

theorem sameCells_write (r : Registry) (intact : Intact s) (owner : Owner) (key : String)
    (v : Value) {d : Definition} {org user : String} {scope : Scope}
    (apart : d.key = key → ¬ d.Counts s org user scope owner) :
    d.SameCells s (outcome (write r owner key v) s).2 org user scope := by
  intro o counts
  refine ((write_elsewhere r intact owner key v).2 o d.key ?_).symm
  rintro ⟨rfl, same⟩
  exact apart same counts

variable [RowStore σ]

theorem interchange_write (r : Registry) (intact : Intact s) {owner o : Owner} {key k : String}
    (apart : ¬ (o = owner ∧ k = key)) (v w : Value) :
    Interchange RowStore.SameRows (write r owner key v) (write r o k w) s := by
  rcases r.refuses_or_accepts owner.scope key v with ⟨fault, refused⟩ | ⟨x, accepted⟩
  · exact .of_steps (write_refused refused s) rfl rfl (write_refused refused _) (RowStore.refl _)
  rcases r.refuses_or_accepts o.scope k w with ⟨fault, refused⟩ | ⟨y, accepted'⟩
  · exact .of_steps rfl (write_refused refused s) (write_refused refused _) rfl (RowStore.refl _)
  obtain ⟨first, second, left⟩ := RowStore.interchange intact apart x y
  constructor
  · rw [write_accepted accepted', write_accepted accepted, write_accepted accepted]
    exact congrArg (Except.map _) first
  · rw [write_accepted accepted, write_accepted accepted', write_accepted accepted']
    exact congrArg (Except.map _) second
  · rw [write_accepted accepted, write_accepted accepted', write_accepted accepted,
      write_accepted accepted']
    exact left

/-- A write changes its own cell; what does not come from there is read and listed as before, and
    writes at other cells can change places with it. -/
structure WritesApart (r : Registry) (s : σ) : Prop where
  written : ∀ {owner key v e t}, outcome (write r owner key v) s = (.ok e, t) →
    RowStore.OnlyAt owner key s t ∧ ∀ o k, cell t o k
      = if o = owner ∧ k = key then some (returned σ e.value) else cell s o k
  read : ∀ owner key v org user k scope,
    (∀ d ∈ r.find? k, k = key → ¬ d.Counts s org user scope owner) →
    (outcome (readAt r org user k scope) (outcome (write r owner key v) s).2).1
      = (outcome (readAt r org user k scope) s).1
  listed : ∀ owner key v org user scope, ∃ views views',
    outcome (listAt r org user scope) s = (.ok views, s) ∧
    (outcome (listAt r org user scope) (outcome (write r owner key v) s).2).1 = .ok views' ∧
    ShownAlike (fun d => d.key = key → ¬ d.Counts s org user scope owner) views views'
  interchange : ∀ {owner o key k}, ¬ (o = owner ∧ k = key) → ∀ v w,
    Interchange RowStore.SameRows (write r owner key v) (write r o k w) s

theorem writesApart (r : Registry) (intact : Intact s) : WritesApart r s where
  written {owner key v e t} h := by
    obtain ⟨rfl, cells⟩ := write_cell intact h
    exact ⟨RowStore.onlyAt intact owner key e.value, cells⟩
  read owner key v org user k scope apart := by
    refine (readAt_congr intact (write_elsewhere r intact owner key v).1 fun d found => ?_).symm
    refine sameCells_write r intact owner key v fun same => apart d found ?_
    rw [← same, (Registry.mem_of_find? found).2]
  listed owner key v org user scope := by
    have intact' := (write_elsewhere r intact owner key v).1
    refine ⟨_, _, listAt_intact intact, by rw [listAt_intact intact'], ?_⟩
    refine r.views_alike fun d apart => Definition.effective_congr ?_
    exact sameCells_write r intact owner key v apart
  interchange apart v w := interchange_write r intact apart v w

end Service

namespace Tables

open Service

theorem interchange_write_delete (r : Registry) {t : Tables} (intact : Intact t) {owner o : Owner}
    (apart : o ≠ owner) (key : String) (v : Value) :
    Interchange SameRows (write r o key v) (deleteOwner owner) t := by
  rcases r.refuses_or_accepts o.scope key v with ⟨fault, refused⟩ | ⟨x, accepted⟩
  · exact .of_steps (write_refused refused t) rfl rfl (write_refused refused _)
      (RowStore.refl (σ := Tables) _)
  obtain ⟨first, second, left⟩ := interchange_delete intact apart key x
  constructor
  · rw [write_accepted accepted, write_accepted accepted]
    exact congrArg (Except.map _) first
  · rw [write_accepted accepted]
    exact second
  · rw [write_accepted accepted, write_accepted accepted]
    exact left

/-- Deleting an owner empties its cells and no others, and a write for another owner can come
    before it or after it. -/
structure DeletesApart (r : Registry) (t : Tables) : Prop where
  deleted : ∀ owner, ∃ there u, outcome (deleteOwner owner) t = (.ok there, u) ∧
    OnlyOf owner t u ∧ ∀ o k, u.cell o k = if o = owner then none else t.cell o k
  interchange : ∀ {owner o}, o ≠ owner → ∀ key v,
    Interchange SameRows (write r o key v) (deleteOwner owner) t

theorem deletesApart (r : Registry) {t : Tables} (intact : Intact t) : DeletesApart r t where
  deleted owner := ⟨_, _, outcome_deleteOwner t owner, onlyOf_withoutOwner t owner,
    t.cell_withoutOwner owner⟩
  interchange apart key v := interchange_write_delete r intact apart key v

end Tables

namespace Service

/-! ## Reachable stores -/

/-- The stores that demands lead to, whatever the registries are. The store may have further ways
    to change. -/
inductive Reachable (further : σ → σ → Prop) (start : σ) : σ → Prop where
  | start : Reachable further start start
  | serve {s : σ} (h : Reachable further start s) (r : Registry) (demand : Demand) :
    Reachable further start (outcome (demand.serve r) s).2
  | further {s t : σ} (h : Reachable further start s) (step : further s t) :
    Reachable further start t

theorem intact_serve {s : σ} (intact : Intact s) (r : Registry) (demand : Demand) :
    Intact (outcome (demand.serve r) s).2 := by
  cases demand with
  | read scope org user key => rwa [Demand.serve, outcome_map, readAt_leaves intact]
  | list scope org user => rwa [Demand.serve, outcome_map, listAt_intact intact]
  | write owner key v =>
    rw [Demand.serve, outcome_map]
    exact (write_elsewhere r intact owner key v).1

theorem intact_reachable {further : σ → σ → Prop}
    (kept : ∀ {s t}, Intact s → further s t → Intact t) {s : σ}
    (h : Reachable further CellStore.empty s) : Intact s := by
  induction h with
  | start => exact intact_empty
  | serve _ r demand ih => exact intact_serve ih r demand
  | further _ step ih => exact kept ih step

/-- Memory changes by demands alone. -/
abbrev InMemory (m : Memory) : Prop := Reachable (fun _ _ => False) Memory.empty m

/-- Tables change by the deletion of owners, too. -/
abbrev InTables (t : Tables) : Prop :=
  Reachable (fun t u => ∃ owner, u = (outcome (Tables.deleteOwner owner) t).2) Tables.empty t

theorem intact_memory {m : Memory} (h : InMemory m) : Intact m :=
  intact_reachable (fun _ step => step.elim) h

theorem intact_tables {t : Tables} (h : InTables t) : Intact t := by
  refine intact_reachable (fun intact step => ?_) h
  obtain ⟨owner, rfl⟩ := step
  exact Tables.intact_withoutOwner intact owner

/-- Whatever has been done to memory or to tables, what is read depends on the cells that count, and
    writes and deletions keep to their own cells. -/
theorem writes_do_not_interfere (r : Registry) :
    (∀ m : Memory, InMemory m →
      WritesApart r m ∧ ∀ n : Memory, InMemory n → DependsOnCells r m n) ∧
    ∀ t : Tables, InTables t →
      WritesApart r t ∧ Tables.DeletesApart r t ∧
        ∀ u : Tables, InTables u → DependsOnCells r t u := by
  constructor
  · intro m reached
    have intact := intact_memory reached
    exact ⟨writesApart r intact, fun n reached' => dependsOnCells r intact (intact_memory reached')⟩
  · intro t reached
    have intact := intact_tables reached
    exact ⟨writesApart r intact, Tables.deletesApart r intact,
      fun u reached' => dependsOnCells r intact (intact_tables reached')⟩

/-- A language for organizations and users. -/
def language : Definition where
  key := "LANGUAGE"
  name := "Language"
  description := ""
  valueType := .string
  defaultValue := .string "en"
  domain := .discrete []
  scopes := [.org, .user]

/-- An organization and a user of the same id do not meet. -/
theorem writes_do_not_interfere_sameId :
    let r : Registry := ⟨[language]⟩
    let forOrg := write r ⟨.org, "x"⟩ "LANGUAGE" (.string "de")
    let forUser := write r ⟨.user, "x"⟩ "LANGUAGE" (.string "fr")
    let t := (outcome (Tables.deleteOwner ⟨.user, "x"⟩)
      (outcome ((Demand.write ⟨.org, "x"⟩ "LANGUAGE" (.string "it")).serve r) Tables.empty).2).2
    Interchange Tables.SameRows forOrg forUser t ∧
    (outcome (readAt r "x" "x" "LANGUAGE" .org) (outcome forUser t).2).1
      = (outcome (readAt r "x" "x" "LANGUAGE" .org) t).1 ∧
    Interchange Tables.SameRows forUser (Tables.deleteOwner ⟨.org, "x"⟩) t := by
  intro r forOrg forUser t
  have reached : InTables t := .further (.serve .start r _) ⟨⟨.user, "x"⟩, rfl⟩
  obtain ⟨writes, deletes, -⟩ := (writes_do_not_interfere r).2 t reached
  refine ⟨writes.interchange (by decide) _ _, ?_, deletes.interchange (by decide) _ _⟩
  refine writes.read ⟨.user, "x"⟩ "LANGUAGE" (.string "fr") "x" "x" "LANGUAGE" .org ?_
  intro d _ _ counts
  exact absurd counts (by simp [Definition.Counts])

end Service

end LayeredPreferences

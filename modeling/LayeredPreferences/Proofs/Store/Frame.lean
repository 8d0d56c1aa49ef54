import LayeredPreferences.Proofs.Store.Memory
import LayeredPreferences.Proofs.Store.Tables
import Mathlib.Data.List.Perm.Basic

set_option autoImplicit false

/-!
# What a write leaves as it was

A write touches the row at its own owner and key. Writes at different places can
change their order: each is answered as before, and the same rows are left, though
in another order. The same holds of a write and the deletion of another owner.
-/
namespace LayeredPreferences

open LayeredPreferences.Action

namespace Action

/-- Each action is answered as it would be first, and either order leaves the same store. -/
structure Interchange {ε σ α β : Type} (same : σ → σ → Prop) (a : ExceptT ε (StateM σ) α)
    (b : ExceptT ε (StateM σ) β) (s : σ) : Prop where
  first : (outcome a (outcome b s).2).1 = (outcome a s).1
  second : (outcome b (outcome a s).2).1 = (outcome b s).1
  left : same (outcome b (outcome a s).2).2 (outcome a (outcome b s).2).2

theorem Interchange.of_steps {ε σ α β : Type} {same : σ → σ → Prop} {a : ExceptT ε (StateM σ) α}
    {b : ExceptT ε (StateM σ) β} {x : Except ε α} {y : Except ε β} {s t u v w : σ}
    (first : outcome a s = (x, t)) (second : outcome b s = (y, u))
    (then_second : outcome b t = (y, v)) (then_first : outcome a u = (x, w)) (left : same v w) :
    Interchange same a b s where
  first := by rw [second, then_first, first]
  second := by rw [first, then_second, second]
  left := by
    rw [first, second, then_second, then_first]
    exact left

end Action

/-- Rows put at different places can be put in either order. -/
theorem put_put_perm {ρ : Type} {p q : ρ → Bool} {x y : ρ} (hx : q x = false) (hy : p y = false)
    (rows : List ρ) : (y :: (x :: rows.filter (!p ·)).filter (!q ·)).Perm
      (x :: (y :: rows.filter (!q ·)).filter (!p ·)) := by
  rw [List.filter_cons_of_pos (by simp [hx]), List.filter_cons_of_pos (by simp [hy]),
    List.filter_comm]
  exact .swap _ _ _

class RowStore (σ : Type) [Backend σ] [CellStore σ] where
  /-- The stores hold the same rows, in whatever order. -/
  SameRows : σ → σ → Prop
  /-- All that differs is the row at this owner and key. -/
  OnlyAt : Owner → String → σ → σ → Prop
  refl : ∀ s, SameRows s s
  onlyAt : ∀ {s : σ}, CellStore.Intact s → ∀ owner key v,
    OnlyAt owner key s (outcome (Backend.upsert owner key v) s).2
  interchange : ∀ {s : σ}, CellStore.Intact s → ∀ {owner o : Owner} {key k : String},
    ¬ (o = owner ∧ k = key) → ∀ v w,
    Interchange SameRows (Backend.upsert owner key v) (Backend.upsert o k w) s

namespace Memory

structure SameRows (m n : Memory) : Prop where
  rows : m.rows.Perm n.rows
  writes : m.writes = n.writes
  failing : m.failing = n.failing

structure OnlyAt (owner : Owner) (key : String) (m n : Memory) : Prop where
  rows : (n.rows.filter fun row => !row.isAt owner key)
    = m.rows.filter fun row => !row.isAt owner key
  failing : n.failing = m.failing

theorem Row.not_isAt {owner o : Owner} {key k : String} (apart : ¬ (o = owner ∧ k = key))
    (v : Value) : Row.isAt ⟨o, k, v⟩ owner key = false := by
  simpa [Row.isAt] using apart

/-- The memory after a write. -/
def written (m : Memory) (owner : Owner) (key : String) (v : Value) : Memory :=
  { m.put owner key v with writes := m.writes + 1 }

theorem upsert_written {m : Memory} (h : m.failing = []) (owner : Owner) (key : String)
    (v : Value) : outcome (Backend.upsert owner key v) m = (.ok (), m.written owner key v) :=
  upsert_ok (by simp [h]) key v

instance : RowStore Memory where
  SameRows := SameRows
  OnlyAt := OnlyAt
  refl _ := ⟨.refl _, rfl, rfl⟩
  onlyAt {m} h owner key v := by
    rw [upsert_written h]
    exact ⟨by simp [written, put, Row.isAt], rfl⟩
  interchange {m} h {owner o key k} apart v w := by
    have back : ¬ (owner = o ∧ key = k) := fun same => apart ⟨same.1.symm, same.2.symm⟩
    have first := upsert_written h owner key v
    have second := upsert_written h o k w
    have then_second := upsert_written (m := m.written owner key v) h o k w
    have then_first := upsert_written (m := m.written o k w) h owner key v
    refine .of_steps first second then_second then_first ?_
    have first' : Row.isAt ⟨owner, key, v⟩ o k = false := Row.not_isAt back v
    have second' : Row.isAt ⟨o, k, w⟩ owner key = false := Row.not_isAt apart w
    exact ⟨put_put_perm (p := fun row : Row => row.isAt owner key) first' second' m.rows,
      rfl, rfl⟩

end Memory

namespace Tables

/-! ## Placing rows -/

theorem Row.isAt_apart {owner o key k : String} (apart : ¬ (o = owner ∧ k = key)) {row : Row}
    (here : row.isAt o k = true) : row.isAt owner key = false := by
  obtain ⟨rfl, named⟩ := isAt_iff.1 here
  simpa [Row.isAt, named, Stored.ofString_inj] using apart

/-- Two new rows come in the order in which they are placed. -/
theorem placed_placed {owner o key k : String} (apart : ¬ (o = owner ∧ k = key))
    (value other : Option Stored) (rows : List Row) :
    (placed o k other (placed owner key value rows)).Perm
      (placed owner key value (placed o k other rows)) := by
  have back : ¬ (owner = o ∧ key = k) := fun same => apart ⟨same.1.symm, same.2.symm⟩
  have first : Row.isAt ⟨owner, .ofString key, value⟩ o k = false :=
    Row.isAt_apart back (isAt_iff.2 ⟨rfl, rfl⟩)
  have second : Row.isAt ⟨o, .ofString k, other⟩ owner key = false :=
    Row.isAt_apart apart (isAt_iff.2 ⟨rfl, rfl⟩)
  induction rows with
  | nil => simpa [placed, first, second] using .swap _ _ _
  | cons row rows ih =>
    by_cases here : row.isAt owner key = true
    · have unlike := Row.isAt_apart back here
      simp [placed, here, unlike, first]
    · by_cases there : row.isAt o k = true
      · simp [placed, here, there, second]
      · simpa [placed, here, there] using ih

theorem filter_placed (owner key : String) (value : Option Stored) (rows : List Row) :
    (placed owner key value rows).filter (fun row => !row.isAt owner key)
      = rows.filter fun row => !row.isAt owner key := by
  have new : Row.isAt ⟨owner, .ofString key, value⟩ owner key = true := isAt_iff.2 ⟨rfl, rfl⟩
  induction rows with
  | nil => simp [placed, new]
  | cons row rows ih =>
    by_cases here : row.isAt owner key = true
    · simp [placed, here, new]
    · simp [placed, here, ih]

/-- A row of another owner can be placed before or after an owner is gone. -/
theorem filter_owner_placed {id owner : String} (apart : owner ≠ id) (key : String)
    (value : Option Stored) (rows : List Row) :
    (placed owner key value rows).filter (·.owner ≠ id)
      = placed owner key value (rows.filter (·.owner ≠ id)) := by
  induction rows with
  | nil => simp [placed, apart]
  | cons row rows ih =>
    by_cases here : row.isAt owner key = true
    · obtain ⟨same, -⟩ := isAt_iff.1 here
      simp [placed, here, same, apart]
    · by_cases gone : row.owner = id
      · simpa [placed, here, gone] using ih
      · simpa [placed, here, gone] using ih

/-! ## Rows and owners of one scope -/

structure Pair.SameRows (p q : Pair) : Prop where
  owners : p.owners.Perm q.owners
  rows : Option.Rel List.Perm p.rows q.rows

theorem Pair.SameRows.refl (p : Pair) : p.SameRows p where
  owners := .refl _
  rows := by
    cases p.rows with
    | none => exact .none
    | some rows => exact .some (.refl _)

/-- A row is filed together with its owner. -/
def Pair.filed (p : Pair) (id key : String) (value : Option Stored) : Pair where
  owners := p.owners.insert id
  rows := some (placed id key value (p.rows.getD []))

/-- An owner is gone with its rows. -/
def Pair.without (p : Pair) (id : String) : Pair where
  owners := p.owners.filter (· ≠ id)
  rows := p.rows.map fun rows => rows.filter (·.owner ≠ id)

theorem Pair.filed_filed (p : Pair) {id o key k : String} (apart : ¬ (o = id ∧ k = key))
    (value other : Option Stored) :
    ((p.filed id key value).filed o k other).SameRows
      ((p.filed o k other).filed id key value) where
  owners := List.perm_insert_swap o id p.owners
  rows := .some (placed_placed apart value other _)

theorem filter_insert {id o : String} (apart : o ≠ id) (owners : List String) :
    (owners.insert o).filter (· ≠ id) = (owners.filter (· ≠ id)).insert o := by
  by_cases here : o ∈ owners
  · rw [List.insert_of_mem here, List.insert_of_mem (by simp [here, apart])]
  · rw [List.insert_of_not_mem here, List.insert_of_not_mem (by simp [here]),
      List.filter_cons_of_pos (by simpa using apart)]

theorem filter_insert_self (id : String) (owners : List String) :
    (owners.insert id).filter (· ≠ id) = owners.filter (· ≠ id) := by
  by_cases here : id ∈ owners
  · rw [List.insert_of_mem here]
  · rw [List.insert_of_not_mem here, List.filter_cons_of_neg (by simp)]

/-- Filing a row and deleting another owner can change their order. -/
theorem Pair.without_filed (p : Pair) {rows : List Row} (present : p.rows = some rows)
    {id o : String} (apart : o ≠ id) (key : String) (value : Option Stored) :
    (p.filed o key value).without id = (p.without id).filed o key value := by
  unfold without filed
  simp only [present, Option.getD_some, Option.map_some, filter_insert apart,
    filter_owner_placed apart]

/-! ## Both scopes -/

def SameRows (t u : Tables) : Prop := ∀ scope, (t.pair scope).SameRows (u.pair scope)

structure OnlyAt (owner : Owner) (key : String) (t u : Tables) : Prop where
  scopes : ∀ scope, scope ≠ owner.scope → u.pair scope = t.pair scope
  owners : (u.pair owner.scope).owners.filter (· ≠ owner.id)
    = (t.pair owner.scope).owners.filter (· ≠ owner.id)
  rows : (u.pair owner.scope).rows.map (List.filter fun row => !row.isAt owner.id key)
    = (t.pair owner.scope).rows.map (List.filter fun row => !row.isAt owner.id key)

/-- All that differs is the owner and its rows. -/
structure OnlyOf (owner : Owner) (t u : Tables) : Prop where
  scopes : ∀ scope, scope ≠ owner.scope → u.pair scope = t.pair scope
  owners : (u.pair owner.scope).owners.filter (· ≠ owner.id)
    = (t.pair owner.scope).owners.filter (· ≠ owner.id)
  rows : (u.pair owner.scope).rows.map (List.filter (·.owner ≠ owner.id))
    = (t.pair owner.scope).rows.map (List.filter (·.owner ≠ owner.id))

theorem ext_pair {t u : Tables} (h : ∀ scope, t.pair scope = u.pair scope) : t = u := by
  have org : t.org = u.org := h .org
  have user : t.user = u.user := h .user
  cases t
  cases u
  simp_all

theorem pair_setPair_eq (t : Tables) (scope other : Scope) (p : Pair) :
    (t.setPair scope p).pair other = if other = scope then p else t.pair other := by
  split
  · rename_i same
    rw [same, pair_setPair]
  · rename_i different
    exact pair_setPair_other t p different

def filed (t : Tables) (owner : Owner) (key : String) (value : Option Stored) : Tables :=
  t.setPair owner.scope ((t.pair owner.scope).filed owner.id key value)

theorem upsert_filed {t : Tables} {owner : Owner} {rows : List Row}
    (present : (t.pair owner.scope).rows = some rows) (key : String) (v : Value) :
    outcome (Backend.upsert owner key v) t
      = (.ok (), t.filed owner key (some (.ofString v.encode))) := by
  refine (put_present present key _).trans ?_
  rw [withRow, filed, Pair.filed, present]
  rfl

theorem withoutOwner_eq (t : Tables) (owner : Owner) :
    t.withoutOwner owner = t.setPair owner.scope ((t.pair owner.scope).without owner.id) := rfl

theorem filed_present {t : Tables} (present : ∀ scope, ∃ rows, (t.pair scope).rows = some rows)
    (owner : Owner) (key : String) (value : Option Stored) (scope : Scope) :
    ∃ rows, ((t.filed owner key value).pair scope).rows = some rows := by
  rw [filed, pair_setPair_eq]
  split
  · exact ⟨_, rfl⟩
  · exact present scope

theorem filed_filed (t : Tables) {owner o : Owner} {key k : String}
    (apart : ¬ (o = owner ∧ k = key)) (value other : Option Stored) :
    ((t.filed owner key value).filed o k other).SameRows
      ((t.filed o k other).filed owner key value) := by
  intro scope
  simp only [filed, pair_setPair_eq]
  by_cases here : scope = owner.scope
  · by_cases there : scope = o.scope
    · have different : ¬ (o.id = owner.id ∧ k = key) := by
        rintro ⟨id, rfl⟩
        exact apart ⟨by cases o; cases owner; simp_all, rfl⟩
      simpa [← here, ← there] using Pair.filed_filed _ different value other
    · simpa [← here, there, fun same => there (Eq.symm same)] using Pair.SameRows.refl _
  · by_cases there : scope = o.scope
    · simpa [← there, here, fun same => here (Eq.symm same)] using Pair.SameRows.refl _
    · simpa [here, there] using Pair.SameRows.refl _

theorem withoutOwner_filed {t : Tables}
    (present : ∀ scope, ∃ rows, (t.pair scope).rows = some rows) {owner o : Owner}
    (apart : o ≠ owner) (key : String) (value : Option Stored) :
    (t.filed o key value).withoutOwner owner = (t.withoutOwner owner).filed o key value := by
  refine ext_pair fun scope => ?_
  simp only [filed, withoutOwner_eq, pair_setPair_eq]
  by_cases here : scope = owner.scope
  · by_cases there : scope = o.scope
    · have different : o.id ≠ owner.id := fun id => apart (by cases o; cases owner; simp_all)
      obtain ⟨rows, held⟩ := present scope
      simpa [← here, ← there] using Pair.without_filed _ held different key value
    · simp [← here, there]
  · by_cases there : scope = o.scope
    · simp [← there, here]
    · simp [here, there]

theorem present_of_intact {t : Tables} (h : CellStore.Intact t) (scope : Scope) :
    ∃ rows, (t.pair scope).rows = some rows := by
  obtain ⟨rows, readable⟩ := h ⟨scope, ""⟩
  exact ⟨rows, readable.present⟩

instance : RowStore Tables where
  SameRows := SameRows
  OnlyAt := OnlyAt
  refl t scope := .refl (t.pair scope)
  onlyAt {t} h owner key v := by
    obtain ⟨rows, held⟩ := present_of_intact h owner.scope
    rw [upsert_filed held]
    refine ⟨fun scope other => pair_setPair_other t _ other, ?_, ?_⟩
    · rw [filed, pair_setPair, Pair.filed, filter_insert_self]
    · rw [filed, pair_setPair, Pair.filed, held, Option.getD_some, Option.map_some, filter_placed]
      rfl
  interchange {t} h {owner o key k} apart v w := by
    have present := present_of_intact h
    have ok {u : Tables} (present : ∀ scope, ∃ rows, (u.pair scope).rows = some rows)
        (owner : Owner) (key : String) (v : Value) :=
      upsert_filed (present owner.scope).choose_spec key v
    have first := ok present owner key v
    have second := ok present o k w
    exact .of_steps first second (ok (filed_present present owner key _) o k w)
      (ok (filed_present present o k _) owner key v) (t.filed_filed apart _ _)

/-! ## Deleting -/

theorem onlyOf_withoutOwner (t : Tables) (owner : Owner) : OnlyOf owner t (t.withoutOwner owner) := by
  rw [withoutOwner_eq]
  refine ⟨fun scope other => pair_setPair_other t _ other, ?_, ?_⟩
  · rw [pair_setPair, Pair.without, List.filter_filter]
    simp
  · rw [pair_setPair, Pair.without, Option.map_map]
    congr 1
    funext rows
    simp

/-- A row does not bring back another owner. -/
theorem contains_filed (t : Tables) {owner o : Owner} (apart : o ≠ owner) (key : String)
    (value : Option Stored) : ((t.filed o key value).pair owner.scope).owners.contains owner.id
      = (t.pair owner.scope).owners.contains owner.id := by
  rw [filed, pair_setPair_eq]
  split
  · rename_i scope
    have different : owner.id ≠ o.id := fun id => apart (by cases o; cases owner; simp_all)
    rw [Pair.filed, scope]
    simp [different]
  · rfl

theorem interchange_delete {t : Tables} (h : CellStore.Intact t) {owner o : Owner}
    (apart : o ≠ owner) (key : String) (v : Value) :
    Interchange SameRows (Backend.upsert o key v) (deleteOwner owner) t := by
  have present := present_of_intact h
  have present' := present_of_intact (intact_withoutOwner h owner)
  have then_delete : outcome (deleteOwner owner) (t.filed o key (some (.ofString v.encode)))
      = (.ok ((t.pair owner.scope).owners.contains owner.id),
        (t.filed o key (some (.ofString v.encode))).withoutOwner owner) := by
    rw [outcome_deleteOwner, contains_filed t apart]
  refine .of_steps (upsert_filed (present o.scope).choose_spec key v) (outcome_deleteOwner t owner)
    then_delete (upsert_filed (present' o.scope).choose_spec key v) ?_
  rw [withoutOwner_filed present apart]
  exact fun scope => .refl _

end Tables

end LayeredPreferences

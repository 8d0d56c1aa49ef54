import LayeredPreferences.Proofs.Traversal
import LayeredPreferences.Store.Columns
import Mathlib.Data.List.Induction

set_option autoImplicit false

/-!
# Rows as they are listed

Rows are listed if every one of them can be read, and the first that cannot be
read decides the fault. Each key is listed once, with the value of the last of its
rows that has one.
-/
namespace LayeredPreferences

open Database

theorem NamedCell.get_eq_ok {α : Type} {name : String} {cell : Cell}
    {read : Cell → Except ColumnFault α} {x : α} :
    NamedCell.get ⟨name, cell⟩ name read = .ok x ↔ read cell = .ok x := by
  rw [get, if_pos rfl]
  cases read cell <;> simp [Except.mapError]

namespace Columns

/-! ## Entries -/

theorem mem_insert {values : List (String × Value)} {entry e : String × Value} :
    e ∈ insert values entry ↔ e ∈ values ∧ e.1 ≠ entry.1 ∨ e = entry := by
  simp [insert]

theorem nodup_insert {values : List (String × Value)} (h : (values.map Prod.fst).Nodup)
    (entry : String × Value) : ((insert values entry).map Prod.fst).Nodup := by
  have kept : ((values.filter (·.1 ≠ entry.1)).map Prod.fst).Nodup :=
    h.sublist (List.filter_sublist.map _)
  rw [insert, List.map_append, List.nodup_append]
  refine ⟨kept, by simp, ?_⟩
  rintro key member _ (last | ⟨_, ⟨⟩⟩) rfl
  obtain ⟨e, left, same⟩ := List.mem_map.1 member
  have other := (List.mem_filter.1 left).2
  exact of_decide_eq_true other same

theorem nodup_foldl_insert (entries : List (String × Value)) :
    ((entries.foldl insert []).map Prod.fst).Nodup := by
  induction entries using List.reverseRecOn with
  | nil => simp
  | append_singleton entries entry ih =>
    rw [List.foldl_append]
    exact nodup_insert ih entry

theorem foldl_insert_of_nodup {values entries : List (String × Value)}
    (h : ((values ++ entries).map Prod.fst).Nodup) :
    entries.foldl insert values = values ++ entries := by
  induction entries generalizing values with
  | nil => simp
  | cons entry entries ih =>
    have new : insert values entry = values ++ [entry] := by
      rw [insert, List.filter_eq_self.2]
      intro e member
      rw [List.map_append, List.nodup_append] at h
      exact decide_eq_true (h.2.2 e.1 (List.mem_map_of_mem member) entry.1 (by simp))
    rw [List.foldl_cons, new, ih (by simpa using h), List.append_assoc, List.singleton_append]

/-! ## Rows -/

variable {rows : List Columns}

theorem listed_of_entries {ρ : Type} {rows : List ρ} {columns : ρ → Columns}
    {entry : ρ → Option (String × Value)}
    (h : ∀ row ∈ rows, (columns row).item? = .ok (entry row)) :
    listed (rows.map columns) = .ok ((rows.filterMap entry).foldl insert []) := by
  have read : (rows.map columns).mapM item? = .ok (rows.map entry) := by
    rw [mapM_eq_ok, List.forall₂_map_left_iff, List.forall₂_map_right_iff, List.forall₂_same]
    exact h
  rw [listed, read]
  change Except.ok (((rows.map entry).filterMap id).foldl insert []) = _
  rw [List.filterMap_map]
  rfl

theorem listed_eq_error {fault : StoreFault} (h : rows.mapM item? = .error fault) :
    listed rows = .error fault := by
  rw [listed, h]
  rfl

/-- A row that cannot be read is enough for the list to fail. -/
theorem exists_fault {row : Columns} (member : row ∈ rows)
    (unread : ∀ entry, row.item? ≠ .ok entry) : ∃ fault, listed rows = .error fault := by
  cases read : rows.mapM item? with
  | error fault => exact ⟨fault, listed_eq_error read⟩
  | ok entries =>
    obtain ⟨entry, -, first⟩ := exists_of_forall₂ (mapM_eq_ok.1 read) member
    exact absurd first (unread entry)

theorem listed_inv {values : List (String × Value)} (h : listed rows = .ok values) :
    ∃ entries, rows.mapM item? = .ok entries ∧ values = (entries.filterMap id).foldl insert [] := by
  obtain ⟨entries, read, ended⟩ := Except.bind_eq_ok.1 h
  exact ⟨entries, read, (Except.ok.inj ended).symm⟩

theorem nodup_listed {values : List (String × Value)} (h : listed rows = .ok values) :
    (values.map Prod.fst).Nodup := by
  obtain ⟨entries, -, rfl⟩ := listed_inv h
  exact nodup_foldl_insert _

/-! ## Last entries -/

/-- A row has this entry, and none of the rows after it has one of the same key. -/
def LastEntry (rows : List Columns) (e : String × Value) : Prop :=
  ∃ before row after, rows = before ++ row :: after ∧ row.item? = .ok (some e) ∧
    ∀ later ∈ after, ∀ other, later.item? = .ok (some other) → other.1 ≠ e.1

theorem lastEntry_concat {row : Columns} {e : String × Value} :
    LastEntry (rows ++ [row]) e ↔ row.item? = .ok (some e) ∨
      LastEntry rows e ∧ ∀ other, row.item? = .ok (some other) → other.1 ≠ e.1 := by
  constructor
  · rintro ⟨before, found, after, parted, read, last⟩
    rcases List.eq_nil_or_concat after with rfl | ⟨after, later, rfl⟩
    · obtain ⟨rfl, same⟩ := List.append_inj' parted rfl
      cases same
      exact .inl read
    · rw [List.concat_eq_append, ← List.cons_append, ← List.append_assoc] at parted
      obtain ⟨rfl, same⟩ := List.append_inj' parted rfl
      cases same
      refine .inr ⟨⟨before, found, after, rfl, read, fun r member => last r ?_⟩, last row ?_⟩
      · simp [member]
      · simp
  · rintro (read | ⟨⟨before, found, after, rfl, read, last⟩, other⟩)
    · exact ⟨rows, row, [], rfl, read, nofun⟩
    · refine ⟨before, found, after ++ [row], by simp, read, fun later member => ?_⟩
      rcases List.mem_append.1 member with inside | here
      · exact last later inside
      · obtain rfl := List.mem_singleton.1 here
        exact other

theorem listed_concat {row : Columns} {values : List (String × Value)}
    (h : listed (rows ++ [row]) = .ok values) : ∃ before entry, listed rows = .ok before ∧
      row.item? = .ok entry ∧ values = entry.elim before (insert before) := by
  obtain ⟨entries, read, rfl⟩ := listed_inv h
  rw [List.mapM_append] at read
  obtain ⟨front, first, read⟩ := Except.bind_eq_ok.1 read
  obtain ⟨back, last, ended⟩ := Except.bind_eq_ok.1 read
  cases ended
  obtain ⟨entry, found, rfl⟩ : ∃ entry, row.item? = .ok entry ∧ back = [entry] := by
    obtain ⟨entry, found, more⟩ := Except.bind_eq_ok.1 last
    cases more
    exact ⟨entry, found, rfl⟩
  refine ⟨(front.filterMap id).foldl insert [], entry, ?_, found, ?_⟩
  · rw [listed, first]
    rfl
  · cases entry <;> simp [List.filterMap_append]

/-- What is listed of a key is the value of the last of its rows that has one. -/
theorem mem_listed {values : List (String × Value)} (h : listed rows = .ok values)
    {e : String × Value} : e ∈ values ↔ LastEntry rows e := by
  induction rows using List.reverseRecOn generalizing values with
  | nil =>
    cases h
    refine ⟨nofun, ?_⟩
    rintro ⟨before, row, after, parted, -⟩
    simp at parted
  | append_singleton rows row ih =>
    obtain ⟨before, entry, front, found, rfl⟩ := listed_concat h
    rw [lastEntry_concat, found, ← ih front]
    cases entry with
    | none => simp
    | some x =>
      change e ∈ insert before x ↔ _
      rw [mem_insert]
      simp only [Except.ok.injEq, Option.some.injEq, forall_eq', eq_comm (a := e), ne_comm (a := e.1)]
      exact or_comm

end Columns

end LayeredPreferences

import LayeredPreferences.Proofs.Store.Cells
import LayeredPreferences.Proofs.Store.Codec
import LayeredPreferences.Proofs.Store.Columns
import LayeredPreferences.Proofs.Text.Utf8
import LayeredPreferences.Store.Tables
import Mathlib.Data.List.Find

set_option autoImplicit false

/-!
# Tables as cells

The key of a row is its owner together with its preference. Tables answer by their
cells wherever the rows of the owner hold texts; one that does not makes every list
of the owner fail.
-/
namespace LayeredPreferences

open LayeredPreferences.Action

namespace Stored

theorem ofString_inj {s t : String} : ofString s = ofString t ↔ s = t := by
  simp [ofString, Text.bytesOf_inj]

def IsText (stored : Stored) : Prop := ∃ text, stored = ofString text

theorem asText_eq_ok {stored : Stored} {isOptional : Bool} {text : String} :
    stored.cell.asText isOptional = .ok text ↔ stored = ofString text := by
  cases stored with
  | text bytes =>
    have read : Database.Cell.asText isOptional (.text bytes)
        = (Text.ofBytes bytes).mapError ColumnFault.notText := rfl
    rw [cell, read, ofString, Stored.text.injEq, ← Text.ofBytes_eq_ok]
    cases Text.ofBytes bytes <;> simp [Except.mapError]
  | blob bytes => simp [cell, Database.Cell.asText, ofString]

theorem asText?_eq_ok {stored : Option Stored} {text : Option String} :
    ((stored.map cell).getD .null).asText? = .ok text ↔ stored = text.map ofString := by
  cases stored with
  | none => cases text <;> simp [Database.Cell.asText?]
  | some stored =>
    have read : stored.cell.asText? = (stored.cell.asText true).map some := by cases stored <;> rfl
    have same (t : String) := @asText_eq_ok stored true t
    rw [Option.map_some, Option.getD_some, read]
    cases got : stored.cell.asText true with
    | error fault =>
      cases text with
      | none => simp [Except.map]
      | some t => simpa [Except.map, got] using same t
    | ok t =>
      obtain rfl := (same t).1 got
      cases text <;> simp [Except.map, ofString_inj]

end Stored

namespace Tables

/-! ## Rows -/

namespace Row

/-- The key is a text, and so is the value if there is one. -/
structure IsText (row : Row) : Prop where
  key : row.key.IsText
  value : ∀ v ∈ row.value, v.IsText

variable {row : Row}

theorem value?_eq_ok {v : Option Value} : row.columns.value? = .ok v ↔
    ∃ text : Option String, row.value = text.map .ofString ∧ v = text.map .decode := by
  simp only [Columns.value?, columns, Except.bind_eq_ok, NamedCell.get_eq_ok, Stored.asText?_eq_ok]
  simp [pure, Except.pure, eq_comm]

theorem value?_broken {bytes : List UInt8} (h : row.value = some (.text bytes))
    {fault : Text.Utf8Fault} (broken : Text.ofBytes bytes = .error fault) :
    row.columns.value? = .error (.column "preference_value" (.notText fault)) := by
  have read : Database.Cell.asText? (.text bytes) = .error (.notText fault) := by
    change ((Text.ofBytes bytes).mapError _).map some = _
    rw [broken]
    rfl
  unfold Columns.value? columns NamedCell.get
  rw [h, if_pos rfl]
  change (Database.Cell.asText? (.text bytes)).mapError _ >>= _ = _
  rw [read]
  rfl

theorem item?_eq_ok {e : Option (String × Value)} : row.columns.item? = .ok e ↔
    ∃ (key : String) (v : Option Value), row.key = .ofString key ∧ row.columns.value? = .ok v ∧
      e = v.map (key, ·) := by
  have key (name : String) : row.columns.key.get "preference_id" (Database.Cell.asText false)
      = .ok name ↔ row.key = .ofString name := NamedCell.get_eq_ok.trans Stored.asText_eq_ok
  simp only [Columns.item?, Except.bind_eq_ok, key]
  simp [pure, Except.pure, eq_comm]

/-- A row can be listed if it is a text. -/
theorem isText_iff : row.IsText ↔ ∃ e, row.columns.item? = .ok e := by
  simp only [item?_eq_ok, value?_eq_ok]
  constructor
  · rintro ⟨⟨key, named⟩, value⟩
    cases stored : row.value with
    | none => exact ⟨_, key, _, named, ⟨none, rfl, rfl⟩, rfl⟩
    | some v =>
      obtain ⟨text, rfl⟩ := value v stored
      exact ⟨_, key, _, named, ⟨some text, rfl, rfl⟩, rfl⟩
  · rintro ⟨e, key, v, named, ⟨text, stored, -⟩, -⟩
    refine ⟨⟨key, named⟩, fun v held => ?_⟩
    rw [stored] at held
    obtain ⟨t, -, rfl⟩ := Option.map_eq_some_iff.1 held
    exact ⟨t, rfl⟩

/-- The key of a row that is a text. -/
def name (row : Row) : String := (row.key.cell.asText false).toOption.getD ""

/-- The value of a row that is a text. -/
def held (row : Row) : Option Value := row.columns.value?.toOption.join

/-- What a row that is a text adds to the list of its owner. -/
def entry (row : Row) : Option (String × Value) := row.held.map (row.name, ·)

theorem held_eq {v : Option Value} (h : row.columns.value? = .ok v) : row.held = v := by
  rw [held, h]
  rfl

theorem name_eq {key : String} (h : row.key = .ofString key) : row.name = key := by
  rw [name, h, Stored.asText_eq_ok.2 rfl]
  rfl

variable (h : row.IsText)
include h

theorem IsText.key_eq : row.key = .ofString row.name := by
  obtain ⟨key, named⟩ := h.key
  rw [name_eq named, named]

theorem IsText.item? : row.columns.item? = .ok row.entry := by
  obtain ⟨e, read⟩ := isText_iff.1 h
  obtain ⟨key, v, named, value, rfl⟩ := item?_eq_ok.1 read
  rw [read, entry, held_eq value, name_eq named]

theorem IsText.value? : row.columns.value? = .ok row.held := by
  obtain ⟨-, v, -, value, -⟩ := item?_eq_ok.1 h.item?
  rw [value, held_eq value]

end Row

/-! ## Pairs of tables -/

@[simp] theorem pair_setPair (t : Tables) (scope : Scope) (p : Pair) :
    (t.setPair scope p).pair scope = p := by
  cases scope <;> rfl

theorem pair_setPair_other (t : Tables) {scope other : Scope} (p : Pair) (h : other ≠ scope) :
    (t.setPair scope p).pair other = t.pair other := by
  cases scope <;> cases other <;> first | rfl | exact absurd rfl h

/-- No two rows of a table have the same owner and the same preference. -/
def Keyed (rows : List Row) : Prop := (rows.map fun row => (row.owner, row.key)).Nodup

def AllKeyed (t : Tables) : Prop :=
  ∀ scope rows, (t.pair scope).rows = some rows → Keyed rows

def ownRows (rows : List Row) (id : String) : List Row := rows.filter (·.owner = id)

theorem nodup_keys {rows : List Row} (h : Keyed rows) (id : String) :
    ((ownRows rows id).map Row.key).Nodup := by
  have owned : (ownRows rows id).map (fun row => (row.owner, row.key))
      = ((ownRows rows id).map Row.key).map (id, ·) := by
    rw [List.map_map]
    refine List.map_congr_left fun row hrow => ?_
    have : row.owner = id := by simpa using (List.mem_filter.1 hrow).2
    simp [this]
  have part : ((ownRows rows id).map fun row => (row.owner, row.key)).Nodup :=
    h.sublist (List.filter_sublist.map _)
  rw [owned] at part
  exact List.Pairwise.of_map (id, ·) (fun a b different same => different (by rw [same])) part

/-- The tables of a scope answer for this owner. -/
structure ReadableBy (t : Tables) (owner : Owner) (rows : List Row) : Prop where
  present : (t.pair owner.scope).rows = some rows
  keyed : Keyed rows
  text : ∀ row ∈ rows, row.owner = owner.id → row.IsText

def cell (t : Tables) (owner : Owner) (key : String) : Option Value :=
  (((t.pair owner.scope).rows.getD []).find? (·.isAt owner.id key)).bind Row.held

theorem selectRows_present {t : Tables} {scope : Scope} {rows : List Row}
    (h : (t.pair scope).rows = some rows) : outcome (selectRows scope) t = (.ok rows, t) := by
  unfold selectRows
  rw [outcome_bind_ok (outcome_get t), h]
  rfl

theorem selectRows_absent {t : Tables} {scope : Scope} (h : (t.pair scope).rows = none) :
    outcome (selectRows scope) t
      = (.error (.store (.database (.noTable (rowTable scope)))), t) := by
  unfold selectRows
  rw [outcome_bind_ok (outcome_get t), h]
  rfl

/-! ## Reading -/

theorem isAt_iff {row : Row} {owner key : String} :
    row.isAt owner key = true ↔ row.owner = owner ∧ row.key = .ofString key := by
  simp [Row.isAt]

theorem read_present {t : Tables} {owner : Owner} {rows : List Row}
    (h : (t.pair owner.scope).rows = some rows) (key : String) : outcome (read owner key) t
      = (match rows.find? (·.isAt owner.id key) with
          | some row => row.columns.value?.mapError Fault.store
          | none => .ok none, t) := by
  unfold read
  rw [outcome_bind_ok (selectRows_present h)]
  cases rows.find? (·.isAt owner.id key) <;> rfl

theorem list_present {t : Tables} {owner : Owner} {rows : List Row}
    (h : (t.pair owner.scope).rows = some rows) : outcome (list owner) t
      = ((Columns.listed ((ownRows rows owner.id).map Row.columns)).mapError Fault.store, t) := by
  unfold list
  rw [outcome_bind_ok (selectRows_present h)]
  rfl

theorem read_readable {t : Tables} {owner : Owner} {rows : List Row} (h : t.ReadableBy owner rows)
    (key : String) : outcome (read owner key) t = (.ok (t.cell owner key), t) := by
  rw [read_present h.present]
  unfold cell
  rw [h.present, Option.getD_some]
  cases found : rows.find? (·.isAt owner.id key) with
  | none => rfl
  | some row =>
    have here := List.find?_some found
    obtain ⟨own, -⟩ := isAt_iff.1 here
    have text := h.text row (List.mem_of_find?_eq_some found) own
    dsimp only
    rw [text.value?]
    rfl

theorem isText_of_own {t : Tables} {owner : Owner} {rows : List Row} (h : t.ReadableBy owner rows) :
    ∀ row ∈ ownRows rows owner.id, row.IsText := by
  intro row own
  obtain ⟨member, same⟩ := List.mem_filter.1 own
  exact h.text row member (of_decide_eq_true same)

theorem nodup_names {t : Tables} {owner : Owner} {rows : List Row} (h : t.ReadableBy owner rows) :
    ((ownRows rows owner.id).map Row.name).Nodup := by
  have keys : (ownRows rows owner.id).map Row.key
      = ((ownRows rows owner.id).map Row.name).map .ofString := by
    rw [List.map_map]
    exact List.map_congr_left fun row own => (isText_of_own h row own).key_eq
  exact List.Nodup.of_map Stored.ofString (keys ▸ nodup_keys h.keyed owner.id)

theorem keys_entries_sublist (rows : List Row) :
    ((rows.filterMap Row.entry).map Prod.fst).Sublist (rows.map Row.name) := by
  induction rows with
  | nil => exact .slnil
  | cons row rows ih =>
    cases held : row.held with
    | none =>
      rw [List.filterMap_cons_none (by rw [Row.entry, held]; rfl)]
      exact ih.cons _
    | some v =>
      rw [List.filterMap_cons_some (b := (row.name, v)) (by rw [Row.entry, held]; rfl)]
      exact ih.cons_cons _

theorem list_readable {t : Tables} {owner : Owner} {rows : List Row} (h : t.ReadableBy owner rows) :
    outcome (list owner) t = (.ok ((ownRows rows owner.id).filterMap Row.entry), t) := by
  have entries := Columns.listed_of_entries fun row own => (isText_of_own h row own).item?
  have distinct := (nodup_names h).sublist (keys_entries_sublist _)
  rw [list_present h.present, entries, Columns.foldl_insert_of_nodup (by simpa using distinct)]
  rfl

theorem lookup_entries {t : Tables} {owner : Owner} {rows : List Row} (h : t.ReadableBy owner rows)
    (key : String) :
    ((ownRows rows owner.id).filterMap Row.entry).lookup key = t.cell owner key := by
  have found : (ownRows rows owner.id).find? (fun row => row.name = key)
      = (ownRows rows owner.id).find? (fun row => row.key = .ofString key) := by
    refine List.find?_congr fun row own => ?_
    rw [(isText_of_own h row own).key_eq]
    simp [Stored.ofString_inj]
  unfold Row.entry
  rw [lookup_filterMap Row.name Row.held _ (nodup_names h), found]
  unfold ownRows cell
  rw [h.present, Option.getD_some, List.find?_filter]
  simp [Row.isAt]

theorem reads {t : Tables} {owner : Owner} {rows : List Row} (h : t.ReadableBy owner rows) :
    Reads t owner (t.cell owner) where
  read := read_readable h
  list := ⟨_, list_readable h, lookup_entries h⟩

/-- Tables that do not answer for an owner refuse to list its values. -/
theorem list_unreadable {t : Tables} {owner : Owner} (keyed : t.AllKeyed)
    (h : ∀ rows, ¬ t.ReadableBy owner rows) :
    ∃ fault, outcome (list owner) t = (.error (.store fault), t) := by
  cases present : (t.pair owner.scope).rows with
  | none => exact ⟨_, outcome_bind_error (selectRows_absent present)⟩
  | some rows =>
    obtain ⟨row, member, own, bytes⟩ : ∃ row ∈ rows, row.owner = owner.id ∧ ¬ row.IsText := by
      refine Classical.byContradiction fun none => h rows ⟨present, keyed _ rows present, ?_⟩
      intro row member own
      exact Classical.byContradiction fun bytes => none ⟨row, member, own, bytes⟩
    have listed : row.columns ∈ (ownRows rows owner.id).map Row.columns :=
      List.mem_map_of_mem (List.mem_filter.2 ⟨member, by simpa using own⟩)
    obtain ⟨fault, failed⟩ := Columns.exists_fault listed
      fun e read => bytes (Row.isText_iff.2 ⟨e, read⟩)
    refine ⟨fault, ?_⟩
    rw [list_present present, failed]
    rfl

/-! ## Placing a row -/

section Placing

variable (owner key : String) (value : Option Stored)

theorem find?_placed (rows : List Row) (o k : String) :
    (placed owner key value rows).find? (·.isAt o k)
      = if o = owner ∧ k = key then some ⟨owner, .ofString key, value⟩
        else rows.find? (·.isAt o k) := by
  have new : Row.isAt ⟨owner, .ofString key, value⟩ o k = decide (o = owner ∧ k = key) := by
    simp [Row.isAt, Stored.ofString_inj, eq_comm]
  induction rows with
  | nil =>
    rw [placed, List.find?_cons, new]
    by_cases here : o = owner ∧ k = key <;> simp [here]
  | cons row rows ih =>
    unfold placed
    split
    · rename_i same
      -- The new row and the one that it takes the place of are at one place.
      have old : row.isAt o k = decide (o = owner ∧ k = key) := by
        obtain ⟨rfl, key⟩ := isAt_iff.1 same
        rw [Row.isAt, key, ← new, Row.isAt]
      rw [List.find?_cons, List.find?_cons, new, old]
      by_cases here : o = owner ∧ k = key <;> simp [here]
    · rename_i other
      rw [List.find?_cons, List.find?_cons, ih]
      by_cases here : o = owner ∧ k = key
      · obtain ⟨rfl, rfl⟩ := here
        simp [other]
      · simp [here]

theorem mem_placed {rows : List Row} {row : Row} (member : row ∈ placed owner key value rows) :
    row = ⟨owner, .ofString key, value⟩ ∨ row ∈ rows := by
  induction rows with
  | nil => exact .inl (List.mem_singleton.1 member)
  | cons first rows ih =>
    unfold placed at member
    split at member
    · exact (List.mem_cons.1 member).imp_right (List.mem_cons_of_mem _)
    · rcases List.mem_cons.1 member with rfl | later
      · exact .inr List.mem_cons_self
      · exact (ih later).imp_right (List.mem_cons_of_mem _)

theorem keyed_placed {rows : List Row} (h : Keyed rows) : Keyed (placed owner key value rows) := by
  induction rows with
  | nil => exact List.nodup_singleton _
  | cons row rows ih =>
    obtain ⟨fresh, others⟩ := List.nodup_cons.1 h
    unfold placed
    split
    · rename_i same
      obtain ⟨rfl, key⟩ := isAt_iff.1 same
      exact List.nodup_cons.2 ⟨key ▸ fresh, others⟩
    · rename_i other
      refine List.nodup_cons.2 ⟨fun again => ?_, ih others⟩
      obtain ⟨row', member, place⟩ := List.mem_map.1 again
      rcases mem_placed owner key value member with rfl | later
      · obtain ⟨rfl, same⟩ := Prod.mk.injEq .. ▸ place
        exact other (isAt_iff.2 ⟨rfl, same.symm⟩)
      · exact fresh (List.mem_map.2 ⟨row', later, place⟩)

end Placing

/-! ## Writing -/

/-- The tables after a row has been put, together with its owner. -/
def withRow (t : Tables) (owner : Owner) (key : String) (value : Option Stored) (rows : List Row) :
    Tables :=
  let owners := (t.pair owner.scope).owners
  t.setPair owner.scope
    { owners := if owners.contains owner.id then owners else owner.id :: owners
      rows := some (placed owner.id key value rows) }

theorem setPair_setPair (t : Tables) (scope : Scope) (p q : Pair) :
    (t.setPair scope p).setPair scope q = t.setPair scope q := by
  cases scope <;> rfl

theorem setPair_pair (t : Tables) (scope : Scope) : t.setPair scope (t.pair scope) = t := by
  cases scope <;> rfl

theorem transaction_ok {α : Type} {action : Action Tables α} {t u : Tables} {x : α}
    (h : outcome action t = (.ok x, u)) : outcome (transaction action) t = (.ok x, u) := by
  change transaction action t = _
  change action t = _ at h
  rw [transaction, h]

theorem transaction_error {α : Type} {action : Action Tables α} {t u : Tables} {fault : Fault}
    (h : outcome action t = (.error fault, u)) :
    outcome (transaction action) t = (.error fault, t) := by
  change transaction action t = _
  change action t = _ at h
  rw [transaction, h]

theorem put_present {t : Tables} {owner : Owner} {rows : List Row}
    (h : (t.pair owner.scope).rows = some rows) (key : String) (value : Option Stored) :
    outcome (put owner key value) t = (.ok (), t.withRow owner key value rows) := by
  let owners := (t.pair owner.scope).owners
  let u := t.setPair owner.scope
    ⟨if owners.contains owner.id then owners else owner.id :: owners, some rows⟩
  have inserted : outcome (insertOwner owner) t = (.ok (), u) := by
    change (Except.ok (), if owners.contains owner.id then t
      else t.setPair owner.scope ⟨owner.id :: owners, (t.pair owner.scope).rows⟩) = _
    simp only [u]
    split
    · rw [← h, setPair_pair]
    · rw [h]
  have replaced : outcome (replaceRow owner key value) u
      = (.ok (), t.withRow owner key value rows) := by
    have held : (u.pair owner.scope).rows = some rows := by simp [u]
    unfold replaceRow
    rw [outcome_bind_ok (selectRows_present held)]
    simp [u, withRow, owners, setPair_setPair]
  -- Both statements succeed, so the transaction keeps what they did.
  have both : outcome (insertOwner owner >>= fun _ => replaceRow owner key value) t
      = (.ok (), t.withRow owner key value rows) := by
    rw [outcome_bind_ok inserted, replaced]
  exact transaction_ok both

theorem isText_ofString (owner key : String) (text : Option String) :
    Row.IsText ⟨owner, .ofString key, text.map .ofString⟩ where
  key := ⟨key, rfl⟩
  value v held := by
    obtain ⟨t, -, rfl⟩ := Option.map_eq_some_iff.1 held
    exact ⟨t, rfl⟩

theorem readableBy_withRow {t : Tables} {owner o : Owner} {rows others : List Row}
    (h : t.ReadableBy owner rows) (h' : t.ReadableBy o others) (key s : String) :
    ∃ rows', (t.withRow owner key (some (.ofString s)) rows).ReadableBy o rows' := by
  by_cases scope : o.scope = owner.scope
  · have same : others = rows := by
      have := h'.present
      rw [scope, h.present] at this
      exact (Option.some.inj this).symm
    refine ⟨_, ⟨by rw [withRow, scope, pair_setPair], keyed_placed _ _ _ h.keyed, ?_⟩⟩
    intro row member own
    rcases mem_placed _ _ _ member with rfl | member
    · exact isText_ofString owner.id key (some s)
    · exact h'.text row (same ▸ member) own
  · refine ⟨others, ⟨?_, h'.keyed, h'.text⟩⟩
    rw [withRow, pair_setPair_other _ _ scope, h'.present]

theorem cell_withRow {t : Tables} {owner : Owner} {rows : List Row}
    (h : (t.pair owner.scope).rows = some rows) (key s : String) (o : Owner) (k : String) :
    (t.withRow owner key (some (.ofString s)) rows).cell o k
      = if o = owner ∧ k = key then some (.decode s) else t.cell o k := by
  unfold cell
  by_cases scope : o.scope = owner.scope
  · have place : o.id = owner.id ∧ k = key ↔ o = owner ∧ k = key := by
      cases o
      cases owner
      simp_all
    rw [withRow, scope, pair_setPair, Option.getD_some, h, Option.getD_some, find?_placed]
    simp only [place]
    split
    · exact Row.held_eq (Row.value?_eq_ok.2 ⟨some s, rfl, rfl⟩)
    · rfl
  · rw [withRow, pair_setPair_other _ _ scope, if_neg (fun same => scope (by rw [same.1]))]

instance : CellStore Tables where
  Intact t := ∀ owner, ∃ rows, t.ReadableBy owner rows
  cell := cell
  returned v := .decode v.encode
  empty := Tables.empty
  intact_empty owner := ⟨[], by cases owner.scope <;> rfl, List.nodup_nil, nofun⟩
  cell_empty owner key := by
    unfold cell
    cases owner.scope <;> rfl
  reads h owner := reads (h owner).choose_spec
  upsert {t} h owner key v := by
    obtain ⟨rows, readable⟩ := h owner
    refine ⟨_, put_present readable.present key _, fun o => ?_, cell_withRow readable.present key _⟩
    obtain ⟨others, readable'⟩ := h o
    exact readableBy_withRow readable readable' key _
  sanitize_returned := Definition.sanitize_decode_encode

/-! ## Deleting -/

/-- The tables without an owner and its rows. -/
def withoutOwner (t : Tables) (owner : Owner) : Tables :=
  let p := t.pair owner.scope
  t.setPair owner.scope
    { owners := p.owners.filter (· ≠ owner.id)
      rows := p.rows.map fun rows => rows.filter (·.owner ≠ owner.id) }

theorem outcome_deleteOwner (t : Tables) (owner : Owner) : outcome (deleteOwner owner) t
    = (.ok ((t.pair owner.scope).owners.contains owner.id), t.withoutOwner owner) := rfl

theorem readableBy_withoutOwner {t : Tables} {o : Owner} {rows : List Row}
    (h : t.ReadableBy o rows) (owner : Owner) :
    ∃ rows', (t.withoutOwner owner).ReadableBy o rows' := by
  by_cases scope : o.scope = owner.scope
  · refine ⟨rows.filter (·.owner ≠ owner.id), ⟨?_, ?_, ?_⟩⟩
    · rw [withoutOwner, scope, pair_setPair, ← scope, h.present]
      rfl
    · exact h.keyed.sublist (List.filter_sublist.map _)
    · exact fun row hrow own => h.text row (List.mem_filter.1 hrow).1 own
  · refine ⟨rows, ⟨?_, h.keyed, h.text⟩⟩
    rw [withoutOwner, pair_setPair_other _ _ scope, h.present]

theorem intact_withoutOwner {t : Tables} (h : CellStore.Intact t) (owner : Owner) :
    CellStore.Intact (t.withoutOwner owner) := by
  intro o
  obtain ⟨rows, readable⟩ := h o
  exact readableBy_withoutOwner readable owner

theorem cell_withoutOwner (t : Tables) (owner o : Owner) (k : String) :
    (t.withoutOwner owner).cell o k = if o = owner then none else t.cell o k := by
  unfold cell
  by_cases scope : o.scope = owner.scope
  · rw [withoutOwner, scope, pair_setPair]
    cases (t.pair owner.scope).rows with
    | none => simp
    | some rows =>
      simp only [Option.map_some, Option.getD_some]
      by_cases same : o = owner
      · subst o
        rw [if_pos rfl, List.find?_eq_none.2]
        · rfl
        · intro row hrow here
          simp_all [Row.isAt]
      · have differ : o.id ≠ owner.id := fun id => same (by cases o; cases owner; simp_all)
        have apart : ∀ row : Row, row.isAt o.id k = true →
            decide (row.owner = owner.id) = false := by
          intro row here
          simpa [(isAt_iff.1 here).1] using differ
        have kept := find?_filter_apart apart rows
        simp only [decide_not, kept, if_neg same]
  · rw [withoutOwner, pair_setPair_other _ _ scope, if_neg (fun same => scope (by rw [same]))]

end Tables

end LayeredPreferences

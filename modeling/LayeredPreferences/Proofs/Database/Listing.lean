import LayeredPreferences.Database.Listing
import LayeredPreferences.Proofs.Store.Tables

set_option autoImplicit false

/-!
# Lists of preferences from a database

A database lists each key once, with the value of the last of its rows that has
one. It lists what the tables list that hold the rows which are found in it.
-/
namespace LayeredPreferences.Database

open LayeredPreferences.Action

variable {database : Database} {image : Image} {catalog : Catalog} {shape : Shape} {root : Nat}
  {owner : Owner} {values : List (String × Value)}

theorem Image.list_inv (h : image.list catalog shape root owner = .ok values) :
    ∃ rows, image.ownColumns catalog shape root owner = .ok rows ∧ Columns.listed rows = .ok values :=
  Except.bind_eq_ok.1 h

theorem nodup_list (h : list database owner = .ok values) : (values.map Prod.fst).Nodup := by
  have none : Except.ok [] = (.ok values : Except StoreFault _) → (values.map Prod.fst).Nodup := by
    rintro ⟨⟩
    exact .nil
  cases database with
  | unshared => cases h
  | new => exact none h
  | held image catalog =>
    unfold list at h
    dsimp only at h
    split at h
    · obtain ⟨rows, -, listed⟩ := Image.list_inv h
      exact Columns.nodup_listed listed
    · exact none h

/-- A key is listed with the value of the last row that has one for it. -/
theorem Image.mem_list (h : image.list catalog shape root owner = .ok values) :
    ∃ rows, image.ownColumns catalog shape root owner = .ok rows ∧
      ∀ entry, entry ∈ values ↔ Columns.LastEntry rows entry := by
  obtain ⟨rows, found, listed⟩ := Image.list_inv h
  exact ⟨rows, found, fun entry => Columns.mem_listed listed⟩

/-- The rows may as well be those of tables. -/
theorem Image.list_as_tables {t : Tables} {rows : List Tables.Row}
    (present : (t.pair owner.scope).rows = some rows)
    (found : image.ownColumns catalog shape root owner
      = .ok ((Tables.ownRows rows owner.id).map Tables.Row.columns)) :
    outcome (Tables.list owner) t
      = ((image.list catalog shape root owner).mapError Fault.store, t) := by
  rw [Tables.list_present present, Image.list, found]
  rfl

end LayeredPreferences.Database

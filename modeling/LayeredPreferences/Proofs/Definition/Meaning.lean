import LayeredPreferences.Definition.Entry
import Mathlib.Data.List.Basic

set_option autoImplicit false

/-!
# Entries of the same meaning

An entry stands for what its edits make of a draft. Scopes that are repeated make no difference to
that, nor does what the entry says about the half of the domain that it does not use.
-/
namespace LayeredPreferences

namespace Draft

/-- The scopes in the order in which they come first, behind those that are kept already. -/
def merge (kept scopes : List Scope) : List Scope :=
  scopes.foldl (fun kept scope => if kept.contains scope then kept else kept ++ [scope]) kept

theorem addScopes_merge (draft : Draft) (scopes : List Scope) :
    scopes.foldl addScope draft = { draft with scopes := merge draft.scopes scopes } := by
  induction scopes generalizing draft with
  | nil => rfl
  | cons scope scopes ih =>
    rw [List.foldl_cons, ih]
    unfold addScope merge
    rw [List.foldl_cons]
    split <;> rfl

theorem merge_append (kept front back : List Scope) :
    merge kept (front ++ back) = merge (merge kept front) back := List.foldl_append

/-- A scope that is kept already is not added again. -/
theorem merge_eq (kept scopes : List Scope) :
    merge kept scopes = kept ++ (scopes.removeAll kept).eraseDups := by
  induction scopes generalizing kept with
  | nil => simp [merge, List.removeAll]
  | cons scope scopes ih =>
    change merge (if kept.contains scope then kept else kept ++ [scope]) scopes = _
    by_cases old : scope ∈ kept
    · have passed : (scope :: scopes).removeAll kept = scopes.removeAll kept := by
        simp [List.removeAll, old]
      rw [if_pos (by simpa using old), ih, passed]
    · have first : (scope :: scopes).removeAll kept = scope :: scopes.removeAll kept := by
        simp [List.removeAll, old]
      have others : scopes.removeAll (kept ++ [scope]) =
          (scopes.removeAll kept).filter fun s => !decide (s = scope) := by
        simp [List.removeAll, List.filter_filter, Bool.and_comm]
      rw [if_neg (by simpa using old), ih, first, others, List.eraseDups_cons, List.append_assoc]
      rfl

theorem mem_merge {kept scopes : List Scope} {scope : Scope} (h : scope ∈ scopes) :
    scope ∈ merge kept scopes := by
  rw [merge_eq, List.mem_append, List.mem_eraseDups]
  by_cases old : scope ∈ kept
  · exact .inl old
  · exact .inr (by simp [List.removeAll, h, old])

theorem nodup_merge {kept : List Scope} (h : kept.Nodup) (scopes : List Scope) :
    (merge kept scopes).Nodup := by
  induction scopes generalizing kept with
  | nil => exact h
  | cons scope scopes ih =>
    unfold merge at ih ⊢
    rw [List.foldl_cons]
    split
    · exact ih h
    · rename_i fresh
      have absent : scope ∉ kept := by simpa using fresh
      refine ih ((List.perm_append_singleton scope kept).nodup_iff.2 ?_)
      exact List.nodup_cons.2 ⟨absent, h⟩

/-- Scopes that are all different are added as they are. -/
theorem merge_distinct {kept scopes : List Scope} (distinct : (kept ++ scopes).Nodup) :
    merge kept scopes = kept ++ scopes := by
  induction scopes generalizing kept with
  | nil => exact (List.append_nil kept).symm
  | cons scope scopes ih =>
    have fresh : ¬ kept.contains scope := by
      intro old
      exact (List.nodup_append.1 distinct).2.2 scope (by simpa using old) scope (by simp) rfl
    rw [List.append_cons] at distinct ⊢
    rw [← ih distinct]
    unfold merge
    rw [List.foldl_cons, if_neg fresh]

/-- A scope that came before is passed over. -/
theorem merge_repeated (front back : List Scope) {scope : Scope} (h : scope ∈ front) :
    merge [] (front ++ scope :: back) = merge [] (front ++ back) := by
  have old : (merge [] front).contains scope := by simpa using mem_merge h
  unfold merge at old ⊢
  rw [List.foldl_append, List.foldl_append, List.foldl_cons, if_pos old]

theorem finish_range {draft : Draft} (h : draft.discrete = true) (range : Option ValueRange) :
    { draft with range := range }.finish = draft.finish := by
  simp [finish, domain, h]

theorem finish_allowed {draft : Draft} (h : draft.discrete = false) (allowed : List Value) :
    { draft with allowed := allowed }.finish = draft.finish := by
  simp [finish, domain, h]

end Draft

namespace Entry

/-- The draft of an entry, before it is finished. -/
theorem applyAll_edits (e : Entry) : (Draft.ofKey e.key).applyAll e.edits =
    { key := e.key
      name := e.name
      description := e.description
      valueType := e.valueType
      defaultValue := e.defaultValue
      discrete := e.discrete
      allowed := if e.discrete then e.allowed.getD [] else []
      range := e.range
      scopes := Draft.merge [] e.scopes } := by
  obtain ⟨key, name, description, valueType, defaultValue, discrete, allowed, range, scopes⟩ := e
  cases name <;> cases valueType <;> cases defaultValue <;> cases discrete <;> cases range <;>
    simp [edits, Draft.applyAll, Draft.apply, Draft.ofKey, Draft.addScopes_merge]

/-- The entries differ at most in scopes that are repeated and in the half of the domain that is not
used. -/
structure Alike (e e' : Entry) : Prop where
  key : e.key = e'.key
  name : e.name = e'.name
  description : e.description = e'.description
  valueType : e.valueType = e'.valueType
  defaultValue : e.defaultValue = e'.defaultValue
  discrete : e.discrete = e'.discrete
  allowed : e.discrete = true → e.allowed = e'.allowed
  range : e.discrete = false → e.range = e'.range
  scopes : Draft.merge [] e.scopes = Draft.merge [] e'.scopes

namespace Alike

theorem refl (e : Entry) : Alike e e := by
  constructor <;> intros <;> rfl

theorem define {e e' : Entry} (h : Alike e e') : e.define = e'.define := by
  unfold Entry.define
  rw [applyAll_edits, applyAll_edits, h.key, h.name, h.description, h.valueType, h.defaultValue,
    h.scopes]
  cases discrete : e.discrete with
  | false =>
    rw [← h.discrete, discrete, h.range discrete]
    rfl
  | true =>
    rw [← h.discrete, discrete, h.allowed discrete]
    exact (Draft.finish_range rfl _).symm

end Alike

end Entry

end LayeredPreferences

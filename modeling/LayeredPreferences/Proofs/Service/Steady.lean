import LayeredPreferences.Proofs.Service.Access
import LayeredPreferences.Proofs.Store.Contacts

set_option autoImplicit false

/-!
# What the service leaves as it was

Reading and listing leave a store in whatever state it is, also one whose accesses
fail; a write that is not answered with a value leaves it too.
-/
namespace LayeredPreferences

open LayeredPreferences.Action

/-- Reading and listing do not change such a store, and neither does a write that fails. -/
class Steady (σ : Type) [Backend σ] : Prop where
  read : ∀ (owner : Owner) (key : String), Leaves (Backend.read (σ := σ) owner key)
  list : ∀ owner : Owner, Leaves (Backend.list (σ := σ) owner)
  upsert : ∀ (owner : Owner) (key : String) (v : Value) {s : σ} {fault : Fault},
    (outcome (Backend.upsert owner key v) s).1 = .error fault →
      (outcome (Backend.upsert owner key v) s).2 = s

namespace Memory

theorem pass_leaves (call : Call) : Leaves (pass call) := by
  intro m
  cases failing : m.failing.lookup call with
  | some reason => rw [pass_refused failing]
  | none => rw [pass_ok failing]

instance : Steady Memory where
  read _ _ := (pass_leaves _).bind fun _ => fun _ => rfl
  list _ := (pass_leaves _).bind fun _ => fun _ => rfl
  upsert owner key v {m fault} h := by
    cases failing : m.failing.lookup ⟨.upsert, owner.scope⟩ with
    | some reason =>
      have refused : outcome (Backend.upsert owner key v) m = (.error _, m) :=
        outcome_bind_error (pass_refused failing)
      rw [refused]
    | none =>
      rw [upsert_ok failing] at h
      cases h

end Memory

namespace Tables

theorem selectRows_leaves (scope : Scope) : Leaves (selectRows scope) := by
  intro t
  cases rows : (t.pair scope).rows with
  | none => rw [selectRows_absent rows]
  | some _ => rw [selectRows_present rows]

theorem read_leaves (owner : Owner) (key : String) : Leaves (read owner key) := by
  refine (selectRows_leaves owner.scope).bind fun rows => ?_
  cases rows.find? (·.isAt owner.id key) with
  | none => exact leaves_pure none
  | some row => exact leaves_lift (row.columns.value?.mapError Fault.store)

theorem list_leaves (owner : Owner) : Leaves (list owner) := by
  refine (selectRows_leaves owner.scope).bind fun rows => ?_
  exact leaves_lift ((Columns.listed _).mapError Fault.store)

/-- Where the rows are missing, the owner that was inserted is taken back. -/
theorem put_error_leaves {t : Tables} {owner : Owner} {key : String}
    {value : Option Stored} {fault : Fault} (h : (outcome (put owner key value) t).1 = .error fault) :
    (outcome (put owner key value) t).2 = t := by
  cases rows : (t.pair owner.scope).rows with
  | none => rw [put_absent rows]
  | some _ =>
    rw [put_present rows] at h
    cases h

instance : Steady Tables where
  read := read_leaves
  list := list_leaves
  upsert _ _ _ _ _ := put_error_leaves

end Tables

namespace Service

variable {σ : Type} [Backend σ] [Steady σ] (r : Registry)

theorem readAt_steady (org user key : String) (scope : Scope) :
    Leaves (readAt (σ := σ) r org user key scope) := by
  cases scope with
  | org =>
    refine (leaves_lift _).bind fun d => ?_
    refine (leaves_lift _).bind fun _ => ?_
    exact (Steady.read _ key).bind fun _ => leaves_pure _
  | user =>
    refine (leaves_lift _).bind fun d => ?_
    refine (leaves_lift _).bind fun _ => ?_
    have last (inherited : Option Value) : Leaves (σ := σ) (ε := Fault)
        (do return ⟨d.key, d.effective .user inherited (← Backend.read ⟨.user, user⟩ key)⟩ :
          Action σ Effective) :=
      (Steady.read _ key).bind fun _ => leaves_pure _
    dsimp only
    split
    · exact (Steady.read _ key).bind last
    · exact (leaves_pure none).bind last

theorem listAt_steady (org user : String) (scope : Scope) :
    Leaves (listAt (σ := σ) r org user scope) := by
  cases scope with
  | org => exact (Steady.list _).bind fun _ => leaves_pure _
  | user =>
    exact (Steady.list _).bind fun _ => (Steady.list _).bind fun _ => leaves_pure _

theorem write_error_leaves {owner : Owner} {key : String} {v : Value} {s : σ} {fault : Fault}
    (h : (outcome (write r owner key v) s).1 = .error fault) :
    (outcome (write r owner key v) s).2 = s := by
  rcases r.refuses_or_accepts owner.scope key v with ⟨_, refused⟩ | ⟨w, accepted⟩
  · rw [write_refused refused]
  · rw [write_accepted accepted] at h ⊢
    rcases stored : outcome (Backend.upsert owner key w) s with ⟨other | _, t⟩
    · have left := Steady.upsert owner key w (congrArg Prod.fst stored)
      rwa [stored] at left
    · rw [stored] at h
      cases h

end Service

end LayeredPreferences

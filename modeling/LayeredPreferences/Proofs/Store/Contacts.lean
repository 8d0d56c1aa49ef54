import LayeredPreferences.Proofs.Store.Memory
import LayeredPreferences.Proofs.Store.Tables

set_option autoImplicit false

/-!
# Contacts with a store

A recorded store keeps every access to it, also one that fails. The store itself
is left as it would be without the record.
-/
namespace LayeredPreferences

open LayeredPreferences.Action

inductive Contact where
  | read (owner : Owner) (key : String)
  | list (owner : Owner)
  | upsert (owner : Owner) (key : String) (v : Value)
deriving DecidableEq

structure Recorded (σ : Type) where
  store : σ
  contacts : List Contact

namespace Recorded

variable {σ α : Type}

def record (contact : Contact) (access : Action σ α) : Action (Recorded σ) α := fun s =>
  ((outcome access s.store).1, ⟨(outcome access s.store).2, s.contacts ++ [contact]⟩)

instance [Backend σ] : Backend (Recorded σ) where
  read owner key := record (.read owner key) (Backend.read owner key)
  list owner := record (.list owner) (Backend.list owner)
  upsert owner key v := record (.upsert owner key v) (Backend.upsert owner key v)

theorem outcome_upsert [Backend σ] (owner : Owner) (key : String) (v : Value) (s : Recorded σ) :
    outcome (Backend.upsert owner key v) s
      = ((outcome (Backend.upsert owner key v) s.store).1,
        ⟨(outcome (Backend.upsert owner key v) s.store).2,
          s.contacts ++ [.upsert owner key v]⟩) := rfl

/-- The accesses that are made from here on, in their order. -/
def contactsFrom (s : σ) (action : Action (Recorded σ) α) : List Contact :=
  (outcome action ⟨s, []⟩).2.contacts

end Recorded

def Fault.IsStore : Fault → Prop
  | .store _ => True
  | _ => False

/-- What goes wrong in such a store is blamed on the store. -/
class BlamesStore (σ : Type) [Backend σ] : Prop where
  read : ∀ {s : σ} {owner : Owner} {key : String} {fault : Fault},
    (outcome (Backend.read owner key) s).1 = .error fault → fault.IsStore
  upsert : ∀ {s : σ} {owner : Owner} {key : String} {v : Value} {fault : Fault},
    (outcome (Backend.upsert owner key v) s).1 = .error fault → fault.IsStore

namespace Memory

theorem blames {α : Type} {m : Memory} {call : Call} {next : Unit → Action Memory α} {fault : Fault}
    (succeeds : ∀ m, ∃ x, (outcome (next ()) m).1 = .ok x)
    (h : (outcome (pass call >>= next) m).1 = .error fault) : fault.IsStore := by
  cases failing : m.failing.lookup call with
  | some reason =>
    rw [outcome_bind_error (pass_refused failing)] at h
    cases h
    trivial
  | none =>
    obtain ⟨x, ok⟩ := succeeds m
    rw [outcome_bind_ok (pass_ok failing), ok] at h
    cases h

instance : BlamesStore Memory where
  read h := blames (fun _ => ⟨_, rfl⟩) h
  upsert h := blames (fun _ => ⟨_, rfl⟩) h

end Memory

namespace Tables

theorem read_blames {t : Tables} {owner : Owner} {key : String} {fault : Fault}
    (h : (outcome (read owner key) t).1 = .error fault) : fault.IsStore := by
  cases rows : (t.pair owner.scope).rows with
  | none =>
    rw [read, outcome_bind_error (selectRows_absent rows)] at h
    cases h
    trivial
  | some rows' =>
    rw [read_present rows] at h
    dsimp only at h
    split at h
    · rename_i row _
      cases read : row.columns.value? with
      | error fault =>
        rw [read] at h
        cases h
        trivial
      | ok v =>
        rw [read] at h
        cases h
    · cases h

theorem put_absent {t : Tables} {owner : Owner} (h : (t.pair owner.scope).rows = none)
    (key : String) (value : Option Stored) : outcome (put owner key value) t
      = (.error (.store (.database (.noTable (rowTable owner.scope)))), t) := by
  obtain ⟨u, inserted, absent⟩ : ∃ u, outcome (insertOwner owner) t = (.ok (), u)
      ∧ (u.pair owner.scope).rows = none := by
    refine ⟨_, rfl, ?_⟩
    dsimp only
    split
    · exact h
    · rw [pair_setPair, h]
  have failed : outcome (insertOwner owner >>= fun _ => replaceRow owner key value) t
      = (.error (.store (.database (.noTable (rowTable owner.scope)))), u) := by
    rw [outcome_bind_ok inserted]
    exact outcome_bind_error (selectRows_absent absent)
  exact transaction_error failed

instance : BlamesStore Tables where
  read := read_blames
  upsert {t owner key v fault} h := by
    change (outcome (put owner key (some (.ofString v.encode))) t).1 = _ at h
    cases rows : (t.pair owner.scope).rows with
    | none =>
      rw [put_absent rows] at h
      cases h
      trivial
    | some rows' =>
      rw [put_present rows] at h
      cases h

end Tables

end LayeredPreferences

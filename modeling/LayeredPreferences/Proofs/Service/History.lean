import LayeredPreferences.Proofs.Service.Intact
import LayeredPreferences.Proofs.Store.Tables

set_option autoImplicit false

/-!
# Histories

What tables answer after any number of operations can be told from what the
operations were answered: the last acknowledged value counts, unless its owner was
deleted since.
-/
namespace LayeredPreferences

inductive Operation where
  | read (scope : Scope) (org user key : String)
  | list (scope : Scope) (org user : String)
  | write (owner : Owner) (key : String) (v : Value)
  | delete (owner : Owner)

inductive Answer where
  | value (answer : Except Fault Effective)
  | views (answer : Except Fault (List View))
  | deleted (answer : Except Fault Bool)

/-- An operation with its answer. -/
structure Event where
  operation : Operation
  answer : Answer

namespace Event

/-- The value of a key of an owner after the event. -/
def after (owner : Owner) (key : String) (before : Option Value) : Event → Option Value
  | ⟨.write o k _, .value (.ok e)⟩ => if owner = o ∧ key = k then some e.value else before
  | ⟨.delete o, _⟩ => if owner = o then none else before
  | _ => before

/-- The value acknowledged last, since the owner was deleted last. -/
def acknowledged (owner : Owner) (key : String) (events : List Event) : Option Value :=
  events.foldl (after owner key) none

end Event

namespace Operation

open LayeredPreferences.Action CellStore

def perform (r : Registry) (operation : Operation) (t : Tables) : Answer × Tables :=
  match operation with
  | .read scope org user key => (outcome (Service.readAt r org user key scope) t).map .value id
  | .list scope org user => (outcome (Service.listAt r org user scope) t).map .views id
  | .write owner key v => (outcome (Service.write r owner key v) t).map .value id
  | .delete owner => (outcome (Tables.deleteOwner owner) t).map .deleted id

/-- All operations one after the other, with their answers. -/
def run (r : Registry) : List Operation → Tables → List Event × Tables
  | [], t => ([], t)
  | operation :: operations, t =>
    let (answer, next) := operation.perform r t
    let (events, last) := run r operations next
    (⟨operation, answer⟩ :: events, last)

variable {r : Registry} {given : Owner → String → Option Value} {t : Tables}

theorem keeps_delete (h : Keeps r given t) (owner : Owner) :
    Keeps r (fun o k => if o = owner then none else given o k) (t.withoutOwner owner) where
  intact := Tables.intact_withoutOwner h.intact owner
  cells o k := by
    refine (t.cell_withoutOwner owner o k).trans ?_
    split
    · rfl
    · exact h.cells o k
  accepted {o k v d} hv found := by
    split at hv
    · cases hv
    · exact h.accepted hv found

/-- One operation keeps the store in step with the answers. -/
theorem keeps_perform (h : Keeps r given t) (operation : Operation) :
    Keeps r (fun o k => Event.after o k (given o k) ⟨operation, (operation.perform r t).1⟩)
      (operation.perform r t).2 := by
  cases operation with
  | read scope org user key =>
    have left : (perform r (.read scope org user key) t).2 = t := Service.readAt_leaves h.intact
    rw [left]
    exact h
  | list scope org user =>
    have left : (perform r (.list scope org user) t).2 = t := by
      change (outcome (Service.listAt r org user scope) t).2 = t
      rw [Service.listAt_intact h.intact]
    rw [left]
    exact h
  | write owner key v =>
    rcases h.write owner key v with ⟨fault, refused⟩ | ⟨w, u, stored, kept⟩
    · have answer : perform r (.write owner key v) t = (.value (.error fault), t) := by
        rw [perform, refused]
        rfl
      rw [answer]
      exact h
    · have answer : perform r (.write owner key v) t = (.value (.ok ⟨key, w⟩), u) := by
        rw [perform, stored]
        rfl
      rw [answer]
      exact kept
  | delete owner =>
    rw [perform, Tables.outcome_deleteOwner]
    exact keeps_delete h owner

theorem keeps_run (operations : List Operation) (h : Keeps r given t) :
    Keeps r (fun o k => (run r operations t).1.foldl (Event.after o k) (given o k))
      (run r operations t).2 := by
  induction operations generalizing given t with
  | nil => exact h
  | cons operation operations ih => exact ih (keeps_perform h operation)

/-- Whatever was done before, reading answers the value acknowledged last, for users with the
    organization's in its place where that counts, or else the default. -/
theorem reads_last_acknowledged {ds : List Definition} {r : Registry}
    (built : ∀ d ∈ ds, d.Built) (loaded : Registry.load ds = .ok r) (operations : List Operation)
    {d : Definition} (member : d ∈ ds) (float : d.valueType ≠ .float) (org user : String) :
    let ended := run r operations Tables.empty
    let given owner := Event.acknowledged owner d.key ended.1
    (.org ∈ d.scopes → outcome (Service.readOrg r org d.key) ended.2
      = (.ok ⟨d.key, (given ⟨.org, org⟩).getD d.defaultValue⟩, ended.2)) ∧
    (.user ∈ d.scopes → outcome (Service.readUser r org user d.key) ended.2
      = (.ok ⟨d.key, (given ⟨.user, user⟩ <|>
          if .org ∈ d.scopes then given ⟨.org, org⟩ else none).getD d.defaultValue⟩, ended.2)) := by
  intro ended given
  obtain ⟨rfl, distinct⟩ := Registry.load_ok loaded
  have found : r.find? d.key = some d := Registry.find?_of_mem distinct member
  have kept := keeps_run operations (Keeps.empty r)
  have answer {scope : Scope} (on : scope ∈ d.scopes) :=
    kept.readAt (built d member) float found on org user
  refine ⟨fun on => answer on, fun on => (answer on).trans ?_⟩
  simp only [Definition.choose, Definition.select, Definition.enabledAt_iff]
  rfl

/-- A switch for organizations and users. -/
def digest : Definition where
  key := "DIGEST"
  name := "DIGEST"
  description := ""
  valueType := .boolean
  defaultValue := .boolean false
  domain := .discrete []
  scopes := [.org, .user]

/-- The user's value is gone with the user, and that of the organization counts again. -/
theorem reads_last_acknowledged_digest :
    let ended := run ⟨[digest]⟩
      [.write ⟨.org, "acme"⟩ "DIGEST" (.boolean true),
        .write ⟨.user, "ada"⟩ "DIGEST" (.boolean false),
        .write ⟨.user, "ada"⟩ "DIGEST" (.string "off"),
        .delete ⟨.user, "ada"⟩] Tables.empty
    outcome (Service.readUser ⟨[digest]⟩ "acme" "ada" "DIGEST") ended.2
      = (.ok ⟨"DIGEST", .boolean true⟩, ended.2) := by
  have built : digest.Built :=
    ⟨(Draft.ofKey "DIGEST").applyAll [.defaultValue (.boolean false), .discrete true,
      .scopes [.org, .user]], rfl⟩
  have loaded : Registry.load [digest] = .ok ⟨[digest]⟩ := rfl
  obtain ⟨-, ofUser⟩ := reads_last_acknowledged (by simpa using built) loaded _
    (List.mem_singleton.2 rfl) (by decide) "acme" "ada"
  exact ofUser (by decide)

end Operation

end LayeredPreferences

import LayeredPreferences.Proofs.Service.Steady
import LayeredPreferences.Proofs.Store.Frame

set_option autoImplicit false

/-!
# Rows and their owners

Whatever is done to tables, no row stands twice at one key of an owner, and each row
has its owner beside it. An owner comes with its first row and goes only when it is
deleted, and then all its rows go with it.
-/
namespace LayeredPreferences.Tables

open LayeredPreferences.Action

/-! ## Sound tables -/

/-- Each owner is there once, and each row is there once, with a key that is a text and a value that
    is a text or nothing. The owner of a row is among the owners. -/
structure Pair.Sound (p : Pair) : Prop where
  owners : p.owners.Nodup
  keyed : ∀ rows, p.rows = some rows → Keyed rows
  owned : ∀ rows, p.rows = some rows → ∀ row ∈ rows, row.owner ∈ p.owners
  text : ∀ rows, p.rows = some rows → ∀ row ∈ rows, row.IsText

def Sound (t : Tables) : Prop := ∀ scope, (t.pair scope).Sound

theorem sound_empty : Tables.empty.Sound := by
  intro scope
  cases scope <;> exact
    { owners := List.nodup_nil
      keyed := by rintro _ ⟨⟩; exact List.nodup_nil
      owned := by rintro _ ⟨⟩; exact nofun
      text := by rintro _ ⟨⟩; exact nofun }

theorem Pair.Sound.filed {p : Pair} (h : p.Sound) {rows : List Row} (present : p.rows = some rows)
    (id key s : String) : (p.filed id key (some (.ofString s))).Sound where
  owners := h.owners.insert
  keyed := by
    rintro _ ⟨⟩
    rw [present, Option.getD_some]
    exact keyed_placed id key _ (h.keyed rows present)
  owned := by
    rintro _ ⟨⟩ row member
    rw [present, Option.getD_some] at member
    rcases mem_placed id key _ member with rfl | member
    · exact List.mem_insert_self
    · exact List.mem_insert_of_mem (h.owned rows present row member)
  text := by
    rintro _ ⟨⟩ row member
    rw [present, Option.getD_some] at member
    rcases mem_placed id key _ member with rfl | member
    · exact isText_ofString id key (some s)
    · exact h.text rows present row member

theorem Pair.Sound.without {p : Pair} (h : p.Sound) (id : String) : (p.without id).Sound := by
  have kept {rows : List Row} (left : (p.without id).rows = some rows) :
      ∃ before, p.rows = some before ∧ rows = before.filter (·.owner ≠ id) := by
    obtain ⟨before, present, rfl⟩ := Option.map_eq_some_iff.1 left
    exact ⟨before, present, rfl⟩
  refine ⟨h.owners.filter _, fun rows left => ?_, fun rows left row member => ?_,
    fun rows left row member => ?_⟩
  all_goals obtain ⟨before, present, rfl⟩ := kept left
  · exact (h.keyed before present).sublist (List.filter_sublist.map _)
  · obtain ⟨member, other⟩ := List.mem_filter.1 member
    exact List.mem_filter.2 ⟨h.owned before present row member, other⟩
  · exact h.text before present row (List.mem_filter.1 member).1

theorem Sound.setPair {t : Tables} (h : t.Sound) {scope : Scope} {p : Pair} (new : p.Sound) :
    (t.setPair scope p).Sound := by
  intro other
  rw [pair_setPair_eq]
  split
  · exact new
  · exact h other

/-! ## Steps -/

/-- What is asked of the tables of a database, or befalls them from outside. -/
inductive Step where
  | upsert (owner : Owner) (key : String) (v : Value)
  | read (owner : Owner) (key : String)
  | list (owner : Owner)
  | delete (owner : Owner)
  /-- The rows of a scope are lost with their table. -/
  | drop (scope : Scope)
  | reopen

/-- The tables after a step, and whether it succeeded. -/
def Step.perform (step : Step) (t : Tables) : Except Fault Unit × Tables :=
  match step with
  | .upsert owner key v => outcome (Backend.upsert owner key v) t
  | .read owner key => (outcome (Tables.read owner key) t).map (·.map fun _ => ()) id
  | .list owner => (outcome (Tables.list owner) t).map (·.map fun _ => ()) id
  | .delete owner => (outcome (deleteOwner owner) t).map (·.map fun _ => ()) id
  | .drop scope => (.ok (), t.dropRows scope)
  | .reopen => (.ok (), t.reopen)

theorem upsert_absent {t : Tables} {owner : Owner} (absent : (t.pair owner.scope).rows = none)
    (key : String) (v : Value) : outcome (Backend.upsert owner key v) t
      = (.error (.store (.database (.noTable (rowTable owner.scope)))), t) :=
  put_absent absent key _

theorem pair_reopen (t : Tables) (scope : Scope) : t.reopen.pair scope
    = ⟨(t.pair scope).owners, some ((t.pair scope).rows.getD [])⟩ := by
  cases scope <;> rfl

theorem Sound.perform {t : Tables} (h : t.Sound) (step : Step) : (step.perform t).2.Sound := by
  cases step with
  | upsert owner key v =>
    rw [Step.perform]
    cases rows : (t.pair owner.scope).rows with
    | none =>
      rw [upsert_absent rows]
      exact h
    | some _ =>
      rw [upsert_filed rows]
      exact h.setPair ((h owner.scope).filed rows _ _ _)
  | read owner key =>
    have left : (Step.perform (.read owner key) t).2 = t := read_leaves owner key t
    rwa [left]
  | list owner =>
    have left : (Step.perform (.list owner) t).2 = t := list_leaves owner t
    rwa [left]
  | delete owner => exact h.setPair ((h owner.scope).without owner.id)
  | drop scope =>
    refine h.setPair ⟨(h scope).owners, ?_, ?_, ?_⟩
    all_goals rintro _ ⟨⟩
  | reopen =>
    intro scope
    change (t.reopen.pair scope).Sound
    rw [pair_reopen]
    cases rows : (t.pair scope).rows with
    | none =>
      refine ⟨(h scope).owners, ?_, ?_, ?_⟩
      all_goals rintro _ ⟨⟩
      · exact List.nodup_nil
      · exact nofun
      · exact nofun
    | some before =>
      refine ⟨(h scope).owners, ?_, ?_, ?_⟩
      all_goals rintro _ ⟨⟩
      · exact (h scope).keyed _ rows
      · exact (h scope).owned _ rows
      · exact (h scope).text _ rows

theorem owner_eq_iff {a b : Owner} : a = b ↔ a.scope = b.scope ∧ a.id = b.id := by
  cases a
  cases b
  simp

/-- An owner comes with a row that is written, and goes when it is deleted. -/
theorem mem_owners_perform (step : Step) (t : Tables) (owner : Owner) :
    owner.id ∈ ((step.perform t).2.pair owner.scope).owners ↔
      (∃ key v, step = .upsert owner key v ∧ (step.perform t).1 = .ok ()) ∨
      (owner.id ∈ (t.pair owner.scope).owners ∧ step ≠ .delete owner) := by
  cases step with
  | upsert o key v =>
    rw [Step.perform]
    cases rows : (t.pair o.scope).rows with
    | none =>
      rw [upsert_absent rows]
      simp
    | some _ =>
      rw [upsert_filed rows, filed, pair_setPair_eq]
      by_cases same : owner = o
      · subst o
        simp [Pair.filed]
      · have other : owner.scope = o.scope → owner.id ≠ o.id := fun scope id =>
          same (owner_eq_iff.2 ⟨scope, id⟩)
        have unmet : ∀ k w, Step.upsert o key v ≠ .upsert owner k w := by
          rintro k w ⟨⟩
          exact same rfl
        split
        · rename_i scope
          simp [Pair.filed, other scope, scope, unmet]
        · simp [unmet]
  | read o key =>
    have left : (Step.perform (.read o key) t).2 = t := read_leaves o key t
    simp [left]
  | list o =>
    have left : (Step.perform (.list o) t).2 = t := list_leaves o t
    simp [left]
  | delete o =>
    change _ ∈ ((t.withoutOwner o).pair owner.scope).owners ↔ _
    rw [withoutOwner_eq, pair_setPair_eq]
    by_cases same : owner = o
    · subst o
      simp [Pair.without]
    · have other : owner.scope = o.scope → owner.id ≠ o.id := fun scope id =>
        same (owner_eq_iff.2 ⟨scope, id⟩)
      have unmet : Step.delete o ≠ .delete owner := by
        rintro ⟨⟩
        exact same rfl
      split
      · rename_i scope
        simp [Pair.without, other scope, scope, unmet]
      · simp [unmet]
  | drop scope =>
    change _ ∈ ((t.dropRows scope).pair owner.scope).owners ↔ _
    rw [dropRows, pair_setPair_eq]
    split
    · rename_i same
      simp [same]
    · simp
  | reopen =>
    change _ ∈ (t.reopen.pair owner.scope).owners ↔ _
    simp [pair_reopen]

/-! ## Any number of steps -/

/-- Performs the steps one after the other and tells how each went. -/
def performEach : List Step → Tables → List (Step × Except Fault Unit) × Tables
  | [], t => ([], t)
  | step :: steps, t =>
    let (answer, next) := step.perform t
    let (events, last) := performEach steps next
    ((step, answer) :: events, last)

theorem Sound.performEach {t : Tables} (h : t.Sound) (steps : List Step) :
    (performEach steps t).2.Sound := by
  induction steps generalizing t with
  | nil => exact h
  | cons step steps ih => exact ih (h.perform step)

/-- A row of the owner was written, and the owner was not deleted since. -/
def Entered (owner : Owner) (events : List (Step × Except Fault Unit)) : Prop :=
  ∃ before key v after, events = before ++ (.upsert owner key v, .ok ()) :: after ∧
    ∀ e ∈ after, e.1 ≠ .delete owner

theorem entered_cons {owner : Owner} {event : Step × Except Fault Unit}
    {events : List (Step × Except Fault Unit)} : Entered owner (event :: events) ↔
      Entered owner events ∨ ((∃ key v, event.1 = .upsert owner key v ∧ event.2 = .ok ()) ∧
        ∀ e ∈ events, e.1 ≠ .delete owner) := by
  constructor
  · rintro ⟨before, key, v, after, parted, kept⟩
    cases before with
    | nil =>
      obtain ⟨rfl, rfl⟩ := List.cons.inj parted
      exact .inr ⟨⟨key, v, rfl, rfl⟩, kept⟩
    | cons first before =>
      obtain ⟨-, rfl⟩ := List.cons.inj parted
      exact .inl ⟨before, key, v, after, rfl, kept⟩
  · rintro (⟨before, key, v, after, rfl, kept⟩ | ⟨⟨key, v, written, done⟩, kept⟩)
    · exact ⟨event :: before, key, v, after, rfl, kept⟩
    · exact ⟨[], key, v, events, by rw [← written, ← done]; rfl, kept⟩

theorem mem_owners_performEach (steps : List Step) (t : Tables) (owner : Owner) :
    owner.id ∈ ((performEach steps t).2.pair owner.scope).owners ↔
      Entered owner (performEach steps t).1 ∨ (owner.id ∈ (t.pair owner.scope).owners ∧
        ∀ e ∈ (performEach steps t).1, e.1 ≠ .delete owner) := by
  induction steps generalizing t with
  | nil => simp [performEach, Entered]
  | cons step steps ih =>
    have later := ih (step.perform t).2
    rw [mem_owners_perform] at later
    rw [performEach]
    simp only [entered_cons, List.forall_mem_cons]
    rw [later, or_and_right, and_assoc, or_assoc]

/-! ## What the tables answer -/

/-- Listing an owner shows each key once, with the value as which it is read. -/
structure ListsWhatItReads (owner : Owner) (t : Tables) : Prop where
  once : ∀ values, outcome (list owner) t = (.ok values, t) → (values.map Prod.fst).Nodup
  same : ∀ key v, (∃ values, outcome (list owner) t = (.ok values, t) ∧
    values.lookup key = some v) ↔ outcome (read owner key) t = (.ok (some v), t)

theorem Sound.listsWhatItReads {t : Tables} (h : t.Sound) (owner : Owner) :
    ListsWhatItReads owner t := by
  cases present : (t.pair owner.scope).rows with
  | none =>
    have unread (key : String) : outcome (read owner key) t
        = (.error (.store (.database (.noTable (rowTable owner.scope)))), t) :=
      outcome_bind_error (selectRows_absent present)
    have unlisted : outcome (list owner) t
        = (.error (.store (.database (.noTable (rowTable owner.scope)))), t) :=
      outcome_bind_error (selectRows_absent present)
    refine ⟨fun values listed => ?_, fun key v => ?_⟩
    · rw [unlisted] at listed
      cases listed
    · simp [unread, unlisted]
  | some rows =>
    have readable : t.ReadableBy owner rows :=
      { present
        keyed := (h owner.scope).keyed rows present
        text := fun row member _ => (h owner.scope).text rows present row member }
    have listed := list_readable readable
    refine ⟨fun values other => ?_, fun key v => ?_⟩
    · rw [listed] at other
      cases other
      exact (nodup_names readable).sublist (keys_entries_sublist _)
    · rw [read_readable readable, listed]
      constructor
      · rintro ⟨values, ⟨⟩, found⟩
        rw [lookup_entries readable] at found
        rw [found]
      · intro found
        have held : t.cell owner key = some v := Except.ok.inj (congrArg Prod.fst found)
        exact ⟨_, rfl, by rw [lookup_entries readable, held]⟩

/-- Deleting an owner takes all its rows, and nothing else. -/
structure Deletes (owner : Owner) (t : Tables) : Prop where
  answer : (outcome (deleteOwner owner) t).1
    = .ok (decide (owner.id ∈ (t.pair owner.scope).owners))
  owner_gone : owner.id ∉ ((outcome (deleteOwner owner) t).2.pair owner.scope).owners
  rows_gone : ∀ rows, ((outcome (deleteOwner owner) t).2.pair owner.scope).rows = some rows →
    ∀ row ∈ rows, row.owner ≠ owner.id
  others : OnlyOf owner t (outcome (deleteOwner owner) t).2

theorem deletes (owner : Owner) (t : Tables) : Deletes owner t where
  answer := by simp [outcome_deleteOwner]
  owner_gone := by
    rw [outcome_deleteOwner, withoutOwner_eq, pair_setPair]
    simp [Pair.without]
  rows_gone := by
    rw [outcome_deleteOwner, withoutOwner_eq, pair_setPair]
    intro rows left row member
    obtain ⟨before, -, rfl⟩ := Option.map_eq_some_iff.1 left
    simpa using (List.mem_filter.1 member).2
  others := onlyOf_withoutOwner t owner

/-- Whatever was done to tables that were empty at first, and though rows be lost with their table:
    the tables are sound, an owner is there since a row of it was written, deleting takes just the
    owner with its rows, a row that cannot be written leaves all as it was, and listing agrees with
    reading. -/
theorem rows_stay_with_their_owners (steps : List Step) :
    let ended := performEach steps Tables.empty
    ended.2.Sound ∧
    (∀ owner, owner.id ∈ (ended.2.pair owner.scope).owners ↔ Entered owner ended.1) ∧
    (∀ owner, Deletes owner ended.2) ∧
    (∀ (owner : Owner) (key : String) (v : Value) (fault : Fault),
      (outcome (Backend.upsert owner key v) ended.2).1 = .error fault →
        (outcome (Backend.upsert owner key v) ended.2).2 = ended.2) ∧
    ∀ owner, ListsWhatItReads owner ended.2 := by
  intro ended
  have sound : ended.2.Sound := sound_empty.performEach steps
  refine ⟨sound, fun owner => ?_, fun owner => deletes owner _, fun _ _ _ _ => put_error_leaves,
    sound.listsWhatItReads⟩
  have nobody : (Tables.empty.pair owner.scope).owners = [] := by cases owner.scope <;> rfl
  have present := mem_owners_performEach steps Tables.empty owner
  rw [nobody] at present
  simpa using present

/-- Without a table for its row, an owner is not entered either. -/
example : let ended := performEach [.upsert ⟨.org, "acme"⟩ "VOLUME" (.integer 7), .drop .org,
      .upsert ⟨.org, "bell"⟩ "VOLUME" (.integer 9), .reopen] Tables.empty
    ended.2.org = ⟨["acme"], some []⟩ := by
  decide +kernel

end LayeredPreferences.Tables

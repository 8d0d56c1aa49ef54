import LayeredPreferences.Database.Listing
import LayeredPreferences.Proofs.Traversal

set_option autoImplicit false

/-!
# Opening databases

What cannot be written is not opened, since tables are made on opening. And where
a database is opened, nothing else has the names of the tables of rows.
-/
namespace LayeredPreferences.Database

/-! ## Writing -/

section Writing

variable {files : Files} {l : Location} {database : Database}

theorem ofBytes_readOnly (bytes : List UInt8) : ofBytes true bytes ≠ .ok database := by
  intro opened
  unfold ofBytes at opened
  split at opened
  · cases opened
  · obtain ⟨-, -, opened⟩ := Except.bind_eq_ok.1 opened
    obtain ⟨catalog, -, opened⟩ := Except.bind_eq_ok.1 opened
    cases opened

theorem openFile_writable (opened : openFile files l = .ok database) : l.isReadOnly = false := by
  cases readOnly : l.isReadOnly with
  | false => rfl
  | true =>
    have never := @ofBytes_readOnly database
    unfold openFile at opened
    obtain ⟨place, -, opened⟩ := Except.bind_eq_ok.1 opened
    rw [readOnly] at opened
    dsimp only at opened
    by_cases unlike : (l.likeFile.any fun path => !files.isThere path) = true
    · rw [if_pos unlike] at opened
      cases opened
    · rw [if_neg unlike] at opened
      split at opened
      · split at opened
        · exact absurd opened (never _)
        · cases opened
      · cases opened
      · cases opened
      · split at opened
        · exact absurd opened (never _)
        · cases opened

/-- Only what can be written is opened. -/
theorem openAt_writable (opened : openAt files l = .ok database) : l.isReadOnly = false := by
  unfold openAt at opened
  split at opened
  · exact openFile_writable opened
  all_goals
    split at opened
    · cases opened
    · exact Bool.eq_false_iff.2 ‹_›

theorem connect_writable {location : String} (opened : connect files location = .ok database) :
    ∃ l, Location.ofString location = .ok l ∧ l.isReadOnly = false := by
  obtain ⟨l, read, opened⟩ := Except.bind_eq_ok.1 opened
  refine ⟨l, ?_, openAt_writable opened⟩
  cases named : Location.ofString location with
  | error fault =>
    rw [named] at read
    cases read
  | ok l' =>
    rw [named] at read
    cases read
    rfl

end Writing

/-! ## Names -/

namespace Growing

section Keeps

variable {α β : Type} {c : Catalog}

/-- The catalog stays the same while objects are added. -/
def Keeps (c : Catalog) (action : Growing α) : Prop :=
  ∀ g a g', g.catalog = c → action.run g = .ok (a, g') → g'.catalog = c

theorem keeps_pure (a : α) : Keeps c (pure a) := by
  rintro g _ _ same ⟨⟩
  exact same

theorem keeps_throw (fault : DatabaseFault) : Keeps c (throw fault : Growing α) := by
  rintro g _ _ same ⟨⟩

theorem keeps_throw_then (fault : DatabaseFault) {next : α → Growing β} :
    Keeps c (throw fault >>= next) := by
  rintro g _ _ same ⟨⟩

theorem keeps_lift (x : Except DatabaseFault α) : Keeps c (liftM x : Growing α) := by
  intro g a g' same ran
  cases x with
  | error fault => cases ran
  | ok b =>
    cases ran
    exact same

theorem keeps_set {g : Growth} (h : g.catalog = c) : Keeps c (set g) := by
  rintro _ _ _ - ⟨⟩
  exact h

theorem keeps_modify {f : Growth → Growth} (h : ∀ g, (f g).catalog = g.catalog) :
    Keeps c (modify f) := by
  rintro g _ _ same ⟨⟩
  exact (h g).trans same

theorem Keeps.bind {action : Growing α} {next : α → Growing β} (h : Keeps c action)
    (others : ∀ a, Keeps c (next a)) : Keeps c (action >>= next) := by
  intro g b g' same ran
  obtain ⟨⟨a, first⟩, ran, rest⟩ := Except.bind_eq_ok.1 ran
  exact others a first b g' (h g a first same ran) rest

theorem keeps_get {next : Growth → Growing α} (h : ∀ g, g.catalog = c → Keeps c (next g)) :
    Keeps c (get >>= next) := fun g a g' same ran => h g same g a g' same ran

theorem keeps_forM {f : α → Growing Unit} (h : ∀ x, Keeps c (f x)) (xs : List α) :
    Keeps c (xs.forM f) := by
  induction xs with
  | nil => exact keeps_pure ()
  | cons x xs ih => exact (h x).bind fun _ => ih

theorem keeps_newRoot (mark : UInt8) : Keeps c (newRoot mark) := by
  refine keeps_get fun g same => .bind (keeps_lift _) fun ⟨page, image⟩ => ?_
  refine .bind (keeps_modify ?_) fun _ => keeps_pure _
  exact fun _ => rfl

theorem keeps_newLeaves (count : Nat) : Keeps c (newLeaves count) := by
  refine keeps_forM (fun _ => ?_) _
  refine keeps_get fun g same => .bind (keeps_lift _) fun ⟨page, image⟩ => ?_
  refine keeps_modify ?_
  exact fun _ => rfl

theorem keeps_split {g : Growth} (same : g.catalog = c) (leaves : List Leaf) (k j size : Nat) :
    Keeps c (split g leaves k j size) := by
  unfold split
  dsimp only
  by_cases damagedBranch : (g.branch.any fun page => (Room.ofPage? page).isNone) = true
  · rw [if_pos damagedBranch]
    exact keeps_throw_then _
  · rw [if_neg damagedBranch]
    split
    · exact keeps_throw _
    · split
      · exact keeps_throw _
      · refine .bind (keeps_set ?_) fun _ => keeps_newLeaves _
        exact same

theorem keeps_insert (i size : Nat) : Keeps c (insert i size) := by
  refine keeps_get fun g same => ?_
  split
  · dsimp only
    split
    · exact keeps_throw _
    · split
      · split
        · exact keeps_set same
        · exact keeps_throw _
      · exact keeps_split same _ _ _ _
  · exact keeps_pure ()

theorem keeps_erase (i : Nat) : Keeps c (erase i) := by
  refine keeps_get fun g same => ?_
  split
  · dsimp only
    split
    · exact keeps_set same
    · exact keeps_throw _
  · exact keeps_pure ()

theorem keeps_cellCount : Keeps c cellCount := keeps_get fun _ _ => keeps_pure _

theorem keeps_append (size : Nat) : Keeps c (append size) := by
  refine keeps_get fun g same => ?_
  dsimp only
  refine .bind (keeps_modify ?_) fun _ => .bind keeps_cellCount fun _ => keeps_insert _ _
  exact fun _ => rfl

theorem keeps_addTable (name definition : String) : Keeps c (addTable name definition) := by
  refine keeps_get fun g same => .bind (keeps_newRoot _) fun root => ?_
  refine .bind (keeps_append _) fun _ => .bind (keeps_newRoot _) fun keyRoot => ?_
  refine .bind (keeps_append _) fun _ => keeps_get fun g same => ?_
  exact .bind keeps_cellCount fun _ => .bind (keeps_erase _) fun _ => keeps_insert _ _

theorem keeps_makeTable (name definition : String) : Keeps c (makeTable name definition) := by
  refine keeps_get fun g same => ?_
  dsimp only
  split
  · exact keeps_pure ()
  · split
    · exact keeps_throw_then _
    · refine keeps_get fun g' same => ?_
      split
      · exact keeps_throw_then _
      · exact keeps_addTable _ _

theorem keeps_makeIndex (name table column : String) : Keeps c (makeIndex name table column) := by
  refine keeps_get fun g same => .bind (keeps_lift _) fun _ => ?_
  split
  · exact keeps_pure ()
  · refine .bind (keeps_lift _) fun _ => .bind (keeps_newRoot _) fun root => ?_
    exact keeps_append _

theorem keeps_make (object : NewObject) : Keeps c (make object) := by
  cases object with
  | table name definition => exact keeps_makeTable name definition
  | index name table column => exact keeps_makeIndex name table column

end Keeps

/-- What goes well for several objects goes well for each of them, with the catalog as it was. -/
theorem make_each {objects : List NewObject} {g g' : Growth} {u : Unit}
    (made : (objects.forM make).run g = .ok (u, g')) {object : NewObject} (member : object ∈ objects) :
    ∃ before after, before.catalog = g.catalog ∧ (make object).run before = .ok ((), after) := by
  induction objects generalizing g with
  | nil => cases member
  | cons first others ih =>
    obtain ⟨⟨_, next⟩, here, rest⟩ := Except.bind_eq_ok.1 made
    rcases List.mem_cons.1 member with rfl | later
    · exact ⟨g, next, rfl, here⟩
    · obtain ⟨before, after, same, there⟩ := ih rest later
      exact ⟨before, after, same.trans (keeps_make first g _ next rfl here), there⟩

/-- An index is made only of a table. -/
theorem makeIndex_of_table {name table column : String} {g g' : Growth}
    (made : (makeIndex name table column).run g = .ok ((), g')) :
    ∀ relation, g.catalog.relation? table = some relation →
      ∃ shape root, relation = .table shape root := by
  intro relation known
  obtain ⟨⟨_, next⟩, checked, -⟩ := Except.bind_eq_ok.1 made
  unfold checkNames at checked
  rw [known] at checked
  cases relation with
  | table shape root => exact ⟨shape, root, rfl⟩
  | view => cases checked
  | virtualTable => cases checked

end Growing

/-- In a database that has been extended, what has the name of a table of rows is a table. -/
theorem Image.table_of_extend {image image' : Image} {catalog catalog' : Catalog}
    (extended : image.extend catalog = .ok (image', catalog')) (scope : Scope) {relation : Relation}
    (known : catalog.relation? (Tables.rowTable scope) = some relation) :
    ∃ shape root, relation = .table shape root := by
  obtain ⟨start, same, g, made⟩ : ∃ start : Growth, start.catalog = catalog ∧ ∃ g,
      (NewObject.all.forM Growing.make).run start = .ok ((), g) := by
    unfold extend at extended
    have after : ∃ start : Growth, start.catalog = catalog ∧ ∃ next : Unit × Growth → _,
        (NewObject.all.forM Growing.make).run start >>= next = .ok (image', catalog') := by
      dsimp only at extended
      by_cases log : (!image.keepsLog) = true
      · rw [if_pos log] at extended
        obtain ⟨-, -, extended⟩ := Except.bind_eq_ok.1 extended
        obtain ⟨root, -, extended⟩ := Except.bind_eq_ok.1 extended
        obtain ⟨last, -, extended⟩ := Except.bind_eq_ok.1 extended
        exact ⟨_, rfl, _, extended⟩
      · rw [if_neg log] at extended
        obtain ⟨root, -, extended⟩ := Except.bind_eq_ok.1 extended
        obtain ⟨last, -, extended⟩ := Except.bind_eq_ok.1 extended
        exact ⟨_, rfl, _, extended⟩
    obtain ⟨start, same, next, ran⟩ := after
    obtain ⟨⟨_, g⟩, made, -⟩ := Except.bind_eq_ok.1 ran
    exact ⟨start, same, g, made⟩
  have index : ∃ name column, NewObject.index name (Tables.rowTable scope) column ∈ NewObject.all := by
    cases scope
    · exact ⟨"idx_org_preference_org", "org_id", by simp [NewObject.all, Tables.rowTable]⟩
    · exact ⟨"idx_user_preference_user", "user_id", by simp [NewObject.all, Tables.rowTable]⟩
  obtain ⟨name, column, member⟩ := index
  obtain ⟨before, after, kept, there⟩ := Growing.make_each made member
  exact Growing.makeIndex_of_table there relation (by rw [kept, same, known])

end LayeredPreferences.Database

import LayeredPreferences.Database.Search
import LayeredPreferences.Proofs.Database.Comparison
import LayeredPreferences.Proofs.Traversal

set_option autoImplicit false

/-!
# Rows with a text

Going through a table finds the rows that have the text in the column, all of them
and no others, in the order of the table. An index that has the column leads to no
row without the text either.
-/
namespace LayeredPreferences.Database

/-! ## Gathering -/

namespace Image

variable {α : Type} {fault : Option DatabaseFault}

/-- Entries are taken or passed over, and none of them is the last that is looked at. -/
def sift (pick : Entry → Except DatabaseFault (Option α)) (entry : Entry) :
    Except DatabaseFault (Step α) :=
  (pick entry).map fun found => found.elim .skip .take

theorem gather_sift (pick : Entry → Except DatabaseFault (Option α)) (entries : List Entry)
    (taken : List α) : gather (fun _ => sift pick) fault taken entries
      = entries.mapM pick >>= fun found =>
        fault.elim (.ok (taken.reverse ++ found.filterMap id)) .error := by
  induction entries generalizing taken with
  | nil => cases fault <;> simp [gather, pure, Except.pure, bind, Except.bind]
  | cons entry entries ih =>
    rw [gather, sift, List.mapM_cons, bind_assoc]
    cases found : pick entry with
    | error fault => rfl
    | ok x =>
      cases x with
      | none =>
        refine (ih taken).trans ?_
        cases entries.mapM pick <;> rfl
      | some x =>
        refine (ih (x :: taken)).trans ?_
        rw [List.reverse_cons]
        cases entries.mapM pick with
        | error fault => rfl
        | ok later =>
          change fault.elim (Except.ok (taken.reverse ++ [x] ++ later.filterMap id)) Except.error = _
          rw [List.append_assoc]
          rfl

def Step.given? : Step α → Option α
  | .take x | .takeLast x => some x
  | .skip | .stop => none

/-- What holds of all that may be taken holds of all that is gathered. -/
theorem of_gather {P : α → Prop} {step : Option α → Entry → Except DatabaseFault (Step α)}
    (takes : ∀ last entry s, step last entry = .ok s → ∀ x ∈ s.given?, P x) {taken : List α}
    (before : ∀ x ∈ taken, P x) {entries : List Entry} {xs : List α}
    (h : gather step fault taken entries = .ok xs) : ∀ x ∈ xs, P x := by
  induction entries generalizing taken with
  | nil =>
    cases fault with
    | some fault => cases h
    | none =>
      cases h
      simpa using before
  | cons entry entries ih =>
    rw [gather] at h
    obtain ⟨s, stepped, next⟩ := Except.bind_eq_ok.1 h
    have given := takes _ _ _ stepped
    cases s with
    | skip => exact ih before next
    | take x => exact ih (List.forall_mem_cons.2 ⟨given x rfl, before⟩) next
    | stop =>
      cases next
      simpa using before
    | takeLast x =>
      cases next
      intro y member
      exact List.forall_mem_cons.2 ⟨given x rfl, before⟩ y (List.mem_reverse.1 member)

end Image

/-! ## Ways to the rows -/

namespace Sought

variable {α : Type} {sought : Sought α} {xs : List α}

/-- A row of the table as it is taken if it has the text. -/
def pick (sought : Sought α) (entry : Entry) : Except DatabaseFault (Option (Found × α)) := do
  if ← sought.isSuch ⟨none, some entry⟩ then
    return some (⟨none, some entry⟩, ← sought.read ⟨none, some entry⟩)
  else return none

theorem sift_pick (entry : Entry) : (do
      if ← sought.isSuch ⟨none, some entry⟩ then sought.taken false ⟨none, some entry⟩
      else return .skip) = Image.sift sought.pick entry := by
  unfold Image.sift pick taken
  cases sought.isSuch ⟨none, some entry⟩ with
  | error fault => rfl
  | ok isSuch =>
    cases isSuch with
    | false => rfl
    | true => cases sought.read ⟨none, some entry⟩ <;> rfl

theorem overTable_eq : sought.overTable = sought.rows.mapM sought.pick >>= fun found =>
    (sought.image.tree sought.root sought.shape.isNumbered).2.elim
      (.ok ((found.filterMap id).map Prod.snd)) .error := by
  unfold overTable gathered
  simp only [sift_pick, Image.gather_sift]
  change (sought.rows.mapM sought.pick >>= fun found => _) >>= (fun found => _) = _
  cases sought.rows.mapM sought.pick with
  | error fault => rfl
  | ok found =>
    cases (sought.image.tree sought.root sought.shape.isNumbered).2 <;> rfl

theorem pick_inv {entry : Entry} {found : Option (Found × α)} (h : sought.pick entry = .ok found) :
    (sought.isSuch ⟨none, some entry⟩ = .ok false ∧ found = none) ∨
    (sought.isSuch ⟨none, some entry⟩ = .ok true ∧
      ∃ x, sought.read ⟨none, some entry⟩ = .ok x ∧ found = some (⟨none, some entry⟩, x)) := by
  obtain ⟨such, tested, next⟩ := Except.bind_eq_ok.1 h
  cases such with
  | false =>
    cases next
    exact .inl ⟨tested, rfl⟩
  | true =>
    obtain ⟨x, read, next⟩ := Except.bind_eq_ok.1 next
    cases next
    exact .inr ⟨tested, x, read, rfl⟩

/-- Whether a row of the table has the text. -/
def has (sought : Sought α) (entry : Entry) : Bool :=
  (sought.isSuch ⟨none, some entry⟩).toOption.getD false

theorem has_eq {entry : Entry} {such : Bool} (h : sought.isSuch ⟨none, some entry⟩ = .ok such) :
    sought.has entry = such := by
  rw [has, h]
  rfl

theorem forall₂_pick {entries : List Entry} {found : List (Option (Found × α))}
    (h : List.Forall₂ (fun entry found => sought.pick entry = .ok found) entries found) :
    (∀ entry ∈ entries, sought.isSuch ⟨none, some entry⟩ = .ok (sought.has entry)) ∧
    List.Forall₂ (fun entry x => sought.read ⟨none, some entry⟩ = .ok x)
      (entries.filter sought.has) ((found.filterMap id).map Prod.snd) := by
  induction h with
  | nil => exact ⟨nofun, .nil⟩
  | @cons entry found entries later first _ ih =>
    rcases pick_inv first with ⟨tested, rfl⟩ | ⟨tested, x, read, rfl⟩
    · have other := has_eq tested
      refine ⟨List.forall_mem_cons.2 ⟨other ▸ tested, ih.1⟩, ?_⟩
      rw [List.filter_cons_of_neg (by simp [other])]
      exact ih.2
    · have such := has_eq tested
      refine ⟨List.forall_mem_cons.2 ⟨such ▸ tested, ih.1⟩, ?_⟩
      rw [List.filter_cons_of_pos such]
      exact .cons read ih.2

/-- Going through the table finds all the rows that have the text, and no others, in their order. -/
theorem forall₂_overTable (h : sought.overTable = .ok xs) :
    (∀ entry ∈ sought.rows, sought.isSuch ⟨none, some entry⟩ = .ok (sought.has entry)) ∧
    List.Forall₂ (fun entry x => sought.read ⟨none, some entry⟩ = .ok x)
      (sought.rows.filter sought.has) xs := by
  rw [overTable_eq] at h
  obtain ⟨found, picked, ended⟩ := Except.bind_eq_ok.1 h
  cases damage : (sought.image.tree sought.root sought.shape.isNumbered).2 with
  | some fault =>
    rw [damage] at ended
    cases ended
  | none =>
    rw [damage] at ended
    cases ended
    exact forall₂_pick (mapM_eq_ok.1 picked)

theorem read_of_taken {isOnly : Bool} {found : Found} {s : Image.Step (Found × α)}
    (h : sought.taken isOnly found = .ok s) :
    ∀ pair ∈ s.given?, pair.1 = found ∧ sought.read found = .ok pair.2 := by
  obtain ⟨x, read, next⟩ := Except.bind_eq_ok.1 h
  cases isOnly <;> cases next <;> rintro _ ⟨⟩ <;> exact ⟨rfl, read⟩

theorem such_of_test {found : Found} {s : Image.Step (Found × α)}
    (h : (do if ← sought.isSuch found then sought.taken false found else return .skip) = .ok s) :
    ∀ pair ∈ s.given?, sought.isSuch pair.1 = .ok true ∧ sought.read pair.1 = .ok pair.2 := by
  obtain ⟨such, tested, next⟩ := Except.bind_eq_ok.1 h
  cases such with
  | false =>
    cases next
    nofun
  | true =>
    intro pair given
    obtain ⟨same, read⟩ := read_of_taken next pair given
    rw [same]
    exact ⟨tested, read⟩

theorem such_of_row {row? : Except DatabaseFault (Option Entry)}
    {indexed : Option (List (Option Nat) × Entry)} {s : Image.Step (Found × α)}
    (h : (do
      match ← row? with
      | none => return Image.Step.skip
      | some row =>
        if ← sought.isSuch ⟨indexed, some row⟩ then sought.taken false ⟨indexed, some row⟩
        else return .skip) = .ok s) :
    ∀ pair ∈ s.given?, sought.isSuch pair.1 = .ok true ∧ sought.read pair.1 = .ok pair.2 := by
  obtain ⟨row, -, next⟩ := Except.bind_eq_ok.1 h
  cases row with
  | none =>
    cases next
    nofun
  | some row => exact such_of_test next

/-- An index that has the column leads to no row without the text. -/
theorem such_of_overIndex {way : Way} {index : Index}
    (has : way.isWhole = true → some sought.place ∈ index.columns sought.shape)
    (h : sought.overIndex way index = .ok xs) :
    ∀ x ∈ xs, ∃ found, sought.isSuch found = .ok true ∧ sought.read found = .ok x := by
  obtain ⟨pairs, gathered, ended⟩ := Except.bind_eq_ok.1 h
  cases ended
  suffices such : ∀ pair ∈ pairs,
      sought.isSuch pair.1 = .ok true ∧ sought.read pair.1 = .ok pair.2 by
    intro x member
    obtain ⟨pair, inside, rfl⟩ := List.mem_map.1 member
    exact ⟨pair.1, such pair inside⟩
  refine Image.of_gather (fun last entry s stepped => ?_) nofun gathered
  dsimp only at stepped
  split at stepped
  · obtain ⟨such, tested, stepped⟩ := Except.bind_eq_ok.1 stepped
    cases such with
    | false =>
      cases stepped
      nofun
    | true =>
      rw [Bool.not_true, if_neg Bool.false_ne_true] at stepped
      split at stepped
      · intro pair given
        obtain ⟨same, read⟩ := read_of_taken stepped pair given
        rw [same]
        exact ⟨tested, read⟩
      · exact such_of_row stepped
  · rename_i lacks
    split at stepped
    · rename_i whole
      exact absurd (List.contains_iff_mem.2 (has whole)) lacks
    · exact such_of_row stepped

/-! ## Texts that are compared byte by byte -/

variable (folds : sought.collation.toLower ≠ "nocase") (cuts : sought.collation.toLower ≠ "rtrim")
include folds cuts

theorem isSuch_iff {found : Found} : sought.isSuch found = .ok true ↔
    sought.image.read sought.shape found sought.place
      = .ok (.text (sought.image.encoding.encode sought.content.toUTF8.toList)) := by
  rw [isSuch, Except.bind_eq_ok]
  constructor
  · rintro ⟨cell, read, such⟩
    rw [read, (Cell.isText_iff folds cuts).1 (Except.ok.inj such)]
  · intro read
    exact ⟨_, read, congrArg Except.ok ((Cell.isText_iff folds cuts).2 rfl)⟩

theorem mem_overTable (h : sought.overTable = .ok xs) {x : α} : x ∈ xs ↔
    ∃ entry ∈ sought.rows, sought.read ⟨none, some entry⟩ = .ok x ∧
      sought.image.read sought.shape ⟨none, some entry⟩ sought.place
        = .ok (.text (sought.image.encoding.encode sought.content.toUTF8.toList)) := by
  obtain ⟨tested, read⟩ := forall₂_overTable h
  constructor
  · intro member
    obtain ⟨entry, inside, first⟩ := exists_of_forall₂ read.flip member
    obtain ⟨row, such⟩ := List.mem_filter.1 inside
    exact ⟨entry, row, first, (isSuch_iff folds cuts).1 (such ▸ tested entry row)⟩
  · rintro ⟨entry, row, first, text⟩
    have such := (isSuch_iff folds cuts).2 text
    obtain ⟨y, member, second⟩ :=
      exists_of_forall₂ read (List.mem_filter.2 ⟨row, has_eq such⟩)
    obtain rfl := Except.ok.inj (first.symm.trans second)
    exact member

end Sought

end LayeredPreferences.Database

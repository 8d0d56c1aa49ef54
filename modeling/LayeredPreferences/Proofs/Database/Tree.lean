import LayeredPreferences.Database.Tree
import LayeredPreferences.Proofs.Traversal

set_option autoImplicit false

/-!
# Search in trees

On a page whose entries are in order, halving finds an entry that compares equal
if there is one. What a search in a tree finds compares equal, in whatever order
the entries are.
-/
namespace LayeredPreferences.Database.Image

/-! ## Halving -/

section Bisect

variable {compare : Nat → Except DatabaseFault Ordering} {order : Nat → Ordering}
  {count low high place fuel : Nat}

/-- What comes after what is greater is greater, and what comes before what is less is less. -/
structure Ascending (order : Nat → Ordering) (count : Nat) : Prop where
  less : ∀ i j, i ≤ j → j < count → order j = .lt → order i = .lt
  greater : ∀ i j, i ≤ j → j < count → order i = .gt → order j = .gt

theorem ascending_of_sorted {α : Type} {cmp : α → α → Ordering} [Std.TransCmp cmp] {entry : Nat → α}
    (sorted : ∀ i j, i ≤ j → j < count → (cmp (entry i) (entry j)).isLE) (x : α) :
    Ascending (fun i => cmp (entry i) x) count where
  less i j before inside less := Std.TransCmp.lt_of_isLE_of_lt (sorted i j before inside) less
  greater i j before inside greater := by
    have after : cmp x (entry i) = .lt := Std.OrientedCmp.gt_iff_lt.1 greater
    exact Std.OrientedCmp.gt_iff_lt.2 (Std.TransCmp.lt_of_lt_of_isLE after (sorted i j before inside))

/-- Only between the two places there can be what compares equal. -/
structure Narrowed (order : Nat → Ordering) (count low high : Nat) : Prop where
  low_le : low ≤ high
  high_le : high ≤ count
  below : ∀ i < low, order i = .lt
  above : ∀ i < count, high ≤ i → order i = .gt

theorem narrowed_all (order : Nat → Ordering) (count : Nat) : Narrowed order count 0 count :=
  ⟨Nat.zero_le _, Nat.le_refl _, nofun, fun _ inside beyond => absurd inside (Nat.not_lt.2 beyond)⟩

theorem Narrowed.right (h : Narrowed order count low high) (ascending : Ascending order count)
    (most : place < high) (less : order place = .lt) :
    Narrowed order count (place + 1) high where
  low_le := most
  high_le := h.high_le
  below i before :=
    ascending.less i place (Nat.lt_succ_iff.1 before) (Nat.lt_of_lt_of_le most h.high_le) less
  above := h.above

theorem Narrowed.left (h : Narrowed order count low high) (ascending : Ascending order count)
    (least : low ≤ place) (most : place < high) (greater : order place = .gt) :
    Narrowed order count low place where
  low_le := least
  high_le := Nat.le_trans (Nat.le_of_lt most) h.high_le
  below := h.below
  above i inside after := ascending.greater place i after inside greater

/-- Halving ends at what compares equal, or where it would be. -/
theorem bisect_narrowed (reads : ∀ i < count, compare i = .ok (order i))
    (ascending : Ascending order count) (h : Narrowed order count low high)
    (enough : high - low ≤ fuel) : ∃ place isThere,
      bisect compare low high fuel = .ok (place, isThere) ∧
      (isThere = true → place < count ∧ order place = .eq) ∧
      (isThere = false → Narrowed order count place place) := by
  induction fuel generalizing low high with
  | zero =>
    obtain rfl : low = high := Nat.le_antisymm h.low_le (by omega)
    exact ⟨low, false, rfl, nofun, fun _ => h⟩
  | succ fuel ih =>
    rcases Nat.lt_or_ge low high with some | none
    · have least : low ≤ (low + high - 1) / 2 := by omega
      have most : (low + high - 1) / 2 < high := by omega
      have inside := Nat.lt_of_lt_of_le most h.high_le
      rw [bisect, if_neg (Nat.not_le.2 some)]
      dsimp only
      generalize (low + high - 1) / 2 = middle at least most inside
      rw [reads middle inside]
      cases found : order middle with
      | eq => exact ⟨middle, true, rfl, fun _ => ⟨inside, found⟩, nofun⟩
      | lt => exact ih (h.right ascending most found) (by omega)
      | gt => exact ih (h.left ascending least most found) (by omega)
    · obtain rfl := Nat.le_antisymm h.low_le none
      refine ⟨low, false, ?_, nofun, fun _ => h⟩
      rw [bisect, if_pos (Nat.le_refl _)]
      rfl

/-- Whatever the order is. -/
theorem bisect_isThere (h : bisect compare low high fuel = .ok (place, true)) :
    compare place = .ok .eq := by
  induction fuel generalizing low high with
  | zero => cases h
  | succ fuel ih =>
    rw [bisect] at h
    split at h
    · cases h
    · obtain ⟨found, compared, next⟩ := Except.bind_eq_ok.1 h
      cases found with
      | eq =>
        cases next
        exact compared
      | lt => exact ih next
      | gt => exact ih next

end Bisect

/-! ## Rows and entries -/

section Descend

variable {image : Image} {compare : Entry → Except DatabaseFault Ordering} {page : Page}

/-- What is found compares equal. -/
theorem compare_descend {level : Nat} {entry : Entry}
    (h : image.descend compare page level = .ok (some entry)) : compare entry = .ok .eq := by
  induction level generalizing page with
  | zero => cases h
  | succ level ih =>
    rw [descend] at h
    obtain ⟨⟨i, isThere⟩, searched, next⟩ := Except.bind_eq_ok.1 h
    dsimp only at next
    split at next
    · rename_i found
      obtain ⟨rfl, -⟩ := found
      cases next
      exact bisect_isThere searched
    · split at next
      · cases next
      · split at next
        · cases next
        · obtain ⟨below, -, next⟩ := Except.bind_eq_ok.1 next
          obtain ⟨-, -, next⟩ := Except.bind_eq_ok.1 next
          exact ih next

/-- On a leaf in order, what compares equal is found if it is there. -/
theorem descend_leaf (leaf : page.kind.isLeaf = true) {order : Nat → Ordering}
    (reads : ∀ i < page.cells, compare (page.entry i) = .ok (order i))
    (ascending : Ascending order page.cells) (level : Nat) :
    ∃ found, image.descend compare page (level + 1) = .ok found ∧
      (found.isSome ↔ ∃ i < page.cells, order i = .eq) ∧
      ∀ entry ∈ found, ∃ i < page.cells, entry = page.entry i ∧ order i = .eq := by
  obtain ⟨place, isThere, searched, found, missing⟩ :=
    bisect_narrowed reads ascending (narrowed_all order page.cells) (Nat.sub_le page.cells 0)
  have row : page.kind ≠ .tableBranch := by
    rintro branch
    rw [branch] at leaf
    cases leaf
  have looked : image.descend compare page (level + 1)
      = if isThere = true then .ok (some (page.entry place)) else .ok none := by
    rw [descend, searched]
    change (if isThere = true ∧ _ then _ else if page.kind.isLeaf = true then _ else _) = _
    rw [if_pos leaf]
    simp only [row, ne_eq, not_false_eq_true, and_true]
    rfl
  cases isThere with
  | true =>
    obtain ⟨inside, equal⟩ := found rfl
    refine ⟨_, looked, ⟨fun _ => ⟨place, inside, equal⟩, fun _ => rfl⟩, ?_⟩
    rintro entry ⟨⟩
    exact ⟨place, inside, rfl, equal⟩
  | false =>
    refine ⟨_, looked, ⟨nofun, ?_⟩, nofun⟩
    rintro ⟨i, inside, equal⟩
    have narrowed := missing rfl
    rcases Nat.lt_or_ge i place with before | after
    · exact absurd (narrowed.below i before) (by simp [equal])
    · exact absurd (narrowed.above i inside after) (by simp [equal])

/-- A row that was sought has the number that was sought. -/
theorem row_seek {index : Nat} {row : Int} {entry : Entry}
    (h : image.seek index row = .ok (some entry)) : entry.row = row := by
  obtain ⟨page, -, next⟩ := Except.bind_eq_ok.1 h
  have equal := Except.ok.inj (compare_descend next)
  exact Std.LawfulEqOrd.eq_of_compare equal

end Descend

end LayeredPreferences.Database.Image

import Mathlib.Data.List.Forall2

set_option autoImplicit false

/-!
# Going through a list

What can fail at each element of a list stops at the first element at which it
does, and looks at none behind it.
-/
namespace LayeredPreferences

variable {ε ε' α β : Type}

theorem Except.bind_eq_ok {x : Except ε α} {f : α → Except ε β} {b : β} :
    x >>= f = .ok b ↔ ∃ a, x = .ok a ∧ f a = .ok b := by
  cases x with
  | ok a => simp [bind, Except.bind]
  | error fault => simp [bind, Except.bind]

theorem exists_of_forall₂ {R : α → β → Prop} {xs : List α} {ys : List β} (h : List.Forall₂ R xs ys)
    {x : α} (member : x ∈ xs) : ∃ y ∈ ys, R x y := by
  induction h with
  | nil => cases member
  | @cons x' y xs ys first _ ih =>
    rcases List.mem_cons.1 member with rfl | later
    · exact ⟨y, by simp, first⟩
    · obtain ⟨z, mem, related⟩ := ih later
      exact ⟨z, by simp [mem], related⟩

theorem mapM_eq_ok {f : α → Except ε β} {xs : List α} {ys : List β} :
    xs.mapM f = .ok ys ↔ List.Forall₂ (fun x y => f x = .ok y) xs ys := by
  induction xs generalizing ys with
  | nil => cases ys <;> simp [pure, Except.pure]
  | cons x xs ih =>
    simp only [List.mapM_cons, Except.bind_eq_ok, ih]
    cases ys with
    | nil => simp [pure, Except.pure]
    | cons y ys => simp [pure, Except.pure]

theorem mapM_stops {f : α → Except ε β} {before : List α} (passed : ∀ b ∈ before, ∃ y, f b = .ok y)
    {x : α} {fault : ε} (failed : f x = .error fault) (after : List α) :
    (before ++ x :: after).mapM f = .error fault := by
  induction before with
  | nil =>
    rw [List.nil_append, List.mapM_cons, failed]
    rfl
  | cons b before ih =>
    obtain ⟨y, first⟩ := passed b (by simp)
    have others := ih fun b member => passed b (by simp [member])
    rw [List.cons_append, List.mapM_cons, first, others]
    rfl

/-- The elements before the one that fails have all been gone through. -/
theorem exists_first_failure {f : α → Except ε β} {xs : List α} {fault : ε}
    (h : xs.mapM f = .error fault) : ∃ before x after, xs = before ++ x :: after ∧
      (∀ b ∈ before, ∃ y, f b = .ok y) ∧ f x = .error fault := by
  induction xs with
  | nil => cases h
  | cons x xs ih =>
    rw [List.mapM_cons] at h
    cases first : f x with
    | error other =>
      rw [first] at h
      cases h
      exact ⟨[], x, xs, rfl, nofun, first⟩
    | ok y =>
      have later : xs.mapM f = .error fault := by
        rw [first] at h
        cases others : xs.mapM f with
        | error other => rw [others] at h; exact h
        | ok ys => rw [others] at h; cases h
      obtain ⟨before, z, after, rfl, passed, failed⟩ := ih later
      refine ⟨x :: before, z, after, rfl, ?_, failed⟩
      exact List.forall_mem_cons.2 ⟨⟨y, first⟩, passed⟩

theorem foldlM_mapError (f : β → α → Except ε β) (g : ε → ε') (start : β) (xs : List α) :
    xs.foldlM (fun b x => (f b x).mapError g) start = (xs.foldlM f start).mapError g := by
  induction xs generalizing start with
  | nil => rfl
  | cons x xs ih =>
    rw [List.foldlM_cons, List.foldlM_cons]
    cases f start x with
    | error fault => rfl
    | ok next => exact ih next

end LayeredPreferences

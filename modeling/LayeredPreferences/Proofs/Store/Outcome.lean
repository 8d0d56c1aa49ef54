import LayeredPreferences.Store.Backend

set_option autoImplicit false

/-!
# Outcomes of actions

What an action answers at a store, together with the store that it leaves.
-/
namespace LayeredPreferences.Action

section Steps

variable {ε σ α β : Type}

def outcome (action : ExceptT ε (StateM σ) α) (s : σ) : Except ε α × σ := action.run.run s

@[simp] theorem outcome_pure (x : α) (s : σ) :
    outcome (pure x : ExceptT ε (StateM σ) α) s = (.ok x, s) := rfl

@[simp] theorem outcome_get (s : σ) : outcome (get : ExceptT ε (StateM σ) σ) s = (.ok s, s) := rfl

@[simp] theorem outcome_modify (change : σ → σ) (s : σ) :
    outcome (modify change : ExceptT ε (StateM σ) Unit) s = (.ok (), change s) := rfl

/-- A result that needs no store leaves the store alone. -/
@[simp] theorem outcome_lift (result : Except ε α) (s : σ) :
    outcome (liftM result : ExceptT ε (StateM σ) α) s = (result, s) := rfl

theorem outcome_bind (x : ExceptT ε (StateM σ) α) (f : α → ExceptT ε (StateM σ) β) (s : σ) :
    outcome (x >>= f) s = match outcome x s with
      | (.ok a, t) => outcome (f a) t
      | (.error fault, t) => (.error fault, t) := by
  change ExceptT.bind x f s = _
  simp only [ExceptT.bind, ExceptT.mk]
  change StateT.bind x _ s = _
  simp only [StateT.bind, outcome, ExceptT.run, StateT.run]
  change (let p := x s; _) = _
  rcases x s with ⟨r, t⟩
  cases r <;> rfl

variable {x : ExceptT ε (StateM σ) α} {f : α → ExceptT ε (StateM σ) β} {s t : σ}

theorem outcome_bind_ok {a : α} (h : outcome x s = (.ok a, t)) :
    outcome (x >>= f) s = outcome (f a) t := by
  rw [outcome_bind, h]

theorem outcome_bind_error {fault : ε} (h : outcome x s = (.error fault, t)) :
    outcome (x >>= f) s = (.error fault, t) := by
  rw [outcome_bind, h]

theorem outcome_map (f : α → β) (x : ExceptT ε (StateM σ) α) (s : σ) :
    outcome (f <$> x) s = ((outcome x s).1.map f, (outcome x s).2) := by
  change ExceptT.map f x s = _
  simp only [ExceptT.map, ExceptT.mk]
  change StateT.bind x _ s = _
  simp only [StateT.bind, outcome, ExceptT.run, StateT.run]
  change (let p := x s; _) = _
  rcases x s with ⟨r, t⟩
  cases r <;> rfl

end Steps

/-! ## Actions that leave the store -/

section Leaving

variable {ε σ α β : Type}

/-- Whatever the action answers, the store stays as it is. -/
def Leaves (x : ExceptT ε (StateM σ) α) : Prop := ∀ s, (outcome x s).2 = s

theorem leaves_pure (a : α) : Leaves (pure a : ExceptT ε (StateM σ) α) := fun _ => rfl

theorem leaves_lift (result : Except ε α) : Leaves (liftM result : ExceptT ε (StateM σ) α) :=
  fun _ => rfl

theorem Leaves.bind {x : ExceptT ε (StateM σ) α} {f : α → ExceptT ε (StateM σ) β} (first : Leaves x)
    (next : ∀ a, Leaves (f a)) : Leaves (x >>= f) := by
  intro s
  have left := first s
  rcases ran : outcome x s with ⟨_ | a, t⟩ <;> rw [ran] at left
  · rw [outcome_bind_error ran]
    exact left
  · rw [outcome_bind_ok ran]
    exact (next a t).trans left

end Leaving

end LayeredPreferences.Action

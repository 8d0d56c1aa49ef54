import LayeredPreferences.Json.Reader

set_option autoImplicit false

/-!
# Steps of readers

A reader is followed from one source to the next. Blanks count for nothing where
the next token is looked for.
-/
namespace LayeredPreferences.Json

section Steps

variable {α β : Type}

theorem bind_apply (x : Reader α) (f : α → Reader β) (source : Source) :
    (x >>= f) source = match x source with
      | .ok (a, rest) => f a rest
      | .error fault => .error fault := by
  change (x source >>= fun p => f p.1 p.2) = _
  rcases x source with _ | ⟨a, rest⟩ <;> rfl

theorem bind_ok {x : Reader α} {f : α → Reader β} {source rest : Source} {a : α}
    (h : x source = .ok (a, rest)) : (x >>= f) source = f a rest := by
  rw [bind_apply, h]

theorem bind_error {x : Reader α} {f : α → Reader β} {source : Source} {fault : Fault}
    (h : x source = .error fault) : (x >>= f) source = .error fault := by
  rw [bind_apply, h]

theorem pure_apply (a : α) (source : Source) : (pure a : Reader α) source = .ok (a, source) := rfl

theorem within_ok {step : Step} {x : Reader α} {source rest : Source} {a : α}
    (h : x source = .ok (a, rest)) : within step x source = .ok (a, rest) := by
  unfold within
  rw [h]
  rfl

theorem within_error {step : Step} {x : Reader α} {source : Source} {fault : Fault}
    (h : x source = .error fault) :
    within step x source = .error ⟨step :: fault.path, fault.cause⟩ := by
  unfold within
  rw [h]
  rfl

theorem unplaced_ok {x : Reader α} {source rest : Source} {a : α}
    (h : x source = .ok (a, rest)) : unplaced x source = .ok (a, rest) := by
  unfold unplaced
  rw [h]
  rfl

theorem ofString_ofList (cs : List Char) : Source.ofString (String.ofList cs) = cs.map .char := by
  simp [Source.ofString]

theorem whole_ok {x : Reader α} {source rest : Source} {a : α} (h : x source = .ok (a, rest))
    (blank : rest.all Glyph.isBlank) : whole x source = .ok a := by
  unfold whole
  rw [h]
  change (if rest.all Glyph.isBlank then pure a else _) = _
  rw [if_pos blank]
  rfl

theorem whole_error {x : Reader α} {source : Source} {fault : Fault}
    (h : x source = .error fault) : whole x source = .error fault := by
  unfold whole
  rw [h]
  rfl

end Steps

theorem advance_cons (g : Glyph) (rest : Source) : advance (g :: rest) = .ok ((), rest) := rfl

def Blanks (pad : Source) : Prop := ∀ g ∈ pad, g.isBlank = true

theorem blanks_nil : Blanks [] := by
  intro g hg
  cases hg

theorem dropWhile_blanks {pad : Source} (h : Blanks pad) (source : Source) :
    (pad ++ source).dropWhile Glyph.isBlank = source.dropWhile Glyph.isBlank := by
  induction pad with
  | nil => rfl
  | cons g pad ih =>
    have first : g.isBlank = true := h g (by simp)
    have others : Blanks pad := fun g hg => h g (by simp [hg])
    rw [List.cons_append, List.dropWhile_cons_of_pos first, ih others]

theorem peek_token {pad : Source} (blanks : Blanks pad) {g : Glyph} (token : g.isBlank = false)
    (rest : Source) : peek (pad ++ g :: rest) = .ok (some g, g :: rest) := by
  have stop : (pad ++ g :: rest).dropWhile Glyph.isBlank = g :: rest := by
    rw [dropWhile_blanks blanks, List.dropWhile_cons_of_neg (by simp [token])]
  simp only [peek, stop, List.head?_cons]

theorem peek_here {g : Glyph} (token : g.isBlank = false) (rest : Source) :
    peek (g :: rest) = .ok (some g, g :: rest) := peek_token blanks_nil token rest

/-- A text that starts with a token, which closes no list. -/
def Starts (text : List Char) : Prop :=
  ∃ c cs, text = c :: cs ∧ (Glyph.char c).isBlank = false ∧ c ≠ ']'

theorem keyword_word (word : List Char) (rest : Source) :
    keyword word (word.map .char ++ rest) = .ok ((), rest) := by
  induction word with
  | nil => rfl
  | cons c word ih => simpa [keyword] using ih

end LayeredPreferences.Json

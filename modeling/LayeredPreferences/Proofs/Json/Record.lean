import LayeredPreferences.Json.Record
import LayeredPreferences.Proofs.Json.Sight

set_option autoImplicit false

/-!
# Records with one member

An object whose only member is a field of the record is read as the record with
that field, if no other field must appear.
-/
namespace LayeredPreferences.Json

theorem sight_object (rest : Source) : sight (.char '{' :: rest) = .ok (.object, rest) := by
  unfold sight
  rw [bind_ok (peek_here rfl _)]
  rfl

section Tokens

variable {care : Care} {pad : Source}

theorem nextMember_closing (blanks : Blanks pad) (first : Bool) (rest : Source) :
    nextMember care first (pad ++ .char '}' :: rest) = .ok (false, .char '}' :: rest) := by
  unfold nextMember
  rw [bind_ok (peek_token blanks rfl _)]
  rfl

theorem nextMember_first (care : Care) (blanks : Blanks pad) (rest : Source) :
    nextMember care true (pad ++ .char '"' :: rest) = .ok (true, .char '"' :: rest) := by
  unfold nextMember
  rw [bind_ok (peek_token blanks rfl _)]
  rfl

theorem colon_padded (blanks : Blanks pad) (rest : Source) :
    colon (pad ++ .char ':' :: rest) = .ok ((), rest) := by
  unfold colon
  rw [bind_ok (peek_token blanks rfl _)]
  rfl

theorem colon_here (rest : Source) : colon (.char ':' :: rest) = .ok ((), rest) :=
  colon_padded blanks_nil rest

end Tokens

theorem nextName_written (name : String) (rest : Source) :
    nextName .kept quotation true ((writeString name).map .char ++ rest)
      = .ok (some name, rest) := by
  rw [map_writeString]
  refine within_ok ((bind_ok (nextMember_first .kept blanks_nil _)).trans ?_)
  change (advance >>= fun _ => _) _ = _
  rw [bind_ok (advance_cons _ _), bind_ok (quotation_written name rest)]
  rfl

theorem nextName_closing {pad : Source} (blanks : Blanks pad) (first : Bool) (rest : Source) :
    nextName .kept quotation first (pad ++ .char '}' :: rest)
      = .ok (none, .char '}' :: rest) :=
  within_ok ((bind_ok (nextMember_closing blanks first rest)).trans rfl)

theorem closeObject_here (rest : Source) : closeObject (.char '}' :: rest) = .ok ((), rest) := by
  unfold closeObject
  rw [bind_ok (peek_here rfl _)]
  rfl

variable {ρ : Type} {field : Field ρ} {room : Nat} {put : ρ → ρ} {value pad rest : Source}

theorem members_one (blanks : Blanks pad) (empty : ρ)
    (read : field.read room (value ++ (pad ++ .char '}' :: rest))
      = .ok (put, pad ++ .char '}' :: rest)) :
    members .kept quotation (recordMember [field] room) true ([], empty)
        ((writeString field.name).map .char ++ .char ':' :: (value ++ (pad ++ .char '}' :: rest)))
      = .ok (([field.name], put empty), .char '}' :: rest) := by
  have member : recordMember [field] room field.name ([], empty)
      = .ok (do return ([field.name], (← field.read room) empty)) := by
    simp [recordMember]
  have taken : (do
      colon
      within (.member field.name)
        (do return ([field.name], (← field.read room) empty)) : Reader (List String × ρ))
      (.char ':' :: (value ++ (pad ++ .char '}' :: rest)))
        = .ok (([field.name], put empty), pad ++ .char '}' :: rest) := by
    rw [bind_ok (colon_here _)]
    refine within_ok ?_
    rw [bind_ok read]
    rfl
  rw [members, nextName_written]
  dsimp only
  rw [member]
  dsimp only
  rw [taken]
  dsimp only
  -- The member took something, so the reader goes on, and finds the closing bracket.
  rw [if_pos (by simp; omega), members, nextName_closing blanks]

theorem members_one_error (empty : ρ) {source : Source} {fault : Fault}
    (failed : field.read room source = .error fault) : ∃ fault,
    members .kept quotation (recordMember [field] room) true ([], empty)
        ((writeString field.name).map .char ++ .char ':' :: source) = .error fault := by
  have member : recordMember [field] room field.name ([], empty)
      = .ok (do return ([field.name], (← field.read room) empty)) := by
    simp [recordMember]
  refine ⟨⟨.member field.name :: fault.path, fault.cause⟩, ?_⟩
  rw [members, nextName_written]
  dsimp only
  rw [member]
  dsimp only
  rw [bind_ok (colon_here _), within_error (bind_error failed)]

/-- A value that is refused refuses the record. -/
theorem record_one_error (title : String) (empty : ρ) {source : Source} {fault : Fault}
    (failed : field.read room source = .error fault) : ∃ fault,
    record title [field] empty (room + 1)
        (.char '{' :: ((writeString field.name).map .char ++ .char ':' :: source))
      = .error fault := by
  obtain ⟨fault, stopped⟩ := members_one_error empty failed
  refine ⟨fault, ?_⟩
  unfold record
  rw [bind_ok (sight_object _)]
  exact bind_error stopped

theorem record_one (blanks : Blanks pad) (title : String) (empty : ρ)
    (read : field.read room (value ++ (pad ++ .char '}' :: rest))
      = .ok (put, pad ++ .char '}' :: rest)) :
    record title [field] empty (room + 1) (.char '{' ::
        ((writeString field.name).map .char ++ .char ':' :: (value ++ (pad ++ .char '}' :: rest))))
      = .ok (put empty, rest) := by
  unfold record
  rw [bind_ok (sight_object _)]
  let inside : Reader (List String × ρ) :=
    members .kept quotation (recordMember [field] room) true ([], empty)
  change (inside >>= _) _ = _
  rw [bind_ok (members_one blanks empty read)]
  simp only [List.find?_cons, List.contains_cons, beq_self_eq_true, Bool.true_or, Bool.not_true,
    Bool.and_false, List.find?_nil]
  rw [bind_ok (closeObject_here rest)]
  rfl

end LayeredPreferences.Json

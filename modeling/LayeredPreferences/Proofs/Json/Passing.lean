import LayeredPreferences.Proofs.Json.Settled

set_option autoImplicit false

/-!
# Any value is passed over

A value that is skipped is taken whole, of whatever depth it is and whatever its strings and numbers
stand for.
-/
namespace LayeredPreferences.Json

/-! ## Strings -/

theorem looseEscape_short {letter c : Char} (known : (letter, c) ∈ shortEscapes) (more : Source) :
    looseEscape (.char letter :: more) = .ok (c, more) := by
  have other := short_ne_u known
  unfold looseEscape
  split
  · simp_all
  · exact escape_short known more

theorem letters_loose {ps : List Piece} (wellSpelled : WellSpelled ps) : ∃ gs, ∀ rest,
    letters looseEscape ((spelling ps).map .char ++ .char '"' :: rest) = .ok (gs, rest) := by
  induction ps with
  | nil => exact ⟨[], letters_closing looseEscape⟩
  | cons p ps ih =>
    obtain ⟨front, others⟩ := wellSpelled_cons.1 wellSpelled
    obtain ⟨gs, read⟩ := ih others
    cases front with
    | @plain c quote backslash visible =>
      refine ⟨.char c :: gs, fun rest => ?_⟩
      rw [spelling_cons]
      exact (letters_plain _ quote backslash visible).trans (congrArg (Except.map _) (read rest))
    | @short letter c known =>
      refine ⟨.char c :: gs, fun rest => ?_⟩
      rw [spelling_cons]
      exact (letters_escape (looseEscape_short known _) (by simp)).trans
        (congrArg (Except.map _) (read rest))
    | @unit n digits hex =>
      refine ⟨.char (Char.ofNat n) :: gs, fun rest => ?_⟩
      rw [spelling_cons, List.map_append, List.append_assoc]
      have unit (more : Source) : looseEscape (.char 'u' :: (digits.map .char ++ more))
          = .ok (Char.ofNat n, more) := by
        change (hexFour _).map _ = _
        rw [hexFour_spelled hex more]
        rfl
      exact (letters_escape (unit _) (by simp; omega)).trans (congrArg (Except.map _) (read rest))

theorem calls_loose {ps : List Piece} (wellSpelled : WellSpelled ps) :
    ∃ key, Calls looseQuotation ps (some key) := by
  obtain ⟨gs, read⟩ := letters_loose wellSpelled
  refine ⟨String.ofList (gs.filterMap Glyph.char?), fun rest => ?_⟩
  unfold looseQuotation
  rw [bind_ok (read rest)]
  exact .value _

/-! ## Lengths -/

theorem length_le_inside {pad : Pad} {texts : List (List Char)} {text : List Char}
    (h : text ∈ texts) : text.length ≤ (inside pad texts).length := by
  cases texts with
  | nil => cases h
  | cons first texts =>
    change _ ≤ (separated (first :: texts)).length
    rw [separated_cons, List.length_append]
    rcases List.mem_cons.1 h with rfl | later
    · exact Nat.le_add_right _ _
    · have part : text.length ≤ (followed texts).length := by
        obtain ⟨front, back, rfl⟩ := List.append_of_mem later
        simp only [followed, List.flatMap_append, List.flatMap_cons, List.length_append,
          List.length_cons]
        omega
      omega

theorem length_item {pad : Pad} {items : List Item} {i : Item} (h : i ∈ items) :
    i.value.length < (listText pad items).length := by
  have part : i.text.length ≤ (inside pad (items.map Item.text)).length :=
    length_le_inside (List.mem_map_of_mem h)
  simp only [Item.text, List.length_append] at part
  simp only [listText, List.length_cons, List.length_append]
  omega

theorem length_member {pad : Pad} {members : List Member} {m : Member} (h : m ∈ members) :
    m.item.value.length < (objectText pad members).length := by
  have part : m.text.length ≤ (inside pad (members.map Member.text)).length :=
    length_le_inside (List.mem_map_of_mem h)
  simp only [Member.text, Item.text, List.length_append, List.length_cons] at part
  simp only [objectText, List.length_cons, List.length_append]
  omega

/-! ## Values -/

theorem skipsBlanks_skippedWithin (depth : Nat) : SkipsBlanks (skippedWithin (depth + 1)) := by
  unfold skippedWithin
  exact skipsBlanks_peek.bind _

theorem skippedWithin_quoted (depth : Nat) {ps : List Piece} (wellSpelled : WellSpelled ps)
    (rest : Source) :
    skippedWithin (depth + 1) ((quoted ps).map .char ++ rest) = .ok ((), rest) := by
  obtain ⟨gs, read⟩ := letters_loose wellSpelled
  have source : (quoted ps).map Glyph.char ++ rest
      = .char '"' :: ((spelling ps).map .char ++ .char '"' :: rest) := by
    simp [quoted]
  have loose : looseQuotation ((spelling ps).map .char ++ .char '"' :: rest)
      = .ok (String.ofList (gs.filterMap Glyph.char?), rest) := by
    unfold looseQuotation
    rw [bind_ok (read rest)]
    rfl
  unfold skippedWithin
  rw [source, bind_ok (peek_here rfl _)]
  change (do advance; let _ ← looseQuotation : Reader Unit) _ = _
  rw [bind_ok (advance_cons _ _), bind_ok loose]
  rfl

theorem IsToken.skipped {text : List Char} (h : IsToken text) (depth : Nat) :
    Settles (skippedWithin (depth + 1)) text (some ()) := by
  refine (skipsBlanks_skippedWithin depth).settles fun rest ends => ?_
  have taken : skippedWithin (depth + 1) (text.map .char ++ rest) = .ok ((), rest) := by
    cases h with
    | null => exact skippedWithin_null depth
    | boolean b => exact skippedWithin_writeBool depth b
    | number wellFormed capital plus => exact skippedWithin_spelled depth wellFormed capital plus ends
    | string wellSpelled => exact skippedWithin_quoted depth wellSpelled rest
  rw [taken]
  exact .value ()

theorem skippedWithin_listText {depth : Nat} {items : List Item} (pad : Pad)
    (answered : ∀ i ∈ items, Answered (skippedWithin depth) i (some ())) (rest : Source) :
    Yields rest (skippedWithin (depth + 1) ((listText pad items).map .char ++ rest)) (some ()) := by
  have all : List.Forall₂ (Answered (skippedWithin depth)) items
      (items.map fun _ => some ()) := by
    rw [List.forall₂_map_right_iff]
    exact List.forall₂_same.2 answered
  have read : Yields (.char ']' :: rest) (elements .skipped _ 0 _) _ := elements_settled all 0 pad
  have source : (listText pad items).map Glyph.char ++ rest
      = .char '[' :: ((inside pad (items.map Item.text)).map .char ++ .char ']' :: rest) := by
    simp [listText]
  have units : together (items.map fun _ => some ()) = some (items.map fun _ => ()) := by
    have some := together_some (items.map fun _ => ())
    rwa [List.map_map] at some
  rw [units] at read
  unfold skippedWithin
  rw [source, bind_ok (peek_here rfl _)]
  change Yields rest ((do
    advance
    let _ ← elements .skipped (skippedWithin depth) 0
    closeList : Reader Unit) _) _
  rw [bind_ok (advance_cons _ _)]
  refine Yields.andThen read ?_
  rw [closeList_here]
  exact .value ()

theorem turns_skipped {depth : Nat} {members : List Member}
    (names : ∀ m ∈ members, WellSpelled m.name)
    (settled : ∀ m ∈ members, Settles (skippedWithin depth) m.item.value (some ())) :
    Turns looseQuotation (fun _ _ => pure (skippedWithin depth)) members () (some ()) := by
  induction members with
  | nil => exact .nil ()
  | cons m members ih =>
    obtain ⟨key, called⟩ := calls_loose (names m (by simp))
    exact .step called rfl (settled m (by simp))
      (ih (fun m hm => names m (by simp [hm])) fun m hm => settled m (by simp [hm]))

theorem skippedWithin_objectText {depth : Nat} {members : List Member} (pad : Pad)
    (names : ∀ m ∈ members, WellSpelled m.name)
    (settled : ∀ m ∈ members, Settles (skippedWithin depth) m.item.value (some ()))
    (rest : Source) :
    Yields rest (skippedWithin (depth + 1) ((objectText pad members).map .char ++ rest))
      (some ()) := by
  have read : Yields (.char '}' :: rest) (Json.members .skipped _ _ true () _) _ :=
    members_settled (turns_skipped names settled) true pad
  have source : (objectText pad members).map Glyph.char ++ rest
      = .char '{' :: ((inside pad (members.map Member.text)).map .char ++ .char '}' :: rest) := by
    simp [objectText]
  unfold skippedWithin
  rw [source, bind_ok (peek_here rfl _)]
  change Yields rest ((do
    advance
    Json.members .skipped looseQuotation (fun _ _ => pure (skippedWithin depth)) true ()
    closeObject : Reader Unit) _) _
  rw [bind_ok (advance_cons _ _)]
  refine Yields.andThen read ?_
  rw [closeObject_here]
  exact .value ()

/-- As many brackets may be within each other as the text is long. -/
theorem IsValue.skippedWithin {text : List Char} (h : IsValue text) {depth : Nat}
    (room : text.length ≤ depth) : Settles (skippedWithin depth) text (some ()) := by
  -- Over the value, for every depth; what stands within brackets is shorter than the whole.
  induction h generalizing depth with
  | token token =>
    obtain ⟨c, cs, rfl, -⟩ := token.front
    obtain ⟨depth, rfl⟩ := Nat.exists_eq_add_of_le' (Nat.le_trans (Nat.le_add_left 1 _) room)
    exact token.skipped depth
  | @list pad items values ih =>
    obtain ⟨depth, rfl⟩ := Nat.exists_eq_add_of_le' (Nat.le_trans (Nat.le_add_left 1 _) room)
    refine (skipsBlanks_skippedWithin depth).settles fun rest _ => ?_
    refine skippedWithin_listText pad (fun i hi => ⟨(values i hi).starts, ih i hi ?_⟩) rest
    have : i.value.length < (listText pad items).length := length_item hi
    omega
  | @object pad members names values ih =>
    obtain ⟨depth, rfl⟩ := Nat.exists_eq_add_of_le' (Nat.le_trans (Nat.le_add_left 1 _) room)
    refine (skipsBlanks_skippedWithin depth).settles fun rest _ => ?_
    refine skippedWithin_objectText pad names (fun m hm => ih m hm ?_) rest
    have : m.item.value.length < (objectText pad members).length := length_member hm
    omega

theorem IsValue.skipped {text : List Char} (h : IsValue text) : Settles skipped text (some ()) := by
  intro pad rest blanks ends
  have room : text.length ≤ (pad ++ (text.map Glyph.char ++ rest)).length := by
    simp only [List.length_append, List.length_map]
    omega
  have read := h.skippedWithin room pad rest blanks ends
  unfold Json.skipped
  rw [unplaced_ok read.eq_ok]
  exact .value ()

end LayeredPreferences.Json

import LayeredPreferences.Proofs.Json.Grammar
import LayeredPreferences.Proofs.Json.Record

set_option autoImplicit false

/-!
# What a reader makes of a text

A reader that is given the text of a value either takes exactly that text, or refuses it. Which of the
two it does, and what it reads, depends neither on the blanks before nor on what follows.
-/
namespace LayeredPreferences.Json

section Outcomes

variable {α β : Type} {v : Option α} {source middle rest : Source}

/-- A value with the rest of the source, or a fault. -/
inductive Yields (rest : Source) : Except Fault (α × Source) → Option α → Prop where
  | value (x : α) : Yields rest (.ok (x, rest)) (some x)
  | fault (fault : Fault) : Yields rest (.error fault) none

theorem Yields.eq_ok {outcome : Except Fault (α × Source)} {x : α}
    (h : Yields rest outcome (some x)) : outcome = .ok (x, rest) := by
  cases h
  rfl

theorem Yields.eq_error {outcome : Except Fault (α × Source)} (h : Yields rest outcome none) :
    ∃ fault, outcome = .error fault := by
  cases h with
  | fault fault => exact ⟨fault, rfl⟩

theorem Yields.bind {x : Reader α} {f : α → Reader β} {next : α → Option β}
    (first : Yields middle (x source) v)
    (second : ∀ a, v = some a → Yields rest (f a middle) (next a)) :
    Yields rest ((x >>= f) source) (v.bind next) := by
  rw [bind_apply]
  generalize x source = outcome at first
  cases first with
  | value a => exact second a rfl
  | fault fault => exact .fault fault

theorem Yields.andThen {x : Reader α} {f : α → Reader β} {a : α} {w : Option β}
    (first : Yields middle (x source) (some a)) (second : Yields rest (f a middle) w) :
    Yields rest ((x >>= f) source) w := by
  rw [bind_apply]
  generalize x source = outcome at first
  cases first with
  | value => exact second

theorem Yields.within {x : Reader α} (h : Yields rest (x source) v) (step : Step) :
    Yields rest (within step x source) v := by
  unfold Json.within
  generalize x source = outcome at h ⊢
  cases h with
  | value a => exact .value a
  | fault fault => exact .fault _

theorem Yields.unique {outcome : Except Fault (α × Source)} {w : Option α}
    (h : Yields rest outcome v) (h' : Yields rest outcome w) : v = w := by
  cases h <;> cases h' <;> rfl

theorem Yields.elsewhere {outcome : Except Fault (α × Source)} (h : Yields middle outcome none) :
    Yields rest outcome none := by
  cases h with
  | fault fault => exact .fault fault

theorem Yields.stop {x : Reader α} (h : Yields middle (x source) none) (f : α → Reader β)
    (rest : Source) : Yields rest ((x >>= f) source) none := by
  rw [bind_apply]
  generalize x source = outcome at h
  cases h with
  | fault fault => exact .fault fault

/-- The reader takes exactly the text, or refuses it. -/
def Settles (reader : Reader α) (text : List Char) (v : Option α) : Prop :=
  ∀ pad rest, Blanks pad → EndsNumber rest →
    Yields rest (reader (pad ++ (text.map .char ++ rest))) v

theorem Settles.unique {reader : Reader α} {text : List Char} {w : Option α}
    (h : Settles reader text v) (h' : Settles reader text w) : v = w :=
  (h [] [] blanks_nil endsNumber_nil).unique (h' [] [] blanks_nil endsNumber_nil)

/-- Blanks before the first token make no difference. -/
def SkipsBlanks (reader : Reader α) : Prop :=
  ∀ pad source, Blanks pad → reader (pad ++ source) = reader source

theorem skipsBlanks_peek : SkipsBlanks peek := by
  intro pad source blanks
  simp only [peek, dropWhile_blanks blanks]

theorem SkipsBlanks.bind {x : Reader α} (h : SkipsBlanks x) (f : α → Reader β) :
    SkipsBlanks (x >>= f) := by
  intro pad source blanks
  rw [bind_apply, bind_apply, h pad source blanks]

theorem SkipsBlanks.settles {reader : Reader α} (h : SkipsBlanks reader) {text : List Char}
    (here : ∀ rest, EndsNumber rest → Yields rest (reader (text.map .char ++ rest)) v) :
    Settles reader text v := by
  intro pad rest blanks ends
  rw [h pad _ blanks]
  exact here rest ends

theorem skipsBlanks_sight : SkipsBlanks sight := skipsBlanks_peek.bind _

end Outcomes

/-! ## Separated texts -/

/-- What stands behind the first item. -/
def followed (items : List (List Char)) : List Char := items.flatMap (',' :: ·)

theorem separated_cons (item : List Char) (items : List (List Char)) :
    separated (item :: items) = item ++ followed items := by
  induction items generalizing item with
  | nil => simp [separated, followed]
  | cons next items ih =>
    rw [separated, ih next]
    · simp [followed]
    · simp

/-- What stands up to the closing bracket, before the first of the texts or behind another. -/
def remaining : Bool → Pad → List (List Char) → List Char
  | true, pad, texts => inside pad texts
  | false, pad, texts => pad.text ++ followed texts

theorem endsNumber_remaining (pad : Pad) (texts : List (List Char)) {rest : Source}
    (ends : EndsNumber rest) : EndsNumber ((remaining false pad texts).map .char ++ rest) := by
  rw [remaining, List.map_append, List.append_assoc]
  refine EndsNumber.blanks ?_ pad.blanks
  cases texts with
  | nil => exact ends
  | cons text texts => exact endsNumber_comma _

theorem length_remaining (first : Bool) (pad : Pad) (text : List Char)
    (texts : List (List Char)) : text.length + (followed texts).length
      ≤ (remaining first pad (text :: texts)).length := by
  cases first with
  | true =>
    change _ ≤ (separated (text :: texts)).length
    rw [separated_cons, List.length_append]
  | false =>
    simp only [remaining, followed, List.flatMap_cons, List.length_append, List.length_cons]
    omega

/-! ## Lists -/

section Lists

variable {α : Type} {item : Reader α} {care : Care} {pad rest : Source}

theorem nextElement_closing (blanks : Blanks pad) (first : Bool) (rest : Source) :
    nextElement care first (pad ++ .char ']' :: rest) = .ok (false, .char ']' :: rest) := by
  unfold nextElement
  rw [bind_ok (peek_token blanks rfl _)]
  rfl

theorem nextElement_first (care : Care) (blanks : Blanks pad) {text : List Char} (starts : Starts text)
    (rest : Source) : nextElement care true (pad ++ (text.map .char ++ rest))
      = .ok (true, text.map .char ++ rest) := by
  obtain ⟨c, cs, rfl, token, closing⟩ := starts
  unfold nextElement
  rw [List.map_cons, List.cons_append, bind_ok (peek_token blanks token _)]
  generalize seen : some (Glyph.char c) = front
  split
  · cases seen
  · simp_all
  · rfl
  · rfl

/-- Behind the comma blanks are passed over in a list that is kept, and left in one that is skipped. -/
theorem nextElement_comma (care : Care) (blanks : Blanks pad) {pad' : Source} (blanks' : Blanks pad')
    {text : List Char} (starts : Starts text) (rest : Source) : ∃ pad'', Blanks pad'' ∧
    nextElement care false (pad ++ .char ',' :: (pad' ++ (text.map .char ++ rest)))
      = .ok (true, pad'' ++ (text.map .char ++ rest)) := by
  obtain ⟨c, cs, rfl, token, closing⟩ := starts
  unfold nextElement
  rw [bind_ok (peek_token blanks rfl _)]
  change ∃ pad'', _ ∧ (advance >>= fun _ => _) _ = _
  rw [bind_ok (advance_cons _ _)]
  cases care with
  | skipped => exact ⟨pad', blanks', rfl⟩
  | kept =>
    refine ⟨[], blanks_nil, ?_⟩
    change (peek >>= fun _ => _) _ = _
    rw [List.map_cons, List.cons_append, bind_ok (peek_token blanks' token _)]
    generalize seen : some (Glyph.char c) = front
    split
    · cases seen
    · simp_all
    · rfl

/-- One element, and then the others. -/
theorem elements_step {index : Nat} {source more tail : Source} {v : Option α}
    {vs : Option (List α)} (next : nextElement care (index = 0) source = .ok (true, more))
    (read : Yields tail (item more) v) (shorter : tail.length < source.length)
    (later : Yields rest (elements care item (index + 1) tail) vs) :
    Yields rest (elements care item index source) (v.bind fun x => vs.map (x :: ·)) := by
  rw [elements, next]
  dsimp only
  have read := read.within (.element index)
  generalize within (.element index) item more = outcome at read ⊢
  cases read with
  | fault fault => exact .fault fault
  | value x =>
    dsimp only
    rw [if_pos shorter]
    generalize elements care item (index + 1) tail = others at later ⊢
    cases later with
    | fault fault => exact .fault fault
    | value xs => exact .value (x :: xs)

/-- What the items yield together. -/
def together (vs : List (Option α)) : Option (List α) := vs.mapM id

theorem together_cons (v : Option α) (vs : List (Option α)) :
    together (v :: vs) = v.bind fun x => (together vs).map (x :: ·) := by
  unfold together
  rw [List.mapM_cons]
  cases v with
  | none => rfl
  | some x => cases vs.mapM id <;> rfl

theorem together_eq_some {vs : List (Option α)} {xs : List α} :
    together vs = some xs ↔ vs = xs.map some := by
  induction vs generalizing xs with
  | nil =>
    cases xs with
    | nil => exact ⟨fun _ => rfl, fun _ => rfl⟩
    | cons => exact ⟨nofun, nofun⟩
  | cons v vs ih =>
    rw [together_cons]
    cases v with
    | none => cases xs <;> exact ⟨nofun, nofun⟩
    | some x =>
      cases xs with
      | nil => simp
      | cons y ys => simp [ih, and_comm]

theorem together_some (xs : List α) : together (xs.map some) = some xs := together_eq_some.2 rfl

variable {items : List Item} {vs : List (Option α)}

/-- The item starts with a token and is settled. -/
structure Answered (item : Reader α) (i : Item) (v : Option α) : Prop where
  starts : Starts i.value
  settles : Settles item i.value v

theorem nextElement_none (first : Bool) (pad : Pad) (rest : Source) :
    nextElement care first ((remaining first pad []).map .char ++ .char ']' :: rest)
      = .ok (false, .char ']' :: rest) := by
  cases first with
  | true => exact nextElement_closing pad.blanks true rest
  | false =>
    rw [remaining, followed, List.flatMap_nil, List.append_nil]
    exact nextElement_closing pad.blanks false rest

theorem nextElement_item (care : Care) (first : Bool) (pad : Pad) {i : Item} (starts : Starts i.value)
    (items : List Item) (rest : Source) : ∃ pad', Blanks pad' ∧
    nextElement care first
        ((remaining first pad ((i :: items).map Item.text)).map .char ++ .char ']' :: rest)
      = .ok (true, pad' ++ (i.value.map .char ++
        ((remaining false i.after (items.map Item.text)).map .char ++ .char ']' :: rest))) := by
  cases first with
  | true =>
    refine ⟨[], blanks_nil, ?_⟩
    have next := nextElement_first care i.before.blanks starts
      ((remaining false i.after (items.map Item.text)).map .char ++ .char ']' :: rest)
    simpa [remaining, inside, separated_cons, Item.text] using next
  | false =>
    obtain ⟨pad', blanks, next⟩ := nextElement_comma care pad.blanks i.before.blanks
      starts ((remaining false i.after (items.map Item.text)).map .char ++ .char ']' :: rest)
    exact ⟨pad', blanks, by simpa [remaining, followed, Item.text] using next⟩

theorem shorter_items (first : Bool) (pad : Pad) {i : Item} (starts : Starts i.value)
    (items : List Item) (rest : Source) :
    ((remaining false i.after (items.map Item.text)).map Glyph.char ++ rest).length
      < ((remaining first pad ((i :: items).map Item.text)).map Glyph.char ++ rest).length := by
  obtain ⟨c, cs, front, -⟩ := starts
  have shorter := length_remaining first pad i.text (items.map Item.text)
  simp only [List.map_cons, Item.text, remaining, front, List.length_append, List.length_cons,
    List.length_map] at shorter ⊢
  omega

theorem elements_settled (h : List.Forall₂ (Answered item) items vs) (index : Nat) (pad : Pad) :
    Yields (.char ']' :: rest) (elements care item index
      ((remaining (index = 0) pad (items.map Item.text)).map .char ++ .char ']' :: rest))
      (together vs) := by
  -- Over the items that are left; `index` and `pad` are those of the first of them.
  induction h generalizing index pad with
  | nil =>
    rw [elements, List.map_nil, nextElement_none]
    exact .value []
  | @cons i v items vs first others ih =>
    obtain ⟨pad', blanks, next⟩ :=
      nextElement_item care (index = 0) pad first.starts items rest
    rw [together_cons]
    exact elements_step next
      (first.settles pad' _ blanks (endsNumber_remaining i.after _ (endsNumber_bracket rest)))
      (shorter_items _ pad first.starts items _) (ih (index + 1) i.after)

theorem closeList_here (rest : Source) : closeList (.char ']' :: rest) = .ok ((), rest) := by
  unfold closeList
  rw [bind_ok (peek_here rfl _)]
  rfl

end Lists

/-! ## Objects -/

section Objects

variable {σ : Type} {care : Care} {name : Reader String} {pad rest : Source}

theorem nextMember_comma (care : Care) (blanks : Blanks pad) {pad' : Source} (blanks' : Blanks pad')
    (rest : Source) : nextMember care false (pad ++ .char ',' :: (pad' ++ .char '"' :: rest))
      = .ok (true, .char '"' :: rest) := by
  unfold nextMember
  rw [bind_ok (peek_token blanks rfl _)]
  change (advance >>= fun _ => _) _ = _
  rw [bind_ok (advance_cons _ _)]
  change (peek >>= fun _ => _) _ = _
  rw [bind_ok (peek_token blanks' rfl _)]
  rfl

/-- What the pieces of a name are read as, behind the opening mark. -/
def Calls (name : Reader String) (ps : List Piece) (key : Option String) : Prop :=
  ∀ rest, Yields rest (name ((spelling ps).map .char ++ .char '"' :: rest)) key

theorem nextName_called {first : Bool} {source : Source} {ps : List Piece} {key : Option String}
    (next : nextMember care first source
      = .ok (true, .char '"' :: ((spelling ps).map .char ++ .char '"' :: rest)))
    (called : Calls name ps key) :
    Yields rest (nextName care name first source) (key.map some) := by
  refine Yields.within ?_ .unnamed
  rw [bind_ok next]
  change Yields rest ((advance >>= fun _ => _) _) _
  rw [bind_ok (advance_cons _ _)]
  change Yields rest ((name >>= fun key => pure (some key)) _) _
  rw [Option.map_eq_bind]
  exact (called rest).bind fun key _ => .value _

/-- What becomes of the state over the members of an object. -/
inductive Turns (name : Reader String) (member : String → σ → Except Cause (Reader σ)) :
    List Member → σ → Option σ → Prop where
  | nil (s : σ) : Turns name member [] s (some s)
  | unnamed {m : Member} {ms : List Member} {s : σ} (called : Calls name m.name none) :
    Turns name member (m :: ms) s none
  | refused {m : Member} {ms : List Member} {s : σ} {key : String} {cause : Cause}
    (called : Calls name m.name (some key)) (refused : member key s = .error cause) :
    Turns name member (m :: ms) s none
  | unread {m : Member} {ms : List Member} {s : σ} {key : String} {reader : Reader σ}
    (called : Calls name m.name (some key)) (known : member key s = .ok reader)
    (unread : Settles reader m.item.value none) : Turns name member (m :: ms) s none
  | step {m : Member} {ms : List Member} {s t : σ} {v : Option σ} {key : String} {reader : Reader σ}
    (called : Calls name m.name (some key)) (known : member key s = .ok reader)
    (read : Settles reader m.item.value (some t)) (more : Turns name member ms t v) :
    Turns name member (m :: ms) s v

variable {member : String → σ → Except Cause (Reader σ)} {ms : List Member} {s : σ} {v : Option σ}

/-- One member, and then the others. -/
theorem members_turn {m : Member} {first : Bool} {source tail : Source}
    (next : nextMember care first source
      = .ok (true, .char '"' :: ((spelling m.name).map .char ++ .char '"' ::
        (m.after.text.map .char ++ .char ':' :: (m.item.before.text.map .char ++
          (m.item.value.map .char ++ tail))))))
    (ends : EndsNumber tail) (shorter : tail.length < source.length)
    (later : ∀ t v, Turns name member ms t v →
      Yields rest (members care name member false t tail) v)
    (h : Turns name member (m :: ms) s v) :
    Yields rest (members care name member first s source) v := by
  rw [members]
  -- Three ways in which a member stops the reading, and one in which it goes on.
  cases h with
  | unnamed called =>
    obtain ⟨fault, named⟩ := (nextName_called next called).eq_error
    rw [named]
    exact .fault fault
  | refused called refused =>
    rw [(nextName_called next called).eq_ok]
    dsimp only
    rw [refused]
    exact .fault _
  | @unread _ _ _ key reader called known unread =>
    obtain ⟨fault, read⟩ :=
      ((unread _ tail m.item.before.blanks ends).within (.member key)).eq_error
    rw [(nextName_called next called).eq_ok]
    dsimp only
    rw [known]
    dsimp only
    rw [bind_ok (colon_padded m.after.blanks _), read]
    exact .fault fault
  | @step _ _ _ t _ key reader called known read more =>
    have read := ((read _ tail m.item.before.blanks ends).within (.member key)).eq_ok
    rw [(nextName_called next called).eq_ok]
    dsimp only
    rw [known]
    dsimp only
    rw [bind_ok (colon_padded m.after.blanks _), read]
    dsimp only
    rw [if_pos shorter]
    exact later t v more

theorem nextMember_none (first : Bool) (pad : Pad) (rest : Source) :
    nextMember care first ((remaining first pad []).map .char ++ .char '}' :: rest)
      = .ok (false, .char '}' :: rest) := by
  cases first with
  | true => exact nextMember_closing pad.blanks true rest
  | false =>
    rw [remaining, followed, List.flatMap_nil, List.append_nil]
    exact nextMember_closing pad.blanks false rest

theorem nextMember_member (care : Care) (first : Bool) (pad : Pad) (m : Member) (ms : List Member)
    (rest : Source) : nextMember care first
        ((remaining first pad ((m :: ms).map Member.text)).map .char ++ .char '}' :: rest)
      = .ok (true, .char '"' :: ((spelling m.name).map .char ++ .char '"' ::
        (m.after.text.map .char ++ .char ':' :: (m.item.before.text.map .char ++
          (m.item.value.map .char ++ ((remaining false m.item.after (ms.map Member.text)).map .char
            ++ .char '}' :: rest)))))) := by
  cases first with
  | true =>
    have next := nextMember_first care m.before.blanks
    simpa [remaining, inside, separated_cons, Member.text, Item.text, quoted] using next _
  | false =>
    have next := nextMember_comma care pad.blanks m.before.blanks
    simpa [remaining, followed, Member.text, Item.text, quoted] using next _

theorem shorter_members (first : Bool) (pad : Pad) (m : Member) (ms : List Member)
    (rest : Source) :
    ((remaining false m.item.after (ms.map Member.text)).map Glyph.char ++ rest).length
      < ((remaining first pad ((m :: ms).map Member.text)).map Glyph.char ++ rest).length := by
  have shorter := length_remaining first pad m.text (ms.map Member.text)
  simp only [List.map_cons, Member.text, Item.text, quoted, remaining, List.length_append,
    List.length_cons, List.length_map] at shorter ⊢
  omega

theorem members_settled (h : Turns name member ms s v) (first : Bool) (pad : Pad) :
    Yields (.char '}' :: rest) (members care name member first s
      ((remaining first pad (ms.map Member.text)).map .char ++ .char '}' :: rest)) v := by
  induction ms generalizing s v first pad with
  | nil =>
    cases h
    have ended : nextName care name first _ = _ :=
      within_ok ((bind_ok (nextMember_none first pad rest)).trans rfl)
    rw [members, List.map_nil, ended]
    exact .value s
  | cons m ms ih =>
    exact members_turn (nextMember_member care first pad m ms rest)
      (endsNumber_remaining m.item.after _ (endsNumber_brace rest))
      (shorter_members first pad m ms _) (fun t v more => ih more false m.item.after) h

end Objects

end LayeredPreferences.Json

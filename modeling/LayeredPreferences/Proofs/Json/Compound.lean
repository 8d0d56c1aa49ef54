import LayeredPreferences.Proofs.Json.Deciding

set_option autoImplicit false

/-!
# Lists, variants and records

What is read of a list or of an object depends only on what is read of its elements or members.
-/
namespace LayeredPreferences

namespace Json

/-! ## Values that may be missing -/

section Compound

variable {α : Type} {text : List Char} {room : Nat}

theorem settles_optional_null (shape : Shaped α) (room : Nat) :
    Settles (optional shape room) nullWord (some none) := by
  intro pad rest blanks _
  unfold optional
  change Yields rest ((peek >>= _) (pad ++ .char 'n' :: _)) _
  rw [bind_ok (peek_token blanks rfl _)]
  change Yields rest ((do keyword nullWord; pure none : Reader (Option α))
    (nullWord.map .char ++ rest)) _
  rw [bind_ok (keyword_word nullWord rest)]
  exact .value none

theorem settles_optional {shape : Shaped α} {v : Option α} {c : Char} {cs : List Char}
    (token : (Glyph.char c).isBlank = false) (other : c ≠ 'n')
    (h : Settles (shape room) (c :: cs) v) :
    Settles (optional shape room) (c :: cs) (v.map some) := by
  intro pad rest blanks ends
  have read := h [] rest blanks_nil ends
  unfold optional
  rw [List.map_cons, List.cons_append] at read ⊢
  rw [bind_ok (peek_token blanks token _)]
  generalize seen : some (Glyph.char c) = front
  split
  · simp_all
  · rw [Option.map_eq_bind]
    exact read.bind fun x _ => .value _

theorem settles_optional_value {shape : Shaped α} {v : Option α} (value : IsValue text)
    (given : text ≠ nullWord) (h : Settles (shape room) text v) :
    Settles (optional shape room) text (v.map some) := by
  obtain ⟨c, cs, rfl, token, other⟩ := value.null_or.resolve_left given
  exact settles_optional token other h

theorem decides_optional {shape : Shaped α} (h : Decides (shape room)) :
    Decides (optional shape room) := by
  intro text value
  rcases value.null_or with rfl | ⟨c, cs, rfl, token, other⟩
  · exact ⟨_, settles_optional_null shape room⟩
  · obtain ⟨v, read⟩ := h value
    exact ⟨_, settles_optional token other read⟩

/-! ## Lists -/

section Lists

variable {item : Shaped α} {items : List Item} {vs : List (Option α)}

theorem settles_list (h : List.Forall₂ (Answered (item room)) items vs) (pad : Pad) :
    Settles (list item (room + 1)) (listText pad items) (together vs) := by
  unfold list
  refine (skipsBlanks_sight.bind _).settles fun rest _ => ?_
  rw [bind_ok (sight_listText pad items rest)]
  change Yields rest ((do
    let items ← elements .kept (item room) 0
    closeList
    pure items : Reader (List α)) _) _
  rw [← Option.bind_fun_some (together vs)]
  refine (elements_settled h 0 pad).bind fun xs _ => ?_
  rw [bind_ok (closeList_here rest)]
  exact .value xs

theorem answered_values {reader : Reader α} (h : Decides reader)
    (values : ∀ i ∈ items, IsValue i.value) : ∃ vs, List.Forall₂ (Answered reader) items vs := by
  induction items with
  | nil => exact ⟨[], .nil⟩
  | cons i items ih =>
    have value := values i (by simp)
    obtain ⟨v, settles⟩ := h value
    obtain ⟨vs, others⟩ := ih fun i hi => values i (by simp [hi])
    exact ⟨v :: vs, .cons ⟨value.starts, settles⟩ others⟩

theorem decides_list (h : ∀ room, Decides (item room)) (room : Nat) : Decides (list item room) := by
  intro text value
  cases value with
  | token token =>
    obtain ⟨v, seen, list, -⟩ := token.settles_sight
    refine ⟨none, fun pad rest blanks ends => ?_⟩
    unfold Json.list
    rw [← Option.bind_fun_none v]
    refine (seen pad rest blanks ends).bind fun found some => ?_
    split
    · exact absurd some list
    · exact .fault _
  | list pad values =>
    cases room with
    | zero =>
      refine ⟨none, (skipsBlanks_sight.bind _).settles fun rest _ => ?_⟩
      rw [bind_ok (sight_listText pad _ rest)]
      exact .fault _
    | succ room =>
      obtain ⟨vs, answered⟩ := answered_values (h room) values
      exact ⟨_, settles_list answered pad⟩
  | object pad names values =>
    refine ⟨none, (skipsBlanks_sight.bind _).settles fun rest _ => ?_⟩
    rw [bind_ok (sight_objectText pad _ rest)]
    exact .fault _

end Lists

/-! ## Variants -/

section Variants

variable {known : List (String × α)}

theorem settles_string {ps : List Piece} {key : Option String} (called : Calls quotation ps key)
    (room : Nat) : Settles (string room) (quoted ps) key := by
  intro pad rest blanks ends
  have seen := settles_sight_quoted called pad rest blanks ends
  unfold string
  cases key with
  | none => exact seen.stop _ rest
  | some s => exact seen.andThen (.value s)

theorem yields_choose (known : List (String × α)) (s : String) (source : Source) :
    Yields source (variant.choose known s source) (known.lookup s) := by
  unfold variant.choose
  cases known.lookup s with
  | none => exact .fault _
  | some x => exact .value x

theorem settles_variant_quoted {ps : List Piece} {key : Option String}
    (called : Calls quotation ps key) (room : Nat) :
    Settles (variant known room) (quoted ps) (key.bind fun s => known.lookup s) := by
  intro pad rest blanks ends
  have read := settles_string called room [] rest blanks_nil ends
  unfold variant
  change Yields rest ((peek >>= _) (pad ++ .char '"' :: _)) _
  rw [bind_ok (peek_token blanks rfl _)]
  exact read.bind fun s _ => yields_choose known s rest

/-- The object that stands for a variant has one member, of the value `null`. -/
theorem decides_variant_object (pad : Pad) {members : List Member}
    (names : ∀ m ∈ members, WellSpelled m.name) (values : ∀ m ∈ members, IsValue m.item.value) :
    ∃ v, Settles (variant known room) (objectText pad members) v := by
  have source (rest : Source) : (objectText pad members).map Glyph.char ++ rest = .char '{' ::
      ((remaining true pad (members.map Member.text)).map .char ++ .char '}' :: rest) := by
    simp [objectText, remaining]
  have opens : SkipsBlanks (variant known room) := by
    unfold variant
    exact skipsBlanks_peek.bind _
  cases room with
  | zero =>
    refine ⟨none, opens.settles fun rest _ => ?_⟩
    unfold variant
    rw [source, bind_ok (peek_here rfl _)]
    exact .fault _
  | succ room =>
    cases members with
    | nil =>
      refine ⟨none, opens.settles fun rest _ => ?_⟩
      unfold variant
      rw [source, bind_ok (peek_here rfl _)]
      change Yields rest ((advance >>= fun _ => nextMember .kept true >>= _) _) _
      rw [bind_ok (advance_cons _ _), List.map_nil, bind_ok (nextMember_none true pad rest)]
      exact .fault _
    | cons m members =>
      obtain ⟨key, called⟩ := calls_quotation (names m (by simp))
      obtain ⟨w, nulled⟩ := decides_null (values m (by simp))
      refine ⟨key.bind fun s => (known.lookup s).bind fun x => w.bind fun _ =>
        if members = [] then some x else none, opens.settles fun rest _ => ?_⟩
      unfold variant
      rw [source, bind_ok (peek_here rfl _)]
      change Yields rest ((advance >>= fun _ => nextMember .kept true >>= _) _) _
      rw [bind_ok (advance_cons _ _), bind_ok (nextMember_member .kept true pad m members rest)]
      let tail : Source := (remaining false m.item.after (members.map Member.text)).map .char
        ++ .char '}' :: rest
      let more : Source := m.after.text.map .char ++ .char ':' ::
        (m.item.before.text.map .char ++ (m.item.value.map .char ++ tail))
      have behind : EndsNumber more := (endsNumber_colon _).blanks m.after.blanks
      have ends : EndsNumber tail := endsNumber_remaining m.item.after _ (endsNumber_brace rest)
      have name := settles_string called room [] more blanks_nil behind
      have spelled : ([] : Source) ++ ((quoted m.name).map .char ++ more)
          = .char '"' :: ((spelling m.name).map .char ++ .char '"' :: more) := by
        simp [quoted]
      rw [spelled] at name
      refine name.bind fun s _ => (yields_choose known s more).bind fun x _ => ?_
      rw [bind_ok (colon_padded m.after.blanks _)]
      refine (nulled _ tail m.item.before.blanks ends).bind fun _ _ => ?_
      -- Behind the only member nothing but the closing bracket is accepted.
      cases members with
      | nil =>
        rw [if_pos rfl]
        have ended : peek tail = .ok (some (.char '}'), .char '}' :: rest) := by
          simpa [tail, remaining, followed] using peek_token m.item.after.blanks rfl rest
        rw [bind_ok ended]
        exact .value x
      | cons m' members =>
        rw [if_neg (by simp)]
        have another : ∃ source, peek tail = .ok (some (.char ','), .char ',' :: source) :=
          ⟨_, by simpa [tail, remaining, followed] using peek_token m.item.after.blanks rfl _⟩
        obtain ⟨source, another⟩ := another
        rw [bind_ok another]
        exact .fault _

theorem settles_variant_other {c : Char} (cs : List Char) (token : (Glyph.char c).isBlank = false)
    (quote : c ≠ '"') (brace : c ≠ '{') : Settles (variant known room) (c :: cs) none := by
  intro pad rest blanks _
  unfold variant
  rw [List.map_cons, List.cons_append, bind_ok (peek_token blanks token _)]
  generalize seen : some (Glyph.char c) = front
  split
  · cases seen
  · simp_all
  · simp_all
  · exact .fault _

theorem decides_variant (known : List (String × α)) (room : Nat) :
    Decides (variant known room) := by
  intro text value
  cases value with
  | token token =>
    cases token with
    | null => exact ⟨none, settles_variant_other _ rfl (by decide) (by decide)⟩
    | boolean b =>
      cases b with
      | false => exact ⟨none, settles_variant_other _ rfl (by decide) (by decide)⟩
      | true => exact ⟨none, settles_variant_other _ rfl (by decide) (by decide)⟩
    | number wellFormed capital plus =>
      obtain ⟨c, cs, front, first⟩ := Literal.front_spelled wellFormed capital plus
      rw [front]
      refine ⟨none, settles_variant_other cs (isBlank_number first) ?_ ?_⟩
      · rintro rfl
        exact absurd first (by decide)
      · rintro rfl
        exact absurd first (by decide)
    | string wellSpelled =>
      obtain ⟨key, called⟩ := calls_quotation wellSpelled
      exact ⟨_, settles_variant_quoted called room⟩
  | list pad values => exact ⟨none, settles_variant_other _ rfl (by decide) (by decide)⟩
  | object pad names values => exact decides_variant_object pad names values

end Variants

/-! ## Records -/

section Records

variable {ρ : Type} {fields : List (Field ρ)}

theorem Decides.map {β : Type} {reader : Reader α} (h : Decides reader) (f : α → β) :
    Decides (do return f (← reader)) := by
  intro text value
  obtain ⟨v, read⟩ := h value
  exact ⟨_, fun pad rest blanks ends => (read pad rest blanks ends).bind fun x _ => .value (f x)⟩

theorem decides_skipped : Decides skipped := fun _ value => ⟨_, value.skipped⟩

theorem decides_recordMember (reads : ∀ field ∈ fields, Decides (field.read room)) {key : String}
    {state : List String × ρ} {reader : Reader (List String × ρ)}
    (h : recordMember fields room key state = .ok reader) : Decides reader := by
  unfold recordMember at h
  split at h
  · cases h
    exact decides_skipped.map _
  · rename_i field found
    split at h
    · cases h
    · cases h
      exact (reads field (List.mem_of_find?_eq_some found)).map _

theorem turns_record (reads : ∀ field ∈ fields, Decides (field.read room)) {members : List Member}
    (names : ∀ m ∈ members, WellSpelled m.name) (values : ∀ m ∈ members, IsValue m.item.value)
    (state : List String × ρ) :
    ∃ v, Turns quotation (recordMember fields room) members state v := by
  induction members generalizing state with
  | nil => exact ⟨_, .nil state⟩
  | cons m members ih =>
    obtain ⟨key, called⟩ := calls_quotation (names m (by simp))
    cases key with
    | none => exact ⟨none, .unnamed called⟩
    | some key =>
      cases known : recordMember fields room key state with
      | error cause => exact ⟨none, .refused called known⟩
      | ok reader =>
        obtain ⟨v, read⟩ := decides_recordMember reads known (values m (by simp))
        cases v with
        | none => exact ⟨none, .unread called known read⟩
        | some next =>
          obtain ⟨v, more⟩ := ih (fun m hm => names m (by simp [hm]))
            (fun m hm => values m (by simp [hm])) next
          exact ⟨v, .step called known read more⟩

/-- The record of an object, if all fields that must appear do. -/
def recordOf (fields : List (Field ρ)) (state : List String × ρ) : Option ρ :=
  match fields.find? fun field => field.mustAppear && !state.1.contains field.name with
  | some _ => none
  | none => some state.2

theorem settles_record (title : String) {empty : ρ} {members : List Member}
    {v : Option (List String × ρ)}
    (turns : Turns quotation (recordMember fields room) members ([], empty) v) (pad : Pad) :
    Settles (record title fields empty (room + 1)) (objectText pad members)
      (v.bind (recordOf fields)) := by
  refine (skipsBlanks_sight.bind _).settles fun rest _ => ?_
  rw [bind_ok (sight_objectText pad members rest)]
  let inside : Reader (List String × ρ) :=
    Json.members .kept quotation (recordMember fields room) true ([], empty)
  change Yields rest ((inside >>= _) _) _
  refine (members_settled turns true pad).bind fun state _ => ?_
  unfold recordOf
  dsimp only
  generalize fields.find? _ = missing
  cases missing with
  | some field => exact .fault _
  | none =>
    dsimp only
    rw [bind_ok (closeObject_here rest)]
    exact .value _

/-! Records as lists. -/

theorem closeList_none (first : Bool) (pad : Pad) (rest : Source) :
    closeList ((remaining first pad []).map .char ++ .char ']' :: rest) = .ok ((), rest) := by
  have ended : peek ((remaining first pad []).map .char ++ .char ']' :: rest)
      = .ok (some (.char ']'), .char ']' :: rest) := by
    cases first with
    | true => exact peek_token pad.blanks rfl rest
    | false => simpa [remaining, followed] using peek_token pad.blanks rfl rest
  unfold closeList
  rw [bind_ok ended]
  rfl

theorem closeList_more {first : Bool} {source more : Source}
    (next : nextElement .kept first source = .ok (true, more)) :
    Yields more (closeList source) none := by
  unfold nextElement at next
  obtain ⟨front, middle, peeked, chosen⟩ := bind_inv next
  unfold closeList
  rw [bind_ok peeked]
  split at chosen
  · exact .fault _
  · cases chosen
  · have stepped : advance middle = .ok ((), middle.tail) := rfl
    have seen : peek middle.tail = .ok (_, _) := rfl
    change Yields more ((advance >>= fun _ => peek >>= _) middle) none
    rw [bind_ok stepped, bind_ok seen]
    generalize List.head? _ = front
    split <;> exact .fault _
  · exact .fault _

theorem bind_then {β γ : Type} {x : Reader α} {f : α → Reader β} {g : β → Reader γ}
    {source rest : Source} {a : α} (h : x source = .ok (a, rest)) :
    ((x >>= f) >>= g) source = (f a >>= g) rest := by
  rw [bind_apply, bind_ok h, ← bind_apply]

/-- The induction is on the fields that are left, for the elements that are left to them. -/
theorem recordElements_decided (reads : ∀ field ∈ fields, Decides (field.read room)) (title : String)
    (total index : Nat) {items : List Item} (values : ∀ i ∈ items, IsValue i.value) (e : ρ)
    (pad : Pad) : ∃ v, ∀ rest, Yields rest
      ((recordElements title total room fields index e >>= fun result => do closeList; pure result)
        ((remaining (index = 0) pad (items.map Item.text)).map .char ++ .char ']' :: rest)) v := by
  induction fields generalizing index items e pad with
  | nil =>
    cases items with
    | nil =>
      refine ⟨some e, fun rest => ?_⟩
      rw [recordElements, bind_ok (pure_apply e _), List.map_nil, bind_ok (closeList_none _ pad rest)]
      exact .value e
    | cons i items =>
      refine ⟨none, fun rest => ?_⟩
      obtain ⟨pad', -, next⟩ := nextElement_item .kept (index = 0) pad
        (values i (by simp)).starts items rest
      rw [recordElements, bind_ok (pure_apply e _)]
      exact (closeList_more next).stop _ rest
  | cons field fields ih =>
    have later : ∀ f ∈ fields, Decides (f.read room) := fun f hf => reads f (by simp [hf])
    cases items with
    | nil =>
      by_cases must : field.mustAppear
      · refine ⟨none, fun rest => ?_⟩
        rw [recordElements, List.map_nil, bind_then (nextElement_none _ pad rest), if_neg nofun,
          if_pos must]
        exact .fault _
      · obtain ⟨v, others⟩ := @ih later (index + 1) [] nofun e .none
        refine ⟨v, fun rest => ?_⟩
        rw [recordElements, List.map_nil, bind_then (nextElement_none _ pad rest), if_neg nofun,
          if_neg must]
        exact others rest
    | cons i items =>
      obtain ⟨v, read⟩ := reads field (by simp) (values i (by simp))
      have ends (rest : Source) := endsNumber_remaining i.after (items.map Item.text)
        (endsNumber_bracket rest)
      have next (rest : Source) := nextElement_item .kept (index = 0) pad
        (values i (by simp)).starts items rest
      cases v with
      | none =>
        refine ⟨none, fun rest => ?_⟩
        obtain ⟨pad', blanks, next⟩ := next rest
        rw [recordElements, bind_then next, if_pos rfl]
        exact (((read pad' _ blanks (ends rest)).within _).stop _ rest).stop _ rest
      | some put =>
        obtain ⟨v, others⟩ := @ih later (index + 1) items
          (fun i hi => values i (by simp [hi])) (put e) i.after
        refine ⟨v, fun rest => ?_⟩
        obtain ⟨pad', blanks, next⟩ := next rest
        rw [recordElements, bind_then next, if_pos rfl,
          bind_then ((read pad' _ blanks (ends rest)).within (.element index)).eq_ok]
        exact others rest

theorem decides_record (title : String) (reads : ∀ room, ∀ field ∈ fields, Decides (field.read room))
    (empty : ρ) (room : Nat) : Decides (record title fields empty room) := by
  intro text value
  have skips : SkipsBlanks (record title fields empty room) := skipsBlanks_sight.bind _
  cases value with
  | token token =>
    obtain ⟨v, seen, list, object⟩ := token.settles_sight
    refine ⟨none, fun pad rest blanks ends => ?_⟩
    unfold record
    rw [← Option.bind_fun_none v]
    refine (seen pad rest blanks ends).bind fun found some => ?_
    split
    · exact absurd some list
    · exact absurd some object
    · exact .fault _
  | @list pad items values =>
    cases room with
    | zero =>
      refine ⟨none, skips.settles fun rest _ => ?_⟩
      unfold record
      rw [bind_ok (sight_listText pad _ rest)]
      exact .fault _
    | succ room =>
      obtain ⟨v, read⟩ :=
        recordElements_decided (reads room) title fields.length 0 values empty pad
      refine ⟨v, skips.settles fun rest _ => ?_⟩
      unfold record
      rw [bind_ok (sight_listText pad _ rest)]
      exact read rest
  | @object pad members names values =>
    cases room with
    | zero =>
      refine ⟨none, skips.settles fun rest _ => ?_⟩
      unfold record
      rw [bind_ok (sight_objectText pad _ rest)]
      exact .fault _
    | succ room =>
      obtain ⟨v, turns⟩ := turns_record (reads room) names values ([], empty)
      exact ⟨_, settles_record title turns pad⟩

end Records

/-! ## Texts of one value -/

theorem parse_settled {shape : Shaped α} {i : Item} {v : Option α}
    (h : Settles (shape roomAtStart) i.value v) {x : α} :
    parse shape (.ofString (String.ofList i.text)) = .ok x ↔ v = some x := by
  have read := h _ _ i.before.blanks (endsNumber_blanks i.after.blanks)
  rw [← List.map_append, ← List.map_append] at read
  change Yields _ (shape roomAtStart (i.text.map .char)) v at read
  rw [ofString_ofList]
  unfold parse
  cases v with
  | none =>
    obtain ⟨fault, refused⟩ := read.eq_error
    rw [whole_error refused]
    exact ⟨nofun, nofun⟩
  | some y =>
    rw [whole_ok read.eq_ok (List.all_eq_true.2 i.after.blanks)]
    simp

end Compound

end Json

open Json

namespace Value

theorem settles_token {text : List Char} {v : Option Sight} (seen : Settles sight text v)
    (list : v ≠ some .list) (object : v ≠ some .object) (room : Nat) :
    Settles (shape room) text (v.bind ofSight?) := by
  intro pad rest blanks ends
  have seen := seen pad rest blanks ends
  cases v with
  | none =>
    generalize read : shape room _ = outcome
    rcases outcome with fault | ⟨w, more⟩
    · exact .fault fault
    · obtain ⟨found, seen', -⟩ := shape_inv read
      obtain ⟨fault, stopped⟩ := seen.eq_error
      rw [stopped] at seen'
      cases seen'
  | some found =>
    have kept := kept_of_sight seen.eq_ok (fun same => list (congrArg some same))
      (fun same => object (congrArg some same)) room
    unfold shape
    rw [bind_ok kept, Option.bind_some]
    cases ofSight? found with
    | none => exact .fault _
    | some w => exact .value w

/-- A list or an object is read to its end before it is refused. -/
theorem shape_bracket {room : Nat} {source rest more : Source} {found : Sight}
    (seen : sight source = .ok (found, more)) (none : ofSight? found = none) :
    Yields rest (shape room source) Option.none := by
  generalize read : shape room source = outcome
  rcases outcome with fault | ⟨w, more⟩
  · exact .fault fault
  · obtain ⟨found', seen', value⟩ := shape_inv read
    rw [seen] at seen'
    cases seen'
    rw [none] at value
    cases value

theorem skipsBlanks_shape (room : Nat) : SkipsBlanks (shape room) := by
  have kept : SkipsBlanks (kept room) := by
    cases room with
    | zero => exact skipsBlanks_sight.bind _
    | succ room => exact skipsBlanks_sight.bind _
  exact kept.bind _

theorem decides_shape (room : Nat) : Decides (shape room) := by
  intro text value
  cases value with
  | token token =>
    obtain ⟨v, seen, list, object⟩ := token.settles_sight
    exact ⟨_, settles_token seen list object room⟩
  | list pad values =>
    exact ⟨none, (skipsBlanks_shape room).settles fun rest _ =>
      shape_bracket (sight_listText pad _ rest) rfl⟩
  | object pad names values =>
    exact ⟨none, (skipsBlanks_shape room).settles fun rest _ =>
      shape_bracket (sight_objectText pad _ rest) rfl⟩

end Value

end LayeredPreferences

import LayeredPreferences.Proofs.Definition.Entry
import LayeredPreferences.Proofs.Definition.Meaning
import LayeredPreferences.Proofs.Traversal
import Mathlib.Logic.Relation

set_option autoImplicit false

/-!
# Definitions that are spelled differently

A definition has the same meaning however its members are ordered, whatever else stands among them,
whether what is left out is spelled out, and whatever is said about the half of the domain that is not
used.
-/
namespace LayeredPreferences

open Json

namespace Entry

/-! ## Texts of parts -/

/-- A string, a boolean, or a number that is in reach. -/
inductive IsScalar : List Char → Prop where
  | boolean (b : Bool) : IsScalar (writeBool b)
  | number {l : Literal} {n : Number} (wellFormed : l.WellFormed) (capital plus : Bool)
    (inReach : number ((l.spelled capital plus).map .char) = .ok (n, [])) :
    IsScalar (l.spelled capital plus)
  | string {ps : List Piece} {cs : List Char} (wellSpelled : WellSpelled ps)
    (denotes : Denotes ps cs) : IsScalar (quoted ps)

theorem IsScalar.isValue {text : List Char} (h : IsScalar text) : IsValue text := by
  cases h with
  | boolean b => exact .token (.boolean b)
  | number wellFormed capital plus => exact .token (.number wellFormed capital plus)
  | string wellSpelled => exact .token (.string wellSpelled)

theorem IsScalar.settles {text : List Char} (h : IsScalar text) (room : Nat) :
    ∃ v, Settles (Value.shape room) text (some v) := by
  cases h with
  | boolean b =>
    have seen : Settles sight (writeBool b) (some (.boolean b)) := by
      intro pad rest blanks _
      rw [sight_writeBool blanks]
      exact .value _
    exact ⟨_, Value.settles_token seen nofun nofun room⟩
  | @number l n wellFormed capital plus inReach =>
    -- Whether a number is in reach does not depend on what stands behind it.
    obtain ⟨v, read⟩ := number_decided wellFormed capital plus
    have here := read [] endsNumber_nil
    rw [List.append_nil, inReach] at here
    cases here
    have seen := settles_sight_number wellFormed capital plus read
    have settles := Value.settles_token seen nofun nofun room
    cases n with
    | integer n => exact ⟨_, settles⟩
    | real x => exact ⟨_, settles⟩
  | string wellSpelled denotes =>
    have seen := settles_sight_quoted (calls_denoted wellSpelled denotes)
    exact ⟨_, Value.settles_token seen nofun nofun room⟩

/-- An object of two integers, of which the first may be greater. -/
inductive IsRange : List Char → Prop where
  | object {range : ValueRange} {c : Contents} {text : List Char} (members : range.Members c)
    (object : IsObject c text) : IsRange text

theorem IsRange.settles {text : List Char} (h : IsRange text) (room : Nat) :
    ∃ range, Settles (Json.optional ValueRange.shape (room + 1)) text (some (some range)) := by
  cases h with
  | @object range _ _ members object =>
    have given : text ≠ nullWord := by
      cases object with
      | object pad tells => simp [objectText, nullWord]
    exact ⟨range, settles_optional_value object.isValue given (members.settles object room)⟩

section Lists

variable {α : Type} {item : Shaped α} {items : List Item} {room : Nat}

theorem exists_answers {reader : Reader α}
    (h : ∀ i ∈ items, ∃ x, Answered reader i (some x)) :
    ∃ xs : List α, List.Forall₂ (Answered reader) items (xs.map some) := by
  induction items with
  | nil => exact ⟨[], .nil⟩
  | cons i items ih =>
    obtain ⟨x, first⟩ := h i (by simp)
    obtain ⟨xs, others⟩ := ih fun i hi => h i (by simp [hi])
    exact ⟨x :: xs, .cons first others⟩

end Lists

theorem settles_allowed {items : List Item} (scalars : ∀ i ∈ items, IsScalar i.value) (pad : Pad)
    (room : Nat) : ∃ vs, Settles (Json.optional (list Value.shape) (room + 1)) (listText pad items)
      (some (some vs)) := by
  obtain ⟨vs, answered⟩ : ∃ vs : List Value,
      List.Forall₂ (Answered (Value.shape room)) items (vs.map some) := by
    refine exists_answers fun i hi => ?_
    obtain ⟨v, read⟩ := (scalars i hi).settles room
    exact ⟨v, (scalars i hi).isValue.starts, read⟩
  have read := settles_list answered pad
  rw [together_some] at read
  exact ⟨vs, settles_optional rfl (by decide) read⟩

theorem settles_repeated {front back : List Item} {first again : Item}
    (values : ∀ i ∈ front ++ back, IsValue i.value) (member : first ∈ front)
    (same : again.value = first.value) {pad : Pad} {scopes : List Scope} {room : Nat}
    (h : Settles (list Scope.shape (room + 1)) (listText pad (front ++ back)) (some scopes))
    (pad' : Pad) : ∃ scopes', Draft.merge [] scopes = Draft.merge [] scopes' ∧
      Settles (list Scope.shape (room + 1)) (listText pad' (front ++ again :: back))
        (some scopes') := by
  obtain ⟨vs, before⟩ := answered_values (Scope.decides_shape room) fun i hi =>
    values i (List.mem_append_left back hi)
  obtain ⟨ws, behind⟩ := answered_values (Scope.decides_shape room) fun i hi =>
    values i (List.mem_append_right front hi)
  have all := (settles_list (List.rel_append before behind) pad).unique h
  obtain ⟨ss, ts, rfl, rfl, rfl⟩ := List.map_eq_append_iff.1 (together_eq_some.1 all).symm
  -- The text that comes again is that of a scope in front of it.
  obtain ⟨v, mem, answered⟩ := exists_of_forall₂ before member
  obtain ⟨scope, old, rfl⟩ := List.mem_map.1 mem
  have answered : Answered (Scope.shape room) again (some scope) := by
    refine ⟨?_, ?_⟩
    · rw [same]
      exact answered.starts
    · rw [same]
      exact answered.settles
  have read : Settles _ _ (together (ss.map some ++ (scope :: ts).map some)) :=
    settles_list (List.rel_append before (.cons answered behind)) pad'
  rw [← List.map_append, together_some] at read
  exact ⟨ss ++ scope :: ts, (Draft.merge_repeated ss ts old).symm, read⟩

/-! ## Edits -/

/-- The texts that say the same as no member. -/
inductive IsDefault : String → List Char → Prop where
  | name : IsDefault "name" nullWord
  | description : IsDefault "description" (quoted [])
  | discrete : IsDefault "usesDiscreteValues" (writeBool false)
  | allowed : IsDefault "allowedValues" nullWord
  | range : IsDefault "range" nullWord

/-- One way to spell a definition differently. -/
inductive Edit : Contents → Contents → Prop where
  | ordered {c c' : Contents} (perm : c.Perm c') : Edit c c'
  | inserted {c : Contents} {name : String} (unknown : name ∉ fields.map Field.name)
    (text : List Char) : Edit c ((name, text) :: c)
  | removed {c : Contents} {name : String} (unknown : name ∉ fields.map Field.name)
    (text : List Char) : Edit ((name, text) :: c) c
  | spelledOut {c : Contents} {name : String} {text : List Char} (default : IsDefault name text)
    (absent : name ∉ c.names) : Edit c ((name, text) :: c)
  | leftOut {c : Contents} {name : String} {text : List Char} (default : IsDefault name text) :
    Edit ((name, text) :: c) c
  | repeated {c : Contents} {front back : List Item} {first again : Item} (pad pad' : Pad)
    (values : ∀ i ∈ front ++ back, IsValue i.value) (member : first ∈ front)
    (same : again.value = first.value) : Edit (("allowedScopes", listText pad (front ++ back)) :: c)
      (("allowedScopes", listText pad' (front ++ again :: back)) :: c)
  | allowed {c : Contents} {items : List Item} (text : List Char) (pad : Pad)
    (unused : ∀ text, ("usesDiscreteValues", text) ∈ c → text = writeBool false)
    (scalars : ∀ i ∈ items, IsScalar i.value) :
    Edit (("allowedValues", text) :: c) (("allowedValues", listText pad items) :: c)
  | allowedDropped {c : Contents} (text : List Char)
    (unused : ∀ text, ("usesDiscreteValues", text) ∈ c → text = writeBool false) :
    Edit (("allowedValues", text) :: c) c
  | range {c : Contents} {text' : List Char} (text : List Char)
    (unused : ("usesDiscreteValues", writeBool true) ∈ c) (isRange : IsRange text') :
    Edit (("range", text) :: c) (("range", text') :: c)
  | rangeDropped {c : Contents} (text : List Char)
    (unused : ("usesDiscreteValues", writeBool true) ∈ c) : Edit (("range", text) :: c) c

variable {room : Nat} {c c' : Contents} {e e' : Entry}

theorem Part.member_injective {p q : Part} (h : p.member = q.member) : p = q := by
  cases p <;> cases q <;> first | rfl | exact absurd h (by decide)

theorem Part.ne_member (p : Part) {name : String} (unknown : name ∉ fields.map Field.name) :
    name ≠ p.member := by
  rintro rfl
  obtain ⟨field, found⟩ := p.exists_field
  exact unknown (List.mem_map.2 ⟨field, List.mem_of_find?_eq_some found, field?_name found⟩)

theorem IsDefault.part {name : String} {text : List Char} (h : IsDefault name text) (room : Nat) :
    ∃ q : Part, q.member = name ∧ ∀ (c : Contents) (e : Entry), name ∉ c.names →
      (q.Told room ((name, text) :: c) e ↔ q.Told room c e) := by
  cases h with
  | name => exact ⟨.name, rfl, fun _ _ absent => slot_cons absent (settles_optional_null _ room)⟩
  | description =>
    have empty : Settles (string room) (quoted []) (some "") :=
      settles_string (calls_denoted (by simp [WellSpelled]) .nil) room
    exact ⟨.description, rfl, fun _ _ absent => slot_cons absent empty⟩
  | discrete =>
    exact ⟨.discrete, rfl, fun _ _ absent => slot_cons absent (settles_writeBool false room)⟩
  | allowed =>
    exact ⟨.allowed, rfl, fun _ _ absent => slot_cons absent (settles_optional_null _ room)⟩
  | range => exact ⟨.range, rfl, fun _ _ absent => slot_cons absent (settles_optional_null _ room)⟩

theorem Part.Told.agree {p : Part} (h : p.Told room c e) (agree : Agree c c' p.member) :
    p.Told room c' e := by
  cases p with
  | key => exact Given.agree h agree
  | name => exact Slot.agree h agree
  | description => exact Slot.agree h agree
  | valueType =>
    obtain ⟨type, given, same⟩ := h
    exact ⟨type, given.agree agree, same⟩
  | defaultValue =>
    obtain ⟨v, given, same⟩ := h
    exact ⟨v, given.agree agree, same⟩
  | discrete => exact Slot.agree h agree
  | allowed => exact Slot.agree h agree
  | range => exact Slot.agree h agree
  | scopes => exact Given.agree h agree

/-- Nothing but the part itself matters. -/
theorem Part.Told.congr {p : Part} (h : p.Told room c e) (same : p.get e' = p.get e) :
    p.Told room c e' := by
  cases p
  all_goals
    simp only [Part.Told, Part.get] at h same ⊢
    rwa [same]

theorem Part.agree_other {p q : Part} (other : p ≠ q) (text : List Char) :
    Agree c ((q.member, text) :: c) p.member :=
  agree_cons (fun name => other (Part.member_injective name.symm)) text

namespace Told

theorem agree (h : Told room c e) (agree : ∀ p : Part, Agree c c' p.member) : Told room c' e where
  single p := (agree p).count.trans_le (h.single p)
  part p := (h.part p).agree (agree p)

/-- Only one part is told by other members. -/
theorem change (h : Told room c e) (q : Part) (others : ∀ p : Part, p ≠ q → p.get e' = p.get e)
    (agree : ∀ p : Part, p ≠ q → Agree c c' p.member) (single : c'.names.count q.member ≤ 1)
    (part : q.Told room c' e') : Told room c' e' where
  single p := by
    by_cases same : p = q
    · exact same ▸ single
    · exact (agree p same).count.trans_le (h.single p)
  part p := by
    by_cases same : p = q
    · exact same ▸ part
    · exact ((h.part p).agree (agree p same)).congr (others p same)

theorem inserted (h : Told room c e) {name : String} (unknown : name ∉ fields.map Field.name)
    (text : List Char) : Told room ((name, text) :: c) e :=
  h.agree fun p => agree_cons (p.ne_member unknown) text

theorem removed {name : String} {text : List Char} (h : Told room ((name, text) :: c) e)
    (unknown : name ∉ fields.map Field.name) : Told room c e :=
  h.agree fun p => (agree_cons (p.ne_member unknown) text).symm

theorem replaced (q : Part) {text text' : List Char} (h : Told room ((q.member, text) :: c) e)
    (x : q.Content) (part : q.Told room ((q.member, text') :: c) (q.put x e)) :
    Told room ((q.member, text') :: c) (q.put x e) :=
  have agree (p : Part) (other : p ≠ q) :
      Agree ((q.member, text) :: c) ((q.member, text') :: c) p.member :=
    (Part.agree_other other text).symm.trans (Part.agree_other other text')
  h.change q (fun _ other => Part.get_put other x e) agree (h.single q) part

theorem dropped (q : Part) {text : List Char} (h : Told room ((q.member, text) :: c) e)
    (others : ∀ p : Part, p ≠ q → p.get e' = p.get e)
    (part : q.member ∉ c.names → q.Told room c e') : Told room c e' := by
  -- The member that goes was the only one with its name.
  have absent := count_cons_self_le.1 (h.single q)
  refine h.change q others (fun p other => (Part.agree_other other text).symm) ?_ (part absent)
  rw [List.count_eq_zero.2 absent]
  exact Nat.zero_le 1

theorem spelledOut (h : Told room c e) {name : String} {text : List Char}
    (default : IsDefault name text) (absent : name ∉ c.names) : Told room ((name, text) :: c) e := by
  obtain ⟨q, rfl, same⟩ := default.part room
  exact h.change q (fun _ _ => rfl) (fun p other => Part.agree_other other text)
    (count_cons_self_le.2 absent) ((same c e absent).2 (h.part q))

theorem leftOut {name : String} {text : List Char} (h : Told room ((name, text) :: c) e)
    (default : IsDefault name text) : Told room c e := by
  obtain ⟨q, rfl, same⟩ := default.part room
  exact h.dropped q (fun _ _ => rfl) fun absent => (same c e absent).1 (h.part q)

theorem discrete_false (h : Told room c e)
    (unused : ∀ text, ("usesDiscreteValues", text) ∈ c → text = writeBool false) :
    e.discrete = false := by
  rcases h.part .discrete with ⟨-, same⟩ | ⟨text, member, read⟩
  · exact same
  · rw [unused text member] at read
    exact Option.some.inj (read.unique (settles_writeBool false room))

theorem discrete_true (h : Told room c e) (used : ("usesDiscreteValues", writeBool true) ∈ c) :
    e.discrete = true := by
  have read := Slot.read (h.part .discrete) (h.single .discrete) used
  exact Option.some.inj (read.unique (settles_writeBool true room))

end Told

theorem Edit.told (h : Edit c c') (told : Told (room + 1) c e) :
    ∃ e', Told (room + 1) c' e' ∧ Alike e e' := by
  cases h with
  | ordered perm => exact ⟨e, told.agree fun p => agree_perm perm p.member, .refl e⟩
  | inserted unknown text => exact ⟨e, told.inserted unknown text, .refl e⟩
  | removed unknown text => exact ⟨e, told.removed unknown, .refl e⟩
  | spelledOut default absent => exact ⟨e, told.spelledOut default absent, .refl e⟩
  | leftOut default => exact ⟨e, told.leftOut default, .refl e⟩
  | repeated pad pad' values member same =>
    have read := Given.read (told.part .scopes) (told.single .scopes) List.mem_cons_self
    obtain ⟨scopes, merged, read'⟩ := settles_repeated values member same read pad'
    exact ⟨Part.put .scopes scopes e, Told.replaced .scopes told scopes ⟨_, List.mem_cons_self, read'⟩,
      { Alike.refl e with scopes := merged }⟩
  -- From here on the half of the domain changes that the definition does not use.
  | allowed text pad unused scalars =>
    have discrete := told.discrete_false fun text member => unused text (by simpa using member)
    obtain ⟨vs, read⟩ := settles_allowed scalars pad room
    exact ⟨Part.put .allowed (some vs) e,
      Told.replaced .allowed told (some vs) (.inr ⟨_, List.mem_cons_self, read⟩),
      { Alike.refl e with allowed := fun used => by simp [discrete] at used }⟩
  | allowedDropped text unused =>
    have discrete := told.discrete_false fun text member => unused text (by simpa using member)
    exact ⟨Part.put .allowed none e,
      Told.dropped .allowed told (fun _ other => Part.get_put other none e)
        fun absent => .inl ⟨absent, rfl⟩,
      { Alike.refl e with allowed := fun used => by simp [discrete] at used }⟩
  | range text unused isRange =>
    have discrete := told.discrete_true (List.mem_cons_of_mem _ unused)
    obtain ⟨range, read⟩ := isRange.settles room
    exact ⟨Part.put .range (some range) e,
      Told.replaced .range told (some range) (.inr ⟨_, List.mem_cons_self, read⟩),
      { Alike.refl e with range := fun used => by simp [discrete] at used }⟩
  | rangeDropped text unused =>
    have discrete := told.discrete_true (List.mem_cons_of_mem _ unused)
    exact ⟨Part.put .range none e,
      Told.dropped .range told (fun _ other => Part.get_put other none e)
        fun absent => .inl ⟨absent, rfl⟩,
      { Alike.refl e with range := fun used => by simp [discrete] at used }⟩

theorem told_edits (h : Relation.ReflTransGen Edit c c') (told : Told (room + 1) c e) :
    ∃ e', Told (room + 1) c' e' ∧ e.define = e'.define := by
  induction h with
  | refl => exact ⟨e, told, rfl⟩
  | tail _ edit ih =>
    obtain ⟨before, told, same⟩ := ih
    obtain ⟨after, told, alike⟩ := edit.told told
    exact ⟨after, told, same.trans alike.define⟩

end Entry

/-! ## Assets -/

/-- The text of a definition stays as it is, or becomes that of an object with edited members. -/
inductive Respelled : List Char → List Char → Prop where
  | same {text : List Char} (value : IsValue text) : Respelled text text
  | edited {c c' : Contents} {text text' : List Char} (object : IsObject c text)
    (object' : IsObject c' text') (edits : Relation.ReflTransGen Entry.Edit c c') :
    Respelled text text'

namespace Respelled

variable {text text' : List Char}

theorem isValue (h : Respelled text text') : IsValue text ∧ IsValue text' := by
  cases h with
  | same value => exact ⟨value, value⟩
  | edited object object' => exact ⟨object.isValue, object'.isValue⟩

theorem settles (h : Respelled text text') {e : Entry} {room : Nat}
    (read : Settles (Entry.shape (room + 2)) text (some e)) :
    ∃ e', Settles (Entry.shape (room + 2)) text' (some e') ∧ e.define = e'.define := by
  cases h with
  | same => exact ⟨e, read, rfl⟩
  | edited object object' edits =>
    obtain ⟨e', told, same⟩ := Entry.told_edits edits ((Entry.settles_iff object).1 read)
    exact ⟨e', (Entry.settles_iff object').2 told, same⟩

end Respelled

/-- The induction is on the elements of the two lists. -/
theorem answered_respelled {items items' : List Item}
    (respelled : List.Forall₂ (fun i i' => Respelled i.value i'.value) items items') {room : Nat}
    {es : List Entry}
    (read : List.Forall₂ (Answered (Entry.shape (room + 2))) items (es.map some)) :
    ∃ es' : List Entry, List.Forall₂ (Answered (Entry.shape (room + 2))) items' (es'.map some) ∧
      es.mapM Entry.define = es'.mapM Entry.define := by
  induction respelled generalizing es with
  | nil =>
    cases es with
    | nil => exact ⟨[], .nil, rfl⟩
    | cons e es => cases read
  | cons first _ ih =>
    cases es with
    | nil => cases read
    | cons e es =>
      obtain ⟨front, others⟩ := List.forall₂_cons.1 read
      obtain ⟨e', settles, same⟩ := first.settles front.settles
      obtain ⟨es', answered, equal⟩ := ih others
      refine ⟨e' :: es', .cons ⟨first.isValue.2.starts, settles⟩ answered, ?_⟩
      rw [List.mapM_cons, List.mapM_cons, same, equal]

theorem parseDefinitions_items {whole : Item} {pad : Pad} {items : List Item}
    (listed : whole.value = listText pad items) {es : List Entry}
    (answered : List.Forall₂ (Answered (Entry.shape 126)) items (es.map some)) :
    parseDefinitions (.ofString (String.ofList whole.text)) = es.mapM Entry.define := by
  have read : Settles (list Entry.shape roomAtStart) whole.value (some es) := by
    rw [listed, ← together_some es]
    exact settles_list answered pad
  unfold parseDefinitions
  rw [(parse_settled read).2 rfl]

theorem answered_of_parsed {whole : Item} {pad : Pad} {items : List Item}
    (listed : whole.value = listText pad items) (values : ∀ i ∈ items, IsValue i.value)
    {ds : List Definition} (parsed : parseDefinitions (.ofString (String.ofList whole.text)) = .ok ds) :
    ∃ es : List Entry, List.Forall₂ (Answered (Entry.shape 126)) items (es.map some) ∧
      es.mapM Entry.define = .ok ds := by
  obtain ⟨vs, answered⟩ := answered_values (Entry.decides_shape 126) values
  have read : Settles (list Entry.shape roomAtStart) whole.value (together vs) := by
    rw [listed]
    exact settles_list answered pad
  unfold parseDefinitions at parsed
  cases entries : parse (list Entry.shape) (.ofString (String.ofList whole.text)) with
  | error fault =>
    rw [entries] at parsed
    cases parsed
  | ok es =>
    rw [entries] at parsed
    rw [together_eq_some.1 ((parse_settled read).1 entries)] at answered
    exact ⟨es, answered, parsed⟩

/-- The same definitions are read, in the same order, whatever is edited in each of them. -/
theorem respelled_definitions {whole whole' : Item} {pad pad' : Pad} {items items' : List Item}
    (listed : whole.value = listText pad items) (listed' : whole'.value = listText pad' items')
    (respelled : List.Forall₂ (fun i i' => Respelled i.value i'.value) items items')
    {ds : List Definition} (parsed : parseDefinitions (.ofString (String.ofList whole.text)) = .ok ds) :
    parseDefinitions (.ofString (String.ofList whole'.text)) = .ok ds := by
  have both : List.Forall₂ (fun i i' => IsValue i.value ∧ Respelled i.value i'.value) items items' :=
    respelled.imp fun _ _ h => ⟨h.isValue.1, h⟩
  obtain ⟨values, -⟩ := (List.forall₂_and_left items items').1 both
  obtain ⟨es, answered, defined⟩ := answered_of_parsed listed values parsed
  obtain ⟨es', answered', same⟩ := answered_respelled respelled answered
  rw [parseDefinitions_items listed' answered', ← same, defined]

/-! ## An asset of one definition -/

namespace Theme

def theme : Definition where
  key := "THEME"
  name := "THEME"
  description := ""
  valueType := .string
  defaultValue := .string "light"
  domain := .discrete []
  scopes := [.org]

/-- One name of a scope, as often as it is asked for. -/
def scopes (count : Nat) : List Item := List.replicate count (.bare (writeString "org"))

def used : Contents := [("key", writeString "THEME"), ("valueType", writeString "string"),
  ("defaultValue", writeString "light"), ("usesDiscreteValues", writeBool true)]

def short : Contents := used ++ [("allowedScopes", listText .none (scopes 1))]

/-- A number that is out of reach. -/
def far : Literal := ⟨false, ['1'], [], some (false, ['9', '9', '9'])⟩

def notes : List Char := writeList [writeList [far.spelled false false]]

def inverted : ValueRange := ⟨5, -5⟩

def long : Contents := [("name", nullWord), ("notes", notes), ("range", inverted.write),
  ("allowedScopes", listText .none (scopes 2))] ++ used

/-- An asset of one definition. -/
def asset (c : Contents) : Item := .bare (listText .none [.bare (writeObject c)])

theorem wellFormed_far : far.WellFormed where
  whole := by simp [far]
  front := .inr ⟨'1', [], rfl, by decide⟩
  fraction := by simp [far]
  power p h := by
    cases h
    simp

theorem values_scopes (count : Nat) : ∀ i ∈ scopes count, IsValue i.value := by
  intro i member
  rw [List.eq_of_mem_replicate member]
  exact isValue_writeString "org"

theorem values_used : ∀ m ∈ used, IsValue m.2 := by
  simp only [used, List.forall_mem_cons]
  exact ⟨isValue_writeString _, isValue_writeString _, isValue_writeString _, .token (.boolean true),
    nofun⟩

theorem isObject_short : IsObject short (writeObject short) := by
  refine isObject_writeObject (List.forall_mem_append.2 ⟨values_used, ?_⟩)
  exact List.forall_mem_cons.2 ⟨.list .none (values_scopes 1), nofun⟩

theorem isValue_notes : IsValue notes := by
  have far : IsValue (far.spelled false false) := .token (.number wellFormed_far false false)
  refine isValue_writeList (List.forall_mem_cons.2 ⟨?_, nofun⟩)
  exact isValue_writeList (List.forall_mem_cons.2 ⟨far, nofun⟩)

theorem isObject_long : IsObject long (writeObject long) := by
  refine isObject_writeObject (List.forall_mem_append.2 ⟨?_, values_used⟩)
  simp only [List.forall_mem_cons]
  exact ⟨.token .null, isValue_notes, inverted.isObject_write.isValue, .list .none (values_scopes 2),
    nofun⟩

theorem edits : Relation.ReflTransGen Entry.Edit short long := by
  have order : short.Perm (("allowedScopes", listText .none (scopes 1)) :: used) :=
    List.perm_append_comm
  have values : ∀ i ∈ scopes 1 ++ [], IsValue i.value := by
    rw [List.append_nil]
    exact values_scopes 1
  have twice : Entry.Edit (("allowedScopes", listText .none (scopes 1 ++ [])) :: used)
      (("allowedScopes", listText .none (scopes 2)) :: used) :=
    .repeated .none .none values (List.mem_singleton.2 rfl) rfl
  have range : Entry.Edit _
      (("range", inverted.write) :: ("allowedScopes", listText .none (scopes 2)) :: used) :=
    .range nullWord (by simp [used]) (.object .minFirst inverted.isObject_write)
  exact .trans (.single (.ordered order)) <| .trans (.single twice) <|
    .trans (.single (.spelledOut .range (by decide))) <| .trans (.single range) <|
    .trans (.single (.inserted (by decide) notes)) (.single (.spelledOut .name (by decide)))

def shortText : String := "[\x7b\"key\":\"THEME\",\"valueType\":\"string\"," ++
  "\"defaultValue\":\"light\",\"usesDiscreteValues\":true,\"allowedScopes\":[\"org\"]\x7d]"

def longText : String := "[\x7b\"name\":null,\"notes\":[[1e999]],\"range\":\x7b\"min\":5," ++
  "\"max\":-5\x7d,\"allowedScopes\":[\"org\",\"org\"],\"key\":\"THEME\",\"valueType\":\"string\"," ++
  "\"defaultValue\":\"light\",\"usesDiscreteValues\":true\x7d]"

theorem shortText_eq : shortText = String.ofList (asset short).text := by decide +kernel

theorem longText_eq : longText = String.ofList (asset long).text := by decide +kernel

theorem parse_short : parseDefinitions (.ofString shortText) = .ok [theme] := by
  -- Faults cannot be compared, so that only the definitions are computed.
  have read : (parseDefinitions (.ofString shortText)).toOption = some [theme] := by decide +kernel
  cases outcome : parseDefinitions (.ofString shortText) with
  | error fault => simp [outcome, Except.toOption] at read
  | ok ds => simpa [outcome, Except.toOption] using read

end Theme

open Theme in
theorem respelled_definitions_theme : parseDefinitions (.ofString shortText) = .ok [theme] ∧
    parseDefinitions (.ofString longText) = .ok [theme] := by
  refine ⟨parse_short, ?_⟩
  have respelled : List.Forall₂ (fun i i' => Respelled i.value i'.value)
      [Item.bare (writeObject short)] [Item.bare (writeObject long)] :=
    .cons (.edited isObject_short isObject_long edits) .nil
  have parsed := parse_short
  rw [shortText_eq] at parsed
  rw [longText_eq]
  exact @respelled_definitions (asset short) (asset long) .none .none _ _ rfl rfl respelled _ parsed

end LayeredPreferences

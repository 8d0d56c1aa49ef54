import LayeredPreferences.Definition.Entry
import LayeredPreferences.Proofs.Json.Written

set_option autoImplicit false

/-!
# Entries by their members

An entry is what is read of its members, each part of it from the one member that has its name.
-/
namespace LayeredPreferences

open Json

theorem Scope.decides_shape (room : Nat) : Decides (Scope.shape room) := decides_variant _ room

theorem ValueType.decides_shape (room : Nat) : Decides (ValueType.shape room) :=
  decides_variant _ room

namespace ValueRange

def fields : List (Json.Field ValueRange) :=
  [.required "min" Json.integer fun range n => { range with min := n },
   .required "max" Json.integer fun range n => { range with max := n }]

theorem decides_fields (room : Nat) : ∀ field ∈ fields, Decides (field.read room) := by
  refine List.forall_mem_cons.2 ⟨(decides_integer room).map _, ?_⟩
  exact List.forall_mem_cons.2 ⟨(decides_integer room).map _, nofun⟩

theorem decides_shape (room : Nat) : Decides (shape room) := decides_record _ decides_fields _ room

/-- The two members, in either order. -/
inductive Members (range : ValueRange) : Contents → Prop where
  | minFirst : Members range
    [("min", writeInteger range.min.toInt), ("max", writeInteger range.max.toInt)]
  | maxFirst : Members range
    [("max", writeInteger range.max.toInt), ("min", writeInteger range.min.toInt)]

theorem Members.settles {range : ValueRange} {c : Contents} (h : Members range c) {text : List Char}
    (object : IsObject c text) (room : Nat) : Settles (shape (room + 1)) text (some range) := by
  have min := settles_return (settles_writeInteger range.min room)
    fun n (range : ValueRange) => { range with min := n }
  have max := settles_return (settles_writeInteger range.max room)
    fun n (range : ValueRange) => { range with max := n }
  refine (settles_object (decides_fields room) _ object).2 ?_
  cases h with
  | minFirst =>
    refine ⟨.known rfl (by simp) min (.known rfl (by simp) max (.nil _)), ?_⟩
    simp [fields, Field.required]
  | maxFirst =>
    refine ⟨.known rfl (by simp) max (.known rfl (by simp) min (.nil _)), ?_⟩
    simp [fields, Field.required]

theorem isObject_write (range : ValueRange) :
    IsObject [("min", writeInteger range.min.toInt), ("max", writeInteger range.max.toInt)]
      range.write := by
  refine isObject_writeObject (List.forall_mem_cons.2 ⟨isValue_writeInteger _, ?_⟩)
  exact List.forall_mem_cons.2 ⟨isValue_writeInteger _, nofun⟩

end ValueRange

namespace Entry

theorem decides_allowed (room : Nat) : Decides (Json.optional (list Value.shape) room) :=
  decides_optional (decides_list Value.decides_shape room)

theorem decides_fields (room : Nat) : ∀ field ∈ fields, Decides (field.read room) := by
  simp only [fields, List.forall_mem_cons]
  exact ⟨(decides_string room).map _, (decides_optional (decides_string room)).map _,
    (decides_string room).map _, (ValueType.decides_shape room).map _,
    (Value.decides_shape room).map _, (decides_boolean room).map _, (decides_allowed room).map _,
    (decides_optional (ValueRange.decides_shape room)).map _,
    (decides_list Scope.decides_shape room).map _, nofun⟩

theorem decides_shape (room : Nat) : Decides (shape room) :=
  decides_record _ decides_fields _ room

/-! ## Parts -/

inductive Part where
  | key
  | name
  | description
  | valueType
  | defaultValue
  | discrete
  | allowed
  | range
  | scopes

namespace Part

/-- The name of the member that the part is read from. -/
def member : Part → String
  | key => "key"
  | name => "name"
  | description => "description"
  | valueType => "valueType"
  | defaultValue => "defaultValue"
  | discrete => "usesDiscreteValues"
  | allowed => "allowedValues"
  | range => "range"
  | scopes => "allowedScopes"

abbrev Content : Part → Type
  | key => String
  | name => Option String
  | description => String
  | valueType => Option ValueType
  | defaultValue => Option Value
  | discrete => Bool
  | allowed => Option (List Value)
  | range => Option ValueRange
  | scopes => List Scope

def get : (p : Part) → Entry → p.Content
  | key => Entry.key
  | name => Entry.name
  | description => Entry.description
  | valueType => Entry.valueType
  | defaultValue => Entry.defaultValue
  | discrete => Entry.discrete
  | allowed => Entry.allowed
  | range => Entry.range
  | scopes => Entry.scopes

def put : (p : Part) → p.Content → Entry → Entry
  | key, x, e => { e with key := x }
  | name, x, e => { e with name := x }
  | description, x, e => { e with description := x }
  | valueType, x, e => { e with valueType := x }
  | defaultValue, x, e => { e with defaultValue := x }
  | discrete, x, e => { e with discrete := x }
  | allowed, x, e => { e with allowed := x }
  | range, x, e => { e with range := x }
  | scopes, x, e => { e with scopes := x }

theorem get_put {p q : Part} (other : p ≠ q) (x : q.Content) (e : Entry) :
    p.get (q.put x e) = p.get e := by
  cases p <;> cases q <;> first | rfl | exact absurd rfl other

/-- The part of the entry is what its member says, or what it is without one. -/
def Told (room : Nat) (c : Contents) (e : Entry) : Part → Prop
  | key => Given c "key" (string room) e.key
  | name => Slot c "name" (Json.optional string room) none e.name
  | description => Slot c "description" (string room) "" e.description
  | valueType => ∃ type, Given c "valueType" (ValueType.shape room) type ∧ e.valueType = some type
  | defaultValue => ∃ v, Given c "defaultValue" (Value.shape room) v ∧ e.defaultValue = some v
  | discrete => Slot c "usesDiscreteValues" (boolean room) false e.discrete
  | allowed => Slot c "allowedValues" (Json.optional (list Value.shape) room) none e.allowed
  | range => Slot c "range" (Json.optional ValueRange.shape room) none e.range
  | scopes => Given c "allowedScopes" (list Scope.shape room) e.scopes

theorem exists_field (p : Part) : ∃ field, field? fields p.member = some field := by
  cases p <;> exact ⟨_, rfl⟩

theorem field?_member (p : Part) : field? fields p.member ≠ none := by
  obtain ⟨field, found⟩ := p.exists_field
  simp [found]

/-- Every field is that of a part. -/
theorem exists_of_mem {field : Json.Field Entry} (h : field ∈ fields) :
    ∃ p : Part, field? fields p.member = some field := by
  revert field
  simp only [fields, List.forall_mem_cons]
  exact ⟨⟨key, rfl⟩, ⟨name, rfl⟩, ⟨description, rfl⟩, ⟨valueType, rfl⟩, ⟨defaultValue, rfl⟩,
    ⟨discrete, rfl⟩, ⟨allowed, rfl⟩, ⟨range, rfl⟩, ⟨scopes, rfl⟩, nofun⟩

/-- A field changes no part but its own. -/
theorem spared (p : Part) : ∀ f ∈ fields, f.name ≠ p.member → f.Spares p.get := by
  cases p
  all_goals
    simp only [fields, List.forall_mem_cons]
    refine ⟨?_, ?_, ?_, ?_, ?_, ?_, ?_, ?_, ?_, nofun⟩
  all_goals
    intro other
    first
    | exact absurd rfl other
    | exact Field.spares fun _ _ => rfl

theorem get_injective {e e' : Entry} (h : ∀ p : Part, p.get e = p.get e') : e = e' := by
  have key := h key
  have name := h name
  have description := h description
  have valueType := h valueType
  have defaultValue := h defaultValue
  have discrete := h discrete
  have allowed := h allowed
  have range := h range
  have scopes := h scopes
  cases e
  cases e'
  simp_all only [get]

end Part

/-- The members of which the entry is read. -/
structure Told (room : Nat) (c : Contents) (e : Entry) : Prop where
  single : ∀ p : Part, c.names.count p.member ≤ 1
  part : ∀ p : Part, p.Told room c e

variable {room : Nat} {c : Contents} {e e' : Entry}

theorem told_of_fills (values : ∀ m ∈ c, IsValue m.2) (fills : Fills fields room c empty e)
    (complete : ∀ field ∈ fields, field.mustAppear → field.name ∈ c.names) : Told room c e where
  single p := fills.single p.field?_member
  part p := by
    obtain ⟨field, found⟩ := p.exists_field
    have appears (must : field.mustAppear) : p.member ∈ c.names := by
      rw [← field?_name found]
      exact complete field (List.mem_of_find?_eq_some found) must
    have spared := p.spared
    cases p
    all_goals cases found
    case key =>
      exact (fills.slot values rfl rfl (decides_string room) spared (by intros; rfl)).given
        (appears rfl)
    case name =>
      exact fills.slot values rfl rfl (decides_optional (decides_string room)) spared (by intros; rfl)
    case description =>
      exact fills.slot values rfl rfl (decides_string room) spared (by intros; rfl)
    case valueType =>
      exact (fills.given values rfl rfl (ValueType.decides_shape room) spared
        (by intros; rfl)).resolve_left fun missing => missing.1 (appears rfl)
    case defaultValue =>
      exact (fills.given values rfl rfl (Value.decides_shape room) spared
        (by intros; rfl)).resolve_left fun missing => missing.1 (appears rfl)
    case discrete =>
      exact fills.slot values rfl rfl (decides_boolean room) spared (by intros; rfl)
    case allowed =>
      exact fills.slot values rfl rfl (decides_allowed room) spared (by intros; rfl)
    case range =>
      exact fills.slot values rfl rfl (decides_optional (ValueRange.decides_shape room)) spared
        (by intros; rfl)
    case scopes =>
      exact (fills.slot values rfl rfl (decides_list Scope.decides_shape room) spared
        (by intros; rfl)).given (appears rfl)

theorem Part.Told.unique {p : Part} (h : p.Told room c e) (h' : p.Told room c e')
    (single : c.names.count p.member ≤ 1) : p.get e = p.get e' := by
  cases p with
  | key => exact Given.unique h h' single
  | name => exact Slot.unique h h' single
  | description => exact Slot.unique h h' single
  | valueType =>
    obtain ⟨type, given, same⟩ := h
    obtain ⟨type', given', same'⟩ := h'
    change e.valueType = e'.valueType
    rw [same, same', given.unique given' single]
  | defaultValue =>
    obtain ⟨v, given, same⟩ := h
    obtain ⟨v', given', same'⟩ := h'
    change e.defaultValue = e'.defaultValue
    rw [same, same', given.unique given' single]
  | discrete => exact Slot.unique h h' single
  | allowed => exact Slot.unique h h' single
  | range => exact Slot.unique h h' single
  | scopes => exact Given.unique h h' single

theorem Part.Told.reads {p : Part} (h : p.Told room c e) (single : c.names.count p.member ≤ 1)
    {field : Json.Field Entry} (found : field? fields p.member = some field) {text : List Char}
    (member : (p.member, text) ∈ c) : ∃ put, Settles (field.read room) text (some put) := by
  cases p
  all_goals cases found
  case key => exact ⟨_, settles_return (Given.read h single member) _⟩
  case name => exact ⟨_, settles_return (Slot.read h single member) _⟩
  case description => exact ⟨_, settles_return (Slot.read h single member) _⟩
  case valueType =>
    obtain ⟨type, given, -⟩ := h
    exact ⟨_, settles_return (given.read single member) _⟩
  case defaultValue =>
    obtain ⟨v, given, -⟩ := h
    exact ⟨_, settles_return (given.read single member) _⟩
  case discrete => exact ⟨_, settles_return (Slot.read h single member) _⟩
  case allowed => exact ⟨_, settles_return (Slot.read h single member) _⟩
  case range => exact ⟨_, settles_return (Slot.read h single member) _⟩
  case scopes => exact ⟨_, settles_return (Given.read h single member) _⟩

theorem Part.Told.appears {p : Part} (h : p.Told room c e) {field : Json.Field Entry}
    (found : field? fields p.member = some field) (must : field.mustAppear) :
    p.member ∈ c.names := by
  cases p
  all_goals cases found
  case key => exact h.mem
  case valueType =>
    obtain ⟨type, given, -⟩ := h
    exact given.mem
  case defaultValue =>
    obtain ⟨v, given, -⟩ := h
    exact given.mem
  case scopes => exact h.mem
  all_goals cases must

namespace Told

theorem unique (h : Told room c e) (h' : Told room c e') : e = e' :=
  Part.get_injective fun p => (h.part p).unique (h'.part p) (h.single p)

theorem complete (h : Told room c e) :
    ∀ field ∈ fields, field.mustAppear → field.name ∈ c.names := by
  intro field member must
  obtain ⟨p, found⟩ := Part.exists_of_mem member
  rw [field?_name found]
  exact (h.part p).appears found must

theorem fills (h : Told room c e) (values : ∀ m ∈ c, IsValue m.2) :
    Fills fields room c empty e := by
  have part {name : String} {field : Json.Field Entry} (found : field? fields name = some field) :
      ∃ p : Part, p.member = name ∧ field? fields p.member = some field := by
    obtain ⟨p, found'⟩ := Part.exists_of_mem (List.mem_of_find?_eq_some found)
    exact ⟨p, (field?_name found').symm.trans (field?_name found), found'⟩
  have single : ∀ name, field? fields name ≠ none → c.names.count name ≤ 1 := by
    intro name known
    obtain ⟨field, found⟩ := Option.ne_none_iff_exists'.1 known
    obtain ⟨p, rfl, -⟩ := part found
    exact h.single p
  have reads : ∀ m ∈ c, ∀ field, field? fields m.1 = some field →
      ∃ put, Settles (field.read room) m.2 (some put) := by
    rintro ⟨name, text⟩ member field found
    obtain ⟨p, rfl, found⟩ := part found
    exact (h.part p).reads (h.single p) found member
  obtain ⟨e', fills⟩ := exists_fills single reads empty
  -- The members tell `e'`, too, so that it is the same entry.
  rwa [h.unique (told_of_fills values fills h.complete)]

end Told

/-- An object is read as the entry that its members tell. -/
theorem settles_iff {text : List Char} (object : IsObject c text) :
    Settles (shape (room + 1)) text (some e) ↔ Told room c e := by
  have read : Settles (shape (room + 1)) text (some e) ↔ _ :=
    settles_object (decides_fields room) "DefinitionRecord" object
  constructor
  · intro h
    obtain ⟨fills, complete⟩ := read.1 h
    exact told_of_fills object.values fills complete
  · exact fun h => read.2 ⟨h.fills object.values, h.complete⟩

end Entry

end LayeredPreferences

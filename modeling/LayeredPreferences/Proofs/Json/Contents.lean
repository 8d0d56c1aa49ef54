import LayeredPreferences.Proofs.Json.Compound

set_option autoImplicit false

/-!
# Records by their members

What is read of a record depends on the members that it has, and not on the blanks in its text or on
how its names are spelled.
-/
namespace LayeredPreferences.Json

/-- The members of an object, each with its name and the text of its value. -/
abbrev Contents := List (String × List Char)

def Contents.names (c : Contents) : List String := c.map Prod.fst

@[simp]
theorem Contents.names_cons (name : String) (text : List Char) (c : Contents) :
    Contents.names ((name, text) :: c) = name :: c.names := rfl

@[simp]
theorem Contents.names_nil : Contents.names [] = [] := rfl

structure Member.Tells (m : Member) (named : String × List Char) : Prop where
  wellSpelled : WellSpelled m.name
  denotes : Denotes m.name named.1.toList
  value : m.item.value = named.2
  isValue : IsValue named.2

/-- The text is an object with these members in this order. -/
inductive IsObject (c : Contents) : List Char → Prop where
  | object (pad : Pad) {members : List Member} (tells : List.Forall₂ Member.Tells members c) :
    IsObject c (objectText pad members)

section Objects

variable {c : Contents} {members : List Member}

theorem isValue_of_tells (tells : List.Forall₂ Member.Tells members c) :
    (∀ m ∈ members, WellSpelled m.name) ∧ ∀ m ∈ members, IsValue m.item.value := by
  induction tells with
  | nil => exact ⟨nofun, nofun⟩
  | cons first _ ih =>
    exact ⟨List.forall_mem_cons.2 ⟨first.wellSpelled, ih.1⟩,
      List.forall_mem_cons.2 ⟨first.value ▸ first.isValue, ih.2⟩⟩

theorem IsObject.isValue {text : List Char} (h : IsObject c text) : IsValue text := by
  cases h with
  | object pad tells =>
    obtain ⟨names, values⟩ := isValue_of_tells tells
    exact .object pad names values

theorem IsObject.values {text : List Char} (h : IsObject c text) : ∀ m ∈ c, IsValue m.2 := by
  cases h with
  | object pad tells =>
    induction tells with
    | nil => exact nofun
    | cons first _ ih => exact List.forall_mem_cons.2 ⟨first.isValue, ih⟩

theorem Member.Tells.calls {m : Member} {named : String × List Char} (h : m.Tells named)
    {key : Option String} (called : Calls quotation m.name key) : key = some named.1 := by
  have told := calls_denoted h.wellSpelled h.denotes
  rw [String.ofList_toList] at told
  exact (called []).unique (told [])

end Objects

section Records

variable {ρ : Type} {fields : List (Field ρ)} {room : Nat} {c : Contents} {s e : ρ}

/-- The first field with the name. -/
def field? (fields : List (Field ρ)) (name : String) : Option (Field ρ) :=
  fields.find? (·.name == name)

/-- What the members make of the record, one after the other. No name of a field comes twice. -/
inductive Fills (fields : List (Field ρ)) (room : Nat) : Contents → ρ → ρ → Prop where
  | nil (s : ρ) : Fills fields room [] s s
  | unknown {name : String} {text : List Char} {c : Contents} {s e : ρ}
    (unknown : field? fields name = none) (more : Fills fields room c s e) :
    Fills fields room ((name, text) :: c) s e
  | known {name : String} {text : List Char} {c : Contents} {s e : ρ} {field : Field ρ} {put : ρ → ρ}
    (found : field? fields name = some field) (fresh : name ∉ c.names)
    (read : Settles (field.read room) text (some put)) (more : Fills fields room c (put s) e) :
    Fills fields room ((name, text) :: c) s e

/-- None of the names is one of a field and among the members. -/
def Fresh (fields : List (Field ρ)) (seen : List String) (c : Contents) : Prop :=
  ∀ name ∈ seen, field? fields name ≠ none → name ∉ c.names

/-- The names of fields among the members are seen, too. -/
def Sees (fields : List (Field ρ)) (seen : List String) (c : Contents) (seen' : List String) : Prop :=
  ∀ name, name ∈ seen' ↔ name ∈ seen ∨ name ∈ c.names ∧ field? fields name ≠ none

theorem recordMember_unknown {name : String} (unknown : field? fields name = none)
    (state : List String × ρ) :
    recordMember fields room name state = .ok (do skipped; pure state) := by
  unfold field? at unknown
  unfold recordMember
  rw [unknown]

theorem recordMember_known {name : String} {field : Field ρ}
    (found : field? fields name = some field) (state : List String × ρ) :
    recordMember fields room name state = if name ∈ state.1 then .error (.duplicateField name)
      else .ok do return (name :: state.1, (← field.read room) state.2) := by
  unfold field? at found
  unfold recordMember
  rw [found]
  simp

theorem settles_skip {text : List Char} (value : IsValue text) (state : List String × ρ) :
    Settles (do skipped; pure state) text (some state) :=
  fun pad rest blanks ends => (value.skipped pad rest blanks ends).andThen (.value state)

theorem settles_put {field : Field ρ} {text : List Char} {v : Option (ρ → ρ)}
    (read : Settles (field.read room) text v) (name : String) (state : List String × ρ) :
    Settles (do return (name :: state.1, (← field.read room) state.2)) text
      (v.map fun put => (name :: state.1, put state.2)) := by
  intro pad rest blanks ends
  rw [Option.map_eq_bind]
  exact (read pad rest blanks ends).bind fun put _ => .value _

theorem Turns.fills (reads : ∀ field ∈ fields, Decides (field.read room)) {members : List Member}
    (tells : List.Forall₂ Member.Tells members c) {seen seen' : List String}
    (h : Turns quotation (recordMember fields room) members (seen, s) (some (seen', e))) :
    Fills fields room c s e ∧ Fresh fields seen c ∧ Sees fields seen c seen' := by
  induction tells generalizing seen s with
  | nil =>
    cases h
    exact ⟨.nil _, fun _ _ _ => List.not_mem_nil, fun name => by simp⟩
  | @cons m named members c first _ ih =>
    obtain ⟨name, text⟩ := named
    cases h with
    | @step _ _ _ after _ key reader called known read more =>
      obtain rfl : key = name := Option.some.inj (first.calls called)
      have value : m.item.value = text := first.value
      rw [value] at read
      cases found : field? fields key with
      | none =>
        rw [recordMember_unknown found] at known
        obtain rfl := Except.ok.inj known
        obtain rfl := Option.some.inj (read.unique (settles_skip first.isValue (seen, s)))
        obtain ⟨fills, fresh, sees⟩ := ih more
        refine ⟨.unknown found fills, fun other old known => ?_, fun other => ?_⟩
        · have different : other ≠ key := by
            rintro rfl
            exact known found
          simp [different, fresh other old known]
        · rw [sees other]
          grind [Contents.names_cons]
      | some field =>
        rw [recordMember_known found] at known
        split at known
        · cases known
        · rename_i old
          -- The name is new, and counts as seen for the members behind it.
          obtain rfl := Except.ok.inj known
          have decided := reads field (List.mem_of_find?_eq_some found) first.isValue
          obtain ⟨v, settles⟩ := decided
          have taken := read.unique (settles_put settles key (seen, s))
          cases v with
          | none => cases taken
          | some put =>
            obtain rfl := Option.some.inj taken
            obtain ⟨fills, fresh, sees⟩ := ih more
            have later : key ∉ Contents.names c := fresh key (by simp) (by simp [found])
            refine ⟨.known found later settles fills, fun other old known => ?_, fun other => ?_⟩
            · have different : other ≠ key := by
                rintro rfl
                contradiction
              simp [different, fresh other (by simp [old]) known]
            · rw [sees other]
              grind [Contents.names_cons]

theorem Fills.turns {members : List Member} (tells : List.Forall₂ Member.Tells members c)
    (h : Fills fields room c s e) {seen : List String} (fresh : Fresh fields seen c) :
    ∃ seen', Turns quotation (recordMember fields room) members (seen, s) (some (seen', e)) ∧
      Sees fields seen c seen' := by
  induction h generalizing members seen with
  | nil s =>
    cases tells
    exact ⟨seen, .nil _, fun name => by simp⟩
  | @unknown name text c s e unknown _ ih =>
    cases tells with
    | @cons m _ members _ first others =>
      obtain ⟨seen', more, sees⟩ := ih others fun other old known =>
        fun later => fresh other old known (by simp [later])
      have called := calls_denoted first.wellSpelled first.denotes
      rw [String.ofList_toList] at called
      refine ⟨seen', .step called (recordMember_unknown unknown _) ?_ more, fun other => ?_⟩
      · rw [first.value]
        exact settles_skip first.isValue _
      · rw [sees other]
        grind [Contents.names_cons]
  | @known name text c s e field put found later read _ ih =>
    cases tells with
    | @cons m _ members _ first others =>
      have new : name ∉ seen := fun old => fresh name old (by simp [found]) (by simp)
      have fresh' : Fresh fields (name :: seen) c := by
        intro other old known again
        rcases List.mem_cons.1 old with rfl | old
        · exact later again
        · exact fresh other old known (by simp [again])
      obtain ⟨seen', more, sees⟩ := ih others fresh'
      have called := calls_denoted first.wellSpelled first.denotes
      rw [String.ofList_toList] at called
      have known : recordMember fields room name (seen, s) = .ok _ :=
        (recordMember_known found (seen, s)).trans (if_neg new)
      refine ⟨seen', .step called known ?_ more, fun other => ?_⟩
      · rw [first.value]
        exact settles_put read name (seen, s)
      · rw [sees other]
        grind [Contents.names_cons]

theorem recordOf_eq_some {state : List String × ρ} : recordOf fields state = some e ↔
    state.2 = e ∧ ∀ field ∈ fields, field.mustAppear → field.name ∈ state.1 := by
  unfold recordOf
  cases missing : fields.find? fun field => field.mustAppear && !state.1.contains field.name with
  | none =>
    rw [List.find?_eq_none] at missing
    have complete : ∀ field ∈ fields, field.mustAppear → field.name ∈ state.1 := by
      intro field member must
      simpa [must] using missing field member
    exact ⟨fun same => ⟨Option.some.inj same, complete⟩, fun same => congrArg some same.1⟩
  | some field =>
    have member := List.mem_of_find?_eq_some missing
    have lacks := List.find?_some missing
    simp only [Bool.and_eq_true, Bool.not_eq_true', List.contains_eq_mem, decide_eq_false_iff_not]
      at lacks
    constructor
    · nofun
    · rintro ⟨-, complete⟩
      exact absurd (complete field member lacks.1) lacks.2

theorem field?_ne_none {field : Field ρ} (member : field ∈ fields) :
    field? fields field.name ≠ none := by
  unfold field?
  rw [Ne, List.find?_eq_none]
  exact fun all => all field member (by simp)

/-- An object is read as a record if its members fill it, and every field that must appear does. -/
theorem settles_object (reads : ∀ field ∈ fields, Decides (field.read room)) (title : String)
    {empty : ρ} {text : List Char} (object : IsObject c text) :
    Settles (record title fields empty (room + 1)) text (some e) ↔
      Fills fields room c empty e ∧ ∀ field ∈ fields, field.mustAppear → field.name ∈ c.names := by
  cases object with
  | object pad tells =>
    obtain ⟨names, values⟩ := isValue_of_tells tells
    have seen {seen : List String} (sees : Sees fields [] c seen) {field : Field ρ}
        (member : field ∈ fields) : field.name ∈ seen ↔ field.name ∈ c.names := by
      simp [sees field.name, field?_ne_none member]
    constructor
    · intro read
      obtain ⟨v, turns⟩ := turns_record reads names values ([], empty)
      have same := (settles_record title turns pad).unique read
      obtain ⟨⟨seen', result⟩, rfl, whole⟩ := Option.bind_eq_some_iff.1 same
      obtain ⟨rfl, complete⟩ := recordOf_eq_some.1 whole
      obtain ⟨fills, -, sees⟩ := turns.fills reads tells
      exact ⟨fills, fun field member must => (seen sees member).1 (complete field member must)⟩
    · rintro ⟨fills, complete⟩
      have fresh : Fresh fields [] c := nofun
      obtain ⟨seen', turns, sees⟩ := fills.turns tells fresh
      have whole : recordOf fields (seen', e) = some e := recordOf_eq_some.2
        ⟨rfl, fun field member must => (seen sees member).2 (complete field member must)⟩
      have read := settles_record title turns pad
      rwa [Option.bind_some, whole] at read

/-! ## Field by field -/

theorem field?_name {name : String} {field : Field ρ} (found : field? fields name = some field) :
    field.name = name := by
  simpa using List.find?_some found

theorem mem_names {name : String} {text : List Char} (h : (name, text) ∈ c) : name ∈ c.names :=
  List.mem_map_of_mem h

theorem mem_unique {name : String} {text text' : List Char} (single : c.names.count name ≤ 1)
    (h : (name, text) ∈ c) (h' : (name, text') ∈ c) : text = text' := by
  induction c with
  | nil => cases h
  | cons first c ih =>
    obtain ⟨front, value⟩ := first
    rw [Contents.names_cons, List.count_cons] at single
    have alone {text : List Char} (member : (name, text) ∈ c) : front ≠ name := by
      rintro rfl
      have := List.count_pos_iff.2 (mem_names member)
      simp only [beq_self_eq_true, if_true] at single
      omega
    rcases List.mem_cons.1 h with same | later
    · rcases List.mem_cons.1 h' with same' | later'
      · rw [(Prod.mk.inj same).2, (Prod.mk.inj same').2]
      · exact absurd (Prod.mk.inj same).1.symm (alone later')
    · rcases List.mem_cons.1 h' with same' | later'
      · exact absurd (Prod.mk.inj same').1.symm (alone later)
      · exact ih (by omega) later later'

theorem Fills.single (h : Fills fields room c s e) {name : String}
    (known : field? fields name ≠ none) : c.names.count name ≤ 1 := by
  induction h with
  | nil => simp
  | @unknown front text c s e unknown _ ih =>
    have different : front ≠ name := by
      rintro rfl
      exact known unknown
    simpa [List.count_cons_of_ne different] using ih
  | @known front text c s e field put found fresh read _ ih =>
    by_cases same : front = name
    · rw [same] at fresh
      simp [same, List.count_eq_zero.2 fresh]
    · simpa [List.count_cons_of_ne same] using ih

theorem exists_fills (single : ∀ name, field? fields name ≠ none → c.names.count name ≤ 1)
    (reads : ∀ m ∈ c, ∀ field, field? fields m.1 = some field →
      ∃ put, Settles (field.read room) m.2 (some put)) (s : ρ) : ∃ e, Fills fields room c s e := by
  induction c generalizing s with
  | nil => exact ⟨s, .nil s⟩
  | cons first c ih =>
    obtain ⟨name, text⟩ := first
    have rest := ih (fun other known => by
      have := single other known
      rw [Contents.names_cons, List.count_cons] at this
      omega) fun m hm => reads m (by simp [hm])
    cases found : field? fields name with
    | none =>
      obtain ⟨e, fills⟩ := rest s
      exact ⟨e, .unknown found fills⟩
    | some field =>
      obtain ⟨put, read⟩ := reads (name, text) (by simp) field found
      obtain ⟨e, fills⟩ := rest (put s)
      refine ⟨e, .known found (fun again => ?_) read fills⟩
      have once := single name (by simp [found])
      have := List.count_pos_iff.2 again
      simp only [Contents.names_cons, List.count_cons_self] at once
      omega

/-- The part of a record stays as it is when the field is read. -/
def Field.Spares {β : Type} (part : ρ → β) (field : Field ρ) : Prop :=
  ∀ ⦃room : Nat⦄ ⦃text : List Char⦄ ⦃put : ρ → ρ⦄, Settles (field.read room) text (some put) →
    ∀ s, part (put s) = part s

section Parts

variable {α β : Type} {part : ρ → β} {name : String} {field : Field ρ}

theorem settles_map {reader : Reader α} {text : List Char} {f : α → β} {y : β}
    (h : Settles (do return f (← reader)) text (some y)) : ∃ x, f x = y := by
  have read := (h [] [] blanks_nil endsNumber_nil).eq_ok
  obtain ⟨x, rest, -, chosen⟩ := bind_inv read
  exact ⟨x, (Prod.mk.inj (Except.ok.inj chosen)).1⟩

theorem Field.spares {shape : Shaped α} {put : ρ → α → ρ} {must : Bool}
    (h : ∀ s x, part (put s x) = part s) :
    Field.Spares part ⟨name, must, fun room => do return (put · (← shape room))⟩ := by
  intro room text fill read s
  obtain ⟨x, rfl⟩ := settles_map (f := fun x => (put · x)) read
  exact h s x

theorem Fills.part_eq (h : Fills fields room c s e) (found : field? fields name = some field)
    (others : ∀ f ∈ fields, f.name ≠ name → f.Spares part) :
    (name ∉ c.names ∧ part e = part s) ∨ ∃ text put t, (name, text) ∈ c ∧
      Settles (field.read room) text (some put) ∧ part e = part (put t) := by
  induction h with
  | nil s => exact .inl ⟨List.not_mem_nil, rfl⟩
  | @unknown front text c s e unknown _ ih =>
    have different : name ≠ front := by
      rintro rfl
      rw [unknown] at found
      cases found
    rcases ih with ⟨absent, same⟩ | ⟨text, put, t, member, read, value⟩
    · exact .inl ⟨by simp [different, absent], same⟩
    · exact .inr ⟨text, put, t, List.mem_cons_of_mem _ member, read, value⟩
  | @known front text c s e field' put found' fresh read _ ih =>
    by_cases same : front = name
    · subst same
      obtain rfl := Option.some.inj (found'.symm.trans found)
      rcases ih with ⟨-, value⟩ | ⟨text, put, t, member, -⟩
      · exact .inr ⟨text, put, s, List.mem_cons_self, read, value⟩
      · exact absurd (mem_names member) fresh
    · have other : field'.name ≠ name := by rwa [field?_name found']
      have kept := others field' (List.mem_of_find?_eq_some found') other read s
      rcases ih with ⟨absent, value⟩ | ⟨text, put, t, member, read, value⟩
      · exact .inl ⟨by simp [Ne.symm same, absent], value.trans kept⟩
      · exact .inr ⟨text, put, t, List.mem_cons_of_mem _ member, read, value⟩

/-- A member has the name, and its value is read as `x`. -/
def Given (c : Contents) (name : String) (reader : Reader α) (x : α) : Prop :=
  ∃ text, (name, text) ∈ c ∧ Settles reader text (some x)

/-- The member with the name may be missing. -/
def Slot (c : Contents) (name : String) (reader : Reader α) (absent x : α) : Prop :=
  (name ∉ c.names ∧ x = absent) ∨ Given c name reader x

variable {reader : Reader α} {x y absent : α}

theorem Given.mem (h : Given c name reader x) : name ∈ c.names := by
  obtain ⟨text, member, -⟩ := h
  exact mem_names member

theorem Given.read {text : List Char} (h : Given c name reader x)
    (single : c.names.count name ≤ 1) (member : (name, text) ∈ c) :
    Settles reader text (some x) := by
  obtain ⟨text', member', read⟩ := h
  rwa [mem_unique single member member']

theorem Given.unique (h : Given c name reader x) (h' : Given c name reader y)
    (single : c.names.count name ≤ 1) : x = y := by
  obtain ⟨text, member, read⟩ := h
  exact Option.some.inj (read.unique (h'.read single member))

theorem Slot.read {text : List Char} (h : Slot c name reader absent x)
    (single : c.names.count name ≤ 1) (member : (name, text) ∈ c) :
    Settles reader text (some x) := by
  rcases h with ⟨missing, -⟩ | given
  · exact (missing (mem_names member)).elim
  · exact given.read single member

theorem Slot.given (h : Slot c name reader absent x) (present : name ∈ c.names) :
    Given c name reader x := h.resolve_left fun missing => missing.1 present

theorem Slot.unique (h : Slot c name reader absent x) (h' : Slot c name reader absent y)
    (single : c.names.count name ≤ 1) : x = y := by
  rcases h with ⟨missing, rfl⟩ | given
  · rcases h' with ⟨-, rfl⟩ | given
    · rfl
    · exact (missing given.mem).elim
  · obtain ⟨text, member, read⟩ := given
    exact Option.some.inj (read.unique (h'.read single member))

theorem count_cons_self_le {text : List Char} :
    (Contents.names ((name, text) :: c)).count name ≤ 1 ↔ name ∉ c.names := by
  rw [Contents.names_cons, List.count_cons_self, ← List.count_eq_zero]
  omega

/-- A value that says the same as no member may be left out. -/
theorem slot_cons {text : List Char} (missing : name ∉ c.names)
    (settles : Settles reader text (some absent)) :
    Slot ((name, text) :: c) name reader absent x ↔ Slot c name reader absent x := by
  constructor
  · intro h
    have read := h.read (count_cons_self_le.2 missing) List.mem_cons_self
    exact .inl ⟨missing, Option.some.inj (read.unique settles)⟩
  · rintro (⟨-, rfl⟩ | given)
    · exact .inr ⟨text, List.mem_cons_self, settles⟩
    · exact absurd given.mem missing

/-- The members with the name are the same. -/
structure Agree (c c' : Contents) (name : String) : Prop where
  count : c'.names.count name = c.names.count name
  members : ∀ text, (name, text) ∈ c' ↔ (name, text) ∈ c

theorem mem_names_iff : name ∈ c.names ↔ ∃ text, (name, text) ∈ c := by
  simp [Contents.names]

variable {c' : Contents}

theorem Given.agree (h : Given c name reader x) (agree : Agree c c' name) :
    Given c' name reader x := by
  obtain ⟨text, member, read⟩ := h
  exact ⟨text, (agree.members text).2 member, read⟩

theorem Slot.agree (h : Slot c name reader absent x) (agree : Agree c c' name) :
    Slot c' name reader absent x := by
  rcases h with ⟨missing, same⟩ | given
  · refine .inl ⟨?_, same⟩
    rw [mem_names_iff] at missing ⊢
    simpa only [agree.members] using missing
  · exact .inr (given.agree agree)

theorem Agree.symm (h : Agree c c' name) : Agree c' c name :=
  ⟨h.count.symm, fun text => (h.members text).symm⟩

theorem Agree.trans {c'' : Contents} (h : Agree c c' name) (h' : Agree c' c'' name) :
    Agree c c'' name :=
  ⟨h'.count.trans h.count, fun text => (h'.members text).trans (h.members text)⟩

theorem agree_perm (h : c.Perm c') (name : String) : Agree c c' name :=
  ⟨(h.map Prod.fst).symm.count_eq name, fun _ => h.symm.mem_iff⟩

theorem agree_cons {other : String} (h : other ≠ name) (text : List Char) :
    Agree c ((other, text) :: c) name :=
  ⟨by simp [List.count_cons_of_ne h], fun _ => by simp [Ne.symm h]⟩

theorem settles_return {text : List Char} (h : Settles reader text (some x)) (f : α → β) :
    Settles (do return f (← reader)) text (some (f x)) :=
  fun pad rest blanks ends => (h pad rest blanks ends).andThen (.value (f x))

/-- What the value of a field is read as is the part of the record that belongs to the field. -/
theorem Fills.given {shape : Shaped α} {put : ρ → α → ρ} (h : Fills fields room c s e)
    (values : ∀ m ∈ c, IsValue m.2) (found : field? fields name = some field)
    (puts : field.read = (Field.required name shape put).read) (decides : Decides (shape room))
    (others : ∀ f ∈ fields, f.name ≠ name → f.Spares part) {g : α → β}
    (sets : ∀ s x, part (put s x) = g x) :
    (name ∉ c.names ∧ part e = part s) ∨ ∃ x, Given c name (shape room) x ∧ part e = g x := by
  rcases h.part_eq found others with absent | ⟨text, fill, t, member, read, value⟩
  · exact .inl absent
  · rw [puts] at read
    -- The reader of the field reads something only if the shape does, and nothing else than that.
    obtain ⟨v, settles⟩ := decides (values _ member)
    cases v with
    | none =>
      have refused : Settles ((Field.required name shape put).read room) text none :=
        fun pad rest blanks ends => (settles pad rest blanks ends).stop _ rest
      cases read.unique refused
    | some x =>
      obtain rfl := Option.some.inj (read.unique (settles_return settles fun x => (put · x)))
      exact .inr ⟨x, ⟨text, member, settles⟩, value.trans (sets t x)⟩

theorem Fills.slot {part : ρ → α} {shape : Shaped α} {put : ρ → α → ρ}
    (h : Fills fields room c s e) (values : ∀ m ∈ c, IsValue m.2)
    (found : field? fields name = some field)
    (puts : field.read = (Field.required name shape put).read) (decides : Decides (shape room))
    (others : ∀ f ∈ fields, f.name ≠ name → f.Spares part) (sets : ∀ s x, part (put s x) = x) :
    Slot c name (shape room) (part s) (part e) := by
  rcases h.given values found puts decides others sets with absent | ⟨x, given, rfl⟩
  · exact .inl absent
  · exact .inr given

end Parts

end Records

end LayeredPreferences.Json

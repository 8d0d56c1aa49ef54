import LayeredPreferences.Definition.BuiltIn
import LayeredPreferences.Proofs.Definition
import LayeredPreferences.Proofs.Definition.Entry
import LayeredPreferences.Proofs.Definition.LastWord
import LayeredPreferences.Proofs.Registry
import LayeredPreferences.Resolution

set_option autoImplicit false

/-!
# Listings as definitions

The text of a listing is a list of entries. The value that each view shows is no field of an entry,
and what is left makes the definition of the view again.
-/
namespace LayeredPreferences

open Json

/-! ## Drafts -/

namespace Draft

theorem mapM_coerce_same {type : ValueType} {vs : List Value} (h : ∀ v ∈ vs, v.type = type) :
    vs.mapM (Value.coerce type) = .ok vs := by
  induction vs with
  | nil => rfl
  | cons v vs ih =>
    rw [List.mapM_cons, Value.coerce_same (h v (by simp)), ih fun v hv => h v (by simp [hv])]
    rfl

theorem domain_range {draft : Draft} {type : ValueType} {range : ValueRange}
    (h : draft.domain type = .ok (.range range)) : ¬ range.max < range.min := by
  unfold domain at h
  split at h
  · split at h <;> cases h
  · split at h
    · cases h
    · split_ifs at h with inverted
      cases h
      exact inverted

/-- A domain that came from a draft comes from every draft that holds its parts. -/
theorem domain_again {draft again : Draft} {d : Definition}
    (made : draft.domain d.valueType = .ok d.domain) (discrete : again.discrete = d.isDiscrete)
    (allowed : again.allowed = d.allowedValues) (range : again.range = d.range?) :
    again.domain d.valueType = .ok d.domain := by
  unfold domain
  rw [discrete, allowed, range]
  unfold Definition.isDiscrete Definition.allowedValues Definition.range?
  cases domain : d.domain with
  | discrete listed =>
    -- What was coerced to the type once is of that type, and stays as it is.
    rw [domain] at made
    simp [mapM_coerce_same (domain_allowed made)]
  | range bounds =>
    rw [domain] at made
    simp [domain_range made]

end Draft

namespace Definition

/-- The definition is what edits made of a key. -/
def Edited (d : Definition) : Prop :=
  ∃ key edits, ((Draft.ofKey key).applyAll edits).finish = .ok d

theorem Edited.built {d : Definition} (h : d.Edited) : d.Built := by
  obtain ⟨key, edits, finished⟩ := h
  exact ⟨_, finished⟩

theorem Edited.nodup_scopes {d : Definition} (h : d.Edited) : d.scopes.Nodup := by
  obtain ⟨key, edits, finished⟩ := h
  rw [(Draft.finish_eq_ok.1 finished).scopes]
  exact Draft.nodup_applyAll List.nodup_nil edits

end Definition

/-! ## Entries of definitions -/

namespace Entry

def ofDefinition (d : Definition) : Entry where
  key := d.key
  name := some d.name
  description := d.description
  valueType := some d.valueType
  defaultValue := some d.defaultValue
  discrete := d.isDiscrete
  allowed := some d.allowedValues
  range := d.range?
  scopes := d.scopes

/-- Values that are listed are those of a discrete domain. -/
theorem allowed_ofDefinition (d : Definition) :
    (if d.isDiscrete then (ofDefinition d).allowed.getD [] else []) = d.allowedValues := by
  unfold ofDefinition Definition.isDiscrete Definition.allowedValues
  cases d.domain <;> rfl

theorem define_ofDefinition {d : Definition} (edited : d.Edited)
    (named : (Text.trim d.name.toList).isEmpty = false) : (ofDefinition d).define = .ok d := by
  have distinct := edited.nodup_scopes
  obtain ⟨key, edits, finished⟩ := edited
  have made := Draft.finish_eq_ok.1 finished
  have scopes : Draft.merge [] d.scopes = d.scopes := Draft.merge_distinct distinct
  have keyed : d.key.isEmpty = false := made.key ▸ made.keyed
  have placed : d.scopes.isEmpty = false := made.scopes ▸ made.placed
  unfold define
  rw [applyAll_edits]
  refine Draft.finish_eq_ok.2 { key := rfl
                                keyed := keyed
                                name := rfl
                                named := by simpa [ofDefinition] using named
                                description := rfl
                                scopes := scopes.symm
                                placed := by rwa [← scopes] at placed
                                domain := ?_
                                accepted := ⟨d.defaultValue, rfl, rfl, ?_⟩ }
  · exact Draft.domain_again made.domain rfl (allowed_ofDefinition d) rfl
  · exact Definition.Built.validate_default ⟨_, finished⟩

end Entry

/-! ## Their texts -/

theorem settles_values {vs : List Value} {type : ValueType} (float : type ≠ .float)
    (typed : ∀ v ∈ vs, v.type = type) (room : Nat) :
    Settles (list Value.shape (room + 1)) (writeList (vs.map Value.write)) (some vs) := by
  have settles : ∀ v ∈ vs, Settles (Value.shape room) v.write (some (id v)) :=
    fun v hv => Value.settles_write (by rwa [typed v hv]) room
  simpa using settles_writeList (fun v _ => v.isValue_write) settles

theorem settles_scopes (scopes : List Scope) (room : Nat) :
    Settles (list Scope.shape (room + 1)) (writeList (scopes.map Scope.write)) (some scopes) := by
  have settles : ∀ scope ∈ scopes, Settles (Scope.shape room) scope.write (some (id scope)) :=
    fun scope _ => scope.settles_write room
  simpa using settles_writeList (fun scope _ => isValue_writeString scope.name) settles

theorem Definition.Built.typed_allowed {d : Definition} (built : d.Built) :
    ∀ v ∈ d.allowedValues, v.type = d.valueType := by
  obtain ⟨draft, finished⟩ := built
  have made := (Draft.finish_eq_ok.1 finished).domain
  unfold Definition.allowedValues
  cases domain : d.domain with
  | discrete allowed =>
    rw [domain] at made
    exact Draft.domain_allowed made
  | range range => exact nofun

namespace View

/-- The members of the text, the value that is shown behind those of the definition. -/
def contents : View → Contents
  | ⟨d, v⟩ =>
    [("key", writeString d.key),
     ("name", writeString d.name),
     ("description", writeString d.description),
     ("valueType", d.valueType.write),
     ("defaultValue", d.defaultValue.write),
     ("usesDiscreteValues", writeBool d.isDiscrete),
     ("allowedValues", writeList (d.allowedValues.map Value.write))]
    ++ (d.range?.map fun range => ("range", range.write)).toList
    ++ [("allowedScopes", writeList (d.scopes.map Scope.write)), ("value", v.write)]

theorem isObject_write (view : View) : IsObject view.contents view.write := by
  obtain ⟨d, v⟩ := view
  have allowed : IsValue (writeList (d.allowedValues.map Value.write)) :=
    isValue_writeList (List.forall_mem_map.2 fun v _ => v.isValue_write)
  have scopes : IsValue (writeList (d.scopes.map Scope.write)) :=
    isValue_writeList (List.forall_mem_map.2 fun scope _ => isValue_writeString scope.name)
  refine isObject_writeObject ?_
  rw [contents]
  simp only [List.forall_mem_append, List.forall_mem_cons]
  refine ⟨⟨⟨isValue_writeString _, isValue_writeString _, isValue_writeString _,
    isValue_writeString _, d.defaultValue.isValue_write, .token (.boolean _), allowed, nofun⟩, ?_⟩,
    scopes, v.isValue_write, nofun⟩
  intro m member
  obtain ⟨range, -, rfl⟩ := Option.map_eq_some_iff.1 (Option.mem_toList.1 member)
  exact range.isObject_write.isValue

/-- No two members have the same name, with a range or without one. -/
theorem nodup_contents (view : View) : view.contents.names.Nodup := by
  obtain ⟨d, v⟩ := view
  rw [contents]
  cases d.range? with
  | none => exact (by decide : ["key", "name", "description", "valueType", "defaultValue",
      "usesDiscreteValues", "allowedValues", "allowedScopes", "value"].Nodup)
  | some range => exact (by decide : ["key", "name", "description", "valueType", "defaultValue",
      "usesDiscreteValues", "allowedValues", "range", "allowedScopes", "value"].Nodup)

/-- Whatever the value of the view is, its members tell the entry of the definition. -/
theorem told {d : Definition} (built : d.Built) (float : d.valueType ≠ .float) (v : Value)
    (room : Nat) : Entry.Told (room + 1) (contents ⟨d, v⟩) (Entry.ofDefinition d) where
  single p := List.nodup_iff_count_le_one.1 (nodup_contents ⟨d, v⟩) p.member
  part p := by
    cases p with
    | key => exact ⟨writeString d.key, by simp [contents], settles_writeString d.key _⟩
    | name =>
      have read := settles_optional_value (isValue_writeString d.name)
        (by simp [writeString, nullWord]) (settles_writeString d.name (room + 1))
      exact .inr ⟨writeString d.name, by simp [contents], read⟩
    | description =>
      exact .inr ⟨writeString d.description, by simp [contents], settles_writeString _ _⟩
    | valueType => exact ⟨_, ⟨d.valueType.write, by simp [contents], ValueType.settles_write _ _⟩, rfl⟩
    | defaultValue =>
      have default : d.defaultValue.type ≠ .float := by
        rwa [Definition.validate_type built.validate_default]
      exact ⟨_, ⟨d.defaultValue.write, by simp [contents], Value.settles_write default _⟩, rfl⟩
    | discrete => exact .inr ⟨writeBool d.isDiscrete, by simp [contents], settles_writeBool _ _⟩
    | allowed =>
      have value : IsValue (writeList (d.allowedValues.map Value.write)) :=
        isValue_writeList (List.forall_mem_map.2 fun v _ => v.isValue_write)
      have read := settles_optional_value value (by simp [writeList, nullWord])
        (settles_values float built.typed_allowed room)
      exact .inr ⟨_, by simp [contents], read⟩
    | range =>
      change Slot _ _ _ none d.range?
      cases given : d.range? with
      | none => exact .inl ⟨by simp [contents, given], rfl⟩
      | some range =>
        have read := settles_optional_value range.isObject_write.isValue
          (by simp [ValueRange.write, writeObject, nullWord])
          (ValueRange.Members.minFirst.settles range.isObject_write room)
        exact .inr ⟨range.write, by simp [contents, given], read⟩
    | scopes =>
      exact ⟨writeList (d.scopes.map Scope.write), by simp [contents], settles_scopes d.scopes room⟩

/-! ## Listings -/

theorem parse_writeAll {vs : List View} (built : ∀ v ∈ vs, v.definition.Built)
    (float : ∀ v ∈ vs, v.definition.valueType ≠ .float) :
    parse (list Entry.shape) (.ofString (String.ofList (writeAll vs)))
      = .ok (vs.map fun v => Entry.ofDefinition v.definition) := by
  have settles : ∀ v ∈ vs,
      Settles (Entry.shape 126) v.write (some (Entry.ofDefinition v.definition)) :=
    fun v hv => (Entry.settles_iff v.isObject_write).2 (told (built v hv) (float v hv) v.value 124)
  have whole : Settles (list Entry.shape roomAtStart) (Item.bare (writeAll vs)).value _ :=
    settles_writeList (fun v _ => v.isObject_write.isValue) settles
  simpa using (parse_settled whole).2 rfl

theorem parseDefinitions_writeAll {vs : List View} (edited : ∀ v ∈ vs, v.definition.Edited)
    (float : ∀ v ∈ vs, v.definition.valueType ≠ .float)
    (named : ∀ v ∈ vs, (Text.trim v.definition.name.toList).isEmpty = false) :
    parseDefinitions (.ofString (String.ofList (writeAll vs)))
      = .ok (vs.map definition) := by
  have listed := parse_writeAll (fun v hv => (edited v hv).built) float
  unfold parseDefinitions
  rw [listed]
  refine mapM_eq_ok.2 (List.forall₂_map_left_iff.2 (List.forall₂_map_right_iff.2 ?_))
  refine List.forall₂_same.2 fun v hv => ?_
  exact Entry.define_ofDefinition (edited v hv) (named v hv)

/-- The text of a listing is the asset of the definitions that it lists, in their order. -/
theorem listing_is_an_asset {ds : List Definition} (edited : ∀ d ∈ ds, d.Edited)
    (float : ∀ d ∈ ds, d.valueType ≠ .float)
    (named : ∀ d ∈ ds, (Text.trim d.name.toList).isEmpty = false)
    (distinct : (ds.map Definition.key).Nodup) :
    ∃ r, Registry.load ds = .ok r ∧ ∀ (scope : Scope) (org user : String → Option Value),
      parseDefinitions (.ofString (String.ofList (writeAll (r.views scope org user))))
        = .ok (ds.filter (·.enabledAt scope)) := by
  refine ⟨⟨ds⟩, Registry.load_distinct distinct, fun scope org user => ?_⟩
  have listed : ∀ v ∈ Registry.views ⟨ds⟩ scope org user, v.definition ∈ ds := by
    intro v hv
    obtain ⟨d, hd, rfl⟩ := List.mem_map.1 hv
    exact (List.mem_filter.1 hd).1
  rw [parseDefinitions_writeAll (fun v hv => edited _ (listed v hv))
    (fun v hv => float _ (listed v hv)) fun v hv => named _ (listed v hv)]
  unfold Registry.views
  rw [List.map_map]
  exact congrArg Except.ok (List.map_id _)

/-- Free text, with letters that are escaped. -/
def salutation : Definition where
  key := "SALUTATION"
  name := "\"Grüße\"\n"
  description := ""
  valueType := .string
  defaultValue := .string "a\\b"
  domain := .discrete []
  scopes := [.user, .org]

def seats : Definition where
  key := "SEATS"
  name := "SEATS"
  description := ""
  valueType := .integer
  defaultValue := .integer Int64.minValue
  domain := .range ⟨Int64.minValue, Int64.maxValue⟩
  scopes := [.org]

/-- Every value that is shown is written `null`. -/
theorem listing_is_an_asset_notANumber :
    ∃ r, Registry.load [salutation, seats] = .ok r ∧
      parseDefinitions (.ofString (String.ofList (writeAll
        (r.views .org (fun _ => some (.float .notANumber)) fun _ => none))))
        = .ok [salutation, seats] := by
  have free : salutation.Edited :=
    ⟨"SALUTATION", [.name salutation.name, .defaultValue salutation.defaultValue, .allowedValues [],
      .scopes [.user, .org]], rfl⟩
  have bounded : seats.Edited :=
    ⟨"SEATS", [.defaultValue seats.defaultValue, .range ⟨Int64.minValue, Int64.maxValue⟩,
      .scope .org], rfl⟩
  obtain ⟨r, loaded, asset⟩ := listing_is_an_asset (by simp [free, bounded])
    (by decide : ∀ d ∈ [salutation, seats], d.valueType ≠ .float) (by decide) (by decide)
  exact ⟨r, loaded, asset .org _ _⟩

end View

end LayeredPreferences

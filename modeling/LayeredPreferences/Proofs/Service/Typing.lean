import LayeredPreferences.Proofs.Service.History

set_option autoImplicit false

/-!
# Types of values that are read

A value that was accepted for a definition has its type. It still has it when it is read from tables
again, but for a float that is not finite, which comes back as a string.
-/
namespace LayeredPreferences

open LayeredPreferences.Action CellStore

namespace Definition

/-- The stored value that counts at a scope. -/
def counted (d : Definition) (scope : Scope) (org user : Option Value) : Option Value :=
  match scope with
  | .org => org
  | .user => user <|> if .org ∈ d.scopes then org else none

theorem effective_counted (d : Definition) (scope : Scope) (org user : Option Value) :
    d.effective scope org user = match d.counted scope org user with
      | some v => d.sanitize v
      | none => d.effective scope none none := by
  cases scope with
  | org => cases org <;> rfl
  | user =>
    simp only [effective, select, counted, enabledAt_iff]
    cases user with
    | some v => rfl
    | none =>
      split
      · cases org <;> rfl
      · rfl

theorem counted_map (d : Definition) (scope : Scope) (f : Value → Value) (org user : Option Value) :
    d.counted scope (org.map f) (user.map f) = (d.counted scope org user).map f := by
  cases scope with
  | org => rfl
  | user =>
    cases user with
    | some v => rfl
    | none => by_cases on : Scope.org ∈ d.scopes <;> simp [counted, on]

theorem counted_eq_some {d : Definition} {scope : Scope} {org user : Option Value} {v : Value}
    (h : d.counted scope org user = some v) : org = some v ∨ user = some v := by
  cases scope with
  | org => exact .inl h
  | user =>
    cases user with
    | some w => exact .inr h
    | none =>
      by_cases on : Scope.org ∈ d.scopes
      · exact .inl (by simpa [counted, on] using h)
      · simp [counted, on] at h

/-- What is shown for the stored value that counts: a value of the right type, or for a float that
    is not finite the text that it was stored as. -/
inductive Shows (d : Definition) : Option Value → Value → Prop where
  | typed {stored : Option Value} {v : Value} (type : v.type = d.valueType)
    (finite : ∀ x, stored = some (.float x) → x.isFinite) : Shows d stored v
  | muted {x : Binary64} (type : d.valueType = .float) (h : ¬ x.isFinite) :
    Shows d (some (.float x)) (.string "null")

variable {d : Definition}

theorem shows_default (built : d.Built) (scope : Scope) :
    d.Shows none (d.effective scope none none) := by
  have type : d.defaultValue.type = d.valueType := validate_type built.validate_default
  have same : d.effective scope none none = d.choose scope none none :=
    effective_eq_choose built (by simp) (by simp) scope
  have unset : d.choose scope none none = d.defaultValue := by
    cases scope <;> simp [choose, select]
  rw [same, unset]
  exact .typed type (by simp)

theorem shows_stored {v : Value} (type : v.type = d.valueType) :
    d.Shows (some v) (d.sanitize (Value.decode v.encode)) := by
  by_cases float : d.valueType = .float
  · cases v with
    | float x =>
      by_cases finite : x.isFinite
      · obtain ⟨y, read⟩ := Value.decode_encode_finite finite
        have still : (Value.float y).type = d.valueType := type
        rw [read, sanitize_same still]
        refine .typed still fun x' same => ?_
        cases same
        exact finite
      · rw [Value.decode_encode_not_finite finite, sanitize, if_neg (by simp [float])]
        exact .muted float finite
    | boolean b => simp [Value.type, float] at type
    | integer n => simp [Value.type, float] at type
    | string s => simp [Value.type, float] at type
  · rw [sanitize_decode_encode type float]
    refine .typed type fun x same => ?_
    cases same
    exact absurd type.symm float

end Definition

namespace Keeps

variable {r : Registry} {given : Owner → String → Option Value} {t : Tables} {d : Definition}

theorem shows (h : Keeps r given t) (built : d.Built) (found : r.find? d.key = some d)
    (scope : Scope) (o o' : Owner) :
    d.Shows (d.counted scope (given o d.key) (given o' d.key))
      (d.effective scope (cell t o d.key) (cell t o' d.key)) := by
  rw [h.cells, h.cells, d.effective_counted, d.counted_map]
  cases stored : d.counted scope (given o d.key) (given o' d.key) with
  | none => exact Definition.shows_default built scope
  | some v =>
    have type : v.type = d.valueType := by
      rcases Definition.counted_eq_some stored with ofOrg | ofUser
      · exact h.type_given found o v ofOrg
      · exact h.type_given found o' v ofUser
    exact Definition.shows_stored type

end Keeps

namespace Operation

/-- Whatever was done before: a key that is closed is refused, and any other is answered with a value
of its type, or with the text of a float that is not finite. A listing shows the same values. -/
theorem answers_of_type {ds : List Definition} {r : Registry} (built : ∀ d ∈ ds, d.Built)
    (loaded : Registry.load ds = .ok r) (operations : List Operation) (scope : Scope)
    (org user : String) :
    let ended := run r operations Tables.empty
    let stored (d : Definition) := d.counted scope
      (Event.acknowledged ⟨.org, org⟩ d.key ended.1) (Event.acknowledged ⟨.user, user⟩ d.key ended.1)
    (∀ key, (∃ fault, outcome (Service.readAt r org user key scope) ended.2
        = (.error fault, ended.2)) ∨
      ∃ d ∈ ds, ∃ v, d.key = key ∧ d.Shows (stored d) v ∧
        outcome (Service.readAt r org user key scope) ended.2 = (.ok ⟨key, v⟩, ended.2)) ∧
    ∃ views, outcome (Service.listAt r org user scope) ended.2 = (.ok views, ended.2) ∧
      views.map (·.definition) = ds.filter (·.enabledAt scope) ∧
      ∀ view ∈ views, view.definition.Shows (stored view.definition) view.value := by
  intro ended stored
  obtain ⟨rfl, distinct⟩ := Registry.load_ok loaded
  have kept := keeps_run operations (Keeps.empty r)
  have shown {d : Definition} (member : d ∈ r.definitions) :=
    kept.shows (built d member) (Registry.find?_of_mem distinct member) scope ⟨.org, org⟩
      ⟨.user, user⟩
  refine ⟨fun key => ?_, r.views scope (cell ended.2 ⟨.org, org⟩) (cell ended.2 ⟨.user, user⟩),
    Service.listAt_intact kept.intact, ?_, fun view listed => ?_⟩
  · rcases r.closed_or_open scope key with ⟨fault, closed⟩ | ⟨d, found, on⟩
    · exact .inl ⟨fault, Service.readAt_closed org user closed ended.2⟩
    · obtain ⟨member, rfl⟩ := Registry.mem_of_find? found
      exact .inr ⟨d, member, _, rfl, shown member, Service.readAt_intact kept.intact found on⟩
  · rw [Registry.views, List.map_map]
    exact List.map_id _
  · obtain ⟨d, enabled, rfl⟩ := List.mem_map.1 listed
    exact shown (List.mem_filter.1 enabled).1

/-- A share, one half if nothing is set. -/
def rate : Definition where
  key := "RATE"
  name := "RATE"
  description := ""
  valueType := .float
  defaultValue := .float (.finite false ⟨0x3fe0000000000000, by decide⟩)
  domain := .range ⟨0, 1⟩
  scopes := [.org]

theorem rate_built : rate.Built :=
  ⟨(Draft.ofKey "RATE").applyAll [.defaultValue rate.defaultValue, .range ⟨0, 1⟩,
    .scope .org], rfl⟩

/-- The organization has set what is not a number. -/
theorem answers_of_type_notANumber :
    let ended := run ⟨[rate]⟩ [.write ⟨.org, "acme"⟩ "RATE" (.float .notANumber)] Tables.empty
    ∃ views, outcome (Service.listAt ⟨[rate]⟩ "acme" "" .org) ended.2 = (.ok views, ended.2) ∧
      ∀ view ∈ views, view.definition.Shows
        (view.definition.counted .org
          (Event.acknowledged ⟨.org, "acme"⟩ view.definition.key ended.1)
          (Event.acknowledged ⟨.user, ""⟩ view.definition.key ended.1)) view.value := by
  have loaded : Registry.load [rate] = .ok ⟨[rate]⟩ := rfl
  obtain ⟨-, views, listed, -, shown⟩ := answers_of_type (by simpa using rate_built) loaded
    [.write ⟨.org, "acme"⟩ "RATE" (.float .notANumber)] .org "acme" ""
  exact ⟨views, listed, shown⟩

/-- What is not a number is acknowledged as a float, and read as a string. -/
theorem not_always_of_type :
    let ended := run ⟨[rate]⟩ [.write ⟨.org, "acme"⟩ "RATE" (.float .notANumber)] Tables.empty
    rate.Built ∧ Registry.load [rate] = .ok ⟨[rate]⟩ ∧
      Event.acknowledged ⟨.org, "acme"⟩ "RATE" ended.1 = some (.float .notANumber) ∧
      ∃ v, outcome (Service.readOrg ⟨[rate]⟩ "acme" "RATE") ended.2 = (.ok ⟨"RATE", v⟩, ended.2) ∧
        v.type ≠ rate.valueType := by
  intro ended
  have acknowledged :
      Event.acknowledged ⟨.org, "acme"⟩ "RATE" ended.1 = some (.float .notANumber) := by
    decide +kernel
  have kept : Keeps ⟨[rate]⟩ (fun o k => Event.acknowledged o k ended.1) ended.2 :=
    keeps_run _ (Keeps.empty _)
  have stored : cell ended.2 ⟨.org, "acme"⟩ "RATE" = some (.string "null") := by
    rw [kept.cells, acknowledged]
    exact congrArg some (Value.decode_encode_not_finite (by decide))
  have found : Registry.find? ⟨[rate]⟩ "RATE" = some rate := by decide
  refine ⟨rate_built, rfl, acknowledged, .string "null", ?_, by decide⟩
  have read : outcome (Service.readAt ⟨[rate]⟩ "acme" "" "RATE" .org) ended.2 = _ :=
    Service.readAt_intact kept.intact found (by decide)
  rw [stored] at read
  exact read

end Operation

end LayeredPreferences

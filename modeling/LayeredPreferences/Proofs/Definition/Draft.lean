import LayeredPreferences.Proofs.Definition.Asset
import LayeredPreferences.Proofs.Text.Blank
import LayeredPreferences.Proofs.Validation

set_option autoImplicit false

/-!
# Drafts that are finished

What a draft must have is looked at in one order: its key, its name, its default, its scopes, its
domain, and then whether the default lies in the domain. A draft that has all of it is finished, and
any other fails for the first that it lacks.
-/
namespace LayeredPreferences.Draft

/-! ## What a draft must have -/

/-- The type of the values, if `v` is the default. -/
def typeFor (draft : Draft) (v : Value) : ValueType := draft.valueType.getD v.type

/-- Only the half of the domain that is used counts. -/
inductive Describes (draft : Draft) (type : ValueType) : Domain → Prop where
  | discrete {allowed : List Value} (flag : draft.discrete = true)
    (each : List.Forall₂ (Value.CountsAs type) draft.allowed allowed) :
    Describes draft type (.discrete allowed)
  | range {bounds : ValueRange} (flag : draft.discrete = false)
    (given : draft.range = some bounds) (ordered : bounds.min ≤ bounds.max) :
    Describes draft type (.range bounds)

structure Keyed (draft : Draft) : Prop where
  key : draft.key ≠ ""

structure Named (draft : Draft) : Prop extends Keyed draft where
  name : ∀ name, draft.name = some name → ∃ c ∈ name.toList, Text.isBlank c = false

structure Valued (draft : Draft) (v : Value) : Prop extends Named draft where
  value : draft.defaultValue = some v

structure Placed (draft : Draft) (v : Value) : Prop extends Valued draft v where
  scopes : draft.scopes ≠ []

structure Bounded (draft : Draft) (v : Value) (domain : Domain) : Prop
    extends Placed draft v where
  described : draft.Describes (draft.typeFor v) domain

structure Complete (draft : Draft) (v w : Value) (domain : Domain) : Prop
    extends Bounded draft v domain where
  counts : v.CountsAs (draft.typeFor v) w
  inside : domain.Contains w

/-- The definition of a complete draft. -/
def definition (draft : Draft) (type : ValueType) (w : Value) (domain : Domain) : Definition where
  key := draft.key
  name := draft.name.getD draft.key
  description := draft.description
  valueType := type
  defaultValue := w
  domain := domain
  scopes := draft.scopes

/-- What is lacking, though all that is looked at before is there. -/
inductive Lacks (draft : Draft) : SchemaFault → Prop where
  | key (h : draft.key = "") : Lacks draft .emptyKey
  | name (before : Keyed draft) {name : String} (given : draft.name = some name)
    (blank : ∀ c ∈ name.toList, Text.isBlank c = true) : Lacks draft (.blankName draft.key)
  | value (before : Named draft) (h : draft.defaultValue = none) : Lacks draft (.noDefault draft.key)
  | scope {v : Value} (before : Valued draft v) (h : draft.scopes = []) :
    Lacks draft (.noScope draft.key)
  | allowed {v a : Value} {front back : List Value} (before : Placed draft v)
    (flag : draft.discrete = true) (listed : draft.allowed = front ++ a :: back)
    (passed : ∀ b ∈ front, ∃ w, b.CountsAs (draft.typeFor v) w)
    (failed : ∀ w, ¬ a.CountsAs (draft.typeFor v) w) :
    Lacks draft (.badAllowedValue draft.key (.wrongType (draft.typeFor v) a.type))
  | range {v : Value} (before : Placed draft v) (flag : draft.discrete = false)
    (h : draft.range = none) : Lacks draft (.noDomain draft.key)
  | order {v : Value} {bounds : ValueRange} (before : Placed draft v)
    (flag : draft.discrete = false) (given : draft.range = some bounds)
    (inverted : bounds.max < bounds.min) : Lacks draft (.emptyRange draft.key bounds)
  | inside {v : Value} {domain : Domain} {fault : ValueFault} (before : Bounded draft v domain)
    (refused : Definition.Refuses (draft.typeFor v) domain v fault) :
    Lacks draft (.badDefault draft.key fault)

/-! ## Domains -/

theorem domain_eq_ok {draft : Draft} {type : ValueType} {domain : Domain} :
    draft.domain type = .ok domain ↔ draft.Describes type domain := by
  unfold Draft.domain
  cases flag : draft.discrete with
  | true =>
    rw [if_pos rfl]
    have each (allowed : List Value) : draft.allowed.mapM (Value.coerce type) = .ok allowed ↔
        List.Forall₂ (Value.CountsAs type) draft.allowed allowed := by
      rw [mapM_eq_ok]
      simp only [Value.coerce_eq_ok]
    constructor
    · intro h
      split at h
      · rename_i allowed coerced
        cases h
        exact .discrete flag ((each allowed).1 coerced)
      · cases h
    · intro h
      cases h with
      | discrete _ counted => rw [(each _).2 counted]
      | range other => cases flag.symm.trans other
  | false =>
    rw [if_neg (by simp)]
    constructor
    · intro h
      split at h
      · cases h
      · rename_i bounds given
        split_ifs at h with inverted
        cases h
        exact .range flag given (Int64.not_lt.1 inverted)
    · intro h
      cases h with
      | discrete other => cases flag.symm.trans other
      | range _ given ordered =>
        rw [given]
        dsimp only
        rw [if_neg (Int64.not_lt.2 ordered)]

/-- A domain that is refused is one of three things that a draft lacks. -/
theorem lacks_of_domain {draft : Draft} {v : Value} {fault : SchemaFault} (before : Placed draft v)
    (h : draft.domain (draft.typeFor v) = .error fault) : draft.Lacks fault := by
  unfold Draft.domain at h
  split at h
  · rename_i flag
    split at h
    · cases h
    · rename_i found failed
      cases h
      obtain ⟨front, a, back, listed, passed, refused⟩ := exists_first_failure failed
      obtain ⟨none, rfl⟩ := Value.coerce_eq_error.1 refused
      exact .allowed before flag listed
        (fun b member => (passed b member).imp fun _ => Value.coerce_eq_ok.1) none
  · rename_i flag
    have off : draft.discrete = false := by simpa using flag
    split at h
    · rename_i absent
      cases h
      exact .range before off absent
    · rename_i bounds given
      split_ifs at h with inverted
      cases h
      exact .order before off given inverted

/-! ## Finishing -/

theorem any_blank_eq_false {draft : Draft} :
    draft.name.any (fun name => (Text.trim name.toList).isEmpty) = false ↔
      ∀ name, draft.name = some name → ∃ c ∈ name.toList, Text.isBlank c = false := by
  cases draft.name with
  | none => simp
  | some name =>
    have shown : (Text.trim name.toList).isEmpty = false ↔
        ∃ c ∈ name.toList, Text.isBlank c = false := by
      rw [List.isEmpty_eq_false_iff, Ne, Text.trim_eq_nil_iff]
      simp
    simpa using shown

theorem finish_eq_ok_iff {draft : Draft} {d : Definition} : draft.finish = .ok d ↔
    ∃ v w domain, draft.Complete v w domain ∧ d = draft.definition (draft.typeFor v) w domain := by
  rw [finish_eq_ok]
  constructor
  · intro h
    obtain ⟨v, value, type, valid⟩ := h.accepted
    obtain ⟨counts, inside⟩ := Definition.validate_eq_ok_iff.1 valid
    have described := domain_eq_ok.1 h.domain
    change d.valueType = draft.typeFor v at type
    rw [type] at counts described
    refine ⟨v, d.defaultValue, d.domain, ?_, ?_⟩
    · exact
        { key := by simpa using h.keyed
          name := any_blank_eq_false.1 h.named
          value := value
          scopes := by simpa using h.placed
          described := described
          counts := counts
          inside := inside }
    · obtain ⟨key, name, description, valueType, defaultValue, domain, scopes⟩ := d
      cases h.key
      cases h.name
      cases h.description
      cases h.scopes
      cases type
      rfl
  · rintro ⟨v, w, domain, h, rfl⟩
    exact
      { key := rfl
        keyed := by simpa using h.key
        name := rfl
        named := any_blank_eq_false.2 h.name
        description := rfl
        scopes := rfl
        placed := by simpa using h.scopes
        domain := domain_eq_ok.2 h.described
        accepted := ⟨v, h.value, rfl, Definition.validate_eq_ok_iff.2 ⟨h.counts, h.inside⟩⟩ }

/-- The checks before the domain, passed. -/
theorem finish_placed {draft : Draft} {v : Value} (h : Placed draft v) : draft.finish = (do
    let domain ← draft.domain (draft.typeFor v)
    match (draft.definition (draft.typeFor v) v domain).validate v with
    | .ok accepted => .ok (draft.definition (draft.typeFor v) accepted domain)
    | .error fault => .error (.badDefault draft.key fault)) := by
  have keyed : draft.key.isEmpty = false := by simpa using h.key
  have named := any_blank_eq_false.2 h.name
  have placed : draft.scopes.isEmpty = false := by simpa using h.scopes
  unfold finish
  simp only [keyed, named, h.value, placed, Bool.false_eq_true, if_false]
  rfl

theorem finish_lacks {draft : Draft} {fault : SchemaFault} (h : draft.Lacks fault) :
    draft.finish = .error fault := by
  cases h with
  | key h =>
    have unkeyed : draft.key.isEmpty = true := by simpa using h
    unfold finish
    rw [if_pos unkeyed]
    rfl
  | name before given blank =>
    have keyed : draft.key.isEmpty = false := by simpa using before.key
    have unnamed : draft.name.any (fun name => (Text.trim name.toList).isEmpty) = true := by
      simpa [given, Text.trim_eq_nil_iff] using blank
    unfold finish
    simp only [keyed, unnamed, Bool.false_eq_true, if_false, if_true]
    rfl
  | value before h =>
    have keyed : draft.key.isEmpty = false := by simpa using before.key
    have named := any_blank_eq_false.2 before.name
    unfold finish
    simp only [keyed, named, h, Bool.false_eq_true, if_false]
    rfl
  | scope before h =>
    have keyed : draft.key.isEmpty = false := by simpa using before.key
    have named := any_blank_eq_false.2 before.name
    have none : draft.scopes.isEmpty = true := by simpa using h
    unfold finish
    simp only [keyed, named, before.value, none, Bool.false_eq_true, if_false, if_true]
    rfl
  | @allowed v a front back before flag listed passed failed =>
    have counted : ∀ b ∈ front, ∃ w, b.coerce (draft.typeFor v) = .ok w := by
      intro b member
      obtain ⟨w, counts⟩ := passed b member
      exact ⟨w, Value.coerce_eq_ok.2 counts⟩
    have refused := Value.coerce_eq_error.2 ⟨failed, rfl⟩
    rw [finish_placed before, Draft.domain, if_pos flag, listed, mapM_stops counted refused]
    rfl
  | range before flag h =>
    rw [finish_placed before, Draft.domain, if_neg (by simp [flag]), h]
    rfl
  | order before flag given inverted =>
    rw [finish_placed before, Draft.domain, if_neg (by simp [flag]), given]
    dsimp only
    rw [if_pos inverted]
    rfl
  | inside before refused =>
    rw [finish_placed before.toPlaced, domain_eq_ok.2 before.described]
    change (match Definition.validate _ _ with | .ok accepted => _ | .error fault => _) = _
    rw [Definition.validate_eq_error.2 refused]

theorem complete_or_lacks (draft : Draft) :
    (∃ v w domain, draft.Complete v w domain) ∨ ∃ fault, draft.Lacks fault := by
  -- The conditions are asked for one after the other, and the first that fails is what is lacking.
  by_cases key : draft.key = ""
  · exact .inr ⟨_, .key key⟩
  by_cases name : ∀ name, draft.name = some name → ∃ c ∈ name.toList, Text.isBlank c = false
  case neg =>
    simp only [not_forall, not_exists, not_and, Bool.not_eq_false] at name
    obtain ⟨name, given, blank⟩ := name
    exact .inr ⟨_, .name ⟨key⟩ given blank⟩
  cases value : draft.defaultValue with
  | none => exact .inr ⟨_, .value ⟨⟨key⟩, name⟩ value⟩
  | some v =>
    by_cases scopes : draft.scopes = []
    · exact .inr ⟨_, .scope ⟨⟨⟨key⟩, name⟩, value⟩ scopes⟩
    have placed : Placed draft v := ⟨⟨⟨⟨key⟩, name⟩, value⟩, scopes⟩
    cases made : draft.domain (draft.typeFor v) with
    | error fault => exact .inr ⟨fault, lacks_of_domain placed made⟩
    | ok domain =>
      have bounded : Bounded draft v domain := ⟨placed, domain_eq_ok.1 made⟩
      cases valid : (draft.definition (draft.typeFor v) v domain).validate v with
      | error fault => exact .inr ⟨_, .inside bounded (Definition.validate_eq_error.1 valid)⟩
      | ok w =>
        obtain ⟨counts, inside⟩ := Definition.validate_eq_ok_iff.1 valid
        exact .inl ⟨v, w, domain, bounded, counts, inside⟩

theorem finish_eq_error_iff {draft : Draft} {fault : SchemaFault} :
    draft.finish = .error fault ↔ draft.Lacks fault := by
  refine ⟨fun failed => ?_, finish_lacks⟩
  rcases draft.complete_or_lacks with ⟨v, w, domain, complete⟩ | ⟨other, lacks⟩
  · rw [finish_eq_ok_iff.2 ⟨v, w, domain, complete, rfl⟩] at failed
    cases failed
  · rw [finish_lacks lacks] at failed
    cases failed
    exact lacks

/-! ## Finished definitions -/

theorem validate_listed {draft : Draft} {d : Definition} (h : draft.finish = .ok d) {v : Value}
    (listed : v ∈ d.allowedValues) :
    v.type = d.valueType ∧ (v ≠ .float .notANumber → d.validate v = .ok v) := by
  have made := (finish_eq_ok.1 h).domain
  unfold Definition.allowedValues at listed
  split at listed
  · rename_i allowed discrete
    rw [discrete] at made
    have type : v.type = d.valueType := domain_allowed made v listed
    refine ⟨type, fun number => Definition.validate_eq_ok_iff.2 ⟨.itself type, ?_⟩⟩
    rw [discrete]
    exact .listed listed (Value.equal_self number)
  · cases listed

/-- Whatever the edits were, a draft is finished if it is complete, and otherwise fails for the first
that it lacks. -/
theorem finishes_the_complete (key : String) (edits : List Edit) :
    let draft := (ofKey key).applyAll edits
    (∀ d, draft.finish = .ok d ↔ ∃ v w domain, draft.Complete v w domain ∧
      d = draft.definition (draft.typeFor v) w domain) ∧
    (∀ fault, draft.finish = .error fault ↔ draft.Lacks fault) ∧
    ∀ d, draft.finish = .ok d → d.scopes ≠ [] ∧ d.scopes.Nodup ∧
      (∀ v ∈ d.allowedValues, v.type = d.valueType) ∧
      d.validate d.defaultValue = .ok d.defaultValue ∧
      ∀ v ∈ d.allowedValues, v ≠ .float .notANumber → d.validate v = .ok v := by
  intro draft
  refine ⟨fun d => finish_eq_ok_iff, fun fault => finish_eq_error_iff, fun d finished => ?_⟩
  have edited : d.Edited := ⟨key, edits, finished⟩
  have made := finish_eq_ok.1 finished
  refine ⟨?_, edited.nodup_scopes, fun v listed => (validate_listed finished listed).1,
    edited.built.validate_default, fun v listed => (validate_listed finished listed).2⟩
  rw [made.scopes]
  simpa using made.placed

/-- Two of the numbers are given as floats, and a scope is given twice. -/
theorem finishes_the_complete_levels :
    let four : Value := .float (.finite false ⟨0x4010000000000000, by decide⟩)
    let seven : Value := .float (.finite false ⟨0x401c000000000000, by decide⟩)
    let draft := (ofKey "LEVEL").applyAll [.valueType .integer, .scopes [.user, .org, .user],
      .defaultValue four, .allowedValues [.integer 4, seven]]
    ∃ d, draft.finish = .ok d ∧ d.scopes = [.user, .org] ∧
      d.validate (.integer 7) = .ok (.integer 7) := by
  intro four seven draft
  have counts {x : Binary64} {n : Int} (whole : x.toInt? = some n) (low : -2 ^ 63 ≤ n)
      (high : n < 2 ^ 63) : (Value.float x).CountsAs .integer (.integer (.ofInt n)) :=
    .whole rfl (Binary64.toInt?_eq_some.1 whole) low high
  have four_counts : four.CountsAs .integer (.integer 4) :=
    counts (n := 4) (by decide +kernel) (by decide) (by decide)
  have seven_counts : seven.CountsAs .integer (.integer 7) :=
    counts (n := 7) (by decide +kernel) (by decide) (by decide)
  have complete : draft.Complete four (.integer 4) (.discrete [.integer 4, .integer 7]) :=
    { key := by decide
      name := nofun
      value := rfl
      scopes := by decide
      described := .discrete rfl (.cons (.itself rfl) (.cons seven_counts .nil))
      counts := four_counts
      inside := .listed List.mem_cons_self (.itself (by decide)) }
  obtain ⟨finishes, -, sound⟩ := finishes_the_complete "LEVEL" [.valueType .integer,
    .scopes [.user, .org, .user], .defaultValue four, .allowedValues [.integer 4, seven]]
  have finished := (finishes _).2 ⟨_, _, _, complete, rfl⟩
  obtain ⟨-, -, -, -, listed⟩ := sound _ finished
  exact ⟨_, finished, rfl, listed (.integer 7) (by decide) nofun⟩

end LayeredPreferences.Draft

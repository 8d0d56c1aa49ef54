import LayeredPreferences.Proofs.Definition.Meaning

set_option autoImplicit false

/-!
# The last word on a draft

Edits may come in any order and as often as one likes. Each part of a draft is what was said of it
last; only scopes add up, and stay where they were first. The half of the domain that is not used has
no say in what becomes of the draft.
-/
namespace LayeredPreferences

/-! ## What edits say -/

namespace Edit

variable {α : Type}

def name? : Edit → Option String
  | .name s => some s
  | _ => none

def description? : Edit → Option String
  | .description s => some s
  | _ => none

def valueType? : Edit → Option ValueType
  | .valueType type => some type
  | _ => none

def defaultValue? : Edit → Option Value
  | .defaultValue v => some v
  | _ => none

/-- Two kinds of edits say whether the domain is discrete. -/
def discrete? : Edit → Option Bool
  | .discrete b => some b
  | .allowedValues _ => some true
  | _ => none

def allowed? : Edit → Option (List Value)
  | .allowedValues vs => some vs
  | _ => none

def range? : Edit → Option ValueRange
  | .range bounds => some bounds
  | _ => none

/-- The scopes that an edit names. -/
def added : Edit → List Scope
  | .scope s => [s]
  | .scopes ss => ss
  | _ => []

/-- What is said last of a part. -/
def last (part : Edit → Option α) (edits : List Edit) : Option α := (edits.filterMap part).getLast?

theorem last_single (part : Edit → Option α) (edit : Edit) : last part [edit] = part edit := by
  unfold last
  cases said : part edit <;> simp [said]

theorem last_append (part : Edit → Option α) (front back : List Edit) :
    last part (front ++ back) = (last part back).or (last part front) := by
  rw [last, List.filterMap_append, List.getLast?_append]
  rfl

/-- Whether the domain is discrete in the end. -/
def isDiscrete (edits : List Edit) : Bool := (last discrete? edits).getD false

/-- The edits say the same in the end. Of allowed values and ranges only those count that are used. -/
structure Agree (edits edits' : List Edit) : Prop where
  name : last name? edits = last name? edits'
  description : last description? edits = last description? edits'
  valueType : last valueType? edits = last valueType? edits'
  defaultValue : last defaultValue? edits = last defaultValue? edits'
  discrete : isDiscrete edits = isDiscrete edits'
  allowed : isDiscrete edits = true → last allowed? edits = last allowed? edits'
  range : isDiscrete edits = false → last range? edits = last range? edits'
  scopes : (edits.flatMap added).eraseDups = (edits'.flatMap added).eraseDups

end Edit

namespace Draft

open Edit

/-! ## What drafts keep -/

/-- The draft with what the edits say last in the place of what was there. -/
def amended (draft : Draft) (edits : List Edit) : Draft where
  key := draft.key
  name := (last name? edits).or draft.name
  description := (last description? edits).getD draft.description
  valueType := (last valueType? edits).or draft.valueType
  defaultValue := (last defaultValue? edits).or draft.defaultValue
  discrete := (last discrete? edits).getD draft.discrete
  allowed := (last allowed? edits).getD draft.allowed
  range := (last range? edits).or draft.range
  scopes := merge draft.scopes (edits.flatMap added)

theorem amended_nil (draft : Draft) : draft.amended [] = draft := rfl

theorem amended_append (draft : Draft) (front back : List Edit) :
    (draft.amended front).amended back = draft.amended (front ++ back) := by
  simp [amended, last_append, Option.or_assoc, Option.getD_or, merge_append]

theorem apply_eq (draft : Draft) (edit : Edit) : draft.apply edit = draft.amended [edit] := by
  simp only [amended, last_single, List.flatMap_singleton]
  cases edit with
  | scope scope => exact addScopes_merge draft [scope]
  | scopes scopes => exact addScopes_merge draft scopes
  | _ => rfl

/-- The induction is from the first edit on; each amends what the ones before it have left. -/
theorem applyAll_eq (draft : Draft) (edits : List Edit) :
    draft.applyAll edits = draft.amended edits := by
  induction edits generalizing draft with
  | nil => exact draft.amended_nil.symm
  | cons edit edits ih =>
    calc
      draft.applyAll (edit :: edits) = (draft.apply edit).applyAll edits := rfl
      _ = (draft.amended [edit]).amended edits := by rw [ih, apply_eq]
      _ = draft.amended (edit :: edits) := draft.amended_append [edit] edits

@[simp]
theorem applyAll_key (draft : Draft) (edits : List Edit) :
    (draft.applyAll edits).key = draft.key := by
  rw [applyAll_eq]
  rfl

theorem nodup_applyAll {draft : Draft} (h : draft.scopes.Nodup) (edits : List Edit) :
    (draft.applyAll edits).scopes.Nodup := by
  rw [applyAll_eq]
  exact nodup_merge h _

/-- The draft of which each part is what the edits say last. -/
def lastSaid (key : String) (edits : List Edit) : Draft where
  key := key
  name := last name? edits
  description := (last description? edits).getD ""
  valueType := last valueType? edits
  defaultValue := last defaultValue? edits
  discrete := isDiscrete edits
  allowed := (last allowed? edits).getD []
  range := last range? edits
  scopes := (edits.flatMap added).eraseDups

theorem applyAll_ofKey (key : String) (edits : List Edit) :
    (ofKey key).applyAll edits = lastSaid key edits := by
  have scopes : merge [] (edits.flatMap added) = (edits.flatMap added).eraseDups := by
    rw [merge_eq, List.removeAll_nil, List.nil_append]
  simp only [applyAll_eq, amended, ofKey, Option.or_none, scopes]
  rfl

theorem finish_lastSaid {edits edits' : List Edit} (h : Agree edits edits') (key : String) :
    (lastSaid key edits).finish = (lastSaid key edits').finish := by
  unfold lastSaid
  rw [h.name, h.description, h.valueType, h.defaultValue, h.scopes]
  cases discrete : isDiscrete edits with
  | false =>
    rw [← h.discrete, discrete, h.range discrete]
    exact (finish_allowed rfl _).symm
  | true =>
    rw [← h.discrete, discrete, h.allowed discrete]
    exact (finish_range rfl _).symm

/-- So edits that agree make the same definition, or fail alike. -/
theorem has_what_was_said_last (key : String) (edits : List Edit) :
    (ofKey key).applyAll edits = lastSaid key edits ∧
    ∀ edits', Agree edits edits' →
      ((ofKey key).applyAll edits).finish = ((ofKey key).applyAll edits').finish := by
  refine ⟨applyAll_ofKey key edits, fun edits' agree => ?_⟩
  rw [applyAll_ofKey, applyAll_ofKey]
  exact finish_lastSaid agree key

/-- The edits that are revised are wrong in themselves: a blank name, a default that is no number, a
range without values, and allowed values of another type. -/
theorem has_what_was_said_last_revised :
    let revised : List Edit := [.allowedValues [.string "few"], .range ⟨9, 1⟩, .discrete false,
      .name " ", .scope .user, .defaultValue (.string "few"), .range ⟨1, 5⟩, .name "Level",
      .scopes [.org, .user], .defaultValue (.integer 3)]
    let plain : List Edit := [.defaultValue (.integer 3), .scopes [.user, .org, .user],
      .range ⟨1, 5⟩, .name "Level"]
    Agree revised plain ∧
      ((ofKey "LEVEL").applyAll revised).finish = ((ofKey "LEVEL").applyAll plain).finish ∧
      ∃ d, ((ofKey "LEVEL").applyAll plain).finish = .ok d ∧ d.name = "Level" ∧
        d.valueType = .integer ∧ d.domain = .range ⟨1, 5⟩ ∧ d.scopes = [.user, .org] := by
  intro revised plain
  have agree : Agree revised plain :=
    { name := rfl
      description := rfl
      valueType := rfl
      defaultValue := rfl
      discrete := rfl
      allowed := nofun
      range := fun _ => rfl
      scopes := rfl }
  have same := (has_what_was_said_last "LEVEL" revised).2 plain agree
  exact ⟨agree, same, _, rfl, rfl, rfl, rfl, rfl⟩

end Draft

end LayeredPreferences

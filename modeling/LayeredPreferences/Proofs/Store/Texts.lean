import LayeredPreferences.Proofs.Json.Written
import LayeredPreferences.Proofs.Store.Codec
import LayeredPreferences.Proofs.Validation

set_option autoImplicit false

/-!
# Values by their stored texts

Every value has a stored text, and that text is JSON. Two values that are no floats have the same text
only if one of them is a boolean and the other the integer that is stored for it. So a text tells which
value of a type was stored.
-/
namespace LayeredPreferences

namespace Value

theorem recoded_same {v : Value} (h : v.type ≠ .boolean) : v.recoded = v := by
  cases v with
  | boolean b => exact absurd rfl h
  | _ => rfl

theorem encode_recoded (v : Value) : v.recoded.encode = v.encode := by
  by_cases boolean : v.type = .boolean
  · cases v with
    | boolean b => exact (encode_boolean b).symm
    | _ => cases boolean
  · rw [recoded_same boolean]

theorem isValue_encode (v : Value) : Json.IsValue v.encode.toList := by
  have apart : v.recoded.type ≠ .boolean := by
    cases v <;> simp [recoded, type]
  rw [← encode_recoded, encode_eq_write _ apart, String.toList_ofList]
  exact isValue_write _

theorem encode_eq_iff {v w : Value} (hv : v.type ≠ .float) (hw : w.type ≠ .float) :
    v.encode = w.encode ↔ v.recoded = w.recoded := by
  constructor
  · intro h
    rw [← decode_encode v hv, ← decode_encode w hw, h]
  · intro h
    rw [← v.encode_recoded, ← w.encode_recoded, h]

theorem eq_of_recoded {v w : Value} (same : v.type = w.type) (h : v.recoded = w.recoded) :
    v = w := by
  by_cases boolean : v.type = .boolean
  · cases v with
    | boolean b =>
      cases w with
      | boolean c =>
        have number : ∀ b c : Bool, (if b then 1 else 0 : Int64) = (if c then 1 else 0) → b = c := by
          decide
        rw [number b c (Value.integer.inj h)]
      | _ => cases same
    | _ => cases boolean
  · rwa [recoded_same boolean, recoded_same (same ▸ boolean)] at h

/-- What is accepted is of the type of its definition, so a whole float that is accepted for an
integer is stored as that integer. -/
theorem comes_back_from_its_text :
    (∀ v : Value, Json.IsValue v.encode.toList) ∧
    (∀ n, decode (encode (.integer n)) = .integer n) ∧
    (∀ s, decode (encode (.string s)) = .string s) ∧
    (∀ b, decode (encode (.boolean b)) = .integer (if b then 1 else 0)) ∧
    (∀ v w : Value, v.type = w.type → v.type ≠ .float → v ≠ w → v.encode ≠ w.encode) ∧
    ∀ (d : Definition) (v w : Value), d.valueType ≠ .float → d.validate v = .ok w →
      d.sanitize (decode w.encode) = w := by
  refine ⟨isValue_encode, fun n => decode_encode _ nofun, fun s => decode_encode _ nofun,
    decode_encode_boolean, ?_, ?_⟩
  · intro v w same float apart shared
    exact apart (eq_of_recoded same ((encode_eq_iff float (same ▸ float)).1 shared))
  · intro d v w float accepted
    exact Definition.sanitize_decode_encode (Definition.validate_type accepted) float

/-- A string may look like the stored text of another value. -/
theorem comes_back_from_its_text_quoted :
    let one : Value := .string "1"
    let quoted : Value := .string one.encode
    let switch : Definition :=
      { Definition.tally with
        valueType := .boolean, defaultValue := .boolean false, domain := .discrete [] }
    decode quoted.encode = quoted ∧ one.encode ≠ quoted.encode ∧
      switch.validate (.boolean true) = .ok (.boolean true) ∧
      encode (.boolean true) = "1" ∧ switch.sanitize (decode "1") = .boolean true := by
  intro one quoted switch
  obtain ⟨-, -, strings, -, apart, accepted⟩ := comes_back_from_its_text
  have valid : switch.validate (.boolean true) = .ok (.boolean true) := rfl
  have returned := accepted switch (.boolean true) (.boolean true) nofun valid
  exact ⟨strings one.encode, apart one quoted rfl nofun (by decide +kernel), valid, rfl, returned⟩

end Value

end LayeredPreferences

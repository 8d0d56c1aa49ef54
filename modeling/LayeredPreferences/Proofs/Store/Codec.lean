import LayeredPreferences.Proofs.Json.Sight
import LayeredPreferences.Resolution
import LayeredPreferences.Store.Codec

set_option autoImplicit false

/-!
# Values come back from their stored texts

An integer or a string is decoded from its stored text as it was. A boolean comes
back as an integer, from which sanitizing makes the boolean again.
-/
namespace LayeredPreferences.Value

open Json

theorem decode_write (v : Value) (h : v.type ≠ .float) : decode (String.ofList v.write) = v := by
  have reading : shape roomAtStart (v.write.map .char) = .ok (v, []) := by
    simpa using v.shape_write h roomAtStart blanks_nil endsNumber_nil
  unfold decode parse
  rw [ofString_ofList, whole_ok reading rfl]

theorem encode_eq_write (v : Value) (h : v.type ≠ .boolean) : v.encode = String.ofList v.write := by
  cases v with
  | boolean b => exact absurd rfl h
  | integer n => rfl
  | float x => rfl
  | string s => rfl

theorem decode_encode_same (v : Value) (float : v.type ≠ .float) (boolean : v.type ≠ .boolean) :
    decode v.encode = v := by
  rw [v.encode_eq_write boolean, v.decode_write float]

/-- The stored text of a boolean is that of an integer, too. -/
theorem encode_boolean (b : Bool) :
    encode (.boolean b) = encode (.integer (if b then 1 else 0)) := by
  cases b <;> decide +kernel

theorem decode_encode_boolean (b : Bool) :
    decode (encode (.boolean b)) = .integer (if b then 1 else 0) := by
  rw [encode_boolean, decode_encode_same _ (by simp [type]) (by simp [type])]

/-! ## Floats -/

theorem decode_readable {l : Literal} (h : Readable l) {rank : Nat}
    (read : Binary64.scaledRank? l.significand l.exponent = some rank) :
    decode (String.ofList l.text) = .float (.ofRank l.negative rank) := by
  have reading := shape_readable h read roomAtStart blanks_nil endsNumber_nil
  rw [List.nil_append, List.append_nil] at reading
  unfold decode parse
  rw [ofString_ofList, whole_ok reading rfl]

theorem decode_encode_finite {x : Binary64} (finite : x.isFinite) :
    ∃ y, decode (encode (.float x)) = .float y := by
  obtain ⟨l, readable, text⟩ := writeReal_readable finite
  obtain ⟨rank, read⟩ := Option.isSome_iff_exists.1 readable.finite
  refine ⟨.ofRank l.negative rank, ?_⟩
  change decode (String.ofList (writeReal x)) = _
  rw [← text]
  exact decode_readable readable read

/-- A float that is not finite is stored as `null`. That is no value, so the text itself is taken for
    one. -/
theorem decode_encode_not_finite {x : Binary64} (h : ¬ x.isFinite) :
    decode (encode (.float x)) = .string "null" := by
  have text : encode (.float x) = String.ofList nullWord := by
    simp only [encode, write, writeReal_not_finite h]
  have refused : shape roomAtStart ([] ++ (nullWord.map .char ++ [])) = _ :=
    shape_null roomAtStart blanks_nil
  rw [List.nil_append, List.append_nil] at refused
  rw [text]
  unfold decode parse
  rw [ofString_ofList, whole_error refused]
  rfl

/-- What a value comes back as once it has been a stored text. -/
def recoded : Value → Value
  | .boolean b => .integer (if b then 1 else 0)
  | v => v

theorem decode_encode (v : Value) (float : v.type ≠ .float) : decode v.encode = v.recoded := by
  cases v with
  | boolean b => exact decode_encode_boolean b
  | float x => exact absurd rfl float
  | integer n => exact decode_encode_same _ float nofun
  | string s => exact decode_encode_same _ float nofun

end LayeredPreferences.Value

namespace LayeredPreferences.Definition

theorem sanitize_same {d : Definition} {v : Value} (h : v.type = d.valueType) :
    d.sanitize v = v := by
  unfold sanitize
  split
  · rename_i boolean
    rw [boolean] at h
    cases v with
    | boolean b => rfl
    | _ => cases h
  · rfl

theorem sanitize_decode_encode {d : Definition} {v : Value} (type : v.type = d.valueType)
    (float : d.valueType ≠ .float) : d.sanitize (Value.decode v.encode) = v := by
  rw [v.decode_encode (type ▸ float)]
  cases v with
  | boolean b =>
    have boolean : d.valueType = .boolean := type.symm
    rw [Value.recoded, sanitize, if_pos boolean]
    cases b <;> decide +kernel
  | _ => exact sanitize_same type

end LayeredPreferences.Definition

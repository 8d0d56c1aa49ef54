import LayeredPreferences.Text.Utf8

set_option autoImplicit false

/-!
# Texts and their bytes

A text is read from its own bytes, and from no others.
-/
namespace LayeredPreferences.Text

theorem toByteArray_bytesOf (text : String) : (bytesOf text).toByteArray = text.toByteArray := by
  rw [← text.utf8Encode_toList]
  rfl

theorem fromUTF8?_bytesOf (text : String) :
    String.fromUTF8? (bytesOf text).toByteArray = some text := by
  rw [toByteArray_bytesOf, String.fromUTF8?, dif_pos text.isValidUTF8]
  rfl

theorem bytesOf_of_fromUTF8? {bytes : List UInt8} {text : String}
    (h : String.fromUTF8? bytes.toByteArray = some text) : bytes = bytesOf text := by
  have same : bytes.toByteArray = text.toByteArray := by
    unfold String.fromUTF8? at h
    split at h
    · cases h
      rfl
    · cases h
  rw [← toByteArray_bytesOf] at same
  simpa using congrArg (·.data.toList) same

theorem ofBytes_eq_ok {bytes : List UInt8} {text : String} :
    ofBytes bytes = .ok text ↔ bytes = bytesOf text := by
  constructor
  · intro h
    unfold ofBytes at h
    split at h
    · cases h
      exact bytesOf_of_fromUTF8? ‹_›
    · cases h
  · rintro rfl
    rw [ofBytes, fromUTF8?_bytesOf]

theorem bytesOf_inj {s t : String} : bytesOf s = bytesOf t ↔ s = t := by
  constructor
  · intro same
    have read : ofBytes (bytesOf s) = .ok t := ofBytes_eq_ok.2 same
    rw [ofBytes_eq_ok.2 rfl] at read
    exact Except.ok.inj read
  · exact congrArg bytesOf

end LayeredPreferences.Text

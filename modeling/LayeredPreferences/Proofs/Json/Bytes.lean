import LayeredPreferences.Json.Glyph

set_option autoImplicit false

/-!
# Characters from their bytes

The bytes of a text are read as its characters, so none of them is stray.
-/
namespace LayeredPreferences.Json.Source

theorem ofBytes_encoded (c : Char) (bs : List UInt8) :
    ofBytes (String.utf8EncodeChar c ++ bs) = .char c :: ofBytes bs := by
  have size : (String.utf8EncodeChar c).length = c.utf8Size := String.length_utf8EncodeChar c
  have nonempty : String.utf8EncodeChar c ++ bs ≠ [] := by
    intro empty
    have := c.utf8Size_pos
    simp_all
  obtain ⟨b, more, all⟩ := List.exists_cons_of_ne_nil nonempty
  have front : (String.utf8EncodeChar c ++ bs).take 4
      = String.utf8EncodeChar c ++ bs.take (4 - c.utf8Size) := by
    rw [List.take_append, List.take_of_length_le (size ▸ c.utf8Size_le_four), size]
  have decoded :
      ((String.utf8EncodeChar c ++ bs).take 4).toByteArray.utf8DecodeChar? 0 = some c := by
    rw [front, List.toByteArray_append]
    exact ByteArray.utf8DecodeChar?_utf8EncodeChar_append
  have rest : (String.utf8EncodeChar c ++ bs).drop c.utf8Size = bs := by
    rw [← size, List.drop_left]
  rw [all] at decoded rest ⊢
  rw [ofBytes, decoded]
  change Glyph.char c :: ofBytes _ = _
  rw [rest]

theorem ofBytes_text (cs : List Char) :
    ofBytes (cs.flatMap String.utf8EncodeChar) = cs.map .char := by
  induction cs with
  | nil => simp [ofBytes]
  | cons c cs ih => rw [List.flatMap_cons, ofBytes_encoded, ih, List.map_cons]

end LayeredPreferences.Json.Source

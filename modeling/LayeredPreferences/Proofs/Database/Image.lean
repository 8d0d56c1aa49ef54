import LayeredPreferences.Database.Image

set_option autoImplicit false

/-!
# Writing to images

What is written is read back, and all other bytes are as before.
-/
namespace LayeredPreferences.Database

namespace Bytes

variable {one other : Bytes} {start count : Nat}

theorem number_succ (bytes : Bytes) (start count : Nat) :
    bytes.number start (count + 1) = 256 * bytes.number start count + bytes.byte (start + count) := by
  rw [number, List.range_succ, List.foldl_append]
  rfl

theorem number_congr (same : ∀ i < count, one.byte (start + i) = other.byte (start + i)) :
    one.number start count = other.number start count := by
  induction count with
  | zero => rfl
  | succ count ih =>
    rw [number_succ, number_succ, ih fun i less => same i (by omega), same count (by omega)]

theorem byte_beyond {bytes : Bytes} {i : Nat} (beyond : bytes.size ≤ i) : bytes.byte i = 0 := by
  rw [byte, Array.getD_eq_getD_getElem?, Array.getElem?_eq_none beyond]
  rfl

theorem byte_setIfInBounds {bytes : Bytes} {place : Nat} (inside : place < bytes.size) (b : UInt8)
    (i : Nat) :
    byte (bytes.setIfInBounds place b) i = if i = place then b.toNat else bytes.byte i := by
  rw [byte, byte, Array.getD_eq_getD_getElem?, Array.getD_eq_getD_getElem?,
    Array.getElem?_setIfInBounds]
  by_cases same : place = i
  · rw [if_pos same, if_pos inside, if_pos same.symm]
    rfl
  · rw [if_neg same, if_neg (Ne.symm same)]

end Bytes

namespace Image

variable {image : Image} {place n start count i : Nat} {bytes : List UInt8}

/-- Bytes are put down one by one, from a place on. -/
theorem byte_foldl (all : Bytes) (room : place + bytes.length ≤ all.size) :
    Bytes.byte ((bytes.zipIdx place).foldl (fun all (b, i) => all.setIfInBounds i b) all) i
      = if place ≤ i ∧ i < place + bytes.length then (bytes.getD (i - place) 0).toNat
        else all.byte i := by
  induction bytes generalizing all place with
  | nil => rw [if_neg (by simp)]; rfl
  | cons b bytes ih =>
    rw [List.length_cons] at room ⊢
    rw [List.zipIdx_cons, List.foldl_cons, ih _ (by rw [Array.size_setIfInBounds]; omega),
      Bytes.byte_setIfInBounds (by omega)]
    rcases Nat.lt_trichotomy i place with before | rfl | after
    · rw [if_neg (by omega), if_neg (by omega), if_neg (by omega)]
    · rw [if_neg (by omega), if_pos rfl, if_pos (by omega), Nat.sub_self, List.getD_cons_zero]
    · have next : i - place = i - (place + 1) + 1 := by omega
      by_cases inside : i < place + 1 + bytes.length
      · rw [if_pos (by omega), if_pos (by omega), next, List.getD_cons_succ]
      · rw [if_neg (by omega), if_neg (by omega), if_neg (by omega)]

theorem byte_write (image : Image) (place : Nat) (bytes : List UInt8) (i : Nat) :
    (image.write place bytes).bytes.byte i
      = if place ≤ i ∧ i < place + bytes.length then (bytes.getD (i - place) 0).toNat
        else image.bytes.byte i := by
  rw [write, byte_foldl _ (by rw [Array.size_append, Array.size_replicate]; omega)]
  congr 1
  -- The image is first made as long as it is to be, with zeros.
  rcases Nat.lt_or_ge i image.bytes.size with held | beyond
  · rw [Bytes.byte, Bytes.byte, Array.getD_eq_getD_getElem?, Array.getD_eq_getD_getElem?,
      Array.getElem?_append_left held]
  · rw [Bytes.byte_beyond beyond, Bytes.byte, Array.getD_eq_getD_getElem?,
      Array.getElem?_append_right beyond, Array.getElem?_replicate]
    split <;> rfl

theorem number_write_apart (apart : start + count ≤ place ∨ place + bytes.length ≤ start) :
    (image.write place bytes).bytes.number start count = image.bytes.number start count := by
  refine Bytes.number_congr fun i less => ?_
  rw [byte_write, if_neg (by omega)]

/-- A number of four bytes is read as it was written. -/
theorem number_writeNumber (fits : n < UInt32.size) :
    (image.writeNumber place n).bytes.number place 4 = n := by
  have byte (i : Nat) (less : i < 4) : (image.writeNumber place n).bytes.byte (place + i)
      = n / 256 ^ (3 - i) % 256 := by
    rw [writeNumber, byte_write, if_pos (by simp; omega), Nat.add_sub_cancel_left]
    match i, less with
    | 0, _ | 1, _ | 2, _ | 3, _ => simp
  simp only [Bytes.number_succ, byte 0 (by decide), byte 1 (by decide), byte 2 (by decide),
    byte 3 (by decide)]
  simp only [Bytes.number, List.range_zero, List.foldl_nil]
  have fits : n < 4294967296 := fits
  omega

end Image

end LayeredPreferences.Database

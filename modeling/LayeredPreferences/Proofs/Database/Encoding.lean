import LayeredPreferences.Database.Encoding
import LayeredPreferences.Proofs.Text.Utf8
import Mathlib.Data.List.Basic

set_option autoImplicit false

/-!
# Texts in units of 16 bits

A text that is kept in units of 16 bits is read as it was, but for the two
numbers at the end of the first plane, which are replaced. It takes the bytes that
are reckoned for it.
-/
namespace LayeredPreferences.Database.Encoding

/-! ## Characters in UTF-8 -/

section Characters

variable {n : Nat} {rest : List UInt8}

/-- Numbers of characters leave out the halves of pairs. -/
def IsScalar (n : Nat) : Prop := n < 0xd800 ∨ 0xe000 ≤ n ∧ n < 0x110000

theorem isScalar_toNat (c : Char) : IsScalar c.toNat := by
  have valid := c.valid
  change c.val.toNat < _ ∨ _ < c.val.toNat ∧ c.val.toNat < _ at valid
  change c.val.toNat < _ ∨ _ ≤ c.val.toNat ∧ c.val.toNat < _
  omega

theorem utf8Bytes_one (small : n < 0x80) : utf8Bytes n = [.ofNat n] := if_pos small

theorem utf8Bytes_two (large : 0x80 ≤ n) (small : n < 0x800) :
    utf8Bytes n = [.ofNat (0xc0 + n / 0x40 % 0x20), .ofNat (0x80 + n % 0x40)] := by
  rw [utf8Bytes, if_neg (by omega), if_pos small]
  simp

theorem utf8Bytes_three (large : 0x800 ≤ n) (small : n < 0x10000) : utf8Bytes n =
    [.ofNat (0xe0 + n / 0x1000 % 0x10), .ofNat (0x80 + n / 0x40 % 0x40),
      .ofNat (0x80 + n % 0x40)] := by
  rw [utf8Bytes, if_neg (by omega), if_neg (by omega), if_pos small]
  simp

theorem utf8Bytes_four (large : 0x10000 ≤ n) : utf8Bytes n =
    [.ofNat (0xf0 + n / 0x40000 % 8), .ofNat (0x80 + n / 0x1000 % 0x40),
      .ofNat (0x80 + n / 0x40 % 0x40), .ofNat (0x80 + n % 0x40)] := by
  rw [utf8Bytes, if_neg (by omega), if_neg (by omega), if_neg (by omega)]
  simp

theorem utf8Bytes_toNat (c : Char) : utf8Bytes c.toNat = String.utf8EncodeChar c := by
  unfold String.utf8EncodeChar
  have value : c.toNat = c.val.toNat := rfl
  rw [value]
  dsimp only
  generalize c.val.toNat = n
  split_ifs with one two three
  · rw [utf8Bytes_one (by omega)]
  · rw [utf8Bytes_two (by omega) (by omega), Nat.add_comm 0xc0, Nat.add_comm 0x80]
  · rw [utf8Bytes_three (by omega) (by omega), Nat.add_comm 0xe0, Nat.add_comm 0x80,
      Nat.add_comm 0x80]
  · rw [utf8Bytes_four (by omega), Nat.add_comm 0xf0, Nat.add_comm 0x80, Nat.add_comm 0x80,
      Nat.add_comm 0x80]

theorem toNat_ofNat {m : Nat} (small : m < 256) : (UInt8.ofNat m).toNat = m := by
  rw [UInt8.toNat_ofNat', Nat.mod_eq_of_lt small]

theorem continues_iff {b : UInt8} : continues b = true ↔ 0x80 ≤ b.toNat ∧ b.toNat < 0xc0 := by
  simp [continues, UInt8.le_iff_toNat_le, UInt8.lt_iff_toNat_lt]

/-- A byte that goes on with a number, and what it adds. -/
theorem toNat_tail (m : Nat) : (UInt8.ofNat (0x80 + m % 0x40)).toNat = 0x80 + m % 0x40 :=
  toNat_ofNat (by omega)

theorem leadValue_eq {m : Nat} (small : m < 0xf8) : leadValue (.ofNat m)
    = if m < 0xe0 then m % 0x20 else if m < 0xf0 then m % 0x10 else m % 8 := by
  have number : (UInt8.ofNat m).toNat = m := toNat_ofNat (by omega)
  simp [leadValue, UInt8.lt_iff_toNat_lt, number, small]

/-- The first byte tells how many there are, and the others go on. -/
structure Spells (n : Nat) (lead : UInt8) (tail : List UInt8) : Prop where
  starts : 0xc0 ≤ lead.toNat
  goes : ∀ b ∈ tail, continues b = true
  value : tail.foldl (fun n b => (0x40 * n + b.toNat % 0x40) % Nat.pow 2 32) (leadValue lead) = n

theorem utf8Bytes_long (large : 0x80 ≤ n) (last : n < 0x200000) :
    ∃ lead tail, utf8Bytes n = lead :: tail ∧ Spells n lead tail := by
  have room : Nat.pow 2 32 = 4294967296 := rfl
  have goes (m : Nat) : continues (.ofNat (0x80 + m % 0x40)) = true := by
    rw [continues_iff, toNat_tail]
    omega
  rcases Nat.lt_or_ge n 0x800 with two | more
  · refine ⟨_, _, utf8Bytes_two large two, ?_, ?_, ?_⟩
    · rw [toNat_ofNat (by omega)]
      omega
    · simp [goes, -UInt8.ofNat_add]
    · simp only [List.foldl_cons, List.foldl_nil, toNat_tail, room]
      rw [leadValue_eq (by omega), if_pos (by omega)]
      omega
  rcases Nat.lt_or_ge n 0x10000 with three | more
  · refine ⟨_, _, utf8Bytes_three more three, ?_, ?_, ?_⟩
    · rw [toNat_ofNat (by omega)]
      omega
    · simp [goes, -UInt8.ofNat_add]
    · simp only [List.foldl_cons, List.foldl_nil, toNat_tail, room]
      rw [leadValue_eq (by omega), if_neg (by omega), if_pos (by omega)]
      omega
  · refine ⟨_, _, utf8Bytes_four more, ?_, ?_, ?_⟩
    · rw [toNat_ofNat (by omega)]
      omega
    · simp [goes, -UInt8.ofNat_add]
    · simp only [List.foldl_cons, List.foldl_nil, toNat_tail, room]
      rw [leadValue_eq (by omega), if_neg (by omega), if_neg (by omega)]
      omega

/-! ## Reading characters -/

/-- What follows a character starts with another one, or ends. -/
def Starts (rest : List UInt8) : Prop := rest.takeWhile continues = []

theorem lt_lead {b : UInt8} : b < 0xc0 ↔ b.toNat < 0xc0 := UInt8.lt_iff_toNat_lt

theorem toNat_ascii (one : n < 0x80) : (UInt8.ofNat n).toNat < 0x80 := by
  rwa [toNat_ofNat (by omega)]

theorem starts_utf8Bytes (last : n < 0x200000) : Starts (utf8Bytes n ++ rest) := by
  rcases Nat.lt_or_ge n 0x80 with one | more
  · have small := toNat_ascii one
    rw [utf8Bytes_one one]
    exact List.takeWhile_cons_of_neg (by rw [continues_iff]; omega)
  · obtain ⟨lead, tail, bytes, spells⟩ := utf8Bytes_long more last
    have large := spells.starts
    rw [bytes]
    exact List.takeWhile_cons_of_neg (by rw [continues_iff]; omega)

theorem characters_utf8Bytes (last : n < 0x200000) (starts : Starts rest) :
    characters (utf8Bytes n ++ rest) = utf8Bytes n :: characters rest := by
  rcases Nat.lt_or_ge n 0x80 with one | more
  · have small := toNat_ascii one
    rw [utf8Bytes_one one, List.singleton_append, characters, if_pos (lt_lead.2 (by omega))]
    rfl
  · obtain ⟨lead, tail, bytes, spells⟩ := utf8Bytes_long more last
    have taken : (tail ++ rest).takeWhile continues = tail := by
      rw [List.takeWhile_append_of_pos spells.goes, starts, List.append_nil]
    rw [bytes, List.cons_append, characters,
      if_neg (fun less => Nat.not_lt.2 spells.starts (lt_lead.1 less)), taken, List.drop_left]

theorem characters_flatMap {ns : List Nat} (last : ∀ n ∈ ns, n < 0x200000) :
    characters (ns.flatMap utf8Bytes) = ns.map utf8Bytes := by
  induction ns with
  | nil => rw [List.flatMap_nil, characters, List.map_nil]
  | cons n ns ih =>
    obtain ⟨here, others⟩ := List.forall_mem_cons.1 last
    have starts : Starts (ns.flatMap utf8Bytes) := by
      cases ns with
      | nil => rfl
      | cons next => exact starts_utf8Bytes (List.forall_mem_cons.1 others).1
    rw [List.flatMap_cons, characters_utf8Bytes here starts, ih others, List.map_cons]

/-- The last two numbers of the first plane are replaced. -/
def replaced (n : Nat) : Nat := if n / 2 = 0x7fff then 0xfffd else n

theorem point_utf8Bytes (scalar : IsScalar n) : point (utf8Bytes n) = replaced n := by
  unfold IsScalar at scalar
  rcases Nat.lt_or_ge n 0x80 with one | more
  · have small := toNat_ascii one
    rw [utf8Bytes_one one, point, if_pos (lt_lead.2 (by omega)), toNat_ofNat (by omega), replaced,
      if_neg (by omega)]
  · obtain ⟨lead, tail, bytes, spells⟩ := utf8Bytes_long more (by omega)
    rw [bytes, point, if_neg (fun less => Nat.not_lt.2 spells.starts (lt_lead.1 less)), spells.value]
    dsimp only
    unfold replaced
    split_ifs <;> omega

theorem points_flatMap {ns : List Nat} (scalar : ∀ n ∈ ns, IsScalar n) :
    points (ns.flatMap utf8Bytes) = ns.map replaced := by
  have last : ∀ n ∈ ns, n < 0x200000 := by
    intro n member
    have := scalar n member
    unfold IsScalar at this
    omega
  rw [points, characters_flatMap last, List.map_map]
  exact List.map_congr_left fun n member => point_utf8Bytes (scalar n member)

end Characters

/-! ## Units of 16 bits -/

section Units

variable {isBigEndian : Bool}

theorem units_flatMap {us : List Nat} (small : ∀ u ∈ us, u < 0x10000) :
    units isBigEndian (us.flatMap (bytesOfUnit isBigEndian)) = us := by
  induction us with
  | nil => rfl
  | cons u us ih =>
    obtain ⟨here, others⟩ := List.forall_mem_cons.1 small
    have low : (UInt8.ofNat u).toNat = u % 256 := UInt8.toNat_ofNat'
    have high : (UInt8.ofNat (u / 256)).toNat = u / 256 := toNat_ofNat (by omega)
    cases isBigEndian with
    | false =>
      rw [List.flatMap_cons]
      change (_ + 256 * _) :: units false (us.flatMap (bytesOfUnit false)) = _
      rw [low, high, ih others]
      congr 1
      omega
    | true =>
      rw [List.flatMap_cons]
      change (256 * _ + _) :: units true (us.flatMap (bytesOfUnit true)) = _
      rw [low, high, ih others]
      congr 1
      omega

theorem unitsOfPoint_small {n u : Nat} (member : u ∈ unitsOfPoint n) : u < 0x10000 := by
  unfold unitsOfPoint at member
  split_ifs at member with one
  · obtain rfl := List.mem_singleton.1 member
    exact one
  · simp only [List.mem_cons, List.not_mem_nil, or_false] at member
    omega

/-- A pair is read as what it was made of, and what is no half of a pair as itself. -/
theorem pointsOfUnits_unitsOfPoint {n : Nat} (scalar : IsScalar n) (rest : List Nat) :
    pointsOfUnits (unitsOfPoint n ++ rest) = n :: pointsOfUnits rest := by
  unfold IsScalar at scalar
  unfold unitsOfPoint
  split_ifs with one
  · cases rest with
    | nil => simp [pointsOfUnits]
    | cons next rest => rw [List.singleton_append, pointsOfUnits, if_neg (by omega)]
  · rw [List.cons_append, List.singleton_append, pointsOfUnits, if_pos (by omega)]
    congr 1
    omega

theorem pointsOfUnits_flatMap {ns : List Nat} (scalar : ∀ n ∈ ns, IsScalar n) :
    pointsOfUnits (ns.flatMap unitsOfPoint) = ns := by
  induction ns with
  | nil => rw [List.flatMap_nil, pointsOfUnits]
  | cons n ns ih =>
    obtain ⟨here, others⟩ := List.forall_mem_cons.1 scalar
    rw [List.flatMap_cons, pointsOfUnits_unitsOfPoint here, ih others]

end Units

/-! ## Whole texts -/

open Text

/-- What becomes of a character in units of 16 bits. -/
def kept (c : Char) : Char := if c.toNat / 2 = 0x7fff then '\ufffd' else c

theorem toNat_kept (c : Char) : (kept c).toNat = replaced c.toNat := by
  unfold kept replaced
  split_ifs <;> rfl

theorem bytesOf_eq (cs : List Char) :
    bytesOf (.ofList cs) = (cs.map Char.toNat).flatMap utf8Bytes := by
  rw [bytesOf, String.toList_ofList, List.flatMap_map]
  exact List.flatMap_congr fun c _ => (utf8Bytes_toNat c).symm

theorem points_bytesOf (cs : List Char) :
    points (bytesOf (.ofList cs)) = (cs.map kept).map Char.toNat := by
  rw [bytesOf_eq, points_flatMap, List.map_map, List.map_map]
  · exact List.map_congr_left fun c _ => (toNat_kept c).symm
  · simp only [List.forall_mem_map]
    exact fun c _ => isScalar_toNat c

/-- Any text comes back, but for the two characters that are replaced. -/
theorem decode_encode (isBigEndian : Bool) (cs : List Char) :
    decode (.utf16 isBigEndian) (encode (.utf16 isBigEndian) (bytesOf (.ofList cs)))
      = bytesOf (.ofList (cs.map kept)) := by
  have scalar : ∀ n ∈ (cs.map kept).map Char.toNat, IsScalar n := by
    simp only [List.forall_mem_map]
    exact fun c _ => isScalar_toNat _
  have small : ∀ u ∈ ((cs.map kept).map Char.toNat).flatMap unitsOfPoint, u < 0x10000 := by
    intro u member
    obtain ⟨n, -, there⟩ := List.mem_flatMap.1 member
    exact unitsOfPoint_small there
  rw [encode, decode, points_bytesOf, units_flatMap small, pointsOfUnits_flatMap scalar, bytesOf_eq]

theorem length_unitsOfPoint (n : Nat) : (unitsOfPoint n).length = if n < 0x10000 then 1 else 2 := by
  unfold unitsOfPoint
  split_ifs <;> rfl

theorem length_units (isBigEndian : Bool) (us : List Nat) :
    (us.flatMap (bytesOfUnit isBigEndian)).length = 2 * us.length := by
  have two (u : Nat) : (bytesOfUnit isBigEndian u).length = 2 := by cases isBigEndian <;> rfl
  induction us with
  | nil => rfl
  | cons u us ih => rw [List.flatMap_cons, List.length_append, ih, two, List.length_cons]; omega

/-- A text takes the bytes that are reckoned for it. -/
theorem length_encode (encoding : Encoding) (cs : List Char) :
    (encoding.encode (bytesOf (.ofList cs))).length = encoding.size (.ofList cs) := by
  cases encoding with
  | utf8 =>
    have whole := congrArg ByteArray.size (toByteArray_bytesOf (.ofList cs))
    rw [List.size_toByteArray] at whole
    exact whole
  | utf16 isBigEndian =>
    rw [encode, points_bytesOf, length_units, size, String.toList_ofList]
    induction cs with
    | nil => rfl
    | cons c cs ih =>
      rw [List.map_cons, List.map_cons, List.flatMap_cons, List.length_append, Nat.mul_add, ih,
        List.foldr_cons, length_unitsOfPoint, toNat_kept]
      unfold replaced
      split_ifs <;> omega

end LayeredPreferences.Database.Encoding

import LayeredPreferences.Proofs.Json.Contents

set_option autoImplicit false

/-!
# Written texts are texts of values

Strings, lists and objects are written in one of the ways in which they may be spelled. So what is read
of every such spelling is read of what is written.
-/
namespace LayeredPreferences

namespace Json

variable {α : Type} {room : Nat}

/-! ## Single values -/

theorem exists_pieces (s : String) :
    ∃ ps, WellSpelled ps ∧ Denotes ps s.toList ∧ writeString s = quoted ps := by
  obtain ⟨ps, wellSpelled, denotes, same⟩ := quotation_inv (quotation_written s [])
  have spelled : s.toList.flatMap writeChar = spelling ps :=
    List.map_injective_iff.2 (fun _ _ => Glyph.char.inj) (List.append_cancel_right same)
  refine ⟨ps, wellSpelled, denotes, ?_⟩
  rw [writeString, spelled, quoted]

theorem isValue_writeString (s : String) : IsValue (writeString s) := by
  obtain ⟨ps, wellSpelled, -, same⟩ := exists_pieces s
  rw [same]
  exact .token (.string wellSpelled)

theorem settles_writeString (s : String) (room : Nat) :
    Settles (string room) (writeString s) (some s) := by
  obtain ⟨ps, wellSpelled, denotes, same⟩ := exists_pieces s
  have read := settles_string (calls_denoted wellSpelled denotes) room
  rwa [String.ofList_toList, ← same] at read

theorem settles_writeVariant {known : List (String × α)} {name : String} {x : α}
    (h : known.lookup name = some x) (room : Nat) :
    Settles (variant known room) (writeString name) (some x) := by
  obtain ⟨ps, wellSpelled, denotes, same⟩ := exists_pieces name
  have read : Settles (variant known room) _ _ :=
    settles_variant_quoted (calls_denoted wellSpelled denotes) room
  rwa [String.ofList_toList, ← same, Option.bind_some, h] at read

theorem settles_writeBool (b : Bool) (room : Nat) :
    Settles (boolean room) (writeBool b) (some b) := by
  intro pad rest blanks _
  unfold boolean
  rw [bind_ok (sight_writeBool blanks b rest)]
  exact .value b

theorem isValue_literal {l : Literal} (wellFormed : l.WellFormed) : IsValue l.text := by
  rw [Literal.text_eq_spelled]
  exact .token (.number wellFormed false true)

theorem isValue_writeInteger (n : Int) : IsValue (writeInteger n) := by
  rw [← Literal.text_ofInteger]
  exact isValue_literal (Literal.wellFormed_ofInteger n)

theorem settles_writeInteger (n : Int64) (room : Nat) :
    Settles (integer room) (writeInteger n.toInt) (some n) := by
  have high : n.toInt < Nat.pow 2 63 := n.toInt_lt
  intro pad rest blanks ends
  have seen := sight_writeInteger blanks n.minValue_le_toInt (Int.lt_trans high (by decide)) ends
  unfold integer
  rw [bind_ok seen]
  dsimp only
  rw [if_pos high, Int64.ofInt_toInt]
  exact .value n

/-! ## Lists and objects -/

/-- A text without blanks around it. -/
def Item.bare (text : List Char) : Item := ⟨.none, text, .none⟩

@[simp]
theorem Item.text_bare (text : List Char) : (Item.bare text).text = text := by
  simp [Item.bare, Item.text, Pad.none]

theorem inside_none (texts : List (List Char)) : inside .none texts = separated texts := by
  cases texts <;> rfl

theorem writeList_eq (texts : List (List Char)) :
    writeList texts = listText .none (texts.map .bare) := by
  have same : (texts.map Item.bare).map Item.text = texts := by simp [Function.comp_def]
  rw [writeList, listText, same, inside_none]

theorem isValue_writeList {texts : List (List Char)} (values : ∀ text ∈ texts, IsValue text) :
    IsValue (writeList texts) := by
  rw [writeList_eq]
  exact .list .none (List.forall_mem_map.2 values)

theorem settles_writeList {β : Type} {item : Shaped α} {text : β → List Char} {value : β → α}
    {bs : List β} (values : ∀ b ∈ bs, IsValue (text b))
    (settles : ∀ b ∈ bs, Settles (item room) (text b) (some (value b))) :
    Settles (list item (room + 1)) (writeList (bs.map text)) (some (bs.map value)) := by
  have answered : List.Forall₂ (Answered (item room)) ((bs.map text).map .bare)
      ((bs.map value).map some) := by
    simp only [List.forall₂_map_left_iff, List.forall₂_map_right_iff]
    exact List.forall₂_same.2 fun b hb => ⟨(values b hb).starts, settles b hb⟩
  have read := settles_list answered .none
  rwa [together_some, ← writeList_eq] at read

/-- The induction is on the members; each name is spelled as it is written. -/
theorem exists_members {c : Contents} (values : ∀ m ∈ c, IsValue m.2) :
    ∃ members, List.Forall₂ Member.Tells members c ∧
      members.map Member.text = c.map fun m => writeMember m.1 m.2 := by
  induction c with
  | nil => exact ⟨[], .nil, rfl⟩
  | cons named c ih =>
    obtain ⟨value, others⟩ := List.forall_mem_cons.1 values
    obtain ⟨ps, wellSpelled, denotes, same⟩ := exists_pieces named.1
    obtain ⟨members, tells, texts⟩ := ih others
    refine ⟨⟨.none, ps, .none, .bare named.2⟩ :: members,
      .cons ⟨wellSpelled, denotes, rfl, value⟩ tells, ?_⟩
    rw [List.map_cons, List.map_cons, texts, writeMember, same]
    simp [Member.text, Pad.none]

theorem isObject_writeObject {c : Contents} (values : ∀ m ∈ c, IsValue m.2) :
    IsObject c (writeObject c) := by
  obtain ⟨members, tells, texts⟩ := exists_members values
  have same : writeObject c = objectText .none members := by
    rw [objectText, texts, inside_none, writeObject]
  rw [same]
  exact .object .none tells

end Json

open Json

theorem Scope.settles_write (scope : Scope) (room : Nat) :
    Settles (Scope.shape room) scope.write (some scope) := by
  cases scope <;> exact settles_writeVariant rfl room

theorem ValueType.settles_write (type : ValueType) (room : Nat) :
    Settles (ValueType.shape room) type.write (some type) := by
  cases type <;> exact settles_writeVariant rfl room

namespace Value

theorem write_float_cases (x : Binary64) :
    (∃ l : Literal, l.WellFormed ∧ write (.float x) = l.text) ∨ write (.float x) = nullWord := by
  by_cases finite : x.isFinite
  · obtain ⟨l, readable, text⟩ := writeReal_readable finite
    exact .inl ⟨l, readable.toWellFormed, text.symm⟩
  · exact .inr (writeReal_not_finite finite)

theorem isValue_write (v : Value) : IsValue v.write := by
  cases v with
  | boolean b => exact .token (.boolean b)
  | integer n => exact isValue_writeInteger n.toInt
  | float x =>
    rcases write_float_cases x with ⟨l, wellFormed, text⟩ | null
    · rw [text]
      exact isValue_literal wellFormed
    · rw [null]
      exact .token .null
  | string s => exact isValue_writeString s

theorem settles_write {v : Value} (float : v.type ≠ .float) (room : Nat) :
    Settles (shape room) v.write (some v) := by
  intro pad rest blanks ends
  rw [v.shape_write float room blanks ends]
  exact .value v

end Value

end LayeredPreferences

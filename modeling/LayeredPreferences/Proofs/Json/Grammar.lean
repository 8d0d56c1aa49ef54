import LayeredPreferences.Proofs.Json.Skipping
import LayeredPreferences.Proofs.Json.Token

set_option autoImplicit false

/-!
# Texts of values

Every text that is a value, with blanks between its tokens wherever they may stand. What a string
denotes and whether a number is in reach does not matter for that.
-/
namespace LayeredPreferences.Json

/-- White space between tokens. -/
structure Pad where
  text : List Char
  blanks : Blanks (text.map .char)

namespace Pad

def none : Pad := ⟨[], blanks_nil⟩

end Pad

/-- A value with the blanks around it. -/
structure Item where
  before : Pad
  value : List Char
  after : Pad

/-- A member with the blanks around its name and its value. -/
structure Member where
  before : Pad
  name : List Piece
  after : Pad
  item : Item

def quoted (ps : List Piece) : List Char := '"' :: (spelling ps ++ ['"'])

def Item.text (i : Item) : List Char := i.before.text ++ (i.value ++ i.after.text)

def Member.text (m : Member) : List Char :=
  m.before.text ++ (quoted m.name ++ (m.after.text ++ ':' :: m.item.text))

/-- What stands between brackets. -/
def inside (pad : Pad) : List (List Char) → List Char
  | [] => pad.text
  | texts => separated texts

def listText (pad : Pad) (items : List Item) : List Char :=
  '[' :: (inside pad (items.map Item.text) ++ [']'])

def objectText (pad : Pad) (members : List Member) : List Char :=
  '{' :: (inside pad (members.map Member.text) ++ ['}'])

/-- Values that are neither lists nor objects. -/
inductive IsToken : List Char → Prop where
  | null : IsToken nullWord
  | boolean (b : Bool) : IsToken (writeBool b)
  | number {l : Literal} (wellFormed : l.WellFormed) (capital plus : Bool) :
    IsToken (l.spelled capital plus)
  | string {ps : List Piece} (wellSpelled : WellSpelled ps) : IsToken (quoted ps)

inductive IsValue : List Char → Prop where
  | token {text : List Char} (token : IsToken text) : IsValue text
  | list (pad : Pad) {items : List Item} (values : ∀ i ∈ items, IsValue i.value) :
    IsValue (listText pad items)
  | object (pad : Pad) {members : List Member} (names : ∀ m ∈ members, WellSpelled m.name)
    (values : ∀ m ∈ members, IsValue m.item.value) : IsValue (objectText pad members)

/-- Only one value starts with the letter of `null`. -/
theorem IsToken.front {text : List Char} (h : IsToken text) : ∃ c cs, text = c :: cs ∧
    (Glyph.char c).isBlank = false ∧ c ≠ ']' ∧ (c = 'n' → text = nullWord) := by
  cases h with
  | null => exact ⟨'n', _, rfl, rfl, by decide, fun _ => rfl⟩
  | boolean b =>
    cases b with
    | false => exact ⟨'f', _, rfl, rfl, by decide, nofun⟩
    | true => exact ⟨'t', _, rfl, rfl, by decide, nofun⟩
  | number wellFormed capital plus =>
    obtain ⟨c, cs, front, first⟩ := Literal.front_spelled wellFormed capital plus
    refine ⟨c, cs, front, isBlank_number first, ?_, ?_⟩
    · rintro rfl
      exact absurd first (by decide)
    · rintro rfl
      exact absurd first (by decide)
  | string wellSpelled => exact ⟨'"', _, rfl, rfl, by decide, nofun⟩

theorem IsValue.front {text : List Char} (h : IsValue text) : ∃ c cs, text = c :: cs ∧
    (Glyph.char c).isBlank = false ∧ c ≠ ']' ∧ (c = 'n' → text = nullWord) := by
  cases h with
  | token token => exact token.front
  | list pad values => exact ⟨'[', _, rfl, rfl, by decide, nofun⟩
  | object pad names values => exact ⟨'{', _, rfl, rfl, by decide, nofun⟩

theorem IsValue.starts {text : List Char} (h : IsValue text) : Starts text := by
  obtain ⟨c, cs, front, token, closing, -⟩ := h.front
  exact ⟨c, cs, front, token, closing⟩

theorem IsValue.null_or {text : List Char} (h : IsValue text) :
    text = nullWord ∨ ∃ c cs, text = c :: cs ∧ (Glyph.char c).isBlank = false ∧ c ≠ 'n' := by
  obtain ⟨c, cs, front, token, -, null⟩ := h.front
  by_cases letter : c = 'n'
  · exact .inl (null letter)
  · exact .inr ⟨c, cs, front, token, letter⟩

end LayeredPreferences.Json

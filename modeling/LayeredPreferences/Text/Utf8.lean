set_option autoImplicit false

/-!
# Characters in bytes

Where bytes stop to be text: a byte that cannot follow the ones before it in a
character, or the end in the middle of a character.
-/
namespace LayeredPreferences.Text

/-- The bytes of a text. -/
def bytesOf (text : String) : List UInt8 := text.toList.flatMap String.utf8EncodeChar

inductive Utf8Fault where
  /-- The character that starts at `start` is broken after `length` bytes. -/
  | invalid (length start : Nat)
  | incomplete (start : Nat)
deriving DecidableEq

def Utf8Fault.message : Utf8Fault → String
  | .invalid length start => s!"invalid utf-8 sequence of {length} bytes from index {start}"
  | .incomplete start => s!"incomplete utf-8 byte sequence from index {start}"

/-- How many bytes a character has that starts with this one. -/
def utf8Width? (lead : UInt8) : Option Nat :=
  if lead < 0x80 then some 1
  else if 0xc2 ≤ lead ∧ lead ≤ 0xdf then some 2
  else if 0xe0 ≤ lead ∧ lead ≤ 0xef then some 3
  else if 0xf0 ≤ lead ∧ lead ≤ 0xf4 then some 4
  else none

/-- Which second bytes leave no shorter form, no surrogate and nothing beyond the last character. -/
def isSecondByte (lead b : UInt8) : Bool :=
  (if lead = 0xe0 then 0xa0 else if lead = 0xf0 then 0x90 else 0x80) ≤ b
    && b ≤ (if lead = 0xed then 0x9f else if lead = 0xf4 then 0x8f else 0xbf)

/-- Whether a byte can follow the first ones of a character. -/
def fitsCharacter : List UInt8 → UInt8 → Bool
  | [], b => (utf8Width? b).isSome
  | [lead], b => isSecondByte lead b
  | _, b => 0x80 ≤ b && b ≤ 0xbf

def isCharacter (bytes : List UInt8) : Bool := bytes.head?.bind utf8Width? = some bytes.length

/-- The first fault in the bytes after the ones of a character that starts at `start`. Where there is
    no other, it is taken to be the end. -/
def faultFrom (start : Nat) (begun : List UInt8) : List UInt8 → Utf8Fault
  | [] => .incomplete start
  | b :: rest =>
    let next := begun ++ [b]
    if !fitsCharacter begun b then .invalid (max 1 begun.length) start
    else if isCharacter next then faultFrom (start + next.length) [] rest
    else faultFrom start next rest

/-- The text of the bytes, or where they stop to be text. -/
def ofBytes (bytes : List UInt8) : Except Utf8Fault String :=
  match String.fromUTF8? bytes.toByteArray with
  | some text => .ok text
  | none => .error (faultFrom 0 [] bytes)

/-- The bytes as text, with one mark for each character that is broken. -/
def readableFrom (begun : List UInt8) : List UInt8 → List Char
  | [] => if begun.isEmpty then [] else ['\ufffd']
  | b :: rest =>
    let next := begun ++ [b]
    if fitsCharacter begun b then
      if isCharacter next then
        ((String.fromUTF8? next.toByteArray).map String.toList).getD [] ++ readableFrom [] rest
      else readableFrom next rest
    else if begun.isEmpty then '\ufffd' :: readableFrom [] rest
    else if (utf8Width? b).isNone then '\ufffd' :: '\ufffd' :: readableFrom [] rest
    else if b < 0x80 then '\ufffd' :: .ofNat b.toNat :: readableFrom [] rest
    else '\ufffd' :: readableFrom [b] rest

def readable (bytes : List UInt8) : String :=
  (String.fromUTF8? bytes.toByteArray).getD (String.ofList (readableFrom [] bytes))

end LayeredPreferences.Text

import LayeredPreferences.Database.Document.Element
import LayeredPreferences.Database.Document.Escape

set_option autoImplicit false

/-!
# Notation of documents

Blanks, texts, names, numbers and words. The wide notation has comments, texts and names
without the usual marks, and more blanks and numbers.
-/
namespace LayeredPreferences.Database.Document

structure Cursor where
  place : Nat
  rest : List UInt8

namespace Cursor

def drop (c : Cursor) (n : Nat) : Cursor := ⟨c.place + n, c.rest.drop n⟩

def char (c : Cursor) (n : Nat) : Char := .ofNat ((c.rest[n]?).elim 0 UInt8.toNat)

end Cursor

def isBlank (b : UInt8) : Bool := b = 0x20 || b = 0x09 || b = 0x0a || b = 0x0d

def Cursor.afterBlanks (c : Cursor) : Cursor := c.drop (c.rest.takeWhile isBlank).length

def commentLength? : List UInt8 → Option Nat
  | 0x2a :: 0x2f :: _ => some 2
  | _ :: rest => (commentLength? rest).map (· + 1)
  | [] => none

def lineLength : List UInt8 → Nat
  | [] => 0
  | b :: rest =>
    if b = 0x0a ∨ b = 0x0d then 1
    else if startsLine (b :: rest) then 3
    else 1 + lineLength rest

/-- Blanks of three bytes. -/
def isWideBlank : List UInt8 → Bool
  | 0xe1 :: 0x9a :: 0x80 :: _ | 0xe2 :: 0x81 :: 0x9f :: _ | 0xe3 :: 0x80 :: 0x80 :: _
  | 0xef :: 0xbb :: 0xbf :: _ => true
  | 0xe2 :: 0x80 :: b :: _ => 0x80 ≤ b && (b ≤ 0x8a || b = 0xa8 || b = 0xa9 || b = 0xaf)
  | _ => false

def gapLength : List UInt8 → Nat
  | 0x2f :: 0x2a :: rest => (commentLength? rest).elim 0 (· + 2)
  | 0x2f :: 0x2f :: rest => 2 + lineLength rest
  | 0xc2 :: 0xa0 :: _ => 2
  | b :: rest =>
    if isBlank b || b = 0x0b || b = 0x0c then 1 else if isWideBlank (b :: rest) then 3 else 0
  | [] => 0

def gaps (bytes : List UInt8) : Nat → Nat
  | 0 => 0
  | fuel + 1 =>
    let n := gapLength bytes
    if n = 0 then 0 else n + gaps (bytes.drop n) fuel

def Cursor.gap (c : Cursor) : Nat := gaps c.rest c.rest.length

/-! ## Texts and names -/

structure Piece where
  kind : Kind
  isWide : Bool
  length : Nat

def quotation (mark : UInt8) (piece : Piece) (place : Nat) : List UInt8 → Nat → Except Nat Piece
  | [], _ | _, 0 => .error place
  | b :: rest, fuel + 1 =>
    let go (kind : Kind) (isWide : Bool) (n : Nat) : Except Nat Piece :=
      quotation mark ⟨kind, piece.isWide || isWide, piece.length + n⟩ (place + n)
        ((b :: rest).drop n) fuel
    if b = mark then .ok piece
    else if b = 0x5c then
      let letter := Char.ofNat (rest.head?.elim 0 UInt8.toNat)
      let kind := if piece.kind = .plain then .escaped else piece.kind
      if ['"', '\\', '/', 'b', 'f', 'n', 'r', 't'].contains letter
          || letter = 'u' && startsHex 4 (rest.drop 1) then
        go kind false 2
      else if ['\'', '0', 'v'].contains letter || letter = 'x' && startsHex 2 (rest.drop 1) then
        go .wideText true 2
      else if lineEnd rest = 0 then .error (place + 1)
      else go .wideText true (1 + lineEnd rest)
    else if b < 0x20 then go .wideText true 1
    else if b = 0x22 then go .wideText false 1
    else go piece.kind false 1

def startsName (b : UInt8) : Bool :=
  (0x41 ≤ b && b ≤ 0x5a) || (0x61 ≤ b && b ≤ 0x7a) || b = 0x5f || b = 0x24 || 0x80 ≤ b

def startsEscape : List UInt8 → Bool
  | 0x5c :: 0x75 :: rest => startsHex 4 rest
  | _ => false

def nameRest (piece : Piece) : List UInt8 → Piece
  | [] => piece
  | b :: rest =>
    if startsEscape (b :: rest) then nameRest ⟨.escaped, true, piece.length + 1⟩ rest
    else if (startsName b || isDigit b) && gapLength (b :: rest) = 0 then
      nameRest ⟨piece.kind, true, piece.length + 1⟩ rest
    else piece

def name? : List UInt8 → Option Piece
  | [] => none
  | b :: rest =>
    if startsEscape (b :: rest) then some (nameRest ⟨.escaped, true, 1⟩ rest)
    else if startsName b then some (nameRest ⟨.plain, true, 1⟩ rest)
    else none

/-! ## Numbers -/

structure NumberNotes where
  isReal : Bool
  isWide : Bool
  hasExponent : Bool
  /-- The two characters before. -/
  before : Char × Char

def NumberNotes.kind (notes : NumberNotes) : Kind :=
  match notes.isReal, notes.isWide with
  | false, false => .whole
  | false, true => .wideWhole
  | true, false => .real
  | true, true => .wideReal

/-- The digits of a number, its point and its exponent, or where it is wrong. Digits can be missing
    on one side of a point in the wide notation. It is told where the number ends. -/
def decimalFrom (notes : NumberNotes) (c : Cursor) : Nat → Except Nat (Kind × Nat)
  | 0 => .error c.place
  | fuel + 1 =>
    let d := c.char 0
    let endsInPoint := notes.before.2 < '0'
    let isWide := notes.isWide || endsInPoint
    let go (notes : NumberNotes) (last : Char) (n : Nat) : Except Nat (Kind × Nat) :=
      decimalFrom { notes with before := (notes.before.2, last) } (c.drop n) fuel
    if d.isDigit then go notes d 1
    else if d = '.' then
      if notes.isReal then .error c.place else go { notes with isReal := true } d 1
    else if endsInPoint && !(notes.before.2 = '.' && notes.before.1.isDigit) then .error c.place
    else if d = 'e' ∨ d = 'E' then
      let width := if c.char 1 = '+' ∨ c.char 1 = '-' then 2 else 1
      if notes.hasExponent then .error c.place
      else if !(c.char width).isDigit then .error (c.place + width - 1)
      else go ⟨true, isWide, true, notes.before⟩ d width
    else .ok ({ notes with isWide := isWide }.kind, c.place)

def number (c : Cursor) : Except Nat (Kind × Nat) :=
  let first := c.char 0
  let isSigned := first = '-' || first = '+'
  let startsHexadecimal (n : Nat) : Bool :=
    ['x', 'X'].contains (c.char n) && startsHex 1 (c.rest.drop (n + 1))
  let hexadecimal (n : Nat) : Except Nat (Kind × Nat) :=
    .ok (.wideWhole, c.place + n + ((c.rest.drop n).takeWhile isHexDigit).length)
  let decimal (isReal isWide : Bool) : Except Nat (Kind × Nat) :=
    decimalFrom ⟨isReal, isWide, false, ('\x00', first)⟩ (c.drop 1) (c.rest.length + 1)
  if first = '.' then if (c.char 1).isDigit then decimal true true else .error c.place
  else if first = '0' then
    if startsHexadecimal 1 then hexadecimal 2
    else if (c.char 1).isDigit then .error (c.place + 1)
    else decimal false false
  else if isSigned && !(c.char 1).isDigit then
    if c.char 1 = '.' then decimal false true else .error c.place
  else if isSigned && c.char 1 = '0' && (c.char 2).isDigit then .error (c.place + 1)
  else if isSigned && c.char 1 = '0' && startsHexadecimal 2 then hexadecimal 3
  else decimal false false

/-! ## Words -/

def isAlphanumeric (b : UInt8) : Bool :=
  isDigit b || (0x41 ≤ b && b ≤ 0x5a) || (0x61 ≤ b && b ≤ 0x7a)

def startsWith (word : String) (bytes : List UInt8) : Bool :=
  (String.ofList ((bytes.take word.length).map fun b => Char.ofNat b.toNat)).toLower = word

def startsWord (word : String) (bytes : List UInt8) : Bool :=
  startsWith word bytes && !((bytes.drop word.length).head?.any isAlphanumeric)

def infinite : List UInt8 := element .real "9e999".toUTF8.toList

def wordElements : List (String × List UInt8 × Bool) :=
  [("null", element .null [], false), ("true", element .yes [], false),
    ("false", element .no [], false), ("inf", infinite, true), ("infinity", infinite, true),
    ("nan", element .null [], true), ("qnan", element .null [], true),
    ("snan", element .null [], true)]

def word? (bytes : List UInt8) : Option (String × List UInt8 × Bool) :=
  wordElements.find? fun (word, _, isWide) =>
    startsWord word bytes && (isWide || word.toUTF8.toList.isPrefixOf bytes)

def signedInfinity? (c : Cursor) : Option (List UInt8 × Nat) :=
  if (c.char 0 = '-' ∨ c.char 0 = '+') ∧ startsWith "inf" (c.rest.drop 1) then
    some (if c.char 0 = '-' then element .real "-9e999".toUTF8.toList else infinite,
      if startsWith "infinity" (c.rest.drop 1) then 9 else 4)
  else none

end LayeredPreferences.Database.Document

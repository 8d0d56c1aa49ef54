import LayeredPreferences.Database.Characters
import LayeredPreferences.Database.Content

set_option autoImplicit false

/-!
# Patterns with places

A pattern is a text with places that contents fill. A place starts with a percent
sign and ends with a letter that tells what is put there; between them stand flags,
a width and a precision.
-/
namespace LayeredPreferences.Database

structure Slot where
  isLeft : Bool
  plus : Option Char
  isAlternate : Bool
  isExact : Bool
  isZeroed : Bool
  isGrouped : Bool
  width : Nat
  precision : Option Nat

namespace Slot

def empty : Slot := ⟨false, none, false, false, false, false, 0, none⟩

structure Reading where
  slot : Slot
  letter : Char
  rest : List UInt8
  cells : List Cell

def isDigit (b : UInt8) : Bool := 0x30 ≤ b && b ≤ 0x39

def number (bytes : List UInt8) : Nat :=
  (bytes.takeWhile isDigit).foldl (fun n b => (10 * n + (b.toNat - 0x30)) % Nat.pow 2 32) 0
    % Nat.pow 2 31

/-- A width below zero is one to the left. -/
def withWidth (slot : Slot) (n : Int) : Slot :=
  let width := if n = -Nat.pow 2 31 then 0 else n.natAbs
  { slot with isLeft := slot.isLeft || n < 0, width := width }

def withPrecision (slot : Slot) (n : Int) : Slot :=
  { slot with precision := if n = -Nat.pow 2 31 then none else some n.natAbs }

def letterOf (bytes : List UInt8) : Char := .ofNat ((bytes.head?.map UInt8.toNat).getD 0)

/-- Reads a place up to its letter. The letter is zero if the pattern ends before. -/
def read (encoding : Encoding) (slot : Slot) (cells : List Cell) :
    Nat → List UInt8 → Reading
  | 0, rest => ⟨slot, '\x00', rest, cells⟩
  | _, [] => ⟨slot, '\x00', [], cells⟩
  | fuel + 1, b :: rest =>
    let given : Int := (cells.head?.map (Cell.count encoding)).getD 0
    let goesOn (rest : List UInt8) : Bool := ['.', 'l'].contains (letterOf rest)
    let finish (slot : Slot) (cells : List Cell) (rest : List UInt8) : Reading :=
      ⟨slot, letterOf rest, rest.drop 1, cells⟩
    match Char.ofNat b.toNat with
    | '-' => read encoding { slot with isLeft := true } cells fuel rest
    | '+' => read encoding { slot with plus := some '+' } cells fuel rest
    | ' ' => read encoding { slot with plus := some ' ' } cells fuel rest
    | '#' => read encoding { slot with isAlternate := true } cells fuel rest
    | '!' => read encoding { slot with isExact := true } cells fuel rest
    | '0' => read encoding { slot with isZeroed := true } cells fuel rest
    | ',' => read encoding { slot with isGrouped := true } cells fuel rest
    | 'l' => finish slot cells (if letterOf rest = 'l' then rest.drop 1 else rest)
    | '*' =>
      let slot := slot.withWidth given
      if goesOn rest then read encoding slot cells.tail fuel rest else finish slot cells.tail rest
    | '.' =>
      let isGiven := letterOf rest = '*'
      let slot := if isGiven then slot.withPrecision given else slot.withPrecision (number rest)
      let after := if isGiven then rest.drop 1 else rest.dropWhile isDigit
      let cells := if isGiven then cells.tail else cells
      if letterOf after = 'l' then read encoding slot cells fuel after else finish slot cells after
    | c =>
      if c.isDigit then
        let slot := { slot with width := number (b :: rest) }
        let after := rest.dropWhile isDigit
        if goesOn after then read encoding slot cells fuel after else finish slot cells after
      else ⟨slot, c, rest, cells⟩

/-! ## Texts -/

def ascii (cs : List Char) : List UInt8 := cs.map fun c => .ofNat c.toNat

def padded (slot : Slot) (bytes : List UInt8) : List UInt8 :=
  let blanks := List.replicate (slot.width - bytes.length) 0x20
  if slot.isLeft then bytes ++ blanks else blanks ++ bytes

def widened (slot : Slot) (bytes : List UInt8) : Slot :=
  if 0 < slot.width then { slot with width := slot.width + bytes.countP Encoding.continues }
  else slot

def cut (slot : Slot) (bytes : List UInt8) : List UInt8 :=
  match slot.precision with
  | none => bytes
  | some n =>
    if slot.isExact then ((Encoding.characters bytes).take n).flatten else bytes.take n

def text (slot : Slot) (bytes : List UInt8) : List UInt8 :=
  (if slot.isExact then slot.widened bytes else slot).padded bytes

def quoted (slot : Slot) (mark : UInt8) (isMarked : Bool) (absent : String) :
    Option (List UInt8) → List UInt8
  | none => slot.text (slot.cut absent.toUTF8.toList)
  | some bytes =>
    let inner := Characters.doubled mark (slot.cut bytes)
    slot.text (if isMarked then mark :: inner ++ [mark] else inner)

def repeated (slot : Slot) (bytes : List UInt8) : List UInt8 :=
  let more := slot.precision.getD 1 - 1
  let copies := (List.replicate more bytes).flatten
  if more = 0 then (slot.widened bytes).padded bytes
  else if slot.isLeft then
    let slot := { slot with width := slot.width - more }
    copies ++ (slot.widened bytes).padded bytes
  else List.replicate (slot.width - more - 1) 0x20 ++ copies ++ bytes

/-! ## Numbers -/

def ordinal (n : Nat) : List Char :=
  if 4 ≤ n % 10 ∨ n / 10 % 10 = 1 then ['t', 'h']
  else [['t', 'h'], ['s', 't'], ['n', 'd'], ['r', 'd']].getD (n % 10) []

def digits (slot : Slot) (sign : Option Char) (base : List Char) (digits : List Char) :
    List UInt8 :=
  let room := slot.width - sign.toList.length
  let least := max (slot.precision.getD 0) (if slot.isZeroed then room else 0)
  let all := List.replicate (least - digits.length) '0' ++ digits
  slot.padded (ascii (base ++ sign.toList ++ if slot.isGrouped then RealForm.grouped all else all))

def whole (slot : Slot) (n : Int) (after : List Char) : List UInt8 :=
  slot.digits (if n < 0 then some '-' else slot.plus) [] (Nat.toDigits 10 n.natAbs ++ after)

def based (slot : Slot) (base n : Nat) (isUpper : Bool) (mark : List Char) : List UInt8 :=
  let all := Nat.toDigits base n
  { slot with isGrouped := false }.digits none (if slot.isAlternate && n ≠ 0 then mark else [])
    (if isUpper then all.map Char.toUpper else all)

/-- An infinite number is nine with a thousand digits if places are filled with zeros. -/
def real (slot : Slot) (style : RealStyle) (isUpper : Bool) (x : Binary64) : List UInt8 :=
  let form : RealForm := ⟨style, slot.precision.getD 6, slot.isAlternate, slot.isExact,
    slot.isGrouped, isUpper⟩
  let isNegative := x.signedUnits < 0
  let sign := if isNegative then some '-' else slot.plus
  let set (d : Digits) : List UInt8 :=
    let isHidden := isNegative && slot.isAlternate && slot.plus.isNone && style = .fixed
      && d.point ≤ form.round
    let sign := if isHidden then [] else sign.toList
    let all := form.write d
    let zeros := if slot.isZeroed && !slot.isLeft then slot.width - sign.length - all.length else 0
    slot.padded (ascii (sign ++ List.replicate zeros '0' ++ all))
  match x with
  | .finite _ rank => set (form.digits rank.val)
  | _ =>
    if slot.isZeroed then set ⟨['9'], 1000⟩ else slot.padded (ascii (sign.toList ++ "Inf".toList))

def room (slot : Slot) : Nat := max slot.width (slot.precision.getD 0)

/-! ## Filling -/

def fill? (encoding : Encoding) (slot : Slot) (letter : Char) (cell : Cell) :
    Option (List UInt8) :=
  let n := cell.whole encoding
  let word := (n % Nat.pow 2 64).toNat
  let text := (cell.text? encoding).map Characters.ended
  let x := cell.asReal encoding
  match letter with
  | 'd' | 'i' => some (slot.whole n [])
  | 'r' => some ({ slot with isGrouped := false }.whole n (ordinal n.natAbs))
  | 'u' => some (slot.digits none [] (Nat.toDigits 10 word))
  | 'x' => some (slot.based 16 word false ['0', 'x'])
  | 'X' => some (slot.based 16 word true ['0', 'X'])
  | 'p' => some (slot.based 16 word true ['0', 'x'])
  | 'o' => some (slot.based 8 word false ['0'])
  | 'f' => some (slot.real .fixed false x)
  | 'e' => some (slot.real .exponential false x)
  | 'E' => some (slot.real .exponential true x)
  | 'g' => some (slot.real .general false x)
  | 'G' => some (slot.real .general true x)
  | 's' | 'z' => some (slot.text (slot.cut (text.getD [])))
  | 'q' => some (slot.quoted 0x27 false "(NULL)" text)
  | 'Q' => some (slot.quoted 0x27 true "NULL" text)
  | 'w' => some (slot.quoted 0x22 false "(NULL)" text)
  | 'c' => some (slot.repeated ((Encoding.characters (text.getD [])).headD [0] |>.take 4))
  | _ => none

/-- A pattern with its places filled, up to one that has no meaning. It is nothing if nothing was
    put down at all, and there is no result if it becomes too long. -/
def filled (encoding : Encoding) : Nat → List Cell → List UInt8 → Option (Option (List UInt8))
  | 0, _, _ | _, _, [] => some none
  | fuel + 1, cells, pattern =>
    let put (bytes : List UInt8) (more : Option (Option (List UInt8))) :
        Option (Option (List UInt8)) :=
      more.map fun more => some (bytes ++ more.getD [])
    let plain := pattern.takeWhile (· ≠ 0x25)
    if !plain.isEmpty then put plain (filled encoding fuel cells (pattern.drop plain.length))
    else if pattern.length = 1 then put [0x25] (some none)
    else
      let place := read encoding empty cells pattern.length (pattern.drop 1)
      if longest ≤ place.slot.room + 15 then none
      else if place.letter = 'n' then put [] (filled encoding fuel place.cells place.rest)
      else if place.letter = '%' then
        put (place.slot.padded [0x25]) (filled encoding fuel place.cells place.rest)
      else match place.slot.fill? encoding place.letter (place.cells.headD .null) with
        | some bytes => put bytes (filled encoding fuel place.cells.tail place.rest)
        | none => some none

end Slot

def patterned (encoding : Encoding) (pattern : Cell) (cells : List Cell) : Cell :=
  match (pattern.text? encoding).map Characters.ended with
  | none => .null
  | some pattern =>
    match (Slot.filled encoding pattern.length cells pattern).join with
    | some bytes => if longest ≤ bytes.length then .null else .text bytes
    | none => .null

end LayeredPreferences.Database

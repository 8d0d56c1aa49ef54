import LayeredPreferences.Database.Content
import LayeredPreferences.Database.Document.Reading
import LayeredPreferences.Database.Document.Writing

set_option autoImplicit false

/-!
# Documents and contents

What a content is within a document, and what an element of a document is as a content.
The texts that are made here are in UTF-8.
-/
namespace LayeredPreferences.Database.Document

/-! ## Contents from elements -/

/-- What is read of the digits of a whole number: they end at a character that cannot be in a
    number, which is seen itself. -/
def numberWindow (bytes : List UInt8) : List UInt8 :=
  let inNumber (b : UInt8) : Bool :=
    isDigit b || b = 0x2b || b = 0x2d || b = 0x20 || b = 0x0a || b = 0x09
  bytes.take ((bytes.takeWhile inNumber).length + 1)

def cellOfNumber? (bytes : List UInt8) : Option Cell :=
  match Cell.numberOfText bytes with
  | (cell, true) => some (.real cell.realOf)
  | _ => none

def cellOfHex? (isNegative : Bool) (digits : List UInt8) : Option Cell :=
  let significant := digits.dropWhile (· = 0x30)
  let n := Bytes.signed 64 (hexNumber significant)
  if digits.all isHexDigit ∧ significant.length ≤ 16 then
    some (.integer (if isNegative ∧ n ≠ Cell.least then -n else n))
  else none

/-- A whole number. Where a sign stands before another the first one turns the number. -/
def cellOfWhole? (bytes : List UInt8) : Option Cell :=
  let isNegative := bytes.head? = some 0x2d
  let digits := if isNegative then bytes.drop 1 else bytes
  if [0x30, 0x78].isPrefixOf digits || [0x30, 0x58].isPrefixOf digits then
    cellOfHex? isNegative (digits.drop 2)
  else
    let window := (numberWindow digits).dropWhile Cell.isSpace
    let isTurned := window.head? = some 0x2d
    let window := if isTurned || window.head? = some 0x2b then window.drop 1 else window
    let own := window.takeWhile isDigit
    let n : Int := Nat.ofDigitChars 10 (own.map fun b => Char.ofNat b.toNat) 0
    let n := if isTurned then -n else n
    if own.isEmpty then cellOfNumber? bytes
    else if n < Cell.least ∨ Cell.greatest < n then
      if n = -Cell.least ∧ isNegative then some (.integer Cell.least) else cellOfNumber? bytes
    else if !(window.drop own.length).all Cell.isSpace then none
    else some (.integer (if isNegative ∧ n ≠ Cell.least then -n else n))

/-- What the element at the front is as a content. Lists and objects are texts, or bytes if they are
    kept as such; there is no content if the element is not well formed. -/
def cell? (isBinary : Bool) (bytes : List UInt8) : Option Cell := do
  let kind ← kind? bytes
  let extent ← extent? bytes
  let inner := contents bytes
  let digits := Characters.ended inner
  let constant (cell : Cell) : Option Cell := if extent.size = 0 then some cell else none
  match kind with
  | .null => constant .null
  | .yes => constant (.integer 1)
  | .no => constant (.integer 0)
  | .whole | .wideWhole =>
    if inner.isEmpty || inner = [0x2d] then none else cellOfWhole? digits
  | .real | .wideReal => cellOfNumber? digits
  | .plain | .raw => some (.text inner)
  | .escaped | .wideText => some (.text (plainText inner inner.length))
  | .list | .object =>
    if isBinary then some (.blob (only bytes)) else (write? (only bytes)).map Cell.text

/-! ## Elements from contents -/

def numberText (x : Binary64) : List UInt8 :=
  ascii (realText realForm "9.0e+999".toList x)

/-- Whether bytes are taken for a document. -/
def bytes? (encoding : Encoding) (cell : Cell) : Option (List UInt8) :=
  match cell with
  | .blob _ | .zeros _ => (cell.kept? encoding).filter isDocument
  | _ => none

inductive ContentFault where
  | bytes
  | document
deriving DecidableEq

def textOf (encoding : Encoding) (content : Content) : Except ContentFault (List UInt8) :=
  match content.cell with
  | .null => .ok (ascii "null")
  | .real x => .ok (numberText x)
  | .integer n => .ok (ascii (toString n))
  | .text bytes =>
    let text := encoding.decode bytes
    .ok (if content.isDocument then text else quotedText text)
  | cell =>
    match bytes? encoding cell with
    | none => .error .bytes
    | some document =>
      match write? document with
      | some text => .ok text
      | none => .error .document

def elementOf (encoding : Encoding) (content : Content) : Except FunctionFault (List UInt8) :=
  match content.cell with
  | .null => .ok (element .null [])
  | .real x =>
    .ok (element .real (ascii (realText realForm "9e999".toList x)))
  | .integer n => .ok (element .whole (ascii (toString n)))
  | .text bytes =>
    let text := encoding.decode bytes
    if content.isDocument then
      match ofText (Characters.ended text) with
      | .ok (bytes, _) => .ok bytes
      | .error _ => .error .badDocument
    else .ok (element .raw text)
  | cell =>
    match bytes? encoding cell with
    | some bytes => .ok bytes
    | none => .error .bytesInDocument

/-- The document that a content is, with whether it is in the wide notation; none if it is
    nothing. Bytes that are no document are taken for a text. -/
def ofCell? (encoding : Encoding) (cell : Cell) :
    Except FunctionFault (Option (List UInt8 × Bool)) :=
  match bytes? encoding cell, cell.text? encoding with
  | some bytes, _ => .ok (some (bytes, false))
  | none, none => .ok none
  | none, some text =>
    match ofText (Characters.ended text) with
    | .ok found => .ok (some found)
    | .error _ => .error .badDocument

end LayeredPreferences.Database.Document

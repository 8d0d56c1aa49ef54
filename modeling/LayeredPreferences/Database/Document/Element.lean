set_option autoImplicit false

/-!
# Elements of documents

A document is an element: a header with its kind and its size, then its contents. A
list and an object hold elements one after the other. Bytes are taken from an element
on, with all that follows it in the document.
-/
namespace LayeredPreferences.Database.Document

inductive Kind where
  | null
  | yes
  | no
  | whole
  | wideWhole
  | real
  | wideReal
  | plain
  | escaped
  | wideText
  | raw
  | list
  | object
deriving DecidableEq

namespace Kind

def all : List Kind :=
  [.null, .yes, .no, .whole, .wideWhole, .real, .wideReal, .plain, .escaped, .wideText, .raw,
    .list, .object]

def code (kind : Kind) : UInt8 := .ofNat (all.idxOf kind)

def ofCode? (code : UInt8) : Option Kind := all[code.toNat % 16]?

def isText : Kind → Bool
  | .plain | .escaped | .wideText | .raw => true
  | _ => false

def isLiteral : Kind → Bool
  | .plain | .raw => true
  | _ => false

def name : Kind → String
  | .null => "null"
  | .yes => "true"
  | .no => "false"
  | .whole | .wideWhole => "integer"
  | .real | .wideReal => "real"
  | .plain | .escaped | .wideText | .raw => "text"
  | .list => "array"
  | .object => "object"

end Kind

abbrev mostLevels : Nat := 1000

def kind? (bytes : List UInt8) : Option Kind := bytes.head?.bind Kind.ofCode?

structure Extent where
  width : Nat
  size : Nat

namespace Extent

def none : Extent := ⟨0, 0⟩

def total (extent : Extent) : Nat := extent.width + extent.size

end Extent

def bigEndian (bytes : List UInt8) : Nat := bytes.foldl (fun n b => 256 * n + b.toNat) 0

def sizeWidth (form : Nat) : Nat := [1, 2, 4, 8].getD (form - 12) 0

/-- An element that does not end where the document does is none. -/
def extent? : List UInt8 → Option Extent
  | [] => none
  | b :: rest =>
    let form := b.toNat / 16
    let width := if form < 12 then 0 else sizeWidth form
    let size := if form < 12 then form else bigEndian (rest.take width)
    if width ≤ rest.length ∧ size < Nat.pow 2 32 ∧ width + size ≤ rest.length then
      some ⟨width + 1, size⟩
    else none

def extent (bytes : List UInt8) : Extent := (extent? bytes).getD .none

def after (bytes : List UInt8) : List UInt8 := bytes.drop (extent bytes).total

def only (bytes : List UInt8) : List UInt8 := bytes.take (extent bytes).total

def contents (bytes : List UInt8) : List UInt8 :=
  let extent := extent bytes
  (bytes.drop extent.width).take extent.size

def header (code : UInt8) (size : Nat) : List UInt8 :=
  let byte (shift : Nat) : UInt8 := .ofNat (size / Nat.pow 256 shift)
  if size < 12 then [16 * .ofNat size + code]
  else if size < 256 then [0xc0 + code, byte 0]
  else if size < 65536 then [0xd0 + code, byte 1, byte 0]
  else [0xe0 + code, byte 3, byte 2, byte 1, byte 0]

def element (kind : Kind) (contents : List UInt8) : List UInt8 :=
  header kind.code contents.length ++ contents

/-- With a header for this size in place of the one that is there. No header is longer than five
    bytes here. -/
def resized (size : Nat) : List UInt8 → List UInt8
  | [] => []
  | b :: rest =>
    let form := b.toNat / 16
    header (b % 16) size ++ rest.drop (if form < 12 then 0 else min 4 (sizeWidth form))

def countIn (room : Nat) (bytes : List UInt8) : Nat → Nat
  | 0 => 0
  | fuel + 1 =>
    if room = 0 then 0
    else match extent? bytes with
      | none => 1
      | some extent => 1 + countIn (room - extent.total) (bytes.drop extent.total) fuel

def count (bytes : List UInt8) : Nat :=
  let extent := extent bytes
  countIn extent.size (bytes.drop extent.width) extent.size

def isDocument (bytes : List UInt8) : Bool :=
  match kind? bytes, extent? bytes with
  | some kind, some extent =>
    extent.total = bytes.length
      && (extent.size = 0 || !(kind = .null || kind = .yes || kind = .no))
  | _, _ => false

end LayeredPreferences.Database.Document

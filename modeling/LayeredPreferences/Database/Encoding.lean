set_option autoImplicit false

/-!
# Encodings of text

The texts of a database are all written in one encoding: bytes of UTF-8, or units
of 16 bits in one of two orders. They need not be well formed: what is no character
is replaced or cut short, and nothing is refused.
-/
namespace LayeredPreferences.Database

inductive Encoding where
  | utf8
  | utf16 (isBigEndian : Bool)
deriving DecidableEq

namespace Encoding

def ofNumber (n : Nat) : Encoding :=
  match n % 4 with
  | 2 => .utf16 false
  | 3 => .utf16 true
  | _ => .utf8

/-! ## Bytes of UTF-8 -/

def continues (b : UInt8) : Bool := 0x80 ≤ b && b < 0xc0

def characters : List UInt8 → List (List UInt8)
  | [] => []
  | b :: rest =>
    let more := if b < 0xc0 then [] else rest.takeWhile continues
    (b :: more) :: characters (rest.drop more.length)
termination_by bytes => bytes.length
decreasing_by simp only [List.length_drop, List.length_cons]; omega

/-- What the first byte of a longer character tells. -/
def leadValue (b : UInt8) : Nat :=
  if b < 0xe0 then b.toNat % 0x20
  else if b < 0xf0 then b.toNat % 0x10
  else if b < 0xf8 then b.toNat % 8
  else if b < 0xfc then b.toNat % 4
  else if b = 0xfd then 1 else 0

/-- The number of a character. Forms that are too long, halves of pairs and the two numbers that
    are no characters are replaced. -/
def point : List UInt8 → Nat
  | [] => 0
  | lead :: more =>
    if lead < 0xc0 then lead.toNat
    else
      let n := more.foldl (fun n b => (0x40 * n + b.toNat % 0x40) % Nat.pow 2 32) (leadValue lead)
      if n < 0x80 ∨ n / 0x800 = 0x1b ∨ n / 2 = 0x7fff then 0xfffd else n

def points (bytes : List UInt8) : List Nat := (characters bytes).map point

def utf8Bytes (n : Nat) : List UInt8 :=
  let tail (shift : Nat) : UInt8 := .ofNat (0x80 + n / Nat.pow 2 shift % 0x40)
  if n < 0x80 then [.ofNat n]
  else if n < 0x800 then [.ofNat (0xc0 + n / 0x40 % 0x20), tail 0]
  else if n < 0x10000 then [.ofNat (0xe0 + n / 0x1000 % 0x10), tail 6, tail 0]
  else [.ofNat (0xf0 + n / 0x40000 % 8), tail 12, tail 6, tail 0]

/-! ## Units of 16 bits -/

def units (isBigEndian : Bool) : List UInt8 → List Nat
  | a :: b :: rest =>
    (if isBigEndian then 256 * a.toNat + b.toNat else a.toNat + 256 * b.toNat)
      :: units isBigEndian rest
  | _ => []

/-- A unit from the range of pairs takes the next one with it, whatever that is. -/
def pointsOfUnits : List Nat → List Nat
  | [] => []
  | [u] => [u]
  | u :: v :: rest =>
    if 0xd800 ≤ u ∧ u < 0xe000 then
      (v % 0x400 + u % 0x40 * 0x400 + (u / 0x40 % 0x10 + 1) * 0x10000) :: pointsOfUnits rest
    else u :: pointsOfUnits (v :: rest)
termination_by us => us.length

def unitsOfPoint (n : Nat) : List Nat :=
  if n < 0x10000 then [n]
  else
    let above := (n - 0x10000) / 0x400
    [0xd800 + above / 0x100 % 4 * 0x100 + above / 0x40 % 4 * 0x40 + n / 0x400 % 0x40,
      0xdc00 + n % 0x400]

def bytesOfUnit (isBigEndian : Bool) (u : Nat) : List UInt8 :=
  if isBigEndian then [.ofNat (u / 256), .ofNat u] else [.ofNat u, .ofNat (u / 256)]

def decode : Encoding → List UInt8 → List UInt8
  | .utf8, bytes => bytes
  | .utf16 isBigEndian, bytes => (pointsOfUnits (units isBigEndian bytes)).flatMap utf8Bytes

def encode : Encoding → List UInt8 → List UInt8
  | .utf8, bytes => bytes
  | .utf16 isBigEndian, bytes =>
    ((points bytes).flatMap unitsOfPoint).flatMap (bytesOfUnit isBigEndian)

def size : Encoding → String → Nat
  | .utf8, s => s.utf8ByteSize
  | .utf16 _, s => s.toList.foldr (fun c rest => (if c.toNat < 0x10000 then 2 else 4) + rest) 0

end Encoding

end LayeredPreferences.Database

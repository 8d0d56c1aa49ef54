import LayeredPreferences.Database.Affinity
import LayeredPreferences.Number.Arithmetic

set_option autoImplicit false

/-!
# Order of contents

Numbers come before texts, and texts before bytes. Texts are in the order of a
collation, which can overlook the case of letters or spaces at the end.
-/
namespace LayeredPreferences.Database

namespace Collation

def all : List String := ["binary", "nocase", "rtrim"]

def lower (b : UInt8) : UInt8 := if 0x41 ≤ b ∧ b ≤ 0x5a then b + 0x20 else b

def upper (b : UInt8) : UInt8 := if 0x61 ≤ b ∧ b ≤ 0x7a then b - 0x20 else b

def withoutBlanks (bytes : List UInt8) : List UInt8 :=
  (bytes.reverse.dropWhile (· = 0x20)).reverse

def compareBytes (a b : List UInt8) : Ordering :=
  compareOfLessAndEq (a.map UInt8.toNat) (b.map UInt8.toNat)

/-- Texts end before a zero byte that both have, and the lengths decide then. -/
def compareFolded : List UInt8 → List UInt8 → Ordering
  | [], [] => .eq
  | [], _ => .lt
  | _, [] => .gt
  | a :: as, b :: bs =>
    if lower a ≠ lower b then Ord.compare (lower a).toNat (lower b).toNat
    else if a = 0 then Ord.compare as.length bs.length
    else compareFolded as bs

/-- Texts that are compared byte by byte are compared as they are kept, others in UTF-8. -/
def compare (encoding : Encoding) (collation : String) (a b : List UInt8) : Ordering :=
  match collation.toLower with
  | "nocase" => compareFolded (encoding.decode a) (encoding.decode b)
  | "rtrim" => compareBytes (withoutBlanks (encoding.decode a)) (withoutBlanks (encoding.decode b))
  | _ => compareBytes a b

end Collation

namespace Cell

def realOf : Cell → Binary64
  | .integer n => realOfInt n
  | .real x => x
  | _ => .notANumber

def rank : Cell → Nat
  | .null => 0
  | .integer _ | .real _ => 1
  | .text _ => 2
  | .blob _ | .zeros _ => 3

/-- A number in units of `2 ^ -1074`, so that all numbers can be compared exactly. -/
def signedUnits : Cell → Int
  | .integer n => n * Binary64.unitsOfOne
  | .real x => x.signedUnits
  | _ => 0

def order (encoding : Encoding) (collation : String) (a b : Cell) : Ordering :=
  match a, b with
  | .text s, .text t => Collation.compare encoding collation s t
  | .integer m, .integer n => compare m n
  | a, b =>
    if a.rank ≠ b.rank then compare a.rank b.rank
    else if a.rank = 3 then
      Collation.compareBytes ((a.kept? encoding).getD []) ((b.kept? encoding).getD [])
    else compare a.signedUnits b.signedUnits

def isText (encoding : Encoding) (collation : String) (s : String) (cell : Cell) : Bool :=
  match cell with
  | .text bytes =>
    Collation.compare encoding collation bytes (encoding.encode s.toUTF8.toList) = .eq
  | _ => false

end Cell

end LayeredPreferences.Database

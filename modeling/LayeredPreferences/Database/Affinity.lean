import LayeredPreferences.Database.Encoding
import LayeredPreferences.Database.Numeral

set_option autoImplicit false

/-!
# Affinities

What a column likes its contents to be follows from the name of its type. Texts
that are numbers become numbers where numbers are liked, and numbers texts.
-/
namespace LayeredPreferences.Database

inductive Affinity where
  | any
  | text
  | numeric
  | integer
  | real
deriving DecidableEq

namespace Affinity

def contains (part : List Char) : List Char → Bool
  | [] => part.isEmpty
  | c :: rest => part.isPrefixOf (c :: rest) || contains part rest

def marks : List (String × Affinity) :=
  [("int", .integer), ("char", .text), ("clob", .text), ("text", .text), ("blob", .any),
    ("real", .real), ("floa", .real), ("doub", .real)]

def ofType (type : String) : Affinity :=
  let cs := type.toLower.toList
  if cs.isEmpty then .any
  else match marks.find? fun mark => contains mark.1.toList cs with
    | some mark => mark.2
    | none => .numeric

def isNumeric : Affinity → Bool
  | .numeric | .integer | .real => true
  | .any | .text => false

/-- What two contents are compared as. What is no column and no cast has no affinity. -/
def common : Option Affinity → Option Affinity → Affinity
  | some a, some b => if a.isNumeric || b.isNumeric then .numeric else .any
  | some a, none | none, some a => if a.isNumeric then .numeric else a
  | none, none => .any

end Affinity

namespace Cell

def numeral? : Cell → Option (List UInt8)
  | .integer n => some (toString n).toUTF8.toList
  | .real x => some (textOfReal x).toUTF8.toList
  | _ => none

def text? (encoding : Encoding) : Cell → Option (List UInt8)
  | .text bytes | .blob bytes => some (encoding.decode bytes)
  | .zeros count => some (encoding.decode (List.replicate count 0))
  | cell => cell.numeral?

def kept? (encoding : Encoding) : Cell → Option (List UInt8)
  | .text bytes | .blob bytes => some bytes
  | .zeros count => some (List.replicate count 0)
  | cell => cell.numeral?.map encoding.encode

def keptSize (encoding : Encoding) : Cell → Nat
  | .zeros count => count
  | cell => ((cell.kept? encoding).getD []).length

def encoded (encoding : Encoding) : Cell → Cell
  | .text bytes => .text (encoding.encode bytes)
  | cell => cell

def decoded (encoding : Encoding) : Cell → Cell
  | .text bytes => .text (encoding.decode bytes)
  | cell => cell

def realOfInt (n : Int) : Binary64 := .ofRank (n < 0) (Binary64.rankOfNat n.natAbs)

def wholeOf? (bits : Nat) (x : Binary64) : Option Int :=
  x.toInt?.filter (·.natAbs < Nat.pow 2 bits)

/-- Bytes stay what they are in every column. -/
def adapted (encoding : Encoding) (affinity : Affinity) (cell : Cell) : Cell :=
  match affinity, cell with
  | .text, .integer _ | .text, .real _ => .text ((cell.kept? encoding).getD [])
  | .real, .integer n => .real (realOfInt n)
  | .any, cell | .text, cell => cell
  | affinity, .text bytes =>
    match numberOfText (encoding.decode bytes), affinity with
    | (_, false), _ => .text bytes
    | (.integer n, true), .real => .real (realOfInt n)
    | (.real x, true), .real => .real x
    | (.real x, true), _ => wholeOrReal x
    | (number, true), _ => number
  | .numeric, .real x | .integer, .real x => wholeOrReal x
  | _, cell => cell
where
  wholeOrReal (x : Binary64) : Cell := ((wholeOf? 63 x).map Cell.integer).getD (.real x)

end Cell

end LayeredPreferences.Database

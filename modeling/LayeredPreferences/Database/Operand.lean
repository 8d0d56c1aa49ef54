import LayeredPreferences.Database.Content
import LayeredPreferences.Database.Expression

set_option autoImplicit false

/-!
# Operators

What operators make of two contents. Comparisons convert their sides as one side likes
it, and take the collation that one side brings.
-/
namespace LayeredPreferences.Database

structure Traits where
  affinity : Option Affinity
  asked : Option String
  own : Option String

structure Operand where
  traits : Traits
  cell : Cell

namespace Traits

def collation (a : Traits) : String := (a.asked <|> a.own).getD "binary"

def commonCollation (a b : Traits) : String :=
  (a.asked <|> b.asked <|> a.own <|> b.own).getD "binary"

end Traits

namespace Operation

/-! ## Comparisons -/

/-- The order of two contents that are compared as what one side likes. Numbers become texts only
    beside a text. -/
def order (encoding : Encoding) (affinity : Affinity) (collation : String) (a b : Cell) :
    Ordering :=
  let affinity :=
    if affinity.isNumeric then .numeric
    else if a.rank = 2 || b.rank = 2 then affinity
    else .any
  (a.adapted encoding affinity).order encoding collation (b.adapted encoding affinity)

def orderOf (encoding : Encoding) (a b : Operand) : Ordering :=
  order encoding (Affinity.common a.traits.affinity b.traits.affinity)
    (a.traits.commonCollation b.traits) a.cell b.cell

def comparedIf (isSuch : Ordering → Bool) (encoding : Encoding) (a b : Operand) : Cell :=
  if a.cell = .null ∨ b.cell = .null then .null
  else .ofBool (isSuch (orderOf encoding a b))

def compared (operator : String) (encoding : Encoding) (a b : Operand) : Cell :=
  match operator with
  | "=" | "==" => comparedIf (· = .eq) encoding a b
  | "<>" | "!=" => comparedIf (· ≠ .eq) encoding a b
  | "<" => comparedIf (· = .lt) encoding a b
  | "<=" => comparedIf (· ≠ .gt) encoding a b
  | ">" => comparedIf (· = .gt) encoding a b
  | ">=" => comparedIf (· ≠ .lt) encoding a b
  | "is" => .ofBool (orderOf encoding a b = .eq)
  | _ => .ofBool (orderOf encoding a b ≠ .eq)

/-! ## Numbers -/

def fits (n : Int) : Bool := Cell.least ≤ n && n ≤ Cell.greatest

/-- In whole numbers if both are such and the result is, else in real ones. -/
def arithmetic (operator : String) (encoding : Encoding) (a b : Cell) : Cell :=
  match a.number encoding, b.number encoding with
  | .null, _ | _, .null => .null
  | .integer m, .integer n =>
    let x := Cell.realOfInt m
    let y := Cell.realOfInt n
    match operator with
    | "+" => if fits (m + n) then .integer (m + n) else .ofReal (x.sum y)
    | "-" => if fits (m - n) then .integer (m - n) else .ofReal (x.sum y.opposite)
    | "*" => if fits (m * n) then .integer (m * n) else .ofReal (x.product y)
    | "/" => if n = 0 then .null else if fits (m.tdiv n) then .integer (m.tdiv n)
      else .ofReal (x.quotient y)
    | _ => if n = 0 then .null else .integer (m.tmod n)
  | x, y =>
    let m := a.whole encoding
    let n := b.whole encoding
    let x := x.realOf
    let y := y.realOf
    match operator with
    | "+" => .ofReal (x.sum y)
    | "-" => .ofReal (x.sum y.opposite)
    | "*" => .ofReal (x.product y)
    | "/" => .ofReal (x.quotient y)
    | _ => if n = 0 then .null else .real (Cell.realOfInt (m.tmod n))

/-- On words of 64 bits. A shift below zero goes the other way. -/
def bitwise (operator : String) (encoding : Encoding) (a b : Cell) : Cell :=
  match a.whole? encoding, b.whole? encoding with
  | some m, some n =>
    let word (n : Int) : Nat := (n % Nat.pow 2 64).toNat
    match operator with
    | "&" => .integer (Bytes.signed 64 (word m &&& word n))
    | "|" => .integer (Bytes.signed 64 (word m ||| word n))
    | _ =>
      let left := if operator = "<<" then n else -n
      if 64 ≤ left then .integer 0
      else if left ≤ -64 then .integer (if m < 0 then -1 else 0)
      else if 0 ≤ left then .integer (Bytes.signed 64 (word (m * Nat.pow 2 left.toNat)))
      else .integer (m / Nat.pow 2 (-left).toNat)
  | _, _ => .null

/-! ## Truth -/

def ofTruth? (truth : Option Bool) : Cell := (truth.map Cell.ofBool).getD .null

/-- One side decides if it is the value that absorbs the other, known or not. -/
def logical (absorbing : Bool) (a b : Option Bool) : Option Bool :=
  if a = some absorbing ∨ b = some absorbing then some absorbing
  else if a.isNone ∨ b.isNone then none
  else some (!absorbing)

/-! ## All operators -/

def joined (encoding : Encoding) (a b : Cell) : Except DatabaseFault Cell :=
  if a = .null ∨ b = .null then .ok .null
  else if longest < a.keptSize encoding + b.keptSize encoding then
    .error (.inFunction .tooBig)
  else .ok (.text ((a.kept? encoding).getD [] ++ (b.kept? encoding).getD []))

def ofTwo (operator : String) (encoding : Encoding) (a b : Operand) : Except DatabaseFault Cell :=
  let m := a.cell
  let n := b.cell
  match operator with
  | "||" => joined encoding m n
  | "and" => .ok (ofTruth? (logical false (m.isTrue? encoding) (n.isTrue? encoding)))
  | "or" => .ok (ofTruth? (logical true (m.isTrue? encoding) (n.isTrue? encoding)))
  | "&" | "|" | "<<" | ">>" => .ok (bitwise operator encoding m n)
  | "+" | "-" | "*" | "/" | "%" => .ok (arithmetic operator encoding m n)
  | _ => .ok (compared operator encoding a b)

def ofOne (operator : String) (encoding : Encoding) (a : Cell) : Cell :=
  match operator with
  | "-" => arithmetic "-" encoding (.integer 0) a
  | "~" => ((a.whole? encoding).map fun n => Cell.integer (-n - 1)).getD .null
  | "not" => ofTruth? ((a.isTrue? encoding).map (!·))
  | "isnull" => .ofBool (a = .null)
  | "notnull" => .ofBool (a ≠ .null)
  | _ => a

/-- What a type makes of a content. Only a text is still a document then. -/
def casted (encoding : Encoding) (type : String) (content : Content) : Content :=
  let affinity := Affinity.ofType type
  ⟨content.cell.casted encoding affinity, content.isDocument && affinity = .text⟩

end Operation

end LayeredPreferences.Database

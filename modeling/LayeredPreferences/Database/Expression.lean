import LayeredPreferences.Database.Content
import LayeredPreferences.Database.Grammar

set_option autoImplicit false

/-!
# Expressions

What a statement computes contents from. An expression that is part of the
description of a table speaks of its columns and of nothing else.
-/
namespace LayeredPreferences.Database

inductive CallForm where
  | plain
  | sorted
  | filtered
  | windowed
deriving DecidableEq

inductive Operation where
  | unary (name : String)
  | binary (name : String)
  | call (name : String) (form : CallForm)
  | cast (type : String)
  | collate (name : String)
  | between (isNegated : Bool)
  | among (isNegated : Bool)
  /-- Whether it is so and known. -/
  | test (truth isNegated : Bool)
  | cases (hasSubject hasOtherwise : Bool)
  | row
deriving DecidableEq

def Operation.isComparison : Operation → Bool
  | .binary name => ["=", "==", "<>", "!=", "<", "<=", ">", ">=", "is", "isnot"].contains name
  | .between _ => true
  | _ => false

inductive Expression where
  | content (cell : Cell)
  | number (digits : String)
  | column (path : List String) (name : String) (mark : Option Char)
  | truth (holds : Bool)
  | variable
  | query
  | failure
  | node (operation : Operation) (parts : List Expression)

namespace Token

def hexNumber (cs : List Char) : Nat :=
  cs.foldl (fun n c => 16 * n + (if c.isDigit then c.toNat - 48 else c.toLower.toNat - 87)) 0

def bytesOfHex : List Char → List UInt8
  | a :: b :: rest => .ofNat (hexNumber [a, b]) :: bytesOfHex rest
  | _ => []

def isHexNumber (raw : String) : Bool := (raw.toList[1]?).any (·.toLower = 'x')

def digits (raw : String) : String := String.ofList (raw.toList.filter (· ≠ '_'))

def cell? (token : Token) : Option Cell :=
  match token.kind with
  | .text => some (.text (unquoted token.bytes))
  | .bytes => some (.blob (bytesOfHex (token.raw.toList.drop 2)))
  | .word => if token.isWord "null" then some .null else none
  | _ => none

def literal? (token : Token) : Option Expression :=
  if token.kind = .number then some (.number (digits token.raw))
  else token.cell?.map .content

def truth? (name : String) : Option Bool :=
  if name.toLower = "true" then some true
  else if name.toLower = "false" then some false
  else none

end Token

/-! ## Numbers -/

namespace Literal

def isWhole (digits : String) : Bool :=
  Token.isHexNumber digits || digits.toList.all Char.isDigit

/-- Hexadecimal numbers have 64 bits; zeros at the front do not count. -/
def isTooLong (digits : String) : Bool :=
  Token.isHexNumber digits && 16 < ((digits.toList.drop 2).dropWhile (· == '0')).length

def hexValue (digits : String) : Int :=
  Bytes.signed 64 (Token.hexNumber (digits.toList.drop 2))

/-- The number with its sign. The least one is whole only with its sign. -/
def cell (isNegative : Bool) (digits : String) : Cell :=
  if Token.isHexNumber digits then .integer (if isNegative then -hexValue digits else hexValue digits)
  else ((Numeral.front? digits.toList).map fun found => found.1.cell isNegative).getD .null

def small? (digits : String) : Option Int :=
  match cell false digits with
  | .integer n => if isWhole digits ∧ 0 ≤ n ∧ n < Nat.pow 2 31 then some n else none
  | _ => none

def isUnusable (isNegative : Bool) (digits : String) : Bool :=
  isTooLong digits
    || isNegative && Token.isHexNumber digits && hexValue digits = -Nat.pow 2 63

end Literal

namespace Expression

/-- A number as a column of some affinity keeps it. It is kept as it is written unless it is a whole
    number of 64 bits. -/
def keptNumber (affinity : Affinity) (isNegative : Bool) (digits : String) : Cell :=
  let text := (if isNegative then "-" else "") ++ digits
  let written : Cell := .text text.toUTF8.toList
  let isFit := Literal.isWhole digits && !Literal.isTooLong digits
  match Literal.cell false digits, affinity with
  | .integer n, affinity =>
    if isFit then (Cell.integer (if isNegative then -n else n)).adapted .utf8 affinity
    else written.adapted .utf8 affinity
  | _, .any =>
    if Literal.isWhole digits then written.adapted .utf8 .numeric else Literal.cell isNegative digits
  | _, affinity => written.adapted .utf8 affinity

/-- What a type makes of it, with texts in UTF-8. Bytes count as a text in UTF-8, of whole units. -/
def keptCast (encoding : Encoding) (affinity : Affinity) : Cell → Cell
  | .blob bytes =>
    if affinity = .text ∧ encoding ≠ .utf8 then .text (bytes.take (bytes.length / 2 * 2))
    else (Cell.blob bytes).casted .utf8 affinity
  | cell =>
    match cell.casted .utf8 affinity with
    | .blob bytes => .blob (encoding.encode bytes)
    | cell => cell

def kept? (encoding : Encoding) (affinity : Affinity) : Expression → Option Cell
  | .content cell => some (cell.adapted .utf8 affinity)
  | .number digits => some (keptNumber affinity false digits)
  | .variable => some .null
  | .column [] name none =>
    (Token.truth? name).map fun holds => (Cell.ofBool holds).adapted .utf8 affinity
  | .truth holds => some ((Cell.ofBool holds).adapted .utf8 affinity)
  | .node (.unary "+") [x] => x.kept? encoding affinity
  | .node (.unary "-") [.number digits] =>
    if Literal.isUnusable true digits then
      some (((keptNumber affinity false digits).numeric .utf8).negative.adapted .utf8 affinity)
    else some (keptNumber affinity true digits)
  | .node (.unary "-") [x] =>
    (x.kept? encoding affinity).map fun cell =>
      (cell.numeric .utf8).negative.adapted .utf8 affinity
  | .node (.cast type) [x] =>
    (x.kept? encoding (.ofType type)).map fun cell =>
      (keptCast encoding (.ofType type) cell).adapted .utf8 affinity
  | _ => none

/-- What a name stands for where no column has it. In double marks it is a text. -/
def ofName? (name : String) (mark : Option Char) : Option Cell :=
  match mark with
  | none => (Token.truth? name).map Cell.ofBool
  | some mark => if mark = '"' then some (.ofText name) else none

def truth? (isColumn : String → Bool) : Expression → Option Bool
  | .truth holds => some holds
  | .column [] name none => if isColumn name then none else Token.truth? name
  | .node (.collate _) [x] => x.truth? isColumn
  | _ => none

def width : Expression → Nat
  | .node .row parts => parts.length
  | _ => 1

/-- Whether it is zero whatever the row is, so that nothing is looked at beside it. -/
def isZero : Expression → Bool
  | .truth holds => !holds
  | .number digits => Literal.small? digits = some 0
  | _ => false

mutual

/-- How many levels of operations there are. A collation and a row count for one, and a range only
    by what is looked for in it. -/
def height : Expression → Nat
  | .node (.collate _) _ | .node .row _ => 1
  | .node (.between isNegated) (x :: _) => x.height + (if isNegated then 2 else 1)
  | .node (.among isNegated) parts => heightOf parts + (if isNegated then 2 else 1)
  | .node _ parts => heightOf parts + 1
  | _ => 1

def heightOf : List Expression → Nat
  | [] => 0
  | x :: rest => max x.height (heightOf rest)

end

mutual

/-- Whether it is the same for all rows, as far as it can be seen before names are looked up. -/
def isConstant (canCall : Bool) : Expression → Bool
  | .content _ | .number _ | .variable | .truth _ => true
  | .column [] name none => (Token.truth? name).isSome
  | .node (.call _ form) parts =>
    canCall && (form = .plain || form = .sorted) && areConstant canCall parts
  | .node _ parts => areConstant canCall parts
  | _ => false

def areConstant (canCall : Bool) : List Expression → Bool
  | [] => true
  | x :: rest => x.isConstant canCall && areConstant canCall rest

end

/-! ## Collations -/

mutual

def asked : Expression → Option String
  | .node (.collate name) _ => some name
  | .node _ parts => askedOf parts
  | _ => none

def askedOf : List Expression → Option String
  | [] => none
  | x :: rest => x.asked <|> askedOf rest

end

def affinity (ofColumn : String → Option Affinity) : Expression → Option Affinity
  | .column _ name _ => ofColumn name
  | .node (.cast type) _ => some (.ofType type)
  | .node (.collate _) [x] => x.affinity ofColumn
  | _ => none

/-- The collation of a column is that of what is made of it only by a sign or a cast. -/
def collation (ofColumn : String → Option String) : Expression → Option String
  | .column _ name _ => ofColumn name
  | .node (.unary "+") [x] | .node (.cast _) [x] => x.collation ofColumn
  | _ => none

end Expression

/-- Beside what is one or zero as such it is asked whether the other side is so. -/
def Operation.settled (isColumn : String → Bool) (operation : Operation)
    (parts : List Expression) : Operation :=
  match operation, parts with
  | .binary "is", [_, x] => (x.truth? isColumn).elim operation fun truth => .test truth false
  | .binary "isnot", [_, x] => (x.truth? isColumn).elim operation fun truth => .test truth true
  | operation, _ => operation

end LayeredPreferences.Database

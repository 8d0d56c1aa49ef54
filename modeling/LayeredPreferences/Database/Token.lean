import LayeredPreferences.Text.Utf8

set_option autoImplicit false

/-!
# Tokens of statements

A statement is read as words, names in marks, texts, numbers and signs. Blanks and
comments only separate them. A character is a byte here, so that a text keeps its
bytes whether they are well formed or not.
-/
namespace LayeredPreferences.Database

inductive TokenKind where
  | word
  | name
  | text
  | number
  | bytes
  | variable
  | sign
  | illegal
deriving DecidableEq

structure Token where
  kind : TokenKind
  bytes : List UInt8
deriving DecidableEq

namespace Token

def raw (token : Token) : String := Text.readable token.bytes

def isBlank (c : Char) : Bool := [' ', '\t', '\n', '\r', '\x0c'].contains c

def isLetter (c : Char) : Bool := c.isAlphanum || c = '_' || c = '$' || 0x80 ≤ c.toNat

def isHexDigit (c : Char) : Bool := c.isDigit || ('a' ≤ c.toLower && c.toLower ≤ 'f')

/-- How many characters there are up to the mark that ends a quotation. A doubled mark stands
    for itself. -/
def quotedLength? (mark : Char) : List Char → Option Nat
  | [] => none
  | [c] => if c = mark then some 1 else none
  | c :: d :: rest =>
    if c = mark then if d = mark then (quotedLength? mark rest).map (· + 2) else some 1
    else (quotedLength? mark (d :: rest)).map (· + 1)

def countDigits (cs : List Char) : Nat := (cs.takeWhile Char.isDigit).length

def digitsLength (isDigit : Char → Bool) (cs : List Char) : Nat :=
  (cs.takeWhile fun c => isDigit c || c = '_').length

def exponentLength : List Char → Nat
  | e :: s :: rest =>
    if e.toLower ≠ 'e' then 0
    else if s.isDigit then 1 + digitsLength Char.isDigit (s :: rest)
    else if (s = '+' ∨ s = '-') ∧ 0 < countDigits rest then 2 + digitsLength Char.isDigit rest
    else 0
  | _ => 0

def numberLength (cs : List Char) : Nat :=
  match cs with
  | '0' :: x :: h :: rest =>
    if x.toLower = 'x' ∧ isHexDigit h then 3 + digitsLength isHexDigit rest
    else decimalLength cs
  | _ => decimalLength cs
where
  decimalLength (cs : List Char) : Nat :=
    let whole := if cs.head?.any Char.isDigit then digitsLength Char.isDigit cs else 0
    let fraction := match cs.drop whole with
      | '.' :: rest => 1 + digitsLength Char.isDigit rest
      | _ => 0
    whole + fraction + exponentLength (cs.drop (whole + fraction))

def isWellSpaced (isDigit : Char → Bool) : List Char → Bool
  | a :: '_' :: b :: rest => isDigit a && isDigit b && isWellSpaced isDigit (b :: rest)
  | [_, '_'] => false
  | _ :: rest => isWellSpaced isDigit rest
  | [] => true

def signs : List String :=
  ["||", "<<", "<=", "<>", "<", ">>", ">=", ">", "==", "=", "!=", "->>", "->", "-", "(", ")", ";",
    "+", "*", "/", "%", "|", ",", "&", "~", "."]

def commentLength? : List Char → Option Nat
  | '-' :: '-' :: rest => some (2 + (rest.takeWhile (· ≠ '\n')).length)
  | '/' :: '*' :: c :: rest => some (3 + closing (c :: rest))
  | _ => none
where
  closing : List Char → Nat
    | '*' :: '/' :: _ => 1
    | _ :: rest => 1 + closing rest
    | [] => 0

/-- The length of a variable's name, and whether it is one: letters, perhaps with double colons, and
    then perhaps anything but a blank in brackets. -/
def variableLength (letters : Nat) : List Char → Nat × Bool
  | [] => (0, 0 < letters)
  | ':' :: ':' :: rest => addLength 2 (variableLength letters rest)
  | c :: rest =>
    if isLetter c then addLength 1 (variableLength (letters + 1) rest)
    else if c = '(' ∧ 0 < letters then
      let inner := (rest.takeWhile fun c => !isBlank c && c != ')').length
      if (rest.drop inner).head? = some ')' then (inner + 2, true) else (inner + 1, false)
    else (0, 0 < letters)
where
  addLength (n : Nat) (found : Nat × Bool) : Nat × Bool := (found.1 + n, found.2)

def front (cs : List Char) : Option TokenKind × Nat :=
  match cs with
  | [] => (none, 0)
  | c :: rest =>
    if isBlank c then (none, 1)
    else if let some n := commentLength? cs then (none, n)
    else if ['\'', '"', '\x60'].contains c then
      match quotedLength? c rest with
      | some n => (some (if c = '\'' then .text else .name), n + 1)
      | none => (some .illegal, cs.length)
    else if c = '[' then
      let n := (rest.takeWhile (· ≠ ']')).length
      if n < rest.length then (some .name, n + 2) else (some .illegal, cs.length)
    else if c.isDigit || (c = '.' && (rest.head?.any Char.isDigit)) then
      let n := numberLength cs
      let more := ((cs.drop n).takeWhile isLetter).length
      (some (if more = 0 then .number else .illegal), n + more)
    else if c.toLower = 'x' ∧ rest.head? = some '\'' then
      let n := ((rest.drop 1).takeWhile isHexDigit).length
      if n % 2 = 0 ∧ (rest.drop (1 + n)).head? = some '\'' then (some .bytes, n + 3)
      else (some .illegal, min cs.length (3 + ((rest.drop 1).takeWhile (· ≠ '\'')).length))
    else if isLetter c && c != '$' then (some .word, 1 + (rest.takeWhile isLetter).length)
    else if c = '?' then (some .variable, 1 + countDigits rest)
    else if ['$', '@', ':', '#'].contains c then
      let (n, isVariable) := variableLength 0 rest
      (some (if isVariable then .variable else .illegal), n + 1)
    else
      match signs.find? fun s => s.toList.isPrefixOf cs with
      | some s => (some .sign, s.length)
      | none => (some .illegal, 1)

def listFrom (cs : List Char) : Nat → List Token
  | 0 => []
  | fuel + 1 =>
    match front cs with
    | (_, 0) => []
    | (none, n) => listFrom (cs.drop n) fuel
    | (some kind, n) => ⟨kind, (cs.take n).map Char.toUInt8⟩ :: listFrom (cs.drop n) fuel

def list (bytes : List UInt8) : List Token :=
  listFrom (bytes.map fun b => .ofNat b.toNat) bytes.length

def unquoted (bytes : List UInt8) : List UInt8 :=
  match bytes with
  | 0x5b :: rest => rest.dropLast
  | mark :: rest => if [0x22, 0x27, 0x60].contains mark then once mark rest.dropLast else bytes
  | [] => []
where
  once (mark : UInt8) : List UInt8 → List UInt8
    | [] => []
    | [c] => [c]
    | c :: d :: rest => if c = mark then c :: once mark rest else c :: once mark (d :: rest)

def mark? (token : Token) : Option Char :=
  if token.kind = .name then token.bytes.head?.map fun b => .ofNat b.toNat else none

def value (token : Token) : String := Text.readable (unquoted token.bytes)

def reserved : List String :=
  ["add", "all", "alter", "and", "as", "autoincrement", "between", "case", "check", "collate",
    "commit", "constraint", "create", "default", "deferrable", "delete", "distinct", "drop", "else",
    "escape", "except", "exists", "foreign", "from", "group", "having", "in", "index", "insert",
    "intersect", "into", "is", "isnull", "join", "limit", "not", "nothing", "notnull", "null", "on",
    "or", "order", "primary", "references", "returning", "select", "set", "table", "then", "to",
    "transaction", "union", "unique", "update", "using", "values", "when", "where"]

def isWord (word : String) (token : Token) : Bool :=
  token.kind = .word && token.raw.toLower = word

def isSign (sign : String) (token : Token) : Bool := token.kind = .sign && token.raw = sign

def isName (token : Token) : Bool :=
  token.kind = .name || token.kind = .text
    || token.kind = .word && !reserved.contains token.raw.toLower

def joins : List String := ["cross", "full", "inner", "left", "natural", "outer", "right"]

def isPlainName (token : Token) : Bool :=
  token.isName && !(token.kind = .word && ("indexed" :: joins).contains token.raw.toLower)

end Token

end LayeredPreferences.Database

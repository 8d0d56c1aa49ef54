import LayeredPreferences.Database.Encoding

set_option autoImplicit false

/-!
# Escapes in documents

A reversed stroke and what follows it stand for one character. The end of a line after
such a stroke stands for nothing.
-/
namespace LayeredPreferences.Database.Document

/-- What is no character; it is left out of texts. -/
abbrev noCharacter : Nat := 0x99999

def isHexDigit (b : UInt8) : Bool :=
  (0x30 ≤ b && b ≤ 0x39) || (0x41 ≤ b && b ≤ 0x46) || (0x61 ≤ b && b ≤ 0x66)

def isDigit (b : UInt8) : Bool := 0x30 ≤ b && b ≤ 0x39

def startsHex (count : Nat) (bytes : List UInt8) : Bool :=
  (bytes.take count).length = count && (bytes.take count).all isHexDigit

/-- The value of a digit, and something of what is none. -/
def hexValue (b : UInt8) : Nat := (b.toNat + 9 * (b.toNat / 64 % 2)) % 16

def hexNumber (digits : List UInt8) : Nat := digits.foldl (fun n b => 16 * n + hexValue b) 0

def startsLine (bytes : List UInt8) : Bool :=
  [0xe2, 0x80, 0xa8].isPrefixOf bytes || [0xe2, 0x80, 0xa9].isPrefixOf bytes

def lineEnd : List UInt8 → Nat
  | 0x0d :: 0x0a :: _ => 2
  | 0x0d :: _ | 0x0a :: _ => 1
  | bytes => if startsLine bytes then 3 else 0

def skipped (bytes : List UInt8) : Nat → Nat
  | 0 => 0
  | fuel + 1 =>
    match bytes with
    | 0x5c :: rest =>
      let n := lineEnd rest
      if n = 0 then 0 else n + 1 + skipped (rest.drop n) fuel
    | _ => 0

def character : List UInt8 → Nat × Nat
  | [] => (0, 0)
  | b :: rest =>
    let more := if b < 0xc0 then [] else (rest.takeWhile Encoding.continues).take 3
    ((more.foldl (fun n b => 0x40 * n + b.toNat % 0x40)
      (if b < 0xc0 then b.toNat else Encoding.leadValue b)), more.length + 1)

def shortEscapes : List (Char × Nat) :=
  [('b', 8), ('f', 12), ('n', 10), ('r', 13), ('t', 9), ('v', 11), ('0', 0), ('\'', 39), ('"', 34),
    ('/', 47), ('\\', 92)]

def unicode (bytes : List UInt8) : Nat × Nat :=
  let high := hexNumber (bytes.take 4)
  let low := hexNumber ((bytes.drop 6).take 4)
  if high / 0x400 = 0x36 ∧ 10 ≤ bytes.length ∧ (bytes.drop 4).take 2 = [0x5c, 0x75]
      ∧ low / 0x400 = 0x37 then
    (high % 0x400 * 0x400 + low % 0x400 + 0x10000, 12)
  else (high, 6)

def unescaped (bytes : List UInt8) : Nat → Nat × Nat
  | 0 => (noCharacter, bytes.length)
  | fuel + 1 =>
    let all := bytes.length
    match bytes with
    | _ :: letter :: rest =>
      match shortEscapes.lookup (Char.ofNat letter.toNat) with
      | some n => (n, 2)
      | none =>
        if letter = 0x75 then if all < 6 then (noCharacter, all) else unicode rest
        else if letter = 0x78 then
          if all < 4 then (noCharacter, all) else (hexNumber (rest.take 2), 4)
        else if letter = 0xe2 ∨ letter = 0x0d ∨ letter = 0x0a then
          let skip := skipped bytes all
          let next := bytes.drop skip
          if skip = 0 then (noCharacter, all)
          else if skip = all then (0, all)
          else
            let (n, width) := if next.head? = some 0x5c then unescaped next fuel else character next
            (n, skip + width)
        else (noCharacter, 2)
    | _ => (noCharacter, all)

def next (isLiteral : Bool) (bytes : List UInt8) : Nat × Nat :=
  if !isLiteral && bytes.head? = some 0x5c then unescaped bytes bytes.length else character bytes

def plainText (bytes : List UInt8) : Nat → List UInt8
  | 0 => []
  | fuel + 1 =>
    match bytes with
    | [] => []
    | b :: rest =>
      if b = 0x5c then
        let (n, width) := unescaped bytes bytes.length
        (if n = noCharacter then [] else Encoding.utf8Bytes n) ++ plainText (bytes.drop width) fuel
      else b :: plainText rest fuel

def sameEscaped (isLiteral isOtherLiteral : Bool) (a b : List UInt8) : Nat → Bool
  | 0 => true
  | fuel + 1 =>
    let (m, width) := next isLiteral a
    let (n, otherWidth) := next isOtherLiteral b
    m = n && (m = 0
      || sameEscaped isLiteral isOtherLiteral (a.drop width) (b.drop otherWidth) fuel)

/-- Names without escapes are compared byte by byte. -/
def sameLabel (isLiteral isOtherLiteral : Bool) (a b : List UInt8) : Bool :=
  if isLiteral && isOtherLiteral then a = b
  else sameEscaped isLiteral isOtherLiteral a b (a.length + 1)

end LayeredPreferences.Database.Document

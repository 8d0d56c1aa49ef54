import LayeredPreferences.Database.Encoding

set_option autoImplicit false

/-!
# Characters of texts

Parts of texts in UTF-8, and texts made of others. A character is a byte with those
that go on with it, whether they are well formed or not.
-/
namespace LayeredPreferences.Database.Characters

open Encoding

def ended (bytes : List UInt8) : List UInt8 := bytes.takeWhile (· ≠ 0)

/-- Part of a list: places are counted from one, below zero from the end. A count below zero is of
    those before the place. -/
def slice {α : Type} (list : List α) (start : Int) (count : Option Int) (most : Nat) : List α :=
  let size : Int := match count with
    | some n => n.natAbs
    | none => most
  let (first, size) :=
    if start < 0 then
      let first := start + list.length
      if first < 0 then (0, max 0 (size + first)) else (first, size)
    else if 0 < start then (start - 1, size)
    else (0, max 0 (size - 1))
  let (first, size) :=
    if count.any (· < 0) then
      if first < size then (0, first) else (first - size, size)
    else (first, size)
  (list.drop first.toNat).take size.toNat

/-! ## Parts -/

def afterParts (set : List (List UInt8)) (bytes : List UInt8) : Nat → List UInt8
  | 0 => bytes
  | fuel + 1 =>
    if bytes.isEmpty then []
    else match set.find? (·.isPrefixOf bytes) with
      | some part => afterParts set (bytes.drop part.length) fuel
      | none => bytes

def trimmed (set : List (List UInt8)) (atStart atEnd : Bool) (bytes : List UInt8) : List UInt8 :=
  let bytes := if atStart then afterParts set bytes bytes.length else bytes
  if atEnd then (afterParts (set.map List.reverse) bytes.reverse bytes.length).reverse else bytes

def replaced (old new : List UInt8) (fuel : Nat) (bytes : List UInt8) : List UInt8 :=
  match fuel, bytes with
  | 0, bytes => bytes
  | _, [] => []
  | fuel + 1, b :: rest =>
    if old.isPrefixOf (b :: rest) then new ++ replaced old new fuel ((b :: rest).drop old.length)
    else b :: replaced old new fuel rest

def place (isText : Bool) (part : List UInt8) (bytes : List UInt8) : Nat :=
  go 1 bytes bytes.length
where
  go (n : Nat) (bytes : List UInt8) : Nat → Nat
    | 0 => if part.isPrefixOf bytes then n else 0
    | fuel + 1 =>
      if part.isPrefixOf bytes then n
      else if bytes.length ≤ part.length then 0
      else
        let rest := bytes.drop 1
        go (n + 1) (if isText then rest.dropWhile continues else rest) fuel

/-- Texts one after another with another between; empty ones are left out. -/
def joined (between : List UInt8) (texts : List (List UInt8)) : List UInt8 :=
  ((texts.filter (!·.isEmpty)).intersperse between).flatten

/-! ## Digits -/

def hexDigit (n : UInt8) : UInt8 := if n < 10 then 0x30 + n else 0x37 + n

def hex (bytes : List UInt8) : List UInt8 :=
  bytes.flatMap fun b => [hexDigit (b / 16), hexDigit (b % 16)]

def hexValue? (b : UInt8) : Option UInt8 :=
  if 0x30 ≤ b ∧ b ≤ 0x39 then some (b - 0x30)
  else if 0x41 ≤ b ∧ b ≤ 0x46 then some (b - 0x37)
  else if 0x61 ≤ b ∧ b ≤ 0x66 then some (b - 0x57)
  else none

def unhex? (set : List Nat) (bytes : List UInt8) : Option (List UInt8) :=
  go (characters bytes)
where
  go : List (List UInt8) → Option (List UInt8)
    | [] => some []
    | c :: rest =>
      match (match c with | [b] => hexValue? b | _ => none) with
      | none => if set.contains (point c) then go rest else none
      | some high =>
        match rest with
        | (d :: more) :: rest =>
          match hexValue? d with
          | some low => if more.isEmpty then (go rest).map ((16 * high + low) :: ·) else none
          | none => none
        | _ => none

/-! ## Sounds -/

/-- Letters that sound alike have one digit; vowels have none. -/
def sound (b : UInt8) : Nat :=
  ([("bfpv", 1), ("cgjkqsxz", 2), ("dt", 3), ("l", 4), ("mn", 5), ("r", 6)].find? fun group =>
    group.1.toUTF8.toList.contains (b % 0x80 ||| 0x20)
      && 0x40 ≤ b % 0x80).elim 0 Prod.snd

def isLetter (b : UInt8) : Bool := (0x41 ≤ b && b ≤ 0x5a) || (0x61 ≤ b && b ≤ 0x7a)

def sounds (before : Nat) : List UInt8 → List Nat
  | [] => []
  | b :: rest =>
    let n := sound b
    if n = 0 ∨ n = before then sounds n rest else n :: sounds n rest

def soundex (bytes : List UInt8) : List UInt8 :=
  match (ended bytes).dropWhile (!isLetter ·) with
  | [] => "?000".toUTF8.toList
  | b :: rest =>
    let digits := (sounds (sound b) rest).take 3
    (if 0x61 ≤ b then b - 0x20 else b) :: digits.map (fun n => 0x30 + .ofNat n)
      ++ List.replicate (3 - digits.length) 0x30

/-! ## Quotations -/

def doubled (mark : UInt8) (bytes : List UInt8) : List UInt8 :=
  bytes.flatMap fun b => if b = mark then [b, b] else [b]

end LayeredPreferences.Database.Characters

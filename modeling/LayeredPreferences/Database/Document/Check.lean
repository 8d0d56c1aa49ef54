import LayeredPreferences.Database.Document.Element
import LayeredPreferences.Database.Document.Escape

set_option autoImplicit false

/-!
# Checking documents

Whether each element of a document is what its kind says. The first place where it is
not is told, counted from one.
-/
namespace LayeredPreferences.Database.Document

def firstUnlike? (isSuch : UInt8 → Bool) (place : Nat) (bytes : List UInt8) : Option Nat :=
  (bytes.findIdx? (!isSuch ·)).map fun i => place + i + 1

def checkWhole (start place : Nat) (bytes : List UInt8) : Option Nat :=
  let sign := if bytes.head? = some 0x2d then 1 else 0
  if bytes.length ≤ sign then some (start + 1)
  else firstUnlike? isDigit (place + sign) (bytes.drop sign)

def checkWideWhole (start place : Nat) (bytes : List UInt8) : Option Nat :=
  let sign := if bytes.head? = some 0x2d then 1 else 0
  if bytes.length < 3 + sign ∨ bytes[sign]? ≠ some 0x30 then some (start + 1)
  else if bytes[sign + 1]? ≠ some 0x78 ∧ bytes[sign + 1]? ≠ some 0x58 then some (place + sign + 2)
  else firstUnlike? isHexDigit (place + sign + 2) (bytes.drop (sign + 2))

inductive RealPart where
  | whole
  | fraction
  | exponent
deriving DecidableEq

def checkReal (isWide : Bool) (start place : Nat) (part : RealPart) : List UInt8 → Nat → Option Nat
  | [], _ => if part = .whole then some (start + 1) else none
  | _, 0 => none
  | b :: rest, fuel + 1 =>
    let here := some (place + 1)
    if isDigit b then checkReal isWide start (place + 1) part rest fuel
    else if b = 0x2e then
      if part ≠ .whole then here
      else if !isWide && !rest.head?.any isDigit then here
      else checkReal isWide start (place + 1) .fraction rest fuel
    else if b = 0x65 ∨ b = 0x45 then
      if part = .exponent then here
      else
        match rest with
        | [] => here
        | c :: more =>
          if c = 0x2b ∨ c = 0x2d then
            if more.isEmpty then some (place + 2)
            else checkReal isWide start (place + 2) .exponent more fuel
          else checkReal isWide start (place + 1) .exponent rest fuel
    else here

def checkNumber (isWide : Bool) (start place : Nat) (bytes : List UInt8) : Option Nat :=
  let sign := if bytes.head? = some 0x2d then 1 else 0
  let digits := bytes.drop sign
  let place := place + sign
  let go (part : RealPart) (n : Nat) : Option Nat :=
    checkReal isWide start (place + n) part (digits.drop n) digits.length
  if bytes.length < 2 + sign then some (start + 1)
  else if digits.head? = some 0x2e then
    if !isWide || !(digits[1]?).any isDigit then some (place + 1) else go .fraction 2
  else if digits.head? = some 0x30 ∧ !isWide then
    let isPart := (digits[1]?).any fun b => b = 0x2e || b = 0x65 || b = 0x45
    if digits.length < 3 ∨ !isPart then some (place + 1) else go .whole 1
  else go .whole 0

def needsEscape (b : UInt8) : Bool := b < 0x20 || b = 0x22 || b = 0x5c

def checkText (isWide : Bool) (place : Nat) : List UInt8 → Nat → Option Nat
  | [], _ | _, 0 => none
  | b :: rest, fuel + 1 =>
    let here := some (place + 1)
    let go (n : Nat) : Option Nat := checkText isWide (place + n) ((b :: rest).drop n) fuel
    if !needsEscape b then go 1
    else if b ≠ 0x5c then if isWide then go 1 else here
    else match rest with
      | [] => here
      | letter :: more =>
        if letter = 0 ∨ ['"', '\\', '/', 'b', 'f', 'n', 'r', 't'].contains (.ofNat letter.toNat) then
          go 2
        else if letter = 0x75 then if startsHex 4 more then go 2 else here
        else if !isWide then here
        else
          let (c, width) := unescaped (b :: rest) (rest.length + 1)
          if c = noCharacter then here else go width

def flaw? (level start : Nat) (bytes : List UInt8) : Nat → Option Nat
  | 0 => some (start + 1)
  | fuel + 1 =>
    let extent := extent bytes
    let place := start + extent.width
    let inner := (bytes.drop extent.width).take extent.size
    let here := some (start + 1)
    if mostLevels < level then here
    else match kind? bytes with
      | none => here
      | some .null | some .yes | some .no => if extent.total = 1 then none else here
      | some .whole => if extent.size = 0 then here else checkWhole start place inner
      | some .wideWhole => checkWideWhole start place inner
      | some .real => checkNumber false start place inner
      | some .wideReal => checkNumber true start place inner
      | some .plain => firstUnlike? (!needsEscape ·) place inner
      | some .escaped => checkText false place inner inner.length
      | some .wideText => checkText true place inner inner.length
      | some .raw => none
      | some .list => innerFlaw? level false 0 place inner fuel
      | some .object => innerFlaw? level true 0 place inner fuel
where
  /-- The same for elements one after the other. In an object every other one is a label. -/
  innerFlaw? (level : Nat) (isObject : Bool) (index place : Nat) (bytes : List UInt8) :
      Nat → Option Nat
    | 0 => some (place + 1)
    | fuel + 1 =>
      let isLabel := isObject && index % 2 = 0
      if bytes.isEmpty then if isObject && !isLabel then some (place + 1) else none
      else match extent? bytes with
        | none => some (place + 1)
        | some extent =>
          if isLabel && !(kind? bytes).any Kind.isText then some (place + 1)
          else
            flaw? (level + 1) place bytes fuel
              <|> innerFlaw? level isObject (index + 1) (place + extent.total)
                (bytes.drop extent.total) fuel

def flaw (bytes : List UInt8) : Nat := (flaw? 1 0 bytes (2 * bytes.length + 2)).getD 0

end LayeredPreferences.Database.Document

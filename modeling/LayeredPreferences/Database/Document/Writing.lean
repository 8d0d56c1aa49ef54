import LayeredPreferences.Database.Characters
import LayeredPreferences.Database.Document.Element
import LayeredPreferences.Database.Document.Escape

set_option autoImplicit false

/-!
# Texts of documents

An element is written in the usual notation, on one line or on many. There is no text
if the element is not well formed.
-/
namespace LayeredPreferences.Database.Document

def ascii (s : String) : List UInt8 := s.toUTF8.toList

def smallHexDigit (n : Nat) : UInt8 := .ofNat (if n < 10 then 0x30 + n else 0x57 + n)

def control (b : UInt8) : List UInt8 :=
  match [(8, 'b'), (9, 't'), (10, 'n'), (12, 'f'), (13, 'r')].lookup b.toNat with
  | some letter => [0x5c, .ofNat letter.toNat]
  | none => ascii "\\u00" ++ [smallHexDigit (b.toNat / 16), smallHexDigit (b.toNat % 16)]

def quotedText (bytes : List UInt8) : List UInt8 :=
  0x22 :: (bytes.flatMap fun b =>
    if b = 0x22 ∨ b = 0x5c then [0x5c, b] else if b < 0x20 then control b else [b]) ++ [0x22]

/-- A whole number in hexadecimal digits, which is infinite if it is too long. -/
def wideWhole? (bytes : List UInt8) : Option (List UInt8) :=
  let sign := bytes.take 1
  let isNegative := sign = [0x2d]
  let digits := bytes.drop (if isNegative || sign = [0x2b] then 3 else 2)
  let isLong := 16 < (digits.dropWhile (· = 0x30)).length
  if digits.all isHexDigit then
    some ((if isNegative then sign else [])
      ++ ascii (if isLong then "9.0e999" else toString (hexNumber digits)))
  else none

def wideReal (digits : List UInt8) : List UInt8 :=
  let sign := digits.take (if digits.head? = some 0x2d then 1 else 0)
  let digits := digits.drop sign.length
  sign ++ (if digits.head? = some 0x2e then [0x30] else []) ++ filled digits
where
  filled : List UInt8 → List UInt8
    | [] => []
    | b :: rest =>
      if b = 0x2e && !rest.head?.any isDigit then b :: 0x30 :: filled rest else b :: filled rest

def narrowed? (bytes : List UInt8) : Option (List UInt8 × Nat) :=
  match bytes with
  | _ :: letter :: rest =>
    match Char.ofNat letter.toNat with
    | '\'' => some ([0x27], 2)
    | 'v' => some (ascii "\\u0009", 2)
    | '0' => some (ascii "\\u0000", 2)
    | 'x' => if rest.length < 2 then none else some (ascii "\\u00" ++ rest.take 2, 4)
    | _ =>
      let n := lineEnd (letter :: rest)
      if n ≠ 0 then some ([], n + 1)
      else if letter = 0xe2 then none
      else some (bytes.take 2, 2)
  | _ => none

def wideText? (bytes : List UInt8) : Nat → Option (List UInt8)
  | 0 => some []
  | fuel + 1 =>
    match bytes with
    | [] => some []
    | b :: rest =>
      if b = 0x5c then do
        let (text, width) ← narrowed? bytes
        return text ++ (← wideText? (bytes.drop width) fuel)
      else
        let here := if b = 0x22 then [0x5c, b] else if b < 0x20 then control b else [b]
        (wideText? rest fuel).map (here ++ ·)

def single? (kind : Kind) (contents : List UInt8) : Option (List UInt8) :=
  match kind with
  | .null => some (ascii "null")
  | .yes => some (ascii "true")
  | .no => some (ascii "false")
  | .whole | .real => if contents.isEmpty then none else some contents
  | .wideWhole => if contents.isEmpty then none else wideWhole? contents
  | .wideReal => if contents.isEmpty then none else some (wideReal contents)
  | .plain | .escaped => some (0x22 :: contents ++ [0x22])
  | .wideText => (wideText? contents contents.length).map fun text => 0x22 :: text ++ [0x22]
  | .raw => some (quotedText contents)
  | .list | .object => none

/-- How many bytes are taken by an element that is written. What has no contents takes one. -/
def taken (kind : Kind) (extent : Extent) : Nat :=
  match kind with
  | .null | .yes | .no => 1
  | _ => extent.total

def paired? : List (List UInt8) → Option (List (List UInt8))
  | [] => some []
  | [_] => none
  | label :: text :: rest => (paired? rest).map ((label ++ 0x3a :: text) :: ·)

mutual

def text? (bytes : List UInt8) : Nat → Option (List UInt8 × Nat)
  | 0 => none
  | fuel + 1 => do
    let kind ← kind? bytes
    let extent ← extent? bytes
    let inner := bytes.drop extent.width
    let text ← match kind with
      | .list =>
        let items ← texts? extent.size inner fuel
        pure (0x5b :: (items.intersperse [0x2c]).flatten ++ [0x5d])
      | .object =>
        let items ← texts? extent.size inner fuel
        let pairs ← paired? items
        pure (0x7b :: (pairs.intersperse [0x2c]).flatten ++ [0x7d])
      | kind => single? kind (inner.take extent.size)
    return (text, taken kind extent)

def texts? (room : Nat) (bytes : List UInt8) : Nat → Option (List (List UInt8))
  | 0 => none
  | fuel + 1 =>
    if room = 0 then some []
    else do
      let (text, taken) ← text? bytes fuel
      if room < taken then none
      else return text :: (← texts? (room - taken) (bytes.drop taken) fuel)

end

def write? (bytes : List UInt8) : Option (List UInt8) :=
  (text? bytes (2 * bytes.length + 2)).map Prod.fst

/-! ## On many lines -/

mutual

def lines? (indent : List UInt8) (level : Nat) (bytes : List UInt8) :
    Nat → Option (List UInt8 × Nat)
  | 0 => none
  | fuel + 1 => do
    let kind ← kind? bytes
    let extent ← extent? bytes
    let isObject := kind = .object
    if isObject || kind = .list then
      let start : UInt8 := if isObject then 0x7b else 0x5b
      let finish : UInt8 := if isObject then 0x7d else 0x5d
      if extent.size = 0 then return ([start, finish], extent.width)
      let inner ← innerLines? indent (level + 1) isObject extent.size (bytes.drop extent.width) fuel
      let margin := (List.replicate level indent).flatten
      return (start :: 0x0a :: inner ++ 0x0a :: margin ++ [finish], extent.total)
    else text? bytes fuel

def innerLines? (indent : List UInt8) (level : Nat) (isObject : Bool) (room : Nat)
    (bytes : List UInt8) : Nat → Option (List UInt8)
  | 0 => none
  | fuel + 1 => do
    let margin := (List.replicate level indent).flatten
    let (label, labelTaken) ←
      if isObject then do
        let (label, taken) ← text? bytes fuel
        if room < taken then none else pure (label ++ [0x3a, 0x20], taken)
      else pure ([], 0)
    let (text, taken) ← lines? indent level (bytes.drop labelTaken) fuel
    let all := labelTaken + taken
    let here := margin ++ label ++ text
    if room ≤ all then return here
    return here ++ 0x2c :: 0x0a
      :: (← innerLines? indent level isObject (room - all) (bytes.drop all) fuel)

end

def writeLines? (indent bytes : List UInt8) : Option (List UInt8) :=
  (lines? indent 0 bytes (2 * bytes.length + 2)).map Prod.fst

end LayeredPreferences.Database.Document

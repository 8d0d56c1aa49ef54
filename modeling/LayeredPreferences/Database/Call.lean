import LayeredPreferences.Database.Document.Calls
import LayeredPreferences.Database.Function
import LayeredPreferences.Database.Likeness
import LayeredPreferences.Database.Moment.Writing
import LayeredPreferences.Database.Pattern

set_option autoImplicit false

/-!
# Calls of functions

What functions give for their contents. Most of them give nothing for nothing.
-/
namespace LayeredPreferences.Database.Function

open Characters

/-! ## Numbers -/

def absolute (encoding : Encoding) (cell : Cell) : Except FunctionFault Cell :=
  match cell with
  | .null => .ok .null
  | .integer n => if n = Cell.least then .error .overflow else .ok (.integer n.natAbs)
  | cell => .ok (.real (cell.asReal encoding).magnitude)

def sign (encoding : Encoding) (cell : Cell) : Cell :=
  let ofUnits (cell : Cell) : Cell := .integer cell.signedUnits.sign
  match cell with
  | .integer _ | .real _ => ofUnits cell
  | .text bytes =>
    match Cell.numberOfText (encoding.decode bytes) with
    | (number, true) => ofUnits number
    | _ => .null
  | _ => .null

/-- Halves go away from zero. Numbers beyond `2 ^ 52` have no places to round. -/
def round (encoding : Encoding) (cell : Cell) (places : Option Cell) : Cell :=
  let x := cell.asReal encoding
  let places := (places.elim 0 fun cell => max 0 (min 30 (cell.count encoding))).toNat
  let isNegative : Bool := x.signedUnits < 0
  if cell = .null then .null
  else if Nat.pow 2 52 * Binary64.unitsOfOne < x.signedUnits.natAbs then .real x
  else if places = 0 then
    let half := (Cell.realOfInt (if isNegative then -1 else 1)).quotient (Cell.realOfInt 2)
    .real (Cell.realOfInt (Cell.wholeOfReal (x.sum half)))
  else
    let form : RealForm := ⟨.fixed, places, false, true, false, false⟩
    .real (Cell.numberOfText (realText form [] x).toUTF8.toList).1.realOf

/-! ## Texts -/

def ascii (s : String) : Cell := .text s.toUTF8.toList

def ofCount (n : Nat) : Cell := .integer n

def length (encoding : Encoding) (cell : Cell) : Cell :=
  match cell with
  | .null => .null
  | .blob bytes => ofCount bytes.length
  | .zeros count => ofCount count
  | cell => ofCount (Encoding.characters (ended ((cell.text? encoding).getD []))).length

def octetLength (encoding : Encoding) (cell : Cell) : Cell :=
  match cell with
  | .null => .null
  | .zeros count => ofCount count
  | cell => ofCount ((cell.kept? encoding).getD []).length

def hexText (cell : Cell) : Except FunctionFault Cell :=
  match cell with
  | .null => .ok (.text [])
  | .text bytes | .blob bytes => .ok (.text (hex bytes))
  | .zeros count =>
    if longest < 2 * count + 1 then .error .tooBig else .ok (.text (hex (List.replicate count 0)))
  | cell => .ok (.text (hex (cell.numeral?.getD [])))

def substring (encoding : Encoding) (cell start : Cell) (count : Option Cell) : Cell :=
  let first := start.count encoding
  let size := count.map (Cell.count encoding)
  if start = .null ∨ count = some .null then .null
  else match cell, cell.text? encoding with
    | .blob bytes, _ =>
      if bytes.isEmpty then .null else .blob (slice bytes first size longest)
    | .zeros n, _ =>
      if n = 0 then .null else .zeros (slice (List.replicate n ()) first size longest).length
    | _, some text =>
      .text (slice (Encoding.characters (ended text)) first size longest).flatten
    | _, none => .null

def trim (atStart atEnd : Bool) (text set : List UInt8) : Cell :=
  .text (trimmed (Encoding.characters (ended set)) atStart atEnd text)

/-- Nothing is put in where an empty text would be taken out. -/
def replace (text old : List UInt8) (new : Option (List UInt8)) : Cell :=
  if old.headD 0 = 0 then .text text
  else match new with
    | some new => .text (replaced old new text.length text)
    | none => .null

/-- Bytes are looked for among bytes, and all else as texts. Bytes without a text are found after the
    end. -/
def placeOf (encoding : Encoding) (cell part : Cell) : Cell :=
  let bytes? : Cell → Option (List UInt8)
    | .blob bytes => some bytes
    | .zeros count => some (List.replicate count 0)
    | _ => none
  match bytes? cell, bytes? part, cell.text? encoding, part.text? encoding with
  | some bytes, some part, _, _ => ofCount (place false part bytes)
  | _, bytes, some text, some part =>
    if part.isEmpty ∧ bytes.any (!·.isEmpty) then
      ofCount ((Encoding.characters (ended text)).length + 1)
    else ofCount (place true part text)
  | _, _, _, _ => .null

abbrev longestPattern : Nat := 50000

def like (encoding : Encoding) (pattern cell : Cell) (signs : LikenessSigns) :
    Except FunctionFault Cell :=
  match pattern.text? encoding, cell.text? encoding with
  | some pattern, some text =>
    if longestPattern < pattern.length then .error .longPattern
    else
      let points (bytes : List UInt8) : List Nat := Encoding.points (ended bytes)
      .ok (.ofBool (signs.isLike (points pattern) (points text)))
  | pattern, _ =>
    if pattern.any (longestPattern < ·.length) then .error .longPattern else .ok .null

def likeEscaped (encoding : Encoding) (pattern cell escape : Cell) : Except FunctionFault Cell :=
  if (pattern.text? encoding).any (longestPattern < ·.length) then .error .longPattern
  else match (escape.text? encoding).map fun bytes => Encoding.points (ended bytes) with
    | none => .ok .null
    | some [sign] => like encoding pattern cell (wordSigns (some sign))
    | some _ => .error .longEscape

def firstPoint (text : List UInt8) : Cell :=
  match Encoding.points (ended text) with
  | n :: _ => .integer (Bytes.signed 32 n)
  | [] => .null

def ofPoints (encoding : Encoding) (cells : List Cell) : Cell :=
  .text (cells.flatMap fun cell =>
    let n := cell.whole encoding
    Encoding.utf8Bytes (if n < 0 ∨ 0x10ffff < n then 0xfffd else n.toNat))

def unhexText (text : List UInt8) (set : List UInt8) : Cell :=
  ((unhex? (Encoding.points set) (ended text)).map Cell.blob).getD .null

def quote (encoding : Encoding) (cell : Cell) : Cell :=
  match cell with
  | .null => ascii "NULL"
  | .integer n => ascii (toString n)
  | .real x =>
    let short := (realText realForm "9.0e+999".toList x).toUTF8.toList
    if (Cell.numberOfText short).1.signedUnits = x.signedUnits then .text short
    else ascii (realText exactForm [] x)
  | .text bytes => .text (0x27 :: doubled 0x27 (ended (encoding.decode bytes)) ++ [0x27])
  | cell => .text (0x58 :: 0x27 :: hex ((cell.kept? encoding).getD []) ++ [0x27])

def zeroBlob (encoding : Encoding) (cell : Cell) : Except FunctionFault Cell :=
  let count := (cell.whole encoding).toNat
  if longest < count then .error .tooBig else .ok (.zeros count)

def part? (encoding : Encoding) (cell : Cell) : Option (List UInt8) :=
  let fitted (count : Nat) (text : List UInt8) : List UInt8 :=
    text.take count ++ List.replicate (count - text.length) 0
  (cell.text? encoding).map fun text =>
    match cell with
    | .blob bytes => fitted bytes.length text
    | .zeros count => fitted count text
    | _ => text

def parts (encoding : Encoding) (cells : List Cell) : List (List UInt8) :=
  cells.map fun cell => (part? encoding cell).getD []

/-! ## Choices -/

/-- Of equal contents the least is the last one, and the greatest the first. -/
def extreme (isGreatest : Bool) (encoding : Encoding) (collation : String) :
    List Content → Content
  | [] => .null
  | first :: rest =>
    if (first :: rest).any (·.cell = .null) then .null
    else rest.foldl (fun best next =>
      let order := best.cell.order encoding collation next.cell
      if (if isGreatest then order = .lt else order ≠ .lt) then next else best) first

def unlessEqual (encoding : Encoding) (collation : String) (a b : Content) : Content :=
  if a.cell.order encoding collation b.cell = .eq then .null else a

/-! ## Names -/

def ofText? (name : String) (text : List UInt8) : Option Cell :=
  match name with
  | "lower" => some (.text (text.map Collation.lower))
  | "upper" => some (.text (text.map Collation.upper))
  | "trim" => some (trim true true text [0x20])
  | "ltrim" => some (trim true false text [0x20])
  | "rtrim" => some (trim false true text [0x20])
  | "unicode" => some (firstPoint text)
  | "unhex" => some (unhexText text [])
  | _ => none

def ofTexts? (name : String) (text other : List UInt8) : Option Cell :=
  match name with
  | "trim" => some (trim true true text other)
  | "ltrim" => some (trim true false text other)
  | "rtrim" => some (trim false true text other)
  | "unhex" => some (unhexText text other)
  | _ => none

def ofSomething? (encoding : Encoding) (name : String) (cells : List Cell) : Option Cell :=
  match cells.mapM (Cell.text? encoding) with
  | some [text] => ofText? name text
  | some [text, other] => ofTexts? name text other
  | _ => none

def ofCells (encoding : Encoding) (name : String) (cells : List Cell) :
    Except FunctionFault Cell :=
  match name, cells with
  | "abs", [cell] => absolute encoding cell
  | "sign", [cell] => .ok (sign encoding cell)
  | "round", [cell] => .ok (round encoding cell none)
  | "round", [cell, places] =>
    .ok (if places = .null then .null else round encoding cell (some places))
  | "length", [cell] => .ok (length encoding cell)
  | "octet_length", [cell] => .ok (octetLength encoding cell)
  | "hex", [cell] => hexText cell
  | "substr", [cell, start] | "substring", [cell, start] =>
    .ok (substring encoding cell start none)
  | "substr", [cell, start, count] | "substring", [cell, start, count] =>
    .ok (substring encoding cell start (some count))
  | "replace", [cell, old, new] =>
    match cell.text? encoding, old.text? encoding with
    | some text, some old => .ok (replace text old (new.text? encoding))
    | _, _ => .ok .null
  | "instr", [cell, part] => .ok (placeOf encoding cell part)
  | "like", [pattern, cell] => like encoding pattern cell (wordSigns none)
  | "like", [pattern, cell, escape] => likeEscaped encoding pattern cell escape
  | "glob", [pattern, cell] => like encoding pattern cell fileSigns
  | "char", cells => .ok (ofPoints encoding cells)
  | "quote", [cell] => .ok (quote encoding cell)
  | "zeroblob", [cell] => zeroBlob encoding cell
  | "concat", cells => .ok (.text (joined [] (parts encoding cells)))
  | "concat_ws", between :: cells =>
    .ok (((part? encoding between).map fun between =>
      Cell.text (joined between (parts encoding cells))).getD .null)
  | "soundex", [cell] => .ok (.text (soundex ((cell.text? encoding).getD [])))
  | "typeof", [cell] => .ok (ascii cell.typeName)
  | "fts5_source_id", _ =>
    .ok (ascii ("fts5: 2024-05-23 13:25:27 "
      ++ "96c92aba00c8375bc32fafcdf12429c58bd8aabfcadab6683e35bbb9cdebf19e"))
  | "printf", pattern :: cells | "format", pattern :: cells =>
    .ok (patterned encoding pattern cells)
  | _, cells => .ok ((ofSomething? encoding name cells).getD .null)

/-- What a function gives. Contents that are only chosen are handed on as they are. -/
def called (encoding : Encoding) (collation name : String) (contents : List Content) :
    Except FunctionFault Content :=
  let made (content : Content) : Content :=
    { content with cell := content.cell.encoded encoding }
  let cells := contents.map Content.cell
  match name, contents with
  | "min", contents => .ok (extreme false encoding collation contents)
  | "max", contents => .ok (extreme true encoding collation contents)
  | "nullif", [a, b] => .ok (unlessEqual encoding collation a b)
  | "subtype", [content] => .ok (.ofCell (.integer (if content.isDocument then 74 else 0)))
  | name, contents =>
    match Document.called? encoding name contents with
    | some found => found.map made
    | none => do
      match ← Moment.called? encoding name cells with
      | some cell => return made (.ofCell cell)
      | none => return made (.ofCell (← ofCells encoding name cells))

end LayeredPreferences.Database.Function

import LayeredPreferences.Database.Document.Cells
import LayeredPreferences.Database.Document.Check
import LayeredPreferences.Database.Document.Merge

set_option autoImplicit false

/-!
# Functions of documents

Functions that make documents, change them and tell of them. Most of them have a form
that gives bytes instead of a text. The texts that are given are in UTF-8.
-/
namespace LayeredPreferences.Database.Document

/-! ## Results -/

def made (text : List UInt8) : Content := ⟨.text text, true⟩

def textResult (bytes : List UInt8) : Except FunctionFault Content :=
  match write? bytes with
  | some text => .ok (made text)
  | none => .error .badDocument

def result (isBinary : Bool) (bytes : List UInt8) : Except FunctionFault Content :=
  if isBinary then .ok (.ofCell (.blob bytes)) else textResult bytes

def composed (isBinary : Bool) (text : List UInt8) : Content :=
  if isBinary then
    match ofText text with
    | .ok (bytes, _) => ⟨.blob bytes, true⟩
    | .error _ => ⟨.blob [], true⟩
  else made text

def withDocument (encoding : Encoding) (contents : List Content)
    (next : List UInt8 → List Content → Except FunctionFault Content) :
    Except FunctionFault Content :=
  match contents with
  | [] => .ok .null
  | first :: rest => do
    match ← ofCell? encoding first.cell with
    | some (document, _) => next document rest
    | none => return .null

/-! ## Paths -/

def pathOf? (encoding : Encoding) (content : Content) : Option (List UInt8) :=
  (content.cell.text? encoding).map Characters.ended

def badPath (path : List UInt8) : FunctionFault :=
  .badPath (Text.readable (0x27 :: Characters.doubled 0x27 path ++ [0x27]))

def fromRoot (path : List UInt8) : Except FunctionFault (List UInt8) :=
  match path with
  | 0x24 :: rest => .ok rest
  | _ => .error (badPath path)

def settled {α : Type} (path : List UInt8) (found : Except PathFault α) :
    Except FunctionFault (Option α) :=
  match found with
  | .ok x => .ok (some x)
  | .error .nowhere => .ok none
  | .error .unreadable => .error (badPath path)
  | .error .damaged => .error .badDocument

def lookUp (document path : List UInt8) : Except FunctionFault (Option (List UInt8)) := do
  settled path (find? document (← fromRoot path))

def isWordSign (b : UInt8) : Bool := isAlphanumeric b || b = 0x5f

/-- A path can be a label or a place alone. -/
def unabbreviated (content : Content) (path : List UInt8) : List UInt8 :=
  match path, content.cell with
  | 0x24 :: rest, _ => rest
  | _, .integer _ => 0x5b :: path ++ [0x5d]
  | _, _ =>
    if path.all isWordSign then 0x2e :: path
    else if path.head? = some 0x5b ∧ 3 ≤ path.length ∧ path.getLast? = some 0x5d then path
    else 0x2e :: 0x22 :: path ++ [0x22]

/-! ## Parts of documents -/

def part (encoding : Encoding) (isDocument : Bool) (contents : List Content) :
    Except FunctionFault Content :=
  withDocument encoding contents fun document rest => do
    match rest.head?, rest.head?.bind (pathOf? encoding) with
    | some content, some path =>
      match ← settled path (find? document (unabbreviated content path)) with
      | none => return .null
      | some bytes =>
        if isDocument then textResult bytes
        else match cell? false bytes with
          | some cell => return .ofCell cell
          | none => throw .badDocument
    | _, _ => return .null

/-- What some paths lead to, in a list; none if one of the paths is nothing. -/
def parts (encoding : Encoding) (document : List UInt8) (paths : List Content) :
    Except FunctionFault (Option (List (Option (List UInt8)))) :=
  paths.foldlM (fun known content =>
    match known, pathOf? encoding content with
    | some known, some path => do
      let text := match ← lookUp document path with
        | some bytes => write? bytes
        | none => some (ascii "null")
      return some (known ++ [text])
    | _, _ => return none) (some [])

def extract (encoding : Encoding) (isBinary : Bool) (contents : List Content) :
    Except FunctionFault Content :=
  if contents.length < 2 then .ok .null
  else withDocument encoding contents fun document paths => do
    match paths with
    | [content] =>
      match pathOf? encoding content with
      | none => return .null
      | some path =>
        match ← lookUp document path with
        | none => return .null
        | some bytes =>
          let isWhole := kind? bytes = some .list || kind? bytes = some .object
          match cell? isBinary bytes with
          | some cell => return ⟨cell, isWhole && !isBinary⟩
          | none => throw .badDocument
    | paths =>
      match ← parts encoding document paths with
      | none => return .null
      | some texts =>
        if texts.any Option.isNone then throw .badDocument
        let text := 0x5b :: ((texts.filterMap id).intersperse [0x2c]).flatten ++ [0x5d]
        let list := composed isBinary text
        return { list with isDocument := !isBinary }

/-! ## Changed documents -/

/-- Nothing is left if the document itself is removed. -/
def remove (encoding : Encoding) (isBinary : Bool) (contents : List Content) :
    Except FunctionFault Content :=
  withDocument encoding contents fun document paths => do
    let left ← paths.foldlM (fun (known : Option (List UInt8)) content => do
      match known, pathOf? encoding content with
      | some document, some path =>
        let tail ← fromRoot path
        if tail.isEmpty then return none
        return some ((← settled path (edit .remove document tail)).getD document)
      | _, _ => return none) (some document)
    match left with
    | some document => result isBinary document
    | none => return .null

def changed (encoding : Encoding) (edit : List UInt8 → Edit) (document : List UInt8) :
    List Content → Except FunctionFault (List UInt8)
  | path :: new :: rest => do
    match pathOf? encoding path with
    | none => changed encoding edit document rest
    | some path =>
      let tail ← fromRoot path
      let how := edit (← elementOf encoding new)
      let next ← settled path (Document.edit how document tail)
      changed encoding edit (next.getD document) rest
  | _ => .ok document

def change (encoding : Encoding) (isBinary : Bool) (name : String) (edit : List UInt8 → Edit)
    (contents : List Content) : Except FunctionFault Content := do
  if contents.isEmpty then return .null
  if contents.length % 2 = 0 then throw (.evenEdits name)
  withDocument encoding contents fun document rest => do
    result isBinary (← changed encoding edit document rest)

def patch (encoding : Encoding) (isBinary : Bool) (contents : List Content) :
    Except FunctionFault Content :=
  withDocument encoding contents fun target rest =>
    withDocument encoding rest fun patch _ =>
      match merge? target patch with
      | some document => result isBinary document
      | none => .error .badDocument

/-! ## New documents -/

/-- Why contents cannot be put into one text. Lists and objects are not looked into after a fault.
    What is wrong with a document as such counts more than what cannot be in one. -/
def textsFault? (encoding : Encoding) (contents : List Content) : Option ContentFault :=
  contents.foldl (fun known content =>
    match textOf encoding content with
    | .ok _ => known
    | .error .bytes => known <|> some .bytes
    | .error .document =>
      let kind := (bytes? encoding content.cell).bind kind?
      if known.isSome && (kind = some .list || kind = some .object) then known
      else some .document) none

def texts (encoding : Encoding) (contents : List Content) :
    Except FunctionFault (List (List UInt8)) :=
  match textsFault? encoding contents with
  | some .document => .error .badDocument
  | some .bytes => .error .bytesInDocument
  | none => .ok (contents.filterMap fun content => (textOf encoding content).toOption)

def list (encoding : Encoding) (isBinary : Bool) (contents : List Content) :
    Except FunctionFault Content := do
  let items ← texts encoding contents
  return composed isBinary (0x5b :: (items.intersperse [0x2c]).flatten ++ [0x5d])

def labelled {α : Type} : List α → List α × List α
  | label :: value :: rest => ((label :: (labelled rest).1), (value :: (labelled rest).2))
  | _ => ([], [])

def object (encoding : Encoding) (isBinary : Bool) (contents : List Content) :
    Except FunctionFault Content := do
  if contents.length % 2 = 1 then throw (.oddMembers "json_object")
  let (labels, values) := labelled contents
  if labels.any fun label => label.cell.rank ≠ 2 then throw (.nameNotText "json_object")
  let labels := labels.map fun label => quotedText ((label.cell.text? encoding).getD [])
  let values ← texts encoding values
  let members := (labels.zip values).map fun (label, value) => label ++ 0x3a :: value
  return composed isBinary (0x7b :: (members.intersperse [0x2c]).flatten ++ [0x7d])

def quotedContent (encoding : Encoding) (content : Content) : Except FunctionFault Content := do
  return made (← texts encoding [content]).flatten

/-! ## What is told of documents -/

def withElement (encoding : Encoding) (contents : List Content)
    (next : List UInt8 → Content) : Except FunctionFault Content :=
  withDocument encoding contents fun document rest =>
    match rest with
    | [] => .ok (next document)
    | content :: _ => do
      match pathOf? encoding content with
      | none => return .null
      | some path => return ((← lookUp document path).map next).getD .null

def length (bytes : List UInt8) : Content :=
  .ofCell (.integer (if kind? bytes = some .list then count bytes else 0))

def typeOf (bytes : List UInt8) : Content :=
  .ofCell (.text (ascii ((kind? bytes).elim "" Kind.name)))

def errorPlace (encoding : Encoding) (cell : Cell) : Content :=
  match bytes? encoding cell, cell.text? encoding with
  | some bytes, _ => .ofCell (.integer (flaw bytes))
  | none, none => .null
  | none, some text =>
    match ofText (Characters.ended text) with
    | .ok _ => .ofCell (.integer 0)
    | .error place =>
      .ofCell (.integer ((text.take place).countP (!Encoding.continues ·) + 1))

/-- Which forms of documents are asked for is told by the digits of a number: the usual notation and
    the wide one, then bytes that look like a document and those that are one. -/
def isValid (encoding : Encoding) (cell : Cell) (forms : Nat) : Bool :=
  match bytes? encoding cell with
  | some bytes => if forms / 4 % 2 = 1 then true else forms / 8 % 2 = 1 && flaw bytes = 0
  | none =>
    match ofCell? encoding cell with
    | .ok (some (_, isWide)) => forms / 2 % 2 = 1 || forms % 2 = 1 && !isWide
    | _ => false

def validity (encoding : Encoding) (contents : List Content) : Except FunctionFault Content := do
  let forms := (contents[1]?).elim 1 fun content => content.cell.whole encoding
  if forms < 1 ∨ 15 < forms then throw .unknownChecks
  match contents with
  | [] | ⟨.null, _⟩ :: _ => return .null
  | content :: _ => return .ofCell (.ofBool (isValid encoding content.cell forms.toNat))

def pretty (encoding : Encoding) (contents : List Content) : Except FunctionFault Content :=
  withDocument encoding contents fun document rest =>
    let indent := (rest.head?.bind (pathOf? encoding)).getD (List.replicate 4 0x20)
    match writeLines? indent document with
    | some text => .ok (.ofCell (.text text))
    | none => .error .badDocument

/-! ## Names -/

def called? (encoding : Encoding) (name : String) (contents : List Content) :
    Option (Except FunctionFault Content) :=
  match name with
  | "json" => some (remove encoding false contents)
  | "jsonb" => some (remove encoding true contents)
  | "json_array" => some (list encoding false contents)
  | "jsonb_array" => some (list encoding true contents)
  | "json_array_length" => some (withElement encoding contents length)
  | "json_error_position" =>
    some (.ok (contents.head?.elim .null fun content => errorPlace encoding content.cell))
  | "json_extract" => some (extract encoding false contents)
  | "jsonb_extract" => some (extract encoding true contents)
  | "->" => some (part encoding true contents)
  | "->>" => some (part encoding false contents)
  | "json_insert" => some (change encoding false name .insert contents)
  | "jsonb_insert" => some (change encoding true "json_insert" .insert contents)
  | "json_object" => some (object encoding false contents)
  | "jsonb_object" => some (object encoding true contents)
  | "json_patch" => some (patch encoding false contents)
  | "jsonb_patch" => some (patch encoding true contents)
  | "json_pretty" => some (pretty encoding contents)
  | "json_quote" => contents.head?.map (quotedContent encoding)
  | "json_remove" => some (remove encoding false contents)
  | "jsonb_remove" => some (remove encoding true contents)
  | "json_replace" => some (change encoding false name .replace contents)
  | "jsonb_replace" => some (change encoding true "json_replace" .replace contents)
  | "json_set" => some (change encoding false name .put contents)
  | "jsonb_set" => some (change encoding true "json_set" .put contents)
  | "json_type" => some (withElement encoding contents typeOf)
  | "json_valid" => some (validity encoding contents)
  | _ => none

end LayeredPreferences.Database.Document

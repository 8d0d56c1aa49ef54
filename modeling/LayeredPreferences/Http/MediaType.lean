set_option autoImplicit false

/-!
# Media types

Whether a body is said to be JSON: its type is `application`, and its subtype or
the suffix of its subtype is `json`. Parameters may follow, if they are well
formed.
-/
namespace LayeredPreferences.Http

def isTokenChar (c : Char) : Bool :=
  c.isAlphanum || "!#$%&'*+-.^_`|~".toList.contains c

def isQuotedChar (c : Char) : Bool := 0x1f < c.toNat && c.toNat ≠ 0x7f

/-- What follows the closing quotation mark of a quoted value. The character after the opening
    mark is part of the value, whatever it is. -/
def afterQuoted : List Char → Option (List Char)
  | [] => none
  | first :: rest => if isQuotedChar first then go rest else none
where
  go : List Char → Option (List Char)
    | [] => none
    | '"' :: rest => some rest
    | c :: rest => if isQuotedChar c then go rest else none

/-- The parameters of a media type, from after a semicolon on. -/
def parametersOk (source : List Char) : Bool :=
  let start := source.dropWhile (· = ' ')
  let name := start.takeWhile isTokenChar
  match start.dropWhile isTokenChar with
  | [] => start.isEmpty
  | '=' :: '"' :: quoted =>
    match (afterQuoted quoted).map fun rest => rest.dropWhile (· = ' ') with
    | some [] => !name.isEmpty
    | some (';' :: more) =>
      !name.isEmpty && if more.length < source.length then parametersOk more else false
    | _ => false
  | '=' :: value =>
    match value.dropWhile isTokenChar with
    | [] => !name.isEmpty
    | ';' :: more =>
      !name.isEmpty && value.head? != some ';'
        && if more.length < source.length then parametersOk more else false
    | _ => false
  | _ => false
termination_by source.length

/-- A subtype parted at its last plus sign, if one stands after its first character. -/
def splitSuffix (subtype : List Char) : List Char × Option (List Char) :=
  let suffix := (subtype.reverse.takeWhile (· ≠ '+')).reverse
  let base := subtype.take (subtype.length - suffix.length - 1)
  if suffix.length < subtype.length && !base.isEmpty then (base, some suffix) else (subtype, none)

def isJsonType (text : String) : Bool :=
  let source := text.toList.map Char.toLower
  let type := source.takeWhile isTokenChar
  match source.dropWhile isTokenChar with
  | '/' :: rest =>
    let subtype := rest.takeWhile isTokenChar
    let parameters := match rest.dropWhile isTokenChar with
      | [] => true
      | ';' :: more => !subtype.isEmpty && parametersOk more
      | _ => false
    let (base, suffix) := splitSuffix subtype
    let json := ['j', 's', 'o', 'n']
    type = "application".toList && parameters && (base = json || suffix = some json)
  | _ => false

end LayeredPreferences.Http

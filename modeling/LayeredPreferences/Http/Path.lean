import LayeredPreferences.Text.Percent

set_option autoImplicit false

/-!
# Paths

The path of a request's target, and its segments.
-/
namespace LayeredPreferences.Http

/-- What follows the first occurrence of a word. -/
def after? (word : List Char) : List Char → Option (List Char)
  | [] => if word.isEmpty then some [] else none
  | c :: cs =>
    if word.isPrefixOf (c :: cs) then some ((c :: cs).drop word.length) else after? word cs

/-- The path of a target, which may start with a scheme and a host, and end with a query. -/
def pathOf (target : List Char) : List Char :=
  let ends (c : Char) : Bool := c = '?' || c = '#'
  let origin :=
    if target.head? = some '/' then target
    else
      match after? [':', '/', '/'] target with
      | some rest => rest.dropWhile fun c => c != '/' && !ends c
      | none => []
  origin.takeWhile fun c => !ends c

def segments (path : List Char) : List (List Char) := path.splitOn '/'

/-- The text that a segment stands for, unless its bytes are no text. -/
def decodeSegment (segment : List Char) : Option String :=
  String.fromUTF8? (Text.percentDecode (segment.flatMap String.utf8EncodeChar)).toByteArray

end LayeredPreferences.Http

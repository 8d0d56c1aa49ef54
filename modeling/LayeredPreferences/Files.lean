set_option autoImplicit false

/-!
# Files

A tree of directories and files, and what a path leads to in it.
-/
namespace LayeredPreferences

inductive FileFault where
  | missing
  | notDirectory
  | isDirectory
  | nameTooLong
  | nullInName
  | notText
deriving DecidableEq

def FileFault.message : FileFault → String
  | .missing => "No such file or directory (os error 2)"
  | .notDirectory => "Not a directory (os error 20)"
  | .isDirectory => "Is a directory (os error 21)"
  | .nameTooLong => "File name too long (os error 36)"
  | .nullInName => "file name contained an unexpected NUL byte"
  | .notText => "stream did not contain valid UTF-8"

inductive Node where
  /-- A sealed directory takes no new files. -/
  | directory (isSealed : Bool)
  | file (bytes : List UInt8)
  /-- Nothing is ever in it, whatever is written to it. -/
  | sink
deriving DecidableEq

/-- What is known to exist, by the names from the root on. The root itself always exists. -/
structure Files where
  nodes : List (List String × Node)
  workingDirectory : List String

namespace Files

def node? (files : Files) (place : List String) : Option Node :=
  if place.isEmpty then some (.directory false) else files.nodes.lookup place

/-- Whether a file can be made in the directory at this place. -/
def takesFiles (files : Files) (place : List String) : Bool :=
  files.node? place = some (.directory false)

/-- Follows the names from a place, each of which must lie in a directory. -/
def follow (files : Files) (place : List String) : List String → Except FileFault (List String)
  | [] => .ok place
  | name :: names =>
    match files.node? place with
    | none => .error .missing
    | some (.file _) | some .sink => .error .notDirectory
    | some (.directory _) =>
      if name = "" ∨ name = "." then files.follow place names
      else if name = ".." then files.follow place.dropLast names
      else if 255 < name.utf8ByteSize then .error .nameTooLong
      else files.follow (place ++ [name]) names

/-- The names on a path: what stands between its slashes. -/
def names (path : String) : List String :=
  (path.toList.splitOn '/').map String.ofList

/-- Where a path starts. -/
def origin (files : Files) (path : String) : List String :=
  if path.toList.head? = some '/' then [] else files.workingDirectory

/-- The place that a path leads to, whether something is there or not. -/
def locate (files : Files) (path : String) : Except FileFault (List String) :=
  if path.toList.contains '\x00' then .error .nullInName
  else if path.isEmpty then .error .missing
  else if 4096 ≤ path.utf8ByteSize then .error .nameTooLong
  else files.follow (files.origin path) (names path)

def isThere (files : Files) (path : String) : Bool :=
  match files.locate path with
  | .ok place => (files.node? place).isSome
  | .error _ => false

/-- The bytes of the path of a place. -/
def pathLength (place : List String) : Nat :=
  place.foldr (fun name rest => name.utf8ByteSize + 1 + rest) 0

/-- The place that a path leads to if two points take back the name before them, whether it leads
    to a directory or not. What lies on the way must be a directory or nothing, and no path to it
    longer than `most` bytes. -/
def trace (files : Files) (most : Nat) (place : List String) :
    List String → Except FileFault (List String)
  | [] => .ok place
  | name :: names =>
    if name = "" ∨ name = "." then files.trace most place names
    else if name = ".." then files.trace most place.dropLast names
    else if most < pathLength (place ++ [name]) then .error .nameTooLong
    else
      match files.follow [] (place ++ [name]) with
      | .ok _ | .error .missing => files.trace most (place ++ [name]) names
      | .error fault => .error fault

def read (files : Files) (path : String) : Except FileFault (List UInt8) := do
  match files.node? (← files.locate path) with
  | none => .error .missing
  | some (.directory _) => .error .isDirectory
  | some (.file bytes) => .ok bytes
  | some .sink => .ok []

def readText (files : Files) (path : String) : Except FileFault String := do
  match String.fromUTF8? (← files.read path).toByteArray with
  | some text => .ok text
  | none => .error .notText

end Files

end LayeredPreferences

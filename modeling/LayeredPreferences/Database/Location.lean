import LayeredPreferences.Database.Fault
import LayeredPreferences.Text.Percent

set_option autoImplicit false

/-!
# Locations of databases

A location is written as a path, or as a URI with options. It leads to a file,
to memory, or nowhere: a database without a name is kept by the connection that
opened it.
-/
namespace LayeredPreferences

inductive OpenMode where
  | read
  | write
  | create
  | memory
deriving DecidableEq

namespace OpenMode

def names : List (String × OpenMode) :=
  [("ro", .read), ("rw", .write), ("rwc", .create), ("memory", .memory)]

/-- A mode can be narrowed by a later one. Memory can always be asked for, and then anything. -/
def allows : OpenMode → OpenMode → Bool
  | .memory, _ | _, .memory => true
  | .create, _ => true
  | .write, mode => mode != .create
  | .read, mode => mode == .read

end OpenMode

structure Location where
  name : String
  mode : OpenMode
  isShared : Bool
  isFrozen : Bool
  likeFile : Option String
  system : String
deriving DecidableEq

namespace Location

def diskSystems : List String := ["unix", "unix-none", "unix-dotfile", "unix-excl"]

def memorySystem : String := "memdb"

def ofPath (path : String) : Location where
  name := path
  mode := .create
  isShared := false
  isFrozen := false
  likeFile := none
  system := "unix"

/-! ## Parts of a URI -/

/-- Bytes that are no text stand for the characters of their numbers. -/
def text (bytes : List UInt8) : String :=
  (String.fromUTF8? bytes.toByteArray).getD (String.ofList (bytes.map fun b => .ofNat b.toNat))

/-- What an encoded part stands for; it ends before a byte that is zero. -/
def part (bytes : List UInt8) : String :=
  text ((Text.percentDecode bytes).takeWhile (· ≠ 0))

def cut (b : UInt8) (bytes : List UInt8) : List UInt8 × List UInt8 :=
  (bytes.takeWhile (· ≠ b), (bytes.dropWhile (· ≠ b)).drop 1)

def options (query : List UInt8) : List (String × String) :=
  let option (bytes : List UInt8) : String × String :=
    let (name, value) := cut 0x3d bytes
    (part name, part value)
  ((query.splitOn 0x26).map option).filter fun o => o.1 ≠ ""

def number (base : UInt8) (bytes : List UInt8) : Nat :=
  let digits := ((bytes.map Text.hexDigit?).takeWhile fun d => d.any (· < base)).filterMap id
  digits.foldl (fun n d => base.toNat * n + d.toNat) 0

def startsWithDigit (base : UInt8) (bytes : List UInt8) : Bool :=
  (bytes.head?.bind Text.hexDigit?).any (· < base)

/-- Numbers whose last byte is not zero, and the words for it. What does not fit 31 bits is zero. -/
def isTrue (value : String) : Bool :=
  let bytes := value.toUTF8.toList
  let isHexadecimal := ["0x", "0X"].any (·.toUTF8.toList = bytes.take 2)
  if !startsWithDigit 10 bytes then ["on", "yes", "true"].contains value.toLower
  else
    let n := if isHexadecimal && startsWithDigit 16 (bytes.drop 2) then number 16 (bytes.drop 2)
      else number 10 bytes
    n < Nat.pow 2 31 && n % 256 != 0

def apply (l : Location) (option : String × String) : Except LocationFault Location :=
  let (name, value) := option
  if name = "vfs" then .ok { l with system := value }
  else if name = "cache" then
    if value = "shared" then .ok { l with isShared := true }
    else if value = "private" then .ok { l with isShared := false }
    else .error (.unknownCache value)
  else if name = "mode" then
    match OpenMode.names.lookup value with
    | none => .error (.unknownMode value)
    | some mode =>
      if l.mode.allows mode then .ok { l with mode := mode } else .error (.modeNotAllowed value)
  else .ok l

/-- A URI from after its scheme on. Only this machine can be named as its authority. -/
def ofUri (bytes : List UInt8) : Except LocationFault Location := do
  let hasAuthority := bytes.take 2 = [0x2f, 0x2f]
  let authority := if hasAuthority then (bytes.drop 2).takeWhile (· ≠ 0x2f) else []
  let path := if hasAuthority then (bytes.drop 2).dropWhile (· ≠ 0x2f) else bytes
  if !authority.isEmpty && authority != "localhost".toUTF8.toList then
    throw (.otherMachine (text authority))
  let (name, query) := cut 0x3f (path.takeWhile (· ≠ 0x23))
  let options := options query
  let l ← options.foldlM apply (ofPath (part name))
  if l.system ∉ memorySystem :: diskSystems then
    throw (.unknownSystem l.system)
  return { l with
    isFrozen := (options.lookup "immutable").any isTrue
    likeFile := options.lookup "modeof" }

def ofString (s : String) : Except LocationFault Location :=
  let bytes := s.toUTF8.toList
  if bytes.contains 0 then .error .nullCharacter
  else if bytes.take 5 = "file:".toUTF8.toList then ofUri (bytes.drop 5)
  else .ok (ofPath s)

/-! ## What it leads to -/

inductive Target where
  | connection
  | memory (isShared : Bool)
  | disk

/-- Memory is shared on demand, or by a name that looks like a path on the memory system. -/
def target (l : Location) : Target :=
  if l.name = "" then .connection
  else if l.name = ":memory:" ∨ l.mode = .memory then .memory l.isShared
  else if l.system = memorySystem then
    .memory (l.isShared || (1 < l.name.length && ['/', '\\'].contains (l.name.toList.headD ' ')))
  else .disk

/-- Whether the database cannot be written. What is only in memory is not frozen by its options,
    unless it is kept by the memory system. -/
def isReadOnly (l : Location) : Bool :=
  l.mode = .read ||
    l.isFrozen && match l.target with
      | .connection => false
      | .memory _ => l.name ≠ ":memory:" && l.mode ≠ .memory
      | .disk => true

end Location

end LayeredPreferences

import LayeredPreferences.Definition.BuiltIn
import LayeredPreferences.Files
import LayeredPreferences.Registry

set_option autoImplicit false

/-!
# Starting up

A server is built from its setup: a store, and definitions from a file or the
built-in ones. Only then is the address looked at.
-/
namespace LayeredPreferences

/-- The definitions of a file. -/
def loadDefinitions (files : Files) (path : String) : Except SchemaFault (List Definition) :=
  match files.readText path with
  | .ok text => parseDefinitions (.ofString text)
  | .error fault => .error (.unreadableFile path fault.message)

structure Setup (σ : Type) where
  listen : String
  definitions : Option String
  store : Option σ

namespace Setup

def start {σ : Type} : Setup σ := ⟨"127.0.0.1:8080", none, none⟩

end Setup

structure Server (σ : Type) where
  listen : String
  definitions : Option String
  registry : Registry
  store : σ

def Setup.build {σ : Type} (files : Files) (setup : Setup σ) : Except Fault (Server σ) := do
  let some store := setup.store
    | throw (.setup .noStore)
  let definitions ← match setup.definitions with
    | some path => (loadDefinitions files path).mapError Fault.schema
    | none => builtInDefinitions.mapError Fault.schema
  let registry ← definitions.foldlM (fun r d => (r.register d).mapError Fault.schema) .empty
  return ⟨setup.listen, setup.definitions, registry, store⟩

/-! ## Addresses -/

structure Address where
  host : String
  port : Nat

/-- Digits, after a plus sign or without one, of a number below 65536. -/
def port? (cs : List Char) : Option Nat :=
  let digits := match cs with
    | '+' :: rest => rest
    | rest => rest
  if digits.isEmpty || !digits.all Char.isDigit then none
  else
    let n := Nat.ofDigitChars 10 digits 0
    if n < 0x10000 then some n else none

/-- A host and a port, parted by the last colon. -/
def Address.ofString (text : String) : Except AddressFault Address :=
  let cs := text.toList
  if !cs.contains ':' then .error .noPort
  else
    let port := (cs.reverse.takeWhile (· ≠ ':')).reverse
    match port? port with
    | some n => .ok ⟨String.ofList (cs.take (cs.length - port.length - 1)), n⟩
    | none => .error .badPort

/-- The server and the address at which it listens. -/
def Setup.listening {σ : Type} (files : Files) (setup : Setup σ) :
    Except Fault (Server σ × Address) := do
  let server ← setup.build files
  let address ← (Address.ofString server.listen).mapError Fault.address
  return (server, address)

/-! ## Logging -/

/-- Logging is set up for the whole program, and once only. The state is whether it has been. -/
def setUpLogging : ExceptT Fault (StateM Bool) Unit := do
  if ← get then throw (.setup .loggingInUse)
  set true

end LayeredPreferences

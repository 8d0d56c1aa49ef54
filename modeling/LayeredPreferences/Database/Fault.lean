import LayeredPreferences.Text.Utf8

set_option autoImplicit false

/-!
# Faults of databases

Why a database is not opened or read, with the number and the text of each cause,
and why a column of a row that was read has no value.
-/
namespace LayeredPreferences

inductive LocationFault where
  | nullCharacter
  | otherMachine (authority : String)
  | unknownCache (name : String)
  | unknownMode (name : String)
  | modeNotAllowed (name : String)
  | unknownSystem (name : String)
deriving DecidableEq

inductive FunctionFault where
  | overflow
  | tooBig
  | longEscape
  | longPattern
  | changing (name : String)
  | badDocument
  | badPath (path : String)
  | bytesInDocument
  | oddMembers (name : String)
  | evenEdits (name : String)
  | nameNotText (name : String)
  | unknownChecks
deriving DecidableEq

inductive DatabaseFault where
  | badLocation (fault : LocationFault)
  | cannotOpen
  | cannotRead
  | cutOff
  | cannotSync
  | unknownPermissions
  | readOnly
  | notDatabase
  | unknownFormat
  | damaged
  | badEntry (name : Option String) (reason : Option String)
  | noTable (name : String)
  | noColumn (name : String)
  | noCollation (name : String)
  /-- One that a new index needs for the key of its table, and waits for in vain. -/
  | noKeyCollation (name : String)
  | unknownFunction (name : String)
  | loop (column : String)
  | raiseOutside
  | rowMisused
  | tooLongNumber (number : String)
  | inFunction (fault : FunctionFault)
  | tableExists (name : String)
  | indexExists (name : String)
  | viewIndexed
  | virtualTableIndexed
deriving DecidableEq

inductive ColumnFault where
  | unknown
  | wrongType (isOptional : Bool) (found : String)
  | notText (fault : Text.Utf8Fault)
deriving DecidableEq

def databaseMessage (code : Nat) (text : String) : String :=
  s!"error returned from database: (code: {code}) {text}"

def LocationFault.message : LocationFault → String
  | .nullCharacter =>
    "error communicating with database: filename passed to SQLite must not contain nul bytes"
  | .otherMachine authority => databaseMessage 1 s!"invalid uri authority: {authority}"
  | .unknownCache name => databaseMessage 1 s!"no such cache mode: {name}"
  | .unknownMode name => databaseMessage 1 s!"no such access mode: {name}"
  | .modeNotAllowed name => databaseMessage 3 s!"access mode not allowed: {name}"
  | .unknownSystem name => databaseMessage 1 s!"no such vfs: {name}"

def FunctionFault.message : FunctionFault → String
  | .overflow => databaseMessage 1 "integer overflow"
  | .tooBig => databaseMessage 18 "string or blob too big"
  | .longEscape => databaseMessage 1 "ESCAPE expression must be a single character"
  | .longPattern => databaseMessage 1 "LIKE or GLOB pattern too complex"
  | .changing name =>
    databaseMessage 1 s!"non-deterministic use of {name}() in a generated column"
  | .badDocument => databaseMessage 1 "malformed JSON"
  | .badPath path => databaseMessage 1 s!"bad JSON path: {path}"
  | .bytesInDocument => databaseMessage 1 "JSON cannot hold BLOB values"
  | .oddMembers name => databaseMessage 1 s!"{name}() requires an even number of arguments"
  | .evenEdits name => databaseMessage 1 s!"{name}() needs an odd number of arguments"
  | .nameNotText name => databaseMessage 1 s!"{name}() labels must be TEXT"
  | .unknownChecks =>
    databaseMessage 1 "FLAGS parameter to json_valid() must be between 1 and 15"

def DatabaseFault.message : DatabaseFault → String
  | .badLocation fault => fault.message
  | .cannotOpen => databaseMessage 14 "unable to open database file"
  | .cannotRead => databaseMessage 266 "disk I/O error"
  | .cutOff => databaseMessage 522 "disk I/O error"
  | .cannotSync => databaseMessage 1034 "disk I/O error"
  | .unknownPermissions => databaseMessage 1802 "disk I/O error"
  | .readOnly => databaseMessage 8 "attempt to write a readonly database"
  | .notDatabase => databaseMessage 26 "file is not a database"
  | .unknownFormat => databaseMessage 1 "unsupported file format"
  | .damaged => databaseMessage 11 "database disk image is malformed"
  | .badEntry name reason =>
    databaseMessage 11 ("malformed database schema (" ++ name.getD "?" ++ ")"
      ++ (reason.map (" - " ++ ·)).getD "")
  | .noTable name => databaseMessage 1 s!"no such table: {name}"
  | .noColumn name => databaseMessage 1 s!"no such column: {name}"
  | .noCollation name => databaseMessage 257 s!"no such collation sequence: {name}"
  | .noKeyCollation name => databaseMessage 513 s!"no such collation sequence: {name}"
  | .unknownFunction name => databaseMessage 1 s!"unknown function: {name}()"
  | .loop column => databaseMessage 1 ("generated column loop on \"" ++ column ++ "\"")
  | .raiseOutside => databaseMessage 1 "RAISE() may only be used within a trigger-program"
  | .rowMisused => databaseMessage 1 "row value misused"
  | .tooLongNumber number => databaseMessage 1 s!"hex literal too big: {number}"
  | .inFunction fault => fault.message
  | .tableExists name => databaseMessage 1 s!"there is already a table named {name}"
  | .indexExists name => databaseMessage 1 s!"there is already an index named {name}"
  | .viewIndexed => databaseMessage 1 "views may not be indexed"
  | .virtualTableIndexed => databaseMessage 1 "virtual tables may not be indexed"

def ColumnFault.message (column : String) : ColumnFault → String
  | .unknown => s!"no column found for name: {column}"
  | .wrongType isOptional found =>
    let text := "alloc::string::String"
    let type := if isOptional then s!"core::option::Option<{text}>" else text
    s!"error occurred while decoding column \"{column}\": mismatched types; Rust type "
      ++ s!"`{type}` (as SQL type `TEXT`) is not compatible with SQL type `{found}`"
  | .notText fault => s!"error occurred while decoding column \"{column}\": {fault.message}"

end LayeredPreferences

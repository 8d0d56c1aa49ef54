import LayeredPreferences.Database.Extension
import LayeredPreferences.Database.Location
import LayeredPreferences.Files
import LayeredPreferences.Store.Tables

set_option autoImplicit false

/-!
# Opening a database

The tables are made when a database is opened, and are looked for by other
connections later. So they are found only if the connections share the database.
-/
namespace LayeredPreferences

inductive Database where
  | unshared
  | new
  | held (image : Database.Image) (catalog : Database.Catalog)

namespace Database

/-- A file of at most one byte is a new database. -/
def ofBytes (isReadOnly : Bool) (bytes : List UInt8) : Except DatabaseFault Database := do
  if bytes.length ≤ 1 then
    if isReadOnly then throw .readOnly
    return .new
  let image : Image := ⟨bytes.toArray⟩
  image.check
  let catalog ← image.catalog isReadOnly
  if isReadOnly then throw .readOnly
  let (image, catalog) ← image.extend catalog
  return .held image catalog

/-- The longest path of a database, in bytes, and the longest one while it is followed. -/
abbrev longestPath : Nat := 504

abbrev longestTrace : Nat := 511

def place (files : Files) (path : String) : Except DatabaseFault (List String) :=
  match files.trace longestTrace (files.origin path) (Files.names path) with
  | .error _ => .error .cannotOpen
  | .ok place =>
    if place.isEmpty ∨ longestPath < Files.pathLength place then .error .cannotOpen else .ok place

/-- A journal is kept beside the file, so its directory must take files, too. -/
def openFile (files : Files) (l : Location) : Except DatabaseFault Database := do
  let place ← place files l.name
  if l.likeFile.any fun path => !files.isThere path then throw .unknownPermissions
  match files.node? place with
  | some (.file bytes) =>
    if files.takesFiles place.dropLast then ofBytes l.isReadOnly bytes else throw .cannotOpen
  | some (.directory _) => throw (if l.mode = .read then .cannotRead else .cannotOpen)
  | some .sink => throw (if l.isReadOnly then .readOnly else .cannotSync)
  | none =>
    if l.mode = .create ∧ files.takesFiles place.dropLast then ofBytes l.isReadOnly []
    else throw .cannotOpen

def openAt (files : Files) (l : Location) : Except DatabaseFault Database :=
  match l.target with
  | .disk => openFile files l
  | .connection => if l.isReadOnly then .error .readOnly else .ok .unshared
  | .memory isShared =>
    if l.isReadOnly then .error .readOnly else .ok (if isShared then .new else .unshared)

def connect (files : Files) (location : String) : Except DatabaseFault Database := do
  openAt files (← (Location.ofString location).mapError DatabaseFault.badLocation)

end Database

end LayeredPreferences

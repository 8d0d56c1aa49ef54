import LayeredPreferences.Database.Bytes
import LayeredPreferences.Database.Fault

set_option autoImplicit false

/-!
# Images of databases

The bytes of a database file: pages of one size, counted from one. The first of
them starts with a header of 100 bytes.
-/
namespace LayeredPreferences.Database

structure Image where
  bytes : Bytes

namespace Image

def magic : List UInt8 := "SQLite format 3\x00".toUTF8.toList

def pageSizes : List Nat := [512, 1024, 2048, 4096, 8192, 16384, 32768, 65536]

/-- The largest size does not fit two bytes and is written as one. -/
def pageSize (image : Image) : Nat := 256 * image.bytes.byte 16 + 65536 * image.bytes.byte 17

def usableSize (image : Image) : Nat := image.pageSize - image.bytes.byte 20

def pagesHeld (image : Image) : Nat :=
  (image.bytes.size + image.pageSize - 1) / image.pageSize

/-- The count of pages in the header counts only if it is as old as the last change. -/
def pages (image : Image) : Nat :=
  let stated := image.bytes.number 28 4
  if stated = 0 ∨ image.bytes.number 24 4 ≠ image.bytes.number 92 4 then image.pagesHeld
  else stated

/-- The bytes of a page. The last one can be cut off. -/
def pageBytes (image : Image) (page : Nat) : Bytes :=
  image.bytes.extract ((page - 1) * image.pageSize) (page * image.pageSize)

def write (image : Image) (place : Nat) (bytes : List UInt8) : Image :=
  let missing := place + bytes.length - image.bytes.size
  ⟨(bytes.zipIdx place).foldl (fun all (b, i) => all.setIfInBounds i b)
    (image.bytes ++ Array.replicate missing 0)⟩

def writeNumber (image : Image) (place n : Nat) : Image :=
  image.write place ([0x1000000, 0x10000, 0x100, 1].map fun unit => .ofNat (n / unit % 256))

def canBeWritten (image : Image) : Bool := image.bytes.byte 18 ≤ 2

def keepsLog (image : Image) : Bool := image.bytes.byte 19 = 2

def check (image : Image) : Except DatabaseFault Unit := do
  let b := image.bytes.byte
  if image.bytes.toList.take 16 ≠ magic then throw .notDatabase
  if 2 < b 19 then throw .notDatabase
  if [b 21, b 22, b 23] ≠ [64, 32, 32] then throw .notDatabase
  if image.pageSize ∉ pageSizes then throw .notDatabase
  if image.pagesHeld < image.pages then throw .damaged
  if image.usableSize < 480 then throw .notDatabase
  if 4 < b 47 then throw .unknownFormat

end Image

end LayeredPreferences.Database

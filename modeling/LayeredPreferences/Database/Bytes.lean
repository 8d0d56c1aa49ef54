set_option autoImplicit false

/-!
# Numbers in bytes

A number is written with its most significant byte first: in a fixed count of
bytes, or in as many groups of seven bits as it needs, up to nine.
-/
namespace LayeredPreferences.Database

abbrev Bytes := Array UInt8

namespace Bytes

/-- Whatever lies after the end is zero. -/
def byte (bytes : Bytes) (i : Nat) : Nat := (bytes.getD i 0).toNat

def number (bytes : Bytes) (start count : Nat) : Nat :=
  (List.range count).foldl (fun n i => 256 * n + bytes.byte (start + i)) 0

/-- The number in groups after the first `taken` ones, and how many it takes in all. The last of
    nine groups has eight bits. -/
def groupsFrom (bytes : Bytes) (start n taken : Nat) : Nat → Nat × Nat
  | 0 => (256 * n + bytes.byte (start + taken), taken + 1)
  | more + 1 =>
    let b := bytes.byte (start + taken)
    if b < 128 then (128 * n + b, taken + 1)
    else bytes.groupsFrom start (128 * n + (b - 128)) (taken + 1) more

def groups (bytes : Bytes) (start : Nat) : Nat × Nat := bytes.groupsFrom start 0 0 8

def slice (bytes : Bytes) (start count : Nat) : List UInt8 :=
  (List.range count).map fun i => bytes.getD (start + i) 0

def signed (bits n : Nat) : Int := if n < Nat.pow 2 (bits - 1) then n else n - Nat.pow 2 bits

end Bytes

end LayeredPreferences.Database

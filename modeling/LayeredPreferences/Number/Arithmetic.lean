import LayeredPreferences.Number.Binary64

set_option autoImplicit false

/-!
# Arithmetic

Sums, products and quotients of binary floating point: the exact result, rounded
once.
-/
namespace LayeredPreferences.Binary64

/-- In units of `2 ^ -1074`. What is infinite is beyond all else. -/
def signedUnits : Binary64 → Int
  | .finite isNegative rank =>
    let n : Int := units rank.val
    if isNegative then -n else n
  | .infinite isNegative => if isNegative then -Nat.pow 2 3000 else Nat.pow 2 3000
  | .notANumber => 0

def ofSignedUnits (n : Int) : Binary64 := .ofRank (n < 0) (nearestRank n.natAbs unitsOfOne)

def sum (x y : Binary64) : Binary64 :=
  match x, y with
  | .notANumber, _ | _, .notANumber => .notANumber
  | .infinite s, .infinite t => if s = t then .infinite s else .notANumber
  | .infinite s, _ | _, .infinite s => .infinite s
  | x, y => ofSignedUnits (signedUnits x + signedUnits y)

def opposite : Binary64 → Binary64
  | .finite s rank => .finite (!s) rank
  | .infinite s => .infinite (!s)
  | .notANumber => .notANumber

def magnitude : Binary64 → Binary64
  | .finite _ rank => .finite false rank
  | .infinite _ => .infinite false
  | .notANumber => .notANumber

def product (x y : Binary64) : Binary64 :=
  match x, y with
  | .finite s a, .finite t b => .ofRank (s != t) (mulRank a.val b.val)
  | .infinite s, .finite t a | .finite t a, .infinite s =>
    if a.val = 0 then .notANumber else .infinite (s != t)
  | .infinite s, .infinite t => .infinite (s != t)
  | _, _ => .notANumber

/-- A quotient by zero is not a number. -/
def quotient (x y : Binary64) : Binary64 :=
  match x, y with
  | .finite s a, .finite t b =>
    if b.val = 0 then .notANumber else .ofRank (s != t) (divRank a.val b.val)
  | .infinite s, .finite t b => if b.val = 0 then .notANumber else .infinite (s != t)
  | .finite s _, .infinite t => .ofRank (s != t) 0
  | _, _ => .notANumber

end LayeredPreferences.Binary64

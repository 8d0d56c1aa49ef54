import LayeredPreferences.Json.Reader
import LayeredPreferences.Number.Scaled

set_option autoImplicit false

/-!
# Numbers as they are written

A number without fraction and exponent whose digits fit 64 bits is an integer.
Any other number is real: its first digits, as many as fit 64 bits, are scaled by
a power of ten.
-/
namespace LayeredPreferences.Json

def digit? : Glyph → Option Nat
  | .char c => if c.isDigit then some (c.toNat - '0'.toNat) else none
  | .stray => none

/-- Digits are taken into the significand while it stays below `2 ^ 64`, and counted. -/
def significand (s taken : Nat) : Source → Nat × Nat × Source
  | [] => (s, taken, [])
  | g :: rest =>
    match digit? g with
    | some d =>
      if 10 * s + d < Nat.pow 2 64 then significand (10 * s + d) (taken + 1) rest
      else (s, taken, g :: rest)
    | none => (s, taken, g :: rest)

def countDigits (n : Nat) : Source → Nat × Source
  | [] => (n, [])
  | g :: rest => if (digit? g).isSome then countDigits (n + 1) rest else (n, g :: rest)

def natural (n : Nat) : Source → Nat × Source
  | [] => (n, [])
  | g :: rest =>
    match digit? g with
    | some d => natural (10 * n + d) rest
    | none => (n, g :: rest)

def real (negative : Bool) (s : Nat) (exponent : Int) : Reader Number :=
  match Binary64.scaledRank? s exponent with
  | some rank => pure (.real (.ofRank negative rank))
  | none => refuse .numberOutOfRange

/-- A number without fraction and exponent. Below zero it is an integer if it is in the range of
    64 bits; a negative zero has no integer. -/
def integral (negative : Bool) (s : Nat) : Number :=
  if negative then
    if 0 < s ∧ s ≤ Nat.pow 2 63 then .integer (-s) else .real (.ofRank true (Binary64.rankOfNat s))
  else .integer s

/-- After the letter `e`. -/
def power (negative : Bool) (s : Nat) (exponent : Int) : Reader Number := fun source =>
  let (down, digits) := match source with
    | .char '+' :: rest => (false, rest)
    | .char '-' :: rest => (true, rest)
    | rest => (false, rest)
  match digits with
  | [] => .error ⟨[], .endOf .value⟩
  | g :: _ =>
    if (digit? g).isSome then
      let (n, rest) := natural 0 digits
      real negative s (if down then exponent - n else exponent + n) rest
    else .error ⟨[], .invalidNumber⟩

/-- After the point, where `exponent` digits before it found no room in the significand. -/
def fraction (negative : Bool) (s exponent : Nat) : Reader Number := fun source =>
  let (s, taken, more) := significand s 0 source
  let (skipped, rest) := countDigits 0 more
  if taken = 0 ∧ skipped = 0 then
    match rest with
    | [] => .error ⟨[], .endOf .value⟩
    | _ => .error ⟨[], .invalidNumber⟩
  else
    match rest with
    | .char 'e' :: rest | .char 'E' :: rest => power negative s (exponent - taken : Int) rest
    | _ => real negative s (exponent - taken : Int) rest

/-- After the digits before the point, the last `skipped` of which found no room. -/
def afterInteger (negative : Bool) (s skipped : Nat) : Reader Number := fun source =>
  match source with
  | .char '.' :: rest => fraction negative s skipped rest
  | .char 'e' :: rest | .char 'E' :: rest => power negative s skipped rest
  | rest => if skipped = 0 then .ok (integral negative s, rest) else real negative s skipped rest

/-- A number after its sign. -/
def magnitude (negative : Bool) : Reader Number := fun source =>
  match source with
  | [] => .error ⟨[], .endOf .value⟩
  | .char '0' :: rest =>
    if (rest.head?.bind digit?).isSome then .error ⟨[], .invalidNumber⟩
    else afterInteger negative 0 0 rest
  | g :: _ =>
    if (digit? g).isSome then
      let (s, _, more) := significand 0 0 source
      let (skipped, rest) := countDigits 0 more
      afterInteger negative s skipped rest
    else .error ⟨[], .invalidNumber⟩

def number : Reader Number := fun source =>
  match source with
  | .char '-' :: rest => magnitude true rest
  | rest => magnitude false rest

end LayeredPreferences.Json

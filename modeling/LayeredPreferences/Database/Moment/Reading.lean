import LayeredPreferences.Database.Moment.Calendar

set_option autoImplicit false

/-!
# Moments as they are written

A date, a time of day or both, perhaps with how far the clock is ahead; or a
number. What is said of the present is not the same at all times and is refused.
-/
namespace LayeredPreferences.Database

namespace Moment

def isBlank (c : Char) : Bool := c.toNat < 0x100 && Cell.isSpace (.ofNat c.toNat)

def digits? (count least most : Nat) (cs : List Char) : Option (Int × List Char) :=
  let n := Nat.ofDigitChars 10 (cs.take count) 0
  if (cs.take count).length = count ∧ (cs.take count).all Char.isDigit ∧ least ≤ n ∧ n ≤ most then
    some (n, cs.drop count)
  else none

def after? (c : Char) (cs : List Char) : Option (List Char) :=
  if cs.head? = some c then some (cs.drop 1) else none

def pair? (most : Nat) (cs : List Char) : Option (Int × Int × List Char) := do
  let (hour, rest) ← digits? 2 0 most cs
  let (minute, rest) ← digits? 2 0 59 (← after? ':' rest)
  return (hour, minute, rest)

def date? (years : Nat) (leastMonth mostMonth leastDay mostDay : Nat) (cs : List Char) :
    Option (CalendarDate × List Char) := do
  let (year, rest) ← digits? years 0 14712 cs
  let (month, rest) ← digits? 2 leastMonth mostMonth (← after? '-' rest)
  let (day, rest) ← digits? 2 leastDay mostDay (← after? '-' rest)
  return (⟨year, month, day⟩, rest)

def offset? (cs : List Char) : Option Int :=
  let toEnd (minutes : Int) (rest : List Char) : Option Int :=
    if rest.all isBlank then some minutes else none
  match cs.dropWhile isBlank with
  | [] => some 0
  | c :: rest =>
    if c = 'Z' ∨ c = 'z' then toEnd 0 rest
    else if c = '+' ∨ c = '-' then do
      let (hour, minute, rest) ← pair? 14 rest
      toEnd ((if c = '-' then -1 else 1) * (minute + 60 * hour)) rest
    else none

/-- The digits after a point, as they add up one by one. -/
def fraction (digits : List Char) : Binary64 :=
  let ten := real 10
  let (value, scale) := digits.foldl (fun (value, scale) c =>
    ((value.product ten).sum (real (c.toNat - 48)), scale.product ten)) (real 0, real 1)
  value.quotient scale

def time? (cs : List Char) : Option (ClockTime × Int) := do
  let (hour, minute, rest) ← pair? 24 cs
  if rest.head? = some ':' then
    let (second, rest) ← digits? 2 0 59 (rest.drop 1)
    let digits := if rest.head? = some '.' then (rest.drop 1).takeWhile Char.isDigit else []
    let rest := if digits.isEmpty then rest else rest.drop (digits.length + 1)
    return (⟨hour, minute, (real second).sum (fraction digits)⟩, ← offset? rest)
  else return (⟨hour, minute, real 0⟩, ← offset? rest)

def ofDate? (cs : List Char) : Option Moment := do
  let isNegative := cs.head? = some '-'
  let (date, rest) ← date? 4 1 12 1 31 (if isNegative then cs.drop 1 else cs)
  let rest := rest.dropWhile fun c => isBlank c || c = 'T'
  let date := if isNegative then { date with year := -date.year } else date
  let whole := { empty with date := some date, excess := excessOf date }
  match time? rest with
  | some (time, offset) =>
    let m := { whole with time := some time, offset := offset }
    return if offset = 0 then m else m.withInstant
  | none => if rest.isEmpty then return whole else none

/-- A number is taken for days if there can be so many. -/
def ofNumber (x : Binary64) : Moment :=
  let isDays := !isLess x (real 0) && isLess x (ratio 10746969 2)
  { empty with
    raw := some x
    instant := if isDays then some (roundedUp (x.product (real dayLength))) else none }

def isFractionWord (cs : List Char) : Bool :=
  let word := (String.ofList cs).toLower
  word = "subsec" || word = "subsecond"

def number? (cs : List Char) : Option Binary64 :=
  match Cell.numberOfText (cs.map fun c => .ofNat c.toNat) with
  | (cell, true) => some cell.realOf
  | _ => none

def ofText? (name : String) (cs : List Char) : Except FunctionFault (Option Moment) :=
  let ofTime : Option Moment :=
    (time? cs).map fun found => { empty with time := some found.1, offset := found.2 }
  match ofDate? cs <|> ofTime with
  | some m => .ok (some m)
  | none =>
    if (String.ofList cs).toLower = "now" then .error (.changing name)
    else match number? cs with
      | some x => .ok (some (ofNumber x))
      | none => if isFractionWord cs then .error (.changing name) else .ok none

end Moment

end LayeredPreferences.Database

import LayeredPreferences.Database.Moment.Change

set_option autoImplicit false

/-!
# What is told of moments

Dates, times of day, counts of days and of seconds, patterns with letters for parts
of a moment, and how far two moments are apart.
-/
namespace LayeredPreferences.Database

namespace Moment

def filledWith (c : Char) (width : Nat) (n : Int) : List Char :=
  let digits := Nat.toDigits 10 n.natAbs
  let sign := if n < 0 then ['-'] else []
  let fill := List.replicate (width - digits.length - sign.length) c
  if c = '0' then sign ++ fill ++ digits else fill ++ sign ++ digits

def zeros (width : Nat) (n : Int) : List Char := filledWith '0' width n

def lastDigits (width : Nat) (n : Int) : List Char :=
  zeros width (n.natAbs % Nat.pow 10 width : Nat)

def places (n : Nat) (x : Binary64) : List Char :=
  (realText ⟨.fixed, n, false, false, false, false⟩ [] x).toList

def exactSeconds (x : Binary64) : List Char :=
  let text := places 3 x
  List.replicate (6 - text.length) '0' ++ text

def wholeSeconds (m : Moment) : Int := Cell.wholeOfReal m.theTime.second

def dateText (m : Moment) : List Char :=
  let date := m.theDate
  (if date.year < 0 then ['-'] else []) ++ lastDigits 4 date.year ++ '-' :: lastDigits 2 date.month
    ++ '-' :: lastDigits 2 date.day

def timeText (m : Moment) : List Char :=
  let time := m.theTime
  let seconds :=
    if m.hasFraction then
      let millis := roundedUp (time.second.product (real 1000))
      lastDigits 2 (millis.tdiv 1000) ++ '.' :: lastDigits 3 millis
    else lastDigits 2 m.wholeSeconds
  lastDigits 2 time.hour ++ ':' :: lastDigits 2 time.minute ++ ':' :: seconds

def bothText (m : Moment) : List Char := m.dateText ++ [' '] ++ m.timeText

def days (m : Moment) : Binary64 := ratio m.theInstant dayLength

def seconds (m : Moment) : Int := m.theInstant.tdiv 1000 - epoch / 1000

def exactCount (m : Moment) : Binary64 := ratio (m.theInstant - epoch) 1000

/-! ## Parts of the calendar -/

def dayOfYear (m : Moment) : Int :=
  let start := { m with
    instant := none, date := some { m.theDate with month := 1, day := 1 } }
  (m.theInstant - start.withInstant.theInstant + 43200000).tdiv dayLength

def afterMonday (m : Moment) : Int := ((m.theInstant + 43200000).tdiv dayLength).tmod 7

def afterSunday (m : Moment) : Int := ((m.theInstant + 129600000).tdiv dayLength).tmod 7

/-- The Thursday of the same week, which tells the year that the week belongs to. -/
def thursday (m : Moment) : Moment :=
  ({ m with
    instant := some (m.theInstant + (3 - m.afterMonday) * dayLength), date := none } : Moment).withDate

def part? (m : Moment) (letter : Char) : Option (List Char) :=
  let date := m.theDate
  let time := m.theTime
  let hour := if time.hour = 0 then 12 else if 12 < time.hour then time.hour - 12 else time.hour
  let isLate := 12 ≤ time.hour
  let sunday := m.afterSunday
  match letter with
  | 'd' => some (zeros 2 date.day)
  | 'e' => some (filledWith ' ' 2 date.day)
  | 'f' => some (exactSeconds (if isLess (ratio 59999 1000) time.second then ratio 59999 1000
      else time.second))
  | 'F' => some (zeros 4 date.year ++ '-' :: zeros 2 date.month ++ '-' :: zeros 2 date.day)
  | 'g' => some (zeros 2 (m.thursday.theDate.year.tmod 100))
  | 'G' => some (zeros 4 m.thursday.theDate.year)
  | 'H' => some (zeros 2 time.hour)
  | 'k' => some (filledWith ' ' 2 time.hour)
  | 'I' => some (zeros 2 hour)
  | 'l' => some (filledWith ' ' 2 hour)
  | 'j' => some (zeros 3 (m.dayOfYear + 1))
  | 'J' => some (realText ⟨.general, 16, false, false, false, false⟩ [] m.days).toList
  | 'm' => some (zeros 2 date.month)
  | 'M' => some (zeros 2 time.minute)
  | 'p' => some (if isLate then ['P', 'M'] else ['A', 'M'])
  | 'P' => some (if isLate then ['p', 'm'] else ['a', 'm'])
  | 'R' => some (zeros 2 time.hour ++ ':' :: zeros 2 time.minute)
  | 's' => some (if m.hasFraction then places 3 m.exactCount else zeros 0 m.seconds)
  | 'S' => some (zeros 2 m.wholeSeconds)
  | 'T' => some (zeros 2 time.hour ++ ':' :: zeros 2 time.minute ++ ':' :: zeros 2 m.wholeSeconds)
  | 'u' => some (zeros 0 (if sunday = 0 then 7 else sunday))
  | 'w' => some (zeros 0 sunday)
  | 'U' => some (zeros 2 ((m.dayOfYear - sunday + 7).tdiv 7))
  | 'V' => some (zeros 2 (m.thursday.dayOfYear.tdiv 7 + 1))
  | 'W' => some (zeros 2 ((m.dayOfYear - m.afterMonday + 7).tdiv 7))
  | 'Y' => some (zeros 4 date.year)
  | '%' => some ['%']
  | _ => none

def written? (m : Moment) : List UInt8 → Option (List UInt8)
  | [] => some []
  | 0x25 :: letter :: rest => do
    let part ← m.part? (.ofNat letter.toNat)
    return part.map (fun c => .ofNat c.toNat) ++ (← written? m rest)
  | [0x25] => none
  | b :: rest => (written? m rest).map (b :: ·)

/-! ## Differences -/

/-- Months back or forth, one at a time, until the moment is no longer beyond the other. -/
def stepped (isBack : Bool) (other : Int) (months : Int) (m : Moment) : Nat → Int × Moment
  | 0 => (months, m)
  | fuel + 1 =>
    if (if isBack then other < m.theInstant else m.theInstant < other) then
      let date := m.theDate
      let date :=
        if isBack then
          if date.month ≤ 1 then { date with year := date.year - 1, month := 12 }
          else { date with month := date.month - 1 }
        else if 12 ≤ date.month then { date with year := date.year + 1, month := 1 }
        else { date with month := date.month + 1 }
      stepped isBack other (months - 1)
        ({ m with date := some date, instant := none } : Moment).withInstant fuel
    else (months, m)

def difference (a b : Moment) : List Char :=
  let a := a.withBoth
  let b := b.withBoth
  let isLater := b.theInstant ≤ a.theInstant
  let sign := if isLater then 1 else -1
  let months := sign * (12 * (a.theDate.year - b.theDate.year) + (a.theDate.month - b.theDate.month))
  let close := ({ b with
    date := some { b.theDate with year := a.theDate.year, month := a.theDate.month }
    instant := none } : Moment).withInstant
  let (months, close) := stepped isLater a.theInstant months close 12
  let rest := sign * (a.theInstant - close.theInstant) + 148699540800000
  let rest := (a.atInstant rest).withBoth
  let time := rest.theTime
  (if isLater then '+' else '-') :: zeros 4 (months / 12) ++ '-' :: zeros 2 (months % 12)
    ++ '-' :: zeros 2 (rest.theDate.day - 1) ++ ' ' :: zeros 2 time.hour
    ++ ':' :: zeros 2 time.minute ++ ':' :: exactSeconds time.second

/-! ## Functions -/

def ofCells? (encoding : Encoding) (name : String) (cells : List Cell) :
    Except FunctionFault (Option Moment) := do
  let chars (cell : Cell) : Option (List Char) :=
    (cell.text? encoding).map fun bytes =>
      (bytes.takeWhile (· ≠ 0)).map fun b => Char.ofNat b.toNat
  let start ← match cells.head? with
    | none => throw (.changing name)
    | some (.integer n) => pure (some (ofNumber (real n)))
    | some (.real x) => pure (some (ofNumber x))
    | some cell =>
      match chars cell with
      | none => pure none
      | some cs => ofText? name cs
  let found ← (cells.tail.zipIdx 1).foldlM (fun (m : Option Moment) (cell, i) =>
    match m, chars cell with
    | some m, some cs => changed? name m i cs
    | _, _ => pure none) start
  return do
    let m := (← found).withInstant
    if m.isBeyond || !isInstant m.theInstant then none
    else if cells.length = 1 && (m.date.any fun date => 28 < date.day) then
      some { m with date := none }
    else some m

def called? (encoding : Encoding) (name : String) (cells : List Cell) :
    Except FunctionFault (Option Cell) := do
  let text (cs : List Char) : Cell := .text (cs.map fun c => .ofNat c.toNat)
  let moment (cells : List Cell) : Except FunctionFault (Option Moment) :=
    ofCells? encoding name cells
  match name with
  | "date" => return (← moment cells).map fun m => text m.withDate.dateText
  | "time" => return (← moment cells).map fun m => text m.withTime.timeText
  | "datetime" => return (← moment cells).map fun m => text m.withBoth.bothText
  | "julianday" => return (← moment cells).map fun m => .real m.days
  | "unixepoch" => return (← moment cells).map fun m =>
      if m.hasFraction then .real m.exactCount else .integer m.seconds
  | "strftime" =>
    match cells with
    | [] => return none
    | pattern :: cells =>
      match (pattern.text? encoding).map fun bytes => bytes.takeWhile (· ≠ 0) with
      | none => return none
      | some pattern => return (← moment cells).bind fun m =>
          (m.withBoth.written? pattern).map Cell.text
  | "timediff" =>
    match cells with
    | [a, b] =>
      match ← moment [a] with
      | none => return none
      | some a => return (← moment [b]).map fun b => text (difference a b)
    | _ => return none
  | _ => return none

end Moment

end LayeredPreferences.Database

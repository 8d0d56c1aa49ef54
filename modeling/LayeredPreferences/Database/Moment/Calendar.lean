import LayeredPreferences.Database.Content

set_option autoImplicit false

/-!
# Moments and the calendar

A moment is known by its date and its time of day, or by an instant: the
milliseconds since noon of the day on which the count of days began. Each is worked
out of the other where it is needed.
-/
namespace LayeredPreferences.Database

structure CalendarDate where
  year : Int
  month : Int
  day : Int

structure ClockTime where
  hour : Int
  minute : Int
  second : Binary64

structure Moment where
  instant : Option Int
  date : Option CalendarDate
  time : Option ClockTime
  offset : Int
  raw : Option Binary64
  excess : Int
  hasFraction : Bool
  isBeyond : Bool

namespace Moment

def empty : Moment := ⟨none, none, none, 0, none, 0, false, false⟩

def beyond : Moment := { empty with isBeyond := true }

abbrev dayLength : Int := 86400000

abbrev epoch : Int := 210866760000000

abbrev lastInstant : Int := 464269060799999

def isInstant (n : Int) : Bool := 0 ≤ n && n ≤ lastInstant

def real (n : Int) : Binary64 := Cell.realOfInt n

def ratio (num den : Int) : Binary64 := (real num).quotient (real den)

def half : Binary64 := ratio 1 2

def isLess (x y : Binary64) : Bool := x.signedUnits < y.signedUnits

def roundedUp (x : Binary64) : Int := Cell.wholeOfReal (x.sum half)

def startOfDay (date : CalendarDate) : Int :=
  let (year, month) := if date.month ≤ 2 then (date.year - 1, date.month + 12)
    else (date.year, date.month)
  let century := year.tdiv 100
  let leapDays := 2 - century + century.tdiv 4
  let days := (36525 * (year + 4716)).tdiv 100 + (306001 * (month + 1)).tdiv 10000 + date.day
    + leapDays
  (2 * days - 3049) * 43200000

def dateOf (instant : Int) : CalendarDate :=
  let z := (instant + 43200000) / dayLength
  let century := (4 * z - 7468865).tdiv 146097
  let b := z + 1 + century - century.tdiv 4 + 1524
  let c := (20 * b - 2442).tdiv 7305
  let d := (36525 * c).tdiv 100
  let e := (10000 * (b - d)).tdiv 306001
  let month := if e < 14 then e - 1 else e - 13
  ⟨if 2 < month then c - 4716 else c - 4715, month, b - d - (306001 * e).tdiv 10000⟩

def timeOf (instant : Int) : ClockTime :=
  let millis := (instant + 43200000).tmod dayLength
  let minutes := millis.tdiv 60000
  ⟨minutes.tdiv 60, minutes.tmod 60, ratio (millis.tmod 60000) 1000⟩

def firstDate : CalendarDate := ⟨2000, 1, 1⟩

def millis (time : ClockTime) : Int :=
  time.hour * 3600000 + time.minute * 60000 + roundedUp (time.second.product (real 1000))

def withInstant (m : Moment) : Moment :=
  if m.instant.isSome then m
  else
    let date := m.date.getD firstDate
    if date.year < -4713 ∨ 9999 < date.year ∨ m.raw.isSome then beyond
    else match m.time with
      | none => { m with instant := some (startOfDay date) }
      | some time =>
        let instant := startOfDay date + millis time
        if m.offset = 0 then { m with instant := some instant }
        else { m with
          instant := some (instant - m.offset * 60000), date := none, time := none, offset := 0 }

def withDate (m : Moment) : Moment :=
  if m.date.isSome then m
  else match m.instant with
    | none => { m with date := some firstDate }
    | some instant => if isInstant instant then { m with date := some (dateOf instant) } else beyond

def withTime (m : Moment) : Moment :=
  if m.time.isSome then m
  else
    let m := m.withInstant
    { m with time := some (timeOf (m.instant.getD 0)), raw := none }

def withBoth (m : Moment) : Moment := m.withDate.withTime

def theDate (m : Moment) : CalendarDate := m.date.getD firstDate

def theTime (m : Moment) : ClockTime := m.time.getD ⟨0, 0, real 0⟩

def theInstant (m : Moment) : Int := m.instant.getD 0

def atInstant (m : Moment) (instant : Int) : Moment :=
  { m with instant := some instant, date := none, time := none, offset := 0 }

/-- So many milliseconds later, and known by nothing but its instant. It can lie beyond all that are
    known. -/
def later (m : Moment) (millis : Int) : Moment :=
  let m := m.withInstant
  { m with instant := m.instant.map (· + millis), date := none, time := none, offset := 0 }

def excessOf (date : CalendarDate) : Int :=
  if date.day ≤ 28 ∨ [1, 3, 5, 7, 8, 10, 12].contains date.month then 0
  else if date.month ≠ 2 then if date.day = 31 then 1 else 0
  else if date.year.tmod 4 ≠ 0 ∨ date.year.tmod 100 = 0 ∧ date.year.tmod 400 ≠ 0 then date.day - 28
  else date.day - 29

end Moment

end LayeredPreferences.Database

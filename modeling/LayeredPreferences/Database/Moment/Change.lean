import LayeredPreferences.Database.Moment.Reading

set_option autoImplicit false

/-!
# Changes of moments

A change is told in words: a time that is added or taken away, the start of a day, a
month or a year, a day of the week, or what a number means.
-/
namespace LayeredPreferences.Database

namespace Moment

structure Unit where
  name : String
  limit : Int
  seconds : Int

/-- The units of time, the limits as they are kept in 32 bits. -/
def units : List Unit :=
  [⟨"second", 464269992787968, 1⟩, ⟨"minute", 7737900007424, 60⟩, ⟨"hour", 128969998336, 3600⟩,
    ⟨"day", 5373485, 86400⟩, ⟨"month", 176546, 2592000⟩, ⟨"year", 14713, 31536000⟩]

def normal (date : CalendarDate) : CalendarDate :=
  let years := if 0 < date.month then (date.month - 1).tdiv 12 else (date.month - 12).tdiv 12
  { date with year := date.year + years, month := date.month - years * 12 }

def onDate (m : Moment) (date : CalendarDate) : Moment :=
  { m with date := some date, excess := excessOf date, instant := none }

/-- Takes a number for days or for seconds, whichever it can be. -/
def settled (m : Moment) : Moment :=
  match m.raw, m.instant with
  | some x, none =>
    if isLess x (real (-210866760000)) || isLess (real 253402300799) x then m
    else
      { m.atInstant (roundedUp ((x.product (real 1000)).sum (real epoch))) with raw := none }
  | _, _ => { m with raw := none }

def ofSeconds? (m : Moment) : Option Moment := do
  let x := ((← m.raw).product (real 1000)).sum (real epoch)
  if isLess x (real 0) || !isLess x (real (lastInstant + 1)) then none
  else some { m.atInstant (roundedUp x) with raw := none }

def onWeekday? (m : Moment) (cs : List Char) : Option Moment := do
  let n ← (← number? cs).toInt?
  if n < 0 ∨ 7 ≤ n then none
  else
    let m := { m.withBoth with offset := 0, instant := none }
    let m := m.withInstant
    let today := ((m.theInstant + 129600000).tdiv dayLength).tmod 7
    let today := if n < today then today - 7 else today
    some (m.later ((n - today) * dayLength))

def startOf? (m : Moment) (what : String) : Option Moment :=
  if m.instant.isNone ∧ m.date.isNone ∧ m.time.isNone then none
  else
    let m := m.withDate
    let m := { m with time := some ⟨0, 0, real 0⟩, raw := none, offset := 0, instant := none }
    let date := m.theDate
    match what with
    | "month" => some { m with date := some { date with day := 1 } }
    | "year" => some { m with date := some { date with month := 1, day := 1 } }
    | "day" => some m
    | _ => none

/-- Adds so many of a unit. Months and years are counted in the calendar, and what is left of them
    in days. -/
def added? (m : Moment) (x : Binary64) (name : List Char) : Option Moment := do
  if name.length < 3 ∨ 10 < name.length then none
  let word := (String.ofList name).toLower
  let word := if word.endsWith "s" then (word.dropEnd 1).toString else word
  let unit ← units.find? fun unit => unit.name = word
  if !isLess (real (-unit.limit)) x || !isLess x (real unit.limit) then none
  let rounder := if isLess x (real 0) then half.opposite else half
  let m := { m.withInstant with excess := 0 }
  let n := Cell.wholeOfReal x
  let (m, x) :=
    if unit.name = "month" then
      let m := m.withBoth
      (m.onDate (normal { m.theDate with month := m.theDate.month + n }), x.sum (real (-n)))
    else if unit.name = "year" then
      let m := m.withBoth
      (m.onDate { m.theDate with year := m.theDate.year + n }, x.sum (real (-n)))
    else (m, x)
  let millis := ((x.product (real 1000)).product (real unit.seconds)).sum rounder
  return m.later (Cell.wholeOfReal millis)

def addedTime? (m : Moment) (isNegative : Bool) (cs : List Char) : Option Moment := do
  let (time, offset) ← time? (if cs.head?.any Char.isDigit then cs else cs.drop 1)
  let other := { empty with time := some time, offset := offset }
  let other := (other.withInstant.theInstant - 43200000).tmod dayLength
  return m.later (if isNegative then -other else other)

def addedDate? (m : Moment) (isNegative : Bool) (years : Nat) (cs : List Char) :
    Option Moment := do
  let (change, rest) ← date? years 0 11 0 30 cs
  let m := { m.withBoth with instant := none }
  let sign := if isNegative then -1 else 1
  let date := m.theDate
  let m := m.onDate (normal { date with
    year := date.year + sign * change.year, month := date.month + sign * change.month })
  let m := m.withInstant
  let instant := m.instant.map (· + sign * change.day * dayLength)
  let m := { m with instant := instant, date := none, time := none }
  match rest with
  | [] => return m
  | c :: rest =>
    if isBlank c && (pair? 24 rest).isSome then m.addedTime? isNegative rest else none

def numberLength (cs : List Char) : Nat :=
  1 + go 1 (cs.drop 1)
where
  go (n : Nat) : List Char → Nat
    | [] => 0
    | c :: rest =>
      let isYear := c = '-' && (n = 5 || n = 6) && (digits? (n - 1) 0 14712 (cs.drop 1)).isSome
      if c = ':' || isBlank c || isYear then 0 else 1 + go (n + 1) rest

def counted? (m : Moment) (cs : List Char) : Option Moment := do
  let n := numberLength cs
  let x ← number? (cs.take n)
  let rest := cs.drop n
  let isNegative := cs.head? = some '-'
  if rest.head? = some '-' then
    if isNegative || cs.head? = some '+' then m.addedDate? isNegative (n - 1) (cs.drop 1) else none
  else if rest.head? = some ':' then m.addedTime? isNegative cs
  else m.added? x (rest.dropWhile isBlank)

def changed? (name : String) (m : Moment) (i : Nat) (cs : List Char) :
    Except FunctionFault (Option Moment) :=
  let word := (String.ofList cs).toLower
  let wordIs (start : String) : Bool := start.toList.isPrefixOf word.toList
  if word = "auto" then .ok (if i = 1 then some m.settled else none)
  else if word = "ceiling" then
    .ok (some { m.later 0 with excess := 0 })
  else if word = "floor" then
    .ok (some (m.later (-m.excess * dayLength)))
  else if word = "julianday" then
    .ok (if i = 1 ∧ m.instant.isSome ∧ m.raw.isSome then some { m with raw := none } else none)
  else if word = "unixepoch" then .ok (if i = 1 then m.ofSeconds? else none)
  else if word = "localtime" ∨ word = "utc" then .error (.changing name)
  else if wordIs "weekday " then .ok (m.onWeekday? (cs.drop 8))
  else if wordIs "start of " then .ok (m.startOf? (String.ofList (word.toList.drop 9)))
  else if isFractionWord cs then .ok (some { m with hasFraction := true })
  else if cs.head?.any fun c => c.isDigit || c = '+' || c = '-' then .ok (m.counted? cs)
  else .ok none

end Moment

end LayeredPreferences.Database

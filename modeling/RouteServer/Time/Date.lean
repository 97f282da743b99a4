/-!
# Time — Date

Days of the calendar, which is the Gregorian one throughout, and their numbers: the first of January
1970 has number zero.  Years begin in March here, so that the day that not every year has is the
last one, and four hundred years always have as many days.
-/

namespace RouteServer.Time

/-- A day of the calendar. -/
structure Date where
  year : Int
  month : Nat
  day : Nat
  deriving DecidableEq, Repr

namespace Date

/-- Whether a year has a 29th of February. -/
def isLeap (year : Int) : Bool := year % 4 = 0 && (year % 100 ≠ 0 || year % 400 = 0)

/-- How many days a month has. -/
def daysIn (year : Int) (month : Nat) : Nat :=
  if month = 2 then (if isLeap year then 29 else 28)
  else if month = 4 ∨ month = 6 ∨ month = 9 ∨ month = 11 then 30
  else 31

/-- Whether there is such a day.  Years reach about as far as 18 bits allow. -/
def isValid (d : Date) : Bool :=
  -262143 ≤ d.year && d.year ≤ 262142 && 1 ≤ d.month && d.month ≤ 12 &&
    1 ≤ d.day && d.day ≤ daysIn d.year d.month

/-- The days of four hundred years. -/
def daysPerCycle : Int := 146097

/-- How many days the first of March of the year zero comes before the first of January 1970. -/
def epochShift : Int := 719468

/-- The number of a day. -/
def number (d : Date) : Int :=
  let year := if d.month ≤ 2 then d.year - 1 else d.year
  let cycle := year.fdiv 400
  let ofCycle := year - cycle * 400
  let month := (d.month + 9) % 12
  let ofYear : Nat := (153 * month + 2) / 5 + d.day - 1
  cycle * daysPerCycle + ofCycle * 365 + ofCycle / 4 - ofCycle / 100 + ofYear - epochShift

/-- The day with a number. -/
def ofNumber (n : Int) : Date :=
  let shifted := n + epochShift
  let cycle := shifted.fdiv daysPerCycle
  let inCycle := (shifted - cycle * daysPerCycle).toNat
  let ofCycle := (inCycle - inCycle / 1460 + inCycle / 36524 - inCycle / 146096) / 365
  let inYear := inCycle - (365 * ofCycle + ofCycle / 4 - ofCycle / 100)
  let month := (5 * inYear + 2) / 153
  let day := inYear - (153 * month + 2) / 5 + 1
  let early := month ≥ 10
  { year := cycle * 400 + ofCycle + (if early then 1 else 0)
    month := if early then month - 9 else month + 3
    day }

end Date

end RouteServer.Time

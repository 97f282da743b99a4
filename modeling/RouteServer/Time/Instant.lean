import RouteServer.Power
import RouteServer.Text.Blank
import RouteServer.Text.Numeral
import RouteServer.Time.Date
import RouteServer.Time.Span

/-!
# Time — Instant

Points in time.  Within a second a point has up to two seconds' worth of nanoseconds: those past the
first belong to a second that has been put in, which is the sixtieth of its minute.

The written form is a date and a time with `T` between them, and `Z` for the offset, which is zero
(`2000-01-01T00:00:00Z`).  The reader is wider: numbers need no leading zeros, blanks may stand in
front of them and of the marks between them, and any offset counts.

How far a point lies from the present is said in words: one unit, roughly.  A span counts in a unit
from somewhat less than one of it on, and as two of it from one and a half on.
-/

namespace RouteServer.Time

open RouteServer.Text

/-- A point in time: whole seconds since the first of January 1970, and nanoseconds. -/
structure Instant where
  seconds : Int
  nanos : Nat := 0
  deriving DecidableEq, Repr

namespace Instant

/-- Whether a point comes before another. -/
def isBefore (a b : Instant) : Bool :=
  a.seconds < b.seconds || (a.seconds = b.seconds && a.nanos < b.nanos)

/-- The whole seconds from `a` to `b`; they are counted towards zero. -/
def secondsTo (a b : Instant) : Int :=
  ((b.seconds - a.seconds) * nanosPerSecond + b.nanos - a.nanos).tdiv nanosPerSecond

/-! ### Writing -/

/-- A year: four digits, or a sign and at least four when four do not suffice. -/
def yearText (year : Int) : List Char :=
  if 0 ≤ year ∧ year ≤ 9999 then padded 4 year.natAbs
  else (if year < 0 then '-' else '+') :: padded 4 year.natAbs

/-- The part of a second: thousandths, millionths or nanoseconds, whichever suffices. -/
def fractionText (nanos : Nat) : List Char :=
  if nanos = 0 then []
  else if nanos % 1000000 = 0 then '.' :: padded 3 (nanos / 1000000)
  else if nanos % 1000 = 0 then '.' :: padded 6 (nanos / 1000)
  else '.' :: padded 9 nanos

/-- The text of a point in time. -/
def text (i : Instant) : String :=
  let date := Date.ofNumber (i.seconds.fdiv 86400)
  let inDay := (i.seconds.fmod 86400).toNat
  let extra := i.nanos / nanosPerSecond
  String.ofList <|
    yearText date.year ++ '-' :: padded 2 date.month ++ '-' :: padded 2 date.day ++
    'T' :: padded 2 (inDay / 3600) ++ ':' :: padded 2 (inDay % 3600 / 60) ++
    ':' :: padded 2 (inDay % 60 + extra) ++ fractionText (i.nanos % nanosPerSecond) ++ ['Z']

/-! ### Reading -/

/-- At most `width` digits: their value, how many there are, and the rest. -/
def takeNumber : Nat → Nat → Nat → List Char → Nat × Nat × List Char
  | 0, n, count, cs => (n, count, cs)
  | _ + 1, n, count, [] => (n, count, [])
  | width + 1, n, count, c :: cs =>
    match digit? c with
    | some d => takeNumber width (10 * n + d) (count + 1) cs
    | none => (n, count, c :: cs)

/-- A number of at most `width` digits and at least one. -/
def number? (width : Nat) (cs : List Char) : Option (Nat × List Char) :=
  match takeNumber width 0 0 cs with
  | (_, 0, _) => none
  | (n, _, rest) => some (n, rest)

/-- A number that lies between two bounds; blanks in front do not count. -/
def bounded? (low high : Nat) (cs : List Char) : Option (Nat × List Char) :=
  (number? 2 (trimStart cs)).bind fun (n, rest) =>
    if low ≤ n ∧ n ≤ high then some (n, rest) else none

/-- A year: up to four digits, or a sign and any number of them. -/
def year? (cs : List Char) : Option (Int × List Char) :=
  match trimStart cs with
  | '-' :: cs => (number? cs.length cs).map fun (n, rest) => (-n, rest)
  | '+' :: cs => (number? cs.length cs).map fun (n, rest) => ((n : Int), rest)
  | cs => (number? 4 cs).map fun (n, rest) => ((n : Int), rest)

/-- What follows a mark; blanks in front do not count. -/
def behind? (mark : Char) (cs : List Char) : Option (List Char) :=
  match trimStart cs with
  | c :: cs => if c = mark then some cs else none
  | [] => none

/-- The nanoseconds of a fraction, of which nine digits count. -/
def fraction? : List Char → Option (Nat × List Char)
  | '.' :: cs =>
    match takeNumber 9 0 0 cs with
    | (_, 0, _) => none
    | (n, count, rest) => some (n * tenTo (9 - count), rest.dropWhile fun c => (digit? c).isSome)
  | cs => some (0, cs)

/-- The two digits a text starts with. -/
def twoDigits? : List Char → Option (Nat × List Char)
  | c :: d :: rest => do
    let c ← digit? c
    let d ← digit? d
    some (10 * c + d, rest)
  | _ => none

/-- An offset in seconds: `Z`, `UTC`, or hours and minutes with a sign in front. -/
def offset? (cs : List Char) : Option (Int × List Char) :=
  match cs with
  | 'Z' :: cs | 'z' :: cs => some (0, cs)
  | sign :: body =>
    if (cs.take 3).map Char.toUpper = ['U', 'T', 'C'] then some (0, cs.drop 3)
    else do
      let negative ← if sign = '+' then some false
        else if sign = '-' ∨ sign = '−' then some true else none
      let (hours, rest) ← twoDigits? body
      let (minutes, rest) ← twoDigits? (rest.dropWhile fun c => c = ':' || isBlank c)
      let total : Int := hours * 3600 + minutes * 60
      if minutes < 60 ∧ hours < 24 then some (if negative then -total else total, rest) else none
  | [] => none

/-- Reads a point in time. -/
def read (text : String) : Option Instant := do
  let (year, cs) ← year? text.toList
  let (month, cs) ← bounded? 1 12 (← behind? '-' cs)
  let (day, cs) ← bounded? 1 31 (← behind? '-' cs)
  let cs ← match cs with
    | 'T' :: cs | 't' :: cs | ' ' :: cs => some cs
    | _ => none
  let (hour, cs) ← bounded? 0 23 cs
  let (minute, cs) ← bounded? 0 59 (← behind? ':' cs)
  let (second, cs) ← bounded? 0 60 (← behind? ':' cs)
  let (nanos, cs) ← fraction? cs
  let (offset, cs) ← offset? (trimStart cs)
  let date : Date := ⟨year, month, day⟩
  let inDay : Int := hour * 3600 + minute * 60 + min second 59
  let seconds := date.number * 86400 + inDay - offset
  if trimStart cs = [] ∧ date.isValid ∧ (Date.ofNumber (seconds.fdiv 86400)).isValid then
    some { seconds, nanos := nanos + if second = 60 then nanosPerSecond else 0 }
  else none

end Instant

/-! ### Distances -/

/-- A unit of rough spans. -/
structure RoughUnit where
  /-- Spans of more seconds than this count in the unit. -/
  singleAbove : Nat
  /-- Spans of more seconds than this count as several. -/
  severalAbove : Nat
  seconds : Nat
  single : String
  several : String

/-- The units, longest first. -/
def roughUnits : List RoughUnit :=
  [⟨345 * 86400, 547 * 86400, 365 * 86400, "a year", "years"⟩,
   ⟨29 * 86400, 45 * 86400, 30 * 86400, "a month", "months"⟩,
   ⟨6 * 86400 + 12 * 3600, 10 * 86400 + 12 * 3600, 7 * 86400, "a week", "weeks"⟩,
   ⟨22 * 3600, 36 * 3600, 86400, "a day", "days"⟩,
   ⟨45 * 60, 90 * 60, 3600, "an hour", "hours"⟩,
   ⟨45, 90, 60, "a minute", "minutes"⟩]

/-- The seconds that still count as the present. -/
def presentSeconds : Nat := 10

/-- A span of seconds in words. -/
def roughText (seconds : Nat) : String :=
  match roughUnits.find? fun u => u.singleAbove < seconds with
  | some u =>
    if u.severalAbove < seconds then natText (max (seconds / u.seconds) 2) ++ " " ++ u.several
    else u.single
  | none => if presentSeconds < seconds then natText seconds ++ " seconds" else "now"

/-- Where a point in time lies, seen from the present. -/
def distanceText (now i : Instant) : String :=
  let ahead := now.secondsTo i
  let text := roughText ahead.natAbs
  if ahead.natAbs ≤ presentSeconds then text
  else if ahead < 0 then text ++ " ago"
  else "in " ++ text

end RouteServer.Time

import RouteServer.Text.Blank
import RouteServer.Text.Numeral

/-!
# Time — Span

Lengths of time and their texts.  A text is a sum of amounts, each a number with a unit behind it
(`1h 30m`, `2days`, `1.5h`); blanks do not count in front of a unit nor within a number.  The
amounts of a printed span go from years to nanoseconds, and those that are zero are left out.

Every intermediate value has to fit 64 bits.
-/

namespace RouteServer.Time

open RouteServer.Text

/-- A length of time. -/
structure Span where
  nanoseconds : Nat
  deriving DecidableEq, Repr

/-- Nanoseconds of a second. -/
def nanosPerSecond : Nat := 1000000000

namespace Span

/-- The whole seconds of a span. -/
def seconds (s : Span) : Nat := s.nanoseconds / nanosPerSecond

/-- The span of some seconds. -/
def ofSeconds (n : Nat) : Span := ⟨n * nanosPerSecond⟩

/-! ### Units -/

/-- A unit: so many seconds, or so many nanoseconds when it is less than a second. -/
inductive Scale where
  | seconds (n : Nat)
  | nanoseconds (n : Nat)
  deriving DecidableEq, Repr

/-- The seconds of a year, of which there are 365.25 days. -/
def yearSeconds : Nat := 31557600

/-- The seconds of a month, of which there are 30.44 days. -/
def monthSeconds : Nat := 2630016

/-- The names of the units. -/
def units : List (List String × Scale) :=
  [(["nanos", "nsec", "ns"], .nanoseconds 1),
   (["usec", "us", "µs"], .nanoseconds 1000),
   (["millis", "msec", "ms"], .nanoseconds 1000000),
   (["seconds", "second", "secs", "sec", "s"], .seconds 1),
   (["minutes", "minute", "min", "mins", "m"], .seconds 60),
   (["hours", "hour", "hr", "hrs", "h"], .seconds 3600),
   (["days", "day", "d"], .seconds 86400),
   (["weeks", "week", "wk", "wks", "w"], .seconds 604800),
   (["months", "month", "M"], .seconds monthSeconds),
   (["years", "year", "yr", "yrs", "y"], .seconds yearSeconds)]

/-- The unit with a name. -/
def unit? (name : List Char) : Option Scale :=
  (units.find? fun u => u.1.contains (String.ofList name)).map (·.2)

/-! ### Reading -/

/-- A number that fits 64 bits. -/
def fit (n : Nat) : Option Nat := if n ≤ maxWord64 then some n else none

/-- A decimal fraction. -/
structure Fraction where
  numerator : Nat := 0
  denominator : Nat := 1

/-- A span with some seconds and nanoseconds more. -/
def add (s : Span) (seconds nanos : Nat) : Option Span := do
  let nanos ← fit (s.nanoseconds % nanosPerSecond + nanos)
  let total := s.seconds + seconds + nanos / nanosPerSecond
  let _ ← fit total
  some ⟨total * nanosPerSecond + nanos % nanosPerSecond⟩

/-- A span with an amount more. -/
def addWhole (s : Span) (n : Nat) : Scale → Option Span
  | .seconds k => (fit (n * k)).bind fun m => s.add m 0
  | .nanoseconds k => (fit (n * k)).bind fun m => s.add 0 m

/-- A span with a part of a unit more.  Of an hour or a longer unit whole seconds count, and there
is no part of a nanosecond. -/
def addPart (s : Span) (f : Fraction) : Scale → Option Span
  | .nanoseconds 1 => none
  | .nanoseconds k => (fit (f.numerator * k)).bind fun m => s.add 0 (m / f.denominator)
  | .seconds k =>
    if k < 3600 then
      (fit (f.numerator * (k * nanosPerSecond))).bind fun m => s.add 0 (m / f.denominator)
    else (fit (f.numerator * k)).bind fun m => s.add (m / f.denominator) 0

/-- A span with an amount and a part of a unit more. -/
def addAmount (s : Span) (n : Nat) (f : Option Fraction) (name : List Char) : Option Span := do
  let scale ← unit? name
  let s ← s.addWhole n scale
  match f with
  | some f => s.addPart f scale
  | none => some s

/-- A character of the name of a unit. -/
def isUnitChar (c : Char) : Bool :=
  ('a' ≤ c && c ≤ 'z') || ('A' ≤ c && c ≤ 'Z') || c = 'µ'

/-- The digits of a fraction; the answer starts with the name of the unit. -/
def readFraction : Bool → Fraction → List Char → Option (Fraction × List Char)
  | _, f, [] => if f.denominator = 1 then none else some (f, [])
  | started, f, c :: cs =>
    match digit? c with
    | some d =>
      if d = 0 ∧ !started then
        readFraction false ⟨0, min (f.denominator * 10) maxWord64⟩ cs
      else if d = 0 then do
        let n ← fit (f.numerator * 10)
        readFraction true ⟨n, min (f.denominator * 10) maxWord64⟩ cs
      else do
        let den ← fit (f.denominator * 10)
        let n ← fit (f.numerator * 10 + d)
        readFraction true ⟨n, den⟩ cs
    | none =>
      if isBlank c then readFraction started f cs
      else if isUnitChar c then
        if f.denominator = 1 then none else some (f, c :: cs)
      else none

/-- The rest of a number whose value so far is `n`; the answer starts with the name of the unit. -/
def readAmount : Nat → List Char → Option (Nat × Option Fraction × List Char)
  | n, [] => some (n, none, [])
  | n, c :: cs =>
    match digit? c with
    | some d => (fit (n * 10 + d)).bind fun n => readAmount n cs
    | none =>
      if isBlank c then readAmount n cs
      else if isUnitChar c then some (n, none, c :: cs)
      else if c = '.' then (readFraction false {} cs).map fun (f, cs) => (n, some f, cs)
      else none

/-- Reads amounts onto a span, at most `fuel` of them. -/
def readAmounts : Nat → Span → List Char → Option Span
  | 0, _, _ => none
  | fuel + 1, s, cs =>
    match trimStart cs with
    | [] => some s
    | c :: cs => do
      let d ← digit? c
      let (n, f, cs) ← readAmount d cs
      let name := cs.takeWhile isUnitChar
      let rest := cs.dropWhile isUnitChar
      match rest with
      | [] =>
        let s ← s.addAmount n f name
        some s
      | r :: _ =>
        if isBlank r ∨ (digit? r).isSome then
          let s ← s.addAmount n f name
          readAmounts fuel s rest
        else none

/-- Reads a span. -/
def read (text : String) : Option Span :=
  if text = "0" then some ⟨0⟩
  else if (trim text.toList).isEmpty then none
  else readAmounts (text.length + 1) ⟨0⟩ text.toList

/-! ### Writing -/

/-- An amount with its unit; nothing when it is zero. -/
def amountText (unit : String) (plural : String) (n : Nat) : List String :=
  if n = 0 then [] else [natText n ++ unit ++ (if n = 1 then "" else plural)]

/-- The text of a span. -/
def text (s : Span) : String :=
  let total := s.seconds
  let nanos := s.nanoseconds % nanosPerSecond
  let inYear := total % yearSeconds
  let inMonth := inYear % monthSeconds
  let inDay := inMonth % 86400
  let amounts :=
    amountText "year" "s" (total / yearSeconds) ++ amountText "month" "s" (inYear / monthSeconds) ++
    amountText "day" "s" (inMonth / 86400) ++ amountText "h" "" (inDay / 3600) ++
    amountText "m" "" (inDay % 3600 / 60) ++ amountText "s" "" (inDay % 60) ++
    amountText "ms" "" (nanos / 1000000) ++ amountText "us" "" (nanos / 1000 % 1000) ++
    amountText "ns" "" (nanos % 1000)
  if amounts.isEmpty then "0s" else " ".intercalate amounts

end Span

end RouteServer.Time

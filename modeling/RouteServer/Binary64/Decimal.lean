import RouteServer.Binary64.Basic
import RouteServer.Text.Numeral

/-!
# Binary64 — Decimal

Decimal texts of floating-point numbers.  `ofDecimal` gives the number nearest to `d · 10^e`.
`shortest` gives the fewest digits that read back as the number, and of those the nearest to it:
the decimal grids of 1, 2, … 17 digits are tried in turn, and on each the two neighbours of the
value.

Two texts are made of these digits.  `scientific` is positional while the decimal point stays
within sixteen digits and no more than five places in front of them, keeps one place after the
point, and writes an exponent otherwise.  `positional` never writes an exponent and no point
after a whole number.

There is a quick reading of decimals, too (`ofScaled?`): the digits that fit a word as a number,
multiplied or divided by a power of ten.  Both the number and the power are rounded before the result
is, so the result is near the decimal but need not be the nearest number; it is that when number and
power are exact.
-/

namespace RouteServer.Binary64

open RouteServer.Text

/-- The number nearest to `d · 10^e`. -/
def ofDecimal (negative : Bool) (d : Nat) (e : Int) : Binary64 :=
  if d = 0 then zero negative
  else
    let place := ((digits d).length : Int) + e
    if place > 400 then infinity negative
    else if place < -400 then zero negative
    else if e ≥ 0 then ofRatio negative (d * tenTo e.toNat) 1
    else ofRatio negative d (tenTo (-e).toNat)

/-- Digits and the place of the decimal point counted from their left end: `(d, k)` with `n`
digits stands for `d · 10^(k - n)`. -/
structure Digits where
  value : Nat
  count : Nat
  place : Int
  deriving DecidableEq, Repr

/-- The digits without zeros at their end. -/
def Digits.trimmed (value : Nat) (place : Int) : Nat → Digits
  | 0 => ⟨value, 0, place⟩
  | n + 1 =>
    if value % 10 = 0 ∧ value ≠ 0 then trimmed (value / 10) place n else ⟨value, n + 1, place⟩

/-- The fewest digits that lie within the numbers that round to `m · 2^q`. -/
def shortestOf (m : Nat) (q : Int) : Digits :=
  -- all reals below are quarters of a unit in the last binary place
  let lowGap := if m = twoTo 52 ∧ q > -1074 then 1 else 2
  let scale := shifted 1 1 (q - 2)
  let num := 4 * m * scale.1
  let den := scale.2
  let low := (4 * m - lowGap) * scale.1
  let high := (4 * m + 2) * scale.1
  let closed := m % 2 = 0
  let rough : Int := ((digits num).length : Int) - (digits den).length
  let aboveRough := if rough ≥ 0 then num ≥ den * tenTo rough.toNat
    else num * tenTo (-rough).toNat ≥ den
  let place : Int := if aboveRough then rough + 1 else rough
  go num den low high closed place 17 1
where
  /-- Tries `left` grids, the first of `n` digits. -/
  go (num den low high : Nat) (closed : Bool) (place : Int) : Nat → Nat → Digits
    | 0, n => ⟨0, n, place⟩
    | left + 1, n =>
      -- the value and the ends of the interval in units of the grid: x / unit
      let e : Int := place - n
      let up := if e < 0 then tenTo (-e).toNat else 1
      let unit := if e ≥ 0 then den * tenTo e.toNat else den
      let below := num * up / unit
      let inside (d : Nat) : Bool :=
        if closed then low * up ≤ d * unit && d * unit ≤ high * up
        else low * up < d * unit && d * unit < high * up
      let gapBelow := num * up - below * unit
      let gapAbove := (below + 1) * unit - num * up
      match inside below, inside (below + 1) with
      | true, true =>
        let d := if gapBelow < gapAbove then below
          else if gapAbove < gapBelow then below + 1
          else if below % 2 = 0 then below else below + 1
        settle d n place
      | true, false => settle below n place
      | false, true => settle (below + 1) n place
      | false, false => go num den low high closed place left (n + 1)
  /-- A value that has reached the next power of ten has one more digit. -/
  settle (d n : Nat) (place : Int) : Digits :=
    if d = tenTo n then ⟨1, 1, place + 1⟩ else Digits.trimmed d place n

/-- The fewest digits that read back as a finite number. -/
def shortest (x : Binary64) : Option Digits :=
  x.magnitude?.map fun (m, q) => if m = 0 then ⟨0, 1, 1⟩ else shortestOf m q

/-- The sign of a text. -/
def signText (x : Binary64) : String := if x.isNegative then "-" else ""

/-- Zeros. -/
def zeros (n : Nat) : List Char := List.replicate n '0'

/-- The text of a finite number that is positional from `1e-5` up to `1e16` and has an exponent
outside. -/
def scientific (x : Binary64) : String :=
  match x.shortest with
  | none => ""
  | some d =>
    let ds := padded d.count d.value
    let body :=
      if 0 < d.place ∧ d.place ≤ 16 then
        if (d.count : Int) ≤ d.place then
          ds ++ zeros (d.place.toNat - d.count) ++ ['.', '0']
        else ds.take d.place.toNat ++ '.' :: ds.drop d.place.toNat
      else if -5 < d.place ∧ d.place ≤ 0 then
        '0' :: '.' :: zeros (-d.place).toNat ++ ds
      else
        let e := (intText (d.place - 1)).toList
        match ds with
        | [c] => c :: 'e' :: e
        | c :: cs => c :: '.' :: cs ++ 'e' :: e
        | [] => []
    x.signText ++ String.ofList body

/-- The text of a number without an exponent. -/
def positional (x : Binary64) : String :=
  match x.shortest with
  | none => if x.isNaN then "NaN" else x.signText ++ "inf"
  | some d =>
    let ds := padded d.count d.value
    let body :=
      if (d.count : Int) ≤ d.place then ds ++ zeros (d.place.toNat - d.count)
      else if 0 < d.place then ds.take d.place.toNat ++ '.' :: ds.drop d.place.toNat
      else '0' :: '.' :: zeros (-d.place).toNat ++ ds
    x.signText ++ String.ofList body

/-- Reads digits as long as they last: their value after `n`, how many there are, and the rest. -/
def takeDigits : Nat → Nat → List Char → Nat × Nat × List Char
  | n, count, [] => (n, count, [])
  | n, count, c :: cs =>
    match digit? c with
    | some d => takeDigits (10 * n + d) (count + 1) cs
    | none => (n, count, c :: cs)

/-- Reads the exponent that may follow the digits: an `e` of either case, a sign, digits. -/
def readExponent (cs : List Char) : Option Int :=
  match cs with
  | [] => some 0
  | c :: cs =>
    if c = 'e' ∨ c = 'E' then
      let (negative, cs) := match cs with
        | '-' :: cs => (true, cs)
        | '+' :: cs => (false, cs)
        | cs => (false, cs)
      match takeDigits 0 0 cs with
      | (e, _ + 1, []) => some (if negative then -(e : Int) else e)
      | _ => none
    else none

/-- Reads a decimal: sign, digits with at most one point among or around them, exponent.  At
least one digit stands before the exponent. -/
def readDecimal (cs : List Char) : Option Binary64 :=
  let (negative, cs) := match cs with
    | '-' :: cs => (true, cs)
    | '+' :: cs => (false, cs)
    | cs => (false, cs)
  let (whole, wholeCount, cs) := takeDigits 0 0 cs
  let (value, places, cs) := match cs with
    | '.' :: cs => takeDigits whole 0 cs
    | cs => (whole, 0, cs)
  if wholeCount + places = 0 then none
  else (readExponent cs).map fun e => ofDecimal negative value (e - places)

/-! ### Quick reading -/

/-- Digits as long as their value fits 64 bits: the value, how many count, how many follow that do
not, and the rest. -/
def takeFitting : Nat → Nat → List Char → Nat × Nat × Nat × List Char
  | n, count, [] => (n, count, 0, [])
  | n, count, c :: cs =>
    match digit? c with
    | some d =>
      if 10 * n + d ≤ maxWord64 then takeFitting (10 * n + d) (count + 1) cs
      else
        let (_, more, rest) := takeDigits 0 0 (c :: cs)
        (n, count, more, rest)
    | none => (n, count, 0, c :: cs)

/-- The greatest power of ten that is a number. -/
def maxPower : Nat := 308

/-- The number nearest to `10^k`, which is a natural one. -/
def power (k : Nat) : Nat :=
  ((ofRatio false (tenTo k) 1).ratio?.map fun (a, b) => a.natAbs / b).getD 0

/-- The number nearest to `n · x` for a finite `x`. -/
def times (x : Binary64) (n : Nat) : Binary64 :=
  match x.ratio? with
  | some (a, b) => ofRatio x.isNegative (a.natAbs * n) b
  | none => x

/-- The number nearest to `x / n` for a finite `x`. -/
def dividedBy (x : Binary64) (n : Nat) : Binary64 :=
  match x.ratio? with
  | some (a, b) => ofRatio x.isNegative a.natAbs (b * n)
  | none => x

/-- Divides by the greatest power until what is left of `k` is one itself; after `fuel` divisions
nothing is left of a word. -/
def scaleDown (x : Binary64) : Nat → Nat → Binary64
  | 0, _ => x
  | fuel + 1, k =>
    if k ≤ maxPower then x.dividedBy (power k)
    else (x.dividedBy (power maxPower)).scaleDown fuel (k - maxPower)

/-- A word times a power of ten; none when the result is too great. -/
def ofScaled? (negative : Bool) (n : Nat) (e : Int) : Option Binary64 :=
  let x := ofRatio negative n 1
  if n = 0 then some x
  else if e < 0 then some (x.scaleDown 3 e.natAbs)
  else if e.natAbs ≤ maxPower then some (x.times (power e.natAbs)) |>.filter isFinite
  else none

end RouteServer.Binary64

import RouteServer.Power

/-!
# Binary64 — Basic

Floating-point numbers of 64 bits, held as their bits.  A finite number is `m · 2^q` for a
natural `m` below `2^53` and a `q` from -1074 on (`magnitude?`), and every operation works on that
pair in exact arithmetic: nothing here rounds except `ofRatio`, which gives the number nearest to
a quotient, ties going to the even neighbour.
-/

namespace RouteServer

/-- A floating-point number of 64 bits. -/
structure Binary64 where
  bits : UInt64
  deriving DecidableEq, Repr

namespace Binary64

/-- Whether the sign bit is set. -/
def isNegative (x : Binary64) : Bool := x.bits.toNat ≥ twoTo 63

/-- The eleven bits of the exponent. -/
def exponentField (x : Binary64) : Nat := x.bits.toNat / twoTo 52 % twoTo 11

/-- The fifty-two bits of the fraction. -/
def fractionField (x : Binary64) : Nat := x.bits.toNat % twoTo 52

/-- Whether the number is not a number. -/
def isNaN (x : Binary64) : Bool := x.exponentField = 2047 && x.fractionField ≠ 0

/-- Whether the number is neither infinite nor not a number. -/
def isFinite (x : Binary64) : Bool := x.exponentField ≠ 2047

/-- The `m` and `q` of a finite number `± m · 2^q`. -/
def magnitude? (x : Binary64) : Option (Nat × Int) :=
  if x.exponentField = 2047 then none
  else if x.exponentField = 0 then some (x.fractionField, -1074)
  else some (x.fractionField + twoTo 52, (x.exponentField : Int) - 1075)

/-- The number with the given sign and the other 63 bits. -/
def ofParts (negative : Bool) (rest : Nat) : Binary64 :=
  ⟨UInt64.ofNat (rest + if negative then twoTo 63 else 0)⟩

/-- The infinite number of the given sign. -/
def infinity (negative : Bool) : Binary64 := ofParts negative (2047 * twoTo 52)

/-- Not a number. -/
def nan : Binary64 := ofParts false (2047 * twoTo 52 + twoTo 51)

/-- Zero of the given sign. -/
def zero (negative : Bool) : Binary64 := ofParts negative 0

/-- The quotient rounded to a natural number, a half going to the even one. -/
def roundDiv (num den : Nat) : Nat :=
  let low := num / den
  let rest := 2 * (num % den)
  if rest < den then low else if den < rest then low + 1 else low + low % 2

/-- `x · 2^k` as a pair of numerator and denominator. -/
def shifted (num den : Nat) (k : Int) : Nat × Nat :=
  if k ≥ 0 then (num * twoTo k.toNat, den) else (num, den * twoTo (-k).toNat)

/-- The number nearest to `num / den`, for `den` not zero. -/
def ofRatio (negative : Bool) (num den : Nat) : Binary64 :=
  if num = 0 then zero negative
  else
    let k : Int := (num.log2 : Int) - den.log2
    let q₀ : Int := max (-1074) (k - 53)
    let wide := shifted num den (-q₀)
    let q : Int := if wide.1 / wide.2 ≥ twoTo 53 then q₀ + 1 else q₀
    let scaled := shifted num den (-q)
    let m := roundDiv scaled.1 scaled.2
    let (m, q) := if m = twoTo 53 then (twoTo 52, q + 1) else (m, q)
    if q > 971 then infinity negative
    else if m < twoTo 52 then ofParts negative m
    else ofParts negative ((q + 1075).toNat * twoTo 52 + (m - twoTo 52))

/-- The number nearest to an integer. -/
def ofInt (i : Int) : Binary64 := ofRatio (i < 0) i.natAbs 1

/-- The value of a finite number as numerator and denominator. -/
def ratio? (x : Binary64) : Option (Int × Nat) :=
  x.magnitude?.map fun (m, q) =>
    let (num, den) := shifted m 1 q
    (if x.isNegative then -(num : Int) else num, den)

/-- The order of two numbers; none when one of them is not a number. -/
def compare? (x y : Binary64) : Option Ordering :=
  if x.isNaN || y.isNaN then none
  else match x.ratio?, y.ratio? with
    | some (a, b), some (c, d) => some (compare (a * d) (c * b))
    | none, some _ => some (if x.isNegative then .lt else .gt)
    | some _, none => some (if y.isNegative then .gt else .lt)
    | none, none =>
      some (if x.isNegative = y.isNegative then .eq else if x.isNegative then .lt else .gt)

/-- Whether two numbers have one value: both zeros do, and what is not a number differs from all. -/
def sameValue (x y : Binary64) : Bool := x.compare? y = some .eq

/-- The number nearest to the sum. -/
def add (x y : Binary64) : Binary64 :=
  match x.ratio?, y.ratio? with
  | some (a, b), some (c, d) =>
    let num := a * d + c * b
    if num = 0 then zero (x.isNegative && y.isNegative)
    else ofRatio (num < 0) num.natAbs (b * d)
  | none, some _ => x
  | some _, none => y
  | none, none => if x = y then x else nan

end Binary64

end RouteServer

import RouteServer.Binary64.Decimal

/-!
# Number

The numbers of a document: an integer, or a floating-point number.  The two kinds stay apart even
where their values agree, so `1` and `1.0` are different numbers.
-/

namespace RouteServer

/-- A number of a document. -/
inductive Number where
  | int (i : Int)
  | float (x : Binary64)
  deriving DecidableEq, Repr

namespace Number

/-- The value of an integer that is not negative. -/
def natural? : Number → Option Nat
  | .int (.ofNat n) => some n
  | _ => none

/-- The number `n`. -/
def ofNat (n : Nat) : Number := .int n

/-- The text of a number as documents write it. -/
def text : Number → String
  | .int i => Text.intText i
  | .float x =>
    if x.isFinite then x.scientific
    else if x.isNaN then ".nan" else if x.isNegative then "-.inf" else ".inf"

/-- The least integer of 64 bits with a sign. -/
def leastInteger : Int := -9223372036854775808

/-- Whether an integer fits 64 bits, with or without a sign. -/
def fits (i : Int) : Bool := leastInteger ≤ i && i ≤ (Text.maxWord64 : Int)

end Number

end RouteServer

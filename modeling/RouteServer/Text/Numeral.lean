/-!
# Text — Numeral

Unsigned numbers in decimal.  `readNat max` reads a numeral whose value is at most `max`: an
optional `+`, then decimal digits, any number of leading zeros among them.  A text that is not
one is refused for one of three reasons, and the reason is the first one met when reading from
the left: a character that is no digit, or a value that has passed `max`.

`digits` writes a number in decimal, without sign or leading zeros.
-/

namespace RouteServer.Text

/-- Why a text is not a numeral of the wanted size. -/
inductive NumeralFault where
  | empty
  | badDigit
  | tooLarge
  deriving DecidableEq, Repr

/-- The wording of a fault. -/
def NumeralFault.message : NumeralFault → String
  | .empty => "cannot parse integer from empty string"
  | .badDigit => "invalid digit found in string"
  | .tooLarge => "number too large to fit in target type"

/-- The value of a decimal digit. -/
def digit? (c : Char) : Option Nat :=
  if '0' ≤ c ∧ c ≤ '9' then some (c.toNat - '0'.toNat) else none

/-- The value of a digit in base 16, of either case. -/
def hexDigit? (c : Char) : Option Nat :=
  if '0' ≤ c ∧ c ≤ '9' then some (c.toNat - '0'.toNat)
  else if 'a' ≤ c ∧ c ≤ 'f' then some (c.toNat - 'a'.toNat + 10)
  else if 'A' ≤ c ∧ c ≤ 'F' then some (c.toNat - 'A'.toNat + 10)
  else none

/-- Continues a numeral whose digits so far are worth `n`. -/
def readDigits (max : Nat) : Nat → List Char → Except NumeralFault Nat
  | n, [] => .ok n
  | n, c :: cs =>
    match digit? c with
    | none => .error .badDigit
    | some d => if 10 * n + d ≤ max then readDigits max (10 * n + d) cs else .error .tooLarge

/-- Reads a numeral of value at most `max`. -/
def readNat (max : Nat) : List Char → Except NumeralFault Nat
  | [] => .error .empty
  | ['+'] => .error .badDigit
  | '+' :: cs => readDigits max 0 cs
  | cs => readDigits max 0 cs

/-- The greatest number of 16 bits. -/
def maxWord16 : Nat := 65535

/-- The greatest number of 32 bits. -/
def maxWord32 : Nat := 4294967295

/-- The greatest number of 64 bits. -/
def maxWord64 : Nat := 18446744073709551615

/-- The decimal digit of value `d`, for `d < 10`. -/
def digitChar (d : Nat) : Char := Char.ofNat ('0'.toNat + d)

/-- The digits of `n`, most significant first. -/
def digits (n : Nat) : List Char :=
  if n < 10 then [digitChar n] else digits (n / 10) ++ [digitChar (n % 10)]

/-- The decimal text of `n`. -/
def natText (n : Nat) : String := String.ofList (digits n)

/-- The decimal text of `i`, with a minus sign when it is negative. -/
def intText (i : Int) : String :=
  if i < 0 then "-" ++ natText i.natAbs else natText i.natAbs

/-- The digits of `n` in base 16, in lower case, most significant first. -/
def hexDigits (n : Nat) : List Char :=
  let low := (n % 16)
  let c := if low < 10 then digitChar low else Char.ofNat ('a'.toNat + (low - 10))
  if n < 16 then [c] else hexDigits (n / 16) ++ [c]

/-- `n` in decimal with zeros in front up to `width` digits. -/
def padded (width n : Nat) : List Char :=
  let ds := digits n
  List.replicate (width - ds.length) '0' ++ ds

end RouteServer.Text

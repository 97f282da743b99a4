import RouteServer.Power
import RouteServer.Yaml.Value

/-!
# Yaml — Scalar — Resolve

The value of a scalar.  A plain one may be null, a truth value, an integer or a floating-point
number, and is a string otherwise; what is quoted is a string.

Integers are decimal, or have `0x`, `0o` or `0b` in front.  Zeros in front of decimal digits make a
string.  An integer that does not fit 64 bits but would fit 128 is no value at all; a greater one is
a floating-point number.
-/

namespace RouteServer.Yaml.Scalar

open RouteServer.Text

/-- A text without a plus sign in front. -/
def withoutPlus : List Char → List Char
  | '+' :: cs => cs
  | cs => cs

/-- A text without a sign in front. -/
def withoutSign : List Char → List Char
  | '+' :: cs | '-' :: cs => cs
  | cs => cs

/-- Whether a text starts with a sign. -/
def startsWithSign : List Char → Bool
  | '+' :: _ | '-' :: _ => true
  | _ => false

/-- Whether the digits of a text have zeros in front, which makes it a string. -/
def isPaddedDigits (cs : List Char) : Bool :=
  match withoutSign cs with
  | '0' :: c :: cs => (c :: cs).all fun x => (digit? x).isSome
  | _ => false

/-- The value of digits to a base, in which `value` gives that of one digit. -/
def readBase (base : Nat) (cs : List Char) : Option Nat :=
  if cs = [] then none
  else
    cs.foldlM
      (fun n c => (hexDigit? c).bind fun d => if d < base then some (base * n + d) else none) 0

/-- The magnitude of an integer: digits behind a mark for their base, or decimal ones. -/
def readMagnitude (cs : List Char) : Option Nat :=
  match cs with
  | '0' :: 'x' :: ds => readBase 16 ds
  | '0' :: 'o' :: ds => readBase 8 ds
  | '0' :: 'b' :: ds => readBase 2 ds
  | ds => readBase 10 ds

/-- The integer that a text spells, whatever its size. -/
def readInteger (cs : List Char) : Option Int :=
  if isPaddedDigits cs then none
  else match cs with
    | '-' :: ds => (readMagnitude ds).map fun n => -(n : Int)
    | cs => (readMagnitude (withoutPlus cs)).map fun n => (n : Int)

/-- The greatest integers of 128 bits, without and with a sign. -/
def fitsWide (i : Int) : Bool := -(twoTo 127 : Int) ≤ i && i < (twoTo 128 : Int)

/-- The floating-point number that a text spells. -/
def readFloat (cs : List Char) : Option Binary64 :=
  let unsigned := withoutPlus cs
  if unsigned ≠ cs ∧ startsWithSign unsigned then none
  else if [".inf", ".Inf", ".INF"].contains (String.ofList unsigned) then
    some (Binary64.infinity false)
  else if ["-.inf", "-.Inf", "-.INF"].contains (String.ofList cs) then
    some (Binary64.infinity true)
  else if [".nan", ".NaN", ".NAN"].contains (String.ofList cs) then some Binary64.nan
  else (Binary64.readDecimal unsigned).filter Binary64.isFinite

/-- The truth value that a text spells. -/
def readBool (s : String) : Option Bool :=
  if ["true", "True", "TRUE"].contains s then some true
  else if ["false", "False", "FALSE"].contains s then some false
  else none

/-- Whether a text spells null. -/
def spellsNull (s : String) : Bool := ["null", "Null", "NULL", "~"].contains s

/-- The value of a plain scalar. -/
def resolve (cs : List Char) : Option Value :=
  let s := String.ofList cs
  if cs = [] ∨ spellsNull s then some .null
  else match readBool s with
    | some b => some (.bool b)
    | none =>
      match (readInteger cs).filter fitsWide with
      | some i => if Number.fits i then some (.number (.int i)) else none
      | none =>
        match if isPaddedDigits cs then none else readFloat cs with
        | some x => some (.number (.float x))
        | none => some (.string s)

/-- The mark of the tags that the language itself defines. -/
def coreTag (name : String) : String := "tag:yaml.org,2002:" ++ name

/-- The value of a scalar with a tag that the language defines, or of one without a tag. -/
def untaggedValue (tag : Option String) (plain : Bool) (cs : List Char) : Option Value :=
  let s := String.ofList cs
  match tag with
  | none => if plain then resolve cs else some (.string s)
  | some tag =>
    if tag = coreTag "bool" then (readBool s).map .bool
    else if tag = coreTag "int" then
      (readInteger cs).bind fun i => if Number.fits i then some (.number (.int i)) else none
    else if tag = coreTag "float" then (readFloat cs).map fun x => .number (.float x)
    else if tag = coreTag "null" then if spellsNull s then some .null else none
    else some (.string s)

end RouteServer.Yaml.Scalar

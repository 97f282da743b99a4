import RouteServer.Json.Basic
import RouteServer.Text.Numeral
import RouteServer.Binary64.Decimal

/-!
# Json — Token

The tokens of JSON text.  `Token.ofChars?` cuts a text into them, skipping blanks; `Token.text`
writes one.  A string escapes the quote, the backslash and the control characters; reading also
knows `\/` and code units of UTF-16 in hexadecimal, of which a surrogate counts only together with
its partner.
-/

namespace RouteServer.Json

open RouteServer.Text

/-- A token: a mark, or a value that has no parts. -/
inductive Token where
  | openArray
  | closeArray
  | openObject
  | closeObject
  | comma
  | colon
  | null
  | bool (b : Bool)
  | number (n : Number)
  | string (s : String)
  deriving DecidableEq, Repr

namespace Token

/-! ### Reading -/

/-- The blanks between tokens. -/
def isGap (c : Char) : Bool := c = ' ' || c = '\n' || c = '\t' || c = '\r'

/-- Four hexadecimal digits as a code unit, and the rest. -/
def readUnit : List Char → Option (Nat × List Char)
  | a :: b :: c :: d :: cs => do
    let a ← hexDigit? a
    let b ← hexDigit? b
    let c ← hexDigit? c
    let d ← hexDigit? d
    some (((a * 16 + b) * 16 + c) * 16 + d, cs)
  | _ => none

/-- Reads what follows `\u`: one code unit, or two that form a pair. -/
def readEscaped (cs : List Char) : Option (Char × List Char) := do
  let (u, cs) ← readUnit cs
  if 0xD800 ≤ u ∧ u < 0xDC00 then
    match cs with
    | '\\' :: 'u' :: cs =>
      let (l, cs) ← readUnit cs
      if 0xDC00 ≤ l ∧ l < 0xE000 then
        some (Char.ofNat (0x10000 + (u - 0xD800) * 0x400 + (l - 0xDC00)), cs)
      else none
    | _ => none
  else if 0xDC00 ≤ u ∧ u < 0xE000 then none
  else some (Char.ofNat u, cs)

/-- The character that a backslash and `c` stand for. -/
def escape? (c : Char) : Option Char :=
  match c with
  | '"' => some '"'
  | '\\' => some '\\'
  | '/' => some '/'
  | 'b' => some '\x08'
  | 'f' => some '\x0c'
  | 'n' => some '\n'
  | 'r' => some '\r'
  | 't' => some '\t'
  | _ => none

/-- Reads a string behind its opening quote; `done` holds its characters so far in reverse.  A
character costs one unit of `fuel`, and there are no more of them than characters of text. -/
def readString : Nat → List Char → List Char → Option (List Char × List Char)
  | _, _, [] => none
  | 0, _, _ => none
  | fuel + 1, done, c :: cs =>
    if c = '"' then some (done.reverse, cs)
    else if c = '\\' then
      match cs with
      | 'u' :: cs => (readEscaped cs).bind fun (x, cs) => readString fuel (x :: done) cs
      | e :: cs => (escape? e).bind fun x => readString fuel (x :: done) cs
      | [] => none
    else if c.toNat < 0x20 then none
    else readString fuel (c :: done) cs

/-- Whether a character can stand in a number behind its first. -/
def inNumber (c : Char) : Bool :=
  (digit? c).isSome || c = '.' || c = 'e' || c = 'E' || c = '+' || c = '-'

/-- The number a numeral denotes: digits without zeros in front, then a fraction, then an
exponent.  An integer that fits 64 bits is one; every other is a floating-point number, which has
to be finite. -/
def readNumber (cs : List Char) : Option Number := do
  let (negative, body) := match cs with
    | '-' :: cs => (true, cs)
    | cs => (false, cs)
  let (whole, count, dropped, rest) := Binary64.takeFitting 0 0 body
  if count = 0 ∨ (1 < count ∧ body.head? = some '0') then none
  else if rest = [] ∧ dropped = 0 then
    let i : Int := if negative then -(whole : Int) else whole
    if (negative && whole = 0) || !Number.fits i then
      some (.float (Binary64.ofRatio negative whole 1))
    else some (.int i)
  else
    let (value, places, rest) ← match rest with
      | '.' :: rest =>
        let (value, places, more, rest) := Binary64.takeFitting whole 0 rest
        if places + more = 0 then none else some (value, places, rest)
      | rest => some (whole, 0, rest)
    let e ← Binary64.readExponent rest
    let x ← Binary64.ofScaled? negative value (e + dropped - places)
    some (.float x)

/-- The first token of a text that starts with none of the blanks, and the rest. -/
def next? : List Char → Option (Token × List Char)
  | '[' :: cs => some (.openArray, cs)
  | ']' :: cs => some (.closeArray, cs)
  | '{' :: cs => some (.openObject, cs)
  | '}' :: cs => some (.closeObject, cs)
  | ',' :: cs => some (.comma, cs)
  | ':' :: cs => some (.colon, cs)
  | 'n' :: 'u' :: 'l' :: 'l' :: cs => some (.null, cs)
  | 't' :: 'r' :: 'u' :: 'e' :: cs => some (.bool true, cs)
  | 'f' :: 'a' :: 'l' :: 's' :: 'e' :: cs => some (.bool false, cs)
  | '"' :: cs => (readString (cs.length + 1) [] cs).map fun (s, cs) => (.string (.ofList s), cs)
  | cs =>
    let (lexeme, rest) := cs.span inNumber
    (readNumber lexeme).map fun n => (.number n, rest)

/-- Cuts a text into what `next` finds in it; that takes at least one character each time, so that
`fuel` need not pass the number of characters. -/
def scan (next : List Char → Option (τ × List Char)) : Nat → List Char → Option (List τ)
  | 0, cs => if cs.all isGap then some [] else none
  | fuel + 1, cs =>
    match cs.dropWhile isGap with
    | [] => some []
    | cs => do
      let (t, rest) ← next cs
      let ts ← scan next fuel rest
      some (t :: ts)

/-- The tokens of a text. -/
def ofChars? (cs : List Char) : Option (List Token) := scan next? cs.length cs

/-! ### Writing -/

/-- A character of a string as it is written. -/
def escaped (c : Char) : List Char :=
  match c with
  | '"' => ['\\', '"']
  | '\\' => ['\\', '\\']
  | '\x08' => ['\\', 'b']
  | '\x0c' => ['\\', 'f']
  | '\n' => ['\\', 'n']
  | '\r' => ['\\', 'r']
  | '\t' => ['\\', 't']
  | c =>
    if c.toNat < 0x20 then
      let hex := hexDigits c.toNat
      '\\' :: 'u' :: List.replicate (4 - hex.length) '0' ++ hex
    else [c]

/-- A string between quotes. -/
def quoted (s : String) : List Char := '"' :: s.toList.flatMap escaped ++ ['"']

/-- The characters of a token. -/
def chars : Token → List Char
  | .openArray => ['[']
  | .closeArray => [']']
  | .openObject => ['{']
  | .closeObject => ['}']
  | .comma => [',']
  | .colon => [':']
  | .null => ['n', 'u', 'l', 'l']
  | .bool true => ['t', 'r', 'u', 'e']
  | .bool false => ['f', 'a', 'l', 's', 'e']
  | .number (.int i) => (intText i).toList
  | .number (.float x) => if x.isFinite then x.scientific.toList else ['n', 'u', 'l', 'l']
  | .string s => quoted s

end Token

end RouteServer.Json

import RouteServer.Power
import RouteServer.Time.Date
import RouteServer.Toml.Basic

/-!
# Toml — Scalar

Reading the values that have no parts: strings, numbers, truth values and points in time.

A string stands between single or double quotes; between double ones a backslash escapes.  Between
three quotes it may have line breaks, and the break that follows the opening quotes does not count.
Digits may have underscores between them.
-/

namespace RouteServer.Toml

open RouteServer.Text RouteServer.Time

/-- A blank within a line. -/
def isGap (c : Char) : Bool := c = ' ' || c = '\t'

/-- A control character, which can stand in no string or comment; the tab is none. -/
def isControl (c : Char) : Bool := (c.toNat < 0x20 && c ≠ '\t') || c = '\x7f'

/-- What follows a line break. -/
def behindBreak? : List Char → Option (List Char)
  | '\n' :: cs => some cs
  | '\r' :: '\n' :: cs => some cs
  | _ => none

/-! ### Strings -/

/-- The character of `width` hexadecimal digits after a value. -/
def hexChar? : Nat → Nat → List Char → Option (Char × List Char)
  | 0, n, cs => if n.isValidChar then some (Char.ofNat n, cs) else none
  | _ + 1, _, [] => none
  | width + 1, n, c :: cs => (hexDigit? c).bind fun d => hexChar? width (16 * n + d) cs

/-- The character of an escape behind its backslash. -/
def escape? : List Char → Option (Char × List Char)
  | 'b' :: cs => some ('\x08', cs)
  | 't' :: cs => some ('\t', cs)
  | 'n' :: cs => some ('\n', cs)
  | 'f' :: cs => some ('\x0c', cs)
  | 'r' :: cs => some ('\r', cs)
  | 'e' :: cs => some ('\x1b', cs)
  | '"' :: cs => some ('"', cs)
  | '\\' :: cs => some ('\\', cs)
  | 'x' :: cs => hexChar? 2 0 cs
  | 'u' :: cs => hexChar? 4 0 cs
  | 'U' :: cs => hexChar? 8 0 cs
  | _ => none

/-- Whether a backslash escapes between quotes. -/
def escapes (quote : Char) : Bool := quote = '"'

/-- Reads a string of one line behind its opening quote; `done` holds its characters so far in
reverse, and a character costs one unit of `fuel`. -/
def readLine (quote : Char) : Nat → List Char → List Char → Option (String × List Char)
  | 0, _, _ => none
  | _, _, [] => none
  | fuel + 1, done, c :: cs =>
    if c = quote then some (.ofList done.reverse, cs)
    else if c = '\\' && escapes quote then
      (escape? cs).bind fun (x, cs) => readLine quote fuel (x :: done) cs
    else if isControl c then none
    else readLine quote fuel (c :: done) cs

/-- Skips blanks and line breaks. -/
def skipBreaks : List Char → List Char
  | c :: cs => if isGap c || c = '\n' then skipBreaks cs
    else if c = '\r' && cs.head? = some '\n' then skipBreaks cs else c :: cs
  | [] => []

/-- Reads a string of several lines behind its opening quotes.  Three quotes close it, and one or
two more belong to it; a backslash at the end of a line skips to the next word. -/
def readLines (quote : Char) : Nat → List Char → List Char → Option (String × List Char)
  | 0, _, _ => none
  | _, _, [] => none
  | fuel + 1, done, c :: cs =>
    if c = quote then
      let quotes := (c :: cs).takeWhile (· = quote)
      let rest := (c :: cs).dropWhile (· = quote)
      if quotes.length < 3 then readLines quote fuel (quotes ++ done) rest
      else if quotes.length < 6 then some (.ofList (quotes.drop 3 ++ done).reverse, rest)
      else none
    else if c = '\\' && escapes quote then
      match behindBreak? (cs.dropWhile isGap) with
      | some rest => readLines quote fuel done (skipBreaks rest)
      | none => (escape? cs).bind fun (x, cs) => readLines quote fuel (x :: done) cs
    else match behindBreak? (c :: cs) with
      | some rest => readLines quote fuel ('\n' :: done) rest
      | none => if isControl c then none else readLines quote fuel (c :: done) cs

/-- Reads a string from its opening quote. -/
def readString (cs : List Char) : Option (String × List Char) :=
  match cs with
  | q :: r :: s :: rest =>
    if q = r && q = s then readLines q cs.length [] ((behindBreak? rest).getD rest)
    else readLine q cs.length [] (r :: s :: rest)
  | q :: rest => readLine q cs.length [] rest
  | [] => none

/-! ### Numbers -/

/-- The digits of a text that has underscores only between digits; there is at least one. -/
def plainDigits? (isDigit : Char → Bool) : List Char → Option (List Char)
  | [] => none
  | [c] => if isDigit c then some [c] else none
  | c :: '_' :: cs => if isDigit c then (plainDigits? isDigit cs).map (c :: ·) else none
  | c :: cs => if isDigit c then (plainDigits? isDigit cs).map (c :: ·) else none

/-- Whether a character is a decimal digit. -/
def isDecimal (c : Char) : Bool := (digit? c).isSome

/-- Decimal digits without zeros in front. -/
def wholeDigits? (cs : List Char) : Option (List Char) :=
  (plainDigits? isDecimal cs).filter fun ds => ds.length = 1 || ds.head? ≠ some '0'

/-- The value of digits to a base. -/
def valueOf (base : Nat) (ds : List Char) : Nat :=
  ds.foldl (fun n c => base * n + (hexDigit? c).getD 0) 0

/-- Whether an integer fits 64 bits with a sign. -/
def fits (i : Int) : Bool := -(twoTo 63 : Int) ≤ i && i < (twoTo 63 : Int)

/-- An integer to a base that a letter names. -/
def readBase (base : Nat) (cs : List Char) : Option Int :=
  (plainDigits? (fun c => (hexDigit? c).any (· < base)) cs).map fun ds => (valueOf base ds : Int)

/-- A sign in front of a text, if there is one, and what follows it. -/
def splitSign : List Char → Bool × List Char
  | '-' :: cs => (true, cs)
  | '+' :: cs => (false, cs)
  | cs => (false, cs)

/-- The integer that a text spells. -/
def readInteger (cs : List Char) : Option Int :=
  let i := match cs with
    | '0' :: 'x' :: cs => readBase 16 cs
    | '0' :: 'o' :: cs => readBase 8 cs
    | '0' :: 'b' :: cs => readBase 2 cs
    | cs =>
      let (negative, body) := splitSign cs
      (wholeDigits? body).map fun ds =>
        if negative then -(valueOf 10 ds : Int) else (valueOf 10 ds : Int)
  i.filter fits

/-- The exponent of a number, without underscores; there may be none. -/
def exponent? : List Char → Option (List Char)
  | [] => some []
  | _ :: cs =>
    let (negative, body) := splitSign cs
    (plainDigits? isDecimal body).map fun ds => 'e' :: (if negative then '-' :: ds else ds)

/-- The fraction of a number, without underscores; there may be none. -/
def fraction? : List Char → Option (List Char)
  | [] => some []
  | _ :: cs => (plainDigits? isDecimal cs).map ('.' :: ·)

/-- The floating-point number that a text spells. -/
def readFloat (cs : List Char) : Option Binary64 :=
  let (negative, body) := splitSign cs
  if body = ['i', 'n', 'f'] then some (.infinity negative)
  else if body = ['n', 'a', 'n'] then some .nan
  else do
    let isMark := fun c => c = 'e' || c = 'E'
    let front := body.takeWhile fun c => !isMark c
    let exponent ← exponent? (body.dropWhile fun c => !isMark c)
    let whole ← wholeDigits? (front.takeWhile (· ≠ '.'))
    let fraction ← fraction? (front.dropWhile (· ≠ '.'))
    if fraction = [] ∧ exponent = [] then none
    else do
      let x ← Binary64.readDecimal
        ((if negative then ['-'] else []) ++ whole ++ fraction ++ exponent)
      if x.isFinite then some x else none

/-! ### Points in time -/

/-- A number of two digits, up to a bound. -/
def twoDigits? (high : Nat) : List Char → Option (List Char × List Char)
  | c :: d :: cs => do
    let n := 10 * (← digit? c) + (← digit? d)
    if n ≤ high then some ([c, d], cs) else none
  | _ => none

/-- The rest behind a character. -/
def behind? (mark : Char) : List Char → Option (List Char)
  | c :: cs => if c = mark then some cs else none
  | [] => none

/-- Reads a date. -/
def readDate (cs : List Char) : Option (List Char × List Char) := do
  let (century, cs) ← twoDigits? 99 cs
  let (year, cs) ← twoDigits? 99 cs
  let (month, cs) ← twoDigits? 12 (← behind? '-' cs)
  let (day, cs) ← twoDigits? 31 (← behind? '-' cs)
  let date : Date := ⟨valueOf 10 (century ++ year), valueOf 10 month, valueOf 10 day⟩
  if date.isValid then some (century ++ year ++ '-' :: month ++ '-' :: day, cs) else none

/-- A fraction of a second: nine digits count, and zeros at its end do not. -/
def secondFraction? (cs : List Char) : Option (List Char × List Char) :=
  match cs with
  | '.' :: cs =>
    let ds := cs.takeWhile isDecimal
    let kept := ((ds.take 9).reverse.dropWhile (· = '0')).reverse
    if ds = [] then none
    else some (if kept = [] then [] else '.' :: kept, cs.dropWhile isDecimal)
  | cs => some ([], cs)

/-- Reads a time of the day; its seconds may be left out. -/
def readTime (cs : List Char) : Option (List Char × List Char) := do
  let (hour, cs) ← twoDigits? 23 cs
  let (minute, cs) ← twoDigits? 59 (← behind? ':' cs)
  match behind? ':' cs with
  | none => some (hour ++ ':' :: minute, cs)
  | some cs => do
    let (second, cs) ← twoDigits? 60 cs
    let (fraction, cs) ← secondFraction? cs
    some (hour ++ ':' :: minute ++ ':' :: second ++ fraction, cs)

/-- Reads an offset; there may be none. -/
def readOffset : List Char → Option (List Char)
  | [] => some []
  | ['Z'] | ['z'] => some ['Z']
  | sign :: cs => do
    let (hour, cs) ← twoDigits? 23 cs
    let (minute, cs) ← twoDigits? 59 (← behind? ':' cs)
    if (sign = '+' ∨ sign = '-') ∧ cs = [] then some (sign :: hour ++ ':' :: minute) else none

/-- The canonical text of the date, the time or both that a text spells. -/
def readMoment (cs : List Char) : Option String :=
  match readDate cs with
  | some (date, []) => some (.ofList date)
  | some (date, c :: cs) =>
    if c = 'T' || c = 't' || c = ' ' then do
      let (time, cs) ← readTime cs
      let offset ← readOffset cs
      some (.ofList (date ++ 'T' :: time ++ offset))
    else none
  | none => do
    let (time, cs) ← readTime cs
    if cs = [] then some (.ofList time) else none

/-! ### Words -/

/-- A character of a number, a truth value or a point in time. -/
def inWord (c : Char) : Bool :=
  (digit? c).isSome || ('a' ≤ c && c ≤ 'z') || ('A' ≤ c && c ≤ 'Z') || c = '_' || c = '+' ||
    c = '-' || c = '.' || c = ':'

/-- The value of a word. -/
def ofWord (cs : List Char) : Option Toml :=
  if cs = ['t', 'r', 'u', 'e'] then some (.boolean true)
  else if cs = ['f', 'a', 'l', 's', 'e'] then some (.boolean false)
  else
    ((readInteger cs).map .integer).orElse fun _ =>
      ((readFloat cs).map .float).orElse fun _ => (readMoment cs).map .moment

/-- Reads a word.  A date may have a time behind a blank. -/
def readWord (cs : List Char) : Option (Toml × List Char) :=
  let word := cs.takeWhile inWord
  let rest := cs.dropWhile inWord
  match rest with
  | ' ' :: c :: more =>
    if (readDate word).any (·.2 = []) && isDecimal c then
      (ofWord (word ++ ' ' :: (c :: more).takeWhile inWord)).map fun v =>
        (v, (c :: more).dropWhile inWord)
    else (ofWord word).map fun v => (v, rest)
  | _ => (ofWord word).map fun v => (v, rest)

end RouteServer.Toml

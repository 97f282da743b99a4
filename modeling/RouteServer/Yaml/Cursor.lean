import RouteServer.Text.Numeral

/-!
# Yaml — Cursor

A place in the text of a document: what is left to read, and how far the place is from the start of
the text, in lines, and from the start of its line.

Characters fall into blanks (space and tab), breaks, and the rest.  A break is a line feed, a
carriage return, both together, or one of three further characters; `takeBreak` gives it in its
normal form, which is a line feed for all but the line and paragraph separators.
-/

namespace RouteServer.Yaml

open RouteServer.Text

/-- A place in a text. -/
structure Cursor where
  rest : List Char
  index : Nat := 0
  line : Nat := 0
  column : Nat := 0
  deriving Repr

/-- A space or a tab. -/
def isBlank (c : Char) : Bool := c = ' ' || c = '\t'

/-- A character that ends a line. -/
def isBreak (c : Char) : Bool :=
  c = '\r' || c = '\n' || c = '\u0085' || c = '\u2028' || c = '\u2029'

/-- A letter, digit, underscore or hyphen. -/
def isWord (c : Char) : Bool :=
  ('0' ≤ c && c ≤ '9') || ('A' ≤ c && c ≤ 'Z') || ('a' ≤ c && c ≤ 'z') || c = '_' || c = '-'

/-- A character that may stand in a text at all. -/
def isAllowed (c : Char) : Bool :=
  let n := c.toNat
  n = 0x9 || n = 0xa || n = 0xd || (0x20 ≤ n && n ≤ 0x7e) || n = 0x85 ||
    (0xa0 ≤ n && n ≤ 0xd7ff) || (0xe000 ≤ n && n ≤ 0xfffd) || 0x10000 ≤ n

namespace Cursor

/-- The start of a text. -/
def start (cs : List Char) : Cursor := { rest := cs }

/-- The character at the place. -/
def peek (c : Cursor) : Option Char := c.rest.head?

/-- The character `n` places on. -/
def peekAt (c : Cursor) (n : Nat) : Option Char := c.rest[n]?

/-- Whether nothing is left. -/
def atEnd (c : Cursor) : Bool := c.rest.isEmpty

/-- Whether the character at the place is `x`. -/
def looksAt (c : Cursor) (x : Char) : Bool := c.peek = some x

/-- Whether a blank, a break or the end is `n` places on. -/
def gapAt (c : Cursor) (n : Nat) : Bool :=
  match c.peekAt n with
  | none => true
  | some x => isBlank x || isBreak x

/-- Whether a blank is at the place. -/
def atBlank (c : Cursor) : Bool := c.peek.any isBlank

/-- Whether a break is at the place. -/
def atBreak (c : Cursor) : Bool := c.peek.any isBreak

/-- Whether a break or the end is at the place. -/
def atLineEnd (c : Cursor) : Bool := c.atEnd || c.atBreak

/-- The place behind one character of a line. -/
def skip (c : Cursor) : Cursor :=
  match c.rest with
  | [] => c
  | _ :: cs => { c with rest := cs, index := c.index + 1, column := c.column + 1 }

/-- The place behind `n` characters of a line. -/
def skipMany (c : Cursor) : Nat → Cursor
  | 0 => c
  | n + 1 => c.skip.skipMany n

/-- The place behind the characters of a line that pass. -/
def skipWhile (p : Char → Bool) (c : Cursor) : Cursor :=
  c.skipMany (c.rest.takeWhile p).length

/-- The characters of a line that pass, and the place behind them. -/
def takeWhile (p : Char → Bool) (c : Cursor) : List Char × Cursor :=
  let taken := c.rest.takeWhile p
  (taken, c.skipMany taken.length)

/-- The break at the place in its normal form, and the start of the next line. -/
def takeBreak (c : Cursor) : List Char × Cursor :=
  match c.rest with
  | '\r' :: '\n' :: cs => (['\n'], ⟨cs, c.index + 2, c.line + 1, 0⟩)
  | x :: cs =>
    if x = '\u2028' ∨ x = '\u2029' then ([x], ⟨cs, c.index + 1, c.line + 1, 0⟩)
    else if isBreak x then (['\n'], ⟨cs, c.index + 1, c.line + 1, 0⟩)
    else ([], c)
  | [] => ([], c)

/-- The place behind a comment, if one starts here. -/
def skipComment (c : Cursor) : Cursor :=
  if c.looksAt '#' then c.skipWhile fun x => !isBreak x else c

/-- Whether the three characters that start or end a document stand at the start of this line. -/
def atMarker (x : Char) (c : Cursor) : Bool :=
  c.column = 0 && c.rest.take 3 == [x, x, x] && c.gapAt 3

/-- Whether a document starts or ends here. -/
def atDocumentMarker (c : Cursor) : Bool := c.atMarker '-' || c.atMarker '.'

/-- What can be read from the rest of the text bounds every loop over it. -/
def fuel (c : Cursor) : Nat := c.rest.length + 1

end Cursor

/-- Line breaks between two lines of a scalar become a space when there is just one, and one fewer
otherwise; a separator of its own kind stays.  `first` is the first break, `more` are the others. -/
def foldBreaks (first more : List Char) : List Char :=
  if first = ['\n'] then if more = [] then [' '] else more else first ++ more

end RouteServer.Yaml

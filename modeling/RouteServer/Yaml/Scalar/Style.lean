import RouteServer.Yaml.Cursor
import RouteServer.Yaml.Scalar.Resolve

/-!
# Yaml — Scalar — Style

How a string is written so that it is read as the same string again: bare when nothing in it could
be taken for something else, as a block when it has lines, and otherwise between quotes.  Single
quotes show the text as it is and double ones escape what cannot be shown.
-/

namespace RouteServer.Yaml.Scalar

open RouteServer.Text

/-- The ways to write a string. -/
inductive Style where
  | plain
  | single
  | double
  | block
  deriving DecidableEq, Repr

/-- A character that is written as it is, if it is no break. -/
def isShown (c : Char) : Bool :=
  let n := c.toNat
  n = 0xa || (0x20 ≤ n && n ≤ 0x7e) ||
    (0xa0 ≤ n && n ≠ 0xfeff && n ≠ 0xfffe && n ≠ 0xffff)

/-- Whether two characters in a row pass. -/
def hasPair (p q : Char → Bool) : List Char → Bool
  | a :: b :: cs => (p a && q b) || hasPair p q (b :: cs)
  | _ => false

/-- A space. -/
def isSpace (c : Char) : Bool := c = ' '

/-- Marks that a plain scalar may not start with. -/
def leadingMarks : List Char :=
  ['#', ',', '[', ']', '{', '}', '&', '*', '!', '|', '>', '\'', '"', '%', '@', '\x60']

/-- Whether a text starts with a mark that could be taken for structure. -/
def startsWithMark : List Char → Bool
  | '-' :: '-' :: '-' :: _ | '.' :: '.' :: '.' :: _ => true
  | c :: cs =>
    leadingMarks.contains c ||
      ((c = '?' || c = '-') && (cs.head?.all fun d => isSpace d || isBreak d))
  | [] => false

/-- Whether a text has a colon in front of a gap or at its end, or a number sign behind a gap. -/
def hasMark (cs : List Char) : Bool :=
  let isGap := fun c => isSpace c || isBreak c
  hasPair (· = ':') isGap cs || cs.getLast? = some ':' || hasPair isGap (· = '#') cs

/-- Whether a text has a character that is not shown as it is. -/
def hasHidden (cs : List Char) : Bool := cs.any fun c => !isShown c

/-- Whether a text may be written bare. -/
def allowsPlain (cs : List Char) : Bool :=
  let isGap := fun c => isSpace c || isBreak c
  !(cs.head?.any isGap || cs.getLast?.any isGap || cs.any isBreak || hasHidden cs ||
    startsWithMark cs || hasMark cs)

/-- Whether a text may be written between single quotes. -/
def allowsSingle (cs : List Char) : Bool :=
  !(hasPair isBreak isSpace cs || hasPair isSpace isBreak cs || hasHidden cs)

/-- Whether a text may be written as a block. -/
def allowsBlock (cs : List Char) : Bool :=
  !(cs.getLast?.any isSpace || hasPair isSpace isBreak cs || hasHidden cs)

/-- Whether a bare text would be read as something else than a string. -/
def isAmbiguous (cs : List Char) : Bool :=
  isPaddedDigits cs ||
    match resolve cs with
    | some (.string _) => false
    | _ => true

/-- The way a string is written. -/
def styleOf (cs : List Char) : Style :=
  if cs.contains '\n' then if allowsBlock cs then .block else .double
  else if !isAmbiguous cs && allowsPlain cs then .plain
  else if allowsSingle cs then .single
  else .double

/-- As many spaces as the column says. -/
def indentation (column : Nat) : List Char := List.replicate column ' '

/-- A text whose lines start at a column, those without a character apart.  `fresh` tells that a
line starts. -/
def indentLines (column : Nat) : Bool → List Char → List Char
  | _, [] => []
  | fresh, c :: cs =>
    if isBreak c then c :: indentLines column true cs
    else (if fresh then indentation column else []) ++ c :: indentLines column false cs

/-- A text between single quotes, the ones in it written twice. -/
def singleQuoted (column : Nat) (cs : List Char) : List Char :=
  let doubled := cs.flatMap fun c => if c = '\'' then ['\'', '\''] else [c]
  '\'' :: indentLines column false doubled ++
    (if cs.getLast?.any isBreak then indentation column else []) ++ ['\'']

/-- A digit to the base 16, in upper case. -/
def upperHexDigit (d : Nat) : Char :=
  if d < 10 then digitChar d else Char.ofNat ('A'.toNat + (d - 10))

/-- A number to the base 16 with a fixed number of digits. -/
def upperHex : Nat → Nat → List Char
  | 0, _ => []
  | width + 1, n => upperHex width (n / 16) ++ [upperHexDigit (n % 16)]

/-- The escape of a character. -/
def escapeOf (c : Char) : List Char :=
  match c with
  | '\x00' => ['0']
  | '\x07' => ['a']
  | '\x08' => ['b']
  | '\t' => ['t']
  | '\n' => ['n']
  | '\x0b' => ['v']
  | '\x0c' => ['f']
  | '\r' => ['r']
  | '\x1b' => ['e']
  | '"' => ['"']
  | '\\' => ['\\']
  | '\u0085' => ['N']
  | '\u2028' => ['L']
  | '\u2029' => ['P']
  | c =>
    if c.toNat ≤ 0xff then 'x' :: upperHex 2 c.toNat
    else if c.toNat ≤ 0xffff then 'u' :: upperHex 4 c.toNat
    else 'U' :: upperHex 8 c.toNat

/-- A text between double quotes, with escapes. -/
def doubleQuoted (cs : List Char) : List Char :=
  '"' :: (cs.flatMap fun c =>
    if !isShown c || isBreak c || c = '"' || c = '\\' then '\\' :: escapeOf c else [c]) ++ ['"']

/-- The mark behind the bar of a block that tells how many breaks at its end count. -/
def chompMark (cs : List Char) : List Char :=
  match cs.reverse with
  | last :: before =>
    if !isBreak last then ['-'] else if before.head?.all isBreak then ['+'] else []
  | [] => ['-']

/-- A text as a block: a bar, marks, and the lines at a column.  The column is marked when it cannot
be told from the first line. -/
def block (column : Nat) (cs : List Char) : List Char :=
  '|' :: (if cs.head?.any fun c => isSpace c || isBreak c then ['2'] else []) ++ chompMark cs ++
    '\n' :: indentLines column true cs

/-- A string as it is written, its further lines at a column. -/
def write (column : Nat) (cs : List Char) : List Char :=
  match styleOf cs with
  | .plain => cs
  | .single => singleQuoted column cs
  | .double => doubleQuoted cs
  | .block => block column cs

/-- Whether what is written ends with a line break. -/
def endsLine (cs : List Char) : Bool := styleOf cs = .block && cs.getLast?.any isBreak

end RouteServer.Yaml.Scalar

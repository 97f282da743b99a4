import RouteServer.Json.Reader

/-!
# Json — Skim

A reading that passes over values.  Whoever wants some members of a record does not read the others:
of a value that is passed over only the form counts.  Its numbers may be too great, its strings may
hold half of a surrogate pair, and its arrays and objects may stand as deep as they like.

`skim` reads a text in this way.  A number or a string that cannot be read is null in it, which no
member that is wanted may be.  The names of the members of the outermost object are always read.
-/

namespace RouteServer.Json

open RouteServer.Text

/-- A token, or the form of one that cannot be read. -/
inductive Lexeme where
  | token (t : Token)
  | number
  | string
  deriving DecidableEq, Repr

namespace Lexeme

/-! ### The form of a number -/

/-- Passes over digits, of which there has to be one. -/
def passDigits (cs : List Char) : Option (List Char) :=
  match cs.span fun c => (digit? c).isSome with
  | ([], _) => none
  | (_, rest) => some rest

/-- Passes over a zero, or over digits. -/
def passWhole : List Char → Option (List Char)
  | '0' :: cs => some cs
  | cs => passDigits cs

/-- Passes over the fraction that may follow. -/
def passFraction : List Char → Option (List Char)
  | '.' :: cs => passDigits cs
  | cs => some cs

/-- Passes over the sign that an exponent may have. -/
def passSign : List Char → List Char
  | '+' :: cs => cs
  | '-' :: cs => cs
  | cs => cs

/-- Passes over the exponent that may follow. -/
def passExponent : List Char → Option (List Char)
  | [] => some []
  | c :: cs => if c = 'e' ∨ c = 'E' then passDigits (passSign cs) else some (c :: cs)

/-- The characters without a minus sign. -/
def passMinus : List Char → List Char
  | '-' :: cs => cs
  | cs => cs

/-- Whether characters have the form of a number. -/
def isNumeral (cs : List Char) : Bool :=
  ((passWhole (passMinus cs)).bind passFraction).bind passExponent = some []

/-! ### The form of a string -/

/-- Passes over a string behind its opening quote. -/
def passString : List Char → Option (List Char)
  | [] => none
  | '"' :: cs => some cs
  | '\\' :: 'u' :: a :: b :: c :: d :: cs =>
    if [a, b, c, d].all fun x => (hexDigit? x).isSome then passString cs else none
  | '\\' :: e :: cs => (Token.escape? e).bind fun _ => passString cs
  | c :: cs => if c.toNat < 0x20 then none else passString cs

/-- The first token of a text, or the form of one, and the rest. -/
def next? (cs : List Char) : Option (Lexeme × List Char) :=
  match Token.next? cs with
  | some (t, rest) => some (.token t, rest)
  | none =>
    match cs with
    | '"' :: cs => (passString cs).map fun rest => (.string, rest)
    | cs =>
      let (lexeme, rest) := cs.span Token.inNumber
      if isNumeral lexeme then some (.number, rest) else none

/-- The token that a lexeme stands for. -/
def token? (p : Progress) : Lexeme → Option Token
  | .token t => some t
  | .number => some .null
  | .string =>
    if p.expect.admitsValue then some .null
    else if 1 < p.stack.length then some (.string "")
    else none

end Lexeme

/-- Takes one lexeme. -/
def Progress.skim (limit : Nat) (p : Progress) (l : Lexeme) : Option Progress :=
  (l.token? p).bind (p.step limit)

/-- The value that lexemes spell; no more can be open than there are lexemes. -/
def ofLexemes? (ls : List Lexeme) : Option Json :=
  (ls.foldlM (Progress.skim ls.length) Progress.start).bind (·.done)

/-- Reads one value of which only some members are wanted. -/
def skim (s : String) : Option Json :=
  (Token.scan Lexeme.next? s.toList.length s.toList).bind ofLexemes?

end RouteServer.Json

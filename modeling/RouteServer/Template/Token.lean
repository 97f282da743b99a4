import RouteServer.Number
import RouteServer.Text.Blank
import RouteServer.Text.Split

/-!
# Template — Token

The tokens of a template.  Text runs up to a mark: two braces print an expression, a brace and a
percent sign enclose a tag, a brace and a hash enclose a comment.

Tags and comments leave no blank lines behind: the blanks between the start of the line and the mark
go, and so does the line break behind it.  A hyphen inside a mark removes all blanks on its side, a
plus sign keeps them.  What stands between the tags `raw` and `endraw` is text.
-/

namespace RouteServer.Template

open RouteServer.Text

/-- A mark of one or two characters within code. -/
inductive Mark where
  | plus
  | minus
  | times
  | power
  | over
  | wholeOver
  | modulo
  | dot
  | comma
  | colon
  | tilde
  | bar
  | becomes
  | eq
  | ne
  | lt
  | le
  | gt
  | ge
  | openRound
  | closeRound
  | openSquare
  | closeSquare
  | openCurly
  | closeCurly
  deriving DecidableEq, Repr

/-- A token. -/
inductive Token where
  | text (s : String)
  | openPrint
  | closePrint
  | openTag
  | closeTag
  | word (s : String)
  | string (s : String)
  | number (n : Number)
  | mark (m : Mark)
  deriving DecidableEq, Repr

/-- What becomes of the blanks next to a mark. -/
inductive Blanks where
  | usual
  | remove
  | keep
  deriving DecidableEq

/-- What encloses code. -/
inductive Enclosure where
  | print
  | tag
  deriving DecidableEq

namespace Token

/-- Reads the sign for the blanks next to a mark. -/
def readBlanks : List Char → Blanks × List Char
  | '-' :: cs => (.remove, cs)
  | '+' :: cs => (.keep, cs)
  | cs => (.usual, cs)

/-- A character that starts a word. -/
def startsWord (c : Char) : Bool := ('a' ≤ c && c ≤ 'z') || ('A' ≤ c && c ≤ 'Z') || c = '_'

/-- A character of a word. -/
def inWord (c : Char) : Bool := startsWord c || (digit? c).isSome

/-- A blank between the tokens of a mark. -/
def isGap (c : Char) : Bool := c = ' ' || c = '\t' || c = '\n' || c = '\r' || c = '\x0c'

/-- The rest of a text without a line break in front. -/
def dropBreak : List Char → List Char
  | '\r' :: '\n' :: cs => cs
  | '\r' :: cs => cs
  | '\n' :: cs => cs
  | cs => cs

/-- The rest of a text behind a mark. -/
def behindMark (blanks : Blanks) (encloses : Enclosure) (cs : List Char) : List Char :=
  match blanks with
  | .remove => trimStart cs
  | .keep => cs
  | .usual => if encloses = .tag then dropBreak cs else cs

/-- A character that breaks a line. -/
def isBreak (c : Char) : Bool := c = '\n' || c = '\r'

/-- Whether what is dropped behind a mark ends a line. -/
def breaksBehind (blanks : Blanks) (encloses : Enclosure) (cs : List Char) : Bool :=
  match blanks with
  | .remove => (cs.takeWhile isBlank).any isBreak
  | .keep => false
  | .usual => encloses = .tag && cs.head?.any isBreak

/-- Whether a line has only blanks so far; the characters are given in reverse, and `fresh` says it
of what stands in front of them. -/
def onlyBlanks (fresh : Bool) : List Char → Bool
  | [] => fresh
  | c :: cs => isBreak c || (isBlank c && onlyBlanks fresh cs)

/-- A text without the blanks at its end that do not end a line. -/
def dropIndent (cs : List Char) : List Char :=
  (cs.reverse.dropWhile fun c => isBlank c && c ≠ '\n').reverse

/-- The text in front of a mark; `fresh` tells whether the line has only blanks in front of it. -/
def inFront (blanks : Blanks) (encloses : Enclosure) (fresh : Bool) (chunk : List Char) :
    List Char :=
  match blanks with
  | .remove => trimEnd chunk
  | .keep => chunk
  | .usual =>
    if encloses = .tag && onlyBlanks fresh chunk.reverse then dropIndent chunk else chunk

/-- A token of text, unless it is empty. -/
def textTokens (cs : List Char) : List Token := if cs = [] then [] else [.text (.ofList cs)]

/-- Reads a tag without arguments behind its opening mark. -/
def readBareTag (name : String) (cs : List Char) : Option (Blanks × List Char) := do
  let cs ← stripStart name.toList (cs.dropWhile isGap)
  let (blanks, cs) := readBlanks (cs.dropWhile isGap)
  let cs ← stripStart ['%', '\x7d'] cs
  some (blanks, cs)

/-- Reads up to the end of a raw text: the text, the blanks on either side of the end, and what
follows. -/
def readRaw : List Char → List Char → Option (List Char × Blanks × Blanks × List Char)
  | _, [] => none
  | done, c :: cs =>
    match stripStart ['\x7b', '%'] (c :: cs) with
    | some rest =>
      let (front, rest) := readBlanks rest
      match readBareTag "endraw" rest with
      | some (behind, rest) => some (done.reverse, front, behind, rest)
      | none => readRaw (c :: done) cs
    | none => readRaw (c :: done) cs

/-- The text of a raw part. -/
def rawText (opening front : Blanks) (cs : List Char) : List Char :=
  let cs := match opening with
    | .remove => trimStart cs
    | .keep => cs
    | .usual => dropBreak cs
  match front with
  | .remove => trimEnd cs
  | .keep => cs
  | .usual =>
    let cut := dropIndent cs
    if cut = [] ∨ cut.getLast? = some '\n' then cut else cs

/-- The character that a backslash and another character stand for. -/
def escape? (c : Char) : Option Char :=
  match c with
  | '"' | '\\' | '\'' | '/' => some c
  | 'b' => some '\x08'
  | 'f' => some '\x0c'
  | 'n' => some '\n'
  | 'r' => some '\r'
  | 't' => some '\t'
  | _ => none

/-- The value of four hexadecimal digits, and the rest. -/
def readUnit : List Char → Option (Nat × List Char)
  | a :: b :: c :: d :: cs => do
    let a ← hexDigit? a
    let b ← hexDigit? b
    let c ← hexDigit? c
    let d ← hexDigit? d
    some (((a * 16 + b) * 16 + c) * 16 + d, cs)
  | _ => none

/-- Reads a string behind its opening quote. -/
def readString (quote : Char) : Nat → List Char → List Char → Option (List Char × List Char)
  | 0, _, _ => none
  | _ + 1, _, [] => none
  | fuel + 1, done, c :: cs =>
    if c = quote then some (done.reverse, cs)
    else if c = '\\' then
      match cs with
      | 'u' :: cs => do
        let (n, cs) ← readUnit cs
        if h : n.isValidChar then readString quote fuel (Char.ofNatAux n h :: done) cs else none
      | e :: cs => (escape? e).bind fun x => readString quote fuel (x :: done) cs
      | [] => none
    else readString quote fuel (c :: done) cs

/-- Reads a number: digits, and a fraction or an exponent that make it a floating-point one. -/
def readNumber (cs : List Char) : Option (Number × List Char) :=
  let (n, _, rest) := Binary64.takeDigits 0 0 cs
  let (value, places, isFloat, rest) := match rest with
    | '.' :: c :: rest' =>
      if (digit? c).isSome then
        let (value, places, rest) := Binary64.takeDigits n 0 (c :: rest')
        (value, places, true, rest)
      else (n, 0, false, rest)
    | rest => (n, 0, false, rest)
  let plain : Number := if isFloat then .float (.ofDecimal false value (-places)) else .int n
  match rest with
  | e :: after =>
    if e = 'e' ∨ e = 'E' then
      let (negative, after) := match after with
        | '-' :: cs => (true, cs)
        | '+' :: cs => (false, cs)
        | cs => (false, cs)
      match Binary64.takeDigits 0 0 after with
      | (_, 0, _) => none
      | (x, _, after) =>
        let x : Int := if negative then -(x : Int) else x
        some (.float (.ofDecimal false value (x - places)), after)
    else some (plain, rest)
  | [] => some (plain, rest)

/-- The mark of two characters. -/
def doubleMark? : Char → Char → Option Mark
  | '/', '/' => some .wholeOver
  | '*', '*' => some .power
  | '=', '=' => some .eq
  | '!', '=' => some .ne
  | '>', '=' => some .ge
  | '<', '=' => some .le
  | _, _ => none

/-- The mark of one character. -/
def singleMark? : Char → Option Mark
  | '+' => some .plus
  | '-' => some .minus
  | '*' => some .times
  | '/' => some .over
  | '%' => some .modulo
  | '.' => some .dot
  | ',' => some .comma
  | ':' => some .colon
  | '~' => some .tilde
  | '|' => some .bar
  | '=' => some .becomes
  | '>' => some .gt
  | '<' => some .lt
  | '(' => some .openRound
  | ')' => some .closeRound
  | '[' => some .openSquare
  | ']' => some .closeSquare
  | '\x7b' => some .openCurly
  | '\x7d' => some .closeCurly
  | _ => none

/-- Reads a mark, the longest that stands here. -/
def readMark : List Char → Option (Mark × List Char)
  | [] => none
  | [c] => (singleMark? c).map fun m => (m, [])
  | c :: d :: cs =>
    match doubleMark? c d with
    | some m => some (m, cs)
    | none => (singleMark? c).map fun m => (m, d :: cs)

/-- Reads one token of code. -/
def readCode : List Char → Option (Token × List Char)
  | [] => none
  | c :: cs =>
    if startsWord c then
      let (w, rest) := (c :: cs).span inWord
      some (.word (.ofList w), rest)
    else if (digit? c).isSome then (readNumber (c :: cs)).map fun (n, rest) => (.number n, rest)
    else if c = '"' ∨ c = '\'' then
      (readString c (cs.length + 1) [] cs).map fun (s, rest) => (.string (.ofList s), rest)
    else (readMark (c :: cs)).map fun (m, rest) => (.mark m, rest)

/-- The end of an enclosure, when it stands here. -/
def readClose (encloses : Enclosure) (cs : List Char) : Option (Blanks × List Char) :=
  let close : List Char := match encloses with
    | .print => ['\x7d', '\x7d']
    | .tag => ['%', '\x7d']
  match stripStart close cs with
  | some rest => some (.usual, rest)
  | none =>
    match cs with
    | '-' :: cs => (stripStart close cs).map fun rest => (.remove, rest)
    | '+' :: cs => (stripStart close cs).map fun rest => (.keep, rest)
    | _ => none

/-- How a token changes the number of open brackets. -/
def balance (open_ : Int) : Token → Int
  | .mark .openRound | .mark .openSquare | .mark .openCurly => open_ + 1
  | .mark .closeRound | .mark .closeSquare | .mark .closeCurly => open_ - 1
  | _ => open_

/-- The token that closes an enclosure. -/
def closing : Enclosure → Token
  | .print => .closePrint
  | .tag => .closeTag

mutual
/-- Cuts text into tokens.  `chunk` holds the characters of the text that is being read in reverse,
and `fresh` tells whether the line has only blanks in front of it. -/
def scanText : Nat → Bool → List Char → List Char → Option (List Token)
  | _, _, chunk, [] => some (textTokens chunk.reverse)
  | 0, _, _, _ => none
  | fuel + 1, fresh, chunk, '\x7b' :: '\x7b' :: cs => do
    let (blanks, rest) := readBlanks cs
    let front := textTokens (inFront blanks .print fresh chunk.reverse)
    let ts ← scanCode .print fuel 0 rest
    some (front ++ .openPrint :: ts)
  | fuel + 1, fresh, chunk, '\x7b' :: '%' :: cs => do
    let (blanks, rest) := readBlanks cs
    let front := textTokens (inFront blanks .tag fresh chunk.reverse)
    match readBareTag "raw" rest with
    | some (opening, raw) => do
      let (body, end₁, end₂, after) ← readRaw [] raw
      let ts ← scanText fuel (breaksBehind end₂ .tag after) [] (behindMark end₂ .tag after)
      some (front ++ textTokens (rawText opening end₁ body) ++ ts)
    | none => do
      let ts ← scanCode .tag fuel 0 rest
      some (front ++ .openTag :: ts)
  | fuel + 1, fresh, chunk, '\x7b' :: '#' :: cs => do
    let (blanks, rest) := readBlanks cs
    let front := textTokens (inFront blanks .tag fresh chunk.reverse)
    let (body, after) ← splitOnce ['#', '\x7d'] rest
    let behind : Blanks := match body.getLast? with
      | some '-' => .remove
      | some '+' => .keep
      | _ => .usual
    let ts ← scanText fuel (breaksBehind behind .tag after) [] (behindMark behind .tag after)
    some (front ++ ts)
  | fuel + 1, fresh, chunk, c :: cs => scanText fuel fresh (c :: chunk) cs

/-- Cuts code into tokens up to the end of its enclosure, which counts only outside of brackets. -/
def scanCode (encloses : Enclosure) : Nat → Int → List Char → Option (List Token)
  | 0, _, _ => none
  | fuel + 1, open_, cs => do
    let code := cs.dropWhile isGap
    match if open_ = 0 then readClose encloses code else none with
    | some (blanks, rest) => do
      let ts ← scanText fuel (breaksBehind blanks encloses rest) []
        (behindMark blanks encloses rest)
      some (closing encloses :: ts)
    | none => do
      let (t, rest) ← readCode code
      let ts ← scanCode encloses fuel (balance open_ t) rest
      some (t :: ts)
end

/-- The tokens of a template. -/
def ofChars? (cs : List Char) : Option (List Token) := scanText (2 * cs.length + 2) true [] cs

end Token

end RouteServer.Template

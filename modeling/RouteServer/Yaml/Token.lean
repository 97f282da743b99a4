import RouteServer.Yaml.Scalar.Block
import RouteServer.Yaml.Scalar.Plain

/-!
# Yaml — Token

The tokens of a document.  The lexer turns indentation into marks that open and close blocks: a
deeper column opens one, a shallower column closes those that are deeper.

A mapping key need not be announced: whatever could be one is remembered as a candidate, with its
place in the list of tokens, and the mark of a key is put there once a `:` follows.  A candidate
stands on one line and is at most 1024 characters long.  Within brackets each level has its own.
-/

namespace RouteServer.Yaml

/-- A tag as it is written: the handle that a directive may explain, and what follows it. -/
structure TagText where
  handle : List Char
  rest : List Char
  deriving DecidableEq, Repr

/-- A token. -/
inductive Token where
  | version (major minor : Nat)
  | tagDirective (handle meaning : List Char)
  | documentStart
  | documentEnd
  | blockList
  | blockMapping
  | blockEnd
  | flowList
  | flowListEnd
  | flowMapping
  | flowMappingEnd
  /-- The dash of a list item. -/
  | item
  /-- The comma between brackets. -/
  | comma
  | key
  | value
  | alias (name : List Char)
  | anchor (name : List Char)
  | tag (t : TagText)
  | scalar (plain : Bool) (text : List Char)
  deriving DecidableEq, Repr

/-- What may turn out to be a key. -/
structure Candidate where
  /-- It starts a line of its block, so it has to be a key. -/
  required : Bool
  /-- How many tokens stand in front of it. -/
  place : Nat
  index : Nat
  line : Nat
  column : Nat
  deriving Repr

/-- The state of the lexer. -/
structure Lexer where
  cursor : Cursor
  /-- The tokens so far, in reverse. -/
  done : List Token := []
  /-- How many brackets are open. -/
  flow : Nat := 0
  /-- The column of the innermost block, and those of the blocks around it. -/
  indent : Int := -1
  outer : List Int := []
  /-- Whether a key may start here. -/
  keyAllowed : Bool := true
  /-- The candidate of the innermost level, and those of the levels around it. -/
  candidate : Option Candidate := none
  waiting : List (Option Candidate) := []

namespace Lexer

/-- The lexer with one more token. -/
def emit (l : Lexer) (t : Token) : Lexer := { l with done := t :: l.done }

/-- The lexer with a token put behind the first `place` ones. -/
def emitAt (l : Lexer) (place : Nat) (t : Token) : Lexer :=
  let behind := l.done.length - place
  { l with done := l.done.take behind ++ t :: l.done.drop behind }

/-- The lexer behind `n` characters. -/
def skip (l : Lexer) (n : Nat) : Lexer := { l with cursor := l.cursor.skipMany n }

/-! ### Indentation and keys -/

/-- Opens a block at a column that is deeper, its mark behind the first `place` tokens. -/
def openBlock (l : Lexer) (column place : Nat) (t : Token) : Lexer :=
  if l.flow = 0 ∧ l.indent < column then
    { l with indent := column, outer := l.indent :: l.outer }.emitAt place t
  else l

/-- Closes the blocks that are deeper than a column. -/
def closeBlocks (column : Int) : List Int → Lexer → Lexer
  | [], l => l
  | i :: is, l =>
    if column < l.indent then
      closeBlocks column is (Lexer.emit { l with indent := i, outer := is } .blockEnd)
    else l

/-- Closes the blocks that are deeper than a column, outside of brackets. -/
def unindent (l : Lexer) (column : Int) : Lexer :=
  if l.flow = 0 then closeBlocks column l.outer l else l

/-- Whether a candidate can no longer be a key: the line has ended or it has grown too long. -/
def isStale (l : Lexer) (k : Candidate) : Bool :=
  k.line < l.cursor.line || k.index + 1024 < l.cursor.index

/-- Drops the stale ones of some candidates; one that had to be a key is an error. -/
def dropStale (l : Lexer) : List (Option Candidate) → Option (List (Option Candidate))
  | [] => some []
  | none :: ks => (dropStale l ks).map (none :: ·)
  | some k :: ks =>
    if l.isStale k then
      if k.required then none else (dropStale l ks).map (none :: ·)
    else (dropStale l ks).map (some k :: ·)

/-- Drops the stale candidates of all levels. -/
def refresh (l : Lexer) : Option Lexer := do
  match ← dropStale l (l.candidate :: l.waiting) with
  | k :: ks => some { l with candidate := k, waiting := ks }
  | [] => some l

/-- Drops the candidate of this level; one that had to be a key is an error. -/
def dropCandidate (l : Lexer) : Option Lexer :=
  match l.candidate with
  | some k => if k.required then none else some { l with candidate := none }
  | none => some l

/-- Remembers that what starts here may be a key. -/
def saveCandidate (l : Lexer) : Option Lexer :=
  if l.keyAllowed then do
    let l ← l.dropCandidate
    let c := l.cursor
    let required : Bool := l.flow = 0 && l.indent = (c.column : Int)
    some { l with candidate := some ⟨required, l.done.length, c.index, c.line, c.column⟩ }
  else some l

/-! ### Between tokens -/

/-- Skips blanks, comments and breaks.  A tab counts as a blank only where no key may start. -/
def skipGap : Nat → Lexer → Lexer
  | 0, l => l
  | fuel + 1, l =>
    let tabs := l.flow > 0 || !l.keyAllowed
    let c := l.cursor.skipWhile fun x => x = ' ' || (tabs && x = '\t')
    let c := c.skipComment
    if c.atBreak then
      skipGap fuel { l with cursor := c.takeBreak.2, keyAllowed := l.keyAllowed || l.flow = 0 }
    else { l with cursor := c }

/-! ### Directives, tags and names -/

/-- Reads a number of a version: one to nine digits. -/
def readVersionNumber (c : Cursor) : Option (Nat × Cursor) :=
  let (ds, c) := c.takeWhile fun x => (Text.digit? x).isSome
  if ds = [] ∨ 9 < ds.length then none
  else some (ds.foldl (fun n d => 10 * n + (Text.digit? d).getD 0) 0, c)

/-- Reads the handle of a tag: a mark alone, or a word between two marks.  In a directive one that
is a word has to be closed. -/
def readHandle (directive : Bool) (c : Cursor) : Option (List Char × Cursor) :=
  if c.looksAt '!' then
    let (word, c) := c.skip.takeWhile isWord
    if c.looksAt '!' then some ('!' :: word ++ ['!'], c.skip)
    else if directive && word ≠ [] then none
    else some ('!' :: word, c)
  else none

/-- A character of a tag; between angle brackets there are three more. -/
def isTagChar (verbatim : Bool) (x : Char) : Bool :=
  isWord x ||
    [';', '/', '?', ':', '@', '&', '=', '+', '$', '.', '!', '~', '*', '\'', '(', ')'].contains x
    || (verbatim && [',', '[', ']'].contains x)

/-- Reads a byte written as `%` and two hexadecimal digits. -/
def readByte (c : Cursor) : Option (Nat × Cursor) :=
  if c.looksAt '%' then do
    let a ← (c.peekAt 1).bind Text.hexDigit?
    let b ← (c.peekAt 2).bind Text.hexDigit?
    some (16 * a + b, c.skipMany 3)
  else none

/-- Reads further bytes of a character behind the bits of its first ones. -/
def readMoreBytes : Nat → Nat → Cursor → Option (Nat × Cursor)
  | 0, n, c => some (n, c)
  | count + 1, n, c => do
    let (b, c) ← readByte c
    if b / 64 = 2 then readMoreBytes count (64 * n + b % 64) c else none

/-- Reads a character whose bytes are escaped. -/
def readEscapedChar (c : Cursor) : Option (Char × Cursor) := do
  let (b, c) ← readByte c
  let (count, bits) ←
    if b < 128 then some (0, b)
    else if b / 32 = 6 then some (1, b % 32)
    else if b / 16 = 14 then some (2, b % 16)
    else if b / 8 = 30 then some (3, b % 8)
    else none
  let (n, c) ← readMoreBytes count bits c
  if h : n.isValidChar then some (Char.ofNatAux n h, c) else none

/-- Reads the characters of a tag. -/
def readTagChars (verbatim : Bool) : Nat → List Char → Cursor → Option (List Char × Cursor)
  | 0, _, _ => none
  | fuel + 1, out, c =>
    match c.peek with
    | some '%' =>
      (readEscapedChar c).bind fun (x, c) => readTagChars verbatim fuel (out ++ [x]) c
    | some x =>
      if isTagChar verbatim x then readTagChars verbatim fuel (out ++ [x]) c.skip
      else some (out, c)
    | none => some (out, c)

/-- Reads a directive: a version, or what a tag handle means. -/
def readDirective (c : Cursor) : Option (Token × Cursor) := do
  let (name, c) := c.skip.takeWhile isWord
  if name = [] ∨ !c.gapAt 0 then none
  else
    let (t, c) ← match String.ofList name with
      | "YAML" => do
        let (major, c) ← readVersionNumber (c.skipWhile isBlank)
        if !c.looksAt '.' then none
        else
          let (minor, c) ← readVersionNumber c.skip
          some (Token.version major minor, c)
      | "TAG" => do
        let (handle, c) ← readHandle true (c.skipWhile isBlank)
        if !c.atBlank then none
        else
          let (meaning, c) ← readTagChars true c.fuel [] (c.skipWhile isBlank)
          if meaning = [] ∨ !c.gapAt 0 then none
          else some (Token.tagDirective handle meaning, c)
      | _ => none
    let c := (c.skipWhile isBlank).skipComment
    if c.atLineEnd then some (t, c.takeBreak.2) else none

/-- Reads a tag. -/
def readTag (flow : Bool) (c : Cursor) : Option (TagText × Cursor) := do
  let (tag, c) ←
    if c.peekAt 1 = some '<' then do
      let (text, c) ← readTagChars true c.fuel [] (c.skipMany 2)
      if text ≠ [] ∧ c.looksAt '>' then some (TagText.mk [] text, c.skip) else none
    else do
      let (handle, c) ← readHandle false c
      if 2 ≤ handle.length ∧ handle.getLast? = some '!' then
        let (rest, c) ← readTagChars false c.fuel [] c
        if rest = [] then none else some (TagText.mk handle rest, c)
      else
        let (more, c) ← readTagChars false c.fuel [] c
        match handle.drop 1 ++ more with
        | [] => some (TagText.mk [] ['!'], c)
        | rest => some (TagText.mk ['!'] rest, c)
  if c.gapAt 0 || (flow && c.looksAt ',') then some (tag, c) else none

/-- The marks that may follow a name at once. -/
def afterName : List Char := ['?', ':', ',', ']', '}', '%', '@', '\x60']

/-- Reads the name of an anchor or an alias. -/
def readName (c : Cursor) : Option (List Char × Cursor) :=
  let (name, c) := c.skip.takeWhile isWord
  if name ≠ [] ∧ (c.gapAt 0 ∨ c.peek.any (fun x => afterName.contains x)) then
    some (name, c)
  else none

/-! ### Tokens -/

/-- A token that opens brackets. -/
def openFlow (l : Lexer) (t : Token) : Option Lexer := do
  let l ← l.saveCandidate
  some ({ l with flow := l.flow + 1, waiting := l.candidate :: l.waiting, candidate := none,
                 keyAllowed := true }.skip 1 |>.emit t)

/-- A token that closes brackets. -/
def closeFlow (l : Lexer) (t : Token) : Option Lexer := do
  let l ← l.dropCandidate
  let l := match l.flow, l.waiting with
    | n + 1, k :: ks => { l with flow := n, candidate := k, waiting := ks }
    | _, _ => l
  some ({ l with keyAllowed := false }.skip 1 |>.emit t)

/-- The comma between brackets. -/
def readComma (l : Lexer) : Option Lexer := do
  let l ← l.dropCandidate
  some ({ l with keyAllowed := true }.skip 1 |>.emit .comma)

/-- The dash of a list item. -/
def readItem (l : Lexer) : Option Lexer :=
  if l.flow = 0 ∧ !l.keyAllowed then none
  else do
    let l := l.openBlock l.cursor.column l.done.length .blockList
    let l ← l.dropCandidate
    some ({ l with keyAllowed := true }.skip 1 |>.emit .item)

/-- The mark of a key that is announced. -/
def readKey (l : Lexer) : Option Lexer :=
  if l.flow = 0 ∧ !l.keyAllowed then none
  else do
    let l := l.openBlock l.cursor.column l.done.length .blockMapping
    let l ← l.dropCandidate
    some ({ l with keyAllowed := l.flow = 0 }.skip 1 |>.emit .key)

/-- The mark of a value: the candidate in front of it is its key. -/
def readValue (l : Lexer) : Option Lexer :=
  match l.candidate with
  | some k =>
    let l := { l with candidate := none, keyAllowed := false }.emitAt k.place .key
    let l := l.openBlock k.column k.place .blockMapping
    some (l.skip 1 |>.emit .value)
  | none =>
    if l.flow = 0 ∧ !l.keyAllowed then none
    else
      let l := l.openBlock l.cursor.column l.done.length .blockMapping
      some ({ l with keyAllowed := l.flow = 0 }.skip 1 |>.emit .value)

/-- A token that may be a key, or belongs to one. -/
def readKeyLike (l : Lexer) (read : Cursor → Option (Token × Cursor)) : Option Lexer := do
  let l ← l.saveCandidate
  let (t, c) ← read l.cursor
  some ({ l with keyAllowed := false, cursor := c }.emit t)

/-- A block scalar. -/
def readBlockScalar (l : Lexer) (literal : Bool) : Option Lexer := do
  let l ← l.dropCandidate
  let (text, c) ← Scalar.readBlock literal l.indent l.cursor.skip
  some ({ l with keyAllowed := true, cursor := c }.emit (.scalar false text))

/-- A plain scalar; a key may follow it on a new line. -/
def readPlainScalar (l : Lexer) : Option Lexer := do
  let l ← l.saveCandidate
  let (text, broken, c) ← Scalar.readPlain (l.flow > 0) l.indent l.cursor
  some ({ l with keyAllowed := broken, cursor := c }.emit (.scalar true text))

/-- A mark at the start of a line that starts or ends a document. -/
def readMarker (l : Lexer) (t : Token) : Option Lexer := do
  let l ← (l.unindent (-1)).dropCandidate
  some ({ l with keyAllowed := false }.skip 3 |>.emit t)

/-- The characters that mean something at the start of a token. -/
def indicators : List Char :=
  ['-', '?', ':', ',', '[', ']', '{', '}', '#', '&', '*', '!', '|', '>', '\'', '"', '%', '@',
   '\x60']

/-- Whether a plain scalar may start with a character. -/
def startsPlain (l : Lexer) (x : Char) : Bool :=
  !(isBlank x || indicators.contains x) ||
    (x = '-' && !(l.cursor.peekAt 1).any isBlank) ||
    (l.flow = 0 && (x = '?' || x = ':') && !l.cursor.gapAt 1)

/-- Reads the token at the place. -/
def readToken (l : Lexer) (x : Char) : Option Lexer :=
  let c := l.cursor
  let marks : Bool := l.flow > 0 || c.gapAt 1
  if c.column = 0 && x = '%' then do
    let l ← (l.unindent (-1)).dropCandidate
    let (t, c) ← readDirective c
    some ({ l with keyAllowed := false, cursor := c }.emit t)
  else if c.atMarker '-' then l.readMarker .documentStart
  else if c.atMarker '.' then l.readMarker .documentEnd
  else if x = '[' then l.openFlow .flowList
  else if x = '{' then l.openFlow .flowMapping
  else if x = ']' then l.closeFlow .flowListEnd
  else if x = '}' then l.closeFlow .flowMappingEnd
  else if x = ',' then l.readComma
  else if x = '-' && c.gapAt 1 then l.readItem
  else if x = '?' && marks then l.readKey
  else if x = ':' && marks then l.readValue
  else if x = '*' then l.readKeyLike fun c => (readName c).map fun (n, c) => (.alias n, c)
  else if x = '&' then l.readKeyLike fun c => (readName c).map fun (n, c) => (.anchor n, c)
  else if x = '!' then
    l.readKeyLike fun c => (readTag (l.flow > 0) c).map fun (t, c) => (.tag t, c)
  else if (x = '|' || x = '>') && l.flow = 0 then l.readBlockScalar (x = '|')
  else if x = '\'' || x = '"' then
    l.readKeyLike fun c =>
      (Scalar.readQuoted (x = '\'') c).map fun (s, c) => (.scalar false s, c)
  else if l.startsPlain x then l.readPlainScalar
  else none

/-- The end of the text closes all blocks. -/
def finish (l : Lexer) : Option (List Token) := do
  let l ← (l.unindent (-1)).dropCandidate
  some l.done.reverse

/-- Reads all tokens; each takes at least one character. -/
def run : Nat → Lexer → Option (List Token)
  | 0, _ => none
  | fuel + 1, l => do
    let l ← (skipGap l.cursor.fuel l).refresh
    let l := l.unindent l.cursor.column
    match l.cursor.peek with
    | none => l.finish
    | some x => run fuel (← l.readToken x)

end Lexer

/-- The tokens of a text, none of whose characters is a control character.  A byte order mark in
front of it counts as a blank. -/
def Token.ofChars? (cs : List Char) : Option (List Token) :=
  if !cs.all isAllowed then none
  else
    let c := Cursor.start cs
    let c := if c.looksAt '\ufeff' then c.skip else c
    Lexer.run c.fuel { cursor := c }

end RouteServer.Yaml

import RouteServer.Yaml.Cursor

/-!
# Yaml — Scalar — Quoted

Scalars between quotes.  They may span lines; blanks around a line break count for nothing.  Between
single quotes only the quote is special, and is written twice.  Between double quotes a backslash
starts an escape, and one at the end of a line hides the break.
-/

namespace RouteServer.Yaml.Scalar

open RouteServer.Text

/-- The character that a backslash and a letter stand for. -/
def escape? (x : Char) : Option Char :=
  match x with
  | '0' => some '\x00'
  | 'a' => some '\x07'
  | 'b' => some '\x08'
  | 't' | '\t' => some '\t'
  | 'n' => some '\n'
  | 'v' => some '\x0b'
  | 'f' => some '\x0c'
  | 'r' => some '\r'
  | 'e' => some '\x1b'
  | ' ' => some ' '
  | '"' => some '"'
  | '/' => some '/'
  | '\\' => some '\\'
  | 'N' => some '\u0085'
  | '_' => some '\u00a0'
  | 'L' => some '\u2028'
  | 'P' => some '\u2029'
  | _ => none

/-- How many hexadecimal digits follow a letter that escapes by number. -/
def escapeWidth? (x : Char) : Option Nat :=
  match x with
  | 'x' => some 2
  | 'u' => some 4
  | 'U' => some 8
  | _ => none

/-- Reads hexadecimal digits behind a value. -/
def readHex : Nat → Nat → Cursor → Option (Nat × Cursor)
  | 0, n, c => some (n, c)
  | width + 1, n, c =>
    (c.peek.bind hexDigit?).bind fun d => readHex width (16 * n + d) c.skip

/-- Reads an escape behind its backslash. -/
def readEscape (c : Cursor) : Option (Char × Cursor) := do
  let x ← c.peek
  match escape? x with
  | some y => some (y, c.skip)
  | none => do
    let width ← escapeWidth? x
    let (n, c) ← readHex width 0 c.skip
    if h : n.isValidChar then some (Char.ofNatAux n h, c) else none

/-- What stands between two blanks: characters and escapes, `out` holding those read so far.  The
flag says that a hidden break ended it. -/
def readWord (single : Bool) : Nat → List Char → Cursor → Option (List Char × Bool × Cursor)
  | 0, _, _ => none
  | fuel + 1, out, c =>
    if c.gapAt 0 then some (out, false, c)
    else match c.peek with
      | none => some (out, false, c)
      | some x =>
        if single && x = '\'' && c.peekAt 1 = some '\'' then
          readWord single fuel (out ++ ['\'']) (c.skipMany 2)
        else if x = (if single then '\'' else '"') then some (out, false, c)
        else if !single && x = '\\' then
          if (c.peekAt 1).any isBreak then some (out, true, c.skip.takeBreak.2)
          else (readEscape c.skip).bind fun (y, c) => readWord single fuel (out ++ [y]) c
        else readWord single fuel (out ++ [x]) c.skip

/-- Blanks and breaks between two words: the blanks when there is no break, the first break and the
others. -/
def readGap : Nat → Bool → List Char → List Char → List Char → Cursor →
    Bool × List Char × List Char × List Char × Cursor
  | 0, broken, blanks, first, more, c => (broken, blanks, first, more, c)
  | fuel + 1, broken, blanks, first, more, c =>
    match c.peek with
    | none => (broken, blanks, first, more, c)
    | some x =>
      if isBlank x then
        readGap fuel broken (if broken then blanks else blanks ++ [x]) first more c.skip
      else if isBreak x then
        let (b, c) := c.takeBreak
        if broken then readGap fuel true blanks first (more ++ b) c
        else readGap fuel true [] b more c
      else (broken, blanks, first, more, c)

/-- The words of a quoted scalar and the gaps between them, `out` holding what is read so far. -/
def readWords (single : Bool) : Nat → List Char → Cursor → Option (List Char × Cursor)
  | 0, _, _ => none
  | fuel + 1, out, c =>
    if c.atDocumentMarker || c.atEnd then none
    else do
      let (out, hidden, c) ← readWord single c.fuel out c
      if c.looksAt (if single then '\'' else '"') then some (out, c.skip)
      else
        let (broken, blanks, first, more, c) := readGap c.fuel hidden [] [] [] c
        readWords single fuel (out ++ if broken then foldBreaks first more else blanks) c

/-- Reads a quoted scalar from its opening quote. -/
def readQuoted (single : Bool) (c : Cursor) : Option (List Char × Cursor) :=
  readWords single c.fuel [] c.skip

end RouteServer.Yaml.Scalar

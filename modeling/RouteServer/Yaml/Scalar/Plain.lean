import RouteServer.Yaml.Scalar.Quoted

/-!
# Yaml — Scalar — Plain

Scalars without quotes.  One ends where a mapping value or a comment starts, within brackets also at
a comma or a bracket.  It may span lines as long as they are indented further than the block it
stands in.
-/

namespace RouteServer.Yaml.Scalar

/-- The marks that end a plain scalar within brackets. -/
def endsInFlow (x : Char) : Bool := x = ',' || x = '[' || x = ']' || x = '{' || x = '}'

/-- Reads up to a blank or to the end of the scalar. -/
def readPlainWord (flow : Bool) : Nat → List Char → Cursor → Option (List Char × Cursor)
  | 0, _, _ => none
  | fuel + 1, out, c =>
    if c.gapAt 0 then some (out, c)
    else match c.peek with
      | none => some (out, c)
      | some x =>
        if flow && x = ':' && (c.peekAt 1).any (fun y => endsInFlow y || y = '?') then none
        else if (x = ':' && c.gapAt 1) || (flow && endsInFlow x) then some (out, c)
        else readPlainWord flow fuel (out ++ [x]) c.skip

/-- Blanks and breaks behind a word.  Within a line that is not indented enough a tab is refused. -/
def readPlainGap (indent : Int) : Nat → Bool → List Char → List Char → List Char → Cursor →
    Option (Bool × List Char × List Char × List Char × Cursor)
  | 0, _, _, _, _, _ => none
  | fuel + 1, broken, blanks, first, more, c =>
    match c.peek with
    | none => some (broken, blanks, first, more, c)
    | some x =>
      if isBlank x then
        if broken && (c.column : Int) < indent && x = '\t' then none
        else readPlainGap indent fuel broken (if broken then blanks else blanks ++ [x]) first more
          c.skip
      else if isBreak x then
        let (b, c) := c.takeBreak
        if broken then readPlainGap indent fuel true blanks first (more ++ b) c
        else readPlainGap indent fuel true [] b more c
      else some (broken, blanks, first, more, c)

/-- The words of a plain scalar; `gap` is what joins the next one to them.  The answer tells whether
the scalar was followed by a line break. -/
def readPlainWords (flow : Bool) (indent : Int) :
    Nat → List Char → List Char → Bool → Cursor → Option (List Char × Bool × Cursor)
  | 0, _, _, _, _ => none
  | fuel + 1, out, gap, broken, c =>
    if c.atDocumentMarker || c.looksAt '#' then some (out, broken, c)
    else do
      let (word, after) ← readPlainWord flow c.fuel [] c
      let (out, gap, broken) :=
        if word = [] then (out, gap, broken) else (out ++ gap ++ word, [], false)
      if !(after.atBlank || after.atBreak) then some (out, broken, after)
      else
        let (broken', blanks, first, more, c) ←
          readPlainGap indent after.fuel broken gap [] [] after
        let gap := if broken' then foldBreaks first more else blanks
        if !flow && (c.column : Int) < indent then some (out, broken', c)
        else readPlainWords flow indent fuel out gap broken' c

/-- Reads a plain scalar; `outer` is the indentation of the block it stands in. -/
def readPlain (flow : Bool) (outer : Int) (c : Cursor) : Option (List Char × Bool × Cursor) :=
  readPlainWords flow (outer + 1) c.fuel [] [] false c

end RouteServer.Yaml.Scalar

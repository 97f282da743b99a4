import RouteServer.Yaml.Cursor

/-!
# Yaml — Scalar — Block

Scalars whose lines are told from the rest of the document by their indentation.  A literal one
(`|`) keeps its line breaks, a folded one (`>`) joins lines that do not start with a blank.  The
header says what becomes of the breaks at the end, and may give the indentation.
-/

namespace RouteServer.Yaml.Scalar

open RouteServer.Text

/-- What becomes of the line breaks at the end of a block. -/
inductive Chomping where
  /-- All go. -/
  | strip
  /-- One stays. -/
  | clip
  /-- All stay. -/
  | keep
  deriving DecidableEq

/-- Reads the sign of a chomping. -/
def readChomping (c : Cursor) : Option (Chomping × Cursor) :=
  match c.peek with
  | some '+' => some (.keep, c.skip)
  | some '-' => some (.strip, c.skip)
  | _ => none

/-- Reads the digit of an indentation, which is not zero. -/
def readIncrement (c : Cursor) : Option (Option Nat × Cursor) :=
  match c.peek.bind digit? with
  | none => some (none, c)
  | some 0 => none
  | some d => some (some d, c.skip)

/-- Reads the chomping and the indentation of a header, in either order. -/
def readHeader (c : Cursor) : Option (Chomping × Option Nat × Cursor) :=
  match readChomping c with
  | some (chomping, c) => (readIncrement c).map fun (n, c) => (chomping, n, c)
  | none => do
    let (n, c) ← readIncrement c
    match n, readChomping c with
    | some n, some (chomping, c) => some (chomping, some n, c)
    | n, _ => some (.clip, n, c)

/-- Reads blank lines and the indentation in front of the next line that is not blank.  With the
indentation of the block still unknown it finds out the greatest one, `widest`. -/
def readBlankLines (indent : Option Nat) : Nat → Nat → List Char → Cursor →
    Option (List Char × Nat × Cursor)
  | 0, _, _, _ => none
  | fuel + 1, widest, breaks, c =>
    let within (c : Cursor) : Bool := match indent with
      | none => true
      | some n => c.column < n
    let blanks := (c.rest.takeWhile (· = ' ')).length
    let c := c.skipMany <| match indent with
      | none => blanks
      | some n => min blanks (n - c.column)
    let widest := max widest c.column
    if within c && c.looksAt '\t' then none
    else if c.atBreak then
      let (b, c) := c.takeBreak
      readBlankLines indent fuel widest (breaks ++ b) c
    else some (breaks, widest, c)

/-- The lines of a block, `out` holding what is read so far, `last` the break behind the last line
and `more` the breaks of the blank lines that follow it. -/
def readLines (literal : Bool) (indent : Nat) :
    Nat → List Char → List Char → List Char → Bool → Cursor →
      Option (List Char × List Char × List Char × Cursor)
  | 0, _, _, _, _, _ => none
  | fuel + 1, out, last, more, afterBlank, c =>
    if c.column = indent && !c.atEnd then
      let startsBlank := c.atBlank
      let out :=
        if !literal && last = ['\n'] && !afterBlank && !startsBlank then
          out ++ (if more = [] then [' '] else []) ++ more
        else out ++ last ++ more
      let (line, c) := c.takeWhile fun x => !isBreak x
      let (last, c) := c.takeBreak
      match readBlankLines (some indent) c.fuel 0 [] c with
      | none => none
      | some (more, _, c) => readLines literal indent fuel (out ++ line) last more startsBlank c
    else some (out, last, more, c)

/-- Reads a block behind its indicator; `outer` is the indentation of the block it stands in. -/
def readBlock (literal : Bool) (outer : Int) (c : Cursor) : Option (List Char × Cursor) := do
  let (chomping, increment, c) ← readHeader c
  let c := (c.skipWhile isBlank).skipComment
  if !c.atLineEnd then none
  else
    let c := c.takeBreak.2
    let given := increment.map fun n => (if outer ≥ 0 then outer.toNat + n else n)
    let (more, widest, c) ← readBlankLines given c.fuel 0 [] c
    let indent := given.getD (max (max widest (outer + 1).toNat) 1)
    let (out, last, more, c) ← readLines literal indent c.fuel [] [] more false c
    let tail := match chomping with
      | .strip => []
      | .clip => last
      | .keep => last ++ more
    some (out ++ tail, c)

end RouteServer.Yaml.Scalar

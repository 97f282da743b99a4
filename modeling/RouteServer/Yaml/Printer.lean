import RouteServer.Yaml.Scalar.Style

/-!
# Yaml — Printer

Documents as text, in block form.  The entries of a mapping and the items of a list stand each on
lines of their own; a list under a key stands in the column of the key, a mapping under a key and
everything under an item two columns further.

A key that is long, has lines or is no scalar is written behind a question mark, and its value
behind a colon on a line of its own.
-/

namespace RouteServer.Yaml

open RouteServer.Text

/-- A piece of a document as it is written. -/
structure Written where
  text : List Char
  /-- Whether the line is at its end already. -/
  done : Bool

/-- The text of a piece and what ends its line. -/
def Written.line (w : Written) : List Char := if w.done then w.text else w.text ++ ['\n']

/-- A place for a value. -/
structure Slot where
  /-- Whether a blank is needed in front. -/
  gap : Bool
  /-- Whether a list or a mapping starts on the same line. -/
  sameLine : Bool
  listColumn : Nat
  column : Nat

namespace Slot

/-- The place of a whole document. -/
def root : Slot := ⟨false, true, 0, 0⟩

/-- The place behind a mark in a column. -/
def item (column : Nat) : Slot := ⟨true, true, column + 2, column + 2⟩

/-- The place behind a key in a column. -/
def value (column : Nat) : Slot := ⟨true, false, column, column + 2⟩

/-- The place behind a tag. -/
def tagged (s : Slot) : Slot := { s with gap := true, sameLine := false }

/-- The column of the further lines of a string. -/
def textColumn (s : Slot) : Nat := max 2 s.column

/-- What is written in front of a scalar. -/
def lead (s : Slot) : List Char := if s.gap then [' '] else []

/-- What is written in front of a list or mapping in a column. -/
def start (s : Slot) (column : Nat) : List Char :=
  if s.sameLine then s.lead else '\n' :: Scalar.indentation column

end Slot

namespace Value

/-- The number of bytes of the longest key that needs no question mark. -/
def maxKeyBytes : Nat := 128

/-- Whether a key needs no question mark. -/
def isSimpleKey : Value → Bool
  | .string s => s.utf8ByteSize ≤ maxKeyBytes && !s.toList.any isBreak
  | .list xs => xs.isEmpty
  | .mapping es => es.isEmpty
  | .tagged _ _ => false
  | _ => true

/-- A scalar in a place. -/
def writeScalar (slot : Slot) (text : String) : Written := ⟨slot.lead ++ text.toList, false⟩

/-- The places for a key and its value. -/
def entrySlots (column : Nat) (k : Value) : Slot × Slot :=
  if k.isSimpleKey then (.root, .value column) else (.item column, .item column)

/-- A key and its value in a column. -/
def joinEntry (column : Nat) (k : Value) (key w : Written) : Written :=
  if k.isSimpleKey then ⟨key.text ++ ':' :: w.text, w.done⟩
  else ⟨'?' :: key.line ++ Scalar.indentation column ++ ':' :: w.text, w.done⟩

mutual
/-- A value in a place. -/
def write (slot : Slot) : Value → Written
  | .null => writeScalar slot "null"
  | .bool b => writeScalar slot (if b then "true" else "false")
  | .number n => writeScalar slot n.text
  | .string s =>
    ⟨slot.lead ++ Scalar.write slot.textColumn s.toList, Scalar.endsLine s.toList⟩
  | .list [] => writeScalar slot "[]"
  | .list xs =>
    let w := writeItems slot.listColumn xs
    ⟨slot.start slot.listColumn ++ w.text, w.done⟩
  | .mapping [] => writeScalar slot "\x7b\x7d"
  | .mapping es =>
    let w := writeEntries slot.column es
    ⟨slot.start slot.column ++ w.text, w.done⟩
  | .tagged tag v =>
    let w := write slot.tagged v
    ⟨slot.lead ++ tag.toList ++ w.text, w.done⟩

/-- The items of a list in a column. -/
def writeItems (column : Nat) : List Value → Written
  | [] => ⟨[], true⟩
  | [v] =>
    let w := write (.item column) v
    ⟨'-' :: w.text, w.done⟩
  | v :: vs =>
    let w := write (.item column) v
    let rest := writeItems column vs
    ⟨'-' :: w.line ++ Scalar.indentation column ++ rest.text, rest.done⟩

/-- The entries of a mapping in a column. -/
def writeEntries (column : Nat) : List (Value × Value) → Written
  | [] => ⟨[], true⟩
  | [(k, v)] =>
    joinEntry column k (write (entrySlots column k).1 k) (write (entrySlots column k).2 v)
  | (k, v) :: es =>
    let w := joinEntry column k (write (entrySlots column k).1 k) (write (entrySlots column k).2 v)
    let rest := writeEntries column es
    ⟨w.line ++ Scalar.indentation column ++ rest.text, rest.done⟩
end

end Value

/-- The text of a document. -/
def print (v : Value) : String := String.ofList (v.write .root).line

end RouteServer.Yaml

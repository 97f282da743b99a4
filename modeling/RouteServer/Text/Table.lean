import RouteServer.Text.Split

/-!
# Text — Table

A table in a frame with rounded corners.  Each column is as wide as its widest cell, and cells have
a blank at either side; a cell of several lines makes its row as high.

The width of a text is the columns that it takes on a screen.  Ideographs, syllables of Hangul,
full-width forms and most pictographs take two; marks that are put over the character in front of
them take none.
-/

namespace RouteServer.Text

/-! ### Widths -/

/-- The ranges of the characters that take two columns. -/
def wideRanges : List (Nat × Nat) :=
  [(0x1100, 0x115f), (0x231a, 0x231b), (0x2329, 0x232a), (0x23e9, 0x23ec), (0x23f0, 0x23f0),
   (0x23f3, 0x23f3), (0x25fd, 0x25fe), (0x2614, 0x2615), (0x2630, 0x2637), (0x2648, 0x2653),
   (0x267f, 0x267f), (0x268a, 0x268f), (0x2693, 0x2693), (0x26a1, 0x26a1), (0x26aa, 0x26ab),
   (0x26bd, 0x26be), (0x26c4, 0x26c5), (0x26ce, 0x26ce), (0x26d4, 0x26d4), (0x26ea, 0x26ea),
   (0x26f2, 0x26f3), (0x26f5, 0x26f5), (0x26fa, 0x26fa), (0x26fd, 0x26fd), (0x2705, 0x2705),
   (0x270a, 0x270b), (0x2728, 0x2728), (0x274c, 0x274c), (0x274e, 0x274e), (0x2753, 0x2755),
   (0x2757, 0x2757), (0x2795, 0x2797), (0x27b0, 0x27b0), (0x27bf, 0x27bf), (0x2b1b, 0x2b1c),
   (0x2b50, 0x2b50), (0x2b55, 0x2b55), (0x2e80, 0x2e99), (0x2e9b, 0x2ef3), (0x2f00, 0x2fd5),
   (0x2ff0, 0x303e), (0x3041, 0x3096), (0x309b, 0x30ff), (0x3105, 0x312f), (0x3131, 0x318e),
   (0x3190, 0x31e5), (0x31ef, 0x321e), (0x3220, 0x3247), (0x3250, 0xa48c), (0xa490, 0xa4c6),
   (0xa960, 0xa97c), (0xac00, 0xd7a3), (0xf900, 0xfaff), (0xfe10, 0xfe19), (0xfe30, 0xfe52),
   (0xfe54, 0xfe66), (0xfe68, 0xfe6b), (0xff01, 0xff60), (0xffe0, 0xffe6), (0x16fe0, 0x16fe3),
   (0x17000, 0x18cd5), (0x18cff, 0x18d1e), (0x1aff0, 0x1affe), (0x1b000, 0x1b2fb),
   (0x1d300, 0x1d376), (0x1f004, 0x1f004), (0x1f0cf, 0x1f0cf), (0x1f18e, 0x1f18e),
   (0x1f191, 0x1f19a), (0x1f200, 0x1f202), (0x1f210, 0x1f23b), (0x1f240, 0x1f248),
   (0x1f250, 0x1f251), (0x1f260, 0x1f265), (0x1f300, 0x1f320), (0x1f32d, 0x1f335),
   (0x1f337, 0x1f37c), (0x1f37e, 0x1f393), (0x1f3a0, 0x1f3ca), (0x1f3cf, 0x1f3d3),
   (0x1f3e0, 0x1f3f0), (0x1f3f4, 0x1f3f4), (0x1f3f8, 0x1f43e), (0x1f440, 0x1f440),
   (0x1f442, 0x1f4fc), (0x1f4ff, 0x1f53d), (0x1f54b, 0x1f54e), (0x1f550, 0x1f567),
   (0x1f57a, 0x1f57a), (0x1f595, 0x1f596), (0x1f5a4, 0x1f5a4), (0x1f5fb, 0x1f64f),
   (0x1f680, 0x1f6c5), (0x1f6cc, 0x1f6cc), (0x1f6d0, 0x1f6d2), (0x1f6d5, 0x1f6d7),
   (0x1f6dc, 0x1f6df), (0x1f6eb, 0x1f6ec), (0x1f6f4, 0x1f6fc), (0x1f7e0, 0x1f7eb),
   (0x1f7f0, 0x1f7f0), (0x1f90c, 0x1f93a), (0x1f93c, 0x1f945), (0x1f947, 0x1f9ff),
   (0x1fa70, 0x1fa7c), (0x1fa80, 0x1fa89), (0x1fa8f, 0x1fac6), (0x1face, 0x1fadc),
   (0x1fadf, 0x1fae9), (0x1faf0, 0x1faf8), (0x20000, 0x2fffd), (0x30000, 0x3fffd)]

/-- The ranges of the characters that take no column. -/
def narrowRanges : List (Nat × Nat) :=
  [(0x300, 0x36f), (0x483, 0x489), (0x591, 0x5bd), (0x610, 0x61a), (0x64b, 0x65f), (0x1160, 0x11ff),
   (0x1ab0, 0x1aff), (0x1dc0, 0x1dff), (0x200b, 0x200f), (0x202a, 0x202e), (0x2060, 0x206f),
   (0x20d0, 0x20f0), (0x302a, 0x302d), (0x3099, 0x309a), (0xfe00, 0xfe0f), (0xfe20, 0xfe2f),
   (0xfeff, 0xfeff), (0xe0100, 0xe01ef)]

/-- Whether a character lies in one of some ranges. -/
def inRanges (ranges : List (Nat × Nat)) (c : Char) : Bool :=
  ranges.any fun r => r.1 ≤ c.toNat && c.toNat ≤ r.2

/-- The columns of a character. -/
def charWidth (c : Char) : Nat :=
  if inRanges wideRanges c then 2 else if inRanges narrowRanges c then 0 else 1

/-- The columns of a text. -/
def width (cs : List Char) : Nat := cs.foldl (fun columns c => columns + charWidth c) 0

/-! ### Tables -/

/-- A line with blanks behind it up to a width. -/
def fill (columns : Nat) (line : List Char) : List Char :=
  line ++ List.replicate (columns - width line) ' '

/-- The lines of a cell. -/
def cellLines (cell : String) : List (List Char) := splitAt '\n' cell.toList

/-- The width of a column, which has a cell in each row. -/
def columnWidth (rows : List (List String)) (column : Nat) : Nat :=
  rows.foldl (fun w row =>
    ((cellLines ((row[column]?).getD "")).map width).foldl max w) 0

/-- A line of the frame. -/
def rule (left middle right : Char) (widths : List Nat) : String :=
  let spans := widths.map fun w => String.ofList (List.replicate (w + 2) '─')
  left.toString ++ middle.toString.intercalate spans ++ right.toString

/-- The lines of a row. -/
def rowLines (widths : List Nat) (row : List String) : List String :=
  let cells := row.map cellLines
  let height := cells.foldl (fun h lines => max h lines.length) 1
  (List.range height).map fun i =>
    let parts := (widths.zip cells).map fun (w, lines) =>
      " " ++ String.ofList (fill w ((lines[i]?).getD [])) ++ " "
    "│" ++ "│".intercalate parts ++ "│"

/-- The text of a table. -/
def tableText (heading : List String) (rows : List (List String)) : String :=
  let widths := (List.range heading.length).map (columnWidth (heading :: rows))
  "\n".intercalate
    ([rule '╭' '┬' '╮' widths] ++ rowLines widths heading ++ [rule '├' '┼' '┤' widths] ++
     rows.flatMap (rowLines widths) ++ [rule '╰' '┴' '╯' widths])

end RouteServer.Text

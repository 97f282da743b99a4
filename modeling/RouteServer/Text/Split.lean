/-!
# Text — Split

Cutting a text at a separator.  `splitAt sep cs` gives the pieces between the occurrences of
`sep`: one more than there are occurrences, so an empty text is one empty piece.
-/

namespace RouteServer.Text

/-- The pieces between the characters equal to `sep`. -/
def splitAt (sep : Char) : List Char → List (List Char)
  | [] => [[]]
  | c :: cs =>
    if c = sep then [] :: splitAt sep cs
    else match splitAt sep cs with
      | [] => [[c]]
      | piece :: rest => (c :: piece) :: rest

/-- The pieces of a string. -/
def pieces (sep : Char) (s : String) : List String := (splitAt sep s.toList).map String.ofList

/-- What follows `lead` at the start of `cs`. -/
def stripStart (lead cs : List Char) : Option (List Char) :=
  match lead, cs with
  | [], cs => some cs
  | _ :: _, [] => none
  | l :: lead, c :: cs => if l = c then stripStart lead cs else none

/-- What precedes `tail` at the end of `cs`. -/
def stripEnd (tail cs : List Char) : Option (List Char) :=
  (stripStart tail.reverse cs.reverse).map List.reverse

/-- What follows `lead` at the start of the string. -/
def afterStart (lead s : String) : Option String :=
  (stripStart lead.toList s.toList).map String.ofList

/-- Whether a string starts with `lead`. -/
def startsWith (lead s : String) : Bool := (stripStart lead.toList s.toList).isSome

/-- Whether a string ends with `tail`. -/
def endsWith (tail s : String) : Bool := (stripEnd tail.toList s.toList).isSome

/-- The text before and after the first occurrence of `sep`. -/
def splitOnce (sep : List Char) : List Char → Option (List Char × List Char)
  | [] => if sep = [] then some ([], []) else none
  | c :: cs =>
    match stripStart sep (c :: cs) with
    | some rest => some ([], rest)
    | none => (splitOnce sep cs).map fun (before, after) => (c :: before, after)

/-- Whether `part` occurs in the string. -/
def occursIn (part s : String) : Bool := (splitOnce part.toList s.toList).isSome

/-- Every occurrence of `old` replaced by `new`, found from the left; with `old` empty, `new` is
put before every character and at the end. -/
def replaceAll (old new : List Char) (cs : List Char) : List Char :=
  match old with
  | [] => new ++ cs.flatMap fun c => c :: new
  | o :: os => go (o :: os) cs cs.length
where
  /-- Replaces in at most `fuel` places, one for each character that is left. -/
  go (old : List Char) (cs : List Char) : Nat → List Char
    | 0 => cs
    | fuel + 1 =>
      match splitOnce old cs with
      | none => cs
      | some (before, after) => before ++ new ++ go old after fuel

/-- The lines of a text: a line ends at a line feed, and a carriage return before it is not part
of the line; what follows the last line feed is a line when it is not empty. -/
def lines (s : String) : List String :=
  let parts := splitAt '\n' s.toList
  let parts := if parts.getLast? = some [] then parts.dropLast else parts
  parts.map fun l => String.ofList ((stripEnd ['\r'] l).getD l)

/-- A text with blanks appended up to `width` characters. -/
def padRight (width : Nat) (s : String) : String :=
  s ++ String.ofList (List.replicate (width - s.length) ' ')

end RouteServer.Text

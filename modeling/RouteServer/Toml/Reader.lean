import RouteServer.Text.Split
import RouteServer.Toml.Document
import RouteServer.Toml.Scalar

/-!
# Toml — Reader

Reading a document.  Each statement has a line of its own; only arrays, tables in braces and strings
between three quotes go on over several lines.  A comment starts with a number sign.
-/

namespace RouteServer.Toml

open RouteServer.Text

/-- Skips the blanks of a line. -/
def skipGaps (cs : List Char) : List Char := cs.dropWhile isGap

/-- Skips a comment, up to its line break. -/
def skipComment? (cs : List Char) : Option (List Char) :=
  match cs with
  | '#' :: _ =>
    let comment := cs.takeWhile (· ≠ '\n')
    let rest := cs.dropWhile (· ≠ '\n')
    let (comment, rest) := match rest, comment.getLast? with
      | '\n' :: _, some '\r' => (comment.dropLast, '\r' :: rest)
      | _, _ => (comment, rest)
    if comment.any isControl then none else some rest
  | cs => some cs

/-- Skips blanks, comments and line breaks, at most `fuel` of each. -/
def skipAll? : Nat → List Char → Option (List Char)
  | 0, cs => some cs
  | fuel + 1, cs => do
    let cs ← skipComment? (skipGaps cs)
    match behindBreak? cs with
    | some cs => skipAll? fuel cs
    | none => some cs

/-- A character of a key that stands without quotes. -/
def inBareKey (c : Char) : Bool :=
  (digit? c).isSome || ('a' ≤ c && c ≤ 'z') || ('A' ≤ c && c ≤ 'Z') || c = '_' || c = '-'

/-- Reads a part of a key. -/
def readKeyPart (cs : List Char) : Option (String × List Char) :=
  match cs with
  | '"' :: rest => readLine '"' cs.length [] rest
  | '\'' :: rest => readLine '\'' cs.length [] rest
  | cs =>
    match cs.takeWhile inBareKey with
    | [] => none
    | word => some (.ofList word, cs.dropWhile inBareKey)

/-- Reads a key: parts with dots between them. -/
def readKey : Nat → List Char → Option (List String × List Char)
  | 0, _ => none
  | fuel + 1, cs => do
    let (part, cs) ← readKeyPart (skipGaps cs)
    match skipGaps cs with
    | '.' :: cs => do
      let (parts, cs) ← readKey fuel cs
      some (part :: parts, cs)
    | cs => some ([part], cs)

/-- The table of some keys with their values. -/
def tableOf? (pairs : List (List String × Toml)) : Option Toml :=
  (ofStatements? (pairs.map fun p => .pair p.1 p.2)).map .table

mutual
/-- Reads a value. -/
def readValue : Nat → List Char → Option (Toml × List Char)
  | 0, _ => none
  | fuel + 1, cs =>
    match cs with
    | '"' :: _ | '\'' :: _ => (readString cs).map fun (s, cs) => (.string s, cs)
    | '[' :: cs => (readItems fuel cs).map fun (vs, cs) => (.array vs, cs)
    | '{' :: cs => (readPairs fuel cs).bind fun (ps, cs) => (tableOf? ps).map fun t => (t, cs)
    | cs => readWord cs

/-- Reads the items of an array behind its opening bracket or a comma. -/
def readItems : Nat → List Char → Option (List Toml × List Char)
  | 0, _ => none
  | fuel + 1, cs => do
    match ← skipAll? cs.length cs with
    | ']' :: cs => some ([], cs)
    | cs => do
      let (v, cs) ← readValue fuel cs
      match ← skipAll? cs.length cs with
      | ']' :: cs => some ([v], cs)
      | ',' :: cs => do
        let (vs, cs) ← readItems fuel cs
        some (v :: vs, cs)
      | _ => none

/-- Reads the keys and values of a table behind its opening brace or a comma. -/
def readPairs : Nat → List Char → Option (List (List String × Toml) × List Char)
  | 0, _ => none
  | fuel + 1, cs => do
    match ← skipAll? cs.length cs with
    | '}' :: cs => some ([], cs)
    | cs => do
      let (key, cs) ← readKey cs.length cs
      match cs with
      | '=' :: cs => do
        let (v, cs) ← readValue fuel (skipGaps cs)
        match ← skipAll? cs.length cs with
        | '}' :: cs => some ([(key, v)], cs)
        | ',' :: cs => do
          let (ps, cs) ← readPairs fuel cs
          some ((key, v) :: ps, cs)
        | _ => none
      | _ => none
end

/-- Reads a statement. -/
def readStatement (cs : List Char) : Option (Statement × List Char) :=
  match cs with
  | '[' :: '[' :: rest => do
    let (key, rest) ← readKey rest.length rest
    let rest ← stripStart [']', ']'] rest
    some (.item key, rest)
  | '[' :: rest => do
    let (key, rest) ← readKey rest.length rest
    let rest ← stripStart [']'] rest
    some (.table key, rest)
  | cs => do
    let (key, rest) ← readKey cs.length cs
    match rest with
    | '=' :: rest => do
      let (v, rest) ← readValue rest.length (skipGaps rest)
      some (.pair key v, rest)
    | _ => none

/-- Reads statements, each on a line of its own. -/
def readStatements : Nat → List Char → Option (List Statement)
  | 0, _ => none
  | fuel + 1, cs => do
    match ← skipAll? cs.length cs with
    | [] => some []
    | cs => do
      let (s, cs) ← readStatement cs
      match ← skipComment? (skipGaps cs) with
      | [] => some [s]
      | cs => do
        let ss ← readStatements fuel (← behindBreak? cs)
        some (s :: ss)

/-- The text without the mark of its encoding. -/
def withoutMark : List Char → List Char
  | '\uFEFF' :: cs => cs
  | cs => cs

/-- The entries of a document. -/
def read (text : String) : Option (List (String × Toml)) :=
  let cs := withoutMark text.toList
  (readStatements (cs.length + 1) cs).bind ofStatements?

end RouteServer.Toml

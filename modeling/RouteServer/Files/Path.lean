import RouteServer.Text.Split

/-!
# Files — Path

Paths as texts: parts with slashes between them, absolute when they start with one.  Empty parts and
single dots stand for nothing.
-/

namespace RouteServer.Files

open RouteServer.Text

namespace Path

/-- Whether a path starts at the root. -/
def isAbsolute (path : String) : Bool := startsWith "/" path

/-- The parts of a path that lead somewhere. -/
def parts (path : String) : List String :=
  (pieces '/' path).filter fun p => p ≠ "" && p ≠ "."

/-- Whether a path can only mean a directory: it ends in a slash or a dot. -/
def meansDirectory (path : String) : Bool :=
  match (pieces '/' path).getLast? with
  | some last => last = "" || last = "." || last = ".."
  | none => false

/-- A path under a base; an absolute one takes its place. -/
def join (base path : String) : String :=
  if isAbsolute path then path
  else if base = "" then path
  else if endsWith "/" base then base ++ path
  else base ++ "/" ++ path

/-- The last part of a path, when it names something. -/
def fileName? (path : String) : Option String :=
  (parts path).getLast?.filter (· ≠ "..")

/-- A name cut at its last dot: what is in front and what follows.  A dot in first place cuts
nothing. -/
def splitExtension (name : String) : String × Option String :=
  match (pieces '.' name).reverse with
  | ext :: first :: rest =>
    let stem := ".".intercalate (first :: rest).reverse
    if stem = "" then (name, none) else (stem, some ext)
  | _ => (name, none)

/-- What follows the last dot of the last part. -/
def extension? (path : String) : Option String :=
  (fileName? path).bind fun name => (splitExtension name).2

/-- The directory a path stands in, when it has one. -/
def parent? (path : String) : Option String :=
  match (parts path).reverse with
  | [] => none
  | _ :: rest =>
    let front := "/".intercalate rest.reverse
    some (if isAbsolute path then "/" ++ front else front)

/-- The paths of the directories that a path leads through, outermost first. -/
def fronts (path : String) : List String :=
  let lead := if isAbsolute path then "/" else ""
  (List.range (parts path).length).tail.map fun n => lead ++ "/".intercalate ((parts path).take n)

end Path

end RouteServer.Files

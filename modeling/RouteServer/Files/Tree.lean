import RouteServer.Dictionary
import RouteServer.Files.Path

/-!
# Files — Tree

A tree of files and directories, and the operations that can fail on it.  An entry is kept under its
canonical path: the parts from the working directory, or from the root, with slashes between them;
two dots are kept only where they lead above the working directory.  That directory, those above it
and the root are always there.

A path is followed part by part through directories that exist (`locate`); only its last part may be
missing.
-/

namespace RouteServer.Files

open RouteServer.Text

/-- What a file holds: a text, or bytes that are none. -/
inductive Content where
  | text (s : String)
  | bytes (bs : List UInt8)
  deriving DecidableEq, Repr

/-- A file or a directory. -/
inductive Entry where
  | file (content : Content)
  | directory
  deriving DecidableEq, Repr

/-- Why an operation fails. -/
inductive Fault where
  /-- There is nothing at the path. -/
  | missing
  /-- What is there, or on the way there, does not allow it. -/
  | refused
  /-- A fault in the words of the system. -/
  | reported (text : String)
  deriving DecidableEq, Repr

/-- The wording of a fault. -/
def Fault.message : Fault → String
  | .missing => "No such file or directory (os error 2)"
  | .refused => "Operation not permitted (os error 1)"
  | .reported text => text

/-- A tree of files. -/
structure Tree where
  entries : Dictionary Entry := .empty
  deriving DecidableEq

namespace Tree

/-- The canonical path of the parts below the working directory or the root. -/
def canonical (absolute : Bool) (parts : List String) : String :=
  (if absolute then "/" else "") ++ "/".intercalate parts

/-- The parts, in reverse, that lead to the directory above; there is none above the root. -/
def above (absolute : Bool) : List String → List String
  | [] => if absolute then [] else [".."]
  | part :: parts => if part = ".." then ".." :: part :: parts else parts

/-- Whether a canonical path leads to a directory that is always there. -/
def isBase (key : String) : Bool :=
  key = "" || key = "/" || (pieces '/' key).all fun part => part = ".."

/-- The entry at a canonical path. -/
def at? (t : Tree) (key : String) : Option Entry :=
  if isBase key then some .directory else t.entries.get? key

/-- The greatest number of bytes in a name. -/
def maxNameBytes : Nat := 255

/-- Follows the parts of a path from a directory; `done` holds the parts so far in reverse. -/
def follow (t : Tree) (absolute : Bool) : List String → List String → Except Fault String
  | done, [] => .ok (canonical absolute done.reverse)
  | done, part :: parts =>
    match t.at? (canonical absolute done.reverse) with
    | some .directory =>
      if maxNameBytes < part.utf8ByteSize then .error .refused
      else if part = ".." then t.follow absolute (above absolute done) parts
      else t.follow absolute (part :: done) parts
    | some (.file _) => .error .refused
    | none => .error .missing

/-- The canonical path of a path all of whose parts but the last lead through directories. -/
def locate (t : Tree) (path : String) : Except Fault String :=
  if path = "" then .error .missing
  else do
    let key ← t.follow (Path.isAbsolute path) [] (Path.parts path)
    match t.at? key with
    | some (.file _) => if Path.meansDirectory path then .error .refused else .ok key
    | _ => .ok key

/-- The tree with an entry at a path that leads through directories. -/
def put (t : Tree) (path : String) (entry : Entry) : Tree :=
  match t.locate path with
  | .ok key => if isBase key then t else ⟨t.entries.insert key entry⟩
  | .error _ => t

/-- The entry at a path. -/
def node? (t : Tree) (path : String) : Option Entry :=
  match t.locate path with
  | .ok key => t.at? key
  | .error _ => none

/-- Whether there is a file at a path. -/
def isFile (t : Tree) (path : String) : Bool :=
  match t.node? path with
  | some (.file _) => true
  | _ => false

/-- Whether there is a directory at a path. -/
def isDirectory (t : Tree) (path : String) : Bool := t.node? path = some .directory

/-- Whether there is anything at a path. -/
def has (t : Tree) (path : String) : Bool := (t.node? path).isSome

/-- The text of the file at a path. -/
def read (t : Tree) (path : String) : Except Fault String := do
  match t.at? (← t.locate path) with
  | some (.file (.text s)) => .ok s
  | some _ => .error .refused
  | none => .error .missing

/-- Writes a text to the file at a path, which is created when it is missing. -/
def write (t : Tree) (path text : String) : Except Fault Tree := do
  let key ← t.locate path
  match t.at? key with
  | some .directory => .error .refused
  | some (.file _) => .ok ⟨t.entries.insert key (.file (.text text))⟩
  | none =>
    if Path.meansDirectory path then .error .refused
    else .ok ⟨t.entries.insert key (.file (.text text))⟩

/-- Removes the file at a path. -/
def remove (t : Tree) (path : String) : Except Fault Tree := do
  let key ← t.locate path
  match t.at? key with
  | some (.file _) => .ok ⟨t.entries.erase key⟩
  | some .directory => .error .refused
  | none => .error .missing

/-- Moves the file at a path to another path, in place of a file there. -/
def rename (t : Tree) (source target : String) : Except Fault Tree := do
  let sourceKey ← t.locate source
  let targetKey ← t.locate target
  match t.at? sourceKey, t.at? targetKey with
  | some (.file _), some .directory => .error .refused
  | some (.file content), _ =>
    .ok ⟨(t.entries.erase sourceKey).insert targetKey (.file content)⟩
  | some .directory, _ => .error .refused
  | none, _ => .error .missing

/-- Makes the directories of the parts that are missing; `done` holds the parts so far in
reverse. -/
def makeParts (absolute : Bool) : List String → List String → Tree → Except Fault Tree
  | _, [], t => .ok t
  | done, part :: parts, t =>
    if maxNameBytes < part.utf8ByteSize then .error .refused
    else if part = ".." then makeParts absolute (above absolute done) parts t
    else
      let key := canonical absolute (part :: done).reverse
      match t.at? key with
      | some .directory => makeParts absolute (part :: done) parts t
      | some (.file _) => .error .refused
      | none => makeParts absolute (part :: done) parts ⟨t.entries.insert key .directory⟩

/-- Makes the directory at a path and those it stands in. -/
def makeDirectories (t : Tree) (path : String) : Except Fault Tree :=
  makeParts (Path.isAbsolute path) [] (Path.parts path) t

/-- Whether a canonical path leads below another. -/
def isBelow (key path : String) : Bool := startsWith (key ++ "/") path

/-- Removes the directory at a path with all that is below it. -/
def removeTree (t : Tree) (path : String) : Except Fault Tree := do
  let key ← t.locate path
  match t.at? key with
  | some .directory => .ok ⟨t.entries.filter fun k _ => k ≠ key && !isBelow key k⟩
  | some (.file _) => .error .refused
  | none => .error .missing

/-- The names of the entries of the directory at a path, in order. -/
def names (t : Tree) (path : String) : Except Fault (List String) := do
  let key ← t.locate path
  match t.at? key with
  | some .directory =>
    let lead := if key = "" ∨ key = "/" then key else key ++ "/"
    .ok (t.entries.keys.filterMap fun k =>
      (afterStart lead k).filter fun rest => rest ≠ "" && !(rest.toList.contains '/'))
  | some (.file _) => .error .refused
  | none => .error .missing

end Tree

end RouteServer.Files

import RouteServer.Toml.Basic

/-!
# Toml — Document

A document from its statements.  A statement gives a key its value, or opens a table in which the
following ones stand.  No key is given twice, and a table is opened only once; opening one makes the
tables on the way to it, and these may be opened later.  A dotted key makes tables too, which only
dotted keys can add to.
-/

namespace RouteServer.Toml

/-- A statement of a document. -/
inductive Statement where
  /-- Gives a value. -/
  | pair (key : List String) (value : Toml)
  /-- Opens a table. -/
  | table (key : List String)
  /-- Opens a new table at the end of a list of tables. -/
  | item (key : List String)

/-- How a table has come to be. -/
inductive Origin where
  /-- On the way to another. -/
  | implied
  /-- It has been opened. -/
  | opened
  /-- A dotted key has made it. -/
  | dotted
  deriving DecidableEq

/-- A part of a document that is being put together. -/
inductive Node where
  | value (v : Toml)
  | table (origin : Origin) (entries : List (String × Node))
  /-- A list of tables, the last one in front. -/
  | tables (last : List (String × Node)) (before : List (List (String × Node)))

namespace Node

/-- The entries of a table. -/
abbrev Entries := List (String × Node)

/-- The node under a key. -/
def find? (key : String) (es : Entries) : Option Node :=
  (es.find? fun e => e.1 = key).map (·.2)

/-- Puts a node under a key. -/
def put (key : String) (n : Node) : Entries → Entries
  | [] => [(key, n)]
  | e :: es => if e.1 = key then (key, n) :: es else e :: put key n es

/-- Changes the entries at the end of a path of tables.  Tables that are missing are made;
`passes` says which of the others may be gone through. -/
def within (made : Origin) (passes : Origin → Bool) (f : Entries → Option Entries) :
    List String → Entries → Option Entries
  | [], es => f es
  | key :: path, es =>
    match find? key es with
    | none => (within made passes f path []).map fun inner => put key (.table made inner) es
    | some (.table origin inner) =>
      if passes origin then
        (within made passes f path inner).map fun inner => put key (.table origin inner) es
      else none
    | some (.tables last before) =>
      (within made passes f path last).map fun last => put key (.tables last before) es
    | some (.value _) => none

/-- Gives a key of a table its value. -/
def assign (key : String) (v : Toml) (es : Entries) : Option Entries :=
  if (find? key es).isSome then none else some (es ++ [(key, .value v)])

/-- Whether a table of an origin may be gone through by a dotted key. -/
def passesDotted (origin : Origin) : Bool := origin ≠ .opened

/-- Whether the last table of a dotted key, when it is there, has been made by dotted keys. -/
def endsDotted : List String → Entries → Bool
  | [], _ => true
  | [key], es =>
    match find? key es with
    | some (.table origin _) => origin = .dotted
    | some _ => false
    | none => true
  | key :: path, es =>
    match find? key es with
    | some (.table _ inner) => endsDotted path inner
    | some (.tables last _) => endsDotted path last
    | _ => true

/-- Gives a dotted key its value. -/
def assignDotted (path : List String) (key : String) (v : Toml) (es : Entries) : Option Entries :=
  if endsDotted path es then within .dotted passesDotted (assign key v) path es else none

/-- Opens a table. -/
def openTable (key : String) (es : Entries) : Option Entries :=
  match find? key es with
  | none => some (put key (.table .opened []) es)
  | some (.table .implied inner) => some (put key (.table .opened inner) es)
  | some _ => none

/-- Opens a table at the end of a list. -/
def openItem (key : String) (es : Entries) : Option Entries :=
  match find? key es with
  | none => some (put key (.tables [] []) es)
  | some (.tables last before) => some (put key (.tables [] (last :: before)) es)
  | some _ => none

mutual
/-- The value of a node. -/
def toToml : Node → Toml
  | .value v => v
  | .table _ es => .table (entriesToToml es)
  | .tables last before => .array (tablesToToml before ++ [.table (entriesToToml last)])

/-- The values of entries. -/
def entriesToToml : List (String × Node) → List (String × Toml)
  | [] => []
  | (key, n) :: es => (key, toToml n) :: entriesToToml es

/-- The values of tables, the last one in front. -/
def tablesToToml : List (List (String × Node)) → List Toml
  | [] => []
  | es :: rest => tablesToToml rest ++ [.table (entriesToToml es)]
end

end Node

/-- A document so far: its entries and the path of the table that is open. -/
structure Draft where
  entries : Node.Entries := []
  path : List String := []

/-- A key as the path of its table and its last part. -/
def splitKey? (key : List String) : Option (List String × String) :=
  key.getLast?.map fun last => (key.dropLast, last)

/-- Goes through tables of every origin. -/
def passesAll : Origin → Bool := fun _ => true

/-- Adds a statement. -/
def Draft.add (d : Draft) : Statement → Option Draft
  | .pair key v => do
    let (path, last) ← splitKey? key
    let entries ← Node.within .implied passesAll (Node.assignDotted path last v) d.path d.entries
    some { d with entries }
  | .table key => do
    let (path, last) ← splitKey? key
    let entries ← Node.within .implied passesAll (Node.openTable last) path d.entries
    some { entries, path := key }
  | .item key => do
    let (path, last) ← splitKey? key
    let entries ← Node.within .implied passesAll (Node.openItem last) path d.entries
    some { entries, path := key }

/-- The entries of a document with some statements. -/
def ofStatements? (ss : List Statement) : Option (List (String × Toml)) :=
  (ss.foldlM Draft.add {}).map fun d => Node.entriesToToml d.entries

end RouteServer.Toml

import RouteServer.Cache.Key
import RouteServer.Cache.Record
import RouteServer.Cache.StalePolicy
import RouteServer.Files.Tree
import RouteServer.Lookup.Codec
import RouteServer.Lookup.Failure

/-!
# Cache — Store

Answers of earlier look-ups, each in a file of its own.  Within one build an answer that has been
found is also remembered, so that no key is asked for twice.

A look-up has three parts.  `Store.consult` looks for an answer among those remembered and, if there
is none, in the file, where only a fresh record counts.  When nothing is found the answer has to be
fetched.  `Store.settle` keeps what was fetched; if that failed, it falls back on an expired record
when the policy allows it.  An answer is remembered only once it has been given.
-/

namespace RouteServer.Cache

open RouteServer.Files RouteServer.Lookup RouteServer.Time

/-- A cache in a directory. -/
structure Store where
  dir : String
  /-- The age at which a record has expired. -/
  expiry : Span
  stalePolicy : StalePolicy
  /-- Tells the temporary files of this writer from those of others. -/
  writer : Nat := 1000000
  /-- The answers that have been found. -/
  memo : Dictionary Json := .empty

/-- Why a cache cannot be used: its directory cannot be written to. -/
structure NotWritable where
  dir : String
  fault : Files.Fault
  deriving DecidableEq, Repr

/-- A cache with the files it stands in. -/
structure State where
  store : Store
  files : Tree

namespace Store

/-- Makes the directory of a cache. -/
def makeDirectory (s : Store) (files : Tree) : Except NotWritable Tree :=
  (files.makeDirectories s.dir).mapError fun f => ⟨s.dir, f⟩

/-- Writes a file and removes it again. -/
def checkWritable (s : Store) (files : Tree) : Except NotWritable Tree :=
  let probe := Path.join s.dir probeName
  ((files.write probe "ok").bind fun files => files.remove probe).mapError fun f => ⟨s.dir, f⟩

/-- The path of the record of a key. -/
def recordPath (s : Store) (key : String) : String := Path.join s.dir (recordName key)

/-- The path at which the record of a key is prepared. -/
def temporaryPath (s : Store) (key : String) : String :=
  Path.join s.dir (temporaryName key s.writer)

/-- The record that is kept under a key. -/
def stored? (s : Store) (files : Tree) (key : String) : Option Record :=
  (files.read (s.recordPath key)).toOption.bind Record.read

/-- The cache once an answer has been given. -/
def remember (s : Store) (key : String) (payload : Json) : Store :=
  { s with memo := s.memo.insert key payload }

/-- The answer that a payload holds. -/
def answer (codec : Codec α) (payload : Json) : Except Failure α :=
  match codec.decode payload with
  | some x => .ok x
  | none => .error ⟨[], .notJson⟩

/-- The answer that a payload holds, remembered if there is one. -/
def serve (s : Store) (codec : Codec α) (key : String) (payload : Json) :
    Except Failure α × Store :=
  match answer codec payload with
  | .ok x => (.ok x, s.remember key payload)
  | .error e => (.error e, s)

/-- What is found before anything is fetched. -/
inductive Consulted (α : Type) where
  /-- An answer, or a record that does not hold one. -/
  | settled (result : Except Failure α) (store : Store)
  /-- Nothing; there may be a record that has expired. -/
  | missed (expired : Option Record)

/-- Looks for an answer without fetching it. -/
def consult (s : Store) (files : Tree) (now : Instant) (codec : Codec α) (key : String) :
    Consulted α :=
  match s.memo.get? key with
  | some payload => .settled (answer codec payload) s
  | none =>
    match s.stored? files key with
    | some record =>
      if record.isFresh now s.expiry then
        let (result, s) := s.serve codec key record.payload
        .settled result s
      else .missed (some record)
    | none => .missed none

/-- The record of an answer. -/
def record (s : Store) (now : Instant) (key : String) (payload : Json) : Record :=
  { key, cachedAt := now, expirySeconds := s.expiry.seconds, payload }

/-- Prepares a record in its temporary file. -/
def prepare (s : Store) (files : Tree) (r : Record) : Except Failure Tree :=
  let path := s.temporaryPath r.key
  (files.write path r.text).mapError fun f => ⟨[], .file .write path f⟩

/-- Puts the record that has been prepared in its place. -/
def commit (s : Store) (files : Tree) (key : String) : Except Failure Tree :=
  let path := s.recordPath key
  (files.rename (s.temporaryPath key) path).mapError fun f => ⟨[], .file .replace path f⟩

/-- Keeps an answer: its record is prepared and put in place, and it is remembered. -/
def keep (s : Store) (files : Tree) (now : Instant) (key : String) (payload : Json) :
    Except Failure Unit × State :=
  match s.prepare files (s.record now key payload) with
  | .error e => (.error e, ⟨s, files⟩)
  | .ok prepared =>
    match s.commit prepared key with
    | .error e => (.error e, ⟨s, prepared⟩)
    | .ok files => (.ok (), ⟨s.remember key payload, files⟩)

/-- Ends a look-up that found nothing, with what was fetched. -/
def settle (s : Store) (files : Tree) (now : Instant) (codec : Codec α) (key : String)
    (expired : Option Record) (fetched : Except Failure α) : Except Failure α × State :=
  match fetched with
  | .ok x =>
    let (kept, state) := s.keep files now key (codec.encode x).canonical
    (kept.map fun _ => x, state)
  | .error e =>
    match s.stalePolicy, expired with
    | .useStale, some record =>
      let (result, s) := s.serve codec key record.payload
      (result, ⟨s, files⟩)
    | _, _ => (.error e, ⟨s, files⟩)

/-- How a look-up ends. -/
structure Outcome (α : Type) where
  result : Except Failure α
  /-- Whether the answer was fetched, or could not be. -/
  fetched : Bool
  state : State

/-- Looks a key up; `fetch` is what fetching its answer gives. -/
def lookup (s : Store) (files : Tree) (now : Instant) (codec : Codec α) (key : String)
    (fetch : Except Failure α) : Outcome α :=
  match s.consult files now codec key with
  | .settled result s => ⟨result, false, ⟨s, files⟩⟩
  | .missed expired =>
    let (result, state) := s.settle files now codec key expired fetch
    ⟨result, true, state⟩

/-! ### The records of a cache -/

/-- The paths of the records; a directory that is not there has none. -/
def recordPaths (s : Store) (files : Tree) : Except Failure (List String) :=
  if files.has s.dir then
    match files.names s.dir with
    | .ok names =>
      .ok ((names.filter fun name => (Path.splitExtension name).2 = some recordExtension).map
        (Path.join s.dir))
    | .error f => .error ⟨[], .system f⟩
  else .ok []

/-- What the record at a path says of itself. -/
def info? (files : Tree) (path : String) : Option RecordInfo :=
  (files.read path).toOption.bind RecordInfo.read

/-- The records that say of themselves what they should, the latest first. -/
def list (s : Store) (files : Tree) : Except Failure (List RecordInfo) := do
  let paths ← s.recordPaths files
  .ok ((paths.filterMap (info? files)).mergeSort fun a b => !a.cachedAt.isBefore b.cachedAt)

/-- Removes the files at some paths. -/
def removeAll : List String → Tree → Except Failure Unit × Tree
  | [], files => (.ok (), files)
  | path :: paths, files =>
    match files.remove path with
    | .ok files => removeAll paths files
    | .error f => (.error ⟨[], .file .remove path f⟩, files)

/-- Removes all records and forgets all answers; gives the number of the records. -/
def clearAll (s : Store) (files : Tree) : Except Failure Nat × State :=
  match s.recordPaths files with
  | .error e => (.error e, ⟨s, files⟩)
  | .ok paths =>
    match removeAll paths files with
    | (.ok (), files) => (.ok paths.length, ⟨{ s with memo := .empty }, files⟩)
    | (.error e, files) => (.error e, ⟨s, files⟩)

/-- Whether the record at a path can be read and is fresh. -/
def isKept (s : Store) (files : Tree) (now : Instant) (path : String) : Bool :=
  (info? files path).any fun info => info.isFresh now s.expiry

/-- Removes the records that have expired or cannot be read, and gives their number; answers that
have been found stay remembered. -/
def clearExpired (s : Store) (files : Tree) (now : Instant) : Except Failure Nat × State :=
  match s.recordPaths files with
  | .error e => (.error e, ⟨s, files⟩)
  | .ok paths =>
    let expired := paths.filter fun path => !s.isKept files now path
    let (removed, files) := removeAll expired files
    (removed.map fun _ => expired.length, ⟨s, files⟩)

end Store

end RouteServer.Cache

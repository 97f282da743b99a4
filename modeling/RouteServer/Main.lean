import RouteServer.CommandLine.Run
import Std.Time.DateTime.Timestamp

/-!
# Main

The program.  It takes in the files at the places that its command looks at, runs on them, and gives
back what has changed before it prints anything.

No other program is run here and nothing is asked over the network, so what is known about networks
comes out of the cache.
-/

namespace RouteServer.CommandLine

open RouteServer.Files

/-- What is at a path. -/
def entryAt? (path : String) : IO (Option Entry) := do
  try
    let real ← IO.FS.realPath path
    if ← real.isDir then return some .directory
    let bytes ← IO.FS.readBinFile real
    match String.fromUTF8? bytes with
    | some text => return some (.file (.text text))
    | none => return some (.file (.bytes bytes.toList))
  catch _ => return none

/-- Takes in what is at a path, and everything below it. -/
partial def takeBelow (path : String) (files : Tree) : IO Tree := do
  match ← entryAt? path with
  | none => return files
  | some (.file content) => return files.put path (.file content)
  | some .directory =>
    let mut files := files.put path .directory
    for child in ← (← IO.FS.realPath path).readDir do
      files ← takeBelow (Path.join path child.fileName) files
    return files

/-- Takes in what is at a path and the directories that lead there. -/
def take (files : Tree) (path : String) : IO Tree := do
  let mut files := files
  for front in Path.fronts path do
    if let some entry ← entryAt? front then
      files := files.put front entry
  takeBelow path files

/-- Makes the files of the system what they have become. -/
def give (before after : Tree) : IO Unit := do
  for (path, _) in before.entries.entries do
    if (after.entries.get? path).isNone then IO.FS.removeFile path
  for (path, entry) in after.entries.entries do
    if before.entries.get? path ≠ some entry then
      match entry with
      | .directory => IO.FS.createDirAll path
      | .file (.text text) => IO.FS.writeFile path text
      | .file (.bytes bytes) => IO.FS.writeBinFile path ⟨bytes.toArray⟩

/-- The present. -/
def present : IO Time.Instant := do
  let nanos := (← Std.Time.Timestamp.now).toNanosecondsSinceUnixEpoch.toInt
  return ⟨nanos.fdiv Time.nanosPerSecond, (nanos.fmod Time.nanosPerSecond).toNat⟩

/-- What surrounds the program. -/
def environment : IO Environment := do
  let bindings ← Settings.variableNames.filterMapM fun name => do
    return (← IO.getEnv name).map fun value => (name, value)
  return {
    home := (← IO.getEnv "HOME").getD ""
    bindings
    now := ← present
    program := fun _ _ => .refused (.reported "programs are not run") }

/-- The files that a run looks at. -/
def takeAll (env : Environment) (args : List String) : IO Tree := do
  match Invocation.read args with
  | .error _ => return {}
  | .ok i =>
    let files ← (Settings.places env.home i.settingsFile).foldlM take {}
    match (Settings.load env.home env.bindings i.settingsFile files).1 with
    | .error _ => return files
    | .ok s => (i.command.places s).foldlM take files

end RouteServer.CommandLine

open RouteServer.CommandLine in
/-- Runs the program. -/
def main (args : List String) : IO UInt32 := do
  let env ← environment
  let before ← takeAll env args
  let ending := run env args before
  try
    give before ending.files
    IO.print ending.output
    match ending.conclusion with
    | .done => pure ()
    | .failed failure => IO.eprintln failure.line
    | .stopped .information => IO.println usage
    | .stopped .misuse => IO.eprintln usage
    return ending.status.toUInt32
  catch e =>
    IO.eprintln ("ERROR: " ++ toString e)
    return 1

import RouteServer.CommandLine.Command
import RouteServer.CommandLine.Ending
import RouteServer.Lookup.Directory
import RouteServer.Settings.File
import RouteServer.Text.Table
import RouteServer.Time.Instant

/-!
# CommandLine — Run

The program from its arguments to its ending, as a function of what surrounds it: files, variables
of the environment, the time, and what comes of running another program.

The text of a build is put out only when all of it is there, so a build that fails prints nothing
and leaves the file for its text as it is.
-/

namespace RouteServer.CommandLine

open RouteServer.Build RouteServer.Cache RouteServer.Enrich RouteServer.Files RouteServer.Lookup
open RouteServer.Text RouteServer.Time

/-- What surrounds the program, besides files. -/
structure Environment where
  /-- The directory of the user. -/
  home : String
  /-- The variables of the environment, with their values. -/
  bindings : List (String × String)
  now : Instant
  /-- What comes of running the program at a path with arguments. -/
  program : String → List String → Lookup.Run

/-- Whom to ask. -/
def Environment.sources (env : Environment) (s : Settings) : Sources :=
  { origins := s.registry.origins (env.program s.registry.path)
    prefixes := s.registry.prefixes (env.program s.registry.path)
    net := (Directory.ofAddress s.peeringDbUrl).net }

/-! ### Builds -/

/-- The program that is asked a question, with its arguments; some questions are asked otherwise. -/
def programFor? (c : RegistryClient) : Query → Option (String × List String)
  | .origins name => some (c.path, c.originArguments name)
  | .prefixes name family => some (c.path, c.prefixArguments name family)
  | .net _ => none

/-- Puts the text of a build into its file, prints it, or drops it. -/
def deliver (o : BuildOptions) (text : String) (files : Tree) : Ending :=
  if o.testOnly then .done "" files
  else
    match o.output with
    | none => .done text files
    | some path =>
      match files.write path text with
      | .ok files => .done "" files
      | .error f => .failed (.build (.system f)) files

/-- Ends a build. -/
def conclude (o : BuildOptions) (outcome : Builder.Outcome String) : Ending :=
  match outcome.result with
  | .ok text => deliver o text outcome.files
  | .error e => .failed (.build e) outcome.files

/-- Builds the text for a target.  A build demands the directory of its cache, which is made
first. -/
def runBuild (env : Environment) (s : Settings) (t : Target) (o : BuildOptions) (files : Tree) :
    Ending :=
  match files.makeDirectories s.cacheDir with
  | .error f => .failed (.build (.system f)) files
  | .ok files =>
    match Builder.start t (o.arguments (s.arguments t)) o.inputs files with
    | (.error e, files) => .failed (.build e) files
    | (.ok b, files) =>
      let outcome := b.render (env.sources s) env.now files
      { conclude o outcome with programs := outcome.asked.filterMap (programFor? s.registry) }

/-! ### The cache -/

/-- The cache of an installation. -/
def store (s : Settings) : Store :=
  { dir := s.cacheDir, expiry := s.cacheExpiry, stalePolicy := s.stalePolicy }

/-- What is shown of a record. -/
def recordRow (now : Instant) (expiry : Span) (r : RecordInfo) : List String :=
  [r.key, distanceText now r.cachedAt, if r.isFresh now expiry then "fresh" else "expired"]

/-- What is shown of the records of a cache. -/
def listingText (now : Instant) (store : Store) (records : List RecordInfo) : String :=
  match records with
  | [] => "cache is empty: " ++ store.dir ++ "\n"
  | records =>
    tableText ["key", "cached", "status"] (records.map (recordRow now store.expiry)) ++ "\n"

/-- Shows the records of the cache. -/
def runListing (env : Environment) (s : Settings) (files : Tree) : Ending :=
  match (store s).makeDirectory files with
  | .error e => .failed (.cache e) files
  | .ok files =>
    match (store s).list files with
    | .ok records => .done (listingText env.now (store s) records) files
    | .error e => .failed (.listing e) files

/-- Removes records from the cache: all, or those that have expired. -/
def runClearing (env : Environment) (s : Settings) (expiredOnly : Bool) (files : Tree) : Ending :=
  match (store s).makeDirectory files with
  | .error e => .failed (.cache e) files
  | .ok files =>
    let (removed, state) :=
      if expiredOnly then (store s).clearExpired files env.now else (store s).clearAll files
    match removed with
    | .ok n =>
      .done (natText n ++ " record(s) removed from " ++ s.cacheDir ++ "\n") state.files
    | .error e => .failed (.clearing e) state.files

/-! ### Settings -/

/-- The column in which the values of a report start. -/
def labelWidth : Nat := 19

/-- The line of a report on the templates of a target. -/
def templateLine (s : Settings) (files : Tree) (t : Target) : String :=
  let dir := s.templateDir t
  let found := if files.isDirectory dir then "found" else "missing"
  String.ofList (fill labelWidth (t.name ++ ":").toList) ++ " " ++ dir ++ " (" ++ found ++ ")"

/-- The report on the settings, which come out of the file at a path. -/
def report (path : String) (s : Settings) (withTemplates : Bool) (files : Tree) : String :=
  "\n".intercalate
    (["Config File:        " ++ path, s.summary] ++
     if withTemplates then "" :: Target.all.map (templateLine s files) else [])

/-! ### The program -/

/-- The places that a command looks at, besides those of the settings. -/
def Command.places (s : Settings) : Command → List String
  | .build t o =>
    let a := o.arguments (s.arguments t)
    s.cacheDir :: (a.templateDir.toList ++ o.inputs.paths ++ o.output.toList)
  | .listCache | .clearCache _ => [s.cacheDir]
  | .showSettings _ => Target.all.map s.templateDir

/-- Does what a command asks for. -/
def Invocation.run (env : Environment) (s : Settings) (files : Tree) (i : Invocation) : Ending :=
  match i.command with
  | .build t o => runBuild env s t o files
  | .listCache => runListing env s files
  | .clearCache expiredOnly => runClearing env s expiredOnly files
  | .showSettings withTemplates =>
    let path := i.settingsFile.getD (Settings.defaultFile env.home)
    .done (report path s withTemplates files ++ "\n") files

/-- Runs the program. -/
def run (env : Environment) (args : List String) (files : Tree) : Ending :=
  match Invocation.read args with
  | .error why => { conclusion := .stopped why, files }
  | .ok i =>
    match Settings.load env.home env.bindings i.settingsFile files with
    | (.error e, files) => .failed (.settings e) files
    | (.ok s, files) => i.run env s files

end RouteServer.CommandLine

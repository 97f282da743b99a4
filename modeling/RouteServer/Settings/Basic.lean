import RouteServer.Build.Arguments
import RouteServer.Files.Path

/-!
# Settings — Basic

What all builds of one installation share: where things are kept, how long answers are, and whom to
ask.  Settings are given as texts under names; a name that is missing stands for its default, and
the directories default to places within the data directory.
-/

namespace RouteServer

open RouteServer.Build RouteServer.Cache RouteServer.Lookup RouteServer.Text RouteServer.Time

/-- The settings of an installation. -/
structure Settings where
  dataDir : String
  cacheDir : String
  /-- The age at which a record has expired. -/
  cacheExpiry : Span
  stalePolicy : StalePolicy
  /-- Holds a directory of templates for each target. -/
  templatesDir : String
  registry : RegistryClient
  peeringDbUrl : String
  threads : Nat
  deriving DecidableEq, Repr

namespace Settings

/-- Why there are no settings. -/
inductive Fault where
  /-- The directory for data cannot be made. -/
  | noDataDirectory (fault : Files.Fault)
  /-- The file cannot be created. -/
  | notCreated (path : String) (fault : Files.Fault)
  /-- The file cannot be read. -/
  | malformed
  /-- A setting is no text. -/
  | notText
  | invalidExpiry (text : String)
  | invalidPolicy (text : String)
  | invalidThreads (text : String)
  deriving DecidableEq, Repr

/-- The wording of a fault. -/
def Fault.message : Fault → String
  | .noDataDirectory fault => "Unable to create rsgen directory: " ++ fault.message
  | .notCreated path fault => "Unable to create config file " ++ path ++ ": " ++ fault.message
  | .malformed => "Failed to build configuration: the file is not well formed"
  | .notText => "Failed to deserialize configuration: a setting is not a text"
  | .invalidExpiry text => "Invalid cache_expiry '" ++ text ++ "': not a length of time"
  | .invalidPolicy text => "Invalid stale_policy: " ++ StalePolicy.refusal text
  | .invalidThreads text => "Invalid threads '" ++ text ++ "': expected a positive number"

/-- Where data is kept by default. -/
def defaultDataDir (home : String) : String := home ++ "/.rsgen"

/-- The file of the settings by default. -/
def defaultFile (home : String) : String := defaultDataDir home ++ "/rsgen.toml"

/-- The defaults with another data directory. -/
def inDirectory (dir : String) : Settings :=
  let a : Arguments := {}
  { dataDir := dir
    cacheDir := dir ++ "/cache"
    cacheExpiry := a.cacheExpiry
    stalePolicy := a.stalePolicy
    templatesDir := dir ++ "/templates"
    registry := a.registry
    peeringDbUrl := a.peeringDbUrl
    threads := a.threads }

/-- The defaults. -/
def default (home : String) : Settings := inDirectory (defaultDataDir home)

/-- A setting that has to be read; `read` is not asked when it is missing. -/
def orElse (given : Dictionary String) (name : String) (otherwise : α)
    (read : String → Except Fault α) : Except Fault α :=
  match given.get? name with
  | some text => read text
  | none => .ok otherwise

/-- A length of time. -/
def readExpiry (text : String) : Except Fault Span :=
  match Span.read text with
  | some s => .ok s
  | none => .error (.invalidExpiry text)

/-- A policy. -/
def readPolicy (text : String) : Except Fault StalePolicy :=
  match StalePolicy.ofText? text with
  | some p => .ok p
  | none => .error (.invalidPolicy text)

/-- A number that is not zero. -/
def readThreads (text : String) : Except Fault Nat :=
  match readNat maxWord64 text.toList with
  | .ok n => if 0 < n then .ok n else .error (.invalidThreads text)
  | .error _ => .error (.invalidThreads text)

/-- The settings that are given as texts under their names. -/
def ofTexts (home : String) (given : Dictionary String) : Except Fault Settings := do
  let text (name otherwise : String) := (given.get? name).getD otherwise
  let base := inDirectory (withoutTrailing '/' (text "data_dir" (defaultDataDir home)))
  let cacheExpiry ← orElse given "cache_expiry" base.cacheExpiry readExpiry
  let stalePolicy ← orElse given "stale_policy" base.stalePolicy readPolicy
  let threads ← orElse given "threads" base.threads readThreads
  .ok
    { base with
      cacheDir := text "cache_dir" base.cacheDir
      templatesDir := text "templates_dir" base.templatesDir
      cacheExpiry, stalePolicy, threads
      registry :=
        { path := text "bgpq3_path" base.registry.path
          host := text "bgpq3_host" base.registry.host
          sources := text "bgpq3_sources" base.registry.sources }
      peeringDbUrl := text "peeringdb_url" base.peeringDbUrl }

/-- The directory of the templates of a target. -/
def templateDir (s : Settings) (t : Target) : String := Files.Path.join s.templatesDir t.name

/-- The options of a build for a target. -/
def arguments (s : Settings) (t : Target) : Arguments :=
  { templateDir := some (s.templateDir t)
    cacheDir := some s.cacheDir
    cacheExpiry := s.cacheExpiry
    stalePolicy := s.stalePolicy
    registry := s.registry
    peeringDbUrl := s.peeringDbUrl
    threads := s.threads }

/-- The settings in lines for a reader. -/
def summary (s : Settings) : String :=
  "\n".intercalate
    ["Data Directory:     " ++ s.dataDir,
     "Cache Directory:    " ++ s.cacheDir,
     "Cache Expiry:       " ++ s.cacheExpiry.text,
     "Stale Policy:       " ++ s.stalePolicy.text,
     "Templates:          " ++ s.templatesDir,
     "bgpq3:              " ++ s.registry.path ++ " -h " ++ s.registry.host ++ " -S " ++
       s.registry.sources,
     "PeeringDB API:      " ++ s.peeringDbUrl,
     "Threads:            " ++ natText s.threads]

end Settings

end RouteServer

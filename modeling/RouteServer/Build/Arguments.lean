import RouteServer.Build.Target
import RouteServer.Cache.StalePolicy
import RouteServer.Lookup.Directory
import RouteServer.Lookup.Registry
import RouteServer.Net.Address
import RouteServer.Time.Span

/-!
# Build — Arguments

The options of a build, and those that a target does not accept.
-/

namespace RouteServer.Build

open RouteServer.Lookup RouteServer.Net RouteServer.Time RouteServer.Text

/-- The options of a build. -/
structure Arguments where
  templateDir : Option String := none
  templateName : String := "main.j2"
  cacheDir : Option String := none
  /-- The age at which a record has expired: half a day. -/
  cacheExpiry : Span := .ofSeconds 43200
  stalePolicy : Cache.StalePolicy := .fail
  registry : RegistryClient := {}
  peeringDbUrl : String := Directory.publicAddress
  threads : Nat := 4
  /-- The address family of the build; both when there is none. -/
  family : Option Family := none
  /-- The issues that are warnings only. -/
  ignored : List String := []
  liveTests : Bool := false
  /-- The files of the operator that are to be used. -/
  localFiles : List String := []
  localFilesDir : String := "/etc/bgpd"
  deriving DecidableEq, Repr

namespace Arguments

/-- The places at which files of the operator can be used. -/
def localFileIds : List String :=
  ["header", "pre-irrdb", "post-irrdb", "pre-clients", "post-clients", "client", "pre-filters",
   "post-filters", "footer"]

/-- Why an argument is refused. -/
inductive Fault where
  | noThreads
  /-- The target needs to know the address family. -/
  | familyRequired
  | unknownLocalFile (id : String)
  | unknownFamily (n : Nat)
  /-- A fault in the words of whoever found it. -/
  | stated (text : String)
  deriving DecidableEq, Repr

/-- The wording of a fault. -/
def Fault.message : Fault → String
  | .noThreads => "the number of threads must be at least 1"
  | .familyRequired =>
    "an explicit target IP version is needed to build BIRD configuration, " ++
      "use --ip-ver to supply one"
  | .unknownLocalFile id =>
    "the .local file ID '" ++ id ++ "' is invalid, valid IDs are: " ++ ", ".intercalate localFileIds
  | .unknownFamily n => "invalid IP version: " ++ natText n
  | .stated text => text

/-- What a target demands of the arguments. -/
def check (a : Arguments) : Target → Except Fault Unit
  | .bird => if a.family.isNone then .error .familyRequired else .ok ()
  | .openBgpd =>
    match a.localFiles.find? fun id => !localFileIds.contains id with
    | some id => .error (.unknownLocalFile id)
    | none => .ok ()
  | .context => .ok ()

/-- The families of the build. -/
def families (a : Arguments) : List Family :=
  match a.family with
  | some f => [f]
  | none => [.v4, .v6]

end Arguments

end RouteServer.Build

import RouteServer.Json.Reader
import RouteServer.Lookup.Codec
import RouteServer.Lookup.Failure
import RouteServer.Text.Blank

/-!
# Lookup — Registry

The routing registries, asked through a program that puts out JSON: running the program for its
output, and what is made of that.  A prefix of its output counts as it stands when it is exact;
otherwise it stands for the lengths between two bounds, of which the lower is its own length and the
upper the width of its family unless they are given.
-/

namespace RouteServer.Lookup

open RouteServer.Net RouteServer.Policy RouteServer.Text

/-! ### Programs -/

/-- How a program ends. -/
inductive ExitStatus where
  /-- It ends by itself, with a number; zero stands for success. -/
  | code (n : Nat)
  /-- A signal ends it. -/
  | signal (n : Nat)
  deriving DecidableEq, Repr

namespace ExitStatus

/-- The names of the signals, from the first on. -/
def signalNames : List String :=
  ["SIGHUP", "SIGINT", "SIGQUIT", "SIGILL", "SIGTRAP", "SIGABRT", "SIGBUS", "SIGFPE", "SIGKILL",
   "SIGUSR1", "SIGSEGV", "SIGUSR2", "SIGPIPE", "SIGALRM", "SIGTERM", "SIGSTKFLT", "SIGCHLD",
   "SIGCONT", "SIGSTOP", "SIGTSTP", "SIGTTIN", "SIGTTOU", "SIGURG", "SIGXCPU", "SIGXFSZ",
   "SIGVTALRM", "SIGPROF", "SIGWINCH", "SIGIO", "SIGPWR", "SIGSYS"]

/-- The name of a signal. -/
def signalName? (n : Nat) : Option String := if n = 0 then none else signalNames[n - 1]?

/-- The signal with a name. -/
def ofSignalName? (name : String) : Option ExitStatus :=
  (signalNames.findIdx? (· = name)).map fun i => .signal (i + 1)

/-- The text of a status. -/
def text : ExitStatus → String
  | .code n => "exit status: " ++ natText n
  | .signal n =>
    "signal: " ++ natText n ++
      match signalName? n with
      | some name => " (" ++ name ++ ")"
      | none => ""

end ExitStatus

/-- What comes of running a program. -/
inductive Run where
  /-- It could not be started. -/
  | refused (fault : Files.Fault)
  | ended (status : ExitStatus) (output errors : String)
  deriving DecidableEq, Repr

/-- What a program puts out; that counts only when it ends with success.  `path` is the program and
`subject` what it was asked about. -/
def Run.output (path subject : String) : Run → Except Failure String
  | .refused fault => .error ⟨["can't run " ++ path], .system fault⟩
  | .ended (.code 0) output _ => .ok output
  | .ended status _ errors =>
    .error ⟨[], .stated (path ++ " exited with " ++ status.text ++ " while resolving " ++ subject ++
      ": " ++ trimText errors)⟩

/-! ### The registries -/

/-- The program that asks the routing registries. -/
structure RegistryClient where
  path : String := "bgpq3"
  host : String := "rr.ntt.net"
  sources : String :=
    "RIPE,APNIC,AFRINIC,ARIN,NTTCOM,ALTDB,BBOI,BELL,JPIRR,LEVEL3,RADB,RGNET,SAVVIS,TC"
  deriving DecidableEq, Repr

namespace RegistryClient

/-- The arguments that every question starts with. -/
def common (c : RegistryClient) : List String := ["-h", c.host, "-S", c.sources, "-3", "-j"]

/-- The arguments that ask for the origins in a set. -/
def originArguments (c : RegistryClient) (name : String) : List String :=
  c.common ++ ["-t", "-l", "asn_list", name]

/-- The arguments that ask for the prefixes of a set. -/
def prefixArguments (c : RegistryClient) (name : String) (family : Family) : List String :=
  c.common ++ ["-A", "-" ++ natText family.number, "-l", "prefix_list", name]

end RegistryClient

namespace Registry

/-- The list under the only field of an output. -/
def listUnder? (name : String) (decode : Json → Option α) (output : String) : Option (List α) := do
  match ← Json.record? [⟨name, .required⟩] (← Json.read output) with
  | [some v] => Json.listOf? decode v
  | _ => none

/-- The origins of an output. -/
def origins (output : String) : Except Failure (List Asn) :=
  match listUnder? "asn_list" Json.uint32? output with
  | some asns => .ok asns
  | none => .error ⟨["unexpected bgpq3 output for the ASN list"], .notJson⟩

/-- A prefix as it stands in an output. -/
structure Entry where
  text : String
  exact : Bool
  atLeast : Option UInt8
  atMost : Option UInt8
  deriving DecidableEq, Repr

namespace Entry

/-- The fields of an entry. -/
def fields : List Json.RecordField :=
  [⟨"prefix", .required⟩, ⟨"exact", .required⟩, ⟨"greater-equal", .optional⟩,
   ⟨"less-equal", .optional⟩]

/-- The entry of a value. -/
def ofJson? (v : Json) : Option Entry := do
  match ← Json.record? fields v with
  | [some text, some exact, atLeast, atMost] =>
    let text ← text.string?
    let exact ← exact.bool?
    let atLeast ← Json.optional? Json.uint8? atLeast
    let atMost ← Json.optional? Json.uint8? atMost
    some { text, exact, atLeast, atMost }
  | _ => none

/-- A failure at an entry. -/
def fault (e : Entry) (cause : Option String) : Failure :=
  let doing := "invalid prefix '" ++ e.text ++ "'"
  match cause with
  | none => ⟨[], .stated doing⟩
  | some cause => ⟨[doing], .stated cause⟩

/-- The prefix of an entry. -/
def toPrefix (e : Entry) : Except Failure SetPrefix :=
  match splitOnce ['/'] e.text.toList with
  | none => .error (e.fault none)
  | some (address, length) =>
    match Address.read (String.ofList address), readNat 255 length with
    | none, _ => .error (e.fault (some "invalid IP address syntax"))
    | some _, .error f => .error (e.fault (some f.message))
    | some address, .ok n =>
      let length := UInt8.ofNat n
      let width := UInt8.ofNat address.family.width
      .ok (if e.exact then { address, length, minLength := length, maxLength := length }
        else
          { address, length, minLength := e.atLeast.getD length,
            maxLength := e.atMost.getD width })

end Entry

/-- The prefixes of an output. -/
def prefixes (output : String) : Except Failure (List SetPrefix) :=
  match listUnder? "prefix_list" Entry.ofJson? output with
  | some entries => entries.mapM Entry.toPrefix
  | none => .error ⟨["unexpected bgpq3 output for the prefix list"], .notJson⟩

end Registry

namespace RegistryClient

/-- The origins in a set, from a run of the program. -/
def origins (c : RegistryClient) (run : List String → Run) (name : String) :
    Except Failure (List Asn) := do
  let output ← (run (c.originArguments name)).output c.path name
  (Registry.origins output).mapError (·.within ("resolving origins of " ++ name))

/-- The prefixes of a set, from a run of the program. -/
def prefixes (c : RegistryClient) (run : List String → Run) (name : String) (family : Family) :
    Except Failure (List SetPrefix) := do
  let output ← (run (c.prefixArguments name family)).output c.path name
  (Registry.prefixes output).mapError (·.within ("resolving prefixes of " ++ name))

end RegistryClient

end RouteServer.Lookup

import RouteServer.Files.Tree
import RouteServer.Policy.Prefix
import RouteServer.Policy.Client
import RouteServer.Text.Message
import RouteServer.Yaml.Reader

/-!
# Policy — Source

Loading the documents of a policy.  A document is read, walked against its schema, checked for the
constraints that span several fields and turned into its typed form.  Both kinds of violations are
reported together; where the walk has refused the value at a path, the second kind adds nothing at
that path.
-/

namespace RouteServer.Policy

open RouteServer.Schema RouteServer.Text RouteServer.Yaml

/-- Where a document comes from. -/
inductive Source where
  | file (path : String)
  | value (v : Value)

/-- The file that a document comes from. -/
def Source.path? : Source → Option String
  | .file path => some path
  | .value _ => none

/-- The documents of a policy. -/
inductive DocumentKind where
  | general
  | bogons
  | asns
  | clients
  | roas
  deriving DecidableEq, Repr

/-- The name of a document. -/
def DocumentKind.name : DocumentKind → String
  | .general => "general"
  | .bogons => "bogons"
  | .asns => "asns"
  | .clients => "clients"
  | .roas => "roas"

/-- Why a document cannot be loaded. -/
inductive LoadFault where
  | missingFile (path : String)
  /-- The file is there and cannot be read. -/
  | unreadable (fault : Files.Fault)
  /-- The text of the document is not well formed. -/
  | malformed (document : String)
  | invalid (document : String) (violations : List Violation)

/-- The wording for a document with some violations. -/
def LoadFault.invalidText (document : String) (violations : List String) : String :=
  listing ("one or more errors occurred while loading the " ++ document ++ " configuration")
    violations

/-- The wording of a fault. -/
def LoadFault.message : LoadFault → String
  | .missingFile path => "file not found: " ++ path
  | .unreadable fault => fault.message
  | .malformed document => invalidText document ["invalid YAML"]
  | .invalid document violations => invalidText document (violations.map Violation.text)

/-- What is loaded, or why it cannot be. -/
abbrev Loaded (α : Type) := Except LoadFault α

namespace Source

/-- Refuses a path at which there is no file. -/
def checkExists (files : Files.Tree) : Source → Loaded Unit
  | .file path => if files.isFile path then .ok () else .error (.missingFile path)
  | .value _ => .ok ()

/-- The value of a source. -/
def read (files : Files.Tree) (document : DocumentKind) : Source → Loaded Value
  | .value v => .ok v
  | .file path => do
    checkExists files (.file path)
    match files.read path with
    | .error fault => .error (.unreadable fault)
    | .ok text =>
      match Yaml.read text with
      | some v => .ok v
      | none => .error (.malformed document.name)

end Source

/-- The violations of both kinds: those of the walk, then those at paths that the walk has not
refused. -/
def mergeViolations (walked crossed : List Violation) : List Violation :=
  walked ++ crossed.filter fun v => !(walked.any fun w => w.path = v.path)

/-- Turns a value into the typed form of a document, or reports all its violations. -/
def accept (document : DocumentKind) (fields : List Field) (parent : Option Value)
    (crossCheck : Value → List Violation) (decode : Value → Decoded α) (v : Value) : Loaded α :=
  let (normal, walked) := walk parent fields v ""
  match mergeViolations walked (crossCheck normal) with
  | [] =>
    match decode normal with
    | .ok x => .ok x
    | .error fault => .error (.invalid document.name [⟨"", .stated fault.message⟩])
  | violations => .error (.invalid document.name violations)

/-- A document without constraints that span several fields. -/
def noCrossCheck : Value → List Violation := fun _ => []

/-- The general configuration of a value. -/
def acceptGeneral : Value → Loaded General :=
  accept .general General.document none General.crossCheck General.ofDocument

/-- The bogons of a value. -/
def acceptBogons : Value → Loaded (List Bogon) :=
  accept .bogons Bogon.document none Bogon.crossCheck Bogon.ofDocument

/-- What a value says about networks. -/
def acceptAsns : Value → Loaded (Dictionary AsnInfo) :=
  accept .asns AsnInfo.document none noCrossCheck AsnInfo.ofDocument

/-- The clients of a value, with the options of `general` where they leave them unset. -/
def acceptClients (general : General) : Value → Loaded (List Client) :=
  accept .clients Client.document (some general.toValue) Client.crossCheck Client.ofDocument

/-- The ROAs of a value. -/
def acceptRoas : Value → Loaded (List Roa) :=
  accept .roas Roa.document none Roa.crossCheck Roa.ofDocument

/-- Loads the general configuration. -/
def loadGeneral (files : Files.Tree) (s : Source) : Loaded General := do
  acceptGeneral (← s.read files .general)

/-- Loads the bogons. -/
def loadBogons (files : Files.Tree) (s : Source) : Loaded (List Bogon) := do
  acceptBogons (← s.read files .bogons)

/-- Loads what is known about networks. -/
def loadAsns (files : Files.Tree) (s : Source) : Loaded (Dictionary AsnInfo) := do
  acceptAsns (← s.read files .asns)

/-- Loads the clients. -/
def loadClients (files : Files.Tree) (s : Source) (general : General) : Loaded (List Client) := do
  acceptClients general (← s.read files .clients)

/-- Loads the ROAs. -/
def loadRoas (files : Files.Tree) (s : Source) : Loaded (List Roa) := do
  acceptRoas (← s.read files .roas)

end RouteServer.Policy

import RouteServer.Build.Arguments
import RouteServer.Files.Path
import RouteServer.Template.Builtin
import RouteServer.Yaml.Printer

/-!
# Build — Helper

The filters and tests that templates have besides the built-in ones: those for every target, and
those for one of them.
-/

namespace RouteServer.Build

open RouteServer.Text RouteServer.Net RouteServer.Template

/-- What a helper does with a value. -/
inductive Helper.Action where
  | filter (run : Value → Except Fault Value)
  | test (run : Value → Except Fault Bool)

/-- A filter or test with its name. -/
structure Helper where
  name : String
  action : Helper.Action

namespace Helper

/-- The address that a value spells. -/
def addressOf (v : Value) : Except Fault Address :=
  match v.string?.bind Address.read with
  | some a => .ok a
  | none => .error (.invalidOperation (v.text ++ " is not an IP address"))

/-- The number of the family of an address. -/
def familyNumber (v : Value) : Except Fault Value := do
  let a ← addressOf v
  .ok (.nat a.family.number)

/-- Whether an address is of the family of the build. -/
def inFamily (family : Option Family) (v : Value) : Except Fault Bool := do
  let a ← addressOf v
  .ok (family.all fun f => a.family = f)

/-- Whether a community has an encoding. -/
def isSetCommunity (v : Value) : Except Fault Value :=
  .ok (.bool (["std", "ext", "lrg"].any fun key => (v.attr? key).any Value.isTrue))

/-- The helpers of every target. -/
def common (family : Option Family) : List Helper :=
  [⟨"ipaddr_ver", .filter familyNumber⟩,
   ⟨"current_ipver", .test (inFamily family)⟩,
   ⟨"community_is_set", .filter isSetCommunity⟩]

/-- An extended community with a blank behind its type: `rt:65501:1` becomes `rt 65501:1`. -/
def spaceExtended (v : Value) : Except Fault Value :=
  let s := v.string?.getD ""
  match pieces ':' s with
  | [type, asn, value] => .ok (.string (type ++ " " ++ asn ++ ":" ++ value))
  | _ => .error (.invalidOperation ("invalid extended community '" ++ s ++ "'"))

/-- The line that makes the daemon read a file of the operator; nothing when the file is not to be
used. -/
def localFile (used : List String) (dir : String) (v : Value) : Except Fault Value :=
  let id := v.string?.getD ""
  if !Arguments.localFileIds.contains id then
    .error (.invalidOperation ("local file ID '" ++ id ++ "' is not a known .local file ID"))
  else if !used.contains id then .ok (.string "")
  else .ok (.string ("include \"" ++ Files.Path.join dir (id ++ ".local") ++ "\"\n\n"))

/-- A value as a document. -/
def document (v : Value) : Except Fault Value := .ok (.string (Yaml.print v.toYaml))

/-- The helpers of a target. -/
def ofTarget (a : Arguments) : Target → List Helper
  | .bird => []
  | .openBgpd =>
    [⟨"convert_ext_comm", .filter spaceExtended⟩,
     ⟨"include_local_file", .filter (localFile a.localFiles a.localFilesDir)⟩]
  | .context => [⟨"to_yaml", .filter document⟩]

/-- The filters among some helpers. -/
def filters (hs : List Helper) : List (String × Builtin.Filter) :=
  hs.filterMap fun h =>
    match h.action with
    | .filter run => some (h.name, Builtin.simple run)
    | .test _ => none

/-- The tests among some helpers. -/
def tests (hs : List Helper) : List (String × Builtin.Test) :=
  hs.filterMap fun h =>
    match h.action with
    | .test run => some (h.name, Builtin.plainTest run)
    | .filter _ => none

end Helper

end RouteServer.Build

import RouteServer.Build.Helper
import RouteServer.Files.Tree
import RouteServer.Policy.Configuration
import RouteServer.Template.Eval

/-!
# Build — Rendering

Templates of a directory, rendered with a configuration.  What templates can name is fixed by
`context`; a name of anything else is a fault.
-/

namespace RouteServer.Build

open RouteServer.Files RouteServer.Net RouteServer.Policy RouteServer.Template

/-- What the templates are given: everything but the first and the last as documents know it. -/
def context (c : Configuration) (family : Option Family) (liveTests : Bool) :
    List (String × Yaml.Value) :=
  [("ip_ver", optionValue (fun f => .nat f.number) family),
   ("cfg", c.general.toValue),
   ("bogons", .list (c.bogons.map Bogon.toValue)),
   ("clients", .list (c.clients.map Client.toValue)),
   ("asns", asnsValue c.asns),
   ("as_sets", dictionaryValue ResolvedSet.toValue c.asSets),
   ("roas", optionValue roasValue c.roas),
   ("live_tests", .bool liveTests)]

/-- Templates of a directory with the helpers they may use. -/
structure Renderer where
  files : Tree
  dir : String
  helpers : List Helper

namespace Renderer

/-- Whether a part of a template's name leads somewhere within the directory. -/
def isSafePart (part : String) : Bool :=
  !(Text.startsWith "." part || Text.occursIn "\\" part)

/-- The path of a template. -/
def pathOf? (dir name : String) : Option String :=
  let parts := Text.pieces '/' name
  if parts.all isSafePart then some (parts.foldl Path.join dir) else none

/-- The statements of a template. -/
def load (r : Renderer) (name : String) : Except Template.Fault (List Stmt) :=
  match pathOf? r.dir name with
  | none => .error .templateNotFound
  | some path =>
    match r.files.read path with
    | .ok text =>
      match Template.parse text with
      | some body => .ok body
      | none => .error .malformed
    | .error .missing => .error .templateNotFound
    | .error _ => .error (.invalidOperation "could not read template")

/-- What the templates can do and name. -/
def environment (r : Renderer) (root : Bindings) : Environment :=
  { load := r.load
    filters := Helper.filters r.helpers ++ Builtin.filters
    tests := Helper.tests r.helpers ++ Builtin.tests
    root }

/-- Refuses a template that is missing or not well formed. -/
def check (r : Renderer) (name : String) : Except Template.Fault Unit := do
  let _ ← r.load name
  .ok ()

/-- The text of a template under a context. -/
def render (r : Renderer) (name : String) (context : List (String × Yaml.Value)) :
    Except Template.Fault String :=
  Template.render (r.environment (context.map fun e => (e.1, .ofYaml e.2))) name

end Renderer

end RouteServer.Build

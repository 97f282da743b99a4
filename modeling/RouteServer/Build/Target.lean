import RouteServer.Shipped.Bird
import RouteServer.Shipped.Context
import RouteServer.Shipped.OpenBgpd

/-!
# Build — Target

What a configuration is generated for: a daemon, or the context that templates are given.
-/

namespace RouteServer.Build

/-- What a configuration is generated for. -/
inductive Target where
  | bird
  | openBgpd
  /-- No daemon: shows what templates are given. -/
  | context
  deriving DecidableEq, Repr

namespace Target

/-- All targets. -/
def all : List Target := [.bird, .openBgpd, .context]

/-- The name of a target. -/
def name : Target → String
  | .bird => "bird"
  | .openBgpd => "openbgpd"
  | .context => "template-context"

/-- The target with a name. -/
def ofName? (s : String) : Option Target := all.find? fun t => t.name = s

/-- The wording for a name that no target has. -/
def refusal (s : String) : String := "unknown target '" ++ s ++ "'"

/-- The templates that come with the program for a target. -/
def templates : Target → List (String × String)
  | .bird => Shipped.Bird.files
  | .openBgpd => Shipped.OpenBgpd.files
  | .context => Shipped.Context.files

end Target

end RouteServer.Build

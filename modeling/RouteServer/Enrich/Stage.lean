import RouteServer.Text.Message
import RouteServer.Text.Numeral

/-!
# Enrich — Stage

The stages that complete a configuration with data from outside, in their order, and how they fail.
-/

namespace RouteServer.Enrich

open RouteServer.Text

/-- A stage. -/
inductive Stage where
  /-- The origins of every AS-SET. -/
  | origins
  /-- The prefixes of every AS-SET. -/
  | prefixes
  /-- The limits on the number of prefixes that clients announce. -/
  | limits
  deriving DecidableEq, Repr

namespace Stage

/-- All stages in the order in which they run. -/
def all : List Stage := [.origins, .prefixes, .limits]

/-- The name of a stage. -/
def name : Stage → String
  | .origins => "IRR origin ASNs"
  | .prefixes => "IRR prefixes"
  | .limits => "PeeringDB"

/-- The wording for a stage with that name some of whose look-ups have failed. -/
def failureText (name : String) (failures : List String) : String :=
  listing (name ++ ": " ++ natText failures.length ++ " item(s) failed") failures

end Stage

/-- A stage some of whose look-ups have failed, with a line for each of them. -/
structure StageFailure where
  stage : Stage
  failures : List String
  deriving DecidableEq, Repr

/-- The wording of a failure. -/
def StageFailure.text (f : StageFailure) : String := Stage.failureText f.stage.name f.failures

end RouteServer.Enrich

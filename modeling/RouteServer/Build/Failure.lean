import RouteServer.Build.Arguments
import RouteServer.Build.Compatibility
import RouteServer.Enrich.Stage
import RouteServer.Policy.Source
import RouteServer.Template.Fault

/-!
# Build — Failure

Why a build ends without a result.
-/

namespace RouteServer.Build

open RouteServer.Text

/-- Why a build ends without a result. -/
inductive Failure where
  | missingArgument (name : String)
  | invalidArgument (fault : Arguments.Fault)
  | missingFile (path : String)
  | missingDirectory (path : String)
  | cacheNotWritable (dir : String) (fault : Files.Fault)
  | loading (fault : Policy.LoadFault)
  | enrichment (stages : List Enrich.StageFailure)
  | incompatible (issues : List Issue)
  | rendering (fault : Template.Fault)
  | system (fault : Files.Fault)

namespace Failure

/-- The wording for stages that have failed. -/
def enrichmentText (stages : List String) : String :=
  listing "one or more errors occurred while enriching the configuration" stages

/-- The wording for issues that are not ignored. -/
def issuesText (issues : List Issue) : String :=
  listing "one or more compatibility issues have been found" (issues.map Issue.text)

/-- The wording of a failure. -/
def message : Failure → String
  | .missingArgument name => "missing argument: " ++ name
  | .invalidArgument fault => "invalid argument: " ++ fault.message
  | .missingFile path => "file not found: " ++ path
  | .missingDirectory path => "directory not found: " ++ path
  | .cacheNotWritable dir fault => "can't write into cache dir " ++ dir ++ ": " ++ fault.message
  | .loading fault => fault.message
  | .enrichment stages => enrichmentText (stages.map Enrich.StageFailure.text)
  | .incompatible issues => issuesText issues
  | .rendering fault => "error while rendering template: " ++ fault.message
  | .system fault => fault.message

/-- The ids of the issues that end the build. -/
def issueIds : Failure → List String
  | .incompatible issues => issues.map Issue.id
  | _ => []

/-- The wording of the cause behind a failure that tells of another one. -/
def cause? : Failure → Option String
  | .cacheNotWritable _ fault => some fault.message
  | .rendering fault => some fault.message
  | _ => none

end Failure

end RouteServer.Build

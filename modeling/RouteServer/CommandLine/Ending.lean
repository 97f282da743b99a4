import RouteServer.Build.Failure
import RouteServer.CommandLine.Usage
import RouteServer.Cache.Store
import RouteServer.Enrich.Query
import RouteServer.Settings.Basic

/-!
# CommandLine — Ending

How a run of the program ends: what it says, what it leaves in the files, and with which status.
The status is zero exactly when nothing has failed.
-/

namespace RouteServer.CommandLine

open RouteServer.Files

/-- Why the program does not do what it is asked for. -/
inductive Failure where
  /-- There are no settings. -/
  | settings (fault : Settings.Fault)
  | build (failure : Build.Failure)
  /-- The directory of the cache cannot be used. -/
  | cache (fault : Cache.NotWritable)
  | listing (failure : Lookup.Failure)
  | clearing (failure : Lookup.Failure)

namespace Failure

/-- The wording of a failure.  That of a build tells its cause behind what it says itself. -/
def message : Failure → String
  | .settings fault => fault.message
  | .build failure =>
    ": ".intercalate (failure.message :: failure.cause?.toList)
  | .cache e => (Build.Failure.cacheNotWritable e.dir e.fault).message
  | .listing failure => "unable to list cache records: " ++ failure.headline
  | .clearing failure => "unable to clear cache: " ++ failure.headline

/-- The line that tells of a failure. -/
def line (f : Failure) : String := "ERROR: " ++ f.message

end Failure

/-- What a run comes to. -/
inductive Conclusion where
  | done
  | failed (failure : Failure)
  /-- The arguments have not been read to their end. -/
  | stopped (why : Stop)

namespace Conclusion

/-- The status of the program. -/
def status : Conclusion → Nat
  | .done | .stopped .information => 0
  | .failed _ => 1
  | .stopped .misuse => 2

/-- The failure of a run, if it has one. -/
def failure? : Conclusion → Option Failure
  | .failed failure => some failure
  | .done | .stopped _ => none

end Conclusion

/-- How a run ends. -/
structure Ending where
  conclusion : Conclusion
  /-- What is printed. -/
  output : String := ""
  files : Tree
  /-- The programs that have been asked for answers, by their paths, with their arguments. -/
  programs : List (String × List String) := []

namespace Ending

/-- A run that does what it is asked for. -/
def done (output : String) (files : Tree) : Ending := { conclusion := .done, output, files }

/-- A run that fails. -/
def failed (failure : Failure) (files : Tree) : Ending := { conclusion := .failed failure, files }

/-- The status of the program. -/
def status (e : Ending) : Nat := e.conclusion.status

end Ending

end RouteServer.CommandLine

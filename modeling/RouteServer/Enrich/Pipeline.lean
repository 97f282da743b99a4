import RouteServer.Enrich.Limits
import RouteServer.Enrich.Query
import RouteServer.Enrich.Sets
import RouteServer.Enrich.Stage

/-!
# Enrich — Pipeline

Completes a configuration with data from outside.  Every stage asks the questions that the
configuration raises and writes the answers into it; what could not be answered is left out, and
stops neither the stage nor those behind it.
-/

namespace RouteServer.Enrich

open RouteServer.Lookup RouteServer.Net RouteServer.Policy RouteServer.Time

/-- What enrichment is given besides the configuration. -/
structure Surroundings where
  sources : Sources
  /-- The families of the build. -/
  families : List Family
  now : Instant

/-- A configuration on its way through the stages. -/
structure Progress where
  configuration : Configuration
  cache : Cache.State
  /-- The questions that the cache could not answer. -/
  asked : List Query := []

/-- Writes the answer to a question into a configuration. -/
def record : (q : Query) → q.Answer → Configuration → Configuration
  | .origins name, origins => setOrigins name origins
  | .prefixes name _, more => addPrefixes name more
  | .net asn, net => setLimits asn net

/-- Writes an answer into a configuration, if there is one. -/
def Answered.record (c : Configuration) (a : Answered) : Configuration :=
  match a.result with
  | .ok x => Enrich.record a.query x c
  | .error _ => c

namespace Stage

/-- What a stage does before it asks anything. -/
def prepare : Stage → Configuration → Configuration
  | .origins => prepareSets
  | .prefixes | .limits => id

/-- The questions of a stage, in order. -/
def queries (families : List Family) (c : Configuration) : Stage → List Query
  | .origins => (wantedSets c fun client => client.cfg.filtering.irr.enforceOrigin).map .origins
  | .prefixes =>
    (wantedSets c fun client => client.cfg.filtering.irr.enforcePrefix).flatMap fun name =>
      families.map (.prefixes name)
  | .limits => (wantedNets c).map .net

/-- Runs a stage; gives a line for every question that was not answered. -/
def run (s : Surroundings) (stage : Stage) (p : Progress) : List String × Progress :=
  let c := stage.prepare p.configuration
  let r := resolve s.sources s.now (stage.queries s.families c) p.cache
  (r.answered.filterMap Answered.failure?,
    { configuration := r.answered.foldl Answered.record c
      cache := r.cache
      asked := p.asked ++ r.asked })

/-- The failure of a stage, when there is a line for one. -/
def failure? (stage : Stage) (failures : List String) : Option StageFailure :=
  if failures.isEmpty then none else some ⟨stage, failures⟩

end Stage

/-- Runs stages one after the other. -/
def runStages (s : Surroundings) : List Stage → Progress → List StageFailure × Progress
  | [], p => ([], p)
  | stage :: stages, p =>
    let (failures, p) := stage.run s p
    let (rest, p) := runStages s stages p
    ((stage.failure? failures).toList ++ rest, p)

/-- Runs all stages. -/
def runPipeline (s : Surroundings) (p : Progress) : List StageFailure × Progress :=
  runStages s Stage.all p

end RouteServer.Enrich

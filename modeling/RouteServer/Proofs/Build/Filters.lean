import RouteServer.Proofs.Build.Start
import RouteServer.Proofs.Enrich.Own

/-!
# Build — the filters of the clients

What a build that loads its documents and runs the pipeline over an empty cache filters its clients
with.
-/

namespace RouteServer.Build

open RouteServer.Cache RouteServer.Enrich RouteServer.Files RouteServer.Lookup RouteServer.Net
open RouteServer.Policy RouteServer.Time

/-- Over an empty cache the pipeline does what it does without one. -/
theorem runPipeline_eq_complete (s : Surroundings) (c : Configuration) {cache : Cache.State}
    (hmemo : cache.store.memo = .empty) (hdir : cache.files.names cache.store.dir = .ok []) :
    (runPipeline s ⟨c, cache, []⟩).1 = (complete s cache.store Stage.all c).1 ∧
      (runPipeline s ⟨c, cache, []⟩).2.configuration =
        (complete s cache.store Stage.all c).2 := by
  have htrusted := trusted_of_empty s.sources hmemo hdir
  obtain ⟨hfail, hconf, -, -⟩ := runStages_spec s Stage.all (p := ⟨c, cache, []⟩) htrusted
  exact ⟨hfail, hconf⟩

/-- **Own sets.**  When nothing fails, the clients of a configuration that was loaded are filtered
with the data of their own names exactly when the names are not mixed. -/
theorem filteredByOwn_iff_unmixed {inputs : Inputs} {files : Tree} {c : Configuration}
    (hload : inputs.load files = .ok c) {s : Surroundings} {cache : Cache.State}
    (hmemo : cache.store.memo = .empty) (hdir : cache.files.names cache.store.dir = .ok [])
    {p : Progress} (hrun : runPipeline s ⟨c, cache, []⟩ = ([], p)) :
    FilteredByOwn s.sources s.families p.configuration ↔ Unmixed s.sources s.families c := by
  obtain ⟨hfail, hconf⟩ := runPipeline_eq_complete s c hmemo hdir
  rw [hrun] at hfail hconf
  have hcomplete : complete s cache.store Stage.all c = ([], p.configuration) :=
    Prod.ext hfail.symm hconf.symm
  obtain ⟨f, hf, he⟩ := complete_eq hcomplete
  rw [he]
  exact filteredByOwn_finished hf (asSets_of_load hload)

/-! ### Two names of one client -/

/-- One client with the sets of the names. -/
def inputsOf (names : List String) : Inputs where
  general := .value (.ofFields [("cfg", .ofFields
    [("rs_as", .nat 64500), ("router_id", .string "192.0.2.1")])])
  bogons := .value (.ofFields [("bogons", .list [])])
  clients := .value (.ofFields [("clients", .list [.ofFields
    [("asn", .nat 64501), ("ip", .string "192.0.2.2"),
     ("cfg", .ofFields [("filtering", .ofFields [("irrdb", .ofFields
       [("as_sets", .list (names.map .string))])])])]])])
  asns := some (.value (.ofFields [("asns", .ofFields [])]))

/-- Every name has an origin of its own. -/
def twoSources : Sources where
  origins name := .ok [if name = "AS-FOO" then 1 else 2]
  prefixes _ _ := .ok []
  net _ := .ok none

def emptyCache : Cache.State where
  store := { dir := "c", expiry := ⟨0⟩, stalePolicy := .fail }
  files := ⟨.ofList [("c", .directory)]⟩

/-- The runs of the configurations that follow. -/
def twoSurroundings : Surroundings := ⟨twoSources, [.v4, .v6], ⟨0, 0⟩⟩

theorem runPipeline_eq_empty (c : Configuration) :
    (runPipeline twoSurroundings ⟨c, emptyCache, []⟩).1 =
        (complete twoSurroundings emptyCache.store Stage.all c).1 ∧
      (runPipeline twoSurroundings ⟨c, emptyCache, []⟩).2.configuration =
        (complete twoSurroundings emptyCache.store Stage.all c).2 :=
  runPipeline_eq_complete twoSurroundings c rfl rfl

/-- What some documents come to once all that they ask for has been answered. -/
def answered (inputs : Inputs) : Option Configuration :=
  (inputs.load {}).toOption.bind fun c =>
    let r := complete twoSurroundings emptyCache.store Stage.all c
    if r.1.isEmpty then some r.2 else none

theorem runPipeline_of_answered {inputs : Inputs} {c : Configuration}
    (h : answered inputs = some c) :
    ∃ (loaded : Configuration) (p : Progress), inputs.load {} = .ok loaded ∧
      runPipeline twoSurroundings ⟨loaded, emptyCache, []⟩ = ([], p) ∧ p.configuration = c := by
  cases hload : inputs.load {} with
  | error e =>
      rw [answered, hload] at h
      cases h
  | ok loaded =>
      rw [answered, hload] at h
      obtain ⟨hempty, hc⟩ := Option.ite_none_right_eq_some.1 h
      obtain ⟨hfail, hconf⟩ := runPipeline_eq_empty loaded
      exact ⟨loaded, _, rfl, Prod.ext (hfail.trans (List.isEmpty_iff.1 hempty)) rfl,
        hconf.trans (Option.some.inj hc)⟩

/-- Whether a run succeeds and a client with the set `AS-FOO` misses its origin. -/
def missesOrigin (c : Configuration) : Bool :=
  let r := complete twoSurroundings emptyCache.store Stage.all c
  r.1.isEmpty && r.2.clients.any fun client =>
    needsOrigins r.2 client && (clientSets r.2 client).contains "AS-FOO" &&
      (setsOf r.2 client).all fun s => !s.asns.contains 1

/-- The origins of `AS_FOO` take the place of those of `AS-FOO`. -/
theorem not_filteredByOwn_two :
    ∃ c p, (inputsOf ["AS-FOO", "AS_FOO"]).load {} = .ok c ∧
      emptyCache.files.names emptyCache.store.dir = .ok [] ∧
      runPipeline twoSurroundings ⟨c, emptyCache, []⟩ = ([], p) ∧
      ¬ FilteredByOwn twoSources [.v4, .v6] p.configuration := by
  have hrun : ((inputsOf ["AS-FOO", "AS_FOO"]).load {}).toOption.any missesOrigin := by
    decide +kernel
  cases hload : (inputsOf ["AS-FOO", "AS_FOO"]).load {} with
  | error e => rw [hload] at hrun; cases hrun
  | ok c =>
      rw [hload] at hrun
      replace hrun : missesOrigin c = true := hrun
      unfold missesOrigin at hrun
      simp only [Bool.and_eq_true, List.any_eq_true, List.all_eq_true, List.contains_iff_mem,
        List.isEmpty_iff, Bool.not_eq_true', Bool.eq_false_iff, ne_eq] at hrun
      obtain ⟨hempty, client, hclient, ⟨hneeds, hname⟩, hmiss⟩ := hrun
      obtain ⟨hfail, hconf⟩ := runPipeline_eq_empty c
      refine ⟨c, _, rfl, rfl, Prod.ext (hfail.trans hempty) rfl, fun h => ?_⟩
      rw [hconf] at h
      obtain ⟨s, hs, hasn⟩ := (h.origins client hclient hneeds 1).2
        ⟨"AS-FOO", hname, by decide⟩
      exact hmiss s hs hasn

/-- A single name, whose data are looked up without failure. -/
theorem filteredByOwn_one :
    ∃ c p, (inputsOf ["AS-FOO"]).load {} = .ok c ∧
      runPipeline twoSurroundings ⟨c, emptyCache, []⟩ = ([], p) ∧
      (FilteredByOwn twoSources [.v4, .v6] p.configuration ↔
        Unmixed twoSources [.v4, .v6] c) := by
  have hrun : ((inputsOf ["AS-FOO"]).load {}).toOption.any fun c =>
      (complete twoSurroundings emptyCache.store Stage.all c).1.isEmpty := by
    decide +kernel
  cases hload : (inputsOf ["AS-FOO"]).load {} with
  | error e => rw [hload] at hrun; cases hrun
  | ok c =>
      rw [hload] at hrun
      obtain ⟨hfail, -⟩ := runPipeline_eq_empty c
      have hempty := hfail.trans (List.isEmpty_iff.1 hrun)
      exact ⟨c, _, rfl, Prod.ext hempty rfl,
        filteredByOwn_iff_unmixed hload rfl rfl (Prod.ext hempty rfl)⟩

end RouteServer.Build

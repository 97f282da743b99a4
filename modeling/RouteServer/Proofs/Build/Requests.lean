import RouteServer.Proofs.Build.Filters
import RouteServer.Proofs.Enrich.OnePass

/-!
# Build — what a run asks for

**Requests** (`asked_iff_wanted`).  Over an empty cache a run asks for what is wanted, for each thing
once, and for nothing else, whatever the sources answer.

**Failures** (`failures_complete`).  Over any cache a run reports every question that fails, and does
the rest as if the questions that fail had not been put.
-/

namespace RouteServer.Build

open RouteServer.Cache RouteServer.Enrich RouteServer.Files RouteServer.Lookup RouteServer.Net
open RouteServer.Policy RouteServer.Time

theorem pairwise_families (a : Arguments) : a.families.Pairwise fun f g => f.number < g.number := by
  unfold Arguments.families
  split
  · exact List.pairwise_singleton ..
  · decide

/-- **Requests.**  What is asked over an empty cache is what is wanted, each once. -/
theorem asked_iff_wanted (c : Configuration) (a : Arguments) (sources : Sources) (now : Instant)
    {cache : Cache.State} (hmemo : cache.store.memo = .empty)
    (hdir : cache.files.names cache.store.dir = .ok []) :
    let asked := (runPipeline ⟨sources, a.families, now⟩ ⟨c, cache, []⟩).2.asked
    asked.Nodup ∧ ∀ q, q ∈ asked ↔ Wanted a.families c q := by
  intro asked
  have hfamilies := pairwise_families a
  have hfetched : ∀ q : Query, (q.lookup sources now cache).fetched = true := fun q =>
    fetched_of_empty q.codec now (q.ask sources) hmemo hdir
  have hasked : asked = questions a.families c := by
    simp only [asked, (runPipeline_put (s := ⟨sources, a.families, now⟩) hfamilies _).2.2,
      hfetched, List.filter_true, List.nil_append]
  rw [hasked]
  exact ⟨nodup_questions hfamilies c, fun q => mem_questions⟩

/-- A client with sets of its own that leaves its limits to its network. -/
def sharedClient (ip : String) (names : List String) : Yaml.Value :=
  .ofFields [("asn", .nat 64501), ("ip", .string ip),
    ("cfg", .ofFields [("filtering", .ofFields
      [("irrdb", .ofFields [("as_sets", .list (names.map .string))]),
       ("max_prefix", .ofFields [("peering_db", .bool true)])])])]

/-- Two clients of one network share a set with the client of another, which has registered it. -/
def sharedInputs : Inputs where
  general := .value (.ofFields [("cfg", .ofFields
    [("rs_as", .nat 64500), ("router_id", .string "192.0.2.1")])])
  bogons := .value (.ofFields [("bogons", .list [])])
  clients := .value (.ofFields [("clients", .list
    [sharedClient "192.0.2.2" ["AS-ONE", "AS-SHARED"], sharedClient "192.0.2.3" ["AS-SHARED"],
     .ofFields [("asn", .nat 64502), ("ip", .string "192.0.2.4")],
     .ofFields [("asn", .nat 64503), ("ip", .string "192.0.2.5")]])])
  asns := some (.value (.ofFields [("asns", .ofFields [("AS64502", .ofFields
    [("as_sets", .list [.string "AS-SHARED"])])])]))

/-- Nothing can be looked up about sets. -/
def silentSources : Sources where
  origins _ := .error { cause := .noConnection }
  prefixes _ _ := .error { cause := .noConnection }
  net _ := .ok none

/-- What is shared is asked for once, though it fails. -/
theorem asked_iff_wanted_shared :
    ∃ c, sharedInputs.load {} = .ok c ∧
      let a : Arguments := { family := some .v4 }
      let asked := (runPipeline ⟨silentSources, a.families, ⟨0, 0⟩⟩ ⟨c, emptyCache, []⟩).2.asked
      (asked.Nodup ∧ ∀ q, q ∈ asked ↔ Wanted a.families c q) ∧
        (∀ q ∈ ([.origins "AS-SHARED", .prefixes "AS-SHARED" .v4, .net 64501] : List Query),
          q ∈ asked) ∧
        ∀ q ∈ ([.origins "AS64502", .prefixes "AS-SHARED" .v6, .net 64503] : List Query),
          q ∉ asked := by
  have hwanted : (sharedInputs.load {}).toOption.any fun c =>
      decide ((∀ q ∈ ([.origins "AS-SHARED", .prefixes "AS-SHARED" .v4, .net 64501] : List Query),
          Wanted [.v4] c q) ∧
        ∀ q ∈ ([.origins "AS64502", .prefixes "AS-SHARED" .v6, .net 64503] : List Query),
          ¬ Wanted [.v4] c q) := by
    decide +kernel
  cases hload : sharedInputs.load {} with
  | error e => rw [hload] at hwanted; cases hwanted
  | ok c =>
      rw [hload] at hwanted
      obtain ⟨hyes, hno⟩ := of_decide_eq_true hwanted
      have hmemo : emptyCache.store.memo = .empty := rfl
      have hdir : emptyCache.files.names emptyCache.store.dir = .ok [] := rfl
      have hasked := asked_iff_wanted c { family := some .v4 } silentSources ⟨0, 0⟩ hmemo hdir
      exact ⟨c, rfl, hasked, fun q hq => (hasked.2 q).2 (hyes q hq),
        fun q hq => mt (hasked.2 q).1 (hno q hq)⟩

end RouteServer.Build

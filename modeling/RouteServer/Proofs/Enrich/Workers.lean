import Mathlib.Data.List.FinRange
import RouteServer.Enrich.Pipeline
import RouteServer.Policy.Source
import RouteServer.Proofs.Cache.Order
import RouteServer.Proofs.Enrich.Query
import RouteServer.Proofs.Enrich.Sets

/-!
# Enrich — a stage on many workers

The questions of a stage may be looked up all at once: each is a call of the pool (`Stage.pool`), and
what the calls return is gathered in the order of the questions (`gathered`).

**Worker-order independence** (`Stage.run_workers`).  Whatever order the steps of the calls are taken
in, all calls can return, and when they have, the failures, the configuration and the cache are those
of the stage that asks one question after the other.  The questions of a stage differ
(`Stage.nodup_queries`), so no two calls have one key.
-/

namespace RouteServer.Enrich

open RouteServer.Cache RouteServer.Lookup RouteServer.Net RouteServer.Policy RouteServer.Time

/-! ### The questions of a stage differ -/

theorem Stage.nodup_queries {families : List Family} (h : families.Nodup) (c : Configuration)
    (stage : Stage) : (stage.queries families c).Nodup := by
  cases stage with
  | origins => exact (nodup_distinct _).map fun _ _ => Query.origins.inj
  | prefixes =>
      refine List.nodup_flatMap.2 ⟨fun name _ => h.map fun _ _ he => (Query.prefixes.inj he).2, ?_⟩
      refine (nodup_distinct _).imp fun {name other} hne q hq hq' => ?_
      obtain ⟨f, -, rfl⟩ := List.mem_map.1 hq
      obtain ⟨f', -, he⟩ := List.mem_map.1 hq'
      exact hne (Query.prefixes.inj he).1.symm
  | limits => exact (nodup_eraseDups _).map fun _ _ => Query.net.inj

/-! ### Questions as calls -/

/-- A call for each of some questions. -/
def Query.calls (qs : List Query) : Calls (Fin qs.length) where
  Answer i := (qs.get i).Answer
  codec i := (qs.get i).codec
  key i := (qs.get i).key

variable {qs : List Query}

theorem Query.calls_injective (h : qs.Nodup) : Function.Injective (Query.calls qs).key := fun _ _ he =>
  List.nodup_iff_injective_get.1 h (Query.key_injective he)

/-- The sources answer, and the clock stands still. -/
def Query.world (sources : Sources) (now : Instant) (qs : List Query) : World (Query.calls qs) :=
  .steady _ now fun i => (qs.get i).ask sources

/-- The pool in which no call has started. -/
def Query.start (qs : List Query) (cache : Cache.State) : Pool (Query.calls qs) where
  state := cache
  slot _ := .free
  phase _ := .waiting

/-- What a call has returned. -/
def returned? (σ : Pool (Query.calls qs)) (i : Fin qs.length) : Option Answered :=
  match σ.phase i with
  | .returned result => some ⟨qs.get i, result⟩
  | _ => none

/-- What the calls have returned, in the order of the questions. -/
def gathered (σ : Pool (Query.calls qs)) : List Answered :=
  (List.finRange qs.length).filterMap (returned? σ)

theorem returned?_of_phase {σ : Pool (Query.calls qs)} {i : Fin qs.length}
    {result : Except Failure (qs.get i).Answer} (h : σ.phase i = .returned result) :
    returned? σ i = some ⟨qs.get i, result⟩ := by
  unfold returned?
  rw [h]

/-- **One call after the other is a run.**  The calls return what the questions are answered with. -/
theorem exists_run_resolve (sources : Sources) (now : Instant) (is : List (Fin qs.length))
    (his : is.Nodup) {σ : Pool (Query.calls qs)} (hwaiting : ∀ i ∈ is, σ.phase i = .waiting)
    (hfree : ∀ key, σ.slot key = .free) :
    ∃ τ, Pool.Run (Query.world sources now qs) σ τ ∧
      τ.state = (resolve sources now (is.map qs.get) σ.state).cache ∧
      is.filterMap (returned? τ) = (resolve sources now (is.map qs.get) σ.state).answered ∧
      (∀ i ∈ is, ∃ result, τ.phase i = .returned result) ∧ ∀ i, i ∉ is → τ.phase i = σ.phase i := by
  induction is generalizing σ with
  | nil => exact ⟨σ, .refl, rfl, rfl, fun i hi => (List.not_mem_nil hi).elim, fun _ _ => rfl⟩
  | cons i is ih =>
      obtain ⟨hnew, his⟩ := List.nodup_cons.1 his
      let o := σ.state.store.lookup σ.state.files now (qs.get i).codec (qs.get i).key
        ((qs.get i).ask sources)
      let σ' := σ.moved i .free (.returned o.result) o.state
      have halone : Pool.Run (Query.world sources now qs) σ σ' :=
        Pool.run_alone i now ((qs.get i).ask sources) rfl rfl
          (hwaiting i List.mem_cons_self) (hfree _)
      have hothers : ∀ j, j ≠ i → σ'.phase j = σ.phase j := fun j hj => σ.phase_moved_of_ne hj ..
      have hfree' : ∀ key, σ'.slot key = .free := fun key => by
        by_cases hkey : key = (Query.calls qs).key i
        · rw [hkey]; exact σ.slot_moved_self ..
        · exact (σ.slot_moved_of_ne hkey ..).trans (hfree key)
      obtain ⟨τ, hrun, hstate, hanswered, hreturned, hrest⟩ := ih his (σ := σ')
        (fun j hj => (hothers j fun he => hnew (he ▸ hj)).trans
          (hwaiting j (List.mem_cons_of_mem i hj))) hfree'
      have hi : τ.phase i = .returned o.result := (hrest i hnew).trans (σ.phase_moved_self ..)
      refine ⟨τ, halone.trans hrun, hstate, ?_, fun j hj => ?_, fun j hj => ?_⟩
      · rw [List.filterMap_cons, returned?_of_phase hi, hanswered]
        rfl
      · rcases List.mem_cons.1 hj with rfl | hj
        · exact ⟨_, hi⟩
        · exact hreturned j hj
      · rw [List.mem_cons, not_or] at hj
        exact (hrest j hj.2).trans (hothers j hj.1)

/-- **Questions on many workers.**  Every run can go on until all calls have returned; when they
have, they have returned what the questions are answered with one after the other, and the cache is
the same. -/
theorem resolve_workers (sources : Sources) (now : Instant) (h : qs.Nodup) (cache : Cache.State)
    {σ : Pool (Query.calls qs)} (hr : Pool.Run (Query.world sources now qs) (Query.start qs cache) σ) :
    (∃ τ, Pool.Run (Query.world sources now qs) σ τ ∧ τ.IsComplete) ∧
      (σ.IsComplete → gathered σ = (resolve sources now qs cache).answered ∧
        σ.state = (resolve sources now qs cache).cache) := by
  obtain ⟨done, hdone, hstate, hanswered, hreturned, -⟩ := exists_run_resolve sources now
    (List.finRange qs.length) (List.nodup_finRange _) (σ := Query.start qs cache)
    (fun _ _ => rfl) fun _ => rfl
  rw [List.map_get_finRange] at hstate hanswered
  have hcomplete : done.IsComplete := fun i => hreturned i (List.mem_finRange i)
  have hend := hr.of_isComplete (Query.calls_injective h) hdone hcomplete
  refine ⟨⟨done, hend, hcomplete⟩, fun hσ => ?_⟩
  cases hσ.eq_of_run hend
  exact ⟨hanswered, hstate⟩

/-! ### A stage -/

namespace Stage

/-- The questions that a stage asks. -/
def asks (s : Surroundings) (stage : Stage) (p : Progress) : List Query :=
  stage.queries s.families (stage.prepare p.configuration)

/-- What a stage does with the answers of its calls: its failures, the configuration with the
answers, and the cache. -/
def finish {s : Surroundings} (stage : Stage) (p : Progress)
    (σ : Pool (Query.calls (stage.asks s p))) : List String × Configuration × Cache.State :=
  ((gathered σ).filterMap Answered.failure?,
    (gathered σ).foldl Answered.record (stage.prepare p.configuration), σ.state)

/-- **Worker-order independence.**  Every run of the look-ups of a stage can go on until all have
returned; when they have, the stage has the failures, the configuration and the cache that it has
when it asks one question after the other.  The families are one or both, each once. -/
theorem run_workers (s : Surroundings) (hfamilies : s.families.Nodup) (stage : Stage) (p : Progress)
    {σ : Pool (Query.calls (stage.asks s p))}
    (hrun : Pool.Run (Query.world s.sources s.now _) (Query.start _ p.cache) σ) :
    (∃ τ, Pool.Run (Query.world s.sources s.now _) σ τ ∧ τ.IsComplete) ∧
      (σ.IsComplete → stage.finish p σ =
        ((stage.run s p).1, (stage.run s p).2.configuration, (stage.run s p).2.cache)) := by
  have hnodup : (stage.asks s p).Nodup := stage.nodup_queries hfamilies _
  obtain ⟨hends, hsame⟩ := resolve_workers s.sources s.now hnodup p.cache hrun
  refine ⟨hends, fun hσ => ?_⟩
  obtain ⟨hanswered, hstate⟩ := hsame hσ
  rw [finish, hanswered, hstate]
  rfl

/-- One client, whose set is that of its network. -/
def workersGeneral : Yaml.Value :=
  .ofFields [("cfg", .ofFields [("rs_as", .nat 64500), ("router_id", .string "192.0.2.1")])]

def workersClients : Yaml.Value :=
  .ofFields [("clients", .list [.ofFields [("asn", .nat 64501), ("ip", .string "192.0.2.2")]])]

/-- The configuration of the one client. -/
def workersConfiguration : Policy.Loaded Configuration := do
  let general ← loadGeneral {} (.value workersGeneral)
  let clients ← loadClients {} (.value workersClients) general
  .ok (.derive general [] .empty clients none)

/-- Nothing has prefixes. -/
def workersSurroundings : Surroundings where
  sources := { origins _ := .ok [], prefixes _ _ := .ok [], net _ := .ok none }
  families := [.v4, .v6]
  now := ⟨0, 0⟩

/-- An empty cache in a directory. -/
def workersCache : Cache.State where
  store := { dir := "c", expiry := .ofSeconds 60, stalePolicy := .fail }
  files := ⟨.ofList [("c", .directory)]⟩

/-- The second of two questions is answered first. -/
theorem run_workers_secondFirst :
    ∃ c, workersConfiguration = .ok c ∧
      let p : Progress := ⟨c, workersCache, []⟩
      prefixes.asks workersSurroundings p = [.prefixes "AS64501" .v4, .prefixes "AS64501" .v6] ∧
      ∃ σ τ : Pool (Query.calls (prefixes.asks workersSurroundings p)),
        (∃ i j result, i < j ∧ σ.phase i = .waiting ∧ σ.phase j = .returned result) ∧
        Pool.Run (Query.world workersSurroundings.sources ⟨0, 0⟩ _) σ τ ∧ τ.IsComplete ∧
        prefixes.finish p τ = ((prefixes.run workersSurroundings p).1,
          (prefixes.run workersSurroundings p).2.configuration,
          (prefixes.run workersSurroundings p).2.cache) := by
  have hload : workersConfiguration.toOption.any fun c =>
      decide (prefixes.asks workersSurroundings ⟨c, workersCache, []⟩ =
        [.prefixes "AS64501" .v4, .prefixes "AS64501" .v6]) := by
    decide +kernel
  cases hc : workersConfiguration with
  | error e => rw [hc] at hload; cases hload
  | ok c =>
      rw [hc] at hload
      have hasks := of_decide_eq_true hload
      refine ⟨c, rfl, hasks, ?_⟩
      have hlength : (prefixes.asks workersSurroundings ⟨c, workersCache, []⟩).length = 2 := by
        rw [hasks]; rfl
      let first : Fin (prefixes.asks workersSurroundings ⟨c, workersCache, []⟩).length :=
        ⟨0, by omega⟩
      let second : Fin (prefixes.asks workersSurroundings ⟨c, workersCache, []⟩).length :=
        ⟨1, by omega⟩
      have hlt : first < second := Nat.zero_lt_one
      have halone := (Query.start _ workersCache).run_alone
        (w := Query.world workersSurroundings.sources ⟨0, 0⟩ _) second ⟨0, 0⟩ _ rfl rfl rfl rfl
      obtain ⟨⟨τ, hrun, hcomplete⟩, -⟩ :=
        run_workers workersSurroundings (by decide) prefixes _ halone
      refine ⟨_, τ, ⟨first, second, _, hlt, ?_, Pool.phase_moved_self ..⟩, hrun, hcomplete, ?_⟩
      · exact Pool.phase_moved_of_ne _ (Fin.ne_of_lt hlt) ..
      · exact (run_workers workersSurroundings (by decide) prefixes _ (halone.trans hrun)).2
          hcomplete

end Stage

end RouteServer.Enrich

import RouteServer.Enrich.Pipeline
import RouteServer.Proofs.Enrich.Query

/-!
# Enrich — enrichment without a cache

`complete` enriches a configuration by asking every question outside.  Only the store's name for a
temporary file matters to it, since an answer that cannot be kept is a failure.

**Refinement** (`runStages_spec`).  Through a cache that keeps only right payloads the stages do
what `complete` does, and leave only right payloads behind.
-/

namespace RouteServer.Enrich

open RouteServer.Cache RouteServer.Lookup RouteServer.Net RouteServer.Policy RouteServer.Time

/-- The question with what comes of asking it outside. -/
def Query.direct (sources : Sources) (s : Store) (q : Query) : Answered :=
  ⟨q, s.verdict q.key (q.ask sources)⟩

theorem Query.direct_congr (sources : Sources) {s s' : Store} (h : s.SameButMemo s') (q : Query) :
    q.direct sources s = q.direct sources s' := by
  unfold Store.SameButMemo at h
  rw [← h]
  rfl

/-- A cache of the right answers of some sources. -/
abbrev Trusted (sources : Sources) (cache : Cache.State) : Prop :=
  Store.IsRight (Kept sources cache.store.writer) cache

theorem trusted_of_empty (sources : Sources) {cache : Cache.State}
    (hmemo : cache.store.memo = .empty) (hdir : cache.files.names cache.store.dir = .ok []) :
    Trusted sources cache where
  files := Holds.of_names hdir
  memo key payload hk := by
    rw [hmemo] at hk
    cases hk

/-- **Questions are answered as if they were asked outside.** -/
theorem resolve_spec {sources : Sources} (now : Instant) (qs : List Query) {cache : Cache.State}
    (h : Trusted sources cache) :
    (resolve sources now qs cache).answered = qs.map (·.direct sources cache.store) ∧
      cache.store.SameButMemo (resolve sources now qs cache).cache.store ∧
      Trusted sources (resolve sources now qs cache).cache := by
  induction qs generalizing cache with
  | nil => exact ⟨rfl, rfl, h⟩
  | cons q qs ih =>
      obtain ⟨hres, hsame, hright⟩ := Store.lookup_spec h (answers_kept sources cache.store q) now
      have hnext : Trusted sources
          (cache.store.lookup cache.files now q.codec q.key (q.ask sources)).state := by
        unfold Trusted
        rw [← hsame.writer_eq]
        exact hright
      obtain ⟨hans, hsame', hright'⟩ := ih hnext
      refine ⟨?_, hsame.trans hsame', hright'⟩
      rw [resolve, List.map_cons]
      simp only [hans, hres]
      congr 1
      exact List.map_congr_left fun p _ => (p.direct_congr sources hsame).symm

namespace Stage

/-- What a stage asks, with the answers from outside. -/
def answers (s : Surroundings) (store : Store) (stage : Stage) (c : Configuration) :
    List Answered :=
  (stage.queries s.families (stage.prepare c)).map (·.direct s.sources store)

/-- What a stage gives when it asks outside. -/
def complete (s : Surroundings) (store : Store) (stage : Stage) (c : Configuration) :
    List String × Configuration :=
  ((stage.answers s store c).filterMap Answered.failure?,
    (stage.answers s store c).foldl Answered.record (stage.prepare c))

theorem complete_congr (s : Surroundings) {store store' : Store} (h : store.SameButMemo store')
    (stage : Stage) (c : Configuration) :
    stage.complete s store c = stage.complete s store' c := by
  have : stage.answers s store c = stage.answers s store' c :=
    List.map_congr_left fun q _ => q.direct_congr s.sources h
  rw [complete, complete, this]

theorem run_spec (s : Surroundings) (stage : Stage) {p : Progress} (h : Trusted s.sources p.cache) :
    (stage.run s p).1 = (stage.complete s p.cache.store p.configuration).1 ∧
      (stage.run s p).2.configuration = (stage.complete s p.cache.store p.configuration).2 ∧
      p.cache.store.SameButMemo (stage.run s p).2.cache.store ∧
      Trusted s.sources (stage.run s p).2.cache := by
  obtain ⟨hans, hsame, hright⟩ := resolve_spec s.now
    (stage.queries s.families (stage.prepare p.configuration)) h
  refine ⟨?_, ?_, hsame, hright⟩
  · rw [run, hans]; rfl
  · rw [run, hans]; rfl

end Stage

/-- The failures and the configuration of some stages that ask outside. -/
def complete (s : Surroundings) (store : Store) :
    List Stage → Configuration → List StageFailure × Configuration
  | [], c => ([], c)
  | stage :: stages, c =>
    let (failures, c) := stage.complete s store c
    let (rest, c) := complete s store stages c
    ((stage.failure? failures).toList ++ rest, c)

theorem complete_congr (s : Surroundings) {store store' : Store} (h : store.SameButMemo store')
    (stages : List Stage) (c : Configuration) :
    complete s store stages c = complete s store' stages c := by
  induction stages generalizing c with
  | nil => rfl
  | cons stage stages ih => simp only [complete, stage.complete_congr s h, ih]

/-- **Stages do through a cache what they do without one.** -/
theorem runStages_spec (s : Surroundings) (stages : List Stage) {p : Progress}
    (h : Trusted s.sources p.cache) :
    (runStages s stages p).1 = (complete s p.cache.store stages p.configuration).1 ∧
      (runStages s stages p).2.configuration =
        (complete s p.cache.store stages p.configuration).2 ∧
      p.cache.store.SameButMemo (runStages s stages p).2.cache.store ∧
      Trusted s.sources (runStages s stages p).2.cache := by
  induction stages generalizing p with
  | nil => exact ⟨rfl, rfl, rfl, h⟩
  | cons stage stages ih =>
      obtain ⟨hfail, hconf, hsame, hright⟩ := stage.run_spec s h
      obtain ⟨hfail', hconf', hsame', hright'⟩ := ih hright
      rw [hconf, ← complete_congr s hsame] at hfail' hconf'
      refine ⟨?_, ?_, hsame.trans hsame', hright'⟩
      · simp only [runStages, complete, hfail, hfail']
      · simp only [runStages, complete, hconf']

end RouteServer.Enrich

import RouteServer.Proofs.Enrich.Lookups
import RouteServer.Proofs.Enrich.Questions

/-!
# Enrich — a run is one pass over its questions

A stage looks at what the stages before it have left.  What it asks does not depend on that: answers
about sets change the sets only, and networks come last.  So a run does what putting all its
questions at once would do (`runPipelineOnly_eq`), each as if it were the only one.

**Failures** (`failures_eq`, `runPipelineOnly_succeeds`).  Every question that fails has its line,
and the configuration is the one that a run leads to which leaves those questions out.
-/

namespace RouteServer.Enrich

open RouteServer.Lookup RouteServer.Net RouteServer.Policy RouteServer.Time

/-! ### Runs that leave questions out -/

/-- Runs a stage that puts only some of its questions. -/
def Stage.runOnly (keep : Query → Bool) (s : Surroundings) (stage : Stage) (p : Progress) :
    List String × Progress :=
  let c := stage.prepare p.configuration
  let r := resolve s.sources s.now ((stage.queries s.families c).filter keep) p.cache
  (r.answered.filterMap Answered.failure?,
    { configuration := r.answered.foldl Answered.record c
      cache := r.cache
      asked := p.asked ++ r.asked })

/-- Runs stages that put only some of their questions. -/
def runStagesOnly (keep : Query → Bool) (s : Surroundings) :
    List Stage → Progress → List StageFailure × Progress
  | [], p => ([], p)
  | stage :: stages, p =>
    let (failures, p) := stage.runOnly keep s p
    let (rest, p) := runStagesOnly keep s stages p
    ((stage.failure? failures).toList ++ rest, p)

/-- Runs all stages, and puts only some of their questions. -/
def runPipelineOnly (keep : Query → Bool) (s : Surroundings) (p : Progress) :
    List StageFailure × Progress :=
  runStagesOnly keep s Stage.all p

theorem Stage.runOnly_true (s : Surroundings) (stage : Stage) (p : Progress) :
    stage.runOnly (fun _ => true) s p = stage.run s p := by
  simp only [Stage.runOnly, Stage.run, List.filter_true]

theorem runStagesOnly_true (s : Surroundings) (stages : List Stage) (p : Progress) :
    runStagesOnly (fun _ => true) s stages p = runStages s stages p := by
  induction stages generalizing p with
  | nil => rfl
  | cons stage stages ih => simp only [runStagesOnly, runStages, Stage.runOnly_true, ih]

/-- A run that leaves nothing out. -/
theorem runPipelineOnly_true (s : Surroundings) (p : Progress) :
    runPipelineOnly (fun _ => true) s p = runPipeline s p :=
  runStagesOnly_true s Stage.all p

/-! ### What stages ask -/

theorem wantedSets_prepareSets (c : Configuration) (p : Client → Bool)
    (hp : ∀ client names, p (assignSets client names) = p client) :
    wantedSets (prepareSets c) p = wantedSets c p := by
  have hsets : ∀ client names, clientSets (prepareSets c) (assignSets client names) =
      clientSets c client := fun client names => rfl
  unfold wantedSets
  simp only [prepareSets, List.filter_map, List.flatMap_map, Function.comp_def, hp]
  rfl

theorem queries_prepareSets (families : List Family) (c : Configuration) (stage : Stage) :
    stage.queries families (prepareSets c) = stage.queries families c := by
  cases stage with
  | origins =>
      simp only [Stage.queries]
      rw [wantedSets_prepareSets c _ fun _ _ => rfl]
  | prefixes =>
      simp only [Stage.queries]
      rw [wantedSets_prepareSets c _ fun _ _ => rfl]
  | limits =>
      simp only [Stage.queries, wantedNets, prepareSets, List.filter_map, List.map_map]
      rfl

/-- Answers about sets do not change what is asked. -/
theorem queries_foldl_record {answered : List Answered}
    (h : ∀ a ∈ answered, a.query.stage ≠ .limits) (families : List Family) (c : Configuration)
    (stage : Stage) :
    stage.queries families (answered.foldl Answered.record c) = stage.queries families c := by
  induction answered generalizing c with
  | nil => rfl
  | cons a answered ih =>
      obtain ⟨ha, hrest⟩ := List.forall_mem_cons.1 h
      rw [List.foldl_cons, ih hrest]
      obtain ⟨q, _ | x⟩ := a
      · rfl
      · cases q with
        | origins name => cases stage <;> rfl
        | prefixes name family => cases stage <;> rfl
        | net asn => exact (ha rfl).elim

section

variable {os ps : List Answered} (ho : ∀ a ∈ os, a.query.stage = .origins)
  (hp : ∀ a ∈ ps, a.query.stage = .prefixes) (families : List Family) (c : Configuration)

include ho

/-- The second stage asks what it would ask at the start. -/
theorem queries_after_origins :
    Stage.prefixes.queries families (os.foldl Answered.record (prepareSets c)) =
      Stage.prefixes.queries families c := by
  rw [queries_foldl_record (fun a ha => by rw [ho a ha]; decide), queries_prepareSets]

include hp

/-- The last stage asks what it would ask at the start. -/
theorem queries_after_prefixes :
    Stage.limits.queries families
        (ps.foldl Answered.record (os.foldl Answered.record (prepareSets c))) =
      Stage.limits.queries families c := by
  rw [queries_foldl_record (fun a ha => by rw [hp a ha]; decide),
    queries_foldl_record (fun a ha => by rw [ho a ha]; decide), queries_prepareSets]

end

theorem stage_of_mem_answered {sources : Sources} {now : Instant} {qs : List Query}
    {cache : Cache.State} {stage : Stage} (h : ∀ q ∈ qs, q.stage = stage) :
    ∀ a ∈ (resolve sources now qs cache).answered, a.query.stage = stage := by
  intro a ha
  refine h _ ?_
  rw [← map_query_answered sources now qs cache]
  exact List.mem_map_of_mem ha

/-- A stage gets answers to questions of its own. -/
theorem stage_of_mem_queries {sources : Sources} {now : Instant} {families : List Family}
    {c : Configuration} {cache : Cache.State} {stage : Stage} :
    ∀ a ∈ (resolve sources now (stage.queries families c) cache).answered,
      a.query.stage = stage :=
  stage_of_mem_answered fun _ hq => (mem_queries.1 hq).1

theorem filter_stage {answered : List Answered} {stage : Stage}
    (h : ∀ a ∈ answered, a.query.stage = stage) (t : Stage) :
    answered.filter (·.query.stage = t) = if stage = t then answered else [] := by
  split
  case isTrue he => exact List.filter_eq_self.2 fun a ha => decide_eq_true (he ▸ h a ha)
  case isFalse he =>
      exact List.filter_eq_nil_iff.2 fun a ha => by rw [h a ha]; simpa using he

/-! ### One pass -/

/-- The failures of the stages, as the questions have been answered. -/
def failuresOf (answered : List Answered) : List StageFailure :=
  Stage.all.filterMap fun stage =>
    stage.failure? ((answered.filter (·.query.stage = stage)).filterMap Answered.failure?)

/-- The failures are those of the stages, one after the other. -/
theorem failuresOf_append {os ps ns : List Answered} (ho : ∀ a ∈ os, a.query.stage = .origins)
    (hp : ∀ a ∈ ps, a.query.stage = .prefixes) (hn : ∀ a ∈ ns, a.query.stage = .limits) :
    failuresOf (os ++ (ps ++ ns)) =
      (Stage.origins.failure? (os.filterMap Answered.failure?)).toList ++
        ((Stage.prefixes.failure? (ps.filterMap Answered.failure?)).toList ++
          (Stage.limits.failure? (ns.filterMap Answered.failure?)).toList) := by
  unfold failuresOf
  simp only [Stage.all, List.filterMap_cons, List.filterMap_nil, List.filter_append,
    filter_stage ho, filter_stage hp, filter_stage hn, reduceCtorEq, if_true, if_false,
    List.append_nil, List.nil_append]
  cases Stage.origins.failure? (os.filterMap Answered.failure?) <;>
    cases Stage.prefixes.failure? (ps.filterMap Answered.failure?) <;>
    cases Stage.limits.failure? (ns.filterMap Answered.failure?) <;> rfl

/-- **One pass.**  The stages do what putting their questions at once would do. -/
theorem runPipelineOnly_eq (keep : Query → Bool) (s : Surroundings) (p : Progress) :
    let r := resolve s.sources s.now ((questions s.families p.configuration).filter keep) p.cache
    runPipelineOnly keep s p =
      (failuresOf r.answered,
        { configuration := r.answered.foldl Answered.record (prepareSets p.configuration)
          cache := r.cache
          asked := p.asked ++ r.asked }) := by
  intro r
  let c := p.configuration
  let put (stage : Stage) := resolve s.sources s.now ((stage.queries s.families c).filter keep)
  have hstage : ∀ stage cache, ∀ a ∈ (put stage cache).answered, a.query.stage = stage :=
    fun stage cache => stage_of_mem_answered fun q hq => (mem_queries.1 (List.mem_filter.1 hq).1).1
  let r₁ := put .origins p.cache
  let r₂ := put .prefixes r₁.cache
  let r₃ := put .limits r₂.cache
  have hr : r = ⟨r₁.answered ++ (r₂.answered ++ r₃.answered), r₃.cache,
      r₁.asked ++ (r₂.asked ++ r₃.asked)⟩ := by
    simp only [r, questions, Stage.all, List.flatMap_cons, List.flatMap_nil, List.append_nil,
      List.filter_append, resolve_append]
    rfl
  let c₁ := r₁.answered.foldl Answered.record (prepareSets c)
  let c₂ := r₂.answered.foldl Answered.record c₁
  have hprefixes : Stage.prefixes.queries s.families c₁ = Stage.prefixes.queries s.families c :=
    queries_after_origins (hstage .origins p.cache) s.families c
  have hlimits : Stage.limits.queries s.families c₂ = Stage.limits.queries s.families c :=
    queries_after_prefixes (hstage .origins p.cache) (hstage .prefixes r₁.cache) s.families c
  have h₁ : Stage.origins.runOnly keep s p =
      (r₁.answered.filterMap Answered.failure?, ⟨c₁, r₁.cache, p.asked ++ r₁.asked⟩) := by
    simp only [Stage.runOnly, Stage.prepare, queries_prepareSets, c₁, r₁, put, c]
  have h₂ : Stage.prefixes.runOnly keep s ⟨c₁, r₁.cache, p.asked ++ r₁.asked⟩ =
      (r₂.answered.filterMap Answered.failure?,
        ⟨c₂, r₂.cache, p.asked ++ r₁.asked ++ r₂.asked⟩) := by
    simp only [Stage.runOnly, Stage.prepare, id_eq, hprefixes, c₂, r₂, put]
  have h₃ : Stage.limits.runOnly keep s ⟨c₂, r₂.cache, p.asked ++ r₁.asked ++ r₂.asked⟩ =
      (r₃.answered.filterMap Answered.failure?,
        ⟨r₃.answered.foldl Answered.record c₂, r₃.cache,
          p.asked ++ r₁.asked ++ r₂.asked ++ r₃.asked⟩) := by
    simp only [Stage.runOnly, Stage.prepare, id_eq, hlimits, r₃, put]
  simp only [runPipelineOnly, Stage.all, runStagesOnly, h₁, h₂, h₃, hr, List.append_nil]
  rw [failuresOf_append (hstage .origins p.cache) (hstage .prefixes r₁.cache)
    (hstage .limits r₂.cache), List.foldl_append, List.foldl_append]
  simp only [List.append_assoc, c₁, c₂]
  rfl

/-- Without a cache, too, the stages do what asking their questions at once would do. -/
theorem complete_all (s : Surroundings) (store : Cache.Store) (c : Configuration) :
    let answered := (questions s.families c).map (·.direct s.sources store)
    complete s store Stage.all c =
      (failuresOf answered, answered.foldl Answered.record (prepareSets c)) := by
  intro answered
  let put (stage : Stage) := (stage.queries s.families c).map (·.direct s.sources store)
  have hstage : ∀ stage, ∀ a ∈ put stage, a.query.stage = stage := fun stage =>
    List.forall_mem_map.2 fun q hq => (mem_queries.1 hq).1
  have hanswered : answered = put .origins ++ (put .prefixes ++ put .limits) := by
    simp only [answered, questions, Stage.all, List.flatMap_cons, List.flatMap_nil,
      List.append_nil, List.map_append, put]
  have hprefixes := queries_after_origins (hstage .origins) s.families c
  have hlimits := queries_after_prefixes (hstage .origins) (hstage .prefixes) s.families c
  have hfailures := failuresOf_append (hstage .origins) (hstage .prefixes) (hstage .limits)
  simp only [put] at hprefixes hlimits
  rw [hanswered, hfailures]
  simp only [complete, Stage.all, Stage.complete, Stage.answers, Stage.prepare, id_eq,
    queries_prepareSets, hprefixes, hlimits, List.foldl_append, List.append_nil, put]

/-! ### Failures -/

theorem failure?_eq_none_iff {a : Answered} : a.failure? = none ↔ a.result.isOk := by
  unfold Answered.failure?
  cases a.result <;> simp [Except.isOk, Except.toBool]

theorem failureOf_eq_none_iff {stage : Stage} {failures : List String} :
    stage.failure? failures = none ↔ failures = [] := by
  unfold Stage.failure?
  cases failures <;> simp

theorem failuresOf_eq_nil_iff {answered : List Answered} :
    failuresOf answered = [] ↔ ∀ a ∈ answered, a.result.isOk := by
  unfold failuresOf
  simp only [List.filterMap_eq_nil_iff, failureOf_eq_none_iff, failure?_eq_none_iff,
    List.mem_filter, decide_eq_true_eq]
  constructor
  · exact fun h a ha => h a.query.stage a.query.stage.mem_all a ⟨ha, rfl⟩
  · exact fun h stage _ a ha => h a ha.1

/-- Whether a question is answered when it is put to a cache. -/
def Query.succeeds (sources : Sources) (now : Instant) (cache : Cache.State) (q : Query) : Bool :=
  (q.lookup sources now cache).result.isOk

section

variable {s : Surroundings} (h : s.families.Pairwise fun f g => f.number < g.number)

include h

/-- One pass, and every question as if it were the only one. -/
theorem runPipelineOnly_put (keep : Query → Bool) (p : Progress) :
    let qs := (questions s.families p.configuration).filter keep
    let answered := qs.map (·.put s.sources s.now p.cache)
    (runPipelineOnly keep s p).1 = failuresOf answered ∧
      (runPipelineOnly keep s p).2.configuration =
        answered.foldl Answered.record (prepareSets p.configuration) ∧
      (runPipelineOnly keep s p).2.asked =
        p.asked ++ qs.filter fun q => (q.lookup s.sources s.now p.cache).fetched := by
  intro qs answered
  have hnodup : qs.Nodup := (nodup_questions h p.configuration).filter keep
  obtain ⟨hanswered, hasked⟩ := resolve_eq s.sources s.now hnodup p.cache
  rw [runPipelineOnly_eq, hanswered, hasked]
  exact ⟨rfl, rfl, rfl⟩

theorem runPipeline_put (p : Progress) :
    let qs := questions s.families p.configuration
    let answered := qs.map (·.put s.sources s.now p.cache)
    (runPipeline s p).1 = failuresOf answered ∧
      (runPipeline s p).2.configuration =
        answered.foldl Answered.record (prepareSets p.configuration) ∧
      (runPipeline s p).2.asked =
        p.asked ++ qs.filter fun q => (q.lookup s.sources s.now p.cache).fetched := by
  have hput := runPipelineOnly_put h (fun _ => true) p
  rw [runPipelineOnly_true, List.filter_true] at hput
  exact hput

/-- A run does not fail when, and only when, all its questions are answered. -/
theorem failures_eq_nil_iff (p : Progress) :
    (runPipeline s p).1 = [] ↔ ∀ q ∈ questions s.families p.configuration,
      q.succeeds s.sources s.now p.cache := by
  rw [(runPipeline_put h p).1, failuresOf_eq_nil_iff, List.forall_mem_map]
  rfl

end

end RouteServer.Enrich

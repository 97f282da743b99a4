import RouteServer.Proofs.Enrich.Limits

/-!
# Enrich — what enrichment leaves alone

The stages fill in three things of a client, the symbols of its sets and the two limits, and gather
the sets.  The configuration without these (`bare`) is the same after every stage, whatever the
sources and the cache are and whatever fails.

**Order** (`sameRun_move`).  What the registries are asked depends on the bare configuration only,
and what the directory is asked on no set.  The answers are kept under different keys and written
in different places.  So the stage that fills in limits may be moved past the others: the same
configuration and the same cache come out, the same questions are put to the sources, and the same
stages fail with the same lines.
-/

namespace RouteServer.Enrich

open RouteServer.Lookup RouteServer.Net RouteServer.Policy RouteServer.Time

/-! ### The frame -/

/-- A client without what is filled in. -/
def bareClient (client : Client) : Client := withLimits (fun _ => none) (assignSets client [])

/-- A configuration without what is filled in and gathered. -/
def bare (c : Configuration) : Configuration :=
  { c with clients := c.clients.map bareClient, asSets := .empty }

theorem bare_foldl_record (answered : List Answered) (c : Configuration) :
    bare (answered.foldl Answered.record c) = bare c := by
  rw [foldl_record_eq, bare, List.map_map]
  rfl

theorem bare_prepare (stage : Stage) (c : Configuration) : bare (stage.prepare c) = bare c := by
  cases stage with
  | origins =>
      simp only [Stage.prepare, prepareSets, bare, List.map_map]
      rfl
  | prefixes => rfl
  | limits => rfl

/-- A stage leaves the frame alone. -/
theorem bare_run (s : Surroundings) (stage : Stage) (p : Progress) :
    bare (stage.run s p).2.configuration = bare p.configuration :=
  (bare_foldl_record ..).trans (bare_prepare ..)

/-- **Frame.**  Stages in a row leave it alone. -/
theorem bare_runStages (s : Surroundings) (stages : List Stage) (p : Progress) :
    bare (runStages s stages p).2.configuration = bare p.configuration := by
  induction stages generalizing p with
  | nil => rfl
  | cons stage stages ih => exact (ih _).trans (bare_run s stage p)

theorem bare_runPipeline (s : Surroundings) (p : Progress) :
    bare (runPipeline s p).2.configuration = bare p.configuration :=
  bare_runStages s Stage.all p

theorem general_of_bare {c d : Configuration} (h : bare c = bare d) : c.general = d.general := by
  have hgeneral : (bare c).general = (bare d).general := congrArg _ h
  exact hgeneral

/-- The clients are the same ones, as far as they are not filled in. -/
theorem map_clients_of_bare {α : Type} {f : Client → α}
    (hf : ∀ client, f (bareClient client) = f client) {c d : Configuration}
    (h : bare c = bare d) : c.clients.map f = d.clients.map f := by
  have hmap : ∀ clients : List Client, (clients.map bareClient).map f = clients.map f := by
    intro clients
    rw [List.map_map]
    exact List.map_congr_left fun client _ => hf client
  have hclients : c.clients.map bareClient = d.clients.map bareClient :=
    congrArg Configuration.clients h
  rw [← hmap, hclients, hmap]

/-- A turn at a configuration: a stage, what it is given and the cache it finds. -/
structure Turn where
  stage : Stage
  surroundings : Surroundings
  cache : Cache.State

/-- The configuration after a turn. -/
def Turn.take (c : Configuration) (t : Turn) : Configuration :=
  (t.stage.run t.surroundings ⟨c, t.cache, []⟩).2.configuration

theorem bare_turns (turns : List Turn) (c : Configuration) :
    bare (turns.foldl Turn.take c) = bare c := by
  induction turns generalizing c with
  | nil => rfl
  | cons t turns ih => exact (ih _).trans (bare_run t.surroundings t.stage ⟨c, t.cache, []⟩)

/-! ### What is asked -/

theorem wantedSets_bare (c : Configuration) (p : Client → Bool)
    (hp : ∀ client, p (bareClient client) = p client) :
    wantedSets (bare c) p = wantedSets c p := by
  unfold wantedSets
  simp only [bare, List.filter_map, List.flatMap_map, Function.comp_def, hp]
  rfl

/-- What the registries are asked depends on the frame only. -/
theorem queries_bare {stage : Stage} (h : stage ≠ .limits) (families : List Family)
    (c : Configuration) : stage.queries families (bare c) = stage.queries families c := by
  cases stage with
  | origins => exact congrArg (List.map Query.origins) (wantedSets_bare c _ fun _ => rfl)
  | prefixes =>
      simp only [Stage.queries]
      rw [wantedSets_bare c _ fun _ => rfl]
  | limits => exact absurd rfl h

theorem queries_congr {stage : Stage} (h : stage ≠ .limits) (families : List Family)
    {c d : Configuration} (hbare : bare c = bare d) :
    stage.queries families c = stage.queries families d := by
  rw [← queries_bare h, hbare, queries_bare h]

/-! ### Answers in another order -/

/-- An answer about a network and one about a set are written in either order. -/
theorem record_comm {a b : Answered} (ha : a.query.stage = .limits) (hb : b.query.stage ≠ .limits)
    (c : Configuration) :
    Answered.record (Answered.record c a) b = Answered.record (Answered.record c b) a := by
  obtain ⟨q, x⟩ := a
  obtain ⟨r, y⟩ := b
  cases q with
  | origins name => cases ha
  | prefixes name family => cases ha
  | net asn =>
      cases r with
      | net n => exact absurd rfl hb
      | origins name => rcases x with e | _ | net <;> cases y <;> rfl
      | prefixes name family => rcases x with e | _ | net <;> cases y <;> rfl

/-- A change that may be made before or after each of some answers is made before or after all. -/
theorem foldl_record_hom {g : Configuration → Configuration} {as : List Answered}
    (h : ∀ a ∈ as, ∀ c, g (Answered.record c a) = Answered.record (g c) a) (c : Configuration) :
    g (as.foldl Answered.record c) = as.foldl Answered.record (g c) := by
  induction as generalizing c with
  | nil => rfl
  | cons a as ih =>
      obtain ⟨hfirst, hrest⟩ := List.forall_mem_cons.1 h
      rw [List.foldl_cons, ih hrest, hfirst, List.foldl_cons]

theorem foldl_record_comm {as bs : List Answered} (ha : ∀ a ∈ as, a.query.stage = .limits)
    (hb : ∀ b ∈ bs, b.query.stage ≠ .limits) (c : Configuration) :
    bs.foldl Answered.record (as.foldl Answered.record c) =
      as.foldl Answered.record (bs.foldl Answered.record c) := by
  -- one answer about a network past all about sets, and then all of them
  have hone : ∀ a ∈ as, ∀ d, bs.foldl Answered.record (Answered.record d a) =
      Answered.record (bs.foldl Answered.record d) a := fun a ha' d =>
    (foldl_record_hom (g := (Answered.record · a))
      (fun b hb' c => (record_comm (ha a ha') (hb b hb') c).symm) d).symm
  exact foldl_record_hom (g := fun d => bs.foldl Answered.record d) hone c

/-- Sets are prepared alike before and after answers about networks. -/
theorem prepare_record {a : Answered} (ha : a.query.stage = .limits) (stage : Stage)
    (c : Configuration) :
    stage.prepare (Answered.record c a) = Answered.record (stage.prepare c) a := by
  obtain ⟨q, e | x⟩ := a
  · rfl
  · cases q with
    | origins name => cases ha
    | prefixes name family => cases ha
    | net asn =>
        cases stage with
        | prefixes => rfl
        | limits => rfl
        | origins =>
            have hrecord : ∀ d, Answered.record d ⟨.net asn, .ok x⟩ = setLimits asn x d :=
              fun _ => rfl
            simp only [hrecord, setLimits_eq, Stage.prepare, prepareSets, List.map_map,
              List.flatMap_map]
            rfl

theorem prepare_foldl_record {as : List Answered} (ha : ∀ a ∈ as, a.query.stage = .limits)
    (stage : Stage) (c : Configuration) :
    stage.prepare (as.foldl Answered.record c) = as.foldl Answered.record (stage.prepare c) :=
  foldl_record_hom (fun a h c => prepare_record (ha a h) stage c) c

/-! ### Stages in another order -/

/-- Two stands of a run with the same configuration and the same cache, where the same questions
have been put to the sources, in whatever order. -/
structure Progress.Alike (p q : Progress) : Prop where
  configuration : p.configuration = q.configuration
  cache : p.cache = q.cache
  asked : p.asked.Perm q.asked

theorem Progress.Alike.trans {p q r : Progress} (h : p.Alike q) (h' : q.Alike r) : p.Alike r :=
  ⟨h.configuration.trans h'.configuration, h.cache.trans h'.cache, h.asked.trans h'.asked⟩

/-- A stage does not look at what has been asked. -/
theorem Progress.Alike.run (s : Surroundings) (stage : Stage) {p q : Progress} (h : p.Alike q) :
    (stage.run s p).1 = (stage.run s q).1 ∧ (stage.run s p).2.Alike (stage.run s q).2 := by
  obtain ⟨c, cache, asked⟩ := p
  obtain ⟨d, cache', asked'⟩ := q
  obtain ⟨rfl, rfl, hasked⟩ := h
  exact ⟨rfl, rfl, rfl, hasked.append_right _⟩

theorem Progress.Alike.runStages (s : Surroundings) (stages : List Stage) {p q : Progress}
    (h : p.Alike q) : (runStages s stages p).1 = (runStages s stages q).1 ∧
      (Enrich.runStages s stages p).2.Alike (Enrich.runStages s stages q).2 := by
  induction stages generalizing p q with
  | nil => exact ⟨rfl, h⟩
  | cons stage stages ih =>
      obtain ⟨hfailures, hnext⟩ := h.run s stage
      obtain ⟨hrest, hlast⟩ := ih hnext
      exact ⟨by simp only [Enrich.runStages, hfailures, hrest], hlast⟩

/-- A stage by its questions and what comes of them. -/
theorem Stage.run_eq {s : Surroundings} {stage : Stage} {p : Progress} {qs : List Query}
    {r : Resolution} (hqs : stage.queries s.families (stage.prepare p.configuration) = qs)
    (hr : resolve s.sources s.now qs p.cache = r) :
    stage.run s p = (r.answered.filterMap Answered.failure?,
      ⟨r.answered.foldl Answered.record (stage.prepare p.configuration), r.cache,
        p.asked ++ r.asked⟩) := by
  subst hqs hr
  rfl

section

variable (s : Surroundings) {stage : Stage} (h : stage ≠ .limits) (p : Progress)

include h

/-- What the registries are asked is the same before and after any stage. -/
theorem queries_run (other : Stage) :
    stage.queries s.families (stage.prepare (other.run s p).2.configuration) =
      stage.queries s.families (stage.prepare p.configuration) :=
  queries_congr h s.families <|
    (bare_prepare ..).trans ((bare_run s other p).trans (bare_prepare stage _).symm)

/-- What the directory is asked is the same before and after a stage that gathers sets. -/
theorem limits_queries_run :
    Stage.limits.queries s.families (stage.run s p).2.configuration =
      Stage.limits.queries s.families p.configuration := by
  have hprepare : Stage.limits.queries s.families (stage.prepare p.configuration) =
      Stage.limits.queries s.families p.configuration := by
    cases stage with
    | origins => exact queries_prepareSets ..
    | prefixes => rfl
    | limits => rfl
  refine (queries_foldl_record (fun a ha => ?_) ..).trans hprepare
  rw [stage_of_mem_queries a ha]
  exact h

/-- **Two stages**, of which one fills in limits, do in either order what each would do alone. -/
theorem run_comm :
    let limits := Stage.limits.run s p
    let other := stage.run s p
    (stage.run s limits.2).1 = other.1 ∧ (Stage.limits.run s other.2).1 = limits.1 ∧
      (stage.run s limits.2).2.Alike (Stage.limits.run s other.2).2 := by
  intro limits other
  let nets := Stage.limits.queries s.families p.configuration
  let names := stage.queries s.families (stage.prepare p.configuration)
  let r := resolve s.sources s.now nets p.cache
  let t := resolve s.sources s.now names p.cache
  have hdisjoint : ∀ q ∈ nets, q ∉ names := fun q hq hq' =>
    h ((mem_queries.1 hq').1.symm.trans (mem_queries.1 hq).1)
  have hnames : resolve s.sources s.now names r.cache =
      ⟨t.answered, (resolve s.sources s.now nets t.cache).cache, t.asked⟩ :=
    resolve_comm s.sources s.now hdisjoint p.cache
  have hnets : resolve s.sources s.now nets t.cache =
      ⟨r.answered, (resolve s.sources s.now names r.cache).cache, r.asked⟩ :=
    resolve_comm s.sources s.now (fun q hq hq' => hdisjoint q hq' hq) p.cache
  have hother := Stage.run_eq (p := limits.2) (queries_run s h p .limits) hnames
  have hlimits : Stage.limits.run s other.2 = _ :=
    Stage.run_eq (limits_queries_run s h p) hnets
  have hr : ∀ a ∈ r.answered, a.query.stage = .limits := stage_of_mem_queries
  have ht : ∀ a ∈ t.answered, a.query.stage ≠ .limits := fun a ha => by
    rw [stage_of_mem_queries a ha]
    exact h
  have hcache : (resolve s.sources s.now nets t.cache).cache =
      (resolve s.sources s.now names r.cache).cache := by rw [hnets]
  rw [hother, hlimits]
  refine ⟨rfl, rfl, ?_, hcache, ?_⟩
  · exact (congrArg (t.answered.foldl Answered.record) (prepare_foldl_record hr stage _)).trans
      (foldl_record_comm hr ht _)
  · have hasked : (p.asked ++ r.asked ++ t.asked).Perm (p.asked ++ t.asked ++ r.asked) := by
      rw [List.append_assoc, List.append_assoc]
      exact List.perm_append_comm.append_left p.asked
    exact hasked

end

/-- Two runs come to the same, and the same stages fail with the same lines, in whatever order. -/
structure SameRun (r t : List StageFailure × Progress) : Prop where
  failures : r.1.Perm t.1
  progress : r.2.Alike t.2

theorem SameRun.trans {r t u : List StageFailure × Progress} (h : SameRun r t)
    (h' : SameRun t u) : SameRun r u :=
  ⟨h.failures.trans h'.failures, h.progress.trans h'.progress⟩

section

variable (s : Surroundings)

/-- The stage that fills in limits may wait for the next one. -/
theorem sameRun_swap {stage : Stage} (h : stage ≠ .limits) (stages : List Stage) (p : Progress) :
    SameRun (runStages s (.limits :: stage :: stages) p)
      (runStages s (stage :: .limits :: stages) p) := by
  obtain ⟨hother, hlimits, halike⟩ := run_comm s h p
  obtain ⟨hrest, hlast⟩ := halike.runStages s stages
  simp only [runStages, hother, hlimits, hrest]
  refine ⟨?_, hlast⟩
  rw [← List.append_assoc, ← List.append_assoc]
  exact List.perm_append_comm.append_right _

theorem SameRun.cons (stage : Stage) {stages stages' : List Stage} {p : Progress}
    (h : SameRun (runStages s stages (stage.run s p).2) (runStages s stages' (stage.run s p).2)) :
    SameRun (runStages s (stage :: stages) p) (runStages s (stage :: stages') p) :=
  ⟨h.failures.append_left _, h.progress⟩

/-- **Order.**  The stage that fills in limits may wait for all others. -/
theorem sameRun_move {stages : List Stage} (h : .limits ∉ stages) (p : Progress) :
    SameRun (runStages s (.limits :: stages) p) (runStages s (stages ++ [.limits]) p) := by
  induction stages generalizing p with
  | nil => exact ⟨.refl _, rfl, rfl, .refl _⟩
  | cons stage stages ih =>
      rw [List.mem_cons, not_or] at h
      obtain ⟨hne, hrest⟩ := h
      exact (sameRun_swap s (Ne.symm hne) stages p).trans ((ih hrest _).cons s stage)

end

/-- **Nothing else changes, and the order does not matter.**  Stages in any order, each with what it
is given and with the cache that it finds, leave alone what is not filled in.  The stage that fills
in limits may run before, between or after the two that ask the registries. -/
theorem bare_eq_and_sameRun (c : Configuration) (turns : List Turn) (s : Surroundings)
    (p : Progress) :
    bare (turns.foldl Turn.take c) = bare c ∧
      SameRun (runStages s [.limits, .origins, .prefixes] p) (runPipeline s p) ∧
      SameRun (runStages s [.origins, .limits, .prefixes] p) (runPipeline s p) :=
  ⟨bare_turns turns c, sameRun_move s (by decide) p,
    SameRun.cons s .origins (sameRun_move s (by decide) _)⟩

end RouteServer.Enrich

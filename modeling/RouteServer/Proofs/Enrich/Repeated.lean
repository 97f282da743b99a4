import RouteServer.Proofs.Build.Filters
import RouteServer.Proofs.Enrich.Frame
import RouteServer.Proofs.Enrich.Replay

/-!
# Enrich — a stage that is run twice

What a stage was told is remembered, so a stage that has not failed is told the same when it is run
again at once: it cannot fail, asks nobody and leaves the cache as it is.

Most of what it writes then is there already: symbols and sets are assigned anew as they were
(`prepareSets_again`), origins take the place of the same origins, and a limit that has been filled
in is a limit that the client has (`limited_again`).  Prefixes are put behind those that are there,
and so come twice (`asSets_again_iff`).

**Repetition** (`run_again_iff`).  So running a stage again changes nothing, unless it looks for
prefixes and finds some for a set that is there.
-/

namespace RouteServer.Enrich

open RouteServer.Cache RouteServer.Lookup RouteServer.Net RouteServer.Policy RouteServer.Time

/-! ### What is asked again -/

/-- What a question was told is remembered. -/
def Answered.IsRemembered (cache : Cache.State) (a : Answered) : Prop :=
  ∃ x payload, a.result = .ok x ∧ cache.store.memo.get? a.query.key = some payload ∧
    a.query.codec.decode payload = some x

theorem Answered.IsRemembered.mono {cache cache' : Cache.State} {a : Answered}
    (hkeeps : cache.KeepsMemo cache') (h : a.IsRemembered cache) : a.IsRemembered cache' := by
  obtain ⟨x, payload, hresult, hmemo, hdecode⟩ := h
  exact ⟨x, payload, hresult, hkeeps _ payload hmemo, hdecode⟩

section

variable (sources : Sources) (now : Instant)

theorem lookup_of_isRemembered {cache : Cache.State} {a : Answered} (h : a.IsRemembered cache) :
    a.query.lookup sources now cache = ⟨a.result, false, cache⟩ := by
  obtain ⟨x, payload, hresult, hmemo, hdecode⟩ := h
  have hanswer : Store.answer a.query.codec payload = .ok x := by simp only [Store.answer, hdecode]
  rw [Query.lookup, Store.lookup_of_settled (Store.consult_remembered now hmemo), hanswer, hresult]

/-- What is remembered is told again, without asking. -/
theorem resolve_of_isRemembered {cache : Cache.State} {as : List Answered}
    (h : ∀ a ∈ as, a.IsRemembered cache) :
    resolve sources now (as.map Answered.query) cache = ⟨as, cache, []⟩ := by
  induction as with
  | nil => rfl
  | cons a as ih =>
      obtain ⟨hfirst, hrest⟩ := List.forall_mem_cons.1 h
      have hlookup := lookup_of_isRemembered sources now hfirst
      rw [List.map_cons, resolve_cons, Query.put, hlookup]
      simp only [ih hrest]
      rfl

/-- Questions without failure leave all that they were told remembered. -/
theorem isRemembered_of_resolve {qs : List Query} {cache : Cache.State}
    (h : ∀ a ∈ (resolve sources now qs cache).answered, a.failure? = none) :
    ∀ a ∈ (resolve sources now qs cache).answered,
      a.IsRemembered (resolve sources now qs cache).cache := by
  induction qs generalizing cache with
  | nil => exact fun a ha => absurd ha List.not_mem_nil
  | cons q qs ih =>
      rw [resolve_cons] at h ⊢
      obtain ⟨hfirst, hrest⟩ := List.forall_mem_cons.1 h
      refine List.forall_mem_cons.2 ⟨?_, ih hrest⟩
      have hok := failure?_eq_none_iff.1 hfirst
      cases hresult : (q.lookup sources now cache).result with
      | error e => rw [Query.put, hresult] at hok; cases hok
      | ok x =>
          obtain ⟨payload, hmemo, hdecode⟩ :=
            remembered_of_lookup q.decode_payload q.key now (q.ask sources) cache hresult
          -- what the first look-up remembers stays to the end
          exact .mono (resolve_induct sources now (keepsMemo_lookup sources now _) qs (.refl _))
            ⟨x, payload, hresult, hmemo, hdecode⟩

end

/-- A stage that has not failed, and asks nothing new when it is run again, is told what it was told
before. -/
theorem Stage.run_again {s : Surroundings} {stage : Stage} {p : Progress}
    (hrun : (stage.run s p).1 = []) {as : List Answered}
    (hsub : as ⊆ (resolve s.sources s.now (stage.queries s.families (stage.prepare p.configuration))
      p.cache).answered)
    (hqs : stage.queries s.families (stage.prepare (stage.run s p).2.configuration) =
      as.map Answered.query) :
    stage.run s (stage.run s p).2 =
      ([], { (stage.run s p).2 with
        configuration :=
          as.foldl Answered.record (stage.prepare (stage.run s p).2.configuration) }) := by
  have hanswered := List.filterMap_eq_nil_iff.1 hrun
  have hremembered : ∀ a ∈ as, a.IsRemembered (stage.run s p).2.cache := fun a ha =>
    isRemembered_of_resolve s.sources s.now hanswered a (hsub ha)
  have hfailures : as.filterMap Answered.failure? = [] :=
    List.filterMap_eq_nil_iff.2 fun a ha => hanswered a (hsub ha)
  rw [Stage.run_eq hqs (resolve_of_isRemembered s.sources s.now hremembered), hfailures,
    List.append_nil]

/-! ### What is written again -/

/-- Limits that have been filled in are not filled in again. -/
theorem limited_again {as answered : List Answered} (h : as ⊆ answered) (client : Client) :
    limited as (limited answered client) = limited answered client := by
  have hlimits : limitFrom (answered ++ as) client = limitFrom answered client := by
    funext family
    rw [limitFrom, limitFrom, List.findSome?_append]
    cases hfirst : answered.findSome? (Answered.announced client.asn family) with
    | some n => rfl
    | none =>
        have hmore : as.findSome? (Answered.announced client.asn family) = none :=
          List.findSome?_eq_none_iff.2 fun a ha => List.findSome?_eq_none_iff.1 hfirst a (h ha)
        rw [hmore]
        rfl
  rw [← limited_append, limited, hlimits]
  rfl

/-- Answers that have been given change at most the sets when they are given again. -/
theorem foldl_record_again_iff {as answered : List Answered} (h : as ⊆ answered)
    (c : Configuration) :
    let d := answered.foldl Answered.record c
    as.foldl Answered.record d = d ↔ (as.foldl Answered.record d).asSets = d.asSets := by
  intro d
  refine ⟨congrArg _, fun hsets => ?_⟩
  have hclients : d.clients.map (limited as) = d.clients := by
    have hd : d.clients = c.clients.map (limited answered) :=
      congrArg Configuration.clients (foldl_record_eq answered c)
    rw [hd, List.map_map]
    exact List.map_congr_left fun client _ => limited_again h client
  rw [foldl_record_eq, hclients, hsets]

/-- **Symbols and sets that are there** are not prepared anew. -/
theorem prepareSets_again (answered : List Answered) (c : Configuration) :
    let d := answered.foldl Answered.record (prepareSets c)
    prepareSets d = d := by
  intro d
  have hd : d = { prepareSets c with
      clients := (prepareSets c).clients.map (limited answered), asSets := d.asSets } :=
    foldl_record_eq answered (prepareSets c)
  have hnames : ∀ client,
      clientSets d (limited answered (assignSets client (clientSets c client))) =
        clientSets c client := fun client => by
    rw [hd]
    rfl
  have hclients : d.clients = c.clients.map fun client =>
      limited answered (assignSets client (clientSets c client)) :=
    (congrArg Configuration.clients hd).trans List.map_map
  have hassigned : d.clients.map (fun client => assignSets client (clientSets d client)) =
      d.clients := by
    rw [hclients, List.map_map]
    refine List.map_congr_left fun client _ => ?_
    rw [Function.comp_apply, hnames]
    rfl
  have hgathered : (d.clients.flatMap (clientSets d)).foldl addSet d.asSets = d.asSets := by
    have hsame : d.clients.flatMap (clientSets d) = c.clients.flatMap (clientSets c) := by
      rw [hclients, List.flatMap_map]
      exact List.flatMap_congr fun client _ => hnames client
    refine Dictionary.ext_get? fun key => ?_
    rw [hsame, get?_foldl_addSet]
    cases hkey : d.asSets.get? key with
    | some set => rfl
    | none =>
        -- a name with the symbol would have got its set before
        rw [get?_foldl_record, Option.map_eq_none_iff] at hkey
        simp only [prepareSets, get?_foldl_addSet, Option.or_eq_none_iff] at hkey
        rw [hkey.2]
        rfl
  rw [prepareSets, hassigned, hgathered]

/-- Answers about networks leave the sets alone. -/
theorem asSets_foldl_record {as : List Answered} (h : ∀ a ∈ as, a.query.stage = .limits)
    (c : Configuration) : (as.foldl Answered.record c).asSets = c.asSets := by
  induction as generalizing c with
  | nil => rfl
  | cons a as ih =>
      obtain ⟨hfirst, hrest⟩ := List.forall_mem_cons.1 h
      rw [List.foldl_cons, ih hrest]
      obtain ⟨q, x⟩ := a
      cases q with
      | origins name => cases hfirst
      | prefixes name family => cases hfirst
      | net asn => rcases x with e | _ | net <;> rfl

/-- A prefix has been found for a set that is there. -/
def Adds (answered : List Answered) (c : Configuration) : Prop :=
  ∃ name family more, ⟨.prefixes name family, .ok more⟩ ∈ answered ∧
    c.asSets.contains (AsSet.symbol name) ∧ more ≠ []

theorem not_adds_iff {answered : List Answered} {c : Configuration} :
    ¬ Adds answered c ↔
      ∀ key, c.asSets.contains key → answered.flatMap (Answered.prefixes key) = [] := by
  constructor
  · intro h key hkey
    refine List.flatMap_eq_nil_iff.2 fun a ha => ?_
    unfold Answered.prefixes
    split
    case h_1 name family more =>
        split
        case isTrue hname =>
            by_contra hmore
            exact h ⟨name, family, more, ha, hname ▸ hkey, hmore⟩
        case isFalse => rfl
    case h_2 => rfl
  · rintro h ⟨name, family, more, ha, hkey, hmore⟩
    have hnone := List.flatMap_eq_nil_iff.1 (h _ hkey) _ ha
    rw [Answered.prefixes, if_pos rfl] at hnone
    exact hmore hnone

/-- **Sets** get the same origins again, but prefixes twice. -/
theorem asSets_again_iff (answered : List Answered) (c : Configuration) :
    let d := answered.foldl Answered.record c
    (answered.foldl Answered.record d).asSets = d.asSets ↔ ¬ Adds answered c := by
  intro d
  have hkey : ∀ key, (answered.foldl Answered.record d).asSets.get? key = d.asSets.get? key ↔
      (c.asSets.contains key → answered.flatMap (Answered.prefixes key) = []) := by
    intro key
    rw [get?_foldl_record, get?_foldl_record, Dictionary.contains]
    cases c.asSets.get? key with
    | none => simp
    | some set =>
        cases (answered.filterMap (Answered.origins? key)).getLast? <;> simp
  rw [not_adds_iff, ← forall_congr' hkey]
  exact ⟨fun h key => by rw [h], Dictionary.ext_get?⟩

/-! ### Stages -/

/-- A client that still leaves a limit to its network left it before. -/
theorem wantedNets_foldl_record {answered : List Answered} {c : Configuration} {asn : Asn}
    (h : asn ∈ wantedNets (answered.foldl Answered.record c)) : asn ∈ wantedNets c := by
  obtain ⟨client, hclient, hasn, hpeering, hmissing⟩ := mem_wantedNets.1 h
  rw [foldl_record_eq] at hclient
  obtain ⟨before, hbefore, rfl⟩ := List.mem_map.1 hclient
  have hown : ∀ family, limitFrom answered before family = none → limitOf before family = none :=
    fun family hnone => (Option.or_eq_none_iff.1 hnone).1
  exact mem_wantedNets.2
    ⟨before, hbefore, hasn, hpeering, hmissing.imp (hown .v4) (hown .v6)⟩

/-- Answers to some of the questions that have been put. -/
theorem exists_answers {qs : List Query} {answered : List Answered}
    (h : ∀ q ∈ qs, q ∈ answered.map Answered.query) :
    ∃ as, as ⊆ answered ∧ qs = as.map Answered.query := by
  induction qs with
  | nil => exact ⟨[], List.nil_subset _, rfl⟩
  | cons q qs ih =>
      obtain ⟨hfirst, hrest⟩ := List.forall_mem_cons.1 h
      obtain ⟨as, has, rfl⟩ := ih hrest
      obtain ⟨a, ha, rfl⟩ := List.mem_map.1 hfirst
      exact ⟨a :: as, List.cons_subset.2 ⟨ha, has⟩, rfl⟩

/-- Only the stage that looks for prefixes finds any. -/
theorem not_adds_of_stage {answered : List Answered} (h : ∀ a ∈ answered, a.query.stage ≠ .prefixes)
    (c : Configuration) : ¬ Adds answered c := by
  rintro ⟨name, family, more, ha, -⟩
  exact h _ ha rfl

/-- **Repetition.**  A stage that has not failed does not fail when it is run again at once; it asks
nobody and leaves the cache as it is.  It leaves the configuration as it is, too, unless it looks
for prefixes and has found some for a set that is there. -/
theorem run_again_iff (s : Surroundings) {stage : Stage} {p : Progress}
    (hrun : (stage.run s p).1 = []) :
    let answered := (resolve s.sources s.now
      (stage.queries s.families (stage.prepare p.configuration)) p.cache).answered
    let once := (stage.run s p).2
    let twice := stage.run s once
    twice.1 = [] ∧ twice.2.cache = once.cache ∧ twice.2.asked = once.asked ∧
      (twice.2.configuration = once.configuration ↔
        (stage = .prefixes → ¬ Adds answered p.configuration)) := by
  intro answered once twice
  suffices h : ∃ as, as ⊆ answered ∧
      stage.queries s.families (stage.prepare once.configuration) = as.map Answered.query ∧
      (as.foldl Answered.record (stage.prepare once.configuration) = once.configuration ↔
        (stage = .prefixes → ¬ Adds answered p.configuration)) by
    obtain ⟨as, hsub, hqs, hconfiguration⟩ := h
    have hagain : twice = _ := Stage.run_again hrun hsub hqs
    rw [hagain]
    exact ⟨rfl, rfl, rfl, hconfiguration⟩
  have hstage : ∀ a ∈ answered, a.query.stage = stage := stage_of_mem_queries
  have hqueries : answered.map Answered.query =
      stage.queries s.families (stage.prepare p.configuration) := map_query_answered ..
  have hsame : stage ≠ .limits → stage.queries s.families (stage.prepare once.configuration) =
      answered.map Answered.query := fun h => (queries_run s h p stage).trans hqueries.symm
  cases stage with
  | origins =>
      have hprepared : prepareSets once.configuration = once.configuration :=
        prepareSets_again answered p.configuration
      have hnone : ¬ Adds answered (prepareSets p.configuration) :=
        not_adds_of_stage (fun a ha => by rw [hstage a ha]; decide) _
      refine ⟨answered, List.Subset.refl _, hsame (by decide), iff_of_true ?_ fun h => ?_⟩
      · rw [Stage.prepare, hprepared]
        exact (foldl_record_again_iff (List.Subset.refl _) _).2 ((asSets_again_iff ..).2 hnone)
      · exact absurd h (by decide)
  | prefixes =>
      refine ⟨answered, List.Subset.refl _, hsame (by decide), ?_⟩
      exact (foldl_record_again_iff (List.Subset.refl _) p.configuration).trans <|
        (asSets_again_iff ..).trans ⟨fun h _ => h, fun h => h rfl⟩
  | limits =>
      have hfewer : ∀ q ∈ Stage.limits.queries s.families once.configuration,
          q ∈ answered.map Answered.query := fun q hq => by
        rw [hqueries]
        obtain ⟨asn, hasn, rfl⟩ := List.mem_map.1 hq
        exact List.mem_map_of_mem (wantedNets_foldl_record hasn)
      obtain ⟨as, hsub, hqs⟩ := exists_answers hfewer
      refine ⟨as, hsub, hqs, iff_of_true ?_ fun h => absurd h (by decide)⟩
      exact (foldl_record_again_iff hsub p.configuration).2
        (asSets_foldl_record (fun a ha => hstage a (hsub ha)) _)

/-- Every set has one origin and one prefix. -/
def onePrefix : Surroundings where
  sources :=
    { origins := fun _ => .ok [64501]
      prefixes := fun _ _ => .ok [⟨.v4 0xc0000200#32, 24, 24, 24⟩]
      net := fun _ => .ok none }
  families := [.v4]
  now := ⟨0, 0⟩

/-- The run that gathers the sets of a configuration. -/
def gathering (c : Configuration) : List String × Progress :=
  Stage.origins.run onePrefix ⟨c, Build.emptyCache, []⟩

/-- Sets are gathered twice. -/
theorem run_again_iff_gathering :
    ∃ c, (Build.inputsOf ["AS-FOO"]).load {} = .ok c ∧ (gathering c).1 = [] ∧
      (Stage.origins.run onePrefix (gathering c).2).2.configuration =
        (gathering c).2.configuration := by
  have hrun : ((Build.inputsOf ["AS-FOO"]).load {}).toOption.any fun c =>
      (gathering c).1.isEmpty := by
    decide +kernel
  cases hload : (Build.inputsOf ["AS-FOO"]).load {} with
  | error e => rw [hload] at hrun; cases hrun
  | ok c =>
      rw [hload] at hrun
      have hempty : (gathering c).1 = [] := List.isEmpty_iff.1 hrun
      exact ⟨c, rfl, hempty, (run_again_iff onePrefix hempty).2.2.2.2 fun h => absurd h (by decide)⟩

/-- The run that then looks for prefixes. -/
def searching (c : Configuration) : List String × Progress :=
  Stage.prefixes.run onePrefix (gathering c).2

/-- The prefixes that have been found, set by set. -/
def foundPrefixes (p : Progress) : List (List SetPrefix) :=
  p.configuration.asSets.values.map ResolvedSet.prefixes

/-- The prefix of a set comes twice. -/
theorem not_unchanged_prefixes :
    ∃ c, (Build.inputsOf ["AS-FOO"]).load {} = .ok c ∧ (searching c).1 = [] ∧
      (Stage.prefixes.run onePrefix (searching c).2).2.configuration ≠
        (searching c).2.configuration := by
  have hrun : ((Build.inputsOf ["AS-FOO"]).load {}).toOption.any fun c =>
      (searching c).1.isEmpty && decide
        (foundPrefixes (Stage.prefixes.run onePrefix (searching c).2).2 ≠
          foundPrefixes (searching c).2) := by
    decide +kernel
  cases hload : (Build.inputsOf ["AS-FOO"]).load {} with
  | error e => rw [hload] at hrun; cases hrun
  | ok c =>
      rw [hload, Except.toOption, Option.any_some, Bool.and_eq_true, List.isEmpty_iff,
        decide_eq_true_eq] at hrun
      obtain ⟨hempty, hmore⟩ := hrun
      refine ⟨c, rfl, hempty, fun he => hmore ?_⟩
      rw [foundPrefixes, he, foundPrefixes]

end RouteServer.Enrich

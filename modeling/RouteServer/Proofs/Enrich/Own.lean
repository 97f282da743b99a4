import RouteServer.Proofs.Enrich.Contents

/-!
# Enrich — clients and the sets of their own

A client is filtered with what is kept under the symbols of its names, so names that share a symbol
meet there.  Of their origins only those of the name asked about last are kept (`heir`); of their
prefixes all are, whichever client they were looked up for.

**Own sets** (`filteredByOwn_finished`).  After a run without failures clients are filtered with
exactly the data of their own names when, and only when, nothing is lost and nothing is mixed in at
their symbols (`Unmixed`); in particular when names that are looked up have symbols of their own
(`unmixed_of_injective`).
-/

namespace RouteServer.Enrich

open RouteServer.Cache RouteServer.Lookup RouteServer.Net RouteServer.Policy RouteServer.Time

/-- The origins in the set of a name. -/
def originsOf (sources : Sources) (name : String) : List Asn :=
  (sources.origins name).toOption.getD []

/-- The prefixes of the set of a name in a family. -/
def prefixesOf (sources : Sources) (name : String) (family : Family) : List SetPrefix :=
  (sources.prefixes name family).toOption.getD []

/-- The sets that filter a client. -/
def setsOf (c : Configuration) (client : Client) : List ResolvedSet :=
  client.cfg.filtering.irr.asSetIds.filterMap c.asSets.get?

/-- Whether the origins in the sets of a client matter. -/
def needsOrigins (c : Configuration) (client : Client) : Bool :=
  c.general.filtering.irr.tagAsSet || client.cfg.filtering.irr.enforceOrigin

/-- Whether the prefixes of the sets of a client matter. -/
def needsPrefixes (c : Configuration) (client : Client) : Bool :=
  c.general.filtering.irr.tagAsSet || client.cfg.filtering.irr.enforcePrefix

/-- Every client is filtered with the data of the names of its own, where they matter. -/
structure FilteredByOwn (sources : Sources) (families : List Family) (c : Configuration) :
    Prop where
  origins : ∀ client ∈ c.clients, needsOrigins c client → ∀ asn,
    (∃ s ∈ setsOf c client, asn ∈ s.asns) ↔
      ∃ name ∈ clientSets c client, asn ∈ originsOf sources name
  prefixes : ∀ client ∈ c.clients, needsPrefixes c client → ∀ p,
    (∃ s ∈ setsOf c client, p ∈ s.prefixes) ↔
      ∃ name ∈ clientSets c client, ∃ family ∈ families, p ∈ prefixesOf sources name family

/-- The names whose origins are looked up. -/
def originNames (c : Configuration) : List String :=
  wantedSets c fun client => client.cfg.filtering.irr.enforceOrigin

/-- The names whose prefixes are looked up. -/
def prefixNames (c : Configuration) : List String :=
  wantedSets c fun client => client.cfg.filtering.irr.enforcePrefix

/-- The last of some names with the symbol of a name. -/
def heir (names : List String) (name : String) : String :=
  ((names.filter fun n => AsSet.symbol n = AsSet.symbol name).getLast?).getD name

/-- The names of a client lose no origin to names with their symbols, and win no origin and no
prefix from them. -/
structure Unmixed (sources : Sources) (families : List Family) (c : Configuration) : Prop where
  origins : ∀ client ∈ c.clients, needsOrigins c client → ∀ asn,
    (∃ name ∈ clientSets c client, asn ∈ originsOf sources (heir (originNames c) name)) ↔
      ∃ name ∈ clientSets c client, asn ∈ originsOf sources name
  prefixes : ∀ client ∈ c.clients, needsPrefixes c client →
    ∀ name ∈ clientSets c client, ∀ other ∈ prefixNames c,
      AsSet.symbol other = AsSet.symbol name →
      ∀ family ∈ families, ∀ p ∈ prefixesOf sources other family,
        ∃ name ∈ clientSets c client, ∃ family ∈ families, p ∈ prefixesOf sources name family

/-! ### Names of their own -/

theorem mem_wantedSets {c : Configuration} {p : Client → Bool} {client : Client} {name : String}
    (hc : client ∈ c.clients) (hp : c.general.filtering.irr.tagAsSet || p client)
    (hn : name ∈ clientSets c client) : name ∈ wantedSets c p :=
  mem_wantedSets_iff.2 ⟨client, hc, (Bool.or_eq_true ..).mp hp, mem_clientSets.1 hn⟩

theorem getLast?_mem {names : List String} {name : String} (h : name ∈ names) :
    ∃ last ∈ names, names.getLast? = some last :=
  ⟨_, List.getLast_mem (List.ne_nil_of_mem h), List.getLast?_eq_some_getLast _⟩

theorem heir_spec {names : List String} {name : String} (h : name ∈ names) :
    heir names name ∈ names ∧ AsSet.symbol (heir names name) = AsSet.symbol name ∧
      (names.filter fun n => AsSet.symbol n = AsSet.symbol name).getLast? =
        some (heir names name) := by
  have hmem : name ∈ names.filter fun n => AsSet.symbol n = AsSet.symbol name := by simpa using h
  obtain ⟨last, hlast, he⟩ := getLast?_mem hmem
  have hheir : heir names name = last := by rw [heir, he]; rfl
  rw [hheir]
  simp only [List.mem_filter, decide_eq_true_eq] at hlast
  exact ⟨hlast.1, hlast.2, he⟩

/-- Names that have symbols of their own are not mixed. -/
theorem unmixed_of_injective {sources : Sources} {families : List Family} {c : Configuration}
    (ho : ∀ m ∈ originNames c, ∀ n ∈ originNames c, AsSet.symbol m = AsSet.symbol n → m = n)
    (hp : ∀ m ∈ prefixNames c, ∀ n ∈ prefixNames c, AsSet.symbol m = AsSet.symbol n → m = n) :
    Unmixed sources families c where
  origins client hc hneeds asn := by
    refine exists_congr fun name => and_congr_right fun hn => ?_
    have hname : name ∈ originNames c := mem_wantedSets hc hneeds hn
    obtain ⟨hmem, hsymbol, -⟩ := heir_spec hname
    rw [ho _ hmem _ hname hsymbol]
  prefixes client hc hneeds name hn other hother hsymbol family hf p hp' := by
    have hname : name ∈ prefixNames c := mem_wantedSets hc hneeds hn
    have he : other = name := hp _ hother _ hname hsymbol
    exact ⟨name, hn, family, hf, he ▸ hp'⟩

/-! ### A run without failures -/

theorem ask_of_verdict {α : Type} {store : Store} {key : String} {r : Except Failure α} {x : α}
    (h : store.verdict key r = .ok x) : r = .ok x := by
  cases r with
  | error e => cases h
  | ok y =>
      rw [Store.verdict] at h
      split at h
      · exact h
      · cases h

/-- What the sources know about a question. -/
def Query.found (sources : Sources) : (q : Query) → q.Answer
  | .origins name => originsOf sources name
  | .prefixes name family => prefixesOf sources name family
  | .net asn => (sources.net asn).toOption.getD none

theorem Query.found_of_ask {sources : Sources} {q : Query} {x : q.Answer}
    (h : q.ask sources = .ok x) : q.found sources = x := by
  cases q with
  | origins name =>
      have h' : sources.origins name = .ok x := h
      rw [found, originsOf, h']
      rfl
  | prefixes name family =>
      have h' : sources.prefixes name family = .ok x := h
      rw [found, prefixesOf, h']
      rfl
  | net asn =>
      have h' : sources.net asn = .ok x := h
      rw [found, h']
      rfl

/-- A question that does not fail has been answered by the sources. -/
theorem Query.direct_eq_found {sources : Sources} {store : Store} {q : Query}
    (h : (q.direct sources store).result.isOk) :
    q.direct sources store = ⟨q, .ok (q.found sources)⟩ := by
  unfold Query.direct at h ⊢
  cases hr : store.verdict q.key (q.ask sources) with
  | error e => rw [hr] at h; cases h
  | ok x => rw [Query.found_of_ask (ask_of_verdict hr)]

/-- The sets after all has been written. -/
def writtenSets (sources : Sources) (families : List Family) (c : Configuration) :
    Dictionary ResolvedSet :=
  (((questions families c).map fun q => (⟨q, .ok (q.found sources)⟩ : Answered)).foldl
    Answered.record (prepareSets c)).asSets

/-- **What a run without failures leads to.** -/
theorem complete_eq {s : Surroundings} {store : Store} {c d : Configuration}
    (h : complete s store Stage.all c = ([], d)) :
    ∃ f, KeepsSets f ∧ d =
      { prepareSets c with
        clients := (prepareSets c).clients.map f
        asSets := writtenSets s.sources s.families c } := by
  rw [complete_all, Prod.mk.injEq, failuresOf_eq_nil_iff, List.forall_mem_map] at h
  obtain ⟨hok, hd⟩ := h
  rw [List.map_congr_left fun q hq => Query.direct_eq_found (hok q hq)] at hd
  rw [← hd]
  exact ⟨_, keepsSets_limited _, foldl_record_eq _ _⟩

/-! ### What a client finds -/

theorem get?_writtenSets (sources : Sources) (families : List Family) (c : Configuration)
    (k : String) :
    (writtenSets sources families c).get? k = ((prepareSets c).asSets.get? k).map fun s =>
      { s with
        asns := (((originNames c).filter (AsSet.symbol · = k)).getLast?.map fun n =>
          ascending (originsOf sources n)).getD s.asns
        prefixes := s.prefixes ++
          ((prefixNames c).filter (AsSet.symbol · = k)).flatMap fun name =>
            families.flatMap (prefixesOf sources name) } := by
  have hgiven : (originNames c).filterMap
      (givenOrigins (fun q => .ok (q.found sources)) k) =
        ((originNames c).filter (AsSet.symbol · = k)).map (originsOf sources) := by
    rw [← List.filterMap_eq_map, List.filterMap_filter]
    refine List.filterMap_congr fun name _ => ?_
    simp [givenOrigins, Query.found, Except.toOption]
  unfold writtenSets
  rw [get?_foldl_record, filterMap_origins, flatMap_prefixes]
  unfold originNames at hgiven
  rw [hgiven, List.getLast?_map, Option.map_map]
  rfl

section Found

variable {sources : Sources} {families : List Family} {c : Configuration} {client : Client}

theorem exists_bare (hc : c.asSets = .empty) (hclient : client ∈ c.clients) {name : String}
    (hn : name ∈ clientSets c client) :
    ∃ s, (prepareSets c).asSets.get? (AsSet.symbol name) = some s ∧ s.prefixes = [] := by
  have hfirst : ((c.clients.flatMap (listedNames c)).find?
      (AsSet.symbol · = AsSet.symbol name)).isSome :=
    List.find?_isSome.2 ⟨name, List.mem_flatMap.2 ⟨client, hclient, mem_clientSets.1 hn⟩,
      decide_eq_true rfl⟩
  obtain ⟨first, hfirst⟩ := Option.isSome_iff_exists.1 hfirst
  exact ⟨{ name := first }, by rw [get?_prepareSets hc, hfirst]; rfl, rfl⟩

theorem written_origins (families : List Family) (hc : c.asSets = .empty)
    (hclient : client ∈ c.clients) (hneeds : needsOrigins c client) {name : String}
    (hn : name ∈ clientSets c client) :
    ∃ s, (writtenSets sources families c).get? (AsSet.symbol name) = some s ∧
      ∀ asn, asn ∈ s.asns ↔ asn ∈ originsOf sources (heir (originNames c) name) := by
  obtain ⟨s, hs, -⟩ := exists_bare hc hclient hn
  have hname : name ∈ originNames c := mem_wantedSets hclient hneeds hn
  obtain ⟨-, -, hlast⟩ := heir_spec hname
  refine ⟨_, by rw [get?_writtenSets, hs]; rfl, fun asn => ?_⟩
  simp only [hlast, Option.map_some, Option.getD_some, mem_ascending]

theorem written_prefixes (hc : c.asSets = .empty) (hclient : client ∈ c.clients) {name : String}
    (hn : name ∈ clientSets c client) :
    ∃ s, (writtenSets sources families c).get? (AsSet.symbol name) = some s ∧
      ∀ p, p ∈ s.prefixes ↔ ∃ other ∈ prefixNames c, AsSet.symbol other = AsSet.symbol name ∧
        ∃ family ∈ families, p ∈ prefixesOf sources other family := by
  obtain ⟨s, hs, hbare⟩ := exists_bare hc hclient hn
  refine ⟨_, by rw [get?_writtenSets, hs]; rfl, fun p => ?_⟩
  simp only [hbare, List.nil_append, List.mem_flatMap, List.mem_filter, decide_eq_true_eq,
    and_assoc]

/-- A configuration after a run without failures. -/
def finished (sources : Sources) (families : List Family) (f : Client → Client)
    (c : Configuration) : Configuration :=
  { prepareSets c with
    clients := (prepareSets c).clients.map f
    asSets := writtenSets sources families c }

/-- The client of a run without failures. -/
def finishedClient (f : Client → Client) (c : Configuration) (client : Client) : Client :=
  f (assignSets client (clientSets c client))

theorem forall_finished {f : Client → Client} {P : Client → Prop} :
    (∀ client ∈ (finished sources families f c).clients, P client) ↔
      ∀ client ∈ c.clients, P (finishedClient f c client) := by
  simp only [finished, prepareSets, List.map_map, List.forall_mem_map, Function.comp_apply]
  rfl

variable {f : Client → Client} (hf : KeepsSets f)

include hf

theorem needsOrigins_finished :
    needsOrigins (finished sources families f c) (finishedClient f c client) =
      needsOrigins c client := by
  simp only [needsOrigins, finishedClient, (hf _).2]
  rfl

theorem needsPrefixes_finished :
    needsPrefixes (finished sources families f c) (finishedClient f c client) =
      needsPrefixes c client := by
  simp only [needsPrefixes, finishedClient, (hf _).2]
  rfl

theorem clientSets_finished :
    clientSets (finished sources families f c) (finishedClient f c client) =
      clientSets c client := by
  simp only [clientSets, finishedClient, (hf _).1, (hf _).2]
  rfl

theorem mem_setsOf_finished {s : ResolvedSet} :
    s ∈ setsOf (finished sources families f c) (finishedClient f c client) ↔
      ∃ name ∈ clientSets c client,
        (writtenSets sources families c).get? (AsSet.symbol name) = some s := by
  simp only [setsOf, finishedClient, (hf _).2, assignSets, List.mem_filterMap, List.mem_map,
    exists_exists_and_eq_and]
  rfl

theorem origins_found (hc : c.asSets = .empty) (hclient : client ∈ c.clients)
    (hneeds : needsOrigins c client) (asn : Asn) :
    (∃ s ∈ setsOf (finished sources families f c) (finishedClient f c client), asn ∈ s.asns) ↔
      ∃ name ∈ clientSets c client,
        asn ∈ originsOf sources (heir (originNames c) name) := by
  simp only [mem_setsOf_finished hf]
  constructor
  · rintro ⟨s, ⟨name, hn, hs⟩, hasn⟩
    obtain ⟨s', hs', hmem⟩ := written_origins families hc hclient hneeds hn
    rw [hs] at hs'
    cases hs'
    exact ⟨name, hn, (hmem asn).1 hasn⟩
  · rintro ⟨name, hn, hasn⟩
    obtain ⟨s, hs, hmem⟩ := written_origins families hc hclient hneeds hn
    exact ⟨s, ⟨name, hn, hs⟩, (hmem asn).2 hasn⟩

theorem prefixes_found (hc : c.asSets = .empty) (hclient : client ∈ c.clients) (p : SetPrefix) :
    (∃ s ∈ setsOf (finished sources families f c) (finishedClient f c client),
        p ∈ s.prefixes) ↔
      ∃ name ∈ clientSets c client, ∃ other ∈ prefixNames c,
        AsSet.symbol other = AsSet.symbol name ∧
          ∃ family ∈ families, p ∈ prefixesOf sources other family := by
  simp only [mem_setsOf_finished hf]
  constructor
  · rintro ⟨s, ⟨name, hn, hs⟩, hp⟩
    obtain ⟨s', hs', hmem⟩ := written_prefixes hc hclient hn
    rw [hs] at hs'
    cases hs'
    exact ⟨name, hn, (hmem p).1 hp⟩
  · rintro ⟨name, hn, hp⟩
    obtain ⟨s, hs, hmem⟩ := written_prefixes hc hclient hn
    exact ⟨s, ⟨name, hn, hs⟩, (hmem p).2 hp⟩

/-- **Own sets, of a finished configuration.** -/
theorem filteredByOwn_finished (hc : c.asSets = .empty) :
    FilteredByOwn sources families (finished sources families f c) ↔
      Unmixed sources families c := by
  constructor
  · rintro ⟨ho, hp⟩
    rw [forall_finished] at ho hp
    refine ⟨fun client hclient hneeds asn => ?_, ?_⟩
    · have := ho client hclient (by rw [needsOrigins_finished hf]; exact hneeds) asn
      rwa [origins_found hf hc hclient hneeds, clientSets_finished hf] at this
    · intro client hclient hneeds name hn other hother hsymbol family hfamily p hmem
      have := hp client hclient (by rw [needsPrefixes_finished hf]; exact hneeds) p
      rw [prefixes_found hf hc hclient, clientSets_finished hf] at this
      exact this.1 ⟨name, hn, other, hother, hsymbol, family, hfamily, hmem⟩
  · rintro ⟨ho, hp⟩
    refine ⟨?_, ?_⟩ <;> rw [forall_finished] <;> intro client hclient hneeds
    · rw [needsOrigins_finished hf] at hneeds
      intro asn
      rw [origins_found hf hc hclient hneeds, clientSets_finished hf]
      exact ho client hclient hneeds asn
    · rw [needsPrefixes_finished hf] at hneeds
      intro p
      rw [prefixes_found hf hc hclient, clientSets_finished hf]
      constructor
      · rintro ⟨name, hn, other, hother, hsymbol, family, hfamily, hmem⟩
        exact hp client hclient hneeds name hn other hother hsymbol family hfamily p hmem
      · rintro ⟨name, hn, family, hfamily, hmem⟩
        exact ⟨name, hn, name, mem_wantedSets hclient hneeds hn, rfl, family, hfamily, hmem⟩

end Found

end RouteServer.Enrich

import RouteServer.Proofs.Enrich.Limits

/-!
# Enrich — what the sets contain

A set is reached under its symbol, and names that differ may share one.  It has the name that came
first (`get?_foldl_addSet`).  An answer about a name changes the set under the symbol of that name and
no other (`get?_record`): new origins take the place of the old ones, new prefixes are put behind them.

**Contents** (`content_of_foldl`).  So the set under a symbol has the origins of the last of its names
that gives any, and the prefixes of all of them, one name after the other (`Content`).
-/

namespace RouteServer.Enrich

open RouteServer.Lookup RouteServer.Net RouteServer.Policy RouteServer.Time

/-! ### The name of a set -/

/-- Sets get the first name with their symbol, unless they were there before. -/
theorem get?_foldl_addSet (names : List String) (sets : Dictionary ResolvedSet) (key : String) :
    (names.foldl addSet sets).get? key =
      (sets.get? key).or ((names.find? (AsSet.symbol · = key)).map fun name => { name }) := by
  induction names generalizing sets with
  | nil => simp
  | cons name names ih =>
      rw [List.foldl_cons, ih, get?_addSet, List.find?_cons]
      by_cases hkey : AsSet.symbol name = key
      · cases hs : sets.get? key <;> simp [hkey]
      · simp [hkey, Ne.symm hkey]

/-- **The name of a set** is the first, in the order of the clients and of their lists, that has its
symbol. -/
theorem get?_prepareSets {c : Configuration} (hc : c.asSets = .empty) (key : String) :
    (prepareSets c).asSets.get? key =
      ((c.clients.flatMap (listedNames c)).find? (AsSet.symbol · = key)).map fun name =>
        { name } := by
  have hfind : (c.clients.flatMap (clientSets c)).find? (AsSet.symbol · = key) =
      (c.clients.flatMap (listedNames c)).find? (AsSet.symbol · = key) := by
    simp only [List.find?_flatMap, clientSets_eq, find?_eraseDups]
  simp only [prepareSets, get?_foldl_addSet, hc, Dictionary.get?_empty, Option.none_or, hfind]

/-! ### What answers add -/

/-- The origins that an answer gives to the set under a symbol. -/
def Answered.origins? (key : String) : Answered → Option (List Asn)
  | ⟨.origins name, .ok origins⟩ => if AsSet.symbol name = key then some origins else none
  | _ => none

/-- The prefixes that an answer gives to the set under a symbol. -/
def Answered.prefixes (key : String) : Answered → List SetPrefix
  | ⟨.prefixes name _, .ok more⟩ => if AsSet.symbol name = key then more else []
  | _ => []

theorem get?_record (a : Answered) (c : Configuration) (key : String) :
    (Answered.record c a).asSets.get? key = (c.asSets.get? key).map fun s =>
      { s with
        asns := ((a.origins? key).map ascending).getD s.asns
        prefixes := s.prefixes ++ a.prefixes key } := by
  have hsame : c.asSets.get? key = (c.asSets.get? key).map fun s =>
      { s with asns := s.asns, prefixes := s.prefixes ++ [] } := by simp
  obtain ⟨q, e | x⟩ := a
  · cases q <;> exact hsame
  · cases q with
    | origins name =>
        simp only [Answered.record, record, setOrigins, Dictionary.get?_modify,
          Answered.origins?, Answered.prefixes, eq_comm (a := key)]
        split
        case isTrue hkey => subst hkey; simp
        case isFalse => exact hsame
    | prefixes name family =>
        simp only [Answered.record, record, addPrefixes, Dictionary.get?_modify,
          Answered.origins?, Answered.prefixes, eq_comm (a := key)]
        split
        case isTrue hkey => subst hkey; rfl
        case isFalse => exact hsame
    | net asn =>
        cases x <;> exact hsame

/-- Answers one after the other: the last origins stay, and all prefixes do. -/
theorem get?_foldl_record (answered : List Answered) (c : Configuration) (key : String) :
    (answered.foldl Answered.record c).asSets.get? key = (c.asSets.get? key).map fun s =>
      { s with
        asns := (((answered.filterMap (Answered.origins? key)).getLast?).map ascending).getD s.asns
        prefixes := s.prefixes ++ answered.flatMap (Answered.prefixes key) } := by
  induction answered generalizing c with
  | nil => simp
  | cons a answered ih =>
      rw [List.foldl_cons, ih, get?_record, Option.map_map]
      refine congrArg (Option.map · _) (funext fun s => ?_)
      cases ha : a.origins? key <;>
        cases hlast : (answered.filterMap (Answered.origins? key)).getLast? <;>
        simp [ha, hlast, List.getLast?_cons]

/-- A change of clients that leaves alone what their sets depend on. -/
def KeepsSets (f : Client → Client) : Prop :=
  ∀ client, (f client).asn = client.asn ∧
    (f client).cfg.filtering.irr = client.cfg.filtering.irr

theorem keepsSets_limited (answered : List Answered) : KeepsSets (limited answered) :=
  fun _ => ⟨rfl, rfl⟩

/-- There is a set for every symbol of a name that filters a client, and answers add none. -/
theorem mem_keys_foldl_record {c : Configuration} (hc : c.asSets = .empty)
    (answered : List Answered) {key : String} :
    key ∈ (answered.foldl Answered.record (prepareSets c)).asSets.keys ↔
      ∃ client ∈ c.clients, ∃ name ∈ listedNames c client, AsSet.symbol name = key := by
  rw [← Dictionary.contains_iff, Dictionary.contains, get?_foldl_record, get?_prepareSets hc]
  simp only [Option.isSome_map, List.find?_isSome, List.mem_flatMap, decide_eq_true_eq]
  constructor
  · rintro ⟨name, ⟨client, hclient, hname⟩, hkey⟩
    exact ⟨client, hclient, name, hname, hkey⟩
  · rintro ⟨client, hclient, name, hname, hkey⟩
    exact ⟨name, ⟨client, hclient, hname⟩, hkey⟩

/-! ### What a run writes -/

/-- In a list in order, what is found last has nothing behind it. -/
theorem last_of_getLast? {α : Type} {names : List String} (h : names.Pairwise (· < ·))
    {f : String → Option α} {x : α} (hx : (names.filterMap f).getLast? = some x) :
    ∃ name ∈ names, f name = some x ∧ ∀ other ∈ names, (f other).isSome → ¬ name < other := by
  rw [List.getLast?_filterMap] at hx
  obtain ⟨behind, name, front, hnames, hname, hbehind⟩ := List.findSome?_eq_some_iff.1 hx
  have hsplit : names = front.reverse ++ name :: behind.reverse := by
    rw [← List.reverse_reverse names, hnames]
    simp
  rw [hsplit] at h ⊢
  refine ⟨name, by simp, hname, fun other hother hsome hlt => ?_⟩
  rcases List.mem_append.1 hother with hother | hother
  · have hlt' : other < name := (List.pairwise_append.1 h).2.2 _ hother _ List.mem_cons_self
    exact String.lt_irrefl _ (String.lt_trans hlt hlt')
  · rcases List.mem_cons.1 hother with rfl | hother
    · exact String.lt_irrefl _ hlt
    · rw [hbehind other (List.mem_reverse.1 hother)] at hsome
      cases hsome

theorem getLast?_filterMap_eq_some_iff {α : Type} {names : List String}
    (h : names.Pairwise (· < ·)) {f : String → Option α} {x : α} :
    (names.filterMap f).getLast? = some x ↔ ∃ name ∈ names, f name = some x ∧
      ∀ other ∈ names, (f other).isSome → ¬ name < other := by
  refine ⟨last_of_getLast? h, ?_⟩
  rintro ⟨name, hname, hx, hlast⟩
  have hne : names.filterMap f ≠ [] :=
    List.ne_nil_of_mem (List.mem_filterMap.2 ⟨name, hname, hx⟩)
  obtain ⟨y, hy⟩ := Option.ne_none_iff_exists'.1 (mt List.getLast?_eq_none_iff.1 hne)
  obtain ⟨other, hother, hy', hlast'⟩ := last_of_getLast? h hy
  -- neither of the two names is behind the other
  have hle : name ≤ other := String.not_lt.1 (hlast' name hname (by rw [hx]; rfl))
  have hle' : other ≤ name := String.not_lt.1 (hlast other hother (by rw [hy']; rfl))
  rw [hy, ← hx, ← hy', String.le_antisymm hle hle']

section

variable (families : List Family) (c : Configuration)
  (result : (q : Query) → Except Failure q.Answer) (key : String)

/-- A name gives origins to the set under a symbol. -/
def GivesOrigins (name : String) : Prop :=
  AsSet.symbol name = key ∧
    Needed c (fun client => client.cfg.filtering.irr.enforceOrigin) name ∧
    ∃ origins, result (.origins name) = .ok origins

/-- What the set under a symbol contains when questions have these results. -/
structure Content (s : ResolvedSet) : Prop where
  /-- It has the first name with the symbol. -/
  name : (c.clients.flatMap (listedNames c)).find? (AsSet.symbol · = key) = some s.name
  /-- Origins are in order, each once. -/
  ascending : s.asns.Pairwise (· < ·)
  /-- They are those of the last name that gives any. -/
  origins : ∀ asn, asn ∈ s.asns ↔ ∃ name origins, GivesOrigins c result key name ∧
    (∀ other, GivesOrigins c result key other → ¬ name < other) ∧
    result (.origins name) = .ok origins ∧ asn ∈ origins
  /-- Prefixes are those of all names, in the order of names, and of families for each. -/
  prefixes : ∃ names : List String, names.Pairwise (· < ·) ∧
    (∀ name, name ∈ names ↔ AsSet.symbol name = key ∧
      Needed c (fun client => client.cfg.filtering.irr.enforcePrefix) name) ∧
    s.prefixes = names.flatMap fun name => families.flatMap fun family =>
      (result (.prefixes name family)).toOption.getD []

theorem flatMap_filter {α β : Type} (p : α → Bool) (f : α → List β) (xs : List α) :
    (xs.filter p).flatMap f = xs.flatMap fun x => if p x then f x else [] := by
  induction xs with
  | nil => rfl
  | cons x xs ih => cases hx : p x <;> simp [hx, ih]

theorem flatMap_prefixes :
    ((questions families c).map fun q => (⟨q, result q⟩ : Answered)).flatMap
        (Answered.prefixes key) =
      ((wantedSets c fun client => client.cfg.filtering.irr.enforcePrefix).filter
        (AsSet.symbol · = key)).flatMap fun name => families.flatMap fun family =>
          (result (.prefixes name family)).toOption.getD [] := by
  have hadds : ∀ name family, Answered.prefixes key ⟨.prefixes name family, result _⟩ =
      if AsSet.symbol name = key then (result (.prefixes name family)).toOption.getD []
      else [] := by
    intro name family
    unfold Answered.prefixes
    cases result (.prefixes name family) <;> simp [Except.toOption]
  have hothers : (∀ name, Answered.prefixes key ⟨.origins name, result _⟩ = []) ∧
      ∀ asn, Answered.prefixes key ⟨.net asn, result _⟩ = [] := ⟨fun _ => rfl, fun _ => rfl⟩
  have hif : ∀ name, (families.flatMap fun family =>
      if AsSet.symbol name = key then (result (.prefixes name family)).toOption.getD [] else []) =
      if AsSet.symbol name = key then
        families.flatMap fun family => (result (.prefixes name family)).toOption.getD []
      else [] := by
    intro name
    by_cases hkey : AsSet.symbol name = key <;> simp [hkey]
  have hnil : ∀ {α : Type} (xs : List α), xs.flatMap (fun _ => ([] : List SetPrefix)) = [] :=
    fun xs => List.flatMap_eq_nil_iff.2 fun _ _ => rfl
  simp [questions, Stage.all, Stage.queries, List.flatMap_assoc, List.flatMap_map,
    List.map_flatMap, flatMap_filter, hadds, hothers, hif, hnil]

/-- The origins that a name gives to the set under a symbol. -/
def givenOrigins (name : String) : Option (List Asn) :=
  if AsSet.symbol name = key then (result (.origins name)).toOption else none

theorem givenOrigins_eq_some_iff {name : String} {origins : List Asn} :
    givenOrigins result key name = some origins ↔
      AsSet.symbol name = key ∧ result (.origins name) = .ok origins := by
  unfold givenOrigins
  cases hr : result (.origins name) <;> simp [Except.toOption]

theorem isSome_givenOrigins {name : String} (h : Needed c
    (fun client => client.cfg.filtering.irr.enforceOrigin) name) :
    (givenOrigins result key name).isSome ↔ GivesOrigins c result key name := by
  simp only [Option.isSome_iff_exists, givenOrigins_eq_some_iff, GivesOrigins, h, true_and,
    exists_and_left]

theorem filterMap_origins :
    ((questions families c).map fun q => (⟨q, result q⟩ : Answered)).filterMap
        (Answered.origins? key) =
      (wantedSets c fun client => client.cfg.filtering.irr.enforceOrigin).filterMap
        (givenOrigins result key) := by
  have hadds : ∀ name, Answered.origins? key ⟨.origins name, result _⟩ =
      givenOrigins result key name := by
    intro name
    unfold Answered.origins? givenOrigins
    cases result (.origins name) <;> simp [Except.toOption]
  have hothers : (∀ name family, Answered.origins? key ⟨.prefixes name family, result _⟩ = none) ∧
      ∀ asn, Answered.origins? key ⟨.net asn, result _⟩ = none := ⟨fun _ _ => rfl, fun _ => rfl⟩
  simp [questions, Stage.all, Stage.queries, List.filterMap_flatMap, List.filterMap_map,
    List.map_flatMap, Function.comp_def, hadds, hothers]

/-- The origins that stay. -/
theorem lastOrigins_eq_some_iff {origins : List Asn} :
    ((wantedSets c fun client => client.cfg.filtering.irr.enforceOrigin).filterMap
        (givenOrigins result key)).getLast? = some origins ↔
      ∃ name, GivesOrigins c result key name ∧
        (∀ other, GivesOrigins c result key other → ¬ name < other) ∧
        result (.origins name) = .ok origins := by
  have hordered : (wantedSets c fun client => client.cfg.filtering.irr.enforceOrigin).Pairwise
      (· < ·) := pairwise_distinct _
  rw [getLast?_filterMap_eq_some_iff hordered]
  constructor
  · rintro ⟨name, hname, horigins, hlast⟩
    have hneeded := mem_wantedSets_iff.1 hname
    obtain ⟨hkey, hresult⟩ := (givenOrigins_eq_some_iff ..).1 horigins
    refine ⟨name, ⟨hkey, hneeded, origins, hresult⟩, fun other hother => ?_, hresult⟩
    exact hlast other (mem_wantedSets_iff.2 hother.2.1)
      ((isSome_givenOrigins c result key hother.2.1).2 hother)
  · rintro ⟨name, hname, hlast, hresult⟩
    refine ⟨name, mem_wantedSets_iff.2 hname.2.1,
      (givenOrigins_eq_some_iff ..).2 ⟨hname.1, hresult⟩, fun other hother hsome => ?_⟩
    exact hlast other ((isSome_givenOrigins c result key (mem_wantedSets_iff.1 hother)).1 hsome)

theorem pairwise_kept (o : Option (List Asn)) :
    ((o.map ascending).getD []).Pairwise (· < ·) := by
  cases o with
  | none => exact .nil
  | some origins => exact pairwise_ascending origins

theorem mem_kept {o : Option (List Asn)} {asn : Asn} :
    asn ∈ (o.map ascending).getD [] ↔ ∃ origins, o = some origins ∧ asn ∈ origins := by
  cases o <;> simp [mem_ascending]

/-- **Contents.**  What the answers to the questions of a run make of the set under a symbol. -/
theorem content_of_foldl (hc : c.asSets = .empty) {s : ResolvedSet}
    (hs : (((questions families c).map fun q => (⟨q, result q⟩ : Answered)).foldl Answered.record
      (prepareSets c)).asSets.get? key = some s) : Content families c result key s := by
  rw [get?_foldl_record, get?_prepareSets hc, Option.map_map, filterMap_origins, flatMap_prefixes]
    at hs
  obtain ⟨name, hname, rfl⟩ := Option.map_eq_some_iff.1 hs
  clear hs
  have hprefixes : ∀ name, name ∈ (wantedSets c fun client =>
      client.cfg.filtering.irr.enforcePrefix).filter (AsSet.symbol · = key) ↔
        AsSet.symbol name = key ∧
          Needed c (fun client => client.cfg.filtering.irr.enforcePrefix) name := by
    intro name
    rw [List.mem_filter, decide_eq_true_eq, and_comm, mem_wantedSets_iff]
  constructor
  case name => exact hname
  case ascending => exact pairwise_kept _
  case origins =>
      intro asn
      refine mem_kept.trans ?_
      simp only [lastOrigins_eq_some_iff]
      constructor
      · rintro ⟨origins, ⟨name, hgives, hlast, hresult⟩, hasn⟩
        exact ⟨name, origins, hgives, hlast, hresult, hasn⟩
      · rintro ⟨name, origins, hgives, hlast, hresult, hasn⟩
        exact ⟨origins, ⟨name, hgives, hlast, hresult⟩, hasn⟩
  case prefixes => exact ⟨_, (pairwise_distinct _).filter _, hprefixes, rfl⟩

end

end RouteServer.Enrich

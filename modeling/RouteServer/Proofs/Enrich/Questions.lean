import RouteServer.Enrich.Pipeline
import RouteServer.Proofs.Enrich.Sets

/-!
# Enrich — the questions of a run

What a run has to ask follows from the configuration alone: which sets filter the clients, what they
are used for, and which limits are left to the networks (`Wanted`).

**The questions** (`mem_questions`, `pairwise_questions`).  The stages put exactly the questions that
are wanted, each once, in one order: origins before prefixes before networks, names as texts are
ordered, the families of a name and the numbers of the networks ascending.
-/

namespace RouteServer.Enrich

open RouteServer.Lookup RouteServer.Net RouteServer.Policy

/-! ### What is wanted -/

/-- The names that filter a client, as they are listed: its own, or else those registered for its
network, or else that of the network. -/
def listedNames (c : Configuration) (client : Client) : List String :=
  match client.cfg.filtering.irr.asSets, (c.asns.get? (Asn.name client.asn)).map AsnInfo.asSets with
  | name :: names, _ => name :: names
  | [], some (name :: names) => name :: names
  | [], _ => [Asn.name client.asn]

/-- The name is one of those that filter a client which passes, or any client when routes are tagged
with what the sets say. -/
def Needed (c : Configuration) (p : Client → Bool) (name : String) : Prop :=
  ∃ client ∈ c.clients, (c.general.filtering.irr.tagAsSet ∨ p client) ∧
    name ∈ listedNames c client

/-- What a run has to ask. -/
def Wanted (families : List Family) (c : Configuration) : Query → Prop
  | .origins name => Needed c (fun client => client.cfg.filtering.irr.enforceOrigin) name
  | .prefixes name family =>
    Needed c (fun client => client.cfg.filtering.irr.enforcePrefix) name ∧ family ∈ families
  | .net asn => ∃ client ∈ c.clients, client.asn = asn ∧
      client.cfg.filtering.maxPrefix.peeringDb ∧
        (client.cfg.filtering.maxPrefix.limitV4 = none ∨
          client.cfg.filtering.maxPrefix.limitV6 = none)

instance (c : Configuration) (p : Client → Bool) (name : String) : Decidable (Needed c p name) :=
  inferInstanceAs (Decidable (∃ client ∈ c.clients, _))

instance (families : List Family) (c : Configuration) : DecidablePred (Wanted families c)
  | .origins _ => inferInstanceAs (Decidable (Needed ..))
  | .prefixes _ _ => inferInstanceAs (Decidable (Needed .. ∧ _ ∈ families))
  | .net _ => inferInstanceAs (Decidable (∃ client ∈ c.clients, _))

/-- The stage that puts a question. -/
def Query.stage : Query → Stage
  | .origins _ => .origins
  | .prefixes _ _ => .prefixes
  | .net _ => .limits

/-- The order in which questions are put. -/
def Query.Before : Query → Query → Prop
  | .origins a, .origins b => a < b
  | .origins _, .prefixes _ _ | .origins _, .net _ | .prefixes _ _, .net _ => True
  | .prefixes a f, .prefixes b g => a < b ∨ a = b ∧ f.number < g.number
  | .net a, .net b => a < b
  | .prefixes _ _, .origins _ | .net _, .origins _ | .net _, .prefixes _ _ => False

theorem Query.Before.ne {q p : Query} (h : q.Before p) : q ≠ p := by
  rintro rfl
  cases q with
  | origins name => exact String.lt_irrefl name h
  | prefixes name family =>
      rcases h with h | ⟨-, h⟩
      · exact String.lt_irrefl name h
      · exact Nat.lt_irrefl _ h
  | net asn => exact UInt32.lt_irrefl asn h

/-- The questions that the stages put, one stage after the other. -/
def questions (families : List Family) (c : Configuration) : List Query :=
  Stage.all.flatMap (Stage.queries families c)

/-! ### What is put -/

theorem clientSets_eq (c : Configuration) (client : Client) :
    clientSets c client = (listedNames c client).eraseDups := by
  unfold clientSets listedNames AsnInfo.asSetsFor
  cases client.cfg.filtering.irr.asSets with
  | cons name names => rfl
  | nil =>
      cases (c.asns.get? (Asn.name client.asn)).map AsnInfo.asSets with
      | none => rfl
      | some sets => cases sets <;> rfl

theorem mem_clientSets {c : Configuration} {client : Client} {name : String} :
    name ∈ clientSets c client ↔ name ∈ listedNames c client := by
  rw [clientSets_eq, List.mem_eraseDups]

theorem mem_wantedSets_iff {c : Configuration} {p : Client → Bool} {name : String} :
    name ∈ wantedSets c p ↔ Needed c p name := by
  unfold wantedSets Needed
  rw [mem_distinct, List.mem_flatMap]
  simp only [List.mem_filter, Bool.or_eq_true, mem_clientSets, and_assoc]

theorem mem_wantedNets {c : Configuration} {asn : Asn} :
    asn ∈ wantedNets c ↔ ∃ client ∈ c.clients, client.asn = asn ∧
      client.cfg.filtering.maxPrefix.peeringDb ∧
        (client.cfg.filtering.maxPrefix.limitV4 = none ∨
          client.cfg.filtering.maxPrefix.limitV6 = none) := by
  have hascending : wantedNets c = ascending ((c.clients.filter leavesLimit).map Client.asn) := rfl
  rw [hascending, mem_ascending, List.mem_map]
  simp only [List.mem_filter, leavesLimit, Bool.and_eq_true, Bool.or_eq_true,
    Option.isNone_iff_eq_none]
  exact exists_congr fun client => by tauto

theorem Stage.mem_all (stage : Stage) : stage ∈ Stage.all := by
  cases stage <;> decide

theorem mem_queries {families : List Family} {c : Configuration} {stage : Stage} {q : Query} :
    q ∈ stage.queries families c ↔ q.stage = stage ∧ Wanted families c q := by
  cases stage with
  | origins =>
      simp only [Stage.queries, List.mem_map, mem_wantedSets_iff]
      cases q <;> simp [Query.stage, Wanted]
  | prefixes =>
      simp only [Stage.queries, List.mem_flatMap, List.mem_map, mem_wantedSets_iff]
      cases q with
      | prefixes name family => simp [Query.stage, Wanted]
      | origins name => simp [Query.stage]
      | net asn => simp [Query.stage]
  | limits =>
      simp only [Stage.queries, List.mem_map]
      cases q with
      | net asn => simp [Query.stage, Wanted, mem_wantedNets]
      | origins name => simp [Query.stage]
      | prefixes name family => simp [Query.stage]

/-- **A run puts the questions that are wanted**, and no other. -/
theorem mem_questions {families : List Family} {c : Configuration} {q : Query} :
    q ∈ questions families c ↔ Wanted families c q := by
  unfold questions
  simp only [List.mem_flatMap, mem_queries]
  constructor
  · rintro ⟨stage, -, -, h⟩
    exact h
  · intro h
    exact ⟨q.stage, q.stage.mem_all, rfl, h⟩

/-! ### Their order -/

/-- The questions of an earlier stage come first. -/
theorem pairwise_stages :
    Stage.all.Pairwise fun s t => ∀ q p : Query, q.stage = s → p.stage = t → q.Before p := by
  have horigins : ∀ q p : Query, q.stage = .origins → p.stage ≠ .origins → q.Before p := by
    intro q p
    cases q <;> cases p <;> simp [Query.stage, Query.Before]
  have hprefixes : ∀ q p : Query, q.stage = .prefixes → p.stage = .limits → q.Before p := by
    intro q p
    cases q <;> cases p <;> simp [Query.stage, Query.Before]
  refine .cons (fun t ht q p hq hp => horigins q p hq ?_)
    (.cons (fun t ht q p hq hp => ?_) (.cons ?_ .nil))
  · rintro he
    rw [← hp, he] at ht
    exact absurd ht (by decide)
  · rw [List.mem_singleton.1 ht] at hp
    exact hprefixes q p hq hp
  · exact fun t ht => (List.not_mem_nil ht).elim

theorem pairwise_queries {families : List Family}
    (h : families.Pairwise fun f g => f.number < g.number) (c : Configuration) (stage : Stage) :
    (stage.queries families c).Pairwise Query.Before := by
  cases stage with
  | origins =>
      exact List.pairwise_map.2 (pairwise_distinct _)
  | prefixes =>
      refine List.pairwise_flatMap.2 ⟨fun name _ => List.pairwise_map.2 ?_, ?_⟩
      · exact h.imp fun hlt => .inr ⟨rfl, hlt⟩
      · refine (pairwise_distinct _).imp fun hlt q hq p hp => ?_
        obtain ⟨f, -, rfl⟩ := List.mem_map.1 hq
        obtain ⟨g, -, rfl⟩ := List.mem_map.1 hp
        exact .inl hlt
  | limits => exact List.pairwise_map.2 (pairwise_ascending _)

/-- **Questions are put in order.** -/
theorem pairwise_questions {families : List Family}
    (h : families.Pairwise fun f g => f.number < g.number) (c : Configuration) :
    (questions families c).Pairwise Query.Before := by
  refine List.pairwise_flatMap.2 ⟨fun stage _ => pairwise_queries h c stage, ?_⟩
  exact pairwise_stages.imp fun hstages q hq p hp =>
    hstages q p (mem_queries.1 hq).1 (mem_queries.1 hp).1

theorem nodup_questions {families : List Family}
    (h : families.Pairwise fun f g => f.number < g.number) (c : Configuration) :
    (questions families c).Nodup :=
  (pairwise_questions h c).imp Query.Before.ne

end RouteServer.Enrich

import RouteServer.Proofs.Enrich.OnePass

/-!
# Enrich — the limits of the clients

An answer about a network is for all of its clients.  A client that leaves its limits to the network
takes from it each limit that it has not got; one that it has stays, whoever asked.

**Answers one after the other** (`foldl_record_eq`).  A limit that is missing is the first that an
answer gives (`limitFrom`), and besides the sets nothing else changes.

**Limits** (`limits_run`).  So what a client ends up with depends on what it had and on the record
of its own network, and not on the other clients.
-/

namespace RouteServer.Enrich

open RouteServer.Lookup RouteServer.Net RouteServer.Policy RouteServer.Time

/-! ### The limits of a client -/

/-- The limit of a client in a family. -/
def limitOf (client : Client) : Family → Option UInt32
  | .v4 => client.cfg.filtering.maxPrefix.limitV4
  | .v6 => client.cfg.filtering.maxPrefix.limitV6

/-- A client with other limits. -/
def withLimits (limits : Family → Option UInt32) (client : Client) : Client :=
  { client with
    cfg.filtering.maxPrefix :=
      { client.cfg.filtering.maxPrefix with limitV4 := limits .v4, limitV6 := limits .v6 } }

/-- How many prefixes a network announces in a family, when that is not zero. -/
def announcedIn (net : NetRecord) : Family → Option UInt32
  | .v4 => net.prefixesV4.filter (0 < ·)
  | .v6 => net.prefixesV6.filter (0 < ·)

/-- The limit that an answer gives the clients of a network. -/
def Answered.announced (asn : Asn) (family : Family) : Answered → Option UInt32
  | ⟨.net n, .ok (some net)⟩ => if n = asn then announcedIn net family else none
  | _ => none

/-- The limit of a client after some answers: its own, or else the first that is given, if it leaves
limits to its network. -/
def limitFrom (answered : List Answered) (client : Client) (family : Family) : Option UInt32 :=
  (limitOf client family).or <|
    if client.cfg.filtering.maxPrefix.peeringDb then
      answered.findSome? (Answered.announced client.asn family)
    else none

/-- A client after some answers. -/
def limited (answered : List Answered) (client : Client) : Client :=
  withLimits (limitFrom answered client) client

@[simp] theorem limitOf_withLimits (limits : Family → Option UInt32) (client : Client) :
    limitOf (withLimits limits client) = limits := by
  funext family
  cases family <;> rfl

theorem limited_nil (client : Client) : limited [] client = client := by
  have hlimits : limitFrom [] client = limitOf client := by
    funext family
    simp [limitFrom]
  rw [limited, hlimits]
  rfl

/-- Answers in two parts. -/
theorem limited_append (as bs : List Answered) (client : Client) :
    limited (as ++ bs) client = limited bs (limited as client) := by
  have hlimits : limitFrom (as ++ bs) client = limitFrom bs (limited as client) := by
    funext family
    have hpart : limitFrom bs (limited as client) family =
        (limitFrom as client family).or (if client.cfg.filtering.maxPrefix.peeringDb then
          bs.findSome? (Answered.announced client.asn family) else none) := by
      rw [limitFrom, limited, limitOf_withLimits]
      rfl
    rw [hpart, limitFrom, limitFrom, List.findSome?_append, Option.or_assoc]
    split <;> simp
  rw [limited, hlimits]
  rfl

/-! ### Answers -/

theorem limitClient_eq (asn : Asn) (net : NetRecord) (client : Client) :
    limitClient asn net client = limited [⟨.net asn, .ok (some net)⟩] client := by
  by_cases hclient : client.cfg.filtering.maxPrefix.peeringDb ∧ client.asn = asn
  · obtain ⟨hpeering, rfl⟩ := hclient
    have hlimit : ∀ own announced : Option UInt32,
        limit own announced = own.or (announced.filter (0 < ·)) := fun own _ => by cases own <;> rfl
    simp [limitClient, limited, limitFrom, withLimits, limitOf, Answered.announced, announcedIn,
      hpeering, hlimit]
  · have hlimits : limitFrom [⟨.net asn, .ok (some net)⟩] client = limitOf client := by
      funext family
      rw [not_and] at hclient
      by_cases hpeering : client.cfg.filtering.maxPrefix.peeringDb
      · have hasn : asn ≠ client.asn := fun he => hclient hpeering he.symm
        simp [limitFrom, Answered.announced, hasn]
      · simp [limitFrom, hpeering]
    rw [limitClient, if_neg hclient, limited, hlimits]
    rfl

/-- An answer that gives no limit leaves clients as they are. -/
theorem limited_of_announced {a : Answered} (h : ∀ asn family, a.announced asn family = none)
    (client : Client) : limited [a] client = client := by
  have hlimits : limitFrom [a] client = limitFrom [] client := by
    funext family
    simp [limitFrom, h]
  rw [limited, hlimits]
  exact limited_nil client

theorem setLimits_eq (asn : Asn) (net : Option NetRecord) (c : Configuration) :
    setLimits asn net c =
      { c with clients := c.clients.map (limited [⟨.net asn, .ok net⟩]) } := by
  cases net with
  | none => rw [List.map_id'' (limited_of_announced fun _ _ => rfl)]; rfl
  | some net => rw [← funext (limitClient_eq asn net)]; rfl

/-- **What an answer changes** besides the sets is the limits of the clients. -/
theorem record_eq (a : Answered) (c : Configuration) :
    Answered.record c a = { c with
      clients := c.clients.map (limited [a])
      asSets := (Answered.record c a).asSets } := by
  have hsame : (∀ asn family, a.announced asn family = none) →
      c.clients.map (limited [a]) = c.clients := fun h => List.map_id'' (limited_of_announced h) _
  obtain ⟨q, e | x⟩ := a
  · rw [hsame fun asn family => by cases q <;> rfl]
    rfl
  · cases q with
    | origins name => rw [hsame fun _ _ => rfl]; rfl
    | prefixes name family => rw [hsame fun _ _ => rfl]; rfl
    | net asn => exact (setLimits_eq asn x c).trans (by cases x <;> rfl)

/-- **Answers one after the other.**  Besides the sets they change the limits of the clients. -/
theorem foldl_record_eq (answered : List Answered) (c : Configuration) :
    answered.foldl Answered.record c = { c with
      clients := c.clients.map (limited answered)
      asSets := (answered.foldl Answered.record c).asSets } := by
  induction answered generalizing c with
  | nil => rw [List.map_id'' limited_nil]; rfl
  | cons a answered ih =>
      have hfirst := record_eq a c
      have hclients : c.clients.map (limited (a :: answered)) =
          (c.clients.map (limited [a])).map (limited answered) := by
        rw [List.map_map]
        exact List.map_congr_left fun client _ => limited_append [a] answered client
      rw [List.foldl_cons, ih, hclients]
      generalize Answered.record c a = d at hfirst
      obtain ⟨general, bogons, asns, clients, roas, sets⟩ := d
      cases hfirst
      rfl

/-! ### The limits that the stage sets -/

/-- The limit that the record of a network gives its clients, when the record is looked up in a
cache. -/
def announcedFor (s : Surroundings) (cache : Cache.State) (asn : Asn) (family : Family) :
    Option UInt32 :=
  match ((Query.net asn).lookup s.sources s.now cache).result with
  | .ok (some net) => announcedIn net family
  | _ => none

theorem announced_put (s : Surroundings) (cache : Cache.State) (asn n : Asn) (family : Family) :
    ((Query.net n).put s.sources s.now cache).announced asn family =
      if n = asn then announcedFor s cache n family else none := by
  unfold Query.put announcedFor Answered.announced
  rcases ((Query.net n).lookup s.sources s.now cache).result with e | _ | net
  · simp
  · simp
  · rfl

/-- What only one element gives is found at it. -/
theorem findSome?_eq_of_mem {α β : Type} {f : α → Option β} {xs : List α} {x : α} (hx : x ∈ xs)
    (h : ∀ y ∈ xs, y ≠ x → f y = none) : xs.findSome? f = f x := by
  cases hf : f x with
  | none =>
      refine List.findSome?_eq_none_iff.2 fun y hy => ?_
      by_cases he : y = x
      · exact he ▸ hf
      · exact h y hy he
  | some b =>
      have hsome : (xs.findSome? f).isSome :=
        List.findSome?_isSome_iff.2 ⟨x, hx, by rw [hf]; rfl⟩
      obtain ⟨c, hc⟩ := Option.isSome_iff_exists.1 hsome
      obtain ⟨y, hy, hfy⟩ := List.exists_of_findSome?_eq_some hc
      have he : y = x := by
        by_contra hne
        cases (h y hy hne).symm.trans hfy
      rw [hc, ← hfy, he, hf]

/-- The networks of the clients that leave a limit to them are looked up, and no other. -/
theorem limitFrom_nets (s : Surroundings) (cache : Cache.State) {c : Configuration}
    {client : Client} (hclient : client ∈ c.clients) (family : Family) :
    limitFrom ((wantedNets c).map fun n => (Query.net n).put s.sources s.now cache) client family =
      (limitOf client family).or (if client.cfg.filtering.maxPrefix.peeringDb then
        announcedFor s cache client.asn family else none) := by
  unfold limitFrom
  cases hown : limitOf client family with
  | some n => rfl
  | none =>
      split
      case isFalse => rfl
      case isTrue hpeering =>
          have hwanted : client.asn ∈ wantedNets c := by
            refine mem_wantedNets.2 ⟨client, hclient, rfl, hpeering, ?_⟩
            cases family with
            | v4 => exact .inl hown
            | v6 => exact .inr hown
          rw [List.findSome?_map, Option.none_or, Option.none_or,
            findSome?_eq_of_mem hwanted fun n _ hne => ?_]
          · rw [Function.comp_apply, announced_put, if_pos rfl]
          · rw [Function.comp_apply, announced_put, if_neg hne]

/-- **Limits.**  After the stage, the limit of a client in a family is the one that it had; without
one, and if it leaves limits to its network, it is what the record of the network announces in the
family, when the record is found and the number is not zero; and otherwise there is none.  The other
clients of the network do not matter. -/
theorem limits_run (s : Surroundings) (p : Progress) :
    List.Forall₂ (fun before after => ∀ family, limitOf after family =
        (limitOf before family).or (if before.cfg.filtering.maxPrefix.peeringDb then
          announcedFor s p.cache before.asn family else none))
      p.configuration.clients (Stage.limits.run s p).2.configuration.clients := by
  have hnodup : (Stage.limits.queries s.families p.configuration).Nodup :=
    List.Nodup.map (fun _ _ h => Query.net.inj h) (nodup_eraseDups _)
  have hanswered : (resolve s.sources s.now (Stage.limits.queries s.families p.configuration)
      p.cache).answered = (wantedNets p.configuration).map fun n =>
        (Query.net n).put s.sources s.now p.cache :=
    (resolve_eq s.sources s.now hnodup p.cache).1.trans List.map_map
  have hclients : (Stage.limits.run s p).2.configuration.clients =
      p.configuration.clients.map (limited ((wantedNets p.configuration).map fun n =>
        (Query.net n).put s.sources s.now p.cache)) := by
    rw [← hanswered]
    exact congrArg Configuration.clients (foldl_record_eq _ p.configuration)
  rw [hclients, List.forall₂_map_right_iff, List.forall₂_same]
  intro client hclient family
  rw [limited, limitOf_withLimits, limitFrom_nets s p.cache hclient]

end RouteServer.Enrich

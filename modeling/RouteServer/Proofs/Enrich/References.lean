import RouteServer.Proofs.Enrich.Contents

/-!
# Enrich — clients and sets refer to each other

Clients refer to sets by their symbols (`Referential`).  Preparation makes the references, from the
names that filter the clients.  An answer changes what is in a set or how many prefixes a client may
announce, so it keeps them (`Referential.record`), and a run does (`referential_runPipeline`), whatever
is answered and whatever fails.
-/

namespace RouteServer.Enrich

open RouteServer.Lookup RouteServer.Net RouteServer.Policy

/-- Every client has sets, every set has clients, and sets are under the symbols of their names, with
their origins in order. -/
structure Referential (c : Configuration) : Prop where
  nonempty : ∀ client ∈ c.clients, client.cfg.filtering.irr.asSetIds ≠ []
  present : ∀ client ∈ c.clients, ∀ id ∈ client.cfg.filtering.irr.asSetIds, id ∈ c.asSets.keys
  used : ∀ id ∈ c.asSets.keys, ∃ client ∈ c.clients, id ∈ client.cfg.filtering.irr.asSetIds
  named : ∀ id s, c.asSets.get? id = some s → id = AsSet.symbol s.name
  ascending : ∀ id s, c.asSets.get? id = some s → s.asns.Pairwise (· < ·)

/-! ### Preparation -/

theorem clientSets_ne_nil (c : Configuration) (client : Client) : clientSets c client ≠ [] := by
  have hlisted : listedNames c client ≠ [] := by
    unfold listedNames
    split <;> exact List.cons_ne_nil _ _
  obtain ⟨name, hname⟩ := List.exists_mem_of_ne_nil _ hlisted
  exact List.ne_nil_of_mem (mem_clientSets.2 hname)

theorem mem_keys_prepareSets {c : Configuration} (hc : c.asSets = .empty) {key : String} :
    key ∈ (prepareSets c).asSets.keys ↔
      ∃ client ∈ c.clients, ∃ name ∈ listedNames c client, AsSet.symbol name = key :=
  mem_keys_foldl_record hc []

theorem referential_prepareSets {c : Configuration} (hc : c.asSets = .empty) :
    Referential (prepareSets c) where
  nonempty client hclient := by
    obtain ⟨client, -, rfl⟩ := List.mem_map.1 hclient
    exact mt List.map_eq_nil_iff.1 (clientSets_ne_nil c client)
  present client hclient id hid := by
    obtain ⟨client, hmem, rfl⟩ := List.mem_map.1 hclient
    obtain ⟨name, hname, rfl⟩ := List.mem_map.1 hid
    exact (mem_keys_prepareSets hc).2 ⟨client, hmem, name, mem_clientSets.1 hname, rfl⟩
  used id hid := by
    obtain ⟨client, hclient, name, hname, rfl⟩ := (mem_keys_prepareSets hc).1 hid
    exact ⟨_, List.mem_map_of_mem hclient, List.mem_map_of_mem (mem_clientSets.2 hname)⟩
  named id s hs := by
    rw [get?_prepareSets hc] at hs
    obtain ⟨name, hname, rfl⟩ := Option.map_eq_some_iff.1 hs
    have hsymbol := List.find?_some hname
    exact (of_decide_eq_true hsymbol).symm
  ascending id s hs := by
    rw [get?_prepareSets hc] at hs
    obtain ⟨name, -, rfl⟩ := Option.map_eq_some_iff.1 hs
    exact .nil

/-! ### Answers -/

namespace Referential

variable {c : Configuration}

/-- A change of a set that leaves its name alone and its origins in order. -/
theorem modify (h : Referential c) (key : String) {f : ResolvedSet → ResolvedSet}
    (hname : ∀ s, (f s).name = s.name)
    (hasns : ∀ s, s.asns.Pairwise (· < ·) → (f s).asns.Pairwise (· < ·)) :
    Referential { c with asSets := c.asSets.modify key f } where
  nonempty := h.nonempty
  present client hclient id hid := Dictionary.mem_keys_modify.2 (h.present client hclient id hid)
  used id hid := h.used id (Dictionary.mem_keys_modify.1 hid)
  named id s hs := by
    rw [Dictionary.get?_modify] at hs
    split at hs
    case isTrue hid =>
        obtain ⟨t, ht, rfl⟩ := Option.map_eq_some_iff.1 hs
        rw [hname, hid]
        exact h.named key t ht
    case isFalse => exact h.named id s hs
  ascending id s hs := by
    rw [Dictionary.get?_modify] at hs
    split at hs
    case isTrue hid =>
        obtain ⟨t, ht, rfl⟩ := Option.map_eq_some_iff.1 hs
        exact hasns t (h.ascending key t ht)
    case isFalse => exact h.ascending id s hs

/-- A change of clients that leaves their sets alone. -/
theorem mapClients (h : Referential c) {f : Client → Client}
    (hf : KeepsSets f) : Referential { c with clients := c.clients.map f } where
  nonempty := List.forall_mem_map.2 fun client hclient => by
    rw [(hf client).2]
    exact h.nonempty client hclient
  present := List.forall_mem_map.2 fun client hclient => by
    rw [(hf client).2]
    exact h.present client hclient
  used id hid := by
    obtain ⟨client, hclient, hmem⟩ := h.used id hid
    exact ⟨f client, List.mem_map_of_mem hclient, by rwa [(hf client).2]⟩
  named := h.named
  ascending := h.ascending

/-- **An answer keeps references.** -/
theorem record (h : Referential c) (q : Query) (x : q.Answer) : Referential (record q x c) := by
  cases q with
  | origins name => exact h.modify _ (fun _ => rfl) fun _ _ => pairwise_ascending _
  | prefixes name family => exact h.modify _ (fun _ => rfl) fun _ hs => hs
  | net asn =>
      rw [Enrich.record, setLimits_eq]
      exact h.mapClients (keepsSets_limited _)

theorem foldl_record (h : Referential c) (answered : List Answered) :
    Referential (answered.foldl Answered.record c) := by
  induction answered generalizing c with
  | nil => exact h
  | cons a answered ih =>
      obtain ⟨q, e | x⟩ := a
      · exact ih h
      · exact ih (h.record q x)

end Referential

/-- **References hold after a run**, whatever has been answered. -/
theorem referential_runPipeline (s : Surroundings) {p : Progress}
    (h : p.configuration.asSets = .empty) :
    Referential (runPipeline s p).2.configuration := by
  rw [← runPipelineOnly_true, runPipelineOnly_eq]
  exact (referential_prepareSets h).foldl_record _

end RouteServer.Enrich

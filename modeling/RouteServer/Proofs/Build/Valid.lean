import RouteServer.Proofs.Build.Start
import RouteServer.Proofs.Enrich.Frame
import RouteServer.Proofs.Policy.Accepted
import RouteServer.Proofs.Policy.Ids
import RouteServer.Proofs.Text.Numeral

/-!
# Build — valid configurations

A build holds configurations that have been loaded, and completed as far as the answers from outside
go (`Valid`).  Completing one leaves the general configuration and the ids of the clients alone,
whatever the answers are.  So what acceptance and derivation make sure of still holds: nothing is
missing that the templates count on (`Complete`), and ids are made of the letters `AS`, digits and
an underscore.
-/

namespace RouteServer.Build

open RouteServer.Enrich RouteServer.Files RouteServer.Net RouteServer.Policy RouteServer.Text

/-- A configuration that has been loaded, and completed as far as the answers go. -/
def Valid (c : Configuration) : Prop :=
  ∃ (inputs : Inputs) (files : Tree) (loaded : Configuration) (s : Surroundings)
    (cache : Cache.State) (asked : List Query), inputs.load files = .ok loaded ∧
      c = (runPipeline s ⟨loaded, cache, asked⟩).2.configuration

theorem valid_of_run {inputs : Inputs} {files : Tree} {loaded : Configuration}
    (h : inputs.load files = .ok loaded) {s : Surroundings} {cache : Cache.State}
    {asked : List Query} {failures : List StageFailure} {p : Progress}
    (hrun : runPipeline s ⟨loaded, cache, asked⟩ = (failures, p)) : Valid p.configuration :=
  ⟨inputs, files, loaded, s, cache, asked, h, by rw [hrun]⟩

/-- What the templates count on in a general configuration. -/
structure Complete (g : General) : Prop extends g.Sound where
  tag : g.tag.isSome
  blackholing : g.blackholing.isSome

theorem complete_of_load {inputs : Inputs} {files : Tree} {c : Configuration}
    (h : inputs.load files = .ok c) : Complete c.general := by
  obtain ⟨loads⟩ := loads_of_load h
  obtain ⟨v, -, haccept⟩ := Decoded.bind_eq_ok.1 loads.loadGeneral_eq
  rw [loads.eq_derive]
  exact
    { toSound := (General.sound_of_accept haccept).defineCommunities
      tag := loads.general.isSome_defineCommunities (by decide)
      blackholing := loads.general.isSome_defineCommunities (by decide) }

/-! ### Ids -/

/-- An id of a client: the network and a number. -/
def IsId (id : String) : Prop := ∃ (asn : Asn) (k : Nat), id = asn.name ++ "_" ++ natText k

theorem isId_of_assignIdsFrom {earlier : List Asn} {cs : List Client} :
    ∀ c ∈ Client.assignIdsFrom earlier cs, IsId c.id := by
  intro c hc
  obtain ⟨k, -, hid⟩ := Client.exists_idOf c hc
  exact ⟨c.asn, k, hid⟩

theorem isId_of_load {inputs : Inputs} {files : Tree} {c : Configuration}
    (h : inputs.load files = .ok c) : ∀ id ∈ c.clients.map Client.id, IsId id := by
  obtain ⟨loads⟩ := loads_of_load h
  rw [loads.eq_derive]
  intro id hid
  obtain ⟨x, hx, rfl⟩ := List.mem_map.1 hid
  exact isId_of_assignIdsFrom x hx

theorem notMem_id {id : String} (h : IsId id) {ch : Char} (hdigit : digit? ch = none)
    (hlead : ch ∉ "AS".toList) (hline : ch ≠ '_') : ch ∉ id.toList := by
  obtain ⟨asn, k, rfl⟩ := h
  have hno := notMem_digits hdigit
  simp only [Asn.name, Asn.text, String.toList_append, toList_natText, List.mem_append, not_or]
  exact ⟨⟨⟨hlead, hno _⟩, by simpa using hline⟩, hno _⟩

namespace Valid

variable {c : Configuration} (h : Valid c)
include h

theorem complete : Complete c.general := by
  obtain ⟨inputs, files, loaded, s, cache, asked, hload, rfl⟩ := h
  rw [general_of_bare (bare_runPipeline s _)]
  exact complete_of_load hload

theorem isId {x : Client} (hx : x ∈ c.clients) : IsId x.id := by
  obtain ⟨inputs, files, loaded, s, cache, asked, hload, rfl⟩ := h
  refine isId_of_load hload x.id ?_
  have hids := map_clients_of_bare (f := Client.id) (fun _ => rfl)
    (bare_runPipeline s ⟨loaded, cache, asked⟩)
  rw [← hids]
  exact List.mem_map_of_mem hx

end Valid

end RouteServer.Build

import RouteServer.Proofs.Build.Requests
import RouteServer.Proofs.Build.Valid
import RouteServer.Proofs.Enrich.References
import RouteServer.Proofs.Shipped.Bird.Symbols

/-!
# Build — the sets of a completed configuration

**Contents** (`content_of_run`).  A run over an empty cache gives a set to every symbol of a name that
filters a client, and to no other, and what each set contains follows from the names with its symbol
and from what was answered about them (`Content`).

**References** (`references_of_run`).  After any run clients and sets refer to each other, and the
symbols under which the templates for the daemon define them are all different.
-/

namespace RouteServer.Build

open RouteServer.Cache RouteServer.Enrich RouteServer.Files RouteServer.Lookup RouteServer.Net
open RouteServer.Policy RouteServer.Time

/-- **Contents.**  Whatever fails, there is a set for every symbol of a name that filters a client, and
for no other, and each contains what the answers say. -/
theorem content_of_run (general : General) (bogons : List Bogon) (asns : Dictionary AsnInfo)
    (clients : List Client) (roas : Option (List Roa)) (a : Arguments) (sources : Sources)
    (now : Instant) {cache : Cache.State} (hmemo : cache.store.memo = .empty)
    (hdir : cache.files.names cache.store.dir = .ok []) :
    let c : Configuration := .derive general bogons asns clients roas
    let d := (runPipeline ⟨sources, a.families, now⟩ ⟨c, cache, []⟩).2.configuration
    (∀ key, key ∈ d.asSets.keys ↔
      ∃ client ∈ c.clients, ∃ name ∈ listedNames c client, AsSet.symbol name = key) ∧
    ∀ key s, d.asSets.get? key = some s →
      Content a.families c (fun q => cache.store.verdict q.key (q.ask sources)) key s := by
  intro c d
  have hd : d = ((questions a.families c).map (·.direct sources cache.store)).foldl
      Answered.record (prepareSets c) := by
    have hput := (runPipeline_put (s := ⟨sources, a.families, now⟩) (pairwise_families a)
      ⟨c, cache, []⟩).2.1
    simp only [Query.put_of_empty sources now hmemo hdir] at hput
    exact hput
  rw [hd]
  exact ⟨fun key => mem_keys_foldl_record rfl _,
    fun key s => content_of_foldl a.families c _ key rfl⟩

/-- **References.**  Whatever the sources and the cache hold, clients and sets refer to each other, and
no symbol that the templates define for them is defined twice. -/
theorem references_of_run (general : General) (bogons : List Bogon) (asns : Dictionary AsnInfo)
    (clients : List Client) (roas : Option (List Roa)) (s : Surroundings) (cache : Cache.State)
    (asked : List Query) :
    let c : Configuration := .derive general bogons asns clients roas
    let d := (runPipeline s ⟨c, cache, asked⟩).2.configuration
    Referential d ∧ (Shipped.Bird.symbols d).Nodup ∧
    ∀ f, (∀ id ∈ d.asSets.keys, ∀ symbol ∈ Shipped.Bird.setSymbols id,
        Shipped.Bird.Defines (String.join (Shipped.Bird.fullText f d)) symbol) ∧
      ∀ x ∈ d.clients, x.ip.family = f → ∀ symbol ∈ Shipped.Bird.clientSymbols x.id,
        Shipped.Bird.Defines (String.join (Shipped.Bird.fullText f d)) symbol := by
  intro c d
  have hreferential : Referential d := referential_runPipeline s rfl
  have hids : d.clients.map Client.id = (Client.assignIds clients).map Client.id :=
    map_clients_of_bare (fun _ => rfl) (bare_runPipeline s ⟨c, cache, asked⟩)
  refine ⟨hreferential, Shipped.Bird.nodup_symbols (fun id hid => ?_) ?_ ?_, fun f =>
    Shipped.Bird.defines_symbols⟩
  · obtain ⟨s, hs⟩ := Option.isSome_iff_exists.1 (Dictionary.contains_iff.2 hid)
    exact ⟨s.name, hreferential.named id s hs⟩
  · rw [hids]
    exact Client.nodup_assignIds clients
  · rw [hids]
    intro id hid
    obtain ⟨x, hx, rfl⟩ := List.mem_map.1 hid
    obtain ⟨k, -, hk⟩ := Client.exists_idOf x hx
    exact ⟨x.asn, k, hk⟩

/-! ### Names that share a symbol -/

/-- Three names with one symbol.  The origins of the one that comes last cannot be looked up, nor can
the prefixes of the one in the middle. -/
def partSources : Sources where
  origins name := if name = "AS_FOO" then .error { cause := .noConnection } else
    .ok [if name = "AS-FOO" then 1 else 2]
  prefixes name _ := if name = "AS:FOO" then .error { cause := .noConnection } else
    .ok [⟨.v4 0xC0000200#32, 24, 24, if name = "AS-FOO" then 25 else 26⟩]
  net _ := .ok none

def partSet : ResolvedSet where
  name := "AS:FOO"
  asns := [2]
  prefixes := [⟨.v4 0xC0000200#32, 24, 24, 25⟩, ⟨.v4 0xC0000200#32, 24, 24, 26⟩]

theorem content_of_run_part :
    ∃ (general : General) (bogons : List Bogon) (asns : Dictionary AsnInfo) (clients : List Client)
        (roas : Option (List Roa)),
      let c : Configuration := .derive general bogons asns clients roas
      let a : Arguments := { family := some .v4 }
      let d := (runPipeline ⟨partSources, a.families, ⟨0, 0⟩⟩ ⟨c, emptyCache, []⟩).2.configuration
      ((∀ key, key ∈ d.asSets.keys ↔
          ∃ client ∈ c.clients, ∃ name ∈ listedNames c client, AsSet.symbol name = key) ∧
        ∀ key s, d.asSets.get? key = some s → Content a.families c
          (fun q => emptyCache.store.verdict q.key (q.ask partSources)) key s) ∧
      d.asSets.get? "AS_SET_AS_FOO" = some partSet := by
  have hset : ((inputsOf ["AS:FOO", "AS_FOO", "AS-FOO"]).load {}).toOption.any fun c =>
      decide ((complete ⟨partSources, [.v4], ⟨0, 0⟩⟩ emptyCache.store Stage.all c).2.asSets.get?
        "AS_SET_AS_FOO" = some partSet) := by
    decide +kernel
  cases hload : (inputsOf ["AS:FOO", "AS_FOO", "AS-FOO"]).load {} with
  | error e => rw [hload] at hset; cases hset
  | ok c =>
      rw [hload] at hset
      obtain ⟨loads⟩ := loads_of_load hload
      have hset' := of_decide_eq_true hset
      have hmemo : emptyCache.store.memo = .empty := rfl
      have hdir : emptyCache.files.names emptyCache.store.dir = .ok [] := rfl
      rw [← (runPipeline_eq_complete ⟨partSources, [.v4], ⟨0, 0⟩⟩ c hmemo hdir).2,
        loads.eq_derive] at hset'
      exact ⟨loads.general, loads.bogons, loads.asns, loads.clients, loads.roas,
        content_of_run _ _ _ _ _ { family := some .v4 } partSources ⟨0, 0⟩ hmemo hdir, hset'⟩

end RouteServer.Build

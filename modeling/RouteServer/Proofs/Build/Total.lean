import RouteServer.Proofs.Build.Installed
import RouteServer.Proofs.Build.Valid

/-!
# Build — every accepted build is written

Rendering fails for a configuration only if it lacks something that a template counts on.  A valid
one lacks none of it: the communities that are built in are there, the extended ones have three
parts, and a policy that replaces next hops has one to put there.

So the templates of a target give a text for all that is accepted, and write no option that is unset
(`exists_text_of_load`).
-/

namespace RouteServer.Build

open RouteServer.Enrich RouteServer.Files RouteServer.Lookup RouteServer.Net RouteServer.Policy
open RouteServer.Text

/-- An extended community that has been checked can be written with a blank. -/
theorem spacedFault_eq_none {s : String}
    (h : Community.checkParts .ext (pieces ':' s) = .ok ()) :
    Shipped.OpenBgpd.spacedFault s = none := by
  unfold Community.checkParts at h
  split at h
  case h_3 type asn value hparts =>
      simp [Shipped.OpenBgpd.spacedFault, Helper.spaceExtended, Template.Value.string?, hparts]
  all_goals contradiction

namespace Complete

variable {c : Configuration} (h : Complete c.general)
include h

theorem lacksTag_eq_false (f : Family) : Shipped.Bird.lacksTag f c = false := by
  -- only a missing tag makes the templates fail
  simp [Shipped.Bird.lacksTag, Option.isNone_eq_false_iff.2 h.tag]

theorem tagFault_eq_none : Shipped.OpenBgpd.tagFault c.general = none := by
  obtain ⟨t, ht⟩ := Option.isSome_iff_exists.1 h.tag
  cases hext : t.ext with
  | none => simp [Shipped.OpenBgpd.tagFault, ht, hext]
  | some s =>
      have hchecked : Community.checkParts .ext (pieces ':' s) = .ok () := h.encoding ht hext
      have hspaced := spacedFault_eq_none hchecked
      by_cases hs : s = "" <;> simp [Shipped.OpenBgpd.tagFault, ht, hext, Option.filter, hs, hspaced]

theorem faultOf_eq_none (a : Arguments) : Shipped.OpenBgpd.faultOf a c = none := by
  simp [Shipped.OpenBgpd.faultOf, Shipped.OpenBgpd.clientsFault, h.tagFault_eq_none,
    Option.isNone_eq_false_iff.2 h.blackholing]

theorem bird_outcome_eq_ok (f : Family) :
    Shipped.Bird.outcome f c = .ok (String.join (Shipped.Bird.fullText f c)) := by
  simp [Shipped.Bird.outcome, h.lacksTag_eq_false f]

theorem openBgpd_outcome_eq_ok (a : Arguments) :
    Shipped.OpenBgpd.outcome a c = .ok (String.join (Shipped.OpenBgpd.fullText a c)) := by
  simp [Shipped.OpenBgpd.outcome, h.faultOf_eq_none a]

end Complete

variable {t : Target} {a : Arguments} {files : Tree} {dir : String} {c : Configuration}

/-- **A complete configuration is written**, and no option in it that is unset. -/
theorem exists_text_of_complete (ha : a.check t = .ok ()) (h : Installed files dir t)
    (hc : Complete c.general) (liveTests : Bool) :
    ∃ text, (t.renderer a files dir).render "main.j2" (context c a.family liveTests) = .ok text ∧
      (t ≠ .context →
        Template.render (strictly ((t.renderer a files dir).environment
          (rootOf c a.family liveTests))) "main.j2" = .ok text) := by
  cases t with
  | context => exact ⟨_, render_context h c liveTests, fun hne => absurd rfl hne⟩
  | bird =>
      obtain ⟨f, hf⟩ := family_of_check ha
      have hstrict := (serves a files dir .bird (rootOf c a.family liveTests)).strictly
      have houtcome := hc.bird_outcome_eq_ok f
      refine ⟨_, (render_bird hf h c liveTests).trans houtcome, fun _ => ?_⟩
      rw [← houtcome]
      rw [hf] at hstrict ⊢
      exact Shipped.Bird.render_eq hstrict (birdLoads_strictly (birdLoads h _ _))
        (told_root c (some f) liveTests) (hstrict.writesNextHop (hc.nextHop f))
  | openBgpd =>
      have hstrict := servesFiles_strictly (servesFiles a files dir (rootOf c a.family liveTests))
      have houtcome := hc.openBgpd_outcome_eq_ok a
      refine ⟨_, (render_openBgpd h c liveTests).trans houtcome, fun _ => ?_⟩
      rw [← houtcome]
      exact Shipped.OpenBgpd.render_eq hstrict (openBgpdLoads_strictly (openBgpdLoads h _ _))
        (told_root c a.family liveTests) fun f => hstrict.toServes.writesNextHop (hc.nextHop f)

/-- **Every accepted build is written.**  Whatever has been answered, or not, from outside, the
templates of the target give a text; those for a daemon write no option that is unset. -/
theorem exists_text_of_load {documents : Tree} {inputs : Inputs} (ha : a.check t = .ok ())
    (h : Installed files dir t) (hload : inputs.load documents = .ok c) (s : Surroundings)
    (cache : Cache.State) (asked : List Query) (liveTests : Bool) :
    let done := (runPipeline s ⟨c, cache, asked⟩).2.configuration
    ∃ text, (t.renderer a files dir).render "main.j2" (context done a.family liveTests) = .ok text ∧
      (t ≠ .context →
        Template.render (strictly ((t.renderer a files dir).environment
          (rootOf done a.family liveTests))) "main.j2" = .ok text) := by
  have hvalid : Valid (runPipeline s ⟨c, cache, asked⟩).2.configuration :=
    ⟨inputs, documents, c, s, cache, asked, hload, rfl⟩
  exact exists_text_of_complete ha h hvalid.complete liveTests

/-! ### A build that needs what acceptance makes sure of -/

/-- Routes are tagged by an extended community, and blackhole routes get another next hop. -/
def taggedInputs : Inputs where
  general := .value (.ofFields [("cfg", .ofFields
    [("rs_as", .nat 64500), ("router_id", .string "192.0.2.1"),
     ("blackhole_filtering", .ofFields
       [("policy_ipv4", .string "rewrite-next-hop"),
        ("rewrite_next_hop_ipv4", .string "192.0.2.254")]),
     ("communities", .ofFields [("origin_present_in_as_set", .ofFields
       [("ext", .string "rt:64500:1")])])])])
  bogons := .value (.ofFields [("bogons", .list [])])
  clients := .value (.ofFields [("clients", .list [.ofFields
    [("asn", .nat 64501), ("ip", .string "192.0.2.2"),
     ("cfg", .ofFields [("filtering", .ofFields [("irrdb", .ofFields
       [("as_sets", .list [.string "AS-FOO"])])])])]])])
  asns := some (.value (.ofFields [("asns", .ofFields [])]))

/-- Only origins are answered. -/
def partialSources : Sources where
  origins _ := .ok [64501]
  prefixes _ _ := .error { cause := .noConnection }
  net _ := .error { cause := .noConnection }

/-- For OpenBGPD, when half of the questions are not answered. -/
theorem exists_text_of_load_tagged :
    ∃ c, taggedInputs.load {} = .ok c ∧ c.general.tag.any (·.ext = some "rt:64500:1") ∧
      let done := (runPipeline ⟨partialSources, [.v4, .v6], ⟨0, 0⟩⟩
        ⟨c, ⟨{ dir := "c", expiry := ⟨0⟩, stalePolicy := .fail }, {}⟩, []⟩).2.configuration
      ∃ text, (Target.openBgpd.renderer {} Target.openBgpd.tree "t").render "main.j2"
          (context done none true) = .ok text ∧
        (Target.openBgpd ≠ .context →
          Template.render (strictly ((Target.openBgpd.renderer {} Target.openBgpd.tree
            "t").environment (rootOf done none true))) "main.j2" = .ok text) := by
  have hrun : (taggedInputs.load {}).toOption.any fun c =>
      c.general.tag.any (·.ext = some "rt:64500:1") := by
    decide +kernel
  cases hload : taggedInputs.load {} with
  | error e => rw [hload] at hrun; cases hrun
  | ok c =>
      rw [hload] at hrun
      exact ⟨c, rfl, hrun, exists_text_of_load (a := {}) rfl (installed_tree .openBgpd) hload _ _ []
        true⟩

end RouteServer.Build

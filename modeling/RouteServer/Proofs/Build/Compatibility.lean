import RouteServer.Proofs.Build.Valid
import RouteServer.Proofs.Policy.Validated

/-!
# Build — what ends a build, and what it is only warned of

A configuration may demand eight things that OpenBGPD cannot do (`Demand`).  There is an issue for
each demand that it makes and no other, in their order (`sublist_openBgpd`, `id_mem_openBgpd_iff`).

A builder allows a configuration when it is to ignore everything that its target cannot do there
(`Builder.Allows`).  Then all issues are given back, as warnings; otherwise the build ends with
those that are not to be ignored.  A builder that ignores more allows more (`Builder.Allows.mono`).
-/

namespace RouteServer.Policy

/-- A community that only its large encoding stands for. -/
def Community.OnlyLarge (m : Community) : Prop := m.lrg.isSome ∧ m.std = none ∧ m.ext = none

end RouteServer.Policy

namespace RouteServer.Build

open RouteServer.Enrich RouteServer.Files RouteServer.Policy

/-- What OpenBGPD cannot do, in the order in which it is told. -/
inductive Demand where
  | pathHiding
  | transitFreeAction
  | rpki
  | addPath
  | maxPrefixAction
  | rewriteNextHop
  | largeCommunities
  | extendedCommunities
  deriving DecidableEq

namespace Demand

/-- All demands. -/
def all : List Demand :=
  [.pathHiding, .transitFreeAction, .rpki, .addPath, .maxPrefixAction, .rewriteNextHop,
   .largeCommunities, .extendedCommunities]

/-- The id of the issue that tells of a demand. -/
@[simp] def id : Demand → String
  | .pathHiding => "path_hiding"
  | .transitFreeAction => "transit_free_action"
  | .rpki => "rpki"
  | .addPath => "add_path"
  | .maxPrefixAction => "max_prefix_action"
  | .rewriteNextHop => "blackhole_filtering_rewrite_ipv6_nh"
  | .largeCommunities => "large_communities"
  | .extendedCommunities => "extended_communities"

/-- Whether a configuration makes a demand. -/
def Made (c : Configuration) : Demand → Prop
  | .pathHiding => c.general.pathHiding
  | .transitFreeAction => c.general.filtering.transitFree.action ≠ .reject
  | .rpki => c.general.filtering.rpki.enabled
  | .addPath => ∃ client ∈ c.clients, client.cfg.addPath
  | .maxPrefixAction => ∃ client ∈ c.clients,
      client.cfg.filtering.maxPrefix.action = some .block ∨
        client.cfg.filtering.maxPrefix.action = some .warning
  | .rewriteNextHop => c.general.blackhole.policyV6 = some .rewriteNextHop
  | .largeCommunities => ∃ d ∈ Community.builtin, ∃ m,
      c.general.communities.get? d.name = some m ∧ m.OnlyLarge
  | .extendedCommunities => ∃ d ∈ Community.builtin, d.peerAs ∧ ∃ m,
      c.general.communities.get? d.name = some m ∧ m.ext.isSome

end Demand

/-! ### The issues of OpenBGPD -/

section OpenBgpd

open Compatibility

variable {c : Configuration}

theorem mem_ids_issueIf {b : Bool} {i : Issue} {id : String} :
    id ∈ (issueIf b i).map Issue.id ↔ b ∧ id = i.id := by
  cases b <;> simp [issueIf]

theorem sublist_issueIf (b : Bool) (i : Issue) : ((issueIf b i).map Issue.id).Sublist [i.id] := by
  cases b
  · exact List.nil_sublist _
  · exact .refl _

@[simp] theorem id_actionIssue (action : TransitFreeAction) (rest : String) :
    (actionIssue action rest).id = "transit_free_action" := rfl

@[simp] theorem id_largeIssue (cs : List (String × String)) :
    (largeIssue cs).id = "large_communities" := rfl

@[simp] theorem id_extendedIssue (cs : List (String × String)) :
    (extendedIssue cs).id = "extended_communities" := rfl

theorem not_isEmpty_addressesOf {p : Client → Bool} :
    !(addressesOf c p).isEmpty ↔ ∃ client ∈ c.clients, p client := by
  simp [addressesOf]

theorem hasOddLimitAction_iff {client : Client} : hasOddLimitAction client ↔
    client.cfg.filtering.maxPrefix.action = some .block ∨
      client.cfg.filtering.maxPrefix.action = some .warning := by
  simp [hasOddLimitAction]

theorem not_isEmpty_filterMap {α β : Type} {xs : List α} {f : α → Option β} :
    !(xs.filterMap f).isEmpty ↔ ∃ x ∈ xs, (f x).isSome := by
  simp [List.filterMap_eq_nil_iff, Option.isSome_iff_ne_none]

theorem not_isEmpty_onlyLarge : !(onlyLarge c).isEmpty ↔ Demand.largeCommunities.Made c := by
  rw [onlyLarge, not_isEmpty_filterMap]
  refine exists_congr fun d => and_congr_right fun _ => ?_
  cases c.general.communities.get? d.name with
  | none => simp
  | some m => rcases m with ⟨_, _, _ | _, _ | _, _ | _⟩ <;> simp [Community.OnlyLarge]

/-- Communities that name a peer are attached by the clients. -/
theorem direction_of_peerAs :
    ∀ d ∈ Community.builtin, d.peerAs → d.direction = .inbound := by decide

theorem not_isEmpty_peerExtended :
    !(peerExtended c).isEmpty ↔ Demand.extendedCommunities.Made c := by
  rw [peerExtended, not_isEmpty_filterMap]
  refine exists_congr fun d => and_congr_right fun hd => ?_
  have hdirection := direction_of_peerAs d hd
  cases hm : c.general.communities.get? d.name with
  | none => simp
  | some m => cases hext : m.ext <;> simp +contextual [hext, hdirection]

/-- There is at most one issue for each demand, and no other, in the order of the demands. -/
theorem sublist_openBgpd :
    ((Target.openBgpd.issues c).map Issue.id).Sublist (Demand.all.map Demand.id) := by
  simp only [Target.issues, ofOpenBgpd, List.map_append]
  exact (((((((sublist_issueIf _ _).append (sublist_issueIf _ _)).append
    (sublist_issueIf _ _)).append (sublist_issueIf _ _)).append (sublist_issueIf _ _)).append
    (sublist_issueIf _ _)).append (sublist_issueIf _ _)).append (sublist_issueIf _ _)

/-- There is an issue for each demand that is made. -/
theorem id_mem_openBgpd_iff (d : Demand) :
    d.id ∈ (Target.openBgpd.issues c).map Issue.id ↔ d.Made c := by
  simp only [Target.issues, ofOpenBgpd, List.map_append, List.mem_append, mem_ids_issueIf,
    not_isEmpty_addressesOf, not_isEmpty_onlyLarge, not_isEmpty_peerExtended, hasOddLimitAction_iff]
  -- the ids are all different, so only the issue of the demand itself can be the one
  cases d <;> simp [Demand.Made]

/-- No target tells of anything twice. -/
theorem nodup_ids (t : Target) (c : Configuration) : ((t.issues c).map Issue.id).Nodup := by
  cases t with
  | bird => exact (sublist_issueIf _ _).nodup (List.nodup_singleton _)
  | openBgpd => exact sublist_openBgpd.nodup (by decide)
  | context => exact .nil

end OpenBgpd

/-! ### Communities that come from documents -/

/-- A configuration that has been loaded, as it was then or completed. -/
def FromDocuments (c : Configuration) : Prop :=
  (∃ (inputs : Inputs) (files : Tree), inputs.load files = .ok c) ∨ Valid c

namespace FromDocuments

variable {c : Configuration} (h : FromDocuments c)
include h

/-- Completing a configuration leaves what was put together alone. -/
theorem exists_general : ∃ g : General, g.IsValid ∧ c.general = g.defineCommunities := by
  have hloaded : ∃ (inputs : Inputs) (files : Tree) (loaded : Configuration),
      inputs.load files = .ok loaded ∧ c.general = loaded.general := by
    rcases h with ⟨inputs, files, hload⟩ | ⟨inputs, files, loaded, s, cache, asked, hload, rfl⟩
    · exact ⟨inputs, files, c, hload, rfl⟩
    · exact ⟨inputs, files, loaded, hload, general_of_bare (bare_runPipeline s _)⟩
  obtain ⟨inputs, files, loaded, hload, hgeneral⟩ := hloaded
  obtain ⟨loads⟩ := loads_of_load hload
  exact ⟨loads.general, (General.isValid_of_loadGeneral loads.loadGeneral_eq).1,
    hgeneral.trans (congrArg Configuration.general loads.eq_derive)⟩

/-- Every community is built in and has what is fixed about it. -/
theorem exists_definition {name : String} {m : Community}
    (hm : c.general.communities.get? name = some m) :
    ∃ d ∈ Community.builtin, d.name = name ∧ m.peerAs = d.peerAs := by
  obtain ⟨g, hg, hc⟩ := h.exists_general
  rw [hc] at hm
  obtain ⟨d, hd, rfl⟩ := hg.defineCommunities.exists_definition hm
  obtain ⟨m', hm'⟩ := hg.exists_get? hd
  rw [General.IsValid.get?_defineCommunities hd hm'] at hm
  exact ⟨d, hd, rfl, by rw [← Option.some.inj hm, Community.define]⟩

theorem made_largeCommunities_iff : Demand.largeCommunities.Made c ↔
    ∃ name m, c.general.communities.get? name = some m ∧ m.OnlyLarge := by
  constructor
  · rintro ⟨d, -, m, hm, honly⟩
    exact ⟨d.name, m, hm, honly⟩
  · rintro ⟨name, m, hm, honly⟩
    obtain ⟨d, hd, rfl, -⟩ := h.exists_definition hm
    exact ⟨d, hd, m, hm, honly⟩

theorem made_extendedCommunities_iff : Demand.extendedCommunities.Made c ↔
    ∃ name m, c.general.communities.get? name = some m ∧ m.peerAs ∧ m.ext.isSome := by
  constructor
  · rintro ⟨d, hd, hpeer, m, hm, hext⟩
    obtain ⟨d', hd', hname, hfixed⟩ := h.exists_definition hm
    obtain rfl := General.eq_of_name_eq hd' hd hname
    exact ⟨d'.name, m, hm, hfixed ▸ hpeer, hext⟩
  · rintro ⟨name, m, hm, hpeer, hext⟩
    obtain ⟨d, hd, rfl, hfixed⟩ := h.exists_definition hm
    exact ⟨d, hd, hfixed ▸ hpeer, m, hm, hext⟩

end FromDocuments

/-! ### What is ignored -/

theorem classify_eq_fatal_iff {id : String} {ignored : List String} :
    classify id ignored = .fatal ↔ "*" ∉ ignored ∧ id ∉ ignored := by
  have hany : (ignored.any fun i => i = "*" || i = id) ↔ "*" ∈ ignored ∨ id ∈ ignored := by
    simp [and_or_left, exists_or]
  rw [← not_or, ← hany, classify]
  split
  case isTrue h => simp [h]
  case isFalse h => simp [h]

namespace Builder

variable {b : Builder} {c : Configuration} {more : List String}

/-- The builder, with other issues to ignore. -/
def ignoring (b : Builder) (ignored : List String) : Builder :=
  { b with arguments.ignored := ignored }

/-- Everything that the target cannot do is to be ignored, by its id or as all issues are. -/
def Allows (b : Builder) (c : Configuration) : Prop :=
  (∀ i ∈ b.target.issues c, i.id ∈ b.arguments.ignored) ∨ "*" ∈ b.arguments.ignored

/-- A builder that ignores more allows more. -/
theorem Allows.mono (h : b.Allows c) (hmore : b.arguments.ignored ⊆ more) :
    (b.ignoring more).Allows c := by
  rcases h with h | h
  · exact .inl fun i hi => hmore (h i hi)
  · exact .inr (hmore h)

/-- A builder allows what holds nothing that would end the build. -/
theorem allows_iff :
    b.Allows c ↔ ∀ i ∈ b.target.issues c, classify i.id b.arguments.ignored ≠ .fatal := by
  simp only [ne_eq, classify_eq_fatal_iff, Allows]
  by_cases hall : "*" ∈ b.arguments.ignored <;> simp [hall]

theorem fatal_eq_nil_iff :
    ((b.target.issues c).filter fun i => classify i.id b.arguments.ignored = .fatal) = [] ↔
      b.Allows c := by
  simp only [List.filter_eq_nil_iff, decide_eq_true_eq, allows_iff, ne_eq]

theorem checkCompatibility_of_allows (h : b.Allows c) :
    b.checkCompatibility c = .ok (b.target.issues c) := by
  simp only [checkCompatibility, fatal_eq_nil_iff.2 h]

theorem checkCompatibility_of_not_allows (h : ¬ b.Allows c) :
    b.checkCompatibility c = .error (.incompatible
      ((b.target.issues c).filter fun i => i.id ∉ b.arguments.ignored)) := by
  have hfatal : ((b.target.issues c).filter fun i => i.id ∉ b.arguments.ignored) =
      (b.target.issues c).filter fun i => classify i.id b.arguments.ignored = .fatal := by
    have hall : "*" ∉ b.arguments.ignored := fun hall => h (.inr hall)
    refine List.filter_congr fun i _ => ?_
    simp [classify_eq_fatal_iff, hall]
  rw [hfatal, checkCompatibility]
  split
  case h_1 hnil => exact absurd (fatal_eq_nil_iff.1 hnil) h
  case h_2 => rfl

theorem isOk_checkCompatibility_iff : (b.checkCompatibility c).isOk ↔ b.Allows c := by
  by_cases h : b.Allows c
  · simp [checkCompatibility_of_allows h, h, Except.isOk, Except.toBool]
  · simp [checkCompatibility_of_not_allows h, h, Except.isOk, Except.toBool]

/-- **Verdict.**  A builder gives all issues of its target back, in their order, exactly when it is
to ignore each of them, by its id or by a `*`; otherwise the build ends with those that it is not to
ignore, in their order.  No id is told twice.  For OpenBGPD the ids are those of the demands that
the configuration makes; where it comes from documents, those about communities can be read off its
own communities.  A builder that ignores more still gives back what it did. -/
theorem compatibility_verdict (b : Builder) (c : Configuration) :
    (∀ warnings, b.checkCompatibility c = .ok warnings ↔
      b.Allows c ∧ warnings = b.target.issues c) ∧
    (∀ e, b.checkCompatibility c = .error e ↔
      ¬ b.Allows c ∧ e = .incompatible
        ((b.target.issues c).filter fun i => i.id ∉ b.arguments.ignored)) ∧
    ((b.target.issues c).map Issue.id).Nodup ∧
    ((Target.openBgpd.issues c).map Issue.id).Sublist (Demand.all.map Demand.id) ∧
    (∀ d : Demand, d.id ∈ (Target.openBgpd.issues c).map Issue.id ↔ d.Made c) ∧
    (FromDocuments c →
      (Demand.largeCommunities.Made c ↔
        ∃ name m, c.general.communities.get? name = some m ∧ m.OnlyLarge) ∧
      (Demand.extendedCommunities.Made c ↔
        ∃ name m, c.general.communities.get? name = some m ∧ m.peerAs ∧ m.ext.isSome)) ∧
    ∀ more, b.arguments.ignored ⊆ more → ∀ warnings, b.checkCompatibility c = .ok warnings →
      (b.ignoring more).checkCompatibility c = .ok warnings := by
  have hverdict : b.Allows c ∧ b.checkCompatibility c = .ok (b.target.issues c) ∨
      ¬ b.Allows c ∧ b.checkCompatibility c = .error (.incompatible
        ((b.target.issues c).filter fun i => i.id ∉ b.arguments.ignored)) := by
    by_cases h : b.Allows c
    · exact .inl ⟨h, checkCompatibility_of_allows h⟩
    · exact .inr ⟨h, checkCompatibility_of_not_allows h⟩
  refine ⟨fun warnings => ?_, fun e => ?_, nodup_ids b.target c, sublist_openBgpd,
    id_mem_openBgpd_iff, fun h => ⟨h.made_largeCommunities_iff, h.made_extendedCommunities_iff⟩,
    fun more hmore warnings h => ?_⟩
  · rcases hverdict with ⟨h, he⟩ | ⟨h, he⟩ <;> simp [h, he, eq_comm]
  · rcases hverdict with ⟨h, he⟩ | ⟨h, he⟩ <;> simp [h, he, eq_comm]
  · rcases hverdict with ⟨hallows, he⟩ | ⟨-, he⟩
    · rw [← Except.ok.inj (he.symm.trans h)]
      exact checkCompatibility_of_allows (hallows.mono hmore)
    · cases he.symm.trans h

end Builder

/-! ### All demands at once -/

/-- Documents that make every demand. -/
def demandingInputs : Inputs where
  general := .value (.ofFields [("cfg", .ofFields
    [("rs_as", .nat 64500), ("router_id", .string "192.0.2.1"),
     ("filtering", .ofFields
       [("transit_free", .ofFields [("action", .string "warning")]),
        ("rpki", .ofFields [("enabled", .bool true)]),
        ("max_prefix", .ofFields [("action", .string "block")])]),
     ("blackhole_filtering", .ofFields
       [("policy_ipv6", .string "rewrite-next-hop"),
        ("rewrite_next_hop_ipv6", .string "2001:db8::66")]),
     ("communities", .ofFields
       [("roa_valid", .ofFields [("lrg", .string "64500:1:1")]),
        ("announce_to_peer", .ofFields [("ext", .string "rt:64500:peer_as")])])])])
  bogons := .value (.ofFields [("bogons", .list [])])
  clients := .value (.ofFields [("clients", .list [.ofFields
    [("asn", .nat 64501), ("ip", .string "192.0.2.2"),
     ("cfg", .ofFields [("add_path", .bool true)])]])])
  asns := some (.value (.ofFields [("asns", .ofFields [])]))

/-- A builder for OpenBGPD with issues to ignore. -/
def openBgpdBuilder (c : Configuration) (ignored : List String) : Builder where
  target := .openBgpd
  arguments := { ignored }
  configuration := c
  cache := { dir := "c", expiry := ⟨0⟩, stalePolicy := .fail }
  renderer := ⟨{}, "t", []⟩

theorem compatibility_verdict_demanding :
    ∃ c, demandingInputs.load {} = .ok c ∧
      let issues := Target.openBgpd.issues c
      let ids := Demand.all.map Demand.id
      (∀ d : Demand, d.Made c) ∧
      (∃ name m, c.general.communities.get? name = some m ∧ m.OnlyLarge) ∧
      (openBgpdBuilder c ["rpki"]).checkCompatibility c =
        .error (.incompatible (issues.filter fun i => i.id ∉ ["rpki"])) ∧
      (openBgpdBuilder c ids).checkCompatibility c = .ok issues ∧
      ids ⊆ ids ++ ["other"] ∧
      ((openBgpdBuilder c ids).ignoring (ids ++ ["other"])).checkCompatibility c = .ok issues := by
  have hrun : (demandingInputs.load {}).toOption.any fun c => decide
      ((Target.openBgpd.issues c).map Issue.id = Demand.all.map Demand.id) := by decide +kernel
  cases hload : demandingInputs.load {} with
  | error e => rw [hload] at hrun; cases hrun
  | ok c =>
      rw [hload] at hrun
      have hids := of_decide_eq_true hrun
      obtain ⟨-, herror, -, -, hmade, hcommunities, -⟩ :=
        Builder.compatibility_verdict (openBgpdBuilder c ["rpki"]) c
      obtain ⟨hok, -, -, -, -, -, hmore⟩ :=
        Builder.compatibility_verdict (openBgpdBuilder c (Demand.all.map Demand.id)) c
      have hall : ∀ d : Demand, d.Made c := fun d =>
        (hmade d).1 (hids ▸ List.mem_map_of_mem (by cases d <;> decide))
      have hrefuses : ¬ (openBgpdBuilder c ["rpki"]).Allows c := by
        rintro (h | h)
        · obtain ⟨i, hi, hid⟩ := List.mem_map.1 ((hmade .addPath).2 (hall .addPath))
          have hignored : Demand.addPath.id ∈ ["rpki"] := hid ▸ h i hi
          exact absurd hignored (by decide)
        · have hstar : "*" ∈ ["rpki"] := h
          exact absurd hstar (by decide)
      have hallows : (openBgpdBuilder c (Demand.all.map Demand.id)).Allows c :=
        .inl fun i hi => hids ▸ List.mem_map_of_mem (f := Issue.id) hi
      have hwarned := (hok _).2 ⟨hallows, rfl⟩
      exact ⟨c, rfl, hall, (hcommunities (.inl ⟨_, _, hload⟩)).1.1 (hall .largeCommunities),
        (herror _).2 ⟨hrefuses, rfl⟩, hwarned, List.subset_append_left _ _,
        hmore _ (List.subset_append_left _ _) _ hwarned⟩

end RouteServer.Build

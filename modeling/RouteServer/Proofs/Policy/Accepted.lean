import RouteServer.Policy.Source
import RouteServer.Proofs.Policy.Decoded
import RouteServer.Proofs.Policy.Options
import RouteServer.Proofs.Schema.Section

/-!
# Policy — what an accepted configuration satisfies

A document is accepted when the walk finds nothing, no constraint between several fields is broken,
and its normal form decodes (`accept_eq_ok`).  What the walk and the constraints make sure of then
holds of the typed configuration: a policy that replaces next hops has one to put there, and every
encoding of a community has passed its check (`General.Sound`).  Putting the documents together
keeps that, and adds the communities that a document leaves out (`get?_defineCommunities`).
-/

namespace RouteServer.Policy

open RouteServer.Net RouteServer.Schema RouteServer.Text RouteServer.Yaml

theorem mergeViolations_eq_nil_iff {walked crossed : List Violation} :
    mergeViolations walked crossed = [] ↔ walked = [] ∧ crossed = [] := by
  unfold mergeViolations
  rw [List.append_eq_nil_iff]
  refine and_congr_right fun h => ?_
  simp [h, List.eq_nil_iff_forall_not_mem]

/-- **Acceptance.** -/
theorem accept_eq_ok {α : Type} {document : DocumentKind} {fields : List Field}
    {parent : Option Value} {crossCheck : Value → List Violation} {decode : Value → Decoded α}
    {v : Value} {x : α} :
    accept document fields parent crossCheck decode v = .ok x ↔
      (walk parent fields v "").2 = [] ∧ crossCheck (walk parent fields v "").1 = [] ∧
        decode (walk parent fields v "").1 = .ok x := by
  unfold accept
  generalize walk parent fields v "" = w
  obtain ⟨normal, walked⟩ := w
  simp only
  split
  case h_1 h =>
      obtain ⟨hwalked, hcross⟩ := mergeViolations_eq_nil_iff.1 h
      simp only [hwalked, hcross, true_and]
      cases decode normal <;> simp
  case h_2 h =>
      have hnot := fun hand => h (mergeViolations_eq_nil_iff.2 hand)
      constructor
      · intro he; cases he
      · rintro ⟨hwalked, hcross, -⟩
        exact absurd ⟨hwalked, hcross⟩ hnot

/-! ### Constraints between fields -/

/-- What a general configuration that has been accepted satisfies. -/
structure General.Sound (g : General) : Prop where
  /-- Where next hops are replaced, there is one to put there. -/
  nextHop : ∀ f, g.blackhole.HasNextHop f
  /-- Encodings have the parts of their kind. -/
  encoding : ∀ {name c}, g.communities.get? name = some c → ∀ {kind text},
    c.encoding kind = some text → Community.checkParts kind (pieces ':' text) = .ok ()

namespace General

theorem nextHop_of_policy {cfg : Value} (h : nextHopViolations cfg = []) {n : String}
    (hn : n ∈ ["4", "6"])
    (hp : (cfg.getD "blackhole_filtering").getD ("policy_ipv" ++ n) =
      .string BlackholePolicy.rewriteNextHop.text) :
    (cfg.getD "blackhole_filtering").getD ("rewrite_next_hop_ipv" ++ n) ≠ .null := by
  intro hnull
  unfold nextHopViolations at h
  rw [List.filterMap_eq_nil_iff] at h
  have hnot := h n hn
  rw [if_pos ⟨by rw [hp]; rfl, by rw [hnull]; rfl⟩] at hnot
  cases hnot

theorem isSome_of_optional {α : Type} {decode : Value → Decoded α} {v : Value} {o : Option α}
    (h : Decoded.optional decode v = .ok o) (hv : v ≠ .null) : o.isSome := by
  rcases Decoded.optional_eq_ok h with ⟨hnull, -⟩ | ⟨x, -, rfl⟩
  · exact absurd hnull hv
  · rfl

theorem string_of_policy {v : Value} {p : BlackholePolicy}
    (h : Decoded.optional BlackholePolicy.ofValue v = .ok (some p)) : v = .string p.text := by
  rcases Decoded.optional_eq_ok h with ⟨-, hnone⟩ | ⟨q, hq, hp⟩
  · cases hnone
  · cases hp
    exact Decoded.choice_eq_ok hq

theorem nodup_communitiesFields : (communitiesFields.map Field.name).Nodup := by decide

theorem nodup_communityFields : (communityFields.map Field.name).Nodup := by decide

theorem nodup_fields : (fields.map Field.name).Nodup := by decide

/-- The field of an encoding. -/
def encodingField (kind : Community.Encoding) : Field :=
  ⟨kind.name, .text (Community.check kind), .null⟩

theorem encodingField_mem (kind : Community.Encoding) :
    encodingField kind ∈ kept communityFields := by
  cases kind <;> simp [kept, communityFields, encodingField, Kind.isDiscarded,
    Community.Encoding.name]

theorem checkParts_of_check {kind : Community.Encoding} {s text : String}
    (h : Community.check kind s = .ok text) :
    Community.checkParts kind (pieces ':' text) = .ok () := by
  unfold Community.check at h
  split at h
  case h_1 hok => cases h; exact hok
  case h_2 => cases h

/-- The encodings of a community in normal form have been checked. -/
theorem encoding_of_walk {v : Value} {path : String} {c : Community}
    (h : Community.ofValue ((Kind.record communityFields).walk none v path).1 = .ok c)
    {kind : Community.Encoding} {text : String} (htext : c.encoding kind = some text) :
    Community.checkParts kind (pieces ':' text) = .ok () := by
  have hdecode := Community.of_ofValue h kind
  rw [htext] at hdecode
  rcases Decoded.optional_eq_ok hdecode with ⟨-, hnone⟩ | ⟨s, hs, hsome⟩
  · cases hnone
  · cases hsome
    have hstring := Decoded.string_eq_ok.1 hs
    rcases getD_walk none v path nodup_communityFields
      (encodingField_mem kind) with hnull | ⟨entries, hwalked⟩
    · cases (hnull.symm.trans hstring : Value.null = .string text)
    · obtain ⟨s, hs⟩ := walked_text (hwalked.symm.trans hstring)
      exact checkParts_of_check hs

/-- The communities of a section in normal form have been walked. -/
theorem community_of_walk {v : Value} {path : String} {cs : Dictionary Community}
    (h : Decoded.dictionary Community.ofValue
      ((Kind.record communitiesFields).walk none v path).1 = .ok cs)
    {name : String} {c : Community} (hc : cs.get? name = some c) :
    ∃ w p, Community.ofValue ((Kind.record communityFields).walk none w p).1 = .ok c := by
  obtain ⟨es, hes, hget⟩ := Decoded.dictionary_eq_ok h
  obtain ⟨e, he, -, hdecode⟩ := hget hc
  cases hv : sectionEntries? v with
  | none =>
      rw [walk_record_of_none hv] at hes
      cases hes
  | some entries =>
      rw [walk_record nodup_communitiesFields hv] at hes
      cases hes
      obtain ⟨f, hf, rfl⟩ := List.mem_map.1 he
      obtain ⟨d, -, rfl⟩ := List.mem_map.1 (List.mem_filter.1 hf).1
      rw [walked_ofParts] at hdecode
      exact ⟨_, _, hdecode⟩

/-- The communities of a document stand in a section that has been walked. -/
theorem communities_of_walk {v : Value} {cs : Dictionary Community}
    (h : Decoded.dictionary Community.ofValue
      (((walk none document v "").1.getD "cfg").getD "communities") = .ok cs) :
    ∃ w p, Decoded.dictionary Community.ofValue
      ((Kind.record communitiesFields).walk none w p).1 = .ok cs := by
  have hnot : ∀ {w : Value}, w.getD "communities" = .null →
      Decoded.dictionary Community.ofValue (w.getD "communities") ≠ .ok cs := by
    intro w hw hok
    rw [hw] at hok
    cases hok
  have hdocument : (⟨"cfg", .record fields, .required⟩ : Field) ∈ kept document := by
    simp [kept, document, Kind.isDiscarded]
  have hfield : Field.ofParts "communities" communitiesFields ∈ kept fields := by
    simp [kept, fields, Kind.isDiscarded, Field.ofParts]
  rcases getD_walk none v "" (by decide) hdocument with
    hnull | ⟨entries, hcfg⟩
  · exact absurd h (hnot (by rw [walk, hnull]; rfl))
  · rw [walk, hcfg] at h
    unfold Field.walked Field.fill at h
    split at h
    case h_2 => exact absurd h (hnot rfl)
    case h_1 w _ =>
        rcases getD_walk none w (join "" "cfg") nodup_fields hfield with
          hnull | ⟨entries, hcommunities⟩
        · exact absurd h (hnot hnull)
        · replace hcommunities : ((Kind.record fields).walk none w (join "" "cfg")).1.getD
              "communities" = _ := hcommunities
          change Decoded.dictionary _ (((Kind.record fields).walk none w (join "" "cfg")).1.getD
            "communities") = _ at h
          rw [hcommunities, walked_ofParts] at h
          exact ⟨_, _, h⟩

/-- **What is accepted is sound.** -/
theorem sound_of_accept {v : Value} {g : General} (h : acceptGeneral v = .ok g) : g.Sound := by
  obtain ⟨-, hcross, hdecode⟩ := accept_eq_ok.1 h
  obtain ⟨hblackhole, hcommunities⟩ := of_ofValue hdecode
  obtain ⟨hp4, hp6, hn4, hn6⟩ := Blackhole.of_ofValue hblackhole
  obtain ⟨hfront, -⟩ := List.append_eq_nil_iff.1 hcross
  obtain ⟨-, hnext⟩ := List.append_eq_nil_iff.1 hfront
  constructor
  · intro f hf
    cases f with
    | v4 =>
        rw [show g.blackhole.policyV4 = some .rewriteNextHop from hf] at hp4
        have hgiven := nextHop_of_policy (n := "4") hnext (by simp) (string_of_policy hp4)
        simpa [Blackhole.nextHopText] using isSome_of_optional hn4 hgiven
    | v6 =>
        rw [show g.blackhole.policyV6 = some .rewriteNextHop from hf] at hp6
        have hgiven := nextHop_of_policy (n := "6") hnext (by simp) (string_of_policy hp6)
        simpa [Blackhole.nextHopText] using isSome_of_optional hn6 hgiven
  · intro name c hc kind text htext
    obtain ⟨w, p, hw⟩ := communities_of_walk hcommunities
    obtain ⟨x, q, hx⟩ := community_of_walk hw hc
    exact encoding_of_walk hx htext

/-! ### Putting the documents together -/

theorem get?_foldl_define {ds : List Community.Definition}
    (hnames : (ds.map Community.Definition.name).Nodup) (cs : Dictionary Community)
    (name : String) :
    (ds.foldl (fun cs d => cs.insert d.name (((cs.get? d.name).getD {}).define d)) cs).get? name =
      match ds.find? (·.name = name) with
      | some d => some (((cs.get? name).getD {}).define d)
      | none => cs.get? name := by
  induction ds generalizing cs with
  | nil => rfl
  | cons d ds ih =>
      rw [List.map_cons, List.nodup_cons] at hnames
      rw [List.foldl_cons, ih hnames.2, List.find?_cons]
      by_cases h : d.name = name
      · -- the definitions that follow have other names
        have hnone : ds.find? (·.name = name) = none := by
          rw [List.find?_eq_none]
          intro e he hname
          refine hnames.1 (h ▸ ?_)
          exact of_decide_eq_true hname ▸ List.mem_map_of_mem (f := Community.Definition.name) he
        subst h
        simp [hnone, Dictionary.get?_insert]
      · simp [h, Dictionary.get?_insert, Ne.symm h]

/-- A community that is built in has what is fixed about it, whether it is given or not. -/
theorem get?_defineCommunities (g : General) (name : String) :
    g.defineCommunities.communities.get? name =
      match Community.builtin.find? (·.name = name) with
      | some d => some (((g.communities.get? name).getD {}).define d)
      | none => g.communities.get? name :=
  get?_foldl_define (by decide) g.communities name

theorem encoding_define (c : Community) (d : Community.Definition) (kind : Community.Encoding) :
    (c.define d).encoding kind = c.encoding kind := by cases kind <;> rfl

/-- The encodings of a community are those of the document. -/
theorem encoding_of_defineCommunities {g : General} {name : String} {c : Community}
    {kind : Community.Encoding} {text : String}
    (hc : g.defineCommunities.communities.get? name = some c) (h : c.encoding kind = some text) :
    ∃ c', g.communities.get? name = some c' ∧ c'.encoding kind = some text := by
  rw [get?_defineCommunities] at hc
  generalize Community.builtin.find? (·.name = name) = found at hc
  cases found with
  | none => exact ⟨c, hc, h⟩
  | some d =>
      obtain rfl := Option.some.inj hc
      rw [encoding_define] at h
      cases hget : g.communities.get? name with
      | some c => exact ⟨c, rfl, by simpa [hget] using h⟩
      | none => cases kind <;> simp [hget, Community.encoding] at h

/-- Only the communities change. -/
theorem blackhole_defineCommunities (g : General) :
    g.defineCommunities.blackhole = g.blackhole := by rw [defineCommunities]

theorem Sound.defineCommunities {g : General} (h : g.Sound) : g.defineCommunities.Sound := by
  constructor
  · intro f
    rw [blackhole_defineCommunities]
    exact h.nextHop f
  · intro name c hc kind text htext
    obtain ⟨c', hc', htext'⟩ := encoding_of_defineCommunities hc htext
    exact h.encoding hc' htext'

/-- Every community that is built in is there. -/
theorem isSome_defineCommunities (g : General) {name : String}
    (h : name ∈ Community.builtin.map Community.Definition.name) :
    (g.defineCommunities.communities.get? name).isSome := by
  obtain ⟨d, hd, rfl⟩ := List.mem_map.1 h
  rw [get?_defineCommunities]
  split
  · rfl
  case h_2 hnone => exact absurd (List.find?_eq_none.1 hnone d hd) (by simp)

end General

end RouteServer.Policy

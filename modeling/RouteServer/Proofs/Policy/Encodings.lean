import RouteServer.Proofs.Policy.Accepted
import RouteServer.Proofs.Policy.Constraints
import RouteServer.Proofs.Schema.Conforms
import RouteServer.Proofs.Text.Split

/-!
# Policy — encodings that denote one community

A community denotes the components of its encoding: a part that is a number stands for the number,
any other part, such as the macro for peers, for itself (`Community.components`).

No text is used twice in a configuration that is accepted, whatever the communities and the kinds of
their encodings.  So encodings with the same components are spelled differently, and then one of
them has a sign or zeros in front of a number (`General.encodings_differ`).  Such a spelling is accepted
as it is, so two communities may denote the same (`General.not_components_ne`).
-/

namespace RouteServer.Policy

open RouteServer.Schema RouteServer.Text RouteServer.Yaml

namespace Community

/-! ### Components -/

/-- What a part of an encoding stands for. -/
inductive Component where
  | number (n : Nat)
  | word (s : String)
  deriving DecidableEq

/-- What a part of an encoding stands for: its number, or the part itself when it is none. -/
def component (part : String) : Component :=
  match readNat maxWord64 part.toList with
  | .ok n => .number n
  | .error _ => .word part

/-- What an encoding denotes. -/
def components (text : String) : List Component := (pieces ':' text).map component

/-- A part of an encoding is a number with a sign, or with zeros in front. -/
def HasFilled (text : String) : Prop := ∃ part ∈ pieces ':' text, IsFilled part.toList

theorem pieces_injective (sep : Char) : Function.Injective (pieces sep) := by
  intro s t h
  have hcut : splitAt sep s.toList = splitAt sep t.toList :=
    List.map_injective_iff.2 (fun _ _ hsame => String.ofList_injective hsame) h
  have hjoined := congrArg [sep].intercalate hcut
  rw [intercalate_splitAt, intercalate_splitAt] at hjoined
  exact String.toList_inj.1 hjoined

/-- Parts that stand for the same are the same, unless one of them is filled. -/
theorem component_inj {p q : String} (hp : ¬ IsFilled p.toList) (hq : ¬ IsFilled q.toList)
    (h : component p = component q) : p = q := by
  unfold component at h
  cases hm : readNat maxWord64 p.toList with
  | error =>
      cases hn : readNat maxWord64 q.toList with
      | error =>
          rw [hm, hn] at h
          exact Component.word.inj h
      | ok n =>
          rw [hm, hn] at h
          cases h
  | ok m =>
      cases hn : readNat maxWord64 q.toList with
      | error =>
          rw [hm, hn] at h
          cases h
      | ok n =>
          rw [hm, hn] at h
          have hpdigits := (eq_digits_of_readNat hm).resolve_right hp
          have hqdigits := (eq_digits_of_readNat hn).resolve_right hq
          rw [Component.number.inj h, ← hqdigits] at hpdigits
          exact String.toList_inj.1 hpdigits

theorem map_component_inj {ps qs : List String} (hps : ∀ p ∈ ps, ¬ IsFilled p.toList)
    (hqs : ∀ q ∈ qs, ¬ IsFilled q.toList) (h : ps.map component = qs.map component) : ps = qs := by
  induction ps generalizing qs with
  | nil => exact (List.map_eq_nil_iff.1 h.symm).symm
  | cons p ps ih =>
      cases qs with
      | nil => cases h
      | cons q qs =>
          obtain ⟨hfirst, hrest⟩ := List.cons.inj h
          rw [List.forall_mem_cons] at hps hqs
          rw [component_inj hps.1 hqs.1 hfirst, ih hps.2 hqs.2 hrest]

/-- **Spellings of a community.**  Texts that denote the same are the same, unless one of them has a
sign or zeros in front of a number. -/
theorem components_inj {s t : String} (h : components s = components t) :
    s = t ∨ HasFilled s ∨ HasFilled t := by
  by_cases hs : HasFilled s
  · exact .inr (.inl hs)
  by_cases ht : HasFilled t
  · exact .inr (.inr ht)
  have hps : ∀ p ∈ pieces ':' s, ¬ IsFilled p.toList := fun p hp hfilled => hs ⟨p, hp, hfilled⟩
  have hqs : ∀ q ∈ pieces ':' t, ¬ IsFilled q.toList := fun q hq hfilled => ht ⟨q, hq, hfilled⟩
  exact .inl (pieces_injective ':' (map_component_inj hps hqs h))

end Community

namespace General

/-! ### The encodings of an accepted configuration -/

theorem encodingPath_injective (d : Community.Definition) :
    Function.Injective (encodingPath d) := by
  intro kind other h
  have hname := (String.append_right_inj _).1 h
  cases kind <;> cases other <;> first | rfl | exact absurd hname (by decide)

/-- Of two elements of a list one stands in front of the other. -/
theorem exists_in_front {α : Type} {x y : α} {xs : List α} (hx : x ∈ xs) (hy : y ∈ xs)
    (hne : x ≠ y) :
    (∃ front back, xs = front ++ x :: back ∧ y ∈ front) ∨
      ∃ front back, xs = front ++ y :: back ∧ x ∈ front := by
  obtain ⟨front, back, rfl⟩ := List.append_of_mem hx
  rcases List.mem_append.1 hy with hfront | hrest
  · exact .inl ⟨front, back, rfl, hfront⟩
  · rcases List.mem_cons.1 hrest with rfl | hback
    · exact absurd rfl hne
    · obtain ⟨between, behind, rfl⟩ := List.append_of_mem hback
      exact .inr ⟨front ++ x :: between, behind, by simp, by simp⟩

/-- Texts that nothing is wrong with are different. -/
theorem text_ne_of_crossCheck {doc : Value} (h : crossCheck doc = []) {x y : Encoded}
    (hx : x ∈ encodings (doc.getD "cfg")) (hy : y ∈ encodings (doc.getD "cfg")) (hne : x ≠ y) :
    x.2.2 ≠ y.2.2 := by
  intro htext
  have hnone : ∀ b, ¬ Breaks doc b := fun b hb => by
    have hfound := mem_crossCheck.2 hb
    rw [h] at hfound
    cases hfound
  rcases exists_in_front hx hy hne with
    ⟨front, back, hsplit, hfront⟩ | ⟨front, back, hsplit, hfront⟩
  · obtain ⟨name, hbreaks⟩ := breaks_of_same_text hsplit hfront htext.symm
    exact hnone _ hbreaks
  · obtain ⟨name, hbreaks⟩ := breaks_of_same_text hsplit hfront htext
    exact hnone _ hbreaks

/-- The communities in the normal form of a document have a field for each of those built in. -/
theorem communities_of_clean {v : Value} (h : (walk none document v "").2 = []) :
    ∃ es, ((walk none document v "").1.getD "cfg").getD "communities" =
      .mapping (named ((kept communitiesFields).map fun f => (f.name, f.normal none es))) := by
  let cfg : Field := ⟨"cfg", .record fields, .required⟩
  let communities : Field := .ofParts "communities" communitiesFields
  have hcfg : cfg ∈ kept document := List.mem_cons_self
  have hcommunities : communities ∈ kept fields := by
    simp [communities, kept, fields, Kind.isDiscarded, Field.ofParts]
  obtain ⟨es, hes, haccepts⟩ :=
    exists_sectionEntries ((walk_clean_iff none (.record document) v "").1 h)
  obtain ⟨w, hw, hwaccepts⟩ := given_of_accepts rfl rfl (haccepts cfg (List.mem_filter.1 hcfg).1)
  obtain ⟨ws, hws, hparts⟩ := exists_sectionEntries hwaccepts
  obtain ⟨us, hus, -⟩ := exists_sectionEntries
    (accepts_ofParts (hparts communities (List.mem_filter.1 hcommunities).1))
  have hcfgValue : (walk none document v "").1.getD "cfg" = (Kind.record fields).normal none w := by
    rw [walk, walk_fst none (.record document) v "" h]
    have hvalue : ((Kind.record document).normal none v).getD cfg.name = cfg.normal none es :=
      getD_normal (by decide) hes hcfg
    rw [Field.normal, hw] at hvalue
    exact hvalue
  refine ⟨us, ?_⟩
  rw [hcfgValue, show "communities" = communities.name from rfl,
    getD_normal nodup_fields hws hcommunities, normal_ofParts]
  exact normal_record nodup_communitiesFields hus

variable {v : Value} {g : General}

/-- The encodings of an accepted configuration stand in its document. -/
theorem encodingAt_of_accept (h : acceptGeneral v = .ok g) {name : String} {c : Community}
    (hc : g.communities.get? name = some c) {kind : Community.Encoding} {text : String}
    (htext : c.encoding kind = some text) :
    ∃ d ∈ Community.builtin, d.name = name ∧
      encodingAt (walk none document v "").1 d kind = some text := by
  obtain ⟨hclean, -, hdecode⟩ := accept_eq_ok.1 h
  obtain ⟨-, hcommunities⟩ := of_ofValue hdecode
  obtain ⟨es, hes⟩ := communities_of_clean hclean
  rw [hes] at hcommunities
  have hnodup : (((kept communitiesFields).map fun f => (f.name, f.normal none es)).map
      (·.1)).Nodup := nodup_normals nodup_communitiesFields
  obtain ⟨u, hu, hdecodeu⟩ := (Decoded.get?_dictionary_iff hnodup hcommunities).1 hc
  obtain ⟨f, hf, heq⟩ := List.mem_map.1 hu
  obtain ⟨d, hd, rfl⟩ := List.mem_map.1 (List.mem_filter.1 hf).1
  have hname : d.name = name := congrArg Prod.fst heq
  refine ⟨d, hd, hname, ?_⟩
  have hencoding := Community.of_ofValue hdecodeu kind
  rw [htext] at hencoding
  rcases Decoded.optional_eq_ok hencoding with ⟨-, hnone⟩ | ⟨s, hs, hsome⟩
  · cases hnone
  · cases hsome
    rw [encodingAt, hes, hname, getD_named hnodup hu, Decoded.string_eq_ok.1 hs]
    rfl

/-- **Encodings.**  No text is used twice in an accepted configuration.  So two encodings that
denote the same are spelled differently, and one of them has a sign or zeros in front of a
number. -/
theorem encodings_differ {files : Files.Tree} {s : Source} (h : loadGeneral files s = .ok g)
    {name₁ name₂ : String} {kind₁ kind₂ : Community.Encoding}
    (hne : (name₁, kind₁) ≠ (name₂, kind₂)) {c₁ c₂ : Community}
    (hc₁ : g.communities.get? name₁ = some c₁) (hc₂ : g.communities.get? name₂ = some c₂)
    {text₁ text₂ : String} (htext₁ : c₁.encoding kind₁ = some text₁)
    (htext₂ : c₂.encoding kind₂ = some text₂) :
    text₁ ≠ text₂ ∧ (Community.components text₁ = Community.components text₂ →
      Community.HasFilled text₁ ∨ Community.HasFilled text₂) := by
  obtain ⟨v, hread, haccept⟩ := Decoded.bind_eq_ok.1 h
  obtain ⟨-, hcross, -⟩ := accept_eq_ok.1 haccept
  obtain ⟨d₁, hd₁, hname₁, hat₁⟩ := encodingAt_of_accept haccept hc₁ htext₁
  obtain ⟨d₂, hd₂, hname₂, hat₂⟩ := encodingAt_of_accept haccept hc₂ htext₂
  have hentries : ((encodingPath d₁ kind₁, d₁, text₁) : Encoded) ≠
      (encodingPath d₂ kind₂, d₂, text₂) := by
    intro heq
    obtain ⟨hpath, hrest⟩ := Prod.mk.inj heq
    obtain rfl : d₁ = d₂ := (Prod.mk.inj hrest).1
    refine hne (Prod.ext (hname₁.symm.trans hname₂) ?_)
    exact encodingPath_injective d₁ hpath
  have htexts : text₁ ≠ text₂ := text_ne_of_crossCheck hcross
    (mem_encodings.2 ⟨hd₁, kind₁, rfl, hat₁⟩) (mem_encodings.2 ⟨hd₂, kind₂, rfl, hat₂⟩) hentries
  refine ⟨htexts, fun hsame => ?_⟩
  exact (Community.components_inj hsame).resolve_left htexts

/-! ### Two spellings of one community -/

/-- A configuration with two communities. -/
def pairGeneral (valid invalid : String) : Value :=
  .ofFields [("cfg", .ofFields
    [("rs_as", .nat 64500), ("router_id", .string "192.0.2.1"),
     ("communities", .ofFields
       [("roa_valid", .ofFields [("std", .string valid)]),
        ("roa_invalid", .ofFields [("std", .string invalid)])])])]

/-- A community and the same one with a zero in front of a number are accepted side by side. -/
theorem exists_loadGeneral_pair :
    ∃ g c₁ c₂, loadGeneral {} (.value (pairGeneral "64500:1" "64500:01")) = .ok g ∧
      g.communities.get? "roa_valid" = some c₁ ∧ g.communities.get? "roa_invalid" = some c₂ ∧
      c₁.encoding .std = some "64500:1" ∧ c₂.encoding .std = some "64500:01" := by
  have hrun : (loadGeneral {} (.value (pairGeneral "64500:1" "64500:01"))).toOption.any fun g =>
      ((g.communities.get? "roa_valid").any fun c => c.encoding .std = some "64500:1") &&
      (g.communities.get? "roa_invalid").any fun c => c.encoding .std = some "64500:01" := by
    decide +kernel
  cases hload : loadGeneral {} (.value (pairGeneral "64500:1" "64500:01")) with
  | error fault =>
      rw [hload] at hrun
      cases hrun
  | ok g =>
      rw [hload] at hrun
      obtain ⟨hvalid, hinvalid⟩ := Bool.and_eq_true_iff.1 hrun
      obtain ⟨c₁, hc₁, htext₁⟩ := (Option.any_eq_true _ _).1 hvalid
      obtain ⟨c₂, hc₂, htext₂⟩ := (Option.any_eq_true _ _).1 hinvalid
      exact ⟨g, c₁, c₂, rfl, hc₁, hc₂, of_decide_eq_true htext₁, of_decide_eq_true htext₂⟩

theorem encodings_differ_pair :
    ∃ g, loadGeneral {} (.value (pairGeneral "64500:1" "64500:01")) = .ok g ∧
      "64500:1" ≠ "64500:01" ∧
      (Community.HasFilled "64500:1" ∨ Community.HasFilled "64500:01") := by
  obtain ⟨g, c₁, c₂, hload, hc₁, hc₂, htext₁, htext₂⟩ := exists_loadGeneral_pair
  have hne : ("roa_valid", Community.Encoding.std) ≠ ("roa_invalid", Community.Encoding.std) := by
    decide
  obtain ⟨htexts, hfilled⟩ := encodings_differ hload hne hc₁ hc₂ htext₁ htext₂
  exact ⟨g, hload, htexts, hfilled (by decide)⟩

/-- Accepted encodings of different communities may denote the same. -/
theorem not_components_ne :
    ¬ ∀ (files : Files.Tree) (s : Source) (g : General) (name₁ name₂ : String)
      (kind : Community.Encoding) (c₁ c₂ : Community) (text₁ text₂ : String),
      loadGeneral files s = .ok g → name₁ ≠ name₂ → g.communities.get? name₁ = some c₁ →
      g.communities.get? name₂ = some c₂ → c₁.encoding kind = some text₁ →
      c₂.encoding kind = some text₂ →
        Community.components text₁ ≠ Community.components text₂ := by
  intro h
  obtain ⟨g, c₁, c₂, hload, hc₁, hc₂, htext₁, htext₂⟩ := exists_loadGeneral_pair
  exact h {} _ g _ _ .std c₁ c₂ _ _ hload (by decide) hc₁ hc₂ htext₁ htext₂ (by decide)

end General

end RouteServer.Policy

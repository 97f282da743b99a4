import Mathlib.Data.List.Perm.Basic
import RouteServer.Policy.Configuration
import RouteServer.Proofs.Policy.Encodings
import RouteServer.Proofs.Policy.Steady

/-!
# Policy — what a general configuration satisfies

A general configuration that a document gives is valid (`General.IsValid`): its numbers are within
their bounds, its ranges are in order, a policy that replaces next hops has one to put there, and it
has the built-in communities and no others, each with encodings of its kind, the macro for peers
just where it belongs, and no text used twice.

The bounds come from the kinds of the fields.  They are read off the normal form, of which it does
not matter any more what was given and what stood in for it, as it is settled
(`bounds_of_settled`, `filtering_of_settled`).  What concerns several fields comes from the
cross-checks.  Putting the documents together gives every community its direction and its use of
the macro, whatever stood there, and keeps the rest (`isValid_of_loadGeneral`).
-/

namespace RouteServer.Policy

open RouteServer.Net RouteServer.Schema RouteServer.Text RouteServer.Yaml

/-- What holds of the general configurations that documents give. -/
structure General.IsValid (g : General) : Prop where
  lengths : ∀ f, (g.filtering.lengths f).min ≤ (g.filtering.lengths f).max ∧
    (g.filtering.lengths f).max.toNat ≤ f.width
  pathLength : 1 ≤ g.filtering.maxAsPathLen.toNat ∧ g.filtering.maxAsPathLen.toNat ≤ 64
  limits : ∀ f, 1 ≤ (g.filtering.maxPrefix.generalLimit f).toNat
  rsAs : 1 ≤ g.rsAs.toNat
  transitFree : ∀ n ∈ g.filtering.transitFree.asns, 1 ≤ n.toNat
  /-- Where next hops are replaced, there is one to put there. -/
  nextHop : ∀ f, g.blackhole.HasNextHop f
  /-- The communities are those built in. -/
  names : g.communities.keys.Perm (Community.builtin.map Community.Definition.name)
  /-- Encodings are of their kind. -/
  encoding : ∀ {name c}, g.communities.get? name = some c → ∀ {kind text},
    c.encoding kind = some text → Community.check kind text = .ok text
  /-- The macro for peers ends the encodings of the communities that name one. -/
  peerMacro : ∀ {d}, d ∈ Community.builtin → ∀ {c}, g.communities.get? d.name = some c →
    ∀ {kind text}, c.encoding kind = some text →
      ((":" ++ Community.peerMacro).toList <:+ text.toList ↔ d.peerAs = true)
  /-- No text is used twice. -/
  once : ∀ {name₁ name₂ c₁ c₂}, g.communities.get? name₁ = some c₁ →
    g.communities.get? name₂ = some c₂ → ∀ {kind₁ kind₂ text}, c₁.encoding kind₁ = some text →
      c₂.encoding kind₂ = some text → name₁ = name₂ ∧ kind₁ = kind₂

namespace General

variable {v : Value}

/-! ### Bounds -/

theorem natural_of_settled {parent : Option Value} {least greatest n : Nat}
    (h : (Kind.natural least greatest).Settled parent v) (hn : v.natural? = some n) :
    least ≤ n ∧ n ≤ greatest := by
  obtain ⟨m, hm, hleast, hgreatest⟩ := accepts_natural_iff.1 h.accepts
  obtain rfl := Option.some.inj (hm.symm.trans hn)
  exact ⟨hleast, hgreatest⟩

theorem pos_of_settled_asn {parent : Option Value} {n : Asn} (h : Kind.asn.Settled parent v)
    (hn : v.natural? = some n.toNat) : 0 < n.toNat := by
  obtain ⟨m, hm⟩ := accepts_asn_iff.1 h.accepts
  have hnormal := h.normal_eq
  rw [Kind.normal, hm] at hnormal
  have hsame : some m.toNat = some n.toNat := by
    rw [← hn, ← hnormal]
    rfl
  exact Option.some.inj hsame ▸ pos_of_asn? hm

theorem bounds_of_settled {width min max : Nat} {r : LengthRange}
    (h : (Kind.record (lengthFields width min max)).Settled none v)
    (hr : LengthRange.ofValue v = .ok r) : r.max.toNat ≤ width := by
  have hmax := h.field (f := ⟨"max", .natural 0 width, .natural max⟩) (by simp [lengthFields])
    (by simp [lengthFields]) rfl rfl
  exact (natural_of_settled hmax (Decoded.uint8_eq_ok (LengthRange.of_ofValue hr).2)).2

theorem limits_of_settled {p : MaxPrefixPolicy}
    (h : (Kind.record maxPrefixFields).Settled none v) (hp : MaxPrefixPolicy.ofValue v = .ok p) :
    1 ≤ p.generalLimitV4.toNat ∧ 1 ≤ p.generalLimitV6.toNat := by
  obtain ⟨hv4, hv6⟩ := MaxPrefixPolicy.of_ofValue hp
  have hlimitV4 := h.field (f := ⟨"general_limit_ipv4", limitKind, .natural 170000⟩) (by decide)
    (by simp [maxPrefixFields]) rfl rfl
  have hlimitV6 := h.field (f := ⟨"general_limit_ipv6", limitKind, .natural 12000⟩) (by decide)
    (by simp [maxPrefixFields]) rfl rfl
  exact ⟨(natural_of_settled hlimitV4 (Decoded.uint32_eq_ok hv4)).1,
    (natural_of_settled hlimitV6 (Decoded.uint32_eq_ok hv6)).1⟩

theorem asns_of_settled {t : TransitFree} (h : (Kind.record transitFreeFields).Settled none v)
    (ht : TransitFree.ofValue v = .ok t) : ∀ n ∈ t.asns, 1 ≤ n.toNat := by
  intro n hn
  have hasns := h.field (f := ⟨"asns", .list .asn, .emptyList⟩) (by decide)
    (by simp [transitFreeFields]) rfl rfl
  obtain ⟨xs, hxs, hall⟩ := Decoded.list_eq_ok.1 (TransitFree.of_ofValue ht)
  rw [hxs] at hasns
  obtain ⟨x, hx, hread⟩ := Decoded.exists_of_forall₂ hall hn
  exact pos_of_settled_asn (hasns.items x hx) (Decoded.uint32_eq_ok hread)

/-- What is filtered is within its bounds. -/
structure Bounds (f : Filtering) : Prop where
  lengthsV4 : f.lengthsV4.max.toNat ≤ 32
  lengthsV6 : f.lengthsV6.max.toNat ≤ 128
  pathLength : 1 ≤ f.maxAsPathLen.toNat ∧ f.maxAsPathLen.toNat ≤ 64
  limits : 1 ≤ f.maxPrefix.generalLimitV4.toNat ∧ 1 ≤ f.maxPrefix.generalLimitV6.toNat
  transitFree : ∀ n ∈ f.transitFree.asns, 1 ≤ n.toNat

theorem filtering_of_settled {f : Filtering} (h : (Kind.record filteringFields).Settled none v)
    (hf : Filtering.ofValue v = .ok f) : Bounds f := by
  obtain ⟨hv4, hv6, hlength, htransitFree, hmaxPrefix⟩ := Filtering.of_ofValue hf
  have hnames : (filteringFields.map Field.name).Nodup := by decide
  constructor
  · exact bounds_of_settled (h.field (f := .ofParts "ipv4_pref_len" (lengthFields 32 8 24)) hnames
      (by simp [filteringFields]) rfl rfl) hv4
  · exact bounds_of_settled (h.field (f := .ofParts "ipv6_pref_len" (lengthFields 128 12 48)) hnames
      (by simp [filteringFields]) rfl rfl) hv6
  · exact natural_of_settled (h.field (f := ⟨"max_as_path_len", .natural 1 64, .natural 32⟩) hnames
      (by simp [filteringFields]) rfl rfl) (Decoded.uint8_eq_ok hlength)
  · exact limits_of_settled (h.field (f := .ofParts "max_prefix" maxPrefixFields) hnames
      (by simp [filteringFields]) rfl rfl) hmaxPrefix
  · exact asns_of_settled (h.field (f := .ofParts "transit_free" transitFreeFields) hnames
      (by simp [filteringFields]) rfl rfl) htransitFree

/-! ### Constraints between fields -/

/-- Ranges in which the cross-checks find nothing are in order. -/
theorem min_le_max {doc : Value} (hcross : crossCheck doc = []) {name : String}
    (hname : name ∈ rangeNames) {r : LengthRange}
    (hr : LengthRange.ofValue (((doc.getD "cfg").getD "filtering").getD name) = .ok r) :
    r.min ≤ r.max := by
  obtain ⟨hmin, hmax⟩ := LengthRange.of_ofValue hr
  by_contra hnot
  have hreversed : IsReversed (((doc.getD "cfg").getD "filtering").getD name) :=
    ⟨_, _, Decoded.uint8_eq_ok hmin, Decoded.uint8_eq_ok hmax, UInt8.not_le.1 hnot⟩
  have hfound := mem_crossCheck.2 (.range hname hreversed)
  rw [hcross] at hfound
  cases hfound

theorem nodup_builtin : (Community.builtin.map Community.Definition.name).Nodup := by decide

theorem eq_of_name_eq {d e : Community.Definition} (hd : d ∈ Community.builtin)
    (he : e ∈ Community.builtin) (h : d.name = e.name) : d = e :=
  List.inj_on_of_nodup_map nodup_builtin hd he h

theorem check_of_checkParts {kind : Community.Encoding} {text : String}
    (h : Community.checkParts kind (pieces ':' text) = .ok ()) :
    Community.check kind text = .ok text := by
  rw [Community.check, h]

section

variable {g : General}

/-- The communities of an accepted configuration are those built in. -/
theorem names_of_accept (h : acceptGeneral v = .ok g) :
    g.communities.keys.Perm (Community.builtin.map Community.Definition.name) := by
  obtain ⟨hclean, -, hdecode⟩ := accept_eq_ok.1 h
  obtain ⟨es, hes⟩ := communities_of_clean hclean
  have hcommunities := (of_ofValue hdecode).2
  rw [hes] at hcommunities
  have hfields : (kept communitiesFields).map Field.name =
      Community.builtin.map Community.Definition.name := by decide
  refine (List.perm_ext_iff_of_nodup g.communities.keys_nodup nodup_builtin).2 fun name => ?_
  rw [Decoded.mem_keys_dictionary hcommunities, List.map_map, ← hfields]
  rfl

theorem peerMacro_of_accept (h : acceptGeneral v = .ok g) {d : Community.Definition}
    (hd : d ∈ Community.builtin) {c : Community} (hc : g.communities.get? d.name = some c)
    {kind : Community.Encoding} {text : String} (htext : c.encoding kind = some text) :
    (":" ++ Community.peerMacro).toList <:+ text.toList ↔ d.peerAs = true := by
  obtain ⟨-, hcross, -⟩ := accept_eq_ok.1 h
  obtain ⟨e, he, hname, hat⟩ := encodingAt_of_accept h hc htext
  obtain rfl : e = d := eq_of_name_eq he hd hname
  have hmacro : Community.namesPeer text = e.peerAs := by
    by_contra hnot
    have hfound := mem_crossCheck.2 (.peerMacro he hat hnot)
    rw [hcross] at hfound
    cases hfound
  rw [← endsWith_iff, ← hmacro]
  rfl

theorem once_of_accept (h : acceptGeneral v = .ok g) {name₁ name₂ : String} {c₁ c₂ : Community}
    (hc₁ : g.communities.get? name₁ = some c₁) (hc₂ : g.communities.get? name₂ = some c₂)
    {kind₁ kind₂ : Community.Encoding} {text : String} (htext₁ : c₁.encoding kind₁ = some text)
    (htext₂ : c₂.encoding kind₂ = some text) : name₁ = name₂ ∧ kind₁ = kind₂ := by
  obtain ⟨-, hcross, -⟩ := accept_eq_ok.1 h
  obtain ⟨d₁, hd₁, rfl, hat₁⟩ := encodingAt_of_accept h hc₁ htext₁
  obtain ⟨d₂, hd₂, rfl, hat₂⟩ := encodingAt_of_accept h hc₂ htext₂
  by_contra hne
  have hentries : ((encodingPath d₁ kind₁, d₁, text) : Encoded) ≠
      (encodingPath d₂ kind₂, d₂, text) := by
    intro heq
    obtain ⟨hpath, hrest⟩ := Prod.mk.inj heq
    obtain rfl : d₁ = d₂ := (Prod.mk.inj hrest).1
    exact hne ⟨rfl, encodingPath_injective d₁ hpath⟩
  exact text_ne_of_crossCheck hcross (mem_encodings.2 ⟨hd₁, kind₁, rfl, hat₁⟩)
    (mem_encodings.2 ⟨hd₂, kind₂, rfl, hat₂⟩) hentries rfl

/-- The normal form of an accepted document is settled. -/
theorem settled_of_accept (h : acceptGeneral v = .ok g) :
    (Kind.record fields).Settled none ((walk none document v "").1.getD "cfg") := by
  obtain ⟨hclean, -, -⟩ := accept_eq_ok.1 h
  have hwalk : (Kind.record document).Normalizes none v (walk none document v "").1 :=
    (normalizes_iff_walk "").2 (Prod.ext rfl hclean)
  exact (steady_document v _ hwalk).field (f := ⟨"cfg", .record fields, .required⟩) (by decide)
    (by simp [document]) rfl rfl

/-- **What is accepted is valid.** -/
theorem isValid_of_accept (h : acceptGeneral v = .ok g) : g.IsValid := by
  obtain ⟨-, hcross, hdecode⟩ := accept_eq_ok.1 h
  obtain ⟨hrsAs, hfiltering⟩ := filtering_of_ofValue hdecode
  obtain ⟨hv4, hv6, -, -, -⟩ := Filtering.of_ofValue hfiltering
  have hsettled := settled_of_accept h
  have hbounds := filtering_of_settled (hsettled.field (f := .ofParts "filtering" filteringFields)
    nodup_fields (by simp [fields]) rfl rfl) hfiltering
  have hsound := sound_of_accept h
  constructor
  case lengths =>
      rintro (_ | _)
      · exact ⟨min_le_max hcross (by decide) hv4, hbounds.lengthsV4⟩
      · exact ⟨min_le_max hcross (by decide) hv6, hbounds.lengthsV6⟩
  case pathLength => exact hbounds.pathLength
  case limits =>
      rintro (_ | _)
      · exact hbounds.limits.1
      · exact hbounds.limits.2
  case rsAs =>
      have hasn := hsettled.field (f := ⟨"rs_as", .asn, .required⟩) nodup_fields (by simp [fields])
        rfl rfl
      exact pos_of_settled_asn hasn (Decoded.uint32_eq_ok hrsAs)
  case transitFree => exact hbounds.transitFree
  case nextHop => exact hsound.nextHop
  case names => exact names_of_accept h
  case encoding =>
      exact fun hc _ _ htext => check_of_checkParts (hsound.encoding hc htext)
  case peerMacro => exact fun hd _ hc _ _ htext => peerMacro_of_accept h hd hc htext
  case once => exact fun hc₁ hc₂ _ _ _ htext₁ htext₂ => once_of_accept h hc₁ hc₂ htext₁ htext₂

end

/-! ### Putting the documents together -/

namespace IsValid

variable {g : General}

/-- A built-in community is there. -/
theorem exists_get? (h : g.IsValid) {d : Community.Definition} (hd : d ∈ Community.builtin) :
    ∃ c, g.communities.get? d.name = some c := by
  have hkey : d.name ∈ g.communities.keys :=
    h.names.mem_iff.2 (List.mem_map_of_mem (f := Community.Definition.name) hd)
  exact Option.isSome_iff_exists.1 (Dictionary.contains_iff.2 hkey)

/-- Every community that is there is built in. -/
theorem exists_definition (h : g.IsValid) {name : String} {c : Community}
    (hc : g.communities.get? name = some c) : ∃ d ∈ Community.builtin, d.name = name := by
  have hkey : name ∈ g.communities.keys :=
    Dictionary.contains_iff.1 (Option.isSome_iff_exists.2 ⟨c, hc⟩)
  exact List.mem_map.1 (h.names.mem_iff.1 hkey)

/-- A built-in community gets what is fixed about it, and keeps its encodings. -/
theorem get?_defineCommunities {d : Community.Definition} (hd : d ∈ Community.builtin)
    {c : Community} (hc : g.communities.get? d.name = some c) :
    g.defineCommunities.communities.get? d.name = some (c.define d) := by
  have hfind : Community.builtin.find? (·.name = d.name) = some d := by
    have hsome : (Community.builtin.find? (·.name = d.name)).isSome :=
      List.find?_isSome.2 ⟨d, hd, decide_eq_true rfl⟩
    obtain ⟨e, he⟩ := Option.isSome_iff_exists.1 hsome
    have hname : e.name = d.name := by simpa using List.find?_some he
    rw [he, eq_of_name_eq (List.mem_of_find?_eq_some he) hd hname]
  rw [General.get?_defineCommunities, hfind, hc, Option.getD_some]

theorem names_defineCommunities (h : g.IsValid) :
    g.defineCommunities.communities.keys.Perm
      (Community.builtin.map Community.Definition.name) := by
  refine (List.perm_ext_iff_of_nodup (Dictionary.keys_nodup _) nodup_builtin).2 fun name => ?_
  rw [← Dictionary.contains_iff]
  constructor
  · intro hthere
    obtain ⟨c, hc⟩ := Option.isSome_iff_exists.1 hthere
    rw [General.get?_defineCommunities] at hc
    split at hc
    case h_1 d hd =>
        have hname : d.name = name := by simpa using List.find?_some hd
        exact List.mem_map.2 ⟨d, List.mem_of_find?_eq_some hd, hname⟩
    case h_2 => exact List.mem_map.2 (h.exists_definition hc)
  · exact isSome_defineCommunities g

theorem defineCommunities (h : g.IsValid) : g.defineCommunities.IsValid := by
  have hfiltering : g.defineCommunities.filtering = g.filtering := by rw [General.defineCommunities]
  have hrsAs : g.defineCommunities.rsAs = g.rsAs := by rw [General.defineCommunities]
  constructor
  case lengths =>
      rw [hfiltering]
      exact h.lengths
  case pathLength =>
      rw [hfiltering]
      exact h.pathLength
  case limits =>
      rw [hfiltering]
      exact h.limits
  case rsAs =>
      rw [hrsAs]
      exact h.rsAs
  case transitFree =>
      rw [hfiltering]
      exact h.transitFree
  case nextHop =>
      rw [blackhole_defineCommunities]
      exact h.nextHop
  case names => exact h.names_defineCommunities
  case encoding =>
      intro name c hc kind text htext
      obtain ⟨c', hc', htext'⟩ := encoding_of_defineCommunities hc htext
      exact h.encoding hc' htext'
  case peerMacro =>
      intro d hd c hc kind text htext
      obtain ⟨c', hc', htext'⟩ := encoding_of_defineCommunities hc htext
      exact h.peerMacro hd hc' htext'
  case once =>
      intro name₁ name₂ c₁ c₂ hc₁ hc₂ kind₁ kind₂ text htext₁ htext₂
      obtain ⟨c₁', hc₁', htext₁'⟩ := encoding_of_defineCommunities hc₁ htext₁
      obtain ⟨c₂', hc₂', htext₂'⟩ := encoding_of_defineCommunities hc₂ htext₂
      exact h.once hc₁' hc₂' htext₁' htext₂'

end IsValid

/-- **Validity.**  A general configuration that is loaded is valid, and stays so when the documents
are put together; then every built-in community has its direction and its use of the macro, and the
encodings that were given. -/
theorem isValid_of_loadGeneral {files : Files.Tree} {s : Source} {g : General}
    (h : loadGeneral files s = .ok g) :
    g.IsValid ∧ ∀ bogons asns clients roas,
      (Configuration.derive g bogons asns clients roas).general.IsValid ∧
      ∀ d ∈ Community.builtin, ∃ c, g.communities.get? d.name = some c ∧
        (Configuration.derive g bogons asns clients roas).general.communities.get? d.name =
          some { c with direction := d.direction, peerAs := d.peerAs } := by
  obtain ⟨v, -, haccept⟩ := Decoded.bind_eq_ok.1 h
  have hvalid := isValid_of_accept haccept
  refine ⟨hvalid, fun bogons asns clients roas => ⟨hvalid.defineCommunities, fun d hd => ?_⟩⟩
  obtain ⟨c, hc⟩ := hvalid.exists_get? hd
  exact ⟨c, hc, IsValid.get?_defineCommunities hd hc⟩

/-- A configuration that gives a part of a range, a next hop and two communities. -/
def guardedGeneral : Value :=
  .ofFields [("cfg", .ofFields
    [("rs_as", .string "AS64500"), ("router_id", .string "192.0.2.1"),
     ("filtering", .ofFields
       [("ipv4_pref_len", .ofFields [("max", .nat 28)]),
        ("transit_free", .ofFields [("asns", .list [.nat 174])])]),
     ("blackhole_filtering", .ofFields
       [("policy_ipv4", .string "rewrite-next-hop"),
        ("rewrite_next_hop_ipv4", .string "192.0.2.66")]),
     ("communities", .ofFields
       [("blackholing", .ofFields [("std", .string "65535:666")]),
        ("announce_to_peer", .ofFields [("type", .string "outbound"),
          ("lrg", .string "64500:1:peer_as")])])])]

theorem exists_loadGeneral_guarded : ∃ g, loadGeneral {} (.value guardedGeneral) = .ok g := by
  have hrun : (loadGeneral {} (.value guardedGeneral)).toOption.isSome := by decide +kernel
  cases hload : loadGeneral {} (.value guardedGeneral) with
  | error fault =>
      rw [hload] at hrun
      cases hrun
  | ok g => exact ⟨g, rfl⟩

theorem isValid_of_loadGeneral_guarded :
    ∃ g c, loadGeneral {} (.value guardedGeneral) = .ok g ∧ g.IsValid ∧
      g.communities.get? "announce_to_peer" = some c ∧
      (Configuration.derive g [] .empty [] none).general.communities.get? "announce_to_peer" =
        some { c with direction := .inbound, peerAs := true } := by
  obtain ⟨g, hload⟩ := exists_loadGeneral_guarded
  obtain ⟨hvalid, hderive⟩ := isValid_of_loadGeneral hload
  obtain ⟨c, hc, hdefined⟩ := (hderive [] .empty [] none).2 ⟨"announce_to_peer", .inbound, true⟩
    (by decide)
  exact ⟨g, c, hload, hvalid, hc, hdefined⟩

end General

end RouteServer.Policy

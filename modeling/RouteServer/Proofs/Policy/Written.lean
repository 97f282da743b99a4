import Mathlib.Data.List.Flatten
import RouteServer.Proofs.Policy.Readable
import RouteServer.Proofs.Policy.Validated

/-!
# Policy — a general configuration is read back

A general configuration is written the way documents give it, with every field present.  A valid one
is written inside the language of its schema, where all but the communities are in normal form
already, and the cross-checks find nothing in it.  So the document that it makes is loaded again
(`General.IsValid.acceptGeneral_toValue`).

**What comes back** is the configuration, but for the direction of the communities and their use of
the macro for peers: these are written and not read.  A document does not give them, so a
configuration that has been loaded comes back as it was, also after they have been filled in
(`General.loadGeneral_toValue`).  As the configurations that are loaded are valid, they are exactly
the valid ones without these (`General.exists_loadGeneral_iff`).
-/

namespace RouteServer.Policy

open RouteServer.Net RouteServer.Schema RouteServer.Text RouteServer.Yaml

/-! ### Readers and writers -/

/-- What is written is read back. -/
def IsReadBack {α : Type} (write : α → Value) (read : Value → Decoded α) : Prop :=
  ∀ x, read (write x) = .ok x

section

variable {α : Type} {write : α → Value} {read : Value → Decoded α}

theorem isReadBack_uint8 : IsReadBack uint8Value Decoded.uint8 := fun n => by
  have hlt : n.toNat < 256 := n.toNat_lt
  simp [Decoded.uint8, Decoded.natural, uint8Value, Value.nat, Value.natural?, Value.untagged,
    Number.ofNat, Number.natural?, Decoded.require, bind, Except.bind, hlt]

theorem isReadBack_uint32 : IsReadBack uint32Value Decoded.uint32 := fun n => by
  have hlt : n.toNat < 4294967296 := n.toNat_lt
  simp [Decoded.uint32, Decoded.natural, uint32Value, Value.nat, Value.natural?, Value.untagged,
    Number.ofNat, Number.natural?, Decoded.require, bind, Except.bind, hlt]

theorem isReadBack_ipv4 : IsReadBack (fun a => .string (Address.v4Text a)) Decoded.ipv4 :=
  fun a => by
    have haddress : Decoded.address (.string (Address.v4Text a)) = .ok (.v4 a) :=
      reads_address (.v4 a)
    rw [Decoded.ipv4, haddress]
    rfl

theorem isReadBack_ipv6 : IsReadBack (fun a => .string (Address.v6Text a)) Decoded.ipv6 :=
  fun a => by
    have haddress : Decoded.address (.string (Address.v6Text a)) = .ok (.v6 a) :=
      reads_address (.v6 a)
    rw [Decoded.ipv6, haddress]
    rfl

theorem IsReadBack.list (h : IsReadBack write read) :
    IsReadBack (fun xs => .list (xs.map write)) (Decoded.list read) := fun xs => by
  refine Decoded.list_eq_ok.2 ⟨_, rfl, List.forall₂_map_left_iff.2 ?_⟩
  exact List.forall₂_same.2 fun x _ => h x

/-- Null is read as nothing. -/
theorem IsReadBack.optional (h : IsReadBack write read) (hnull : ∀ x, (write x).isNull = false) :
    IsReadBack (optionValue write) (Decoded.optional read) := by
  rintro (_ | x)
  · rfl
  · have hsome : Decoded.optional read (write x) = (read (write x)).map some := by
      unfold Decoded.optional
      split
      case h_1 hw =>
        have hx := hnull x
        rw [hw] at hx
        cases hx
      case h_2 => rfl
    exact hsome.trans (by rw [h x]; rfl)

theorem isReadBack_maxPrefixAction :
    IsReadBack (fun a => .string (MaxPrefixAction.text a)) MaxPrefixAction.ofValue := by
  rintro (_ | _ | _ | _) <;> rfl

theorem isReadBack_blackholePolicy :
    IsReadBack (fun p => .string (BlackholePolicy.text p)) BlackholePolicy.ofValue := by
  rintro (_ | _) <;> rfl

theorem isReadBack_nextHopPolicy :
    IsReadBack (fun p => .string (NextHopPolicy.text p)) NextHopPolicy.ofValue := by
  rintro (_ | _) <;> rfl

theorem isReadBack_transitFreeAction :
    IsReadBack (fun a => .string (TransitFreeAction.text a)) TransitFreeAction.ofValue := by
  rintro (_ | _ | _) <;> rfl

end

/-! ### Sections -/

section

open Decoded

theorem LengthRange.isReadBack : IsReadBack toValue ofValue := fun r => by
  simp only [ofValue, bind_eq_ok, field]
  exact ⟨_, isReadBack_uint8 r.min, _, isReadBack_uint8 r.max, rfl⟩

theorem TransitFree.isReadBack : IsReadBack toValue ofValue := fun t => by
  simp only [ofValue, bind_eq_ok, field]
  exact ⟨_, isReadBack_transitFreeAction t.action, _, isReadBack_uint32.list t.asns, rfl⟩

theorem IrrPolicy.isReadBack : IsReadBack toValue ofValue := fun p => by
  simp only [ofValue, bind_eq_ok, field]
  exact ⟨p.enforceOrigin, rfl, p.enforcePrefix, rfl, p.tagAsSet, rfl, rfl⟩

theorem RpkiPolicy.isReadBack : IsReadBack toValue ofValue := fun p => by
  simp only [ofValue, bind_eq_ok, field]
  exact ⟨p.enabled, rfl, p.rejectInvalid, rfl, rfl⟩

theorem MaxPrefixPolicy.isReadBack : IsReadBack toValue ofValue := fun p => by
  simp only [ofValue, bind_eq_ok, field]
  exact ⟨p.peeringDb, rfl, _, isReadBack_uint32 p.generalLimitV4, _,
    isReadBack_uint32 p.generalLimitV6, _,
    isReadBack_maxPrefixAction.optional (fun _ => rfl) p.action, rfl⟩

theorem Filtering.isReadBack : IsReadBack toValue ofValue := fun f => by
  simp only [ofValue, bind_eq_ok, field]
  exact ⟨_, isReadBack_nextHopPolicy f.nextHopPolicy, _, LengthRange.isReadBack f.lengthsV4, _,
    LengthRange.isReadBack f.lengthsV6, _, isReadBack_uint8 f.maxAsPathLen, f.rejectInvalidAs, rfl,
    _, TransitFree.isReadBack f.transitFree, _, IrrPolicy.isReadBack f.irr, _,
    RpkiPolicy.isReadBack f.rpki, _, MaxPrefixPolicy.isReadBack f.maxPrefix, rfl⟩

theorem Blackhole.isReadBack : IsReadBack toValue ofValue := fun b => by
  simp only [ofValue, bind_eq_ok, field]
  exact ⟨_, isReadBack_blackholePolicy.optional (fun _ => rfl) b.policyV4, _,
    isReadBack_blackholePolicy.optional (fun _ => rfl) b.policyV6, _,
    isReadBack_ipv4.optional (fun _ => rfl) b.nextHopV4, _,
    isReadBack_ipv6.optional (fun _ => rfl) b.nextHopV6, b.announceToClient, rfl, b.addNoExport, rfl, rfl⟩

end

/-! ### What is written is of its kind -/

namespace General

section

variable {parent : Option Value}

theorem settled_uint8 {least greatest : Nat} {n : UInt8} (hleast : least ≤ n.toNat)
    (hgreatest : n.toNat ≤ greatest) :
    (Kind.natural least greatest).Settled parent (uint8Value n) :=
  settled_natural hleast hgreatest

theorem settled_limit {n : UInt32} (h : 1 ≤ n.toNat) : limitKind.Settled parent (uint32Value n) :=
  settled_natural h (Nat.le_of_lt_succ n.toNat_lt)

/-- The text of a choice is one of the choices. -/
theorem settled_choice {α : Type} {all : List α} {text : α → String} {x : α} (h : x ∈ all) :
    (Kind.oneOf (all.map text)).Settled parent (.string (text x)) :=
  settled_oneOf (List.mem_map_of_mem h)

theorem settled_maxPrefixAction (a : MaxPrefixAction) :
    maxPrefixActionKind.Settled parent (.string a.text) :=
  settled_choice (by cases a <;> decide)

theorem settled_blackholePolicy (p : BlackholePolicy) :
    blackholePolicyKind.Settled parent (.string p.text) :=
  settled_choice (by cases p <;> decide)

theorem settled_nextHopPolicy (p : NextHopPolicy) :
    nextHopPolicyKind.Settled parent (.string p.text) :=
  settled_choice (by cases p <;> decide)

/-- A value that may be left out is written as null. -/
theorem settled_optionValue {α : Type} {name : String} {k : Kind} {write : α → Value}
    (hkind : k.isRecord = false) (hkept : k.isDiscarded = false) (o : Option α)
    (h : ∀ x, k.Settled parent (write x)) :
    (⟨name, k, .null⟩ : Field).Settled parent (optionValue write o) := by
  cases o with
  | none => exact Field.settled_null hkind (by simp) rfl
  | some x => exact Field.settled_of_kind hkept (h x)

theorem settled_lengths {width min max : Nat} {r : LengthRange} (hmin : r.min.toNat ≤ width)
    (hmax : r.max.toNat ≤ width) :
    (Kind.record (lengthFields width min max)).Settled parent r.toValue := by
  have hparts : NormalizesFields parent (lengthFields width min max) _ _ :=
    .keepKind rfl (settled_uint8 (Nat.zero_le _) hmin) <|
    .keepKind rfl (settled_uint8 (Nat.zero_le _) hmax) <|
    .nil
  exact hparts.record (by simp [lengthFields])

theorem settled_transitFree {t : TransitFree} (h : ∀ n ∈ t.asns, 1 ≤ n.toNat) :
    (Kind.record transitFreeFields).Settled parent t.toValue := by
  have hasns : (Kind.list .asn).Settled parent (.list (t.asns.map uint32Value)) :=
    settled_list (List.forall_mem_map.2 fun n hn => settled_asn (h n hn))
  have hparts : NormalizesFields parent transitFreeFields _ _ :=
    .keepKind rfl (settled_choice (x := t.action) (by cases t.action <;> decide)) <|
    .keepKind rfl hasns <|
    .nil
  exact hparts.record (by decide)

theorem settled_irr (p : IrrPolicy) : (Kind.record irrFields).Settled parent p.toValue := by
  have hparts : NormalizesFields parent irrFields _ _ :=
    .keepKind rfl (settled_boolean p.enforceOrigin) <|
    .keepKind rfl (settled_boolean p.enforcePrefix) <|
    .keepKind rfl (settled_boolean p.tagAsSet) <|
    .nil
  exact hparts.record (by decide)

theorem settled_rpki (p : RpkiPolicy) : (Kind.record rpkiFields).Settled parent p.toValue := by
  have hparts : NormalizesFields parent rpkiFields _ _ :=
    .keepKind rfl (settled_boolean p.enabled) <|
    .keepKind rfl (settled_boolean p.rejectInvalid) <|
    .nil
  exact hparts.record (by decide)

theorem settled_maxPrefix {p : MaxPrefixPolicy} (h : ∀ f, 1 ≤ (p.generalLimit f).toNat) :
    (Kind.record maxPrefixFields).Settled parent p.toValue := by
  have hparts : NormalizesFields parent maxPrefixFields _ _ :=
    .keepKind rfl (settled_boolean p.peeringDb) <|
    .keepKind rfl (settled_limit (h .v4)) <|
    .keepKind rfl (settled_limit (h .v6)) <|
    .keep rfl (settled_optionValue rfl rfl p.action settled_maxPrefixAction) <|
    .nil
  exact hparts.record (by decide)

theorem settled_blackhole (b : Blackhole) :
    (Kind.record blackholeFields).Settled parent b.toValue := by
  have hparts : NormalizesFields parent blackholeFields _ _ :=
    .keep rfl (settled_optionValue rfl rfl b.policyV4 settled_blackholePolicy) <|
    .keep rfl (settled_optionValue rfl rfl b.policyV6 settled_blackholePolicy) <|
    .keep rfl (settled_optionValue rfl rfl b.nextHopV4 settled_ipv4) <|
    .keep rfl (settled_optionValue rfl rfl b.nextHopV6 settled_ipv6) <|
    .keepKind rfl (settled_boolean b.announceToClient) <|
    .keepKind rfl (settled_boolean b.addNoExport) <|
    .nil
  exact hparts.record (by decide)

theorem settled_filtering {g : General} (h : g.IsValid) :
    (Kind.record filteringFields).Settled parent g.filtering.toValue := by
  have hlengths : ∀ f, (g.filtering.lengths f).min.toNat ≤ f.width ∧
      (g.filtering.lengths f).max.toNat ≤ f.width := fun f =>
    ⟨Nat.le_trans (UInt8.le_iff_toNat_le.1 (h.lengths f).1) (h.lengths f).2, (h.lengths f).2⟩
  have hparts : NormalizesFields parent filteringFields _ _ :=
    .keepKind rfl (settled_nextHopPolicy g.filtering.nextHopPolicy) <|
    .keepKind rfl (settled_lengths (hlengths .v4).1 (hlengths .v4).2) <|
    .keepKind rfl (settled_lengths (hlengths .v6).1 (hlengths .v6).2) <|
    .keepKind rfl (settled_uint8 h.pathLength.1 h.pathLength.2) <|
    .keepKind rfl (settled_boolean g.filtering.rejectInvalidAs) <|
    .keepKind rfl (settled_transitFree h.transitFree) <|
    .keepKind rfl (settled_irr g.filtering.irr) <|
    .keepKind rfl (settled_rpki g.filtering.rpki) <|
    .keepKind rfl (settled_maxPrefix h.limits) <|
    .nil
  exact hparts.record (by decide)

end

end General

/-! ### Communities -/

namespace Community

/-- The community without what is fixed about it. -/
def bare (c : Community) : Community := { std := c.std, ext := c.ext, lrg := c.lrg }

/-- The encodings as a value. -/
def bareValue (c : Community) : Value :=
  .ofFields [("std", textValue c.std), ("ext", textValue c.ext), ("lrg", textValue c.lrg)]

theorem isReadBack_textValue : IsReadBack textValue (Decoded.optional Decoded.string) := by
  rintro (_ | s) <;> rfl

theorem ofValue_bareValue (c : Community) : ofValue c.bareValue = .ok c.bare := by
  simp only [ofValue, Decoded.bind_eq_ok, Decoded.field]
  exact ⟨_, isReadBack_textValue c.std, _, isReadBack_textValue c.ext, _,
    isReadBack_textValue c.lrg, rfl⟩

theorem getD_bareValue (c : Community) (kind : Encoding) :
    c.bareValue.getD kind.name = textValue (c.encoding kind) := by cases kind <;> rfl

theorem text?_textValue (o : Option String) : (textValue o).text? = o := by cases o <;> rfl

end Community

namespace General

theorem settled_textValue {kind : Community.Encoding} {o : Option String}
    (h : ∀ {text}, o = some text → Community.check kind text = .ok text) :
    (encodingField kind).Settled none (Community.textValue o) := by
  cases o with
  | none => exact Field.settled_null rfl (by simp [encodingField]) rfl
  | some text => exact Field.settled_of_kind rfl (settled_text (h rfl))

/-- Of a community only the encodings are left. -/
theorem normalizes_community {c : Community} (h : ∀ {kind text}, c.encoding kind = some text →
      Community.check kind text = .ok text) :
    (Kind.record communityFields).Normalizes none c.toValue c.bareValue := by
  refine normalizes_record (fun f => c.bareValue.getD f.name) nodup_communityFields rfl ?_
    fun f hf => ?_
  · simp [communityFields, Value.text?, Value.untagged]
  · have hkinds : ∃ kind, encodingField kind = f := by
      have hfields : kept communityFields = [.std, .ext, .lrg].map encodingField := rfl
      obtain ⟨kind, -, hkind⟩ := List.mem_map.1 (hfields ▸ hf)
      exact ⟨kind, hkind⟩
    obtain ⟨kind, rfl⟩ := hkinds
    have hwritten : (encodingField kind).given?
        (named [("type", .string c.direction.text), ("peer_as", .bool c.peerAs),
          ("std", Community.textValue c.std), ("ext", Community.textValue c.ext),
          ("lrg", Community.textValue c.lrg)]) =
        present? (Community.textValue (c.encoding kind)) :=
      given?_named (by simp) (by
        cases kind <;> simp [encodingField, Community.Encoding.name, Community.encoding])
    have hvalue : c.bareValue.getD (encodingField kind).name = Community.textValue (c.encoding kind) :=
      c.getD_bareValue kind
    rw [hvalue]
    exact hwritten ▸ settled_textValue h

/-- The configuration without what is fixed about the communities. -/
def bare (g : General) : General := { g with communities := g.communities.map fun _ c => c.bare }

/-- The normal form of a community of a configuration. -/
def communityValue (g : General) (name : String) : Value :=
  ((g.communities.get? name).getD {}).bareValue

/-- The communities of a configuration in normal form, in the order of the schema. -/
def communityValues (g : General) : List (String × Value) :=
  (kept communitiesFields).map fun f => (f.name, g.communityValue f.name)

/-- The normal form of what is written. -/
def normalValue (g : General) : Value :=
  .ofFields
    [("rs_as", uint32Value g.rsAs),
     ("router_id", .string (Address.v4Text g.routerId)),
     ("prepend_rs_as", .bool g.prependRsAs),
     ("path_hiding", .bool g.pathHiding),
     ("passive", .bool g.passive),
     ("gtsm", .bool g.gtsm),
     ("add_path", .bool g.addPath),
     ("filtering", g.filtering.toValue),
     ("blackhole_filtering", g.blackhole.toValue),
     ("communities", .mapping (named g.communityValues))]

variable {g : General}

theorem communityValue_eq {name : String} {c : Community} (hc : g.communities.get? name = some c) :
    g.communityValue name = c.bareValue := by
  rw [communityValue, hc, Option.getD_some]

theorem nodup_communityValues (g : General) : (g.communityValues.map (·.1)).Nodup := by
  rw [communityValues, List.map_map]
  exact nodup_kept nodup_communitiesFields

theorem mem_communityValues {name : String} {v : Value} :
    (name, v) ∈ g.communityValues ↔
      ∃ d ∈ Community.builtin, d.name = name ∧ g.communityValue name = v := by
  constructor
  · intro h
    obtain ⟨f, hf, heq⟩ := List.mem_map.1 h
    obtain ⟨rfl, rfl⟩ := Prod.mk.inj heq
    obtain ⟨d, hd, rfl⟩ := List.mem_map.1 (List.mem_filter.1 hf).1
    exact ⟨d, hd, rfl, rfl⟩
  · rintro ⟨d, hd, rfl, rfl⟩
    have hfield : Field.ofParts d.name communityFields ∈ kept communitiesFields :=
      List.mem_filter.2 ⟨List.mem_map_of_mem hd, rfl⟩
    exact List.mem_map_of_mem (f := fun f => (f.name, g.communityValue f.name)) hfield

theorem normalizes_communities (h : g.IsValid) :
    (Kind.record communitiesFields).Normalizes none
      (.ofFields (g.communities.entries.map fun e => (e.1, e.2.toValue)))
      (.mapping (named g.communityValues)) := by
  have hnames : ((g.communities.entries.map fun e => (e.1, e.2.toValue)).map (·.1)).Nodup := by
    rw [List.map_map]
    exact g.communities.keys_nodup
  refine normalizes_record _ nodup_communitiesFields rfl (fun e he => ?_) fun f hf => ?_
  · obtain ⟨x, hx, rfl⟩ := List.mem_map.1 he
    obtain ⟨y, hy, rfl⟩ := List.mem_map.1 hx
    obtain ⟨d, hd, hname⟩ := h.exists_definition (Dictionary.get?_eq_some_iff.2 hy)
    exact ⟨_, List.mem_map_of_mem hd, congrArg some hname.symm⟩
  · obtain ⟨d, hd, rfl⟩ := List.mem_map.1 (List.mem_filter.1 hf).1
    obtain ⟨c, hc⟩ := h.exists_get? hd
    have hwritten := List.mem_map_of_mem (f := fun e : String × Community => (e.1, e.2.toValue))
      (Dictionary.get?_eq_some_iff.1 hc)
    have hgiven : (Field.ofParts d.name communityFields).given? _ = some c.toValue :=
      (given?_named hnames hwritten).trans (present?_of_not_isNull rfl)
    have hvalue : g.communityValue (Field.ofParts d.name communityFields).name = c.bareValue :=
      communityValue_eq hc
    rw [hvalue]
    exact hgiven ▸ .given (normalizes_community (h.encoding hc))

/-- What is written is in normal form, but for the communities. -/
theorem normalizes_toValue (h : g.IsValid) :
    (Kind.record fields).Normalizes none g.toValue g.normalValue := by
  have hcommunities : (Field.ofParts "communities" communitiesFields).Normalizes none
      (present? (.ofFields (g.communities.entries.map fun e => (e.1, e.2.toValue))))
      (.mapping (named g.communityValues)) := by
    rw [present?_of_not_isNull rfl]
    exact .given (normalizes_communities h)
  have hparts : NormalizesFields none fields _ _ :=
    .keepKind rfl (settled_asn h.rsAs) <|
    .keepKind rfl (settled_ipv4 g.routerId) <|
    .keepKind rfl (settled_boolean g.prependRsAs) <|
    .keepKind rfl (settled_boolean g.pathHiding) <|
    .keepKind rfl (settled_boolean g.passive) <|
    .keepKind rfl (settled_boolean g.gtsm) <|
    .keepKind rfl (settled_boolean g.addPath) <|
    .keepKind rfl (settled_filtering h) <|
    .keepKind rfl (settled_blackhole g.blackhole) <|
    .cons rfl hcommunities <|
    .nil
  exact hparts.record nodup_fields

/-! ### Reading back -/

theorem dictionary_communityValues (h : g.IsValid) :
    Decoded.dictionary Community.ofValue (.mapping (named g.communityValues)) =
      .ok g.bare.communities := by
  obtain ⟨cs, hcs⟩ : Reads (Decoded.dictionary Community.ofValue)
      (.mapping (named g.communityValues)) := by
    refine reads_dictionary_iff.2 ⟨_, rfl, fun e he => ?_⟩
    obtain ⟨x, hx, rfl⟩ := List.mem_map.1 he
    obtain ⟨f, -, rfl⟩ := List.mem_map.1 hx
    exact ⟨⟨f.name, rfl⟩, _, Community.ofValue_bareValue _⟩
  rw [hcs]
  refine congrArg Except.ok (Dictionary.ext_get? fun name => Option.ext fun x => ?_)
  rw [Decoded.get?_dictionary_iff g.nodup_communityValues hcs, bare, Dictionary.get?_map,
    Option.map_eq_some_iff]
  constructor
  · rintro ⟨v, hv, hx⟩
    obtain ⟨d, hd, rfl, rfl⟩ := mem_communityValues.1 hv
    obtain ⟨c, hc⟩ := h.exists_get? hd
    rw [communityValue_eq hc, Community.ofValue_bareValue] at hx
    exact ⟨c, hc, Except.ok.inj hx⟩
  · rintro ⟨c, hc, rfl⟩
    exact ⟨c.bareValue, mem_communityValues.2 (by
      obtain ⟨d, hd, hname⟩ := h.exists_definition hc
      exact ⟨d, hd, hname, communityValue_eq hc⟩), c.ofValue_bareValue⟩

theorem ofValue_normalValue (h : g.IsValid) : ofValue g.normalValue = .ok g.bare := by
  simp only [ofValue, Decoded.bind_eq_ok, Decoded.field]
  exact ⟨_, isReadBack_uint32 g.rsAs, _, isReadBack_ipv4 g.routerId, g.prependRsAs, rfl,
    g.pathHiding, rfl, g.passive, rfl, g.gtsm, rfl, g.addPath, rfl, _,
    Filtering.isReadBack g.filtering, _, Blackhole.isReadBack g.blackhole, _,
    dictionary_communityValues h, rfl⟩

/-! ### Cross-checks -/

/-- The normal form of the document that a configuration makes. -/
def normalDocument (g : General) : Value := .ofFields [("cfg", g.normalValue)]

theorem encodingAt_normalDocument {d : Community.Definition} (hd : d ∈ Community.builtin)
    {c : Community} (hc : g.communities.get? d.name = some c) (kind : Community.Encoding) :
    encodingAt g.normalDocument d kind = c.encoding kind := by
  have hcommunities : (g.normalDocument.getD "cfg").getD "communities" =
      .mapping (named g.communityValues) := rfl
  have hvalue : (Value.mapping (named g.communityValues)).getD d.name = c.bareValue :=
    getD_named g.nodup_communityValues (mem_communityValues.2 ⟨d, hd, rfl, communityValue_eq hc⟩)
  rw [encodingAt, hcommunities, hvalue, Community.getD_bareValue, Community.text?_textValue]

/-- No encoding stands twice among those of a document. -/
theorem nodup_encodings (cfg : Value) : (encodings cfg).Nodup := by
  refine List.nodup_flatMap.2 ⟨fun d _ => ?_, ?_⟩
  · -- the encodings of one community differ in their places
    refine List.Nodup.filterMap (fun kind other e hkind hother => ?_) (by decide)
    obtain ⟨text, -, rfl⟩ := Option.map_eq_some_iff.1 hkind
    obtain ⟨text', -, heq⟩ := Option.map_eq_some_iff.1 hother
    exact encodingPath_injective d (congrArg Prod.fst heq).symm
  · refine (List.Nodup.of_map _ nodup_builtin).imp fun {d e} hne x hd he => hne ?_
    obtain ⟨kind, -, hkind⟩ := List.mem_filterMap.1 hd
    obtain ⟨other, -, hother⟩ := List.mem_filterMap.1 he
    obtain ⟨text, -, rfl⟩ := Option.map_eq_some_iff.1 hkind
    obtain ⟨text', -, heq⟩ := Option.map_eq_some_iff.1 hother
    exact (congrArg (fun x : Encoded => x.2.1) heq).symm

/-- A policy that replaces next hops is written beside one to put there. -/
theorem not_isNull_nextHop {α : Type} {write : α → Value} (hwrite : ∀ x, (write x).isNull = false)
    {policy : Option BlackholePolicy} {nextHop : Option α}
    (h : policy = some .rewriteNextHop → nextHop.isSome)
    (hpolicy : (optionValue (fun p => .string (BlackholePolicy.text p)) policy).text? =
      some BlackholePolicy.rewriteNextHop.text) :
    (optionValue write nextHop).isNull = false := by
  have hreplaces : policy = some .rewriteNextHop := by
    rcases policy with _ | (_ | _)
    · cases hpolicy
    · exact absurd (Option.some.inj hpolicy) (by decide)
    · rfl
  obtain ⟨a, rfl⟩ := Option.isSome_iff_exists.1 (h hreplaces)
  exact hwrite a

/-- Encodings with one text are one encoding. -/
theorem eq_of_text_eq (h : g.IsValid) {x y : Encoded}
    (hx : x ∈ encodings (g.normalDocument.getD "cfg"))
    (hy : y ∈ encodings (g.normalDocument.getD "cfg")) (htext : x.2.2 = y.2.2) : x = y := by
  obtain ⟨path, d, text⟩ := x
  obtain ⟨path', d', text'⟩ := y
  obtain ⟨hd, kind, rfl, hat⟩ := mem_encodings.1 hx
  obtain ⟨hd', kind', rfl, hat'⟩ := mem_encodings.1 hy
  obtain rfl : text = text' := htext
  obtain ⟨c, hc⟩ := h.exists_get? hd
  obtain ⟨c', hc'⟩ := h.exists_get? hd'
  rw [encodingAt_normalDocument hd hc] at hat
  rw [encodingAt_normalDocument hd' hc'] at hat'
  obtain ⟨hname, rfl⟩ := h.once hc hc' hat hat'
  obtain rfl : d = d' := eq_of_name_eq hd hd' hname
  rfl

/-- The cross-checks find nothing in what a valid configuration makes. -/
theorem crossCheck_normalDocument (h : g.IsValid) : crossCheck g.normalDocument = [] := by
  refine List.eq_nil_iff_forall_not_mem.2 fun b hb => ?_
  cases mem_crossCheck.1 hb with
  | @range name hname hreversed =>
      obtain ⟨min, max, hmin, hmax, hlt⟩ := hreversed
      have hlengths : ∃ f, ((g.normalDocument.getD "cfg").getD "filtering").getD name =
          (g.filtering.lengths f).toValue := by
        rcases List.mem_cons.1 hname with rfl | hname
        · exact ⟨.v4, rfl⟩
        · rw [List.mem_singleton.1 hname]
          exact ⟨.v6, rfl⟩
      obtain ⟨f, hf⟩ := hlengths
      rw [hf] at hmin hmax
      obtain rfl : (g.filtering.lengths f).min.toNat = min := Option.some.inj hmin
      obtain rfl : (g.filtering.lengths f).max.toNat = max := Option.some.inj hmax
      exact absurd (UInt8.le_iff_toNat_le.1 (h.lengths f).1) (Nat.not_le.2 hlt)
  | @nextHop n hn hpolicy hnull =>
      rcases List.mem_cons.1 hn with rfl | hn
      · have hgiven := not_isNull_nextHop (fun a => (rfl : (Value.string (Address.v4Text a)).isNull =
          false)) (fun hp => by simpa [Blackhole.nextHopText] using h.nextHop .v4 hp) hpolicy
        exact Bool.false_ne_true (hgiven.symm.trans hnull)
      · obtain rfl := List.mem_singleton.1 hn
        have hgiven := not_isNull_nextHop (fun a => (rfl : (Value.string (Address.v6Text a)).isNull =
          false)) (fun hp => by simpa [Blackhole.nextHopText] using h.nextHop .v6 hp) hpolicy
        exact Bool.false_ne_true (hgiven.symm.trans hnull)
  | @peerMacro d kind text hd htext hmacro =>
      obtain ⟨c, hc⟩ := h.exists_get? hd
      rw [encodingAt_normalDocument hd hc] at htext
      refine hmacro (Bool.eq_iff_iff.2 ?_)
      rw [← h.peerMacro hd hc htext, ← endsWith_iff]
      rfl
  | @used front back before e other hsplit hlast =>
      obtain ⟨hkey, behind, rfl, -⟩ := hlast
      have hnodup := nodup_encodings (g.normalDocument.getD "cfg")
      rw [hsplit] at hnodup
      have hsame : other = e := eq_of_text_eq h (by simp [hsplit]) (by simp [hsplit])
        (Option.some.inj hkey)
      exact (List.nodup_append.1 hnodup).2.2 other (by simp) e (by simp) hsame

/-! ### The round trip -/

/-- **What is written is read back**, but for what is fixed about the communities. -/
theorem IsValid.acceptGeneral_toValue (h : g.IsValid) :
    acceptGeneral (.ofFields [("cfg", g.toValue)]) = .ok g.bare := by
  have hdocument : (Kind.record document).Normalizes none (.ofFields [("cfg", g.toValue)])
      g.normalDocument := by
    have hcfg : (⟨"cfg", .record fields, .required⟩ : Field).Normalizes none (present? g.toValue)
        g.normalValue := by
      rw [present?_of_not_isNull rfl]
      exact .given (normalizes_toValue h)
    exact NormalizesFields.record (.cons rfl hcfg .nil) (by decide)
  have hwalk : walk none document (.ofFields [("cfg", g.toValue)]) "" = (g.normalDocument, []) :=
    (normalizes_iff_walk "").1 hdocument
  refine accept_eq_ok.2 ?_
  rw [hwalk]
  exact ⟨rfl, crossCheck_normalDocument h, ofValue_normalValue h⟩

/-- Communities that all have nothing of what is fixed about them. -/
theorem bare_eq_self (h : ∀ {name c}, g.communities.get? name = some c → c.bare = c) :
    g.bare = g := by
  have hcommunities : (g.communities.map fun _ c => c.bare) = g.communities := by
    refine Dictionary.ext_get? fun name => ?_
    rw [Dictionary.get?_map]
    cases hc : g.communities.get? name with
    | none => rfl
    | some c => rw [Option.map_some, h hc]
  rw [bare, hcommunities]

/-- A document gives nothing of what is fixed about the communities. -/
theorem bare_of_accept {v : Value} (h : acceptGeneral v = .ok g) : g.bare = g := by
  obtain ⟨hclean, -, hdecode⟩ := accept_eq_ok.1 h
  obtain ⟨-, hcommunities⟩ := of_ofValue hdecode
  obtain ⟨es, hes⟩ := communities_of_clean hclean
  rw [hes] at hcommunities
  refine bare_eq_self fun {name c} hc => ?_
  obtain ⟨v, -, hv⟩ :=
    (Decoded.get?_dictionary_iff (nodup_normals nodup_communitiesFields) hcommunities).1 hc
  simp only [Community.ofValue, Decoded.bind_eq_ok] at hv
  obtain ⟨_, -, _, -, _, -, hv⟩ := hv
  cases hv
  rfl

/-- Filling in what is fixed and leaving it out again changes nothing. -/
theorem IsValid.bare_defineCommunities (h : g.IsValid) : g.defineCommunities.bare = g.bare := by
  have hcommunities : (g.defineCommunities.communities.map fun _ c => c.bare) =
      g.communities.map fun _ c => c.bare := by
    refine Dictionary.ext_get? fun name => ?_
    rw [Dictionary.get?_map, Dictionary.get?_map]
    cases hc : g.communities.get? name with
    | some c =>
        obtain ⟨d, hd, rfl⟩ := h.exists_definition hc
        rw [IsValid.get?_defineCommunities hd hc]
        rfl
    | none =>
        have hkey : name ∉ g.defineCommunities.communities.keys := by
          rw [h.names_defineCommunities.mem_iff, ← h.names.mem_iff]
          exact Dictionary.get?_eq_none_iff.1 hc
        rw [Dictionary.get?_eq_none_iff.2 hkey]
  rw [bare, hcommunities, General.defineCommunities, bare]

/-- A value needs no file. -/
theorem loadGeneral_value (files : Files.Tree) (v : Value) :
    loadGeneral files (.value v) = acceptGeneral v := rfl

/-- **Round trip.**  A general configuration that has been loaded is loaded again from what is
written of it, also where the direction of its communities and their use of the macro have been
filled in; these are written and not read, and filling them in again gives them back. -/
theorem loadGeneral_toValue {files : Files.Tree} {s : Source} {g : General}
    (h : loadGeneral files s = .ok g) (files' : Files.Tree) :
    loadGeneral files' (.value (.ofFields [("cfg", g.toValue)])) = .ok g ∧
      ∃ g', loadGeneral files' (.value (.ofFields [("cfg", g.defineCommunities.toValue)])) = .ok g' ∧
        g'.defineCommunities = g.defineCommunities := by
  obtain ⟨v, -, haccept⟩ := Decoded.bind_eq_ok.1 h
  have hvalid := isValid_of_accept haccept
  have hbare := bare_of_accept haccept
  constructor
  · rw [loadGeneral_value, hvalid.acceptGeneral_toValue, hbare]
  · refine ⟨g, ?_, rfl⟩
    rw [loadGeneral_value, hvalid.defineCommunities.acceptGeneral_toValue,
      hvalid.bare_defineCommunities, hbare]

theorem loadGeneral_toValue_guarded :
    ∃ g, loadGeneral {} (.value guardedGeneral) = .ok g ∧
      loadGeneral {} (.value (.ofFields [("cfg", g.toValue)])) = .ok g ∧
      ∃ g', loadGeneral {} (.value (.ofFields [("cfg", g.defineCommunities.toValue)])) = .ok g' ∧
        g'.defineCommunities = g.defineCommunities := by
  obtain ⟨g, hload⟩ := exists_loadGeneral_guarded
  exact ⟨g, hload, loadGeneral_toValue hload {}⟩

/-- The configurations that are loaded are the valid ones, as documents give them. -/
theorem exists_loadGeneral_iff {g : General} :
    (∃ files s, loadGeneral files s = .ok g) ↔ g.IsValid ∧ g.bare = g := by
  constructor
  · rintro ⟨files, s, h⟩
    obtain ⟨v, -, haccept⟩ := Decoded.bind_eq_ok.1 h
    exact ⟨isValid_of_accept haccept, bare_of_accept haccept⟩
  · rintro ⟨hvalid, hbare⟩
    refine ⟨{}, .value (.ofFields [("cfg", g.toValue)]), ?_⟩
    rw [loadGeneral_value, hvalid.acceptGeneral_toValue, hbare]

end General

end RouteServer.Policy

import RouteServer.Proofs.Policy.Readable
import RouteServer.Proofs.Policy.Reported
import RouteServer.Proofs.Schema.Located

/-!
# Policy — schemas and readers agree

Every document is described by a schema and by the readers of its typed form.  The two agree, one
section after the other, on all but choices with a tag (`Document.suits`): so a document in which
neither the walk nor the cross-checks find anything loads unless a choice in it carries a tag, and
what is reported of any other document has a place (`Document.loads_iff`).

A choice with a tag is walked as if the tag were not there, and then refused without a place
(`Document.not_loads_tagged`).
-/

namespace RouteServer.Policy

open RouteServer.Net RouteServer.Schema RouteServer.Text RouteServer.Yaml

/-! ### Choices -/

section

variable {parent : Option Value}

theorem suits_nextHopPolicy :
    General.nextHopPolicyKind.Suits parent (Reads NextHopPolicy.ofValue) := suits_choice

theorem suits_maxPrefixAction :
    General.maxPrefixActionKind.Suits parent (Reads MaxPrefixAction.ofValue) := suits_choice

theorem suits_blackholePolicy :
    General.blackholePolicyKind.Suits parent (Reads BlackholePolicy.ofValue) := suits_choice

theorem suits_transitFreeAction :
    (Kind.oneOf (TransitFreeAction.all.map TransitFreeAction.text)).Suits parent
      (Reads TransitFreeAction.ofValue) := suits_choice

end

/-! ### The general configuration -/

namespace General

variable {parent : Option Value}

theorem suits_lengths {width min max : Nat} (hwidth : width < 256) (hmin : min < 256)
    (hmax : max < 256) :
    (Kind.record (lengthFields width min max)).Suits parent (Reads LengthRange.ofValue) := by
  have hparts : SuitsFields parent (lengthFields width min max) _ :=
    .cons ((suits_uint8 hwidth).orElse rfl (reads_uint8_iff.2 ⟨min, rfl, hmin⟩)) <|
    .cons ((suits_uint8 hwidth).orElse rfl (reads_uint8_iff.2 ⟨max, rfl, hmax⟩)) <|
    suitsFields_nil
  refine hparts.record (by simp [lengthFields]) fun v => ?_
  simp [Reads, LengthRange.ofValue, exists_bind_eq_ok, Decoded.field]

theorem suits_transitFree :
    (Kind.record transitFreeFields).Suits parent (Reads TransitFree.ofValue) := by
  have hparts : SuitsFields parent transitFreeFields _ :=
    .cons (suits_transitFreeAction.orElse rfl (reads_choice_string (by decide))) <|
    .cons ((suits_list suits_asn).orElse rfl ⟨[], rfl⟩) <|
    suitsFields_nil
  refine hparts.record (by decide) fun v => ?_
  simp [Reads, TransitFree.ofValue, exists_bind_eq_ok, Decoded.field]

theorem suits_irr : (Kind.record irrFields).Suits parent (Reads IrrPolicy.ofValue) := by
  have hparts : SuitsFields parent irrFields _ :=
    .cons (suits_bool.orElse rfl ⟨false, rfl⟩) <|
    .cons (suits_bool.orElse rfl ⟨false, rfl⟩) <|
    .cons (suits_bool.orElse rfl ⟨true, rfl⟩) <|
    suitsFields_nil
  refine hparts.record (by decide) fun v => ?_
  simp [Reads, IrrPolicy.ofValue, exists_bind_eq_ok, Decoded.field]

theorem suits_rpki : (Kind.record rpkiFields).Suits parent (Reads RpkiPolicy.ofValue) := by
  have hparts : SuitsFields parent rpkiFields _ :=
    .cons (suits_bool.orElse rfl ⟨false, rfl⟩) <|
    .cons (suits_bool.orElse rfl ⟨true, rfl⟩) <|
    suitsFields_nil
  refine hparts.record (by decide) fun v => ?_
  simp [Reads, RpkiPolicy.ofValue, exists_bind_eq_ok, Decoded.field]

theorem suits_limit : limitKind.Suits parent (Reads Decoded.uint32) := suits_uint32 (by decide)

theorem suits_maxPrefix :
    (Kind.record maxPrefixFields).Suits parent (Reads MaxPrefixPolicy.ofValue) := by
  have hparts : SuitsFields parent maxPrefixFields _ :=
    .cons (suits_bool.orElse rfl ⟨false, rfl⟩) <|
    .cons (suits_limit.orElse rfl (reads_uint32_iff.2 ⟨170000, rfl, by decide⟩)) <|
    .cons (suits_limit.orElse rfl (reads_uint32_iff.2 ⟨12000, rfl, by decide⟩)) <|
    .cons (suits_optional rfl rfl suits_maxPrefixAction "action") <|
    suitsFields_nil
  refine hparts.record (by decide) fun v => ?_
  simp [Reads, MaxPrefixPolicy.ofValue, exists_bind_eq_ok, Decoded.field]

theorem suits_filtering : (Kind.record filteringFields).Suits parent (Reads Filtering.ofValue) := by
  have hparts : SuitsFields parent filteringFields _ :=
    .cons (suits_nextHopPolicy.orElse rfl (reads_choice_string (by decide))) <|
    .cons (suits_lengths (by decide) (by decide) (by decide)).ofParts <|
    .cons (suits_lengths (by decide) (by decide) (by decide)).ofParts <|
    .cons ((suits_uint8 (by decide)).orElse rfl (reads_uint8_iff.2 ⟨32, rfl, by decide⟩)) <|
    .cons (suits_bool.orElse rfl ⟨true, rfl⟩) <|
    .cons suits_transitFree.ofParts <|
    .cons suits_irr.ofParts <|
    .cons suits_rpki.ofParts <|
    .cons suits_maxPrefix.ofParts <|
    suitsFields_nil
  refine hparts.record (by decide) fun v => ?_
  simp [Reads, Filtering.ofValue, exists_bind_eq_ok, Decoded.field, Field.ofParts]

theorem suits_blackhole : (Kind.record blackholeFields).Suits parent (Reads Blackhole.ofValue) := by
  have hparts : SuitsFields parent blackholeFields _ :=
    .cons (suits_optional rfl rfl suits_blackholePolicy "policy_ipv4") <|
    .cons (suits_optional rfl rfl suits_blackholePolicy "policy_ipv6") <|
    .cons (suits_optional rfl rfl suits_ipv4 "rewrite_next_hop_ipv4") <|
    .cons (suits_optional rfl rfl suits_ipv6 "rewrite_next_hop_ipv6") <|
    .cons (suits_bool.orElse rfl ⟨true, rfl⟩) <|
    .cons (suits_bool.orElse rfl ⟨true, rfl⟩) <|
    suitsFields_nil
  refine hparts.record (by decide) fun v => ?_
  simp [Reads, Blackhole.ofValue, exists_bind_eq_ok, Decoded.field]

theorem suits_community : (Kind.record communityFields).Suits parent (Reads Community.ofValue) := by
  have hparts : SuitsFields parent communityFields _ :=
    .cons (suits_optional rfl rfl suits_text "std") <|
    .cons (suits_optional rfl rfl suits_text "ext") <|
    .cons (suits_optional rfl rfl suits_text "lrg") <|
    .drop rfl <|
    .drop rfl <|
    suitsFields_nil
  refine hparts.record (by decide) fun v => ?_
  simp [Reads, Community.ofValue, exists_bind_eq_ok, Decoded.field]

theorem suits_communities : (Kind.record communitiesFields).Suits parent
    (Reads (Decoded.dictionary Community.ofValue)) := by
  refine (suits_entries nodup_communitiesFields fun f hf => ?_).congr fun _ => reads_dictionary_iff
  obtain ⟨d, -, rfl⟩ := List.mem_map.1 hf
  exact suits_community.ofParts

theorem suits_fields : (Kind.record fields).Suits parent (Reads General.ofValue) := by
  have hparts : SuitsFields parent fields _ :=
    .cons (suits_asn.required rfl) <|
    .cons (suits_ipv4.required rfl) <|
    .cons (suits_bool.orElse rfl ⟨false, rfl⟩) <|
    .cons (suits_bool.orElse rfl ⟨true, rfl⟩) <|
    .cons (suits_bool.orElse rfl ⟨true, rfl⟩) <|
    .cons (suits_bool.orElse rfl ⟨false, rfl⟩) <|
    .cons (suits_bool.orElse rfl ⟨false, rfl⟩) <|
    .cons suits_filtering.ofParts <|
    .cons suits_blackhole.ofParts <|
    .cons suits_communities.ofParts <|
    suitsFields_nil
  refine hparts.record (by decide) fun v => ?_
  simp [Reads, General.ofValue, exists_bind_eq_ok, Decoded.field, Field.ofParts]

theorem suits_document : (Kind.record document).Suits parent (Reads General.ofDocument) := by
  have hparts : SuitsFields parent document _ :=
    .cons (suits_fields.required rfl) <|
    suitsFields_nil
  refine hparts.record (by decide) fun v => ?_
  simp [Reads, General.ofDocument]

end General

/-! ### Bogons, ROAs and networks -/

section

variable {parent : Option Value}

theorem Bogon.suits_document :
    (Kind.record Bogon.document).Suits parent (Reads Bogon.ofDocument) := by
  have hfields : (Kind.record Bogon.fields).Suits parent (Reads Bogon.ofValue) := by
    have hparts : SuitsFields parent Bogon.fields _ :=
      .cons (suits_address.required rfl) <|
      .cons ((suits_uint8 (by decide)).required rfl) <|
      .cons (suits_optional rfl rfl suits_string "comment") <|
      suitsFields_nil
    refine hparts.record (by decide) fun v => ?_
    simp [Reads, Bogon.ofValue, exists_bind_eq_ok, Decoded.field]
  have hparts : SuitsFields parent Bogon.document _ :=
    .cons ((suits_list hfields).required rfl) <|
    suitsFields_nil
  refine hparts.record (by decide) fun v => ?_
  simp [Reads, Bogon.ofDocument, Decoded.field]

theorem Roa.suits_document :
    (Kind.record Roa.document).Suits parent (Reads Roa.ofDocument) := by
  have hfields : (Kind.record Roa.fields).Suits parent (Reads Roa.ofValue) := by
    have hparts : SuitsFields parent Roa.fields _ :=
      .cons (suits_address.required rfl) <|
      .cons ((suits_uint8 (by decide)).required rfl) <|
      .cons ((suits_uint8 (by decide)).required rfl) <|
      .cons (suits_asn.required rfl) <|
      suitsFields_nil
    refine hparts.record (by decide) fun v => ?_
    simp [Reads, Roa.ofValue, exists_bind_eq_ok, Decoded.field]
  have hparts : SuitsFields parent Roa.document _ :=
    .cons ((suits_list hfields).orElse rfl ⟨[], rfl⟩) <|
    suitsFields_nil
  refine hparts.record (by decide) fun v => ?_
  simp [Reads, Roa.ofDocument, Decoded.field]

theorem AsnInfo.not_tagsChoice (v : Value) : ¬ (Kind.record AsnInfo.fields).TagsChoice v := by
  intro h
  cases h with
  | field _ hf _ h =>
      rw [List.mem_singleton.1 hf] at h
      cases h with
      | item _ h => cases h

theorem AsnInfo.suits_document :
    (Kind.record AsnInfo.document).Suits parent (Reads AsnInfo.ofDocument) := by
  have hfields : (Kind.record AsnInfo.fields).Suits parent (Reads AsnInfo.ofValue) := by
    have hparts : SuitsFields parent AsnInfo.fields _ :=
      .cons ((suits_list suits_text).orElse rfl ⟨[], rfl⟩) <|
      suitsFields_nil
    refine hparts.record (by decide) fun v => ?_
    simp [Reads, AsnInfo.ofValue, exists_bind_eq_ok, Decoded.field]
  have htable : (Kind.table AsnInfo.checkKey (.record AsnInfo.fields)).Suits parent
      (Reads (Decoded.dictionary AsnInfo.ofValue)) :=
    (hfields.table AsnInfo.not_tagsChoice).congr fun _ => reads_dictionary_iff
  have hparts : SuitsFields parent AsnInfo.document _ :=
    .cons (htable.orElse rfl ⟨_, rfl⟩) <|
    .drop rfl <|
    suitsFields_nil
  refine hparts.record (by decide) fun v => ?_
  simp [Reads, AsnInfo.ofDocument, Decoded.field]

end

/-! ### Clients -/

namespace Client

variable {g : General}

/-- What the general configuration has for an option can be read as the option of a client. -/
theorem suits_inherited {name : String} {names : List String} {k : Kind} {P : Value → Prop}
    (h : k.Suits (some g.toValue) P) (hkept : k.isDiscarded = false)
    (hvalue : P ((g.toValue.follow? names).getD .null)) :
    (inherited name k names).Suits (some g.toValue) P :=
  h.orElse hkept hvalue

theorem suits_lengths {name : String} {width : Nat} (hwidth : width < 256)
    (hmin : Reads Decoded.uint8 ((g.toValue.follow? ["filtering", name, "min"]).getD .null))
    (hmax : Reads Decoded.uint8 ((g.toValue.follow? ["filtering", name, "max"]).getD .null)) :
    (Kind.record (lengthFields name width)).Suits (some g.toValue) (Reads LengthRange.ofValue) := by
  have hparts : SuitsFields (some g.toValue) (lengthFields name width) _ :=
    .cons (suits_inherited (suits_uint8 hwidth) rfl hmin) <|
    .cons (suits_inherited (suits_uint8 hwidth) rfl hmax) <|
    suitsFields_nil
  refine hparts.record (by simp [lengthFields, inherited]) fun v => ?_
  simp [Reads, LengthRange.ofValue, exists_bind_eq_ok, Decoded.field, inherited]

theorem suits_irr : (Kind.record irrFields).Suits (some g.toValue) (Reads ClientIrr.ofValue) := by
  have hparts : SuitsFields (some g.toValue) irrFields _ :=
    .cons ((suits_list suits_text).orElse rfl ⟨[], rfl⟩) <|
    .cons (suits_inherited suits_bool rfl ⟨_, rfl⟩) <|
    .cons (suits_inherited suits_bool rfl ⟨_, rfl⟩) <|
    suitsFields_nil
  refine hparts.record (by decide) fun v => ?_
  simp [Reads, ClientIrr.ofValue, exists_bind_eq_ok, Decoded.field, inherited]

theorem suits_rpki : (Kind.record rpkiFields).Suits (some g.toValue)
    (Reads (Decoded.field "reject_invalid" Decoded.bool)) := by
  have hparts : SuitsFields (some g.toValue) rpkiFields _ :=
    .cons (suits_inherited suits_bool rfl ⟨_, rfl⟩) <|
    suitsFields_nil
  refine hparts.record (by decide) fun v => ?_
  simp [Reads, Decoded.field, inherited]

theorem suits_maxPrefix :
    (Kind.record maxPrefixFields).Suits (some g.toValue) (Reads ClientMaxPrefix.ofValue) := by
  have haction : (inherited "action" General.maxPrefixActionKind
      ["filtering", "max_prefix", "action"]).Suits (some g.toValue)
        (Reads (Decoded.optional MaxPrefixAction.ofValue)) := by
    refine suits_inherited ((suits_maxPrefixAction.orNull fun _ => normal_ne_null rfl rfl).congr
      fun _ => reads_optional_iff) rfl ?_
    exact reads_optionValue fun a : MaxPrefixAction =>
      reads_choice_string (s := a.text) (List.mem_map_of_mem (by cases a <;> decide))
  have hparts : SuitsFields (some g.toValue) maxPrefixFields _ :=
    .cons (suits_inherited suits_bool rfl ⟨_, rfl⟩) <|
    .cons (suits_optional rfl rfl General.suits_limit "limit_ipv4") <|
    .cons (suits_optional rfl rfl General.suits_limit "limit_ipv6") <|
    .cons haction <|
    suitsFields_nil
  refine hparts.record (by decide) fun v => ?_
  simp [Reads, ClientMaxPrefix.ofValue, exists_bind_eq_ok, Decoded.field, inherited]

theorem suits_filtering :
    (Kind.record filteringFields).Suits (some g.toValue) (Reads ClientFiltering.ofValue) := by
  have hpolicy : (inherited "next_hop_policy" General.nextHopPolicyKind
      ["filtering", "next_hop_policy"]).Suits (some g.toValue) (Reads NextHopPolicy.ofValue) :=
    suits_inherited suits_nextHopPolicy rfl
      (reads_choice_string (s := g.filtering.nextHopPolicy.text)
        (List.mem_map_of_mem (by cases g.filtering.nextHopPolicy <;> decide)))
  have hlengthsV4 : (Kind.record (lengthFields "ipv4_pref_len" 32)).Suits (some g.toValue)
      (Reads LengthRange.ofValue) :=
    suits_lengths (by decide) (reads_uint8Value _) (reads_uint8Value _)
  have hlengthsV6 : (Kind.record (lengthFields "ipv6_pref_len" 128)).Suits (some g.toValue)
      (Reads LengthRange.ofValue) :=
    suits_lengths (by decide) (reads_uint8Value _) (reads_uint8Value _)
  have hparts : SuitsFields (some g.toValue) filteringFields _ :=
    .cons hpolicy <|
    .cons hlengthsV4.ofParts <|
    .cons hlengthsV6.ofParts <|
    .cons (suits_inherited (suits_uint8 (by decide)) rfl (reads_uint8Value _)) <|
    .cons (suits_inherited suits_bool rfl ⟨_, rfl⟩) <|
    .cons suits_irr.ofParts <|
    .cons suits_rpki.ofParts <|
    .cons suits_maxPrefix.ofParts <|
    suitsFields_nil
  refine hparts.record (by decide) fun v => ?_
  simp [Reads, ClientFiltering.ofValue, exists_bind_eq_ok, Decoded.field, inherited, Field.ofParts]

theorem suits_options :
    (Kind.record optionFields).Suits (some g.toValue) (Reads ClientOptions.ofValue) := by
  have hblackhole : (Kind.record blackholeFields).Suits (some g.toValue)
      (Reads (Decoded.field "announce_to_client" Decoded.bool)) := by
    have hparts : SuitsFields (some g.toValue) blackholeFields _ :=
      .cons (suits_inherited suits_bool rfl ⟨_, rfl⟩) <|
      suitsFields_nil
    refine hparts.record (by decide) fun v => ?_
    simp [Reads, Decoded.field, inherited]
  have hparts : SuitsFields (some g.toValue) optionFields _ :=
    .cons (suits_inherited suits_bool rfl ⟨_, rfl⟩) <|
    .cons (suits_inherited suits_bool rfl ⟨_, rfl⟩) <|
    .cons (suits_inherited suits_bool rfl ⟨_, rfl⟩) <|
    .cons (suits_inherited suits_bool rfl ⟨_, rfl⟩) <|
    .cons suits_filtering.ofParts <|
    .cons hblackhole.ofParts <|
    suitsFields_nil
  refine hparts.record (by decide) fun v => ?_
  simp [Reads, ClientOptions.ofValue, exists_bind_eq_ok, Decoded.field, inherited, Field.ofParts]

theorem suits_fields : (Kind.record fields).Suits (some g.toValue) (Reads Client.ofValue) := by
  have hparts : SuitsFields (some g.toValue) fields _ :=
    .cons (suits_asn.required rfl) <|
    .cons (suits_address.required rfl) <|
    .cons (suits_optional rfl rfl suits_string "password") <|
    .cons (suits_optional rfl rfl suits_string "description") <|
    .cons suits_options.ofParts <|
    suitsFields_nil
  refine hparts.record (by decide) fun v => ?_
  simp [Reads, Client.ofValue, exists_bind_eq_ok, Decoded.field, Field.ofParts]

theorem suits_document :
    (Kind.record document).Suits (some g.toValue) (Reads Client.ofDocument) := by
  have hparts : SuitsFields (some g.toValue) document _ :=
    .cons ((suits_list suits_fields).orElse rfl ⟨[], rfl⟩) <|
    .drop rfl <|
    suitsFields_nil
  refine hparts.record (by decide) fun v => ?_
  simp [Reads, Client.ofDocument, Decoded.field]

end Client

/-! ### Cross-checks -/

section

variable {path : String} {v doc : Value} {b : Violation}

theorem append_ne_empty {s t : String} (h : s ≠ "" ∨ t ≠ "") : s ++ t ≠ "" := fun hempty => by
  obtain ⟨hs, ht⟩ := String.append_eq_empty_iff.1 hempty
  exact h.elim (fun h => h hs) fun h => h ht

theorem General.path_ne_of_crossCheck (h : b ∈ General.crossCheck doc) : b.path ≠ "" := by
  cases General.mem_crossCheck.1 h with
  | range | nextHop => exact append_ne_empty (.inl (by decide))
  | @peerMacro d kind => exact append_ne_empty (.inr (by cases kind <;> decide))
  | @used front back before e other hsplit =>
      obtain ⟨path, d, text⟩ := e
      have hmem : ((path, d, text) : Encoded) ∈ encodings (doc.getD "cfg") := by simp [hsplit]
      obtain ⟨-, kind, rfl, -⟩ := mem_encodings.1 hmem
      exact append_ne_empty (.inr (by cases kind <;> decide))

theorem Client.path_ne_of_crossCheck (h : b ∈ Client.crossCheck doc) : b.path ≠ "" := by
  cases Client.mem_crossCheck.1 h with
  | address => exact append_ne_empty (.inr (by decide))
  | range => exact append_ne_empty (.inl (append_ne_empty (.inr (by decide))))

theorem Bogon.path_ne_of_crossCheck (h : b ∈ Bogon.crossCheck doc) : b.path ≠ "" := by
  obtain ⟨i, v, -, hb⟩ := mem_itemViolations.1 h
  unfold Bogon.check at hb
  repeat' split at hb
  · cases hb
  · exact List.mem_singleton.1 hb ▸ item_ne_empty "bogons" i
  · cases hb

theorem Roa.path_ne_of_crossCheck (h : b ∈ Roa.crossCheck doc) : b.path ≠ "" := by
  obtain ⟨i, v, -, hb⟩ := mem_itemViolations.1 h
  unfold Roa.check at hb
  repeat' split at hb
  · exact List.mem_singleton.1 hb ▸ item_ne_empty "roas" i
  · exact List.mem_singleton.1 hb ▸ append_ne_empty (.inr (by decide))
  all_goals cases hb

end

/-! ### Acceptance -/

section

variable {α : Type} {document : DocumentKind} {fields : List Field} {parent : Option Value}
  {check : Value → List Violation} {decode : Value → Decoded α} {v : Value}

theorem faultOf_accept_eq_none_iff :
    Checked.faultOf (accept document fields parent check decode v) = none ↔
      (walk parent fields v "").2 = [] ∧ check (walk parent fields v "").1 = [] ∧
        Reads decode (walk parent fields v "").1 := by
  have hok : Checked.faultOf (accept document fields parent check decode v) = none ↔
      ∃ x, accept document fields parent check decode v = .ok x := by
    cases accept document fields parent check decode v <;> simp [Checked.faultOf]
  rw [hok]
  simp only [accept_eq_ok, exists_and_left]
  rfl

/-- A document without a choice is accepted when it has the shape of the schema and the cross-checks
find nothing in its normal form. -/
theorem exists_accept_iff (hsuits : (Kind.record fields).Suits parent (Reads decode))
    (hno : ¬ (Kind.record fields).TagsChoice v) :
    (∃ x, accept document fields parent check decode v = .ok x) ↔
      Conforms fields v ∧ check ((Kind.record fields).normal parent v) = [] := by
  simp only [accept_eq_ok, exists_and_left]
  rw [walk, walk_clean_iff, Conforms]
  refine and_congr_right fun haccepts => ?_
  have hclean := (walk_clean_iff parent (.record fields) v "").2 haccepts
  rw [walk_fst parent (.record fields) v "" hclean]
  exact and_iff_left ((hsuits v haccepts).2 hno)

/-- A document of the shape of its schema is refused with what the cross-checks find. -/
theorem accept_of_conforms (hconforms : Conforms fields v)
    (h : check ((Kind.record fields).normal parent v) ≠ []) :
    accept document fields parent check decode v =
      .error (.invalid document.name (check ((Kind.record fields).normal parent v))) := by
  have hclean : (walk parent fields v "").2 = [] :=
    (walk_clean_iff parent (.record fields) v "").2 hconforms
  have hnormal : (walk parent fields v "").1 = (Kind.record fields).normal parent v :=
    walk_fst parent (.record fields) v "" hclean
  have hmerged : mergeViolations (walk parent fields v "").2 (check (walk parent fields v "").1) =
      check ((Kind.record fields).normal parent v) := by
    rw [hclean, hnormal]
    simp [mergeViolations]
  refine Checked.eq_error_of_faultOf ?_
  rw [← hmerged]
  exact Checked.faultOf_accept (hmerged ▸ h)

/-- What a reader refuses is reported without a place. -/
theorem faultOf_accept_of_not_reads (hclean : (walk parent fields v "").2 = [])
    (hcross : check (walk parent fields v "").1 = [])
    (hreads : ¬ Reads decode (walk parent fields v "").1) :
    ∃ message, Checked.faultOf (accept document fields parent check decode v) =
      some (.invalid document.name [⟨"", .stated message⟩]) := by
  have hmerged := mergeViolations_eq_nil_iff.2 ⟨hclean, hcross⟩
  unfold accept
  generalize walk parent fields v "" = w at hmerged hreads
  obtain ⟨normal, violations⟩ := w
  simp only at hmerged hreads
  simp only [hmerged]
  cases hdecode : decode normal with
  | ok x => exact absurd ⟨x, hdecode⟩ hreads
  | error fault => exact ⟨fault.message, rfl⟩

end

/-! ### Documents -/

/-- The documents of a policy. -/
inductive Document where
  | asns
  | checked (t : Checked)

namespace Document

def kind : Document → DocumentKind
  | asns => .asns
  | checked t => t.kind

/-- The fields of a document. -/
def fields : Document → List Field
  | asns => AsnInfo.document
  | checked .general => General.document
  | checked .bogons => Bogon.document
  | checked (.clients _) => Client.document
  | checked .roas => Roa.document

/-- What a document inherits from. -/
def parent : Document → Option Value
  | checked (.clients g) => some g.toValue
  | _ => none

def crossCheck : Document → Value → List Violation
  | asns => noCrossCheck
  | checked t => t.crossCheck

/-- The normal form of a document, and the violations of its schema. -/
def walked (t : Document) (v : Value) : Walked := walk t.parent t.fields v ""

/-- Why a document cannot be loaded. -/
def fault? (t : Document) (files : Files.Tree) (s : Source) : Option LoadFault :=
  match t with
  | asns => Checked.faultOf (loadAsns files s)
  | checked t => t.fault? files s

/-- A choice in a document carries a tag. -/
def TagsChoice (t : Document) (v : Value) : Prop := (Kind.record t.fields).TagsChoice v

/-- The typed form of a document can be read of a normal form. -/
def IsRead : Document → Value → Prop
  | asns => Reads AsnInfo.ofDocument
  | checked .general => Reads General.ofDocument
  | checked .bogons => Reads Bogon.ofDocument
  | checked (.clients _) => Reads Client.ofDocument
  | checked .roas => Reads Roa.ofDocument

/-- **Schemas and readers agree**, but for choices with a tag. -/
theorem suits (t : Document) : (Kind.record t.fields).Suits t.parent t.IsRead := by
  rcases t with _ | (_ | _ | g | _)
  · exact AsnInfo.suits_document
  · exact General.suits_document
  · exact Bogon.suits_document
  · exact Client.suits_document
  · exact Roa.suits_document

theorem name_ne_empty (t : Document) : ∀ f ∈ t.fields, f.name ≠ "" := by
  have hnames : "" ∉ t.fields.map Field.name := by
    rcases t with _ | (_ | _ | g | _)
    · decide
    · decide
    · decide
    · exact (by decide : "" ∉ Client.document.map Field.name)
    · decide
  exact fun f hf hempty => hnames (hempty ▸ List.mem_map_of_mem (f := Field.name) hf)

theorem path_ne_of_crossCheck (t : Document) {doc : Value} {b : Violation}
    (h : b ∈ t.crossCheck doc) : b.path ≠ "" := by
  rcases t with _ | (_ | _ | g | _)
  · cases h
  · exact General.path_ne_of_crossCheck h
  · exact Bogon.path_ne_of_crossCheck h
  · exact Client.path_ne_of_crossCheck h
  · exact Roa.path_ne_of_crossCheck h

/-- What is found in a document has a place. -/
theorem isPlaced (t : Document) {v : Value} {b : Violation}
    (h : b ∈ mergeViolations (t.walked v).2 (t.crossCheck (t.walked v).1)) : b.IsPlaced := by
  rcases List.mem_append.1 h with h | h
  · exact isPlaced_of_walk t.name_ne_empty h
  · exact .inl (t.path_ne_of_crossCheck (List.mem_filter.1 h).1)

section

variable {files : Files.Tree} {s : Source} {v : Value}

/-- All documents are loaded alike. -/
theorem exists_accept (t : Document) (hread : s.read files t.kind = .ok v) :
    ∃ (α : Type) (decode : Value → Decoded α), t.IsRead = Reads decode ∧
      t.fault? files s =
        Checked.faultOf (accept t.kind t.fields t.parent t.crossCheck decode v) := by
  rcases t with _ | (_ | _ | g | _)
  · exact ⟨_, _, rfl, congrArg Checked.faultOf (bind_read hread acceptAsns)⟩
  · exact ⟨_, _, rfl, congrArg Checked.faultOf (bind_read hread acceptGeneral)⟩
  · exact ⟨_, _, rfl, congrArg Checked.faultOf (bind_read hread acceptBogons)⟩
  · exact ⟨_, _, rfl, congrArg Checked.faultOf (bind_read hread (acceptClients g))⟩
  · exact ⟨_, _, rfl, congrArg Checked.faultOf (bind_read hread acceptRoas)⟩

/-- The normal form of a document in which the walk finds nothing is read unless a choice in it
carries a tag. -/
theorem isRead_walked_iff (t : Document) (hclean : (t.walked v).2 = []) :
    t.IsRead (t.walked v).1 ↔ ¬ t.TagsChoice v := by
  have haccepts := (walk_clean_iff t.parent (.record t.fields) v "").1 hclean
  have hnormal := walk_fst t.parent (.record t.fields) v "" hclean
  rw [walked, walk, hnormal]
  exact t.suits v haccepts

/-- A choice with a tag is reported without a place, where nothing is found. -/
theorem exists_fault_of_tagsChoice (t : Document) (hread : s.read files t.kind = .ok v)
    (hclean : (t.walked v).2 = []) (hcross : t.crossCheck (t.walked v).1 = [])
    (htags : t.TagsChoice v) :
    ∃ message, t.fault? files s = some (.invalid t.kind.name [⟨"", .stated message⟩]) := by
  obtain ⟨α, decode, hisRead, hfault⟩ := t.exists_accept hread
  have hunread : ¬ Reads decode (t.walked v).1 := by
    rw [← hisRead, t.isRead_walked_iff hclean]
    exact not_not_intro htags
  rw [hfault]
  exact faultOf_accept_of_not_reads hclean hcross hunread

end

/-- **Loading.**  A document whose text is read is loaded if neither the walk nor the cross-checks
find anything and no choice in it carries a tag.  Otherwise all that is found is reported, with its
places; a choice with a tag is reported where nothing is found, and without a place. -/
theorem loads_iff (t : Document) {files : Files.Tree} {s : Source} {v : Value}
    (hread : s.read files t.kind = .ok v) :
    (t.fault? files s = none ↔
      (t.walked v).2 = [] ∧ t.crossCheck (t.walked v).1 = [] ∧ ¬ t.TagsChoice v) ∧
    ∀ fault, t.fault? files s = some fault → ∃ vs, fault = .invalid t.kind.name vs ∧
      ((vs = mergeViolations (t.walked v).2 (t.crossCheck (t.walked v).1) ∧
          vs ≠ [] ∧ ∀ b ∈ vs, b.IsPlaced) ∨
        ((t.walked v).2 = [] ∧ t.crossCheck (t.walked v).1 = [] ∧ t.TagsChoice v ∧
          ∃ message, vs = [⟨"", .stated message⟩])) := by
  obtain ⟨α, decode, hisRead, hfault⟩ := t.exists_accept hread
  have hreads : (t.walked v).2 = [] → (Reads decode (t.walked v).1 ↔ ¬ t.TagsChoice v) :=
    fun hclean => hisRead ▸ t.isRead_walked_iff hclean
  constructor
  · rw [hfault, faultOf_accept_eq_none_iff]
    exact and_congr_right fun hclean => and_congr_right fun _ => hreads hclean
  · intro fault h
    by_cases hfound : mergeViolations (t.walked v).2 (t.crossCheck (t.walked v).1) = []
    · obtain ⟨hclean, hcross⟩ := mergeViolations_eq_nil_iff.1 hfound
      have htags : t.TagsChoice v := Classical.byContradiction fun hno => by
        have hnone : t.fault? files s = none :=
          hfault.trans (faultOf_accept_eq_none_iff.2 ⟨hclean, hcross, (hreads hclean).2 hno⟩)
        exact nomatch hnone.symm.trans h
      obtain ⟨message, hmessage⟩ := t.exists_fault_of_tagsChoice hread hclean hcross htags
      exact ⟨_, Option.some.inj (h.symm.trans hmessage), .inr ⟨hclean, hcross, htags, message, rfl⟩⟩
    · have hreported : t.fault? files s = some (.invalid t.kind.name
          (mergeViolations (t.walked v).2 (t.crossCheck (t.walked v).1))) :=
        hfault.trans (Checked.faultOf_accept hfound)
      exact ⟨_, Option.some.inj (h.symm.trans hreported),
        .inl ⟨rfl, hfound, fun b hb => t.isPlaced hb⟩⟩

/-! ### A choice with a tag -/

/-- A configuration with a policy on next hops. -/
def policyGeneral (policy : Value) : Value :=
  .ofFields [("cfg", .ofFields
    [("rs_as", .nat 64500), ("router_id", .string "192.0.2.1"),
     ("filtering", .ofFields [("next_hop_policy", policy)])])]

theorem loads_iff_plain :
    let t := checked .general
    let v := policyGeneral (.string "same-as")
    (Source.value v).read {} t.kind = .ok v ∧ t.fault? {} (.value v) = none ∧
      (t.walked v).2 = [] ∧ t.crossCheck (t.walked v).1 = [] ∧ ¬ t.TagsChoice v := by
  intro t v
  have hloads : t.fault? {} (.value v) = none := Option.isNone_iff_eq_none.1 (by decide +kernel)
  exact ⟨rfl, hloads, (loads_iff t rfl).1.1 hloads⟩

theorem tagsChoice_policyGeneral (tag name : String) :
    (checked .general).TagsChoice (policyGeneral (.tagged tag (.string name))) :=
  .field rfl (List.mem_of_getElem? (i := 0) rfl) rfl <|
  .field rfl (List.mem_of_getElem? (i := 7) rfl) rfl <|
  .field rfl (List.mem_of_getElem? (i := 0) rfl) rfl .here

/-- A policy with a tag is walked as if the tag were not there, and is then refused without a
place. -/
theorem not_loads_tagged :
    (¬ ∀ (t : Document) (files : Files.Tree) (s : Source) (v : Value),
      s.read files t.kind = .ok v → (t.walked v).2 = [] → t.crossCheck (t.walked v).1 = [] →
        t.fault? files s = none) ∧
    ¬ ∀ (t : Document) (files : Files.Tree) (s : Source) (v : Value) (vs : List Violation),
      s.read files t.kind = .ok v → t.fault? files s = some (.invalid t.kind.name vs) →
        ∀ b ∈ vs, b.path ≠ "" ∨ b ∈ (t.walked v).2 := by
  let t := checked .general
  let v := policyGeneral (.tagged "!any" (.string "strict"))
  have hread : (Source.value v).read {} t.kind = .ok v := rfl
  have hclean : (t.walked v).2 = [] := List.isEmpty_iff.1 (by decide +kernel)
  have hcross : t.crossCheck (t.walked v).1 = [] := List.isEmpty_iff.1 (by decide +kernel)
  obtain ⟨message, hfault⟩ :=
    t.exists_fault_of_tagsChoice hread hclean hcross (tagsChoice_policyGeneral _ _)
  refine ⟨fun h => ?_, fun h => ?_⟩
  · cases (h t {} _ v hread hclean hcross).symm.trans hfault
  · rcases h t {} _ v _ hread hfault _ List.mem_cons_self with hplace | hfound
    · exact hplace rfl
    · rw [hclean] at hfound
      cases hfound

end Document

end RouteServer.Policy

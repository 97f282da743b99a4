import RouteServer.Proofs.Policy.Registered
import RouteServer.Proofs.Schema.Settled

/-!
# Policy — the schemas are steady

The schemas of the general configuration, of bogons, of ROAs and of the networks' sets take normal
forms to themselves.  Two things have to be seen for that beside the shape of the schemas: every
default is of the kind of its field, and every check of texts accepts what it gives — an encoding is
its own normal form (`Community.isStable_check`), a name has no blanks left
(`AsSet.isStable_checkName`), and a key has become the name of a network
(`AsnInfo.isStable_checkKey`).
-/

namespace RouteServer.Policy

open RouteServer.Net RouteServer.Schema RouteServer.Text RouteServer.Yaml

/-! ### Checks of texts -/

theorem Community.isStable_check (kind : Encoding) : IsStable (check kind) := by
  intro s t h
  unfold check at h ⊢
  split at h
  case h_1 hparts =>
      cases h
      rw [hparts]
  case h_2 => cases h

namespace AsSet

theorem not_isBlank_of_isNameChar {c : Char} (h : isNameChar c = true) : Text.isBlank c = false := by
  have hrange : (48 ≤ c.toNat ∧ c.toNat ≤ 57) ∨ (97 ≤ c.toNat ∧ c.toNat ≤ 122) ∨
      (65 ≤ c.toNat ∧ c.toNat ≤ 90) ∨ c.toNat = 45 ∨ c.toNat = 95 ∨ c.toNat = 58 ∨
      c.toNat = 46 := by
    simp only [isNameChar, isWordChar, Bool.or_eq_true, Bool.and_eq_true, decide_eq_true_eq] at h
    rcases h with ((((((h | h) | h) | rfl) | rfl) | rfl) | rfl)
    · exact .inl h
    · exact .inr (.inl h)
    · exact .inr (.inr (.inl h))
    all_goals decide
  have hout : ∀ r ∈ blankRanges, ¬ (r.1 ≤ c.toNat ∧ c.toNat ≤ r.2) := by
    simp only [blankRanges, List.forall_mem_cons, List.not_mem_nil, false_imp_iff, implies_true,
      and_true]
    omega
  refine List.any_eq_false.2 fun r hr => ?_
  simpa using hout r hr

/-- What has no blanks is left as it is. -/
theorem trim_eq_self {cs : List Char} (h : ∀ c ∈ cs, Text.isBlank c = false) : trim cs = cs := by
  have hkeep : ∀ ds : List Char, (∀ c ∈ ds, Text.isBlank c = false) → ds.dropWhile Text.isBlank = ds := by
    intro ds hds
    cases ds with
    | nil => rfl
    | cons d ds => rw [List.dropWhile_cons, hds d List.mem_cons_self]; rfl
  have hreverse : ∀ c ∈ cs.reverse, Text.isBlank c = false := fun c hc => h c (List.mem_reverse.1 hc)
  rw [trim, trimStart, hkeep cs h, trimEnd, hkeep _ hreverse, List.reverse_reverse]

theorem isStable_checkName : IsStable checkName := by
  intro s t h
  unfold checkName at h ⊢
  simp only at h
  split at h
  case isTrue hname =>
      cases h
      have hchars := List.all_eq_true.1 (Bool.and_eq_true_iff.1 hname).2
      have htrim := trim_eq_self fun c hc => not_isBlank_of_isNameChar (hchars c hc)
      simp only [String.toList_ofList, htrim, hname, if_true]
  case isFalse => cases h

theorem steady_listKind {parent : Option Value} : listKind.Steady parent :=
  (steady_text isStable_checkName).list

end AsSet

theorem AsnInfo.isStable_checkKey : IsStable checkKey := by
  intro s t h
  obtain ⟨n, hn, rfl⟩ := checkKey_eq_ok_iff.1 h
  have hpos : 0 < n.toNat := by
    obtain ⟨_, -, hn⟩ := Option.bind_eq_some_iff.1 hn
    obtain ⟨_, -, hn⟩ := Option.bind_eq_some_iff.1 hn
    exact pos_of_ofNat? hn
  have hle : n.toNat ≤ maxWord32 := Nat.le_of_lt_succ n.toNat_lt
  refine checkKey_eq_ok_iff.2 ⟨n, ?_, rfl⟩
  rw [Asn.name, afterStart_append, Option.bind_some, Asn.text, toList_natText, readNat_digits hle]
  simp [Except.toOption, Asn.ofNat?, hpos, hle]

section

variable {parent : Option Value}

/-! ### The general configuration -/

namespace General

theorem steady_lengths {width min max : Nat} (hmin : min ≤ width) (hmax : max ≤ width) :
    (Kind.record (lengthFields width min max)).Steady parent := by
  have hparts : SteadyFields parent (lengthFields width min max) :=
    .cons ((steady_natural 0 width).orElse (settled_natural (Nat.zero_le min) hmin)) <|
    .cons ((steady_natural 0 width).orElse (settled_natural (Nat.zero_le max) hmax)) <|
    steadyFields_nil
  exact hparts.record (by simp [lengthFields])

theorem steady_transitFree : (Kind.record transitFreeFields).Steady parent := by
  have hparts : SteadyFields parent transitFreeFields :=
    .cons ((steady_oneOf _).orElse (settled_oneOf (by decide))) <|
    .cons (steady_asn.list.orElse settled_list_nil) <|
    steadyFields_nil
  exact hparts.record (by decide)

theorem steady_irr : (Kind.record irrFields).Steady parent := by
  have hparts : SteadyFields parent irrFields :=
    .cons (steady_boolean.orElse (settled_boolean false)) <|
    .cons (steady_boolean.orElse (settled_boolean false)) <|
    .cons (steady_boolean.orElse (settled_boolean true)) <|
    steadyFields_nil
  exact hparts.record (by decide)

theorem steady_rpki : (Kind.record rpkiFields).Steady parent := by
  have hparts : SteadyFields parent rpkiFields :=
    .cons (steady_boolean.orElse (settled_boolean false)) <|
    .cons (steady_boolean.orElse (settled_boolean true)) <|
    steadyFields_nil
  exact hparts.record (by decide)

theorem steady_limit : limitKind.Steady parent := steady_natural 1 maxWord32

theorem steady_maxPrefixAction : maxPrefixActionKind.Steady parent := steady_oneOf _

theorem steady_maxPrefix : (Kind.record maxPrefixFields).Steady parent := by
  have hparts : SteadyFields parent maxPrefixFields :=
    .cons (steady_boolean.orElse (settled_boolean false)) <|
    .cons (steady_limit.orElse (settled_natural (by decide) (by decide))) <|
    .cons (steady_limit.orElse (settled_natural (by decide) (by decide))) <|
    .cons (steady_maxPrefixAction.orNull rfl) <|
    steadyFields_nil
  exact hparts.record (by decide)

theorem steady_filtering : (Kind.record filteringFields).Steady parent := by
  have hparts : SteadyFields parent filteringFields :=
    .cons ((steady_oneOf _).orElse (settled_oneOf (by decide))) <|
    .cons (steady_lengths (by decide) (by decide)).ofParts <|
    .cons (steady_lengths (by decide) (by decide)).ofParts <|
    .cons ((steady_natural 1 64).orElse (settled_natural (by decide) (by decide))) <|
    .cons (steady_boolean.orElse (settled_boolean true)) <|
    .cons steady_transitFree.ofParts <|
    .cons steady_irr.ofParts <|
    .cons steady_rpki.ofParts <|
    .cons steady_maxPrefix.ofParts <|
    steadyFields_nil
  exact hparts.record (by decide)

theorem steady_blackhole : (Kind.record blackholeFields).Steady parent := by
  have hparts : SteadyFields parent blackholeFields :=
    .cons ((steady_oneOf _).orNull rfl) <|
    .cons ((steady_oneOf _).orNull rfl) <|
    .cons (steady_ipv4.orNull rfl) <|
    .cons (steady_ipv6.orNull rfl) <|
    .cons (steady_boolean.orElse (settled_boolean true)) <|
    .cons (steady_boolean.orElse (settled_boolean true)) <|
    steadyFields_nil
  exact hparts.record (by decide)

theorem steady_community : (Kind.record communityFields).Steady parent := by
  have hparts : SteadyFields parent communityFields :=
    .cons ((steady_text (Community.isStable_check .std)).orNull rfl) <|
    .cons ((steady_text (Community.isStable_check .ext)).orNull rfl) <|
    .cons ((steady_text (Community.isStable_check .lrg)).orNull rfl) <|
    .cons steady_dropped <|
    .cons steady_dropped <|
    steadyFields_nil
  exact hparts.record nodup_communityFields

theorem steady_communities : (Kind.record communitiesFields).Steady parent := by
  have hparts : SteadyFields parent communitiesFields := fun f hf => by
    obtain ⟨d, -, rfl⟩ := List.mem_map.1 hf
    exact steady_community.ofParts
  exact hparts.record nodup_communitiesFields

theorem steady_fields : (Kind.record fields).Steady parent := by
  have hparts : SteadyFields parent fields :=
    .cons steady_asn.required <|
    .cons steady_ipv4.required <|
    .cons (steady_boolean.orElse (settled_boolean false)) <|
    .cons (steady_boolean.orElse (settled_boolean true)) <|
    .cons (steady_boolean.orElse (settled_boolean true)) <|
    .cons (steady_boolean.orElse (settled_boolean false)) <|
    .cons (steady_boolean.orElse (settled_boolean false)) <|
    .cons steady_filtering.ofParts <|
    .cons steady_blackhole.ofParts <|
    .cons steady_communities.ofParts <|
    steadyFields_nil
  exact hparts.record nodup_fields

theorem steady_document : (Kind.record document).Steady parent := by
  have hparts : SteadyFields parent document :=
    .cons steady_fields.required <|
    steadyFields_nil
  exact hparts.record (by decide)

end General

/-! ### Bogons, ROAs and networks -/

theorem Bogon.steady_document : (Kind.record Bogon.document).Steady parent := by
  have hfields : (Kind.record Bogon.fields).Steady parent := by
    have hparts : SteadyFields parent Bogon.fields :=
      .cons steady_address.required <|
      .cons (steady_natural 0 128).required <|
      .cons (steady_string.orNull rfl) <|
      steadyFields_nil
    exact hparts.record (by decide)
  have hparts : SteadyFields parent Bogon.document :=
    .cons hfields.list.required <|
    steadyFields_nil
  exact hparts.record (by decide)

theorem Roa.steady_document : (Kind.record Roa.document).Steady parent := by
  have hfields : (Kind.record Roa.fields).Steady parent := by
    have hparts : SteadyFields parent Roa.fields :=
      .cons steady_address.required <|
      .cons (steady_natural 0 128).required <|
      .cons (steady_natural 0 128).required <|
      .cons steady_asn.required <|
      steadyFields_nil
    exact hparts.record (by decide)
  have hparts : SteadyFields parent Roa.document :=
    .cons (hfields.list.orElse settled_list_nil) <|
    steadyFields_nil
  exact hparts.record (by decide)

theorem AsnInfo.steady_document : (Kind.record AsnInfo.document).Steady parent := by
  have hfields : (Kind.record AsnInfo.fields).Steady parent := by
    have hparts : SteadyFields parent AsnInfo.fields :=
      .cons (AsSet.steady_listKind.orElse settled_list_nil) <|
      steadyFields_nil
    exact hparts.record (by decide)
  have hempty : (Kind.table checkKey (.record AsnInfo.fields)).Settled parent (.mapping []) :=
    show (Kind.table checkKey _).Settled parent (.mapping (named [])) from
      settled_table List.nodup_nil (by simp) (by simp)
  have hparts : SteadyFields parent AsnInfo.document :=
    .cons ((hfields.table isStable_checkKey).orElse hempty) <|
    .cons steady_dropped <|
    steadyFields_nil
  exact hparts.record (by decide)

end

end RouteServer.Policy

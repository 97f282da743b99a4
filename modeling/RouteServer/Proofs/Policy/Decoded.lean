import Mathlib.Data.List.Forall2
import RouteServer.Policy.Client
import RouteServer.Proofs.Dictionary

/-!
# Policy — what has been decoded

A record that is decoded from a normal form has in each of its fields what the value under the name
of the field decodes to.  So what a record holds can be followed back to the document, one name at a
time.
-/

namespace RouteServer.Policy

open RouteServer.Yaml

namespace Decoded

theorem bind_eq_ok {ε α β : Type} {x : Except ε α} {f : α → Except ε β} {r : β} :
    x >>= f = .ok r ↔ ∃ a, x = .ok a ∧ f a = .ok r := by
  cases x <;> simp [bind, Except.bind]

theorem require_eq_ok {α : Type} {o : Option α} {x : α} : require o = .ok x ↔ o = some x := by
  cases o <;> simp [require]

theorem bool_eq_ok {v : Value} {b : Bool} : bool v = .ok b ↔ v = .bool b := by
  cases v <;> simp [bool]

theorem string_eq_ok {v : Value} {s : String} : string v = .ok s ↔ v = .string s := by
  cases v <;> simp [string]

theorem natural_eq_ok {v : Value} {n : Nat} : natural v = .ok n ↔ v.natural? = some n :=
  require_eq_ok

theorem uint8_eq_ok {v : Value} {n : UInt8} (h : uint8 v = .ok n) :
    v.natural? = some n.toNat := by
  obtain ⟨k, hk, h⟩ := bind_eq_ok.1 h
  split at h
  case isTrue hlt =>
      cases h
      rw [natural_eq_ok.1 hk, UInt8.toNat_ofNat', Nat.mod_eq_of_lt hlt]
  case isFalse => cases h

theorem uint32_eq_ok {v : Value} {n : UInt32} (h : uint32 v = .ok n) :
    v.natural? = some n.toNat := by
  obtain ⟨k, hk, h⟩ := bind_eq_ok.1 h
  split at h
  case isTrue hlt =>
      cases h
      rw [natural_eq_ok.1 hk, UInt32.toNat_ofNat', Nat.mod_eq_of_lt hlt]
  case isFalse => cases h

theorem address_eq_ok {v : Value} {a : Net.Address} (h : address v = .ok a) :
    Schema.address? v = some a := by
  obtain ⟨s, hs, hread⟩ := bind_eq_ok.1 h
  rw [string_eq_ok.1 hs]
  exact require_eq_ok.1 hread

/-- An option is there just when the value is. -/
theorem optional_eq_ok {α : Type} {decode : Value → Decoded α} {v : Value} {o : Option α}
    (h : optional decode v = .ok o) :
    (v = .null ∧ o = none) ∨ ∃ x, decode v = .ok x ∧ o = some x := by
  unfold optional at h
  split at h
  · cases h; exact .inl ⟨rfl, rfl⟩
  · cases hd : decode v with
    | error e => rw [hd] at h; cases h
    | ok x => rw [hd] at h; cases h; exact .inr ⟨x, rfl, rfl⟩

/-- A choice is written plainly; one that carries a tag is never taken. -/
theorem choice_eq_ok {α : Type} {all : List α} {text : α → String} {v : Value} {x : α}
    (h : choice all text v = .ok x) : v = .string (text x) := by
  unfold choice at h
  split at h
  · unfold choice.pick at h
    split at h
    case h_1 s y hfind =>
        cases h
        have hsame := List.find?_some hfind
        rw [eq_of_beq hsame]
    case h_2 => cases h
  · obtain ⟨-, -, h⟩ := bind_eq_ok.1 h
    cases h
  · cases h

/-- The items of a list are decoded one by one. -/
theorem mapM_eq_ok {ε α β : Type} {decode : α → Except ε β} {xs : List α} {ys : List β} :
    xs.mapM decode = .ok ys ↔ List.Forall₂ (fun x y => decode x = .ok y) xs ys := by
  induction xs generalizing ys with
  | nil => simp [pure, Except.pure, eq_comm]
  | cons x xs ih =>
      rw [List.mapM_cons, bind_eq_ok, List.forall₂_cons_left_iff]
      simp only [bind_eq_ok, ih, pure, Except.pure, Except.ok.injEq]
      grind

theorem exists_of_forall₂ {α β : Type} {R : α → β → Prop} {xs : List α} {ys : List β}
    (h : List.Forall₂ R xs ys) {y : β} (hy : y ∈ ys) : ∃ x ∈ xs, R x y := by
  induction h with
  | nil => cases hy
  | cons hxy _ ih =>
      rcases List.mem_cons.1 hy with rfl | hy
      · exact ⟨_, List.mem_cons_self, hxy⟩
      · obtain ⟨x, hx, hxy⟩ := ih hy
        exact ⟨x, List.mem_cons_of_mem _ hx, hxy⟩

theorem list_eq_ok {α : Type} {decode : Value → Decoded α} {v : Value} {ys : List α} :
    list decode v = .ok ys ↔
      ∃ xs, v = .list xs ∧ List.Forall₂ (fun x y => decode x = .ok y) xs ys := by
  cases v <;> simp [list, mapM_eq_ok]

end Decoded

/-- A dictionary that has been decoded has the entries of a mapping. -/
theorem Decoded.dictionary_eq_ok {α : Type} {decode : Value → Decoded α} {v : Value}
    {d : Dictionary α} (h : dictionary decode v = .ok d) :
    ∃ es, v = .mapping es ∧ ∀ {name x}, d.get? name = some x →
      ∃ e ∈ es, e.1 = .string name ∧ decode e.2 = .ok x := by
  unfold dictionary at h
  split at h
  case h_2 => cases h
  case h_1 es =>
      obtain ⟨entries, hentries, h⟩ := bind_eq_ok.1 h
      cases h
      refine ⟨es, rfl, fun {name x} hx => ?_⟩
      have hmem := Dictionary.mem_of_mem_ofList (Dictionary.get?_eq_some_iff.1 hx)
      obtain ⟨e, he, hdecode⟩ := exists_of_forall₂ (mapM_eq_ok.1 hentries) hmem
      obtain ⟨n, hn, hdecode⟩ := bind_eq_ok.1 hdecode
      obtain ⟨y, hy, hdecode⟩ := bind_eq_ok.1 hdecode
      cases hdecode
      exact ⟨e, he, string_eq_ok.1 hn, hy⟩

/-- A dictionary is decoded entry by entry. -/
theorem Decoded.exists_entries_of_dictionary {α : Type} {decode : Value → Decoded α}
    {fs : List (String × Value)} {d : Dictionary α}
    (h : dictionary decode (.mapping (fs.map fun f => (.string f.1, f.2))) = .ok d) :
    ∃ entries, d = .ofList entries ∧ entries.map (·.1) = fs.map (·.1) ∧
      List.Forall₂ (fun f e => e.1 = f.1 ∧ decode f.2 = .ok e.2) fs entries := by
  unfold dictionary at h
  obtain ⟨entries, hentries, h⟩ := bind_eq_ok.1 h
  cases h
  have hall : List.Forall₂ (fun f e => e.1 = f.1 ∧ decode f.2 = .ok e.2) fs entries := by
    refine (List.forall₂_map_left_iff.1 (mapM_eq_ok.1 hentries)).imp fun f e hfe => ?_
    obtain ⟨n, hn, hfe⟩ := bind_eq_ok.1 hfe
    obtain ⟨y, hy, hfe⟩ := bind_eq_ok.1 hfe
    cases hfe
    exact ⟨(Value.string.inj (string_eq_ok.1 hn)).symm, hy⟩
  refine ⟨entries, rfl, ?_, hall⟩
  rw [← List.forall₂_eq_eq_eq, List.forall₂_map_left_iff, List.forall₂_map_right_iff]
  exact hall.flip.imp fun e f hfe => hfe.1

/-- A dictionary that has been decoded has the names of the entries. -/
theorem Decoded.mem_keys_dictionary {α : Type} {decode : Value → Decoded α}
    {fs : List (String × Value)} {d : Dictionary α}
    (h : dictionary decode (.mapping (fs.map fun f => (.string f.1, f.2))) = .ok d)
    {name : String} : name ∈ d.keys ↔ name ∈ fs.map (·.1) := by
  obtain ⟨entries, rfl, hkeys, -⟩ := exists_entries_of_dictionary h
  rw [Dictionary.mem_keys_ofList, hkeys]

/-- A dictionary that has been decoded from entries with names of their own has a value under a name
just where the entry with the name decodes to it. -/
theorem Decoded.get?_dictionary_iff {α : Type} {decode : Value → Decoded α}
    {fs : List (String × Value)} (hnames : (fs.map (·.1)).Nodup) {d : Dictionary α}
    (h : dictionary decode (.mapping (fs.map fun f => (.string f.1, f.2))) = .ok d) {name : String}
    {x : α} : d.get? name = some x ↔ ∃ v, (name, v) ∈ fs ∧ decode v = .ok x := by
  obtain ⟨entries, rfl, hkeys, hall⟩ := exists_entries_of_dictionary h
  rw [Dictionary.get?_ofList_eq_some_iff (hkeys ▸ hnames)]
  constructor
  · intro hmem
    obtain ⟨f, hf, hname, hdecode⟩ := exists_of_forall₂ hall hmem
    exact ⟨f.2, (show (name, f.2) = f from Prod.ext hname rfl) ▸ hf, hdecode⟩
  · rintro ⟨v, hmem, hdecode⟩
    obtain ⟨e, he, hname, hvalue⟩ := exists_of_forall₂ hall.flip hmem
    obtain rfl : x = e.2 := Except.ok.inj (hdecode.symm.trans hvalue)
    exact (show (name, e.2) = e from Prod.ext hname.symm rfl) ▸ he

open Decoded

/-! ### Records -/

variable {v : Value}

theorem LengthRange.of_ofValue {r : LengthRange} (h : ofValue v = .ok r) :
    uint8 (v.getD "min") = .ok r.min ∧ uint8 (v.getD "max") = .ok r.max := by
  simp only [ofValue, bind_eq_ok, field] at h
  obtain ⟨min, hmin, max, hmax, h⟩ := h
  cases h
  exact ⟨hmin, hmax⟩

theorem TransitFree.of_ofValue {t : TransitFree} (h : ofValue v = .ok t) :
    list uint32 (v.getD "asns") = .ok t.asns := by
  simp only [ofValue, bind_eq_ok, field] at h
  obtain ⟨_, -, asns, hasns, h⟩ := h
  cases h
  exact hasns

theorem MaxPrefixPolicy.of_ofValue {p : MaxPrefixPolicy} (h : ofValue v = .ok p) :
    uint32 (v.getD "general_limit_ipv4") = .ok p.generalLimitV4 ∧
      uint32 (v.getD "general_limit_ipv6") = .ok p.generalLimitV6 := by
  simp only [ofValue, bind_eq_ok, field] at h
  obtain ⟨_, -, limitV4, hlimitV4, limitV6, hlimitV6, _, -, h⟩ := h
  cases h
  exact ⟨hlimitV4, hlimitV6⟩

theorem Filtering.of_ofValue {f : Filtering} (h : ofValue v = .ok f) :
    LengthRange.ofValue (v.getD "ipv4_pref_len") = .ok f.lengthsV4 ∧
      LengthRange.ofValue (v.getD "ipv6_pref_len") = .ok f.lengthsV6 ∧
      uint8 (v.getD "max_as_path_len") = .ok f.maxAsPathLen ∧
      TransitFree.ofValue (v.getD "transit_free") = .ok f.transitFree ∧
      MaxPrefixPolicy.ofValue (v.getD "max_prefix") = .ok f.maxPrefix := by
  simp only [ofValue, bind_eq_ok, field] at h
  obtain ⟨_, -, v4, hv4, v6, hv6, len, hlen, _, -, transitFree, htransitFree, _, -, _, -, maxPrefix,
    hmaxPrefix, h⟩ := h
  cases h
  exact ⟨hv4, hv6, hlen, htransitFree, hmaxPrefix⟩

theorem Blackhole.of_ofValue {b : Blackhole} (h : ofValue v = .ok b) :
    optional BlackholePolicy.ofValue (v.getD "policy_ipv4") = .ok b.policyV4 ∧
      optional BlackholePolicy.ofValue (v.getD "policy_ipv6") = .ok b.policyV6 ∧
      optional ipv4 (v.getD "rewrite_next_hop_ipv4") = .ok b.nextHopV4 ∧
      optional ipv6 (v.getD "rewrite_next_hop_ipv6") = .ok b.nextHopV6 := by
  simp only [ofValue, bind_eq_ok, field] at h
  obtain ⟨p4, hp4, p6, hp6, n4, hn4, n6, hn6, _, -, _, -, h⟩ := h
  cases h
  exact ⟨hp4, hp6, hn4, hn6⟩

theorem Community.of_ofValue {c : Community} (h : ofValue v = .ok c) (kind : Encoding) :
    optional string (v.getD kind.name) = .ok (c.encoding kind) := by
  simp only [ofValue, bind_eq_ok, field] at h
  obtain ⟨std, hstd, ext, hext, lrg, hlrg, h⟩ := h
  cases h
  cases kind with
  | std => exact hstd
  | ext => exact hext
  | lrg => exact hlrg

theorem General.of_ofValue {g : General} (h : ofValue v = .ok g) :
    Blackhole.ofValue (v.getD "blackhole_filtering") = .ok g.blackhole ∧
      dictionary Community.ofValue (v.getD "communities") = .ok g.communities := by
  simp only [ofValue, bind_eq_ok, field] at h
  obtain ⟨_, -, _, -, _, -, _, -, _, -, _, -, _, -, _, -, b, hb, cs, hcs, h⟩ := h
  cases h
  exact ⟨hb, hcs⟩

theorem General.filtering_of_ofValue {g : General} (h : ofValue v = .ok g) :
    uint32 (v.getD "rs_as") = .ok g.rsAs ∧
      Filtering.ofValue (v.getD "filtering") = .ok g.filtering := by
  simp only [ofValue, bind_eq_ok, field] at h
  obtain ⟨rsAs, hrsAs, _, -, _, -, _, -, _, -, _, -, _, -, filtering, hfiltering, _, -, _, -, h⟩ := h
  cases h
  exact ⟨hrsAs, hfiltering⟩

theorem ClientIrr.of_ofValue {i : ClientIrr} (h : ofValue v = .ok i) :
    bool (v.getD "enforce_origin_in_as_set") = .ok i.enforceOrigin ∧
      bool (v.getD "enforce_prefix_in_as_set") = .ok i.enforcePrefix := by
  simp only [ofValue, bind_eq_ok, field] at h
  obtain ⟨_, -, origin, horigin, prefixes, hprefixes, h⟩ := h
  cases h
  exact ⟨horigin, hprefixes⟩

theorem ClientMaxPrefix.of_ofValue {p : ClientMaxPrefix} (h : ofValue v = .ok p) :
    bool (v.getD "peering_db") = .ok p.peeringDb ∧
      optional uint32 (v.getD "limit_ipv4") = .ok p.limitV4 ∧
      optional uint32 (v.getD "limit_ipv6") = .ok p.limitV6 ∧
      optional MaxPrefixAction.ofValue (v.getD "action") = .ok p.action := by
  simp only [ofValue, bind_eq_ok, field] at h
  obtain ⟨peeringDb, hpeeringDb, limitV4, hlimitV4, limitV6, hlimitV6, action, haction, h⟩ := h
  cases h
  exact ⟨hpeeringDb, hlimitV4, hlimitV6, haction⟩

theorem ClientFiltering.of_ofValue {f : ClientFiltering} (h : ofValue v = .ok f) :
    NextHopPolicy.ofValue (v.getD "next_hop_policy") = .ok f.nextHopPolicy ∧
      LengthRange.ofValue (v.getD "ipv4_pref_len") = .ok f.lengthsV4 ∧
      LengthRange.ofValue (v.getD "ipv6_pref_len") = .ok f.lengthsV6 ∧
      uint8 (v.getD "max_as_path_len") = .ok f.maxAsPathLen ∧
      bool (v.getD "reject_invalid_as_in_as_path") = .ok f.rejectInvalidAs ∧
      ClientIrr.ofValue (v.getD "irrdb") = .ok f.irr ∧
      bool ((v.getD "rpki").getD "reject_invalid") = .ok f.rejectInvalidRoa ∧
      ClientMaxPrefix.ofValue (v.getD "max_prefix") = .ok f.maxPrefix := by
  simp only [ofValue, bind_eq_ok, field] at h
  obtain ⟨policy, hpolicy, v4, hv4, v6, hv6, len, hlen, invalid, hinvalid, irr, hirr, roa, hroa,
    maxPrefix, hmaxPrefix, h⟩ := h
  cases h
  exact ⟨hpolicy, hv4, hv6, hlen, hinvalid, hirr, hroa, hmaxPrefix⟩

theorem ClientOptions.of_ofValue {o : ClientOptions} (h : ofValue v = .ok o) :
    bool (v.getD "passive") = .ok o.passive ∧ bool (v.getD "gtsm") = .ok o.gtsm ∧
      bool (v.getD "add_path") = .ok o.addPath ∧
      bool (v.getD "prepend_rs_as") = .ok o.prependRsAs ∧
      ClientFiltering.ofValue (v.getD "filtering") = .ok o.filtering ∧
      bool ((v.getD "blackhole_filtering").getD "announce_to_client") = .ok o.announceBlackhole := by
  simp only [ofValue, bind_eq_ok, field] at h
  obtain ⟨passive, hpassive, gtsm, hgtsm, addPath, haddPath, prepend, hprepend, filtering,
    hfiltering, blackhole, hblackhole, h⟩ := h
  cases h
  exact ⟨hpassive, hgtsm, haddPath, hprepend, hfiltering, hblackhole⟩

theorem Client.of_ofValue {c : Client} (h : ofValue v = .ok c) :
    uint32 (v.getD "asn") = .ok c.asn ∧ address (v.getD "ip") = .ok c.ip ∧
      optional string (v.getD "password") = .ok c.password ∧
      optional string (v.getD "description") = .ok c.description ∧
      ClientOptions.ofValue (v.getD "cfg") = .ok c.cfg := by
  simp only [ofValue, bind_eq_ok, field] at h
  obtain ⟨asn, hasn, ip, hip, password, hpassword, description, hdescription, cfg, hcfg, h⟩ := h
  cases h
  exact ⟨hasn, hip, hpassword, hdescription, hcfg⟩

theorem Bogon.of_ofValue {b : Bogon} (h : ofValue v = .ok b) :
    Decoded.address (v.getD "prefix") = .ok b.address ∧
      uint8 (v.getD "length") = .ok b.length ∧
      optional string (v.getD "comment") = .ok b.comment := by
  simp only [ofValue, bind_eq_ok, field] at h
  obtain ⟨address, haddress, length, hlength, comment, hcomment, h⟩ := h
  cases h
  exact ⟨haddress, hlength, hcomment⟩

theorem Roa.of_ofValue {r : Roa} (h : ofValue v = .ok r) :
    Decoded.address (v.getD "prefix") = .ok r.address ∧
      uint8 (v.getD "length") = .ok r.length ∧
      uint8 (v.getD "max_len") = .ok r.maxLength ∧
      uint32 (v.getD "asn") = .ok r.asn := by
  simp only [ofValue, bind_eq_ok, field] at h
  obtain ⟨address, haddress, length, hlength, maxLength, hmax, asn, hasn, h⟩ := h
  cases h
  exact ⟨haddress, hlength, hmax, hasn⟩

end RouteServer.Policy

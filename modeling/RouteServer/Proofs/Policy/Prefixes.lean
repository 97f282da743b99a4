import RouteServer.Proofs.Policy.Agreement

/-!
# Policy — the prefixes that are accepted

Bogons and ROAs are given as an address and a length side by side, and the schema lets a length go
up to 128 whatever the family of the address.  What is accepted is nevertheless said item by item: a
document of the shape of the schema is loaded just when every item makes a prefix, and a ROA names a
network and has its greatest length between its length and the width of its family.  What is loaded
is then the items themselves, in the order of the document (`loads_iff_prefixes`).

So that a second look is taken only at what the first one has let through, and ends early at some
items, makes no difference.
-/

namespace RouteServer.Policy

open RouteServer.Net RouteServer.Schema RouteServer.Yaml

/-! ### Items -/

theorem asn_ne_zero {v : Value} {n : Asn} (h : asn? v = some n) : n ≠ 0 := by
  have hread : ∀ {k : Nat}, Asn.ofNat? k = some n → n ≠ 0 := by
    intro k hk hzero
    unfold Asn.ofNat? at hk
    split at hk
    case isTrue hbounds =>
        cases hk
        have hvalue := congrArg UInt32.toNat hzero
        have hlt : k < 2 ^ 32 := Nat.lt_succ_of_le hbounds.2
        rw [UInt32.toNat_ofNat', Nat.mod_eq_of_lt hlt] at hvalue
        exact absurd hvalue (Nat.pos_iff_ne_zero.1 hbounds.1)
    case isFalse => cases hk
  unfold asn? at h
  split at h
  · obtain ⟨k, -, hk⟩ := Option.bind_eq_some_iff.1 h
    exact hread hk
  · obtain ⟨k, -, hk⟩ := Option.bind_eq_some_iff.1 h
    exact hread hk
  · cases h

section

variable {fields : List Field} {v : Value} {a : Address} {n : Nat} {name : String}

/-- A number of a section in order stands as it is in the normal form. -/
theorem natural_of_accepts (hnames : (fields.map Field.name).Nodup) {greatest : Nat}
    (hf : ⟨name, .natural 0 greatest, .required⟩ ∈ kept fields)
    (h : (Kind.record fields).Accepts v) :
    (∃ n, (v.getD name).natural? = some n ∧ n ≤ greatest) ∧
      ((Kind.record fields).normal none v).getD name = v.getD name := by
  obtain ⟨hkind, hvalue⟩ := getD_of_required none hnames hf rfl h
  obtain ⟨n, hn, -, hle⟩ := accepts_natural_iff.1 hkind
  exact ⟨⟨n, hn, hle⟩, by rw [hvalue, Kind.normal]⟩

/-- An address of a section in order is the same in the normal form. -/
theorem address_of_accepts (parent : Option Value) (hnames : (fields.map Field.name).Nodup)
    (hf : ⟨name, .address, .required⟩ ∈ kept fields) (h : (Kind.record fields).Accepts v) :
    ∃ a, addressAt name v = some a ∧
      addressAt name ((Kind.record fields).normal parent v) = some a := by
  obtain ⟨hkind, hvalue⟩ := getD_of_required parent hnames hf rfl h
  obtain ⟨a, ha⟩ := accepts_address_iff.1 hkind
  refine ⟨a, ha, ?_⟩
  rw [addressAt, hvalue, Kind.normal, ha]
  exact Address.read_text a

/-- The fields that make a prefix are among those of an item. -/
structure HasPrefixFields (fields : List Field) : Prop where
  nodup : (fields.map Field.name).Nodup
  address : ⟨"prefix", .address, .required⟩ ∈ kept fields
  length : ⟨"length", .natural 0 128, .required⟩ ∈ kept fields

/-- An item in order has an address and a length, and the same in its normal form. -/
theorem exists_hasPrefix (hfields : HasPrefixFields fields) (h : (Kind.record fields).Accepts v) :
    ∃ a n, HasPrefix v a n ∧ HasPrefix ((Kind.record fields).normal none v) a n ∧
      lengthAt "length" ((Kind.record fields).normal none v) =
        (((Kind.record fields).normal none v).getD "length").natural? := by
  obtain ⟨a, ha, ha'⟩ := address_of_accepts none hfields.nodup hfields.address h
  obtain ⟨⟨n, hn, hle⟩, hsame⟩ := natural_of_accepts hfields.nodup hfields.length h
  refine ⟨a, n, ⟨ha, hn⟩, ⟨ha', by rw [hsame, hn]⟩, ?_⟩
  rw [lengthAt, hsame, hn]
  exact Option.filter_some_pos (decide_eq_true (Nat.lt_of_le_of_lt hle (by decide)))

end

/-- What has been decoded of an item has the address and the length that the item gives. -/
theorem hasPrefix_of_decoded {fields : List Field} (hfields : HasPrefixFields fields) {v : Value}
    (h : (Kind.record fields).Accepts v) {a : Address} {n : UInt8}
    (haddress : Decoded.address (((Kind.record fields).normal none v).getD "prefix") = .ok a)
    (hlength : Decoded.uint8 (((Kind.record fields).normal none v).getD "length") = .ok n) :
    HasPrefix v a n.toNat := by
  obtain ⟨b, m, hgiven, hnormal, -⟩ := exists_hasPrefix hfields h
  obtain ⟨rfl, rfl⟩ :=
    hnormal.unique ⟨Decoded.address_eq_ok haddress, Decoded.uint8_eq_ok hlength⟩
  exact hgiven

/-- A document with one list has a choice only where an item has one. -/
theorem not_tagsChoice_items {list : String} {fields : List Field} {fallback : Fallback} {v : Value}
    (h : ∀ f ∈ fields, ∀ w, ¬ f.kind.TagsChoice w) :
    ¬ (Kind.record [⟨list, .list (.record fields), fallback⟩]).TagsChoice v := by
  refine not_tagsChoice_record ?_
  simp only [List.forall_mem_singleton]
  exact fun w => not_tagsChoice_list fun x => not_tagsChoice_record h

namespace Bogon

/-- An item of a document is a bogon: an address and a length that make a prefix. -/
def IsGiven (v : Value) : Prop := ∃ a n, HasPrefix v a n ∧ IsPrefix a n

/-- A bogon is what an item of a document gives. -/
structure Matches (v : Value) (b : Bogon) : Prop where
  hasPrefix : HasPrefix v b.address b.length.toNat
  comment : b.comment = (v.getD "comment").text?

theorem hasPrefixFields : HasPrefixFields fields where
  nodup := by decide
  address := by simp [kept, fields, Kind.isDiscarded]
  length := by simp [kept, fields, Kind.isDiscarded]

variable {v : Value}

theorem check_normal_eq_nil_iff (h : (Kind.record fields).Accepts v) (path : String) :
    check path ((Kind.record fields).normal none v) = [] ↔ IsGiven v := by
  obtain ⟨a, n, hgiven, hnormal, hlength⟩ := exists_hasPrefix hasPrefixFields h
  have hmem : ∀ b, b ∈ check path ((Kind.record fields).normal none v) ↔
      ¬ IsPrefix a n ∧ b = ⟨path, prefixCause a n⟩ := fun b =>
    (mem_check hlength).trans (exists_hasPrefix_iff hnormal)
  rw [IsGiven, exists_hasPrefix_iff hgiven]
  simp [List.eq_nil_iff_forall_not_mem, hmem]

theorem matches_of_ofValue (h : (Kind.record fields).Accepts v) {b : Bogon}
    (hb : ofValue ((Kind.record fields).normal none v) = .ok b) : Matches v b := by
  obtain ⟨haddress, hlength, hcomment⟩ := of_ofValue hb
  refine ⟨hasPrefix_of_decoded hasPrefixFields h haddress hlength, ?_⟩
  have hf : ⟨"comment", .string, .null⟩ ∈ kept fields := by simp [kept, fields, Kind.isDiscarded]
  rcases getD_of_accepts none (by decide) hf rfl h with
    ⟨hkind, hvalue⟩ | ⟨hnull, -, hvalue⟩
  · simp only at hkind hvalue
    rw [hvalue] at hcomment
    generalize v.getD "comment" = w at hkind hcomment
    cases hkind with
    | string s => exact (Except.ok.inj hcomment).symm
  · simp only at hnull hvalue
    rw [hvalue] at hcomment
    exact (Except.ok.inj hcomment).symm.trans (text?_of_isNull hnull).symm

theorem not_tagsChoice : ¬ (Kind.record document).TagsChoice v := by
  refine not_tagsChoice_items ?_
  simp only [fields, List.forall_mem_cons]
  and_intros <;> rintro w ⟨⟩

end Bogon

namespace Roa

/-- An item of a document is a ROA: an address and a length that make a prefix, the number of a
network, and a greatest length from that length to the width of the family. -/
def IsGiven (v : Value) : Prop :=
  ∃ a n, HasPrefix v a n ∧ IsPrefix a n ∧ (∃ asn, asn? (v.getD "asn") = some asn ∧ asn ≠ 0) ∧
    ∃ m, (v.getD "max_len").natural? = some m ∧ n ≤ m ∧ m ≤ a.family.width

/-- A ROA is what an item of a document gives. -/
structure Matches (v : Value) (r : Roa) : Prop where
  hasPrefix : HasPrefix v r.address r.length.toNat
  maxLength : (v.getD "max_len").natural? = some r.maxLength.toNat
  asn : asn? (v.getD "asn") = some r.asn

theorem hasPrefixFields : HasPrefixFields fields where
  nodup := by decide
  address := by simp [kept, fields, Kind.isDiscarded]
  length := by simp [kept, fields, Kind.isDiscarded]

theorem maxLength_mem_kept : ⟨"max_len", .natural 0 128, .required⟩ ∈ kept fields := by
  simp [kept, fields, Kind.isDiscarded]

theorem asn_mem_kept : ⟨"asn", .asn, .required⟩ ∈ kept fields := by
  simp [kept, fields, Kind.isDiscarded]

variable {v : Value}

theorem check_normal_eq_nil_iff (h : (Kind.record fields).Accepts v) (path : String) :
    check path ((Kind.record fields).normal none v) = [] ↔ IsGiven v := by
  obtain ⟨a, n, hgiven, hnormal, hlength⟩ := exists_hasPrefix hasPrefixFields h
  obtain ⟨⟨m, hm, -⟩, hsame⟩ := natural_of_accepts (by decide) maxLength_mem_kept h
  obtain ⟨asn, hasn⟩ :=
    accepts_asn_iff.1 (getD_of_required none (by decide) asn_mem_kept rfl h).1
  have hmem : ∀ b, b ∈ check path ((Kind.record fields).normal none v) ↔
      (¬ IsPrefix a n ∧ b = ⟨path, prefixCause a n⟩ ∨
        IsPrefix a n ∧ (m < n ∨ a.family.width < m) ∧
          b = ⟨path ++ ".max_len", .notBetween n a.family.width⟩) := fun b => by
    rw [(mem_check hlength).trans (exists_hasPrefix_iff hnormal), hsame, hm]
    simp
  rw [IsGiven, exists_hasPrefix_iff hgiven, hasn, hm]
  have hzero := asn_ne_zero hasn
  simp only [List.eq_nil_iff_forall_not_mem, hmem]
  constructor
  · intro hnone
    have hfits : IsPrefix a n := Classical.byContradiction fun hnot =>
      hnone _ (.inl ⟨hnot, rfl⟩)
    have hbounds : ¬ (m < n ∨ a.family.width < m) := fun hout => hnone _ (.inr ⟨hfits, hout, rfl⟩)
    exact ⟨hfits, ⟨asn, rfl, asn_ne_zero hasn⟩, m, rfl, by omega, by omega⟩
  · rintro ⟨hfits, -, _, ⟨⟩, hleast, hgreatest⟩ b (⟨hnot, -⟩ | ⟨-, hout, -⟩)
    · exact hnot hfits
    · omega

theorem matches_of_ofValue (h : (Kind.record fields).Accepts v) {r : Roa}
    (hr : ofValue ((Kind.record fields).normal none v) = .ok r) : Matches v r := by
  obtain ⟨haddress, hlength, hmax, hasn⟩ := of_ofValue hr
  refine ⟨hasPrefix_of_decoded hasPrefixFields h haddress hlength, ?_, ?_⟩
  · obtain ⟨-, hsame⟩ := natural_of_accepts (by decide) maxLength_mem_kept h
    rw [← hsame, Decoded.uint8_eq_ok hmax]
  · obtain ⟨hkind, hvalue⟩ := getD_of_required none (by decide) asn_mem_kept rfl h
    obtain ⟨n, hn⟩ := accepts_asn_iff.1 hkind
    rw [hvalue, Kind.normal, hn] at hasn
    have hsame : some n.toNat = some r.asn.toNat := Decoded.uint32_eq_ok hasn
    rw [hn, UInt32.toNat_inj.1 (Option.some.inj hsame)]

theorem not_tagsChoice : ¬ (Kind.record document).TagsChoice v := by
  refine not_tagsChoice_items ?_
  simp only [fields, List.forall_mem_cons]
  and_intros <;> rintro w ⟨⟩

end Roa

/-! ### Lists of prefixes -/

/-- A check finds nothing in the items of a normal form just when these are as they should be. -/
theorem itemViolations_eq_nil_iff {list : String} {check : String → Value → List Violation}
    {doc : Value} {kind : Kind} {xs : List Value} {P : Value → Prop}
    (hdoc : doc.getD list = .list (xs.map (kind.normal none)))
    (hcheck : ∀ x ∈ xs, ∀ path, check path (kind.normal none x) = [] ↔ P x) :
    itemViolations list check doc = [] ↔ ∀ x ∈ xs, P x := by
  simp only [List.eq_nil_iff_forall_not_mem, mem_itemViolations] at hcheck ⊢
  rw [hdoc]
  constructor
  · intro h x hx
    obtain ⟨i, hi, rfl⟩ := List.getElem_of_mem hx
    refine (hcheck _ hx (item list i)).1 fun b hb => h b ⟨i, kind.normal none xs[i], ?_, hb⟩
    simp [Value.items, Value.untagged, hi]
  · rintro h b ⟨i, y, hy, hb⟩
    simp only [Value.items, Value.untagged, List.getElem?_map, Option.map_eq_some_iff] at hy
    obtain ⟨x, hx, rfl⟩ := hy
    have hmem := List.mem_of_getElem? hx
    exact (hcheck x hmem (item list i)).2 (h x hmem) b hb

section

variable {α : Type} {document : DocumentKind} {fields inner : List Field} {list : String}
  {fallback : Fallback} {check : String → Value → List Violation} {decode : Value → Decoded α}
  {v : Value}

/-- What a document with one list is accepted for, and what is read of it, is said item by item. -/
theorem accept_list_iff {Given : Value → Prop} {Matches : Value → α → Prop}
    (hlist : ⟨list, .list (.record inner), fallback⟩ ∈ kept fields)
    (hnames : (fields.map Field.name).Nodup)
    (hfallback : fallback = .required ∨ fallback = .emptyList)
    (hsuits : (Kind.record fields).Suits none (Reads (Decoded.field list (Decoded.list decode))))
    (hno : ¬ (Kind.record fields).TagsChoice v)
    (hcheck : ∀ x, (Kind.record inner).Accepts x → ∀ path,
      check path ((Kind.record inner).normal none x) = [] ↔ Given x)
    (hmatches : ∀ x y, (Kind.record inner).Accepts x →
      decode ((Kind.record inner).normal none x) = .ok y → Matches x y) :
    ((∃ ys, accept document fields none (itemViolations list check)
        (Decoded.field list (Decoded.list decode)) v = .ok ys) ↔
      Conforms fields v ∧ ∀ x ∈ (v.getD list).items, Given x) ∧
    ∀ ys, accept document fields none (itemViolations list check)
        (Decoded.field list (Decoded.list decode)) v = .ok ys →
      List.Forall₂ Matches (v.getD list).items ys := by
  constructor
  · rw [exists_accept_iff hsuits hno]
    refine and_congr_right fun hconforms => ?_
    obtain ⟨hitems, hnormal⟩ := items_of_accepts none hnames hfallback hlist hconforms
    exact itemViolations_eq_nil_iff hnormal fun x hx => hcheck x (hitems x hx)
  · intro ys h
    obtain ⟨hclean, -, hdecode⟩ := accept_eq_ok.1 h
    have hconforms := (walk_clean_iff none (.record fields) v "").1 hclean
    obtain ⟨hitems, hnormal⟩ := items_of_accepts none hnames hfallback hlist hconforms
    rw [walk, walk_fst none (.record fields) v "" hclean, Decoded.field, hnormal] at hdecode
    obtain ⟨xs, hxs, hall⟩ := Decoded.list_eq_ok.1 hdecode
    cases hxs
    have hboth := (List.forall₂_and_left ..).2 ⟨hitems, List.forall₂_map_left_iff.1 hall⟩
    exact hboth.imp fun x y h => hmatches x y h.1 h.2

end

/-- **Bogons and ROAs.**  A document is loaded just when it has the shape of its schema and each of
its items is a prefix, with a network and a greatest length that fits for a ROA; what is loaded is
the items, in their order. -/
theorem loads_iff_prefixes {files : Files.Tree} {s : Source} {v : Value} :
    (s.read files .bogons = .ok v →
      ((∃ bs, loadBogons files s = .ok bs) ↔
        Conforms Bogon.document v ∧ ∀ x ∈ (v.getD "bogons").items, Bogon.IsGiven x) ∧
      ∀ bs, loadBogons files s = .ok bs →
        List.Forall₂ Bogon.Matches (v.getD "bogons").items bs) ∧
    (s.read files .roas = .ok v →
      ((∃ rs, loadRoas files s = .ok rs) ↔
        Conforms Roa.document v ∧ ∀ x ∈ (v.getD "roas").items, Roa.IsGiven x) ∧
      ∀ rs, loadRoas files s = .ok rs → List.Forall₂ Roa.Matches (v.getD "roas").items rs) := by
  constructor
  · intro hread
    have hload : loadBogons files s = acceptBogons v := bind_read hread acceptBogons
    have hlist : ⟨"bogons", .list (.record Bogon.fields), .required⟩ ∈ kept Bogon.document := by
      simp [kept, Bogon.document, Kind.isDiscarded]
    rw [hload]
    exact accept_list_iff hlist (by decide) (.inl rfl) Bogon.suits_document Bogon.not_tagsChoice
      (fun _ => Bogon.check_normal_eq_nil_iff) fun _ _ h => Bogon.matches_of_ofValue h
  · intro hread
    have hload : loadRoas files s = acceptRoas v := bind_read hread acceptRoas
    rw [hload]
    exact accept_list_iff Roa.list_mem_kept (by decide) (.inr rfl) Roa.suits_document
      Roa.not_tagsChoice (fun _ => Roa.check_normal_eq_nil_iff) fun _ _ h => Roa.matches_of_ofValue h

/-! ### A list of each -/

/-- Two prefixes, one of each family. -/
def twoBogons : Value :=
  .ofFields [("bogons", .list
    [.ofFields [("prefix", .string "10.0.0.0"), ("length", .nat 8)],
     .ofFields [("prefix", .string "2001:DB8:0::"), ("length", .nat 32),
       ("comment", .string "documentation")]])]

/-- Two ROAs, the second of which allows for pieces. -/
def twoRoas : Value :=
  .ofFields [("roas", .list
    [.ofFields [("prefix", .string "192.0.2.0"), ("length", .nat 24), ("max_len", .nat 24),
       ("asn", .string "AS64500")],
     .ofFields [("asn", .nat 64501), ("prefix", .string "2001:db8::"), ("length", .nat 32),
       ("max_len", .nat 48)]])]

theorem loads_iff_prefixes_two :
    (∃ bs, loadBogons {} (.value twoBogons) = .ok bs ∧ bs.length = 2 ∧
      Conforms Bogon.document twoBogons ∧
      (∀ x ∈ (twoBogons.getD "bogons").items, Bogon.IsGiven x) ∧
      List.Forall₂ Bogon.Matches (twoBogons.getD "bogons").items bs) ∧
    ∃ rs, loadRoas {} (.value twoRoas) = .ok rs ∧ rs.length = 2 ∧
      Conforms Roa.document twoRoas ∧ (∀ x ∈ (twoRoas.getD "roas").items, Roa.IsGiven x) ∧
      List.Forall₂ Roa.Matches (twoRoas.getD "roas").items rs := by
  have hbogons : (loadBogons {} (.value twoBogons)).toOption.isSome := by decide +kernel
  have hroas : (loadRoas {} (.value twoRoas)).toOption.isSome := by decide +kernel
  constructor
  · obtain ⟨hiff, hmatches⟩ := (loads_iff_prefixes (s := .value twoBogons)).1 rfl
    cases hload : loadBogons {} (.value twoBogons) with
    | error e => rw [hload] at hbogons; cases hbogons
    | ok bs =>
        obtain ⟨hconforms, hgiven⟩ := hiff.1 ⟨bs, hload⟩
        have hall := hmatches bs hload
        exact ⟨bs, rfl, hall.length_eq.symm, hconforms, hgiven, hall⟩
  · obtain ⟨hiff, hmatches⟩ := (loads_iff_prefixes (s := .value twoRoas)).2 rfl
    cases hload : loadRoas {} (.value twoRoas) with
    | error e => rw [hload] at hroas; cases hroas
    | ok rs =>
        obtain ⟨hconforms, hgiven⟩ := hiff.1 ⟨rs, hload⟩
        have hall := hmatches rs hload
        exact ⟨rs, rfl, hall.length_eq.symm, hconforms, hgiven, hall⟩

end RouteServer.Policy

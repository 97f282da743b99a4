import RouteServer.Proofs.Net.Address
import RouteServer.Proofs.Policy.Accepted

/-!
# Policy — the options that hold for a client

What an accepted document of clients makes of each of them (`Holds`): an option that clients inherit
has the value that the document gives, where it is there and neither it nor a section around it is
null, and otherwise the value of the same option in the general configuration.  The limits of a
client, its password and its description are its own, or none.

The options that are inherited stand in a table (`Inherited.all`), each with the names that lead to
it.  The names are the same in a client and in the general configuration, so one argument covers
them all: the walk fills the field at the end of the names with what the document or the general
configuration has there (`Schema.descend_of_walk`), and the option is decoded from there.
-/

namespace RouteServer.Yaml.Value

mutual
/-- Whether no value carries a tag. -/
def isPlain : Value → Bool
  | .tagged _ _ => false
  | .list xs => arePlain xs
  | .mapping es => entriesPlain es
  | _ => true

/-- Whether no item of a list carries a tag. -/
def arePlain : List Value → Bool
  | [] => true
  | x :: xs => isPlain x && arePlain xs

/-- Whether no value under a key carries a tag. -/
def entriesPlain : List (Value × Value) → Bool
  | [] => true
  | (_, v) :: es => isPlain v && entriesPlain es
end

theorem isPlain_of_mem {x : Value} : ∀ {xs : List Value}, arePlain xs → x ∈ xs → x.isPlain
  | y :: ys, h, hx => by
      rw [arePlain, Bool.and_eq_true] at h
      rcases List.mem_cons.1 hx with rfl | hx
      · exact h.1
      · exact isPlain_of_mem h.2 hx

theorem isPlain_of_entry {e : Value × Value} :
    ∀ {es : List (Value × Value)}, entriesPlain es → e ∈ es → e.2.isPlain
  | (k, v) :: es, h, he => by
      rw [entriesPlain, Bool.and_eq_true] at h
      rcases List.mem_cons.1 he with rfl | he
      · exact h.1
      · exact isPlain_of_entry h.2 he

theorem isPlain_get? {v w : Value} {name : String} (h : v.isPlain) (hw : v.get? name = some w) :
    w.isPlain := by
  unfold get? at hw
  split at hw
  case h_2 => cases hw
  case h_1 es hes =>
      have hv : entriesPlain es := by
        cases v with
        | mapping fs => cases hes; exact h
        | tagged t u => cases h
        | _ => cases hes
      obtain ⟨e, he, rfl⟩ := Option.map_eq_some_iff.1 hw
      exact isPlain_of_entry hv (List.mem_of_find?_eq_some he)

theorem isPlain_follow? {names : List String} :
    ∀ {v w : Value}, v.isPlain → v.follow? names = some w → w.isPlain := by
  induction names with
  | nil =>
      intro v w h hw
      cases hw
      exact h
  | cons name names ih =>
      intro v w h hw
      obtain ⟨u, hu, hw⟩ := Option.bind_eq_some_iff.1 hw
      exact ih (isPlain_get? h hu) hw

theorem isPlain_items {v : Value} (h : v.isPlain) : ∀ x ∈ v.items, x.isPlain := by
  cases v with
  | list xs => exact fun x hx => isPlain_of_mem h hx
  | tagged t u => cases h
  | _ => intro x hx; cases hx

/-- A natural number without a tag is written as its value. -/
theorem eq_nat_of_isPlain {v : Value} {n : Nat} (h : v.isPlain) (hn : v.natural? = some n) :
    v = .nat n := by
  cases v with
  | number m =>
      cases m with
      | int i => cases i <;> cases hn; rfl
      | float x => cases hn
  | tagged t u => cases h
  | _ => cases hn

end RouteServer.Yaml.Value

namespace RouteServer.Schema

open RouteServer.Yaml

theorem isPlain_given? {v w : Value} {names : List String} (h : v.isPlain)
    (hw : given? v names = some w) : w.isPlain := by
  obtain ⟨hfollow, -⟩ := Option.filter_eq_some_iff.1 hw
  exact Value.isPlain_follow? h hfollow

/-- A kind of single values, which stand as they are in a normal form. -/
structure Kind.IsOption (k : Kind) : Prop where
  keeps : ∀ {parent v path}, (k.walk parent v path).2 = [] → (k.walk parent v path).1 = v
  notRecord : k.isRecord = false
  kept : k.isDiscarded = false

theorem isOption_boolean : Kind.boolean.IsOption := by
  refine ⟨fun {parent v path} h => ?_, rfl, rfl⟩
  cases v <;> first | rfl | cases h

theorem isOption_string : Kind.string.IsOption := by
  refine ⟨fun {parent v path} h => ?_, rfl, rfl⟩
  cases v <;> first | rfl | cases h

theorem isOption_natural (least greatest : Nat) : (Kind.natural least greatest).IsOption := by
  refine ⟨fun {parent v path} h => ?_, rfl, rfl⟩
  simp only [Kind.walk] at h ⊢
  split at h
  · split at h
    case isTrue hin => rw [if_pos hin]
    case isFalse => cases h
  · cases h

theorem isOption_oneOf (choices : List String) : (Kind.oneOf choices).IsOption := by
  refine ⟨fun {parent v path} h => ?_, rfl, rfl⟩
  simp only [Kind.walk] at h ⊢
  split at h
  · split at h
    case isTrue hin => rw [if_pos hin]
    case isFalse => cases h
  · cases h

section

variable {parent : Option Value} {name : String} {kind : Kind} {names : List String}
  {given : Option Value} {path : String}

/-- A field that is inherited holds what is given, or else what the parent document has. -/
theorem fill_inherit (hkind : kind.IsOption)
    (h : ((⟨name, kind, .inherit names⟩ : Field).fill parent given path).2 = []) :
    ((⟨name, kind, .inherit names⟩ : Field).fill parent given path).1 =
      given.getD ((parent.bind (·.follow? names)).getD .null) := by
  cases given with
  | none => simp [Field.fill, hkind.notRecord, Fallback.value]
  | some v => exact hkind.keeps h

/-- A field that may be left out holds what is given, or null. -/
theorem fill_null (hkind : kind.IsOption)
    (h : ((⟨name, kind, .null⟩ : Field).fill parent given path).2 = []) :
    ((⟨name, kind, .null⟩ : Field).fill parent given path).1 = given.getD .null := by
  cases given with
  | none => simp [Field.fill, Fallback.isBuilt, Fallback.value]
  | some v => exact hkind.keeps h

end

end RouteServer.Schema

namespace RouteServer.Policy

open RouteServer.Net RouteServer.Schema RouteServer.Text RouteServer.Yaml

/-- An option that clients inherit from the general configuration. -/
structure Inherited where
  /-- The names that lead to it, from the options of a client and from the general configuration. -/
  names : List String
  ofClient : ClientOptions → Value
  ofGeneral : General → Value

namespace Inherited

/-- The options that clients inherit. -/
def all : List Inherited :=
  [⟨["passive"], fun o => .bool o.passive, fun g => .bool g.passive⟩,
   ⟨["gtsm"], fun o => .bool o.gtsm, fun g => .bool g.gtsm⟩,
   ⟨["add_path"], fun o => .bool o.addPath, fun g => .bool g.addPath⟩,
   ⟨["prepend_rs_as"], fun o => .bool o.prependRsAs, fun g => .bool g.prependRsAs⟩,
   ⟨["filtering", "next_hop_policy"], fun o => .string o.filtering.nextHopPolicy.text,
    fun g => .string g.filtering.nextHopPolicy.text⟩,
   ⟨["filtering", "ipv4_pref_len", "min"], fun o => uint8Value o.filtering.lengthsV4.min,
    fun g => uint8Value g.filtering.lengthsV4.min⟩,
   ⟨["filtering", "ipv4_pref_len", "max"], fun o => uint8Value o.filtering.lengthsV4.max,
    fun g => uint8Value g.filtering.lengthsV4.max⟩,
   ⟨["filtering", "ipv6_pref_len", "min"], fun o => uint8Value o.filtering.lengthsV6.min,
    fun g => uint8Value g.filtering.lengthsV6.min⟩,
   ⟨["filtering", "ipv6_pref_len", "max"], fun o => uint8Value o.filtering.lengthsV6.max,
    fun g => uint8Value g.filtering.lengthsV6.max⟩,
   ⟨["filtering", "max_as_path_len"], fun o => uint8Value o.filtering.maxAsPathLen,
    fun g => uint8Value g.filtering.maxAsPathLen⟩,
   ⟨["filtering", "reject_invalid_as_in_as_path"], fun o => .bool o.filtering.rejectInvalidAs,
    fun g => .bool g.filtering.rejectInvalidAs⟩,
   ⟨["filtering", "irrdb", "enforce_origin_in_as_set"], fun o => .bool o.filtering.irr.enforceOrigin,
    fun g => .bool g.filtering.irr.enforceOrigin⟩,
   ⟨["filtering", "irrdb", "enforce_prefix_in_as_set"], fun o => .bool o.filtering.irr.enforcePrefix,
    fun g => .bool g.filtering.irr.enforcePrefix⟩,
   ⟨["filtering", "rpki", "reject_invalid"], fun o => .bool o.filtering.rejectInvalidRoa,
    fun g => .bool g.filtering.rpki.rejectInvalid⟩,
   ⟨["filtering", "max_prefix", "peering_db"], fun o => .bool o.filtering.maxPrefix.peeringDb,
    fun g => .bool g.filtering.maxPrefix.peeringDb⟩,
   ⟨["filtering", "max_prefix", "action"],
    fun o => optionValue (fun a => .string a.text) o.filtering.maxPrefix.action,
    fun g => optionValue (fun a => .string a.text) g.filtering.maxPrefix.action⟩,
   ⟨["blackhole_filtering", "announce_to_client"], fun o => .bool o.announceBlackhole,
    fun g => .bool g.blackhole.announceToClient⟩]

/-- The general configuration as a document has the option at the end of its names. -/
theorem follow?_general (g : General) :
    ∀ o ∈ all, g.toValue.follow? o.names = some (o.ofGeneral g) := by
  simp only [all, List.forall_mem_cons, List.not_mem_nil, false_imp_iff, implies_true, and_true]
  and_intros <;> rfl

/-- The field of an option stands at the end of some names. -/
def HasField (fields : List Field) (names : List String) (o : Inherited) : Prop :=
  ∃ name kind, kind.IsOption ∧ At fields names ⟨name, kind, .inherit o.names⟩

section Fields

variable {fields inner : List Field} {name : String} {kind : Kind} {names : List String}
  {o : Inherited}

theorem HasField.here (hnames : (fields.map Field.name).Nodup) (hkind : kind.IsOption)
    (hf : Client.inherited name kind o.names ∈ fields) : HasField fields [name] o :=
  ⟨name, kind, hkind, .here hnames hf⟩

theorem HasField.inside (hnames : (fields.map Field.name).Nodup)
    (hf : .ofParts name inner ∈ fields) (h : HasField inner names o) :
    HasField fields (name :: names) o := by
  obtain ⟨n, kind, hkind, hat⟩ := h
  exact ⟨n, kind, hkind, .inside hnames hf hat⟩

theorem HasField.filtering (h : HasField Client.filteringFields names o) :
    HasField Client.optionFields ("filtering" :: names) o :=
  .inside (by decide) (by simp [Client.optionFields]) h

theorem HasField.filteringPart (inner : List Field)
    (hf : .ofParts name inner ∈ Client.filteringFields) (h : HasField inner names o) :
    HasField Client.optionFields ("filtering" :: name :: names) o :=
  .filtering (.inside (by decide) hf h)

end Fields

/-- Every option that is inherited has its field in the schema of a client. -/
theorem hasField : ∀ o ∈ all, HasField Client.optionFields o.names o := by
  simp only [all, List.forall_mem_cons, List.not_mem_nil, false_imp_iff, implies_true, and_true]
  and_intros
  · exact .here (by decide) isOption_boolean (by simp [Client.optionFields])
  · exact .here (by decide) isOption_boolean (by simp [Client.optionFields])
  · exact .here (by decide) isOption_boolean (by simp [Client.optionFields])
  · exact .here (by decide) isOption_boolean (by simp [Client.optionFields])
  · exact .filtering (.here (by decide) (isOption_oneOf (NextHopPolicy.all.map NextHopPolicy.text))
      (by simp [Client.filteringFields, General.nextHopPolicyKind]))
  · exact .filteringPart (Client.lengthFields "ipv4_pref_len" 32) (by simp [Client.filteringFields])
      (.here (by decide) (isOption_natural 0 32) (by simp [Client.lengthFields]))
  · exact .filteringPart (Client.lengthFields "ipv4_pref_len" 32) (by simp [Client.filteringFields])
      (.here (by decide) (isOption_natural 0 32) (by simp [Client.lengthFields]))
  · exact .filteringPart (Client.lengthFields "ipv6_pref_len" 128) (by simp [Client.filteringFields])
      (.here (by decide) (isOption_natural 0 128) (by simp [Client.lengthFields]))
  · exact .filteringPart (Client.lengthFields "ipv6_pref_len" 128) (by simp [Client.filteringFields])
      (.here (by decide) (isOption_natural 0 128) (by simp [Client.lengthFields]))
  · exact .filtering (.here (by decide) (isOption_natural 1 64) (by simp [Client.filteringFields]))
  · exact .filtering (.here (by decide) isOption_boolean (by simp [Client.filteringFields]))
  · exact .filteringPart Client.irrFields (by simp [Client.filteringFields])
      (.here (by decide) isOption_boolean (by simp [Client.irrFields]))
  · exact .filteringPart Client.irrFields (by simp [Client.filteringFields])
      (.here (by decide) isOption_boolean (by simp [Client.irrFields]))
  · exact .filteringPart Client.rpkiFields (by simp [Client.filteringFields])
      (.here (by decide) isOption_boolean (by simp [Client.rpkiFields]))
  · exact .filteringPart Client.maxPrefixFields (by simp [Client.filteringFields])
      (.here (by decide) isOption_boolean (by simp [Client.maxPrefixFields]))
  · exact .filteringPart Client.maxPrefixFields (by simp [Client.filteringFields])
      (.here (by decide) (isOption_oneOf (MaxPrefixAction.all.map MaxPrefixAction.text))
        (by simp [Client.maxPrefixFields, General.maxPrefixActionKind]))
  · exact .inside (by decide)
      (show .ofParts "blackhole_filtering" Client.blackholeFields ∈ Client.optionFields by
        simp [Client.optionFields])
      (.here (by decide) isOption_boolean (by simp [Client.blackholeFields]))

/-- Options that have been decoded have the values at the end of their names. -/
theorem descend_eq {v : Value} {options : ClientOptions} (h : ClientOptions.ofValue v = .ok options) :
    ∀ o ∈ all, (descend v o.names).isPlain → descend v o.names = o.ofClient options := by
  obtain ⟨hpassive, hgtsm, haddPath, hprepend, hfiltering, hblackhole⟩ := ClientOptions.of_ofValue h
  obtain ⟨hpolicy, hv4, hv6, hlength, hinvalid, hirr, hroa, hmaxPrefix⟩ :=
    ClientFiltering.of_ofValue hfiltering
  obtain ⟨hmin4, hmax4⟩ := LengthRange.of_ofValue hv4
  obtain ⟨hmin6, hmax6⟩ := LengthRange.of_ofValue hv6
  obtain ⟨horigin, hprefixes⟩ := ClientIrr.of_ofValue hirr
  obtain ⟨hpeeringDb, -, -, haction⟩ := ClientMaxPrefix.of_ofValue hmaxPrefix
  -- a number that carries a tag decodes as well, but is not what stands in the document
  have huint8 : ∀ {w : Value} {n : UInt8}, Decoded.uint8 w = .ok n → w.isPlain → w = uint8Value n :=
    fun hn hw => Value.eq_nat_of_isPlain hw (Decoded.uint8_eq_ok hn)
  simp only [all, List.forall_mem_cons, List.not_mem_nil, false_imp_iff, implies_true, and_true]
  and_intros
  · exact fun _ => Decoded.bool_eq_ok.1 hpassive
  · exact fun _ => Decoded.bool_eq_ok.1 hgtsm
  · exact fun _ => Decoded.bool_eq_ok.1 haddPath
  · exact fun _ => Decoded.bool_eq_ok.1 hprepend
  · exact fun _ => Decoded.choice_eq_ok hpolicy
  · exact huint8 hmin4
  · exact huint8 hmax4
  · exact huint8 hmin6
  · exact huint8 hmax6
  · exact huint8 hlength
  · exact fun _ => Decoded.bool_eq_ok.1 hinvalid
  · exact fun _ => Decoded.bool_eq_ok.1 horigin
  · exact fun _ => Decoded.bool_eq_ok.1 hprefixes
  · exact fun _ => Decoded.bool_eq_ok.1 hroa
  · exact fun _ => Decoded.bool_eq_ok.1 hpeeringDb
  · intro _
    rcases Decoded.optional_eq_ok haction with ⟨hnull, hnone⟩ | ⟨a, ha, hsome⟩
    · simp only [hnone]
      exact hnull
    · simp only [hsome]
      exact Decoded.choice_eq_ok ha
  · exact fun _ => Decoded.bool_eq_ok.1 hblackhole

/-- What the general configuration has of an option carries no tag. -/
theorem isPlain_ofGeneral (g : General) : ∀ o ∈ all, (o.ofGeneral g).isPlain := by
  simp only [all, List.forall_mem_cons, List.not_mem_nil, false_imp_iff, implies_true, and_true]
  and_intros
  all_goals first | rfl | skip
  cases g.filtering.maxPrefix.action <;> rfl

end Inherited

/-! ### Clients -/

/-- What a client of a document has, with the options that hold for it. -/
structure Holds (g : General) (given : Value) (c : Client) : Prop where
  asn : (given? given ["asn"]).bind asn? = some c.asn
  ip : (given? given ["ip"]).bind address? = some c.ip
  inherited : ∀ o ∈ Inherited.all,
    o.ofClient c.cfg = (given? given ("cfg" :: o.names)).getD (o.ofGeneral g)
  limitV4 : optionValue uint32Value c.cfg.filtering.maxPrefix.limitV4 =
    (given? given ["cfg", "filtering", "max_prefix", "limit_ipv4"]).getD .null
  limitV6 : optionValue uint32Value c.cfg.filtering.maxPrefix.limitV6 =
    (given? given ["cfg", "filtering", "max_prefix", "limit_ipv6"]).getD .null
  password : optionValue .string c.password = (given? given ["password"]).getD .null
  description : optionValue .string c.description = (given? given ["description"]).getD .null

section

variable {g : General} {v : Value} {path : String} {c : Client}

theorem at_cfg {names : List String} {f : Field} (h : At Client.optionFields names f) :
    At Client.fields ("cfg" :: names) f :=
  .inside (by decide) (by simp [Client.fields]) h

theorem at_maxPrefix {names : List String} {f : Field} (h : At Client.maxPrefixFields names f) :
    At Client.fields ("cfg" :: "filtering" :: "max_prefix" :: names) f :=
  at_cfg (.inside (by decide)
    (show .ofParts "filtering" Client.filteringFields ∈ Client.optionFields by
      simp [Client.optionFields])
    (.inside (by decide) (by simp [Client.filteringFields]) h))

theorem optionValue_of_optional {α : Type} {decode : Value → Decoded α} {f : α → Value} {w : Value}
    {o : Option α} (h : Decoded.optional decode w = .ok o)
    (hf : ∀ {x}, decode w = .ok x → w = f x) : optionValue f o = w := by
  rcases Decoded.optional_eq_ok h with ⟨hnull, rfl⟩ | ⟨x, hx, rfl⟩
  · exact hnull.symm
  · exact (hf hx).symm

/-- An option of its own that a client may leave out. -/
theorem descend_of_null {names : List String} {name : String} {kind : Kind}
    (hkind : kind.IsOption) (hat : At Client.fields names ⟨name, kind, .null⟩)
    (hclean : ((Kind.record Client.fields).walk (some g.toValue) v path).2 = []) :
    descend ((Kind.record Client.fields).walk (some g.toValue) v path).1 names =
      (given? v names).getD .null := by
  obtain ⟨p, hvalue, hfill⟩ := descend_of_walk hat hkind.kept hclean
  exact hvalue.trans (fill_null hkind hfill)

theorem isPlain_given {names : List String} {w : Value} (hplain : v.isPlain) (hw : w.isPlain) :
    ((given? v names).getD w).isPlain := by
  cases hgiven : given? v names with
  | none => exact hw
  | some x => exact isPlain_given? hplain hgiven

theorem inherited_of_walk (hplain : v.isPlain)
    (hclean : ((Kind.record Client.fields).walk (some g.toValue) v path).2 = [])
    {options : ClientOptions}
    (hdecode : ClientOptions.ofValue
      (((Kind.record Client.fields).walk (some g.toValue) v path).1.getD "cfg") = .ok options) :
    ∀ o ∈ Inherited.all,
      o.ofClient options = (given? v ("cfg" :: o.names)).getD (o.ofGeneral g) := by
  intro o ho
  obtain ⟨name, kind, hkind, hat⟩ := Inherited.hasField o ho
  obtain ⟨p, hvalue, hfill⟩ := descend_of_walk (at_cfg hat) hkind.kept hclean
  have hfilled := fill_inherit hkind hfill
  rw [Option.bind_some, Inherited.follow?_general g o ho, Option.getD_some] at hfilled
  have hdescend : descend
      (((Kind.record Client.fields).walk (some g.toValue) v path).1.getD "cfg") o.names =
        (given? v ("cfg" :: o.names)).getD (o.ofGeneral g) := hvalue.trans hfilled
  -- the walk has filled the field; what is left is to decode it
  rw [← hdescend]
  refine (Inherited.descend_eq hdecode o ho ?_).symm
  rw [hdescend]
  exact isPlain_given hplain (Inherited.isPlain_ofGeneral g o ho)

theorem asn_of_walk (hclean : ((Kind.record Client.fields).walk (some g.toValue) v path).2 = [])
    {asn : Asn} (hdecode : Decoded.uint32
      (((Kind.record Client.fields).walk (some g.toValue) v path).1.getD "asn") = .ok asn) :
    (given? v ["asn"]).bind asn? = some asn := by
  have hf : ⟨"asn", .asn, .required⟩ ∈ kept Client.fields := by
    simp [kept, Client.fields, Kind.isDiscarded]
  obtain ⟨x, p, hgiven, hvalue, hx⟩ := given_of_required (by decide) hf hclean
  rw [hvalue] at hdecode
  rw [hgiven, Option.bind_some]
  simp only [Kind.walk] at hx hdecode
  cases hasn : asn? x with
  | none => rw [hasn] at hx; cases hx
  | some n =>
      rw [hasn] at hdecode
      have hn : some n.toNat = some asn.toNat := Decoded.uint32_eq_ok hdecode
      rw [UInt32.toNat_inj.1 (Option.some.inj hn)]

theorem ip_of_walk (hclean : ((Kind.record Client.fields).walk (some g.toValue) v path).2 = [])
    {ip : Address} (hdecode : Decoded.address
      (((Kind.record Client.fields).walk (some g.toValue) v path).1.getD "ip") = .ok ip) :
    (given? v ["ip"]).bind address? = some ip := by
  have hf : ⟨"ip", .address, .required⟩ ∈ kept Client.fields := by
    simp [kept, Client.fields, Kind.isDiscarded]
  obtain ⟨x, p, hgiven, hvalue, hx⟩ := given_of_required (by decide) hf hclean
  rw [hvalue] at hdecode
  rw [hgiven, Option.bind_some]
  simp only [Kind.walk, walkAddress] at hx hdecode
  cases hip : address? x with
  | none => rw [hip] at hx; cases hx
  | some a =>
      rw [hip] at hdecode
      exact (Address.read_text a).symm.trans (Decoded.address_eq_ok hdecode)

theorem limit_of_walk (hplain : v.isPlain)
    (hclean : ((Kind.record Client.fields).walk (some g.toValue) v path).2 = [])
    {name : String} (hname : name ∈ ["limit_ipv4", "limit_ipv6"]) {limit : Option UInt32}
    (hdecode : Decoded.optional Decoded.uint32
      (descend ((Kind.record Client.fields).walk (some g.toValue) v path).1
        ["cfg", "filtering", "max_prefix", name]) = .ok limit) :
    optionValue uint32Value limit =
      (given? v ["cfg", "filtering", "max_prefix", name]).getD .null := by
  have hat : At Client.maxPrefixFields [name] ⟨name, General.limitKind, .null⟩ := by
    refine .here (f := ⟨name, General.limitKind, .null⟩) (by decide) ?_
    rcases List.mem_cons.1 hname with rfl | hname
    · simp [Client.maxPrefixFields]
    · rw [List.mem_singleton.1 hname]
      simp [Client.maxPrefixFields]
  have hwalked := descend_of_null (isOption_natural 1 maxWord32) (at_maxPrefix hat) hclean
  rw [hwalked] at hdecode
  refine optionValue_of_optional hdecode fun {n} hn => ?_
  exact Value.eq_nat_of_isPlain (isPlain_given hplain rfl) (Decoded.uint32_eq_ok hn)

theorem text_of_walk (hclean : ((Kind.record Client.fields).walk (some g.toValue) v path).2 = [])
    {name : String} (hname : name ∈ ["password", "description"]) {text : Option String}
    (hdecode : Decoded.optional Decoded.string
      (((Kind.record Client.fields).walk (some g.toValue) v path).1.getD name) = .ok text) :
    optionValue .string text = (given? v [name]).getD .null := by
  have hat : At Client.fields [name] ⟨name, .string, .null⟩ := by
    refine .here (f := ⟨name, .string, .null⟩) (by decide) ?_
    rcases List.mem_cons.1 hname with rfl | hname
    · simp [Client.fields]
    · rw [List.mem_singleton.1 hname]
      simp [Client.fields]
  rw [← descend_of_null isOption_string hat hclean]
  exact optionValue_of_optional hdecode Decoded.string_eq_ok.1

/-- A client whose walk finds nothing wrong. -/
theorem holds_of_walk (hplain : v.isPlain)
    (hclean : ((Kind.record Client.fields).walk (some g.toValue) v path).2 = [])
    (hdecode : Client.ofValue ((Kind.record Client.fields).walk (some g.toValue) v path).1 = .ok c) :
    Holds g v c := by
  obtain ⟨hasn, hip, hpassword, hdescription, hcfg⟩ := Client.of_ofValue hdecode
  obtain ⟨-, -, -, -, hfiltering, -⟩ := ClientOptions.of_ofValue hcfg
  obtain ⟨-, -, -, -, -, -, -, hmaxPrefix⟩ := ClientFiltering.of_ofValue hfiltering
  obtain ⟨-, hlimitV4, hlimitV6, -⟩ := ClientMaxPrefix.of_ofValue hmaxPrefix
  exact
    { asn := asn_of_walk hclean hasn
      ip := ip_of_walk hclean hip
      inherited := inherited_of_walk hplain hclean hcfg
      limitV4 := limit_of_walk hplain hclean (by simp) hlimitV4
      limitV6 := limit_of_walk hplain hclean (by simp) hlimitV6
      password := text_of_walk hclean (by simp) hpassword
      description := text_of_walk hclean (by simp) hdescription }

end

/-! ### Documents -/

theorem forall₂_of_mapIdx {α β γ : Type} {R : γ → β → Prop} {xs : List α} :
    ∀ {f : Nat → α → γ} {ys : List β}, List.Forall₂ R (xs.mapIdx f) ys →
      List.Forall₂ (fun x y => ∃ i, R (f i x) y) xs ys := by
  induction xs with
  | nil =>
      intro f ys h
      cases h
      exact .nil
  | cons x xs ih =>
      intro f ys h
      rw [List.mapIdx_cons] at h
      cases h with
      | cons hx hxs => exact .cons ⟨0, hx⟩ ((ih hxs).imp fun _ _ ⟨i, hi⟩ => ⟨i + 1, hi⟩)

/-- The walk of a list goes through its items. -/
theorem forall₂_of_walk_list {α : Type} {kind : Kind} {parent : Option Value} {xs : List Value}
    {path : String} {decode : Value → Decoded α} {ys : List α}
    (hclean : ((Kind.list kind).walk parent (.list xs) path).2 = [])
    (h : Decoded.list decode ((Kind.list kind).walk parent (.list xs) path).1 = .ok ys) :
    List.Forall₂ (fun x y => ∃ p, (kind.walk parent x p).2 = [] ∧
      decode (kind.walk parent x p).1 = .ok y) xs ys := by
  simp only [Kind.walk] at hclean h
  obtain ⟨zs, hzs, h⟩ := Decoded.list_eq_ok.1 h
  cases hzs
  have hall := (List.forall₂_and_left ..).2
    ⟨List.flatMap_eq_nil_iff.1 hclean, List.forall₂_map_left_iff.1 h⟩
  refine (forall₂_of_mapIdx hall).imp fun x y hxy => ?_
  obtain ⟨i, hi⟩ := hxy
  exact ⟨item path i, hi⟩

/-- A list that is missing or null has no items. -/
theorem items_getD (v : Value) (name : String) :
    (v.getD name).items = ((given? v [name]).getD .null).items := by
  rw [Value.getD, given?_single]
  cases v.get? name with
  | none => rfl
  | some w =>
      cases hnull : w.isNull with
      | false => rw [Option.filter_some_pos (by simp [hnull])]
      | true =>
          rw [Option.filter_some_neg (by simp [hnull]), Option.getD_some, items_of_isNull hnull]
          rfl

theorem holds_of_acceptClients {g : General} {doc : Value} (hplain : doc.isPlain)
    {cs : List Client} (h : acceptClients g doc = .ok cs) :
    List.Forall₂ (Holds g) (doc.getD "clients").items cs := by
  obtain ⟨hclean, -, hdecode⟩ := accept_eq_ok.1 h
  have hat : At Client.document ["clients"] ⟨"clients", .list (.record Client.fields), .emptyList⟩ :=
    .here (f := ⟨"clients", .list (.record Client.fields), .emptyList⟩) (by decide)
      (by simp [Client.document])
  obtain ⟨p, hvalue, hfill⟩ := descend_of_walk hat rfl hclean
  replace hdecode : Decoded.list Client.ofValue
      (descend ((Kind.record Client.document).walk (some g.toValue) doc "").1 ["clients"]) =
        .ok cs := hdecode
  rw [hvalue] at hdecode
  rw [items_getD]
  cases hgiven : given? doc ["clients"] with
  | none =>
      rw [hgiven] at hdecode
      obtain ⟨xs, hxs, hall⟩ := Decoded.list_eq_ok.1 hdecode
      cases hxs
      cases hall
      exact .nil
  | some w =>
      rw [hgiven] at hdecode hfill
      have hw : w.isPlain := isPlain_given? hplain hgiven
      cases w with
      | list xs =>
          have hall := forall₂_of_walk_list hfill hdecode
          have hplains := fun x hx => Value.isPlain_items hw x hx
          exact ((List.forall₂_and_left ..).2 ⟨hplains, hall⟩).imp
            fun x c ⟨hx, p, hc, hd⟩ => holds_of_walk hx hc hd
      | _ => cases hfill

/-- **Effective options.**  The clients that are loaded are those of the document, in its order, each
with the options that hold for it. -/
theorem holds_of_loadClients {g : General} {files : Files.Tree} {source : Source} {doc : Value}
    (hread : source.read files .clients = .ok doc) (hplain : doc.isPlain) {cs : List Client}
    (h : loadClients files source g = .ok cs) :
    List.Forall₂ (Holds g) (doc.getD "clients").items cs := by
  unfold loadClients at h
  rw [hread] at h
  exact holds_of_acceptClients hplain h

/-! ### Two clients -/

/-- A configuration with a bound of its own. -/
def boundedGeneral : Value :=
  .ofFields [("cfg", .ofFields
    [("rs_as", .nat 64500), ("router_id", .string "192.0.2.1"),
     ("filtering", .ofFields [("max_as_path_len", .nat 20)])])]

/-- The first client gives a part of a section; the second one has nulls in its place. -/
def partialClients : Value :=
  .ofFields [("clients", .list
    [.ofFields [("asn", .nat 64501), ("ip", .string "192.0.2.2"),
       ("cfg", .ofFields [("filtering", .ofFields
         [("ipv4_pref_len", .ofFields [("max", .nat 28)]), ("max_as_path_len", .null)])])],
     .ofFields [("asn", .string "AS64502"), ("ip", .string "192.0.2.3"),
       ("cfg", .ofFields [("passive", .bool false), ("filtering", .null)])]])]

theorem holds_of_loadClients_partial :
    ∃ g, acceptGeneral boundedGeneral = .ok g ∧
      ∃ cs, loadClients {} (.value partialClients) g = .ok cs ∧
        (cs.map fun c => (c.cfg.passive, c.cfg.filtering.lengthsV4,
            c.cfg.filtering.maxAsPathLen)) = [(true, ⟨8, 28⟩, 20), (false, ⟨8, 24⟩, 20)] ∧
        List.Forall₂ (Holds g) (partialClients.getD "clients").items cs := by
  have hrun : (acceptGeneral boundedGeneral).toOption.any fun g =>
      (loadClients {} (.value partialClients) g).toOption.any fun cs =>
        decide ((cs.map fun c => (c.cfg.passive, c.cfg.filtering.lengthsV4,
          c.cfg.filtering.maxAsPathLen)) = [(true, ⟨8, 28⟩, 20), (false, ⟨8, 24⟩, 20)]) := by
    decide +kernel
  cases hg : acceptGeneral boundedGeneral with
  | error e => rw [hg] at hrun; cases hrun
  | ok g =>
      rw [hg] at hrun
      replace hrun : (loadClients {} (.value partialClients) g).toOption.any _ = true := hrun
      cases hload : loadClients {} (.value partialClients) g with
      | error e => rw [hload] at hrun; cases hrun
      | ok cs =>
          rw [hload] at hrun
          exact ⟨g, rfl, cs, hload, of_decide_eq_true hrun,
            holds_of_loadClients rfl (show partialClients.isPlain by decide) hload⟩

end RouteServer.Policy

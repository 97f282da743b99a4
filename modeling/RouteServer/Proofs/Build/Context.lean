import RouteServer.Build.Rendering
import RouteServer.Proofs.Net.Address
import RouteServer.Proofs.Policy.Options
import RouteServer.Proofs.Template.Forms

/-!
# Build — what templates read

The attributes of the records that templates are given, and what the filters and tests make of them.
A record stays whole until one of its attributes is asked for.
-/

namespace RouteServer.Build

open RouteServer.Net RouteServer.Policy RouteServer.Text
open Template (Value)

/-! ### The general configuration -/

@[simp] theorem attr?_general (g : General) (n : String) :
    (Value.ofYaml g.toValue).attr? n =
      ([("rs_as", uint32Value g.rsAs),
        ("router_id", .string (Address.v4Text g.routerId)),
        ("prepend_rs_as", .bool g.prependRsAs),
        ("path_hiding", .bool g.pathHiding),
        ("passive", .bool g.passive),
        ("gtsm", .bool g.gtsm),
        ("add_path", .bool g.addPath),
        ("filtering", g.filtering.toValue),
        ("blackhole_filtering", g.blackhole.toValue),
        ("communities", dictionaryValue Community.toValue g.communities)].lookup n).map
          Value.ofYaml :=
  Value.attr?_ofFields _ n

@[simp] theorem attr?_filtering (f : Filtering) (n : String) :
    (Value.ofYaml f.toValue).attr? n =
      ([("next_hop_policy", .string f.nextHopPolicy.text),
        ("ipv4_pref_len", f.lengthsV4.toValue),
        ("ipv6_pref_len", f.lengthsV6.toValue),
        ("max_as_path_len", uint8Value f.maxAsPathLen),
        ("reject_invalid_as_in_as_path", .bool f.rejectInvalidAs),
        ("transit_free", f.transitFree.toValue),
        ("irrdb", f.irr.toValue),
        ("rpki", f.rpki.toValue),
        ("max_prefix", f.maxPrefix.toValue)].lookup n).map Value.ofYaml :=
  Value.attr?_ofFields _ n

@[simp] theorem attr?_lengthRange (r : LengthRange) (n : String) :
    (Value.ofYaml r.toValue).attr? n =
      ([("min", uint8Value r.min), ("max", uint8Value r.max)].lookup n).map Value.ofYaml :=
  Value.attr?_ofFields _ n

@[simp] theorem attr?_transitFree (t : TransitFree) (n : String) :
    (Value.ofYaml t.toValue).attr? n =
      ([("action", .string t.action.text),
        ("asns", .list (t.asns.map uint32Value))].lookup n).map Value.ofYaml :=
  Value.attr?_ofFields _ n

@[simp] theorem attr?_irr (p : IrrPolicy) (n : String) :
    (Value.ofYaml p.toValue).attr? n =
      ([("enforce_origin_in_as_set", .bool p.enforceOrigin),
        ("enforce_prefix_in_as_set", .bool p.enforcePrefix),
        ("tag_as_set", .bool p.tagAsSet)].lookup n).map Value.ofYaml :=
  Value.attr?_ofFields _ n

@[simp] theorem attr?_rpki (p : RpkiPolicy) (n : String) :
    (Value.ofYaml p.toValue).attr? n =
      ([("enabled", .bool p.enabled),
        ("reject_invalid", .bool p.rejectInvalid)].lookup n).map Value.ofYaml :=
  Value.attr?_ofFields _ n

@[simp] theorem attr?_maxPrefix (p : MaxPrefixPolicy) (n : String) :
    (Value.ofYaml p.toValue).attr? n =
      ([("peering_db", .bool p.peeringDb),
        ("general_limit_ipv4", uint32Value p.generalLimitV4),
        ("general_limit_ipv6", uint32Value p.generalLimitV6),
        ("action", optionValue (fun a => .string a.text) p.action)].lookup n).map Value.ofYaml :=
  Value.attr?_ofFields _ n

@[simp] theorem attr?_blackhole (b : Blackhole) (n : String) :
    (Value.ofYaml b.toValue).attr? n =
      ([("policy_ipv4", optionValue (fun p => .string p.text) b.policyV4),
        ("policy_ipv6", optionValue (fun p => .string p.text) b.policyV6),
        ("rewrite_next_hop_ipv4",
          optionValue (fun a => .string (Address.v4Text a)) b.nextHopV4),
        ("rewrite_next_hop_ipv6",
          optionValue (fun a => .string (Address.v6Text a)) b.nextHopV6),
        ("announce_to_client", .bool b.announceToClient),
        ("add_noexport", .bool b.addNoExport)].lookup n).map Value.ofYaml :=
  Value.attr?_ofFields _ n

/-- An attribute of a dictionary is the value of its entry. -/
@[simp] theorem attr?_dictionary {α : Type} (f : α → Yaml.Value) (d : Dictionary α) (n : String) :
    (Value.ofYaml (dictionaryValue f d)).attr? n = (d.get? n).map fun x => .ofYaml (f x) := by
  rw [dictionaryValue, Value.attr?_ofFields, Dictionary.get?]
  induction d.entries with
  | nil => rfl
  | cons e es ih =>
      rw [List.map_cons, List.lookup_cons, Dictionary.find?]
      by_cases h : e.1 = n
      · simp [h]
      · rw [if_neg h, ← ih, beq_eq_false_iff_ne.2 (Ne.symm h)]

@[simp] theorem attr?_community (c : Community) (n : String) :
    (Value.ofYaml c.toValue).attr? n =
      ([("type", .string c.direction.text), ("peer_as", .bool c.peerAs),
        ("std", Community.textValue c.std), ("ext", Community.textValue c.ext),
        ("lrg", Community.textValue c.lrg)].lookup n).map Value.ofYaml :=
  Value.attr?_ofFields _ n

/-! ### Clients -/

@[simp] theorem attr?_client (c : Client) (n : String) :
    (Value.ofYaml c.toValue).attr? n =
      ([("id", .string c.id), ("asn", uint32Value c.asn), ("ip", .string c.ip.text),
        ("password", optionValue .string c.password),
        ("description", optionValue .string c.description),
        ("cfg", c.cfg.toValue)].lookup n).map Value.ofYaml :=
  Value.attr?_ofFields _ n

@[simp] theorem attr?_clientOptions (o : ClientOptions) (n : String) :
    (Value.ofYaml o.toValue).attr? n =
      ([("passive", .bool o.passive), ("gtsm", .bool o.gtsm), ("add_path", .bool o.addPath),
        ("prepend_rs_as", .bool o.prependRsAs), ("filtering", o.filtering.toValue),
        ("blackhole_filtering",
          .ofFields [("announce_to_client", .bool o.announceBlackhole)])].lookup n).map
            Value.ofYaml :=
  Value.attr?_ofFields _ n

@[simp] theorem attr?_clientFiltering (f : ClientFiltering) (n : String) :
    (Value.ofYaml f.toValue).attr? n =
      ([("next_hop_policy", .string f.nextHopPolicy.text),
        ("ipv4_pref_len", f.lengthsV4.toValue),
        ("ipv6_pref_len", f.lengthsV6.toValue),
        ("max_as_path_len", uint8Value f.maxAsPathLen),
        ("reject_invalid_as_in_as_path", .bool f.rejectInvalidAs),
        ("irrdb", f.irr.toValue),
        ("rpki", .ofFields [("reject_invalid", .bool f.rejectInvalidRoa)]),
        ("max_prefix", f.maxPrefix.toValue)].lookup n).map Value.ofYaml :=
  Value.attr?_ofFields _ n

@[simp] theorem attr?_clientIrr (i : ClientIrr) (n : String) :
    (Value.ofYaml i.toValue).attr? n =
      ([("as_sets", .list (i.asSets.map .string)),
        ("enforce_origin_in_as_set", .bool i.enforceOrigin),
        ("enforce_prefix_in_as_set", .bool i.enforcePrefix),
        ("as_set_ids", .list (i.asSetIds.map .string))].lookup n).map Value.ofYaml :=
  Value.attr?_ofFields _ n

@[simp] theorem attr?_clientMaxPrefix (p : ClientMaxPrefix) (n : String) :
    (Value.ofYaml p.toValue).attr? n =
      ([("peering_db", .bool p.peeringDb),
        ("limit_ipv4", optionValue uint32Value p.limitV4),
        ("limit_ipv6", optionValue uint32Value p.limitV6),
        ("action", optionValue (fun a => .string a.text) p.action)].lookup n).map Value.ofYaml :=
  Value.attr?_ofFields _ n

/-! ### Prefixes and sets -/

@[simp] theorem attr?_bogon (b : Bogon) (n : String) :
    (Value.ofYaml b.toValue).attr? n =
      ([("prefix", .string b.address.text), ("length", uint8Value b.length),
        ("comment", optionValue .string b.comment)].lookup n).map Value.ofYaml :=
  Value.attr?_ofFields _ n

@[simp] theorem attr?_roa (r : Roa) (n : String) :
    (Value.ofYaml r.toValue).attr? n =
      ([("prefix", .string r.address.text), ("length", uint8Value r.length),
        ("max_len", uint8Value r.maxLength), ("asn", uint32Value r.asn)].lookup n).map
          Value.ofYaml :=
  Value.attr?_ofFields _ n

@[simp] theorem attr?_setPrefix (p : SetPrefix) (n : String) :
    (Value.ofYaml p.toValue).attr? n =
      ([("prefix", .string p.address.text), ("length", uint8Value p.length),
        ("min_length", uint8Value p.minLength), ("max_length", uint8Value p.maxLength)].lookup
          n).map Value.ofYaml :=
  Value.attr?_ofFields _ n

@[simp] theorem attr?_resolvedSet (s : ResolvedSet) (n : String) :
    (Value.ofYaml s.toValue).attr? n =
      ([("name", .string s.name), ("asns", .list (s.asns.map uint32Value)),
        ("prefixes", .list (s.prefixes.map SetPrefix.toValue))].lookup n).map Value.ofYaml :=
  Value.attr?_ofFields _ n

/-! ### Items under a name -/

theorem item?_filtering (f : ClientFiltering) (n : String) :
    (Value.ofYaml f.toValue).item? (.string n) = (Value.ofYaml f.toValue).attr? n := rfl

theorem item?_clientMaxPrefix (p : ClientMaxPrefix) (n : String) :
    (Value.ofYaml p.toValue).item? (.string n) = (Value.ofYaml p.toValue).attr? n := rfl

theorem item?_maxPrefix (p : MaxPrefixPolicy) (n : String) :
    (Value.ofYaml p.toValue).item? (.string n) = (Value.ofYaml p.toValue).attr? n := rfl

theorem item?_blackhole (b : Blackhole) (n : String) :
    (Value.ofYaml b.toValue).item? (.string n) = (Value.ofYaml b.toValue).attr? n := rfl

/-! ### Numbers, and values that are not there -/

@[simp] theorem ofYaml_uint8 (n : UInt8) : Value.ofYaml (uint8Value n) = .nat n.toNat := rfl

@[simp] theorem ofYaml_uint32 (n : UInt32) : Value.ofYaml (uint32Value n) = .nat n.toNat := rfl

@[simp] theorem ofYaml_optionText (o : Option String) :
    Value.ofYaml (optionValue .string o) = .ofText o := by cases o <;> rfl

@[simp] theorem ofYaml_textValue (o : Option String) :
    Value.ofYaml (Community.textValue o) = .ofText o := by cases o <;> rfl

/-- The text of a number of eight bits. -/
def byteText (n : UInt8) : String := natText n.toNat

/-! ### Items of a family -/

theorem natText_v4 : natText Family.v4.number = "4" :=
  congrArg String.ofList (digits_of_lt (n := 4) (by decide))

theorem natText_v6 : natText Family.v6.number = "6" :=
  congrArg String.ofList (digits_of_lt (n := 6) (by decide))

theorem item?_lengths (c : Client) (f : Family) :
    (Value.ofYaml c.cfg.filtering.toValue).item?
        (.string ("ipv" ++ natText f.number ++ "_pref_len")) =
      some (.ofYaml (c.lengths f).toValue) := by
  cases f with
  | v4 => simp [natText_v4, item?_filtering, Client.lengths]
  | v6 => simp [natText_v6, item?_filtering, Client.lengths]

theorem item?_ownLimit (p : ClientMaxPrefix) (f : Family) :
    (Value.ofYaml p.toValue).item? (.string ("limit_ipv" ++ natText f.number)) =
      some (.ofYaml (optionValue uint32Value (p.ownLimit f))) := by
  cases f with
  | v4 => simp [natText_v4, item?_clientMaxPrefix, ClientMaxPrefix.ownLimit]
  | v6 => simp [natText_v6, item?_clientMaxPrefix, ClientMaxPrefix.ownLimit]

theorem item?_generalLimit (p : MaxPrefixPolicy) (f : Family) :
    (Value.ofYaml p.toValue).item? (.string ("general_limit_ipv" ++ natText f.number)) =
      some (.nat (p.generalLimit f).toNat) := by
  cases f with
  | v4 => simp [natText_v4, item?_maxPrefix, MaxPrefixPolicy.generalLimit]
  | v6 => simp [natText_v6, item?_maxPrefix, MaxPrefixPolicy.generalLimit]

theorem item?_policy (b : Blackhole) (f : Family) :
    (Value.ofYaml b.toValue).item? (.string ("policy_ipv" ++ natText f.number)) =
      some (.ofYaml (optionValue (fun p => .string p.text) (b.policy f))) := by
  cases f with
  | v4 => simp [natText_v4, item?_blackhole, Blackhole.policy]
  | v6 => simp [natText_v6, item?_blackhole, Blackhole.policy]

theorem item?_nextHop (b : Blackhole) (f : Family) :
    (Value.ofYaml b.toValue).item? (.string ("rewrite_next_hop_ipv" ++ natText f.number)) =
      some (.ofText (b.nextHopText f)) := by
  cases f with
  | v4 =>
      cases hb : b.nextHopV4 <;>
        simp [natText_v4, item?_blackhole, hb, optionValue, Blackhole.nextHopText, Value.ofText]
  | v6 =>
      cases hb : b.nextHopV6 <;>
        simp [natText_v6, item?_blackhole, hb, optionValue, Blackhole.nextHopText, Value.ofText]

/-! ### Filters and tests -/

/-- Whether an address is of the family of the build; any is when there is none. -/
def inBuild (family : Option Family) (a : Address) : Bool := family.all fun f => a.family = f

@[simp] theorem inFamily_text (family : Option Family) (a : Address) :
    Template.Builtin.plainTest (Helper.inFamily family) (.string a.text) [] =
      .ok (inBuild family a) := by
  simp [Template.Builtin.plainTest, Helper.inFamily, Helper.addressOf, Value.string?,
    Address.read_text, inBuild, bind, Except.bind]

@[simp] theorem familyNumber_text (a : Address) :
    Template.Builtin.simple Helper.familyNumber (.string a.text) [] =
      .ok (.nat a.family.number) := by
  simp [Template.Builtin.simple, Helper.familyNumber, Helper.addressOf, Value.string?,
    Address.read_text, bind, Except.bind]

@[simp] theorem plainTest_isNone (v : Value) :
    Template.Builtin.plainTest (fun v => .ok v.isNone) v [] = .ok v.isNone := rfl

@[simp] theorem join_list (sep : String) (xs : List Value) :
    Template.Builtin.join (.list xs) [.string sep] =
      .ok (.string (Template.Builtin.joinTexts sep (xs.map Value.text))) := rfl

@[simp] theorem text_asn : Value.text ∘ Value.ofYaml ∘ uint32Value = Asn.text := rfl

@[simp] theorem replace_string (old new s : String) :
    Template.Builtin.replace (.string s) [.string old, .string new] =
      .ok (.string (.ofList (replaceAll old.toList new.toList s.toList))) := rfl

@[simp] theorem items_mapping (es : List (Value × Value)) :
    Template.Builtin.items (.mapping es) [] = .ok (.list (es.map fun e => .list [e.1, e.2])) := rfl

/-- Whether a community has an encoding that is not empty. -/
def isGiven (c : Community) : Bool := [c.std, c.ext, c.lrg].any (·.any (· ≠ ""))

@[simp] theorem isSetCommunity_toValue (c : Community) :
    Template.Builtin.simple Helper.isSetCommunity (.ofYaml c.toValue) [] =
      .ok (.bool (isGiven c)) := by
  have hany (o : Option String) : (Value.ofText o).isTrue = o.any (· ≠ "") := by
    cases o <;> simp [Value.ofText, Value.isTrue]
  simp [Template.Builtin.simple, Helper.isSetCommunity, attr?_community, ofYaml_textValue,
    List.lookup_cons, hany, isGiven]

/-! ### Communities that need not be there -/

/-- A community as templates see it: nothing is found where there is none. -/
def communityValue : Option Community → Value
  | some c => .ofYaml c.toValue
  | none => .undefined false

@[simp] theorem communityValue_some (c : Community) :
    communityValue (some c) = .ofYaml c.toValue := rfl

@[simp] theorem communityValue_none : communityValue none = .undefined false := rfl

@[simp] theorem found?_community (cs : Dictionary Community) (n : String) :
    Template.found? (.ofYaml (dictionaryValue Community.toValue cs))
      ((cs.get? n).map fun c => .ofYaml c.toValue) = some (communityValue (cs.get? n)) := by
  cases cs.get? n with
  | some c => rfl
  | none => simp [Template.found?, dictionaryValue, Value.ofYaml_ofFields, Value.isUndefined]

@[simp] theorem isSetCommunity_community (o : Option Community) :
    Template.Builtin.simple Helper.isSetCommunity (communityValue o) [] =
      .ok (.bool (o.any isGiven)) := by
  cases o with
  | some c => exact isSetCommunity_toValue c
  | none => rfl

/-! ### What is known of the names -/

/-- What a scope tells of the names that templates are given. -/
structure Told (c : Configuration) (family : Option Family) (ρ : Template.Scope) : Prop where
  ipVer : ρ.lookup "ip_ver" =
    some (.value (.ofYaml (optionValue (fun f => .nat f.number) family)))
  cfg : ρ.lookup "cfg" = some (.value (.ofYaml c.general.toValue))
  bogons : ρ.lookup "bogons" = some (.value (.ofYaml (.list (c.bogons.map Bogon.toValue))))
  clients : ρ.lookup "clients" = some (.value (.ofYaml (.list (c.clients.map Client.toValue))))
  asSets : ρ.lookup "as_sets" =
    some (.value (.ofYaml (dictionaryValue ResolvedSet.toValue c.asSets)))
  roas : ρ.lookup "roas" = some (.value (.ofYaml (optionValue roasValue c.roas)))

theorem told_root (c : Configuration) (family : Option Family) (liveTests : Bool) :
    Told c family
      (Template.rootScope ((context c family liveTests).map fun e => (e.1, .ofYaml e.2))) := by
  constructor <;> simp [Template.rootScope, context]

/-- What the templates of every daemon rely on. -/
structure Serves (env : Template.Environment) (family : Option Family) : Prop where
  current : env.tests.lookup "current_ipver" =
    some (Template.Builtin.plainTest (Helper.inFamily family))
  isNone : env.tests.lookup "none" = some (Template.Builtin.plainTest fun v => .ok v.isNone)
  isSet : env.filters.lookup "community_is_set" =
    some (Template.Builtin.simple Helper.isSetCommunity)
  version : env.filters.lookup "ipaddr_ver" = some (Template.Builtin.simple Helper.familyNumber)
  join : env.filters.lookup "join" = some Template.Builtin.join
  replace : env.filters.lookup "replace" = some Template.Builtin.replace
  items : env.filters.lookup "items" = some Template.Builtin.items
  string : ∀ s, Template.written? env (.string s) = some s
  nat : ∀ n, Template.written? env (.nat n) = some (natText n)

/-- Where a policy asks for the next hop of blackhole routes, it is written. -/
def WritesNextHop (env : Template.Environment) (b : Blackhole) (f : Family) : Prop :=
  b.policy f = some .rewriteNextHop →
    Template.written? env (.ofText (b.nextHopText f)) = some (b.nextHopWord f)

section

variable {env : Template.Environment} {family : Option Family} {b : Blackhole} {f : Family}

theorem Serves.writesNextHop (h : Serves env family) (hb : b.HasNextHop f) :
    WritesNextHop env b f := by
  intro hp
  obtain ⟨s, hs⟩ := Option.isSome_iff_exists.1 (hb hp)
  simp [Blackhole.nextHopWord, hs, Value.ofText, h.string]

/-- An environment that writes what is not there writes every next hop. -/
theorem Serves.writesNextHop_of_none (h : Serves env family)
    (hnone : Template.written? env .none = some "None") : WritesNextHop env b f := by
  intro _
  cases hs : b.nextHopText f <;> simp [Blackhole.nextHopWord, hs, Value.ofText, h.string, hnone]

end

end RouteServer.Build

import RouteServer.Policy.GeneralDocument
import RouteServer.Policy.AsSet
import RouteServer.Policy.Prefix

/-!
# Policy — Client

The clients of a route server.  An option that a client leaves unset is taken from the general
configuration while its document is walked, so a client always carries the option that holds for it.
-/

namespace RouteServer.Policy

open RouteServer.Text RouteServer.Net RouteServer.Schema RouteServer.Yaml

/-- What registered AS-SETs are used for with a client. -/
structure ClientIrr where
  asSets : List String
  enforceOrigin : Bool
  enforcePrefix : Bool
  /-- The symbols of the sets that filter the client, known once they have been looked up. -/
  asSetIds : List String := []
  deriving DecidableEq, Repr

/-- How many prefixes a client may announce. -/
structure ClientMaxPrefix where
  peeringDb : Bool
  limitV4 : Option UInt32
  limitV6 : Option UInt32
  action : Option MaxPrefixAction
  deriving DecidableEq, Repr

/-- What is filtered of a client. -/
structure ClientFiltering where
  nextHopPolicy : NextHopPolicy
  lengthsV4 : LengthRange
  lengthsV6 : LengthRange
  maxAsPathLen : UInt8
  rejectInvalidAs : Bool
  irr : ClientIrr
  rejectInvalidRoa : Bool
  maxPrefix : ClientMaxPrefix
  deriving DecidableEq, Repr

/-- The options of a client. -/
structure ClientOptions where
  passive : Bool
  gtsm : Bool
  addPath : Bool
  prependRsAs : Bool
  filtering : ClientFiltering
  announceBlackhole : Bool
  deriving DecidableEq, Repr

/-- A client of the route server. -/
structure Client where
  /-- `AS<asn>_<n>`, given by derivation. -/
  id : String := ""
  asn : Asn
  ip : Address
  password : Option String
  description : Option String
  cfg : ClientOptions
  deriving DecidableEq, Repr

namespace Client

/-! ### Schema -/

/-- A field that the general configuration stands in for. -/
def inherited (name : String) (kind : Kind) (names : List String) : Field :=
  ⟨name, kind, .inherit names⟩

/-- The fields of a range of prefix lengths. -/
def lengthFields (name : String) (width : Nat) : List Field :=
  [inherited "min" (.natural 0 width) ["filtering", name, "min"],
   inherited "max" (.natural 0 width) ["filtering", name, "max"]]

/-- The fields of the use of registered AS-SETs. -/
def irrFields : List Field :=
  [⟨"as_sets", AsSet.listKind, .emptyList⟩,
   inherited "enforce_origin_in_as_set" .boolean
     ["filtering", "irrdb", "enforce_origin_in_as_set"],
   inherited "enforce_prefix_in_as_set" .boolean
     ["filtering", "irrdb", "enforce_prefix_in_as_set"]]

/-- The fields of the use of route origin authorisations. -/
def rpkiFields : List Field :=
  [inherited "reject_invalid" .boolean ["filtering", "rpki", "reject_invalid"]]

/-- The fields of the limits on the number of prefixes. -/
def maxPrefixFields : List Field :=
  [inherited "peering_db" .boolean ["filtering", "max_prefix", "peering_db"],
   ⟨"limit_ipv4", General.limitKind, .null⟩,
   ⟨"limit_ipv6", General.limitKind, .null⟩,
   inherited "action" General.maxPrefixActionKind ["filtering", "max_prefix", "action"]]

/-- The fields of what is filtered. -/
def filteringFields : List Field :=
  [inherited "next_hop_policy" General.nextHopPolicyKind ["filtering", "next_hop_policy"],
   .ofParts "ipv4_pref_len" (lengthFields "ipv4_pref_len" 32),
   .ofParts "ipv6_pref_len" (lengthFields "ipv6_pref_len" 128),
   inherited "max_as_path_len" (.natural 1 64) ["filtering", "max_as_path_len"],
   inherited "reject_invalid_as_in_as_path" .boolean
     ["filtering", "reject_invalid_as_in_as_path"],
   .ofParts "irrdb" irrFields,
   .ofParts "rpki" rpkiFields,
   .ofParts "max_prefix" maxPrefixFields]

/-- The fields of the treatment of blackhole routes. -/
def blackholeFields : List Field :=
  [inherited "announce_to_client" .boolean ["blackhole_filtering", "announce_to_client"]]

/-- The fields of the options. -/
def optionFields : List Field :=
  [inherited "passive" .boolean ["passive"],
   inherited "gtsm" .boolean ["gtsm"],
   inherited "add_path" .boolean ["add_path"],
   inherited "prepend_rs_as" .boolean ["prepend_rs_as"],
   .ofParts "filtering" filteringFields,
   .ofParts "blackhole_filtering" blackholeFields]

/-- The fields of a client. -/
def fields : List Field :=
  [⟨"asn", .asn, .required⟩,
   ⟨"ip", .address, .required⟩,
   ⟨"password", .string, .null⟩,
   ⟨"description", .string, .null⟩,
   .ofParts "cfg" optionFields]

/-- The fields of the document; what is known about the networks may stand in the same one. -/
def document : List Field :=
  [⟨"clients", .list (.record fields), .emptyList⟩,
   ⟨"asns", .discarded, .null⟩]

/-! ### Constraints that span several fields -/

/-- The violation of an address that an earlier client has; `seen` holds the clients that have an
address, the last one first. -/
def addressViolation (path : String) (v : Value) (seen : List (Address × Nat)) : List Violation :=
  match (addressAt "ip" v).bind fun a => (seen.lookup a).map fun first => (a, first) with
  | some (a, first) => [⟨path ++ ".ip", .addressUsed a first⟩]
  | none => []

/-- The ranges of a client whose bounds are out of order. -/
def rangeViolations (path : String) (v : Value) : List Violation :=
  General.rangeNames.filterMap fun name =>
    if General.isReversed (((v.getD "cfg").getD "filtering").getD name) then
      some ⟨path ++ ".cfg.filtering." ++ name, .rangeReversed⟩
    else none

/-- The violations of the clients from the `i`-th on. -/
def clientViolations : Nat → List Value → List (Address × Nat) → List Violation
  | _, [], _ => []
  | i, v :: vs, seen =>
    let path := item "clients" i
    let seen' := match addressAt "ip" v with
      | some a => (a, i) :: seen
      | none => seen
    addressViolation path v seen ++ rangeViolations path v ++ clientViolations (i + 1) vs seen'

/-- The violations of the constraints that span several fields. -/
def crossCheck (doc : Value) : List Violation :=
  clientViolations 0 (doc.getD "clients").items []

end Client

/-! ### Writing -/

/-- The fields as a value. -/
def ClientIrr.toValue (i : ClientIrr) : Value :=
  .ofFields
    [("as_sets", .list (i.asSets.map .string)),
     ("enforce_origin_in_as_set", .bool i.enforceOrigin),
     ("enforce_prefix_in_as_set", .bool i.enforcePrefix),
     ("as_set_ids", .list (i.asSetIds.map .string))]

/-- The fields as a value. -/
def ClientMaxPrefix.toValue (p : ClientMaxPrefix) : Value :=
  .ofFields
    [("peering_db", .bool p.peeringDb),
     ("limit_ipv4", optionValue uint32Value p.limitV4),
     ("limit_ipv6", optionValue uint32Value p.limitV6),
     ("action", optionValue (fun a => .string a.text) p.action)]

/-- The fields as a value. -/
def ClientFiltering.toValue (f : ClientFiltering) : Value :=
  .ofFields
    [("next_hop_policy", .string f.nextHopPolicy.text),
     ("ipv4_pref_len", f.lengthsV4.toValue),
     ("ipv6_pref_len", f.lengthsV6.toValue),
     ("max_as_path_len", uint8Value f.maxAsPathLen),
     ("reject_invalid_as_in_as_path", .bool f.rejectInvalidAs),
     ("irrdb", f.irr.toValue),
     ("rpki", .ofFields [("reject_invalid", .bool f.rejectInvalidRoa)]),
     ("max_prefix", f.maxPrefix.toValue)]

/-- The fields as a value. -/
def ClientOptions.toValue (o : ClientOptions) : Value :=
  .ofFields
    [("passive", .bool o.passive), ("gtsm", .bool o.gtsm), ("add_path", .bool o.addPath),
     ("prepend_rs_as", .bool o.prependRsAs), ("filtering", o.filtering.toValue),
     ("blackhole_filtering", .ofFields [("announce_to_client", .bool o.announceBlackhole)])]

/-- The fields as a value. -/
def Client.toValue (c : Client) : Value :=
  .ofFields
    [("id", .string c.id), ("asn", uint32Value c.asn), ("ip", .string c.ip.text),
     ("password", optionValue .string c.password),
     ("description", optionValue .string c.description), ("cfg", c.cfg.toValue)]

/-! ### Reading -/

/-- The fields that a normal form gives. -/
def ClientIrr.ofValue (v : Value) : Decoded ClientIrr := do
  let asSets ← Decoded.field "as_sets" (Decoded.list Decoded.string) v
  let enforceOrigin ← Decoded.field "enforce_origin_in_as_set" Decoded.bool v
  let enforcePrefix ← Decoded.field "enforce_prefix_in_as_set" Decoded.bool v
  .ok { asSets, enforceOrigin, enforcePrefix }

/-- The fields that a normal form gives. -/
def ClientMaxPrefix.ofValue (v : Value) : Decoded ClientMaxPrefix := do
  let peeringDb ← Decoded.field "peering_db" Decoded.bool v
  let limitV4 ← Decoded.field "limit_ipv4" (Decoded.optional Decoded.uint32) v
  let limitV6 ← Decoded.field "limit_ipv6" (Decoded.optional Decoded.uint32) v
  let action ← Decoded.field "action" (Decoded.optional MaxPrefixAction.ofValue) v
  .ok { peeringDb, limitV4, limitV6, action }

/-- The fields that a normal form gives. -/
def ClientFiltering.ofValue (v : Value) : Decoded ClientFiltering := do
  let nextHopPolicy ← Decoded.field "next_hop_policy" NextHopPolicy.ofValue v
  let lengthsV4 ← Decoded.field "ipv4_pref_len" LengthRange.ofValue v
  let lengthsV6 ← Decoded.field "ipv6_pref_len" LengthRange.ofValue v
  let maxAsPathLen ← Decoded.field "max_as_path_len" Decoded.uint8 v
  let rejectInvalidAs ← Decoded.field "reject_invalid_as_in_as_path" Decoded.bool v
  let irr ← Decoded.field "irrdb" ClientIrr.ofValue v
  let rejectInvalidRoa ← Decoded.field "rpki" (Decoded.field "reject_invalid" Decoded.bool) v
  let maxPrefix ← Decoded.field "max_prefix" ClientMaxPrefix.ofValue v
  .ok { nextHopPolicy, lengthsV4, lengthsV6, maxAsPathLen, rejectInvalidAs, irr,
        rejectInvalidRoa, maxPrefix }

/-- The fields that a normal form gives. -/
def ClientOptions.ofValue (v : Value) : Decoded ClientOptions := do
  let passive ← Decoded.field "passive" Decoded.bool v
  let gtsm ← Decoded.field "gtsm" Decoded.bool v
  let addPath ← Decoded.field "add_path" Decoded.bool v
  let prependRsAs ← Decoded.field "prepend_rs_as" Decoded.bool v
  let filtering ← Decoded.field "filtering" ClientFiltering.ofValue v
  let announceBlackhole ←
    Decoded.field "blackhole_filtering" (Decoded.field "announce_to_client" Decoded.bool) v
  .ok { passive, gtsm, addPath, prependRsAs, filtering, announceBlackhole }

namespace Client

/-- The client that a normal form gives. -/
def ofValue (v : Value) : Decoded Client := do
  let asn ← Decoded.field "asn" Decoded.uint32 v
  let ip ← Decoded.field "ip" Decoded.address v
  let password ← Decoded.field "password" (Decoded.optional Decoded.string) v
  let description ← Decoded.field "description" (Decoded.optional Decoded.string) v
  let cfg ← Decoded.field "cfg" ClientOptions.ofValue v
  .ok { asn, ip, password, description, cfg }

/-- The clients that the normal form of a document gives. -/
def ofDocument : Value → Decoded (List Client) := Decoded.field "clients" (Decoded.list ofValue)

/-! ### Derivation -/

/-- Numbers the clients of each network in the order of the list; `earlier` holds the networks of
the clients in front. -/
def assignIdsFrom : List Asn → List Client → List Client
  | _, [] => []
  | earlier, c :: cs =>
    { c with id := Asn.name c.asn ++ "_" ++ natText (earlier.count c.asn + 1) } ::
      assignIdsFrom (c.asn :: earlier) cs

/-- The clients with their ids: `AS<asn>_1`, `AS<asn>_2`, … -/
def assignIds (cs : List Client) : List Client := assignIdsFrom [] cs

/-- The client that carries an id. -/
def withId? (cs : List Client) (id : String) : Option Client := cs.find? fun c => c.id = id

/-- The prefix lengths of a family. -/
def lengths (c : Client) : Family → LengthRange
  | .v4 => c.cfg.filtering.lengthsV4
  | .v6 => c.cfg.filtering.lengthsV6

/-- The family of the address. -/
def family (c : Client) : Family := c.ip.family

end Client

end RouteServer.Policy

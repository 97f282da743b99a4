import RouteServer.Policy.Community
import RouteServer.Net.Asn

/-!
# Policy — General

The general configuration of a route server: its identity, what it filters, how it treats blackhole
routes, and the communities it knows.

`toValue` writes a configuration the way documents do, with every field present; clients inherit
from that value.
-/

namespace RouteServer.Policy

open RouteServer.Net RouteServer.Yaml

/-- The prefix lengths that are accepted. -/
structure LengthRange where
  min : UInt8
  max : UInt8
  deriving DecidableEq, Repr

/-- What is done about networks that never buy transit. -/
structure TransitFree where
  action : TransitFreeAction
  asns : List Asn
  deriving DecidableEq, Repr

/-- What registered AS-SETs are used for. -/
structure IrrPolicy where
  enforceOrigin : Bool
  enforcePrefix : Bool
  tagAsSet : Bool
  deriving DecidableEq, Repr

/-- What route origin authorisations are used for. -/
structure RpkiPolicy where
  enabled : Bool
  rejectInvalid : Bool
  deriving DecidableEq, Repr

/-- How many prefixes a client may announce. -/
structure MaxPrefixPolicy where
  peeringDb : Bool
  generalLimitV4 : UInt32
  generalLimitV6 : UInt32
  action : Option MaxPrefixAction
  deriving DecidableEq, Repr

/-- What is filtered. -/
structure Filtering where
  nextHopPolicy : NextHopPolicy
  lengthsV4 : LengthRange
  lengthsV6 : LengthRange
  maxAsPathLen : UInt8
  rejectInvalidAs : Bool
  transitFree : TransitFree
  irr : IrrPolicy
  rpki : RpkiPolicy
  maxPrefix : MaxPrefixPolicy
  deriving DecidableEq, Repr

/-- How blackhole routes are treated. -/
structure Blackhole where
  policyV4 : Option BlackholePolicy
  policyV6 : Option BlackholePolicy
  nextHopV4 : Option (BitVec 32)
  nextHopV6 : Option (BitVec 128)
  announceToClient : Bool
  addNoExport : Bool
  deriving DecidableEq, Repr

/-- The general configuration. -/
structure General where
  rsAs : Asn
  routerId : BitVec 32
  prependRsAs : Bool
  pathHiding : Bool
  passive : Bool
  gtsm : Bool
  addPath : Bool
  filtering : Filtering
  blackhole : Blackhole
  communities : Dictionary Community
  deriving DecidableEq

/-! ### Writing -/

/-- A number of eight bits. -/
def uint8Value (n : UInt8) : Value := .nat n.toNat

/-- A number of thirty-two bits. -/
def uint32Value (n : UInt32) : Value := .nat n.toNat

/-- A value or null. -/
def optionValue (f : α → Value) : Option α → Value
  | none => .null
  | some x => f x

/-- A range as a value. -/
def LengthRange.toValue (r : LengthRange) : Value :=
  .ofFields [("min", uint8Value r.min), ("max", uint8Value r.max)]

/-- The fields as a value. -/
def TransitFree.toValue (t : TransitFree) : Value :=
  .ofFields [("action", .string t.action.text), ("asns", .list (t.asns.map uint32Value))]

/-- The fields as a value. -/
def IrrPolicy.toValue (p : IrrPolicy) : Value :=
  .ofFields
    [("enforce_origin_in_as_set", .bool p.enforceOrigin),
     ("enforce_prefix_in_as_set", .bool p.enforcePrefix),
     ("tag_as_set", .bool p.tagAsSet)]

/-- The fields as a value. -/
def RpkiPolicy.toValue (p : RpkiPolicy) : Value :=
  .ofFields [("enabled", .bool p.enabled), ("reject_invalid", .bool p.rejectInvalid)]

/-- The fields as a value. -/
def MaxPrefixPolicy.toValue (p : MaxPrefixPolicy) : Value :=
  .ofFields
    [("peering_db", .bool p.peeringDb),
     ("general_limit_ipv4", uint32Value p.generalLimitV4),
     ("general_limit_ipv6", uint32Value p.generalLimitV6),
     ("action", optionValue (fun a => .string a.text) p.action)]

/-- The fields as a value. -/
def Filtering.toValue (f : Filtering) : Value :=
  .ofFields
    [("next_hop_policy", .string f.nextHopPolicy.text),
     ("ipv4_pref_len", f.lengthsV4.toValue),
     ("ipv6_pref_len", f.lengthsV6.toValue),
     ("max_as_path_len", uint8Value f.maxAsPathLen),
     ("reject_invalid_as_in_as_path", .bool f.rejectInvalidAs),
     ("transit_free", f.transitFree.toValue),
     ("irrdb", f.irr.toValue),
     ("rpki", f.rpki.toValue),
     ("max_prefix", f.maxPrefix.toValue)]

/-- The fields as a value. -/
def Blackhole.toValue (b : Blackhole) : Value :=
  .ofFields
    [("policy_ipv4", optionValue (fun p => .string p.text) b.policyV4),
     ("policy_ipv6", optionValue (fun p => .string p.text) b.policyV6),
     ("rewrite_next_hop_ipv4", optionValue (fun a => .string (Address.v4Text a)) b.nextHopV4),
     ("rewrite_next_hop_ipv6", optionValue (fun a => .string (Address.v6Text a)) b.nextHopV6),
     ("announce_to_client", .bool b.announceToClient),
     ("add_noexport", .bool b.addNoExport)]

/-- The fields as a value. -/
def General.toValue (g : General) : Value :=
  .ofFields
    [("rs_as", uint32Value g.rsAs),
     ("router_id", .string (Address.v4Text g.routerId)),
     ("prepend_rs_as", .bool g.prependRsAs),
     ("path_hiding", .bool g.pathHiding),
     ("passive", .bool g.passive),
     ("gtsm", .bool g.gtsm),
     ("add_path", .bool g.addPath),
     ("filtering", g.filtering.toValue),
     ("blackhole_filtering", g.blackhole.toValue),
     ("communities", .ofFields (g.communities.entries.map fun e => (e.1, e.2.toValue)))]

/-! ### Reading -/

/-- The range that a normal form gives. -/
def LengthRange.ofValue (v : Value) : Decoded LengthRange := do
  let min ← Decoded.field "min" Decoded.uint8 v
  let max ← Decoded.field "max" Decoded.uint8 v
  .ok { min, max }

/-- The fields that a normal form gives. -/
def TransitFree.ofValue (v : Value) : Decoded TransitFree := do
  let action ← Decoded.field "action" TransitFreeAction.ofValue v
  let asns ← Decoded.field "asns" (Decoded.list Decoded.uint32) v
  .ok { action, asns }

/-- The fields that a normal form gives. -/
def IrrPolicy.ofValue (v : Value) : Decoded IrrPolicy := do
  let enforceOrigin ← Decoded.field "enforce_origin_in_as_set" Decoded.bool v
  let enforcePrefix ← Decoded.field "enforce_prefix_in_as_set" Decoded.bool v
  let tagAsSet ← Decoded.field "tag_as_set" Decoded.bool v
  .ok { enforceOrigin, enforcePrefix, tagAsSet }

/-- The fields that a normal form gives. -/
def RpkiPolicy.ofValue (v : Value) : Decoded RpkiPolicy := do
  let enabled ← Decoded.field "enabled" Decoded.bool v
  let rejectInvalid ← Decoded.field "reject_invalid" Decoded.bool v
  .ok { enabled, rejectInvalid }

/-- The fields that a normal form gives. -/
def MaxPrefixPolicy.ofValue (v : Value) : Decoded MaxPrefixPolicy := do
  let peeringDb ← Decoded.field "peering_db" Decoded.bool v
  let generalLimitV4 ← Decoded.field "general_limit_ipv4" Decoded.uint32 v
  let generalLimitV6 ← Decoded.field "general_limit_ipv6" Decoded.uint32 v
  let action ← Decoded.field "action" (Decoded.optional MaxPrefixAction.ofValue) v
  .ok { peeringDb, generalLimitV4, generalLimitV6, action }

/-- The fields that a normal form gives. -/
def Filtering.ofValue (v : Value) : Decoded Filtering := do
  let nextHopPolicy ← Decoded.field "next_hop_policy" NextHopPolicy.ofValue v
  let lengthsV4 ← Decoded.field "ipv4_pref_len" LengthRange.ofValue v
  let lengthsV6 ← Decoded.field "ipv6_pref_len" LengthRange.ofValue v
  let maxAsPathLen ← Decoded.field "max_as_path_len" Decoded.uint8 v
  let rejectInvalidAs ← Decoded.field "reject_invalid_as_in_as_path" Decoded.bool v
  let transitFree ← Decoded.field "transit_free" TransitFree.ofValue v
  let irr ← Decoded.field "irrdb" IrrPolicy.ofValue v
  let rpki ← Decoded.field "rpki" RpkiPolicy.ofValue v
  let maxPrefix ← Decoded.field "max_prefix" MaxPrefixPolicy.ofValue v
  .ok { nextHopPolicy, lengthsV4, lengthsV6, maxAsPathLen, rejectInvalidAs, transitFree, irr, rpki,
        maxPrefix }

/-- The fields that a normal form gives. -/
def Blackhole.ofValue (v : Value) : Decoded Blackhole := do
  let policyV4 ← Decoded.field "policy_ipv4" (Decoded.optional BlackholePolicy.ofValue) v
  let policyV6 ← Decoded.field "policy_ipv6" (Decoded.optional BlackholePolicy.ofValue) v
  let nextHopV4 ← Decoded.field "rewrite_next_hop_ipv4" (Decoded.optional Decoded.ipv4) v
  let nextHopV6 ← Decoded.field "rewrite_next_hop_ipv6" (Decoded.optional Decoded.ipv6) v
  let announceToClient ← Decoded.field "announce_to_client" Decoded.bool v
  let addNoExport ← Decoded.field "add_noexport" Decoded.bool v
  .ok { policyV4, policyV6, nextHopV4, nextHopV6, announceToClient, addNoExport }

/-- The general configuration that a normal form gives. -/
def General.ofValue (v : Value) : Decoded General := do
  let rsAs ← Decoded.field "rs_as" Decoded.uint32 v
  let routerId ← Decoded.field "router_id" Decoded.ipv4 v
  let prependRsAs ← Decoded.field "prepend_rs_as" Decoded.bool v
  let pathHiding ← Decoded.field "path_hiding" Decoded.bool v
  let passive ← Decoded.field "passive" Decoded.bool v
  let gtsm ← Decoded.field "gtsm" Decoded.bool v
  let addPath ← Decoded.field "add_path" Decoded.bool v
  let filtering ← Decoded.field "filtering" Filtering.ofValue v
  let blackhole ← Decoded.field "blackhole_filtering" Blackhole.ofValue v
  let communities ← Decoded.field "communities" (Decoded.dictionary Community.ofValue) v
  .ok { rsAs, routerId, prependRsAs, pathHiding, passive, gtsm, addPath, filtering, blackhole,
        communities }

/-! ### Derivation -/

/-- The configuration with what is fixed about the built-in communities; those it lacks are added
without an encoding. -/
def General.defineCommunities (g : General) : General :=
  { g with
    communities := Community.builtin.foldl
      (fun cs d => cs.insert d.name (((cs.get? d.name).getD {}).define d)) g.communities }

/-- The general limit of a family. -/
def MaxPrefixPolicy.generalLimit (p : MaxPrefixPolicy) : Family → UInt32
  | .v4 => p.generalLimitV4
  | .v6 => p.generalLimitV6

/-- The prefix lengths of a family. -/
def Filtering.lengths (f : Filtering) : Family → LengthRange
  | .v4 => f.lengthsV4
  | .v6 => f.lengthsV6

/-- The blackhole policy of a family. -/
def Blackhole.policy (b : Blackhole) : Family → Option BlackholePolicy
  | .v4 => b.policyV4
  | .v6 => b.policyV6

end RouteServer.Policy

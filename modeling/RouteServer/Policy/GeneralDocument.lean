import RouteServer.Policy.General
import RouteServer.Schema.Walk

/-!
# Policy — GeneralDocument

The document that gives the general configuration: its schema, and the constraints that span
several fields.  The latter are checked on the normal form, where a value that the walk has refused
is null and takes no part.
-/

namespace RouteServer.Policy

open RouteServer.Text RouteServer.Net RouteServer.Schema RouteServer.Yaml

namespace General

/-! ### Schema -/

/-- The range of prefix lengths of a family, with its usual bounds. -/
def lengthFields (width min max : Nat) : List Field :=
  [⟨"min", .natural 0 width, .natural min⟩,
   ⟨"max", .natural 0 width, .natural max⟩]

/-- The fields of the policy on transit-free networks. -/
def transitFreeFields : List Field :=
  [⟨"action", .oneOf (TransitFreeAction.all.map TransitFreeAction.text),
    .string TransitFreeAction.reject.text⟩,
   ⟨"asns", .list .asn, .emptyList⟩]

/-- The fields of the policy on registered AS-SETs. -/
def irrFields : List Field :=
  [⟨"enforce_origin_in_as_set", .boolean, .bool false⟩,
   ⟨"enforce_prefix_in_as_set", .boolean, .bool false⟩,
   ⟨"tag_as_set", .boolean, .bool true⟩]

/-- The fields of the policy on route origin authorisations. -/
def rpkiFields : List Field :=
  [⟨"enabled", .boolean, .bool false⟩,
   ⟨"reject_invalid", .boolean, .bool true⟩]

/-- The kind of a limit on the number of prefixes. -/
def limitKind : Kind := .natural 1 maxWord32

/-- The kind of the action taken above a limit. -/
def maxPrefixActionKind : Kind := .oneOf (MaxPrefixAction.all.map MaxPrefixAction.text)

/-- The kind of a policy on next hops. -/
def nextHopPolicyKind : Kind := .oneOf (NextHopPolicy.all.map NextHopPolicy.text)

/-- The fields of the limits on the number of prefixes. -/
def maxPrefixFields : List Field :=
  [⟨"peering_db", .boolean, .bool false⟩,
   ⟨"general_limit_ipv4", limitKind, .natural 170000⟩,
   ⟨"general_limit_ipv6", limitKind, .natural 12000⟩,
   ⟨"action", maxPrefixActionKind, .null⟩]

/-- The fields of what is filtered. -/
def filteringFields : List Field :=
  [⟨"next_hop_policy", nextHopPolicyKind, .string NextHopPolicy.strict.text⟩,
   .ofParts "ipv4_pref_len" (lengthFields 32 8 24),
   .ofParts "ipv6_pref_len" (lengthFields 128 12 48),
   ⟨"max_as_path_len", .natural 1 64, .natural 32⟩,
   ⟨"reject_invalid_as_in_as_path", .boolean, .bool true⟩,
   .ofParts "transit_free" transitFreeFields,
   .ofParts "irrdb" irrFields,
   .ofParts "rpki" rpkiFields,
   .ofParts "max_prefix" maxPrefixFields]

/-- The kind of a policy on blackhole routes. -/
def blackholePolicyKind : Kind := .oneOf (BlackholePolicy.all.map BlackholePolicy.text)

/-- The fields of the treatment of blackhole routes. -/
def blackholeFields : List Field :=
  [⟨"policy_ipv4", blackholePolicyKind, .null⟩,
   ⟨"policy_ipv6", blackholePolicyKind, .null⟩,
   ⟨"rewrite_next_hop_ipv4", .ipv4, .null⟩,
   ⟨"rewrite_next_hop_ipv6", .ipv6, .null⟩,
   ⟨"announce_to_client", .boolean, .bool true⟩,
   ⟨"add_noexport", .boolean, .bool true⟩]

/-- The fields of a community.  What is fixed about it may be written and is dropped. -/
def communityFields : List Field :=
  [⟨"std", .text (Community.check .std), .null⟩,
   ⟨"ext", .text (Community.check .ext), .null⟩,
   ⟨"lrg", .text (Community.check .lrg), .null⟩,
   ⟨"type", .discarded, .null⟩,
   ⟨"peer_as", .discarded, .null⟩]

/-- The communities, a field for each. -/
def communitiesFields : List Field :=
  Community.builtin.map fun d => .ofParts d.name communityFields

/-- The fields of the general configuration. -/
def fields : List Field :=
  [⟨"rs_as", .asn, .required⟩,
   ⟨"router_id", .ipv4, .required⟩,
   ⟨"prepend_rs_as", .boolean, .bool false⟩,
   ⟨"path_hiding", .boolean, .bool true⟩,
   ⟨"passive", .boolean, .bool true⟩,
   ⟨"gtsm", .boolean, .bool false⟩,
   ⟨"add_path", .boolean, .bool false⟩,
   .ofParts "filtering" filteringFields,
   .ofParts "blackhole_filtering" blackholeFields,
   .ofParts "communities" communitiesFields]

/-- The fields of the document. -/
def document : List Field := [⟨"cfg", .record fields, .required⟩]

/-! ### Constraints that span several fields -/

/-- The names of the ranges of prefix lengths. -/
def rangeNames : List String := ["ipv4_pref_len", "ipv6_pref_len"]

/-- Whether the lower bound of a range is above the upper one. -/
def isReversed (range : Value) : Bool :=
  match (range.getD "min").natural?, (range.getD "max").natural? with
  | some min, some max => max < min
  | _, _ => false

/-- The ranges whose bounds are out of order. -/
def rangeViolations (cfg : Value) : List Violation :=
  rangeNames.filterMap fun name =>
    if isReversed ((cfg.getD "filtering").getD name) then
      some ⟨"cfg.filtering." ++ name, .minAboveMax⟩
    else none

/-- The policies that replace next hops without one to put there. -/
def nextHopViolations (cfg : Value) : List Violation :=
  let blackhole := cfg.getD "blackhole_filtering"
  ["4", "6"].filterMap fun n =>
    let policy := "policy_ipv" ++ n
    let nextHop := "rewrite_next_hop_ipv" ++ n
    if (blackhole.getD policy).text? = some BlackholePolicy.rewriteNextHop.text ∧
        (blackhole.getD nextHop).isNull then
      some ⟨"cfg.blackhole_filtering." ++ nextHop, .nextHopRequired policy⟩
    else none

/-- The encodings that a document gives, each with its place and the community it belongs to, in
the order of the built-in communities. -/
def encodings (cfg : Value) : List (String × Community.Definition × String) :=
  Community.builtin.flatMap fun d =>
    [Community.Encoding.std, .ext, .lrg].filterMap fun kind =>
      (((cfg.getD "communities").getD d.name).getD kind.name).text?.map fun text =>
        ("cfg.communities." ++ d.name ++ "." ++ kind.name, d, text)

/-- The violations of encodings; `used` holds the last community that used each text. -/
def encodingViolations :
    List (String × Community.Definition × String) → List (String × String) → List Violation
  | [], _ => []
  | (path, d, text) :: rest, used =>
    let namesPeer := Community.namesPeer text
    (if namesPeer ∧ !d.peerAs then [⟨path, .peerMacroForbidden⟩] else []) ++
      (if !namesPeer ∧ d.peerAs then [⟨path, .peerMacroRequired⟩] else []) ++
      (match used.lookup text with
        | some other => [⟨path, .communityUsed text other⟩]
        | none => []) ++
      encodingViolations rest ((text, d.name) :: used)

/-- The violations of the constraints that span several fields. -/
def crossCheck (doc : Value) : List Violation :=
  let cfg := doc.getD "cfg"
  rangeViolations cfg ++ nextHopViolations cfg ++ encodingViolations (encodings cfg) []

/-- The configuration that the normal form of a document gives. -/
def ofDocument (doc : Value) : Decoded General := ofValue (doc.getD "cfg")

end General

end RouteServer.Policy

import RouteServer.Build.Target
import RouteServer.Policy.Configuration

/-!
# Build — Compatibility

What each target cannot do of what a configuration asks for.  An issue ends the build unless its id,
or `*`, is in the list of those to ignore.
-/

namespace RouteServer.Build

open RouteServer.Policy RouteServer.Text

/-- Something that the target cannot do. -/
structure Issue where
  id : String
  message : String
  deriving DecidableEq, Repr

/-- The wording of an issue. -/
def Issue.text (i : Issue) : String := "compatibility issue ID '" ++ i.id ++ "'. " ++ i.message

/-- What an issue does to the build. -/
inductive Severity where
  | fatal
  | warning
  deriving DecidableEq, Repr

/-- The severity of an issue under a list of those to ignore. -/
def classify (id : String) (ignored : List String) : Severity :=
  if ignored.any fun i => i = "*" || i = id then .warning else .fatal

/-- The first three of some texts, and how many more there are. -/
def shortList (items : List String) : String :=
  ", ".intercalate (items.take 3) ++
    (if 3 < items.length then " and " ++ natText (items.length - 3) ++ " more" else "")

/-- One of two forms of a word. -/
def plural (n : Nat) (one many : String) : String := if n = 1 then one else many

namespace Compatibility

/-- The action on routes of transit-free networks, in the words of an issue. -/
def actionIssue (action : TransitFreeAction) (rest : String) : Issue :=
  ⟨"transit_free_action",
   "Transit free ASNs policy is configured with 'action' = '" ++ action.text ++ "' but " ++ rest⟩

/-- An issue, when it is there. -/
def issueIf (b : Bool) (i : Issue) : List Issue := if b then [i] else []

/-- What BIRD cannot do. -/
def ofBird (c : Configuration) : List Issue :=
  let action := c.general.filtering.transitFree.action
  issueIf (action = .shutdown)
    (actionIssue action "BIRD filters can't tear sessions down; routes will be rejected instead.")

/-- The addresses of the clients that pass. -/
def addressesOf (c : Configuration) (p : Client → Bool) : List String :=
  (c.clients.filter p).map fun client => client.ip.text

/-- Whether a client has an action that is not supported when it announces too much. -/
def hasOddLimitAction (client : Client) : Bool :=
  client.cfg.filtering.maxPrefix.action = some .block ||
    client.cfg.filtering.maxPrefix.action = some .warning

/-- The communities that have a large encoding and no other, with that encoding. -/
def onlyLarge (c : Configuration) : List (String × String) :=
  Community.builtin.filterMap fun d =>
    match c.general.communities.get? d.name with
    | some ⟨_, _, none, none, some lrg⟩ => some (d.name, lrg)
    | _ => none

/-- The communities that name a peer and have an extended encoding, with that encoding. -/
def peerExtended (c : Configuration) : List (String × String) :=
  Community.builtin.filterMap fun d =>
    match (c.general.communities.get? d.name).bind Community.ext with
    | some ext => if d.peerAs && d.direction = .inbound then some (d.name, ext) else none
    | none => none

/-- The issue of communities without an encoding that can be used. -/
def largeIssue (cs : List (String × String)) : Issue :=
  let n := cs.length
  ⟨"large_communities",
   "The communit" ++ plural n "y" "ies" ++ " '" ++ shortList (cs.map (·.1)) ++ "' ha" ++
   plural n "s" "ve" ++ " been configured to be implemented using only the large communit" ++
   plural n "y" "ies" ++ " '" ++ shortList (cs.map (·.2)) ++
   "'; large communities are not supported by OpenBGPD so the function" ++ plural n "" "s" ++ " " ++
   plural n "it" "they" ++ " cover" ++ plural n "s" "" ++ " will be not available."⟩

/-- The issue of extended encodings that reach the clients. -/
def extendedIssue (cs : List (String × String)) : Issue :=
  let n := cs.length
  ⟨"extended_communities",
   "The peer-ASN-specific communit" ++ plural n "y" "ies" ++ " '" ++ shortList (cs.map (·.1)) ++
   "' ha" ++ plural n "s" "ve" ++
   " been configured to be implemented using the extended communit" ++ plural n "y" "ies" ++ " '" ++
   shortList (cs.map (·.2)) ++
   "'; peer-ASN-specific extended communities are not scrubbed from routes that leave OpenBGPD " ++
   "route servers and they are propagated to the route server clients."⟩

/-- What OpenBGPD cannot do. -/
def ofOpenBgpd (c : Configuration) : List Issue :=
  let g := c.general
  let action := g.filtering.transitFree.action
  let addPath := addressesOf c fun client => client.cfg.addPath
  let limits := addressesOf c hasOddLimitAction
  let large := onlyLarge c
  let extended := peerExtended c
  issueIf g.pathHiding
    ⟨"path_hiding",
     "The 'path_hiding' general configuration parameter is set to True, but the configuration " ++
     "generated for OpenBGPD does not support path-hiding mitigation techniques."⟩ ++
  issueIf (action ≠ .reject) (actionIssue action "only 'reject' is supported for OpenBGPD.") ++
  issueIf g.filtering.rpki.enabled
    ⟨"rpki", "RPKI-based filtering is configured but not supported by OpenBGPD."⟩ ++
  issueIf (!addPath.isEmpty)
    ⟨"add_path",
     "ADD_PATH not supported by OpenBGPD but enabled for the following clients: " ++
     shortList addPath ++ "."⟩ ++
  issueIf (!limits.isEmpty)
    ⟨"max_prefix_action",
     "Invalid max-prefix 'action' for the following clients: " ++ shortList limits ++
     "; only 'shutdown' and 'restart' are supported by OpenBGPD."⟩ ++
  issueIf (g.blackhole.policyV6 = some .rewriteNextHop)
    ⟨"blackhole_filtering_rewrite_ipv6_nh",
     "Next-hop rewriting of IPv6 blackhole routes is affected by an OpenBGPD issue when " ++
     "'blackhole_filtering.policy_ipv6' is 'rewrite-next-hop'."⟩ ++
  issueIf (!large.isEmpty) (largeIssue large) ++
  issueIf (!extended.isEmpty) (extendedIssue extended)

end Compatibility

/-- What a target cannot do of what a configuration asks for. -/
def Target.issues : Target → Configuration → List Issue
  | .bird => Compatibility.ofBird
  | .openBgpd => Compatibility.ofOpenBgpd
  | .context => fun _ => []

end RouteServer.Build

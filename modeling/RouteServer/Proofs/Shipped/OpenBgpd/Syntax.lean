import RouteServer.Proofs.Shipped.Parse
import RouteServer.Proofs.Template.Forms
import RouteServer.Shipped.OpenBgpd

/-!
# Shipped — OpenBGPD — syntax

The statements of the templates for OpenBGPD.  Loops, and tests whose outcome decides what is known
in their bodies, have names of their own.
-/

namespace RouteServer.Shipped.OpenBgpd

open RouteServer.Template

/-! ### Prefixes and sets -/

def bogonBody : List Stmt :=
  [only (.test "current_ipver" (path "b" ["prefix"]) [])
    [.text "\t", .print (path "b" ["prefix"]), .text "/", .print (path "b" ["length"]),
     .text " or-longer\n"]]

def eachBogon : Stmt := each "b" (path "bogons" []) bogonBody

def bogonsBody : List Stmt := [.text "prefix-set bogons \x7b\n", eachBogon, .text "\x7d\n\n"]

def originBody : List Stmt := [.text "\t", .print (path "asn" []), .text "\n"]

def eachOrigin : Stmt := each "asn" (path "set" ["asns"]) originBody

def prefixBody : List Stmt :=
  [only (.test "current_ipver" (path "p" ["prefix"]) [])
    [.text "\t", .print (path "p" ["prefix"]), .text "/", .print (path "p" ["length"]),
     .text " prefixlen ", .print (path "p" ["min_length"]), .text " - ",
     .print (path "p" ["max_length"]), .text "\n"]]

def eachPrefix : Stmt := each "p" (path "set" ["prefixes"]) prefixBody

def setBody : List Stmt :=
  [.text "# ", .print (path "set" ["name"]), .text "\nas-set ", .print (path "id" []),
   .text " \x7b\n", eachOrigin, .text "\x7d\nprefix-set ", .print (path "id" []),
   .text "_prefixes \x7b\n", eachPrefix, .text "\x7d\n\n"]

def eachSet : Stmt :=
  .loop (.names ["id", "set"]) (.filter "items" (path "as_sets" []) []) none setBody []

def setsBody : List Stmt := [eachSet]

/-! ### Neighbours -/

/-- A file of the operator. -/
def localFile (id : String) : Stmt := .print (.filter "include_local_file" (str id) [])

/-- The client's own limit, or else the general one. -/
def limit : Expr :=
  .choose
    (.not (.test "none" (.item (path "max_prefix" []) (.concat (str "limit_ipv") (path "v" []))) []))
    (.item (path "max_prefix" []) (.concat (str "limit_ipv") (path "v" [])))
    (.item (path "cfg" ["filtering", "max_prefix"])
      (.concat (str "general_limit_ipv") (path "v" [])))

/-- The client's own action, or else the general one, or else the usual one. -/
def action : Expr :=
  .or (.or (path "max_prefix" ["action"]) (path "cfg" ["filtering", "max_prefix", "action"]))
    (str "shutdown")

/-- What is bound for a client. -/
def settingsBody : List Stmt :=
  [.bind (.name "v") (.filter "ipaddr_ver" (path "c" ["ip"]) []),
   .bind (.name "max_prefix") (path "c" ["cfg", "filtering", "max_prefix"]),
   .bind (.name "limit") limit,
   .bind (.name "action") action]

def description : Expr := .or (path "c" ["description"]) (path "c" ["id"])

def passwordLine : Stmt :=
  only (path "c" ["password"])
    [.text "\t\ttcp md5sig password \"", .print (path "c" ["password"]), .text "\"\n"]

def neighborBody : List Stmt :=
  [.text "\n\tneighbor ", .print (path "c" ["ip"]), .text " \x7b\n\t\tdescr \"",
   .print description, .text "\"\n\t\tremote-as ", .print (path "c" ["asn"]),
   .text "\n\t\tmax-prefix ", .print (path "limit" []),
   only (.compare .eq (path "action" []) (str "restart")) [.text " restart 15"],
   .text "\n",
   only (path "c" ["cfg", "passive"]) [.text "\t\tpassive\n"],
   only (path "c" ["cfg", "gtsm"]) [.text "\t\tttl-security yes\n"],
   passwordLine,
   .text "\t\t", localFile "client", .text "\n\t\x7d\n"]

def eachNeighbor : Stmt :=
  each "c" (path "clients" [])
    [only (.test "current_ipver" (path "c" ["ip"]) []) (settingsBody ++ neighborBody)]

def clientsBody : List Stmt :=
  [.text "group \"clients\" \x7b\n\ttransparent-as yes\n\tannounce all\n", eachNeighbor,
   .text "\x7d\n\n"]

/-! ### Rules -/

def families : Expr :=
  .choose (.test "none" (path "ip_ver" []) [])
    (.list [.literal (.number (.int 4)), .literal (.number (.int 6))])
    (.list [path "ip_ver" []])

def filterBindings : List Stmt :=
  [.bind (.name "blackholing") (path "cfg" ["communities", "blackholing"]),
   .bind (.name "bh") (path "cfg" ["blackhole_filtering"]),
   .bind (.name "families") families,
   .bind (.name "tag") (path "cfg" ["communities", "origin_present_in_as_set"]),
   .bind (.name "v4") (path "cfg" ["filtering", "ipv4_pref_len"]),
   .bind (.name "v6") (path "cfg" ["filtering", "ipv6_pref_len"])]

def eachTransit : Stmt :=
  each "asn" (path "cfg" ["filtering", "transit_free", "asns"])
    [.text "deny quick from any transit-as ", .print (path "asn" []), .text "\n"]

def generalBody : List Stmt :=
  [.text ("# last matching rule wins, unless quick\ndeny from any\nallow to any\n\n" ++
     "deny quick from any prefix-set bogons\ndeny quick from any inet prefixlen < "),
   .print (path "v4" ["min"]), .text "\ndeny quick from any inet prefixlen > ",
   .print (path "v4" ["max"]), .text "\ndeny quick from any inet6 prefixlen < ",
   .print (path "v6" ["min"]), .text "\ndeny quick from any inet6 prefixlen > ",
   .print (path "v6" ["max"]), .text "\ndeny quick from any max-as-len ",
   .print (path "cfg" ["filtering", "max_as_path_len"]), .text "\n", eachTransit,
   only (.compare .eq (path "cfg" ["filtering", "next_hop_policy"]) (str "strict"))
    [.text "deny quick from group \"clients\" ! nexthop neighbor\n"],
   .text "\n"]

def invalidBody : List Stmt :=
  [.text "deny quick from ", .print (path "c" ["ip"]), .text " AS ", .print (path "asns" []),
   .text "\n"]

def eachInvalid : Stmt :=
  each "asns"
    (.list [str "0", str "23456", str "64496 - 131071", str "4200000000 - 4294967295"]) invalidBody

def allowedBody : List Stmt :=
  [.text "allow from ", .print (path "c" ["ip"]),
   only (path "irrdb" ["enforce_origin_in_as_set"])
    [.text " source-as as-set ", .print (path "id" [])],
   only (path "irrdb" ["enforce_prefix_in_as_set"])
    [.text " prefix-set ", .print (path "id" []), .text "_prefixes"],
   .text "\n"]

def eachAllowed : Stmt := each "id" (path "irrdb" ["as_set_ids"]) allowedBody

/-- A rule that sets a community, up to the community. -/
def tagHead (word : String) : List Stmt :=
  [.text "match from ", .print (path "c" ["ip"]), .text " source-as as-set ",
   .print (path "id" []), .text (" set " ++ word ++ " ")]

/-- The community of an encoding for routes whose origin is in a set. -/
def tagLine (kind word : String) (e : Expr) : Stmt :=
  only (path "tag" [kind]) (tagHead word ++ [.print e, .text "\n"])

def tagBody : List Stmt :=
  [tagLine "std" "community" (path "tag" ["std"]),
   tagLine "ext" "ext-community" (.filter "convert_ext_comm" (path "tag" ["ext"]) [])]

def eachTag : Stmt := each "id" (path "irrdb" ["as_set_ids"]) tagBody

/-- The rules for the routes that a client may announce. -/
def routeRules : List Stmt :=
  [.text "deny quick from ", .print (path "c" ["ip"]), .text " ! peer-as ",
   .print (path "c" ["asn"]), .text "\n",
   only (path "c" ["cfg", "filtering", "reject_invalid_as_in_as_path"]) [eachInvalid],
   .branch
    (.or (path "irrdb" ["enforce_origin_in_as_set"]) (path "irrdb" ["enforce_prefix_in_as_set"]))
    [eachAllowed] [.text "allow from ", .print (path "c" ["ip"]), .text "\n"]]

/-- The rules that tag the routes of a client. -/
def tagRules : Stmt := only (path "cfg" ["filtering", "irrdb", "tag_as_set"]) [eachTag]

def bindIrr : List Stmt := [.bind (.name "irrdb") (path "c" ["cfg", "filtering", "irrdb"])]

def clientRules : List Stmt := bindIrr ++ routeRules ++ [tagRules]

/-- The rules for a client of the family. -/
def clientRound : List Stmt :=
  [only (.test "current_ipver" (path "c" ["ip"]) []) clientRules]

def eachClient : Stmt := each "c" (path "clients" []) clientRound

def rewrites : Expr := .compare .eq (path "policy" []) (str "rewrite-next-hop")

/-- The prefix of a family that holds every address. -/
def wholeFamily : Expr :=
  .choose (.compare .eq (path "v" []) (.literal (.number (.int 4)))) (str "0.0.0.0/0") (str "::/0")

def policyRule : Stmt :=
  only (.or rewrites (.and (path "policy" []) (path "bh" ["add_noexport"])))
    [.text "match from any prefix ", .print wholeFamily, .text " or-longer community ",
     .print (path "blackholing" ["std"]), .text " set \x7b ",
     only rewrites
      [.text "nexthop ",
       .print (.item (path "bh" []) (.concat (str "rewrite_next_hop_ipv") (path "v" []))),
       .text " "],
     only (path "bh" ["add_noexport"]) [.text "community NO_EXPORT "],
     .text "\x7d\n"]

def eachFamily : Stmt :=
  each "v" (path "families" [])
    [.bind (.name "policy") (.item (path "bh" []) (.concat (str "policy_ipv") (path "v" []))),
     policyRule]

def blackholeRules : Stmt :=
  only (path "blackholing" ["std"])
    [eachFamily,
     only (.not (path "cfg" ["blackhole_filtering", "announce_to_client"]))
      [.text "deny quick to group \"clients\" community ", .print (path "blackholing" ["std"]),
       .text "\n"]]

def filtersBody : List Stmt :=
  filterBindings ++ generalBody ++ [eachClient, .text "\n"] ++ [blackholeRules]

/-! ### The whole -/

/-- What stands in front of the rules. -/
def frontBody : List Stmt :=
  [.text "# OpenBGPD route server configuration\n# generated by rsgen, do not edit\n\n",
   localFile "header", .text "AS ", .print (path "cfg" ["rs_as"]), .text "\nrouter-id ",
   .print (path "cfg" ["router_id"]), .text "\nfib-update no\nlog updates\n\n",
   .embed (str "bogons.j2") false, localFile "pre-irrdb", .embed (str "irrdb.j2") false,
   localFile "post-irrdb", localFile "pre-clients", .embed (str "clients.j2") false,
   localFile "post-clients", localFile "pre-filters"]

def footBody : List Stmt := [localFile "post-filters", localFile "footer", .text "\n"]

def mainBody : List Stmt := frontBody ++ .embed (str "filters.j2") false :: footBody

/-! ### Parsing -/

theorem parse_bogons : parse bogons = some bogonsBody := by
  refine parse_of_parsesTo ?_
  simp only [List.flatMap_cons, List.flatMap_nil]
  repeat rw [String.toList_ofList]
  decide +kernel

theorem parse_irrdb : parse irrdb = some setsBody := by
  refine parse_of_parsesTo ?_
  simp only [List.flatMap_cons, List.flatMap_nil]
  repeat rw [String.toList_ofList]
  decide +kernel

theorem parse_clients : parse clients = some clientsBody := by
  refine parse_of_parsesTo ?_
  simp only [List.flatMap_cons, List.flatMap_nil]
  repeat rw [String.toList_ofList]
  decide +kernel

theorem parse_filters : parse filters = some filtersBody := by
  refine parse_of_parsesTo ?_
  simp only [List.flatMap_cons, List.flatMap_nil]
  repeat rw [String.toList_ofList]
  decide +kernel

theorem parse_mainTemplate : parse mainTemplate = some mainBody := by
  refine parse_of_parsesTo ?_
  simp only [List.flatMap_cons, List.flatMap_nil]
  repeat rw [String.toList_ofList]
  decide +kernel

end RouteServer.Shipped.OpenBgpd

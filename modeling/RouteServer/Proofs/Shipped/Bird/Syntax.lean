import RouteServer.Proofs.Shipped.Parse
import RouteServer.Proofs.Template.Forms
import RouteServer.Shipped.Bird

/-!
# Shipped — Bird — syntax

The statements of the templates for BIRD.  The body of the loop over the clients is in four parts:
what is bound for a client, its two filters, and its protocol.
-/

namespace RouteServer.Shipped.Bird

open RouteServer.Template

/-! ### Prefixes and sets -/

def bogonBody : List Stmt :=
  [only (.test "current_ipver" (path "b" ["prefix"]) [])
    [.text "\tif net ~ [ ", .print (path "b" ["prefix"]), .text "/", .print (path "b" ["length"]),
     .text "+ ] then return true;\n"]]

def eachBogon : Stmt := each "b" (path "bogons" []) bogonBody

def bogonsBody : List Stmt :=
  [.text "# bogons\nfunction is_bogon()\n\x7b\n",
   eachBogon,
   .text "\treturn false;\n\x7d\n\n"]

def prefixBody : List Stmt :=
  [only (.test "current_ipver" (path "p" ["prefix"]) [])
    [.text "\tif net ~ [ ",
     .print (.concat (.concat (.concat (.concat (.concat (.concat (.concat (path "p" ["prefix"])
       (str "/")) (path "p" ["length"])) (str "\x7b")) (path "p" ["min_length"])) (str ","))
       (path "p" ["max_length"])) (str "\x7d")),
     .text " ] then return true;\n"]]

def eachPrefix : Stmt := each "p" (path "set" ["prefixes"]) prefixBody

def setBody : List Stmt :=
  [.text "# ", .print (path "set" ["name"]), .text "\n",
   .branch (path "set" ["asns"])
    [.text "define ", .print (path "id" []), .text "_asns = [ ",
     .print (.filter "join" (path "set" ["asns"]) [str ", "]), .text " ];\n"]
    [.text "define ", .print (path "id" []), .text "_asns = [ 0 ];\n"],
   .text "function ", .print (path "id" []), .text "_prefix_ok()\n\x7b\n",
   eachPrefix,
   .text "\treturn false;\n\x7d\n\n"]

def eachSet : Stmt :=
  .loop (.names ["id", "set"]) (.filter "items" (path "as_sets" []) []) none setBody []

def setsBody : List Stmt := [.text "# IRR data\n", eachSet]

def roaBody : List Stmt :=
  [only (.test "current_ipver" (path "r" ["prefix"]) [])
    [.text "\troute ", .print (path "r" ["prefix"]), .text "/", .print (path "r" ["length"]),
     .text " max ", .print (path "r" ["max_len"]), .text " as ", .print (path "r" ["asn"]),
     .text ";\n"]]

def eachRoa : Stmt := each "r" (path "roas" ["roas"]) roaBody

/-- Whether routes are compared with the route origin authorisations. -/
def usesRoas : Expr :=
  .and (path "cfg" ["filtering", "rpki", "enabled"]) (.not (.test "none" (path "roas" []) []))

def roasBody : List Stmt :=
  [only usesRoas
    [.text "# ROAs\nroa", .print (path "ip_ver" []),
     .text " table rpki_roas;\n\nprotocol static static_roas \x7b\n\troa",
     .print (path "ip_ver" []), .text " \x7b table rpki_roas; \x7d;\n",
     eachRoa,
     .text "\x7d\n\n"]]

/-! ### Filters that clients share -/

/-- The pair or triple of numbers that a community is. -/
def communityBody : List Stmt :=
  [.text "(",
   .print (.filter "replace" (.filter "replace" (path "value" [])
     [str ":peer_as", .concat (str ":") (path "peer" [])]) [str ":", str ", "]),
   .text ")"]

def macrosBody : List Stmt := [.snippet "community" ["value", "peer"] communityBody]

def takeCommunity : Stmt := .take (str "macros.j2") [("community", "community")]

/-- The test for an encoding of the blackhole community in a list of communities. -/
def blackholeTest (kind list : String) : Stmt :=
  only (path "blackholing" [kind])
    [.text "\tif ",
     .print (.call (path "community" [])
       [path "blackholing" [kind], .literal (.number (.int 0))]),
     .text (" ~ " ++ list ++ " then return true;\n")]

def blackholeTests : Stmt :=
  only (.filter "community_is_set" (path "blackholing" []) [])
    [blackholeTest "std" "bgp_community", blackholeTest "lrg" "bgp_large_community"]

def transitTest : Stmt :=
  only (path "cfg" ["filtering", "transit_free", "asns"])
    [.text "\tif bgp_path ~ [= * [ ",
     .print (.filter "join" (path "cfg" ["filtering", "transit_free", "asns"]) [str ", "]),
     .text " ] * =] then \x7b\n",
     .branch (.compare .eq (path "cfg" ["filtering", "transit_free", "action"]) (str "warning"))
      [.text "\t\tprint \"transit-free ASN in AS_PATH of \", net, \" from \", from;\n"]
      [.text "\t\treject \"transit-free ASN in AS_PATH of \", net;\n"],
     .text "\t\x7d\n"]

def policyBody : List Stmt :=
  [only (.compare .eq (path "bh_policy" []) (str "rewrite-next-hop"))
    [.text "\tbgp_next_hop = ",
     .print (.item (path "bh" []) (.concat (str "rewrite_next_hop_ipv") (path "ip_ver" []))),
     .text ";\n"],
   only (.and (path "bh_policy" []) (path "bh" ["add_noexport"]))
    [.text "\tbgp_community.add((65535, 65281));\n"]]

def filterBindings : List Stmt :=
  [takeCommunity,
   .bind (.name "blackholing") (path "cfg" ["communities", "blackholing"]),
   .bind (.name "bh") (path "cfg" ["blackhole_filtering"]),
   .bind (.name "bh_policy")
    (.item (path "bh" []) (.concat (str "policy_ipv") (path "ip_ver" [])))]

def filtersBody : List Stmt :=
  filterBindings ++
  [.text "# common filters\nfunction reject_transit_free()\n\x7b\n", transitTest,
   .text "\treturn true;\n\x7d\n\nfunction is_blackhole()\n\x7b\n", blackholeTests,
   .text "\treturn false;\n\x7d\n\nfunction apply_blackhole_policy()\n\x7b\n"] ++
  policyBody ++
  [.text ("\treturn true;\n\x7d\n\n# AS0, AS_TRANS, documentation, private and reserved ASNs\n" ++
    "function reject_invalid_asns()\n\x7b\n\tif bgp_path ~ [= * [0, 23456, 64496..131071, " ++
    "4200000000..4294967295] * =] then\n\t\treject \"invalid ASN in AS_PATH of \", net;\n" ++
    "\treturn true;\n\x7d\n\n")]

/-! ### Clients -/

/-- The client's own limit, or else the general one. -/
def limit : Expr :=
  .choose (.not (.test "none" (path "client_limit" []) [])) (path "client_limit" [])
    (.item (path "cfg" ["filtering", "max_prefix"])
      (.concat (str "general_limit_ipv") (path "ip_ver" [])))

/-- The client's own action, or else the general one, or else the usual one. -/
def action : Expr :=
  .or (.or (path "f" ["max_prefix", "action"]) (path "cfg" ["filtering", "max_prefix", "action"]))
    (str "shutdown")

/-- What is bound for a client. -/
def settingsBody : List Stmt :=
  [.bind (.name "f") (path "c" ["cfg", "filtering"]),
   .bind (.name "pref_len")
    (.item (path "f" []) (.concat (.concat (str "ipv") (path "ip_ver" [])) (str "_pref_len"))),
   .bind (.name "client_limit")
    (.item (path "f" ["max_prefix"]) (.concat (str "limit_ipv") (path "ip_ver" []))),
   .bind (.name "limit") limit,
   .bind (.name "action") action]

/-- The tests of the sets of a client, joined. -/
def setTests (inFront : List String) (behind : String) : Stmt :=
  each "id" (path "f" ["irrdb", "as_set_ids"])
    (inFront.map .text ++ [.print (path "id" []), .text behind,
      only (.not (path "loop" ["last"])) [.text " || "]])

def originTests : Stmt := setTests ["bgp_path.last ~ "] "_asns"

def prefixTests : Stmt := setTests [] "_prefix_ok()"

def tagTest : Stmt :=
  only (.and (path "cfg" ["filtering", "irrdb", "tag_as_set"]) (path "tag" ["std"]))
    [.text "\tif ", originTests, .text " then bgp_community.add(",
     .print (.call (path "community" []) [path "tag" ["std"], path "c" ["asn"]]),
     .text ");\n"]

def irrTests : Stmt :=
  only (path "f" ["irrdb", "as_set_ids"])
    [only (path "f" ["irrdb", "enforce_origin_in_as_set"])
      [.text "\tif !(", originTests, .text ") then reject;\n"],
     only (path "f" ["irrdb", "enforce_prefix_in_as_set"])
      [.text "\tif !(", prefixTests, .text ") then reject;\n"],
     tagTest]

def roaTest : Stmt :=
  only (.and usesRoas (path "f" ["rpki", "reject_invalid"]))
    [.text "\tif roa_check(rpki_roas, net, bgp_path.last) = ROA_INVALID then reject;\n"]

/-- The checks of a route that need no data of registries. -/
def checksBody : List Stmt :=
  [.text "filter receive_from_", .print (path "c" ["id"]),
   .text "\n\x7b\n\tif !is_blackhole() then \x7b\n\t\tif net.len < ",
   .print (path "pref_len" ["min"]), .text " || net.len > ", .print (path "pref_len" ["max"]),
   .text " then reject;\n\t\x7d\n\tif is_bogon() then reject;\n\tif bgp_path.len > ",
   .print (path "f" ["max_as_path_len"]), .text " then reject;\n",
   only (.compare .eq (path "f" ["next_hop_policy"]) (str "strict"))
    [.text "\tif bgp_next_hop != from then reject;\n"],
   .text "\tif bgp_path.first != ", .print (path "c" ["asn"]), .text " then reject;\n",
   only (path "f" ["reject_invalid_as_in_as_path"]) [.text "\treject_invalid_asns();\n"],
   .text "\treject_transit_free();\n"]

def receiveBody : List Stmt :=
  checksBody ++
  [irrTests,
   roaTest,
   .text ("\tif is_blackhole() then apply_blackhole_policy();\n\taccept;\n\x7d\n\n" ++
     "filter announce_to_")]

def announceBody : List Stmt :=
  [.print (path "c" ["id"]), .text "\n\x7b\n",
   only (.not (path "c" ["cfg", "blackhole_filtering", "announce_to_client"]))
    [.text "\tif is_blackhole() then reject;\n"],
   only (path "c" ["cfg", "prepend_rs_as"]) [.text "\tbgp_path.prepend(rs_as);\n"],
   .text "\taccept;\n\x7d\n\nprotocol bgp "]

def description : Expr := .or (path "c" ["description"]) (path "c" ["id"])

def passwordLine : Stmt :=
  only (path "c" ["password"])
    [.text "\tpassword \"", .print (path "c" ["password"]), .text "\";\n"]

def protocolBody : List Stmt :=
  [.print (path "c" ["id"]), .text " \x7b\n\tdescription \"", .print description,
   .text "\";\n\tlocal as rs_as;\n\tneighbor ", .print (path "c" ["ip"]), .text " as ",
   .print (path "c" ["asn"]), .text ";\n\trs client;\n",
   only (path "c" ["cfg", "passive"]) [.text "\tpassive on;\n"],
   only (path "c" ["cfg", "gtsm"]) [.text "\tttl security on;\n"],
   passwordLine,
   .text "\tipv", .print (path "ip_ver" []), .text " \x7b\n\t\timport limit ",
   .print (path "limit" []), .text " action ",
   .print (.item (path "actions" []) (path "action" [])),
   .text ";\n\t\timport filter receive_from_", .print (path "c" ["id"]),
   .text ";\n\t\texport filter announce_to_", .print (path "c" ["id"]), .text ";\n",
   only (path "c" ["cfg", "add_path"]) [.text "\t\tadd paths tx;\n"],
   .text "\t\x7d;\n\x7d\n\n"]

def clientBody : List Stmt := settingsBody ++ receiveBody ++ announceBody ++ protocolBody

/-- The words of the daemon for what is done about too many prefixes. -/
def actionWords : Expr :=
  .dict [(str "shutdown", str "disable"), (str "restart", str "restart"),
    (str "block", str "block"), (str "warning", str "warn")]

def eachClient : Stmt :=
  each "c" (path "clients" []) [only (.test "current_ipver" (path "c" ["ip"]) []) clientBody]

/-- What is bound for all clients. -/
def clientBindings : List Stmt :=
  [takeCommunity,
   .bind (.name "actions") actionWords,
   .bind (.name "tag") (path "cfg" ["communities", "origin_present_in_as_set"]),
   .text "# clients\n"]

def clientsBody : List Stmt := clientBindings ++ [eachClient]

def headBody : List Stmt :=
  [.text "# BIRD 2 route server configuration, IPv", .print (path "ip_ver" []),
   .text "\n# generated by rsgen, do not edit\n\nrouter id ", .print (path "cfg" ["router_id"]),
   .text ";\ndefine rs_as = ", .print (path "cfg" ["rs_as"]),
   .text (";\n\nlog syslog all;\nlog \"/var/log/bird.log\" all;\n\n" ++
     "protocol device \x7b\x7d;\n\n")]

def partsBody : List Stmt :=
  [.embed (str "bogons.j2") false, .embed (str "irrdb.j2") false, .embed (str "rpki.j2") false,
   .embed (str "filters.j2") false, .embed (str "clients.j2") false]

def mainBody : List Stmt := headBody ++ partsBody

/-! ### Parsing -/

theorem parse_bogons : parse bogons = some bogonsBody := by
  refine parse_of_parsesTo ?_
  simp only [List.flatMap_cons, List.flatMap_nil]
  repeat rw [String.toList_ofList]
  decide +kernel

theorem parse_irrdb : parse irrdb = some setsBody := by
  refine parse_of_parsesTo ?_
  simp only [List.flatMap_cons, List.flatMap_nil]
  repeat rw [String.toList_ofList]
  decide +kernel

theorem parse_rpki : parse rpki = some roasBody := by
  refine parse_of_parsesTo ?_
  simp only [List.flatMap_cons, List.flatMap_nil]
  repeat rw [String.toList_ofList]
  decide +kernel

theorem parse_macros : parse macros = some macrosBody := by
  refine parse_of_parsesTo ?_
  simp only [List.flatMap_cons, List.flatMap_nil]
  repeat rw [String.toList_ofList]
  decide +kernel

theorem parse_filters : parse filters = some filtersBody := by
  refine parse_of_parsesTo ?_
  simp only [List.flatMap_cons, List.flatMap_nil]
  repeat rw [String.toList_ofList]
  decide +kernel

theorem parse_clients : parse clients = some clientsBody := by
  refine parse_of_parsesTo ?_
  simp only [List.flatMap_cons, List.flatMap_nil]
  repeat rw [String.toList_ofList]
  decide +kernel

theorem parse_mainTemplate : parse mainTemplate = some mainBody := by
  refine parse_of_parsesTo ?_
  simp only [List.flatMap_cons, List.flatMap_nil]
  repeat rw [String.toList_ofList]
  decide +kernel

end RouteServer.Shipped.Bird

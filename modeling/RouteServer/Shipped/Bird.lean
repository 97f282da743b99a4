import RouteServer.Shipped.Basic

/-!
# Shipped — Bird

The templates for BIRD: a function for each concern, a set of definitions for each AS-SET, and for each
client of the family a pair of filters and a protocol.
-/

namespace RouteServer.Shipped.Bird

/-- The prefixes that nobody may announce. -/
def bogons : String := ofLines
  ["# bogons",
   "function is_bogon()",
   "\x7b",
   "\x7b% for b in bogons %\x7d",
   "\x7b% if b.prefix is current_ipver %\x7d",
   "\tif net ~ [ \x7b\x7b b.prefix \x7d\x7d/\x7b\x7b b.length \x7d\x7d+ ] then return true;",
   "\x7b% endif %\x7d",
   "\x7b% endfor %\x7d",
   "\treturn false;",
   "\x7d",
   ""]

/-- The clients. -/
def clients : String := ofLines
  ["\x7b% from \"macros.j2\" import community %\x7d",
   "\x7b% set actions = \x7b\"shutdown\": \"disable\", \"restart\": \"restart\", \"block\": \"block\", \"warning\": \"warn\"\x7d %\x7d",
   "\x7b% set tag = cfg.communities.origin_present_in_as_set %\x7d",
   "# clients",
   "\x7b% for c in clients %\x7d",
   "\x7b% if c.ip is current_ipver %\x7d",
   "\x7b% set f = c.cfg.filtering %\x7d",
   "\x7b% set pref_len = f[\"ipv\" ~ ip_ver ~ \"_pref_len\"] %\x7d",
   "\x7b% set client_limit = f.max_prefix[\"limit_ipv\" ~ ip_ver] %\x7d",
   "\x7b% set limit = client_limit if client_limit is not none else cfg.filtering.max_prefix[\"general_limit_ipv\" ~ ip_ver] %\x7d",
   "\x7b% set action = f.max_prefix.action or cfg.filtering.max_prefix.action or \"shutdown\" %\x7d",
   "filter receive_from_\x7b\x7b c.id \x7d\x7d",
   "\x7b",
   "\tif !is_blackhole() then \x7b",
   "\t\tif net.len < \x7b\x7b pref_len.min \x7d\x7d || net.len > \x7b\x7b pref_len.max \x7d\x7d then reject;",
   "\t\x7d",
   "\tif is_bogon() then reject;",
   "\tif bgp_path.len > \x7b\x7b f.max_as_path_len \x7d\x7d then reject;",
   "\x7b% if f.next_hop_policy == \"strict\" %\x7d",
   "\tif bgp_next_hop != from then reject;",
   "\x7b% endif %\x7d",
   "\tif bgp_path.first != \x7b\x7b c.asn \x7d\x7d then reject;",
   "\x7b% if f.reject_invalid_as_in_as_path %\x7d",
   "\treject_invalid_asns();",
   "\x7b% endif %\x7d",
   "\treject_transit_free();",
   "\x7b% if f.irrdb.as_set_ids %\x7d",
   "\x7b% if f.irrdb.enforce_origin_in_as_set %\x7d",
   "\tif !(\x7b% for id in f.irrdb.as_set_ids %\x7dbgp_path.last ~ \x7b\x7b id \x7d\x7d_asns\x7b% if not loop.last %\x7d || \x7b% endif %\x7d\x7b% endfor %\x7d) then reject;",
   "\x7b% endif %\x7d",
   "\x7b% if f.irrdb.enforce_prefix_in_as_set %\x7d",
   "\tif !(\x7b% for id in f.irrdb.as_set_ids %\x7d\x7b\x7b id \x7d\x7d_prefix_ok()\x7b% if not loop.last %\x7d || \x7b% endif %\x7d\x7b% endfor %\x7d) then reject;",
   "\x7b% endif %\x7d",
   "\x7b% if cfg.filtering.irrdb.tag_as_set and tag.std %\x7d",
   "\tif \x7b% for id in f.irrdb.as_set_ids %\x7dbgp_path.last ~ \x7b\x7b id \x7d\x7d_asns\x7b% if not loop.last %\x7d || \x7b% endif %\x7d\x7b% endfor %\x7d then bgp_community.add(\x7b\x7b community(tag.std, c.asn) \x7d\x7d);",
   "\x7b% endif %\x7d",
   "\x7b% endif %\x7d",
   "\x7b% if cfg.filtering.rpki.enabled and roas is not none and f.rpki.reject_invalid %\x7d",
   "\tif roa_check(rpki_roas, net, bgp_path.last) = ROA_INVALID then reject;",
   "\x7b% endif %\x7d",
   "\tif is_blackhole() then apply_blackhole_policy();",
   "\taccept;",
   "\x7d",
   "",
   "filter announce_to_\x7b\x7b c.id \x7d\x7d",
   "\x7b",
   "\x7b% if not c.cfg.blackhole_filtering.announce_to_client %\x7d",
   "\tif is_blackhole() then reject;",
   "\x7b% endif %\x7d",
   "\x7b% if c.cfg.prepend_rs_as %\x7d",
   "\tbgp_path.prepend(rs_as);",
   "\x7b% endif %\x7d",
   "\taccept;",
   "\x7d",
   "",
   "protocol bgp \x7b\x7b c.id \x7d\x7d \x7b",
   "\tdescription \"\x7b\x7b c.description or c.id \x7d\x7d\";",
   "\tlocal as rs_as;",
   "\tneighbor \x7b\x7b c.ip \x7d\x7d as \x7b\x7b c.asn \x7d\x7d;",
   "\trs client;",
   "\x7b% if c.cfg.passive %\x7d",
   "\tpassive on;",
   "\x7b% endif %\x7d",
   "\x7b% if c.cfg.gtsm %\x7d",
   "\tttl security on;",
   "\x7b% endif %\x7d",
   "\x7b% if c.password %\x7d",
   "\tpassword \"\x7b\x7b c.password \x7d\x7d\";",
   "\x7b% endif %\x7d",
   "\tipv\x7b\x7b ip_ver \x7d\x7d \x7b",
   "\t\timport limit \x7b\x7b limit \x7d\x7d action \x7b\x7b actions[action] \x7d\x7d;",
   "\t\timport filter receive_from_\x7b\x7b c.id \x7d\x7d;",
   "\t\texport filter announce_to_\x7b\x7b c.id \x7d\x7d;",
   "\x7b% if c.cfg.add_path %\x7d",
   "\t\tadd paths tx;",
   "\x7b% endif %\x7d",
   "\t\x7d;",
   "\x7d",
   "",
   "\x7b% endif %\x7d",
   "\x7b% endfor %\x7d"]

/-- The rules that all clients share. -/
def filters : String := ofLines
  ["\x7b% from \"macros.j2\" import community %\x7d",
   "\x7b% set blackholing = cfg.communities.blackholing %\x7d",
   "\x7b% set bh = cfg.blackhole_filtering %\x7d",
   "\x7b% set bh_policy = bh[\"policy_ipv\" ~ ip_ver] %\x7d",
   "# common filters",
   "function reject_transit_free()",
   "\x7b",
   "\x7b% if cfg.filtering.transit_free.asns %\x7d",
   "\tif bgp_path ~ [= * [ \x7b\x7b cfg.filtering.transit_free.asns|join(\", \") \x7d\x7d ] * =] then \x7b",
   "\x7b% if cfg.filtering.transit_free.action == \"warning\" %\x7d",
   "\t\tprint \"transit-free ASN in AS_PATH of \", net, \" from \", from;",
   "\x7b% else %\x7d",
   "\t\treject \"transit-free ASN in AS_PATH of \", net;",
   "\x7b% endif %\x7d",
   "\t\x7d",
   "\x7b% endif %\x7d",
   "\treturn true;",
   "\x7d",
   "",
   "function is_blackhole()",
   "\x7b",
   "\x7b% if blackholing|community_is_set %\x7d",
   "\x7b% if blackholing.std %\x7d",
   "\tif \x7b\x7b community(blackholing.std, 0) \x7d\x7d ~ bgp_community then return true;",
   "\x7b% endif %\x7d",
   "\x7b% if blackholing.lrg %\x7d",
   "\tif \x7b\x7b community(blackholing.lrg, 0) \x7d\x7d ~ bgp_large_community then return true;",
   "\x7b% endif %\x7d",
   "\x7b% endif %\x7d",
   "\treturn false;",
   "\x7d",
   "",
   "function apply_blackhole_policy()",
   "\x7b",
   "\x7b% if bh_policy == \"rewrite-next-hop\" %\x7d",
   "\tbgp_next_hop = \x7b\x7b bh[\"rewrite_next_hop_ipv\" ~ ip_ver] \x7d\x7d;",
   "\x7b% endif %\x7d",
   "\x7b% if bh_policy and bh.add_noexport %\x7d",
   "\tbgp_community.add((65535, 65281));",
   "\x7b% endif %\x7d",
   "\treturn true;",
   "\x7d",
   "",
   "# AS0, AS_TRANS, documentation, private and reserved ASNs",
   "function reject_invalid_asns()",
   "\x7b",
   "\tif bgp_path ~ [= * [0, 23456, 64496..131071, 4200000000..4294967295] * =] then",
   "\t\treject \"invalid ASN in AS_PATH of \", net;",
   "\treturn true;",
   "\x7d",
   ""]

/-- The AS-SETs. -/
def irrdb : String := ofLines
  ["# IRR data",
   "\x7b% for id, set in as_sets|items %\x7d",
   "# \x7b\x7b set.name \x7d\x7d",
   "\x7b% if set.asns %\x7d",
   "define \x7b\x7b id \x7d\x7d_asns = [ \x7b\x7b set.asns|join(\", \") \x7d\x7d ];",
   "\x7b% else %\x7d",
   "define \x7b\x7b id \x7d\x7d_asns = [ 0 ];",
   "\x7b% endif %\x7d",
   "function \x7b\x7b id \x7d\x7d_prefix_ok()",
   "\x7b",
   "\x7b% for p in set.prefixes %\x7d",
   "\x7b% if p.prefix is current_ipver %\x7d",
   "\tif net ~ [ \x7b\x7b p.prefix ~ \"/\" ~ p.length ~ \"\x7b\" ~ p.min_length ~ \",\" ~ p.max_length ~ \"\x7d\" \x7d\x7d ] then return true;",
   "\x7b% endif %\x7d",
   "\x7b% endfor %\x7d",
   "\treturn false;",
   "\x7d",
   "",
   "\x7b% endfor %\x7d"]

/-- The snippets that other templates use. -/
def macros : String := ofLines
  ["\x7b# \"65501:peer_as\" becomes \"(65501, <peer>)\"; works for standard and large communities #\x7d",
   "\x7b% macro community(value, peer) %\x7d(\x7b\x7b value|replace(\":peer_as\", \":\" ~ peer)|replace(\":\", \", \") \x7d\x7d)\x7b% endmacro %\x7d"]

/-- The template that is rendered. -/
def mainTemplate : String := ofLines
  ["# BIRD 2 route server configuration, IPv\x7b\x7b ip_ver \x7d\x7d",
   "# generated by rsgen, do not edit",
   "",
   "router id \x7b\x7b cfg.router_id \x7d\x7d;",
   "define rs_as = \x7b\x7b cfg.rs_as \x7d\x7d;",
   "",
   "log syslog all;",
   "log \"/var/log/bird.log\" all;",
   "",
   "protocol device \x7b\x7d;",
   "",
   "\x7b% include \"bogons.j2\" %\x7d",
   "\x7b% include \"irrdb.j2\" %\x7d",
   "\x7b% include \"rpki.j2\" %\x7d",
   "\x7b% include \"filters.j2\" %\x7d",
   "\x7b% include \"clients.j2\" %\x7d"]

/-- The route origin authorisations. -/
def rpki : String := ofLines
  ["\x7b% if cfg.filtering.rpki.enabled and roas is not none %\x7d",
   "# ROAs",
   "roa\x7b\x7b ip_ver \x7d\x7d table rpki_roas;",
   "",
   "protocol static static_roas \x7b",
   "\troa\x7b\x7b ip_ver \x7d\x7d \x7b table rpki_roas; \x7d;",
   "\x7b% for r in roas.roas %\x7d",
   "\x7b% if r.prefix is current_ipver %\x7d",
   "\troute \x7b\x7b r.prefix \x7d\x7d/\x7b\x7b r.length \x7d\x7d max \x7b\x7b r.max_len \x7d\x7d as \x7b\x7b r.asn \x7d\x7d;",
   "\x7b% endif %\x7d",
   "\x7b% endfor %\x7d",
   "\x7d",
   "",
   "\x7b% endif %\x7d"]

/-- The templates by their names. -/
def files : List (String × String) :=
  [("bogons.j2", bogons),
   ("clients.j2", clients),
   ("filters.j2", filters),
   ("irrdb.j2", irrdb),
   ("macros.j2", macros),
   ("main.j2", mainTemplate),
   ("rpki.j2", rpki)]

end RouteServer.Shipped.Bird

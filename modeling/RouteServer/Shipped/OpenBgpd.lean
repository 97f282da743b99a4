import RouteServer.Shipped.Basic

/-!
# Shipped — OpenBGPD

The templates for OpenBGPD: sets, a group of neighbours and a list of filter rules, with places for the
operator's own files in between.
-/

namespace RouteServer.Shipped.OpenBgpd

/-- The prefixes that nobody may announce. -/
def bogons : String := ofLines
  ["prefix-set bogons \x7b",
   "\x7b% for b in bogons %\x7d",
   "\x7b% if b.prefix is current_ipver %\x7d",
   "\t\x7b\x7b b.prefix \x7d\x7d/\x7b\x7b b.length \x7d\x7d or-longer",
   "\x7b% endif %\x7d",
   "\x7b% endfor %\x7d",
   "\x7d",
   ""]

/-- The clients. -/
def clients : String := ofLines
  ["group \"clients\" \x7b",
   "\ttransparent-as yes",
   "\tannounce all",
   "\x7b% for c in clients %\x7d",
   "\x7b% if c.ip is current_ipver %\x7d",
   "\x7b% set v = c.ip|ipaddr_ver %\x7d",
   "\x7b% set max_prefix = c.cfg.filtering.max_prefix %\x7d",
   "\x7b% set limit = max_prefix[\"limit_ipv\" ~ v] if max_prefix[\"limit_ipv\" ~ v] is not none else cfg.filtering.max_prefix[\"general_limit_ipv\" ~ v] %\x7d",
   "\x7b% set action = max_prefix.action or cfg.filtering.max_prefix.action or \"shutdown\" %\x7d",
   "",
   "\tneighbor \x7b\x7b c.ip \x7d\x7d \x7b",
   "\t\tdescr \"\x7b\x7b c.description or c.id \x7d\x7d\"",
   "\t\tremote-as \x7b\x7b c.asn \x7d\x7d",
   "\t\tmax-prefix \x7b\x7b limit \x7d\x7d\x7b% if action == \"restart\" %\x7d restart 15\x7b% endif %\x7d",
   "",
   "\x7b% if c.cfg.passive %\x7d",
   "\t\tpassive",
   "\x7b% endif %\x7d",
   "\x7b% if c.cfg.gtsm %\x7d",
   "\t\tttl-security yes",
   "\x7b% endif %\x7d",
   "\x7b% if c.password %\x7d",
   "\t\ttcp md5sig password \"\x7b\x7b c.password \x7d\x7d\"",
   "\x7b% endif %\x7d",
   "\t\t\x7b\x7b \"client\"|include_local_file \x7d\x7d",
   "\t\x7d",
   "\x7b% endif %\x7d",
   "\x7b% endfor %\x7d",
   "\x7d",
   ""]

/-- The rules that all clients share. -/
def filters : String := ofLines
  ["\x7b% set blackholing = cfg.communities.blackholing %\x7d",
   "\x7b% set bh = cfg.blackhole_filtering %\x7d",
   "\x7b% set families = [4, 6] if ip_ver is none else [ip_ver] %\x7d",
   "\x7b% set tag = cfg.communities.origin_present_in_as_set %\x7d",
   "\x7b% set v4 = cfg.filtering.ipv4_pref_len %\x7d",
   "\x7b% set v6 = cfg.filtering.ipv6_pref_len %\x7d",
   "# last matching rule wins, unless quick",
   "deny from any",
   "allow to any",
   "",
   "deny quick from any prefix-set bogons",
   "deny quick from any inet prefixlen < \x7b\x7b v4.min \x7d\x7d",
   "deny quick from any inet prefixlen > \x7b\x7b v4.max \x7d\x7d",
   "deny quick from any inet6 prefixlen < \x7b\x7b v6.min \x7d\x7d",
   "deny quick from any inet6 prefixlen > \x7b\x7b v6.max \x7d\x7d",
   "deny quick from any max-as-len \x7b\x7b cfg.filtering.max_as_path_len \x7d\x7d",
   "\x7b% for asn in cfg.filtering.transit_free.asns %\x7d",
   "deny quick from any transit-as \x7b\x7b asn \x7d\x7d",
   "\x7b% endfor %\x7d",
   "\x7b% if cfg.filtering.next_hop_policy == \"strict\" %\x7d",
   "deny quick from group \"clients\" ! nexthop neighbor",
   "\x7b% endif %\x7d",
   "",
   "\x7b% for c in clients %\x7d",
   "\x7b% if c.ip is current_ipver %\x7d",
   "\x7b% set irrdb = c.cfg.filtering.irrdb %\x7d",
   "deny quick from \x7b\x7b c.ip \x7d\x7d ! peer-as \x7b\x7b c.asn \x7d\x7d",
   "\x7b% if c.cfg.filtering.reject_invalid_as_in_as_path %\x7d",
   "\x7b% for asns in [\"0\", \"23456\", \"64496 - 131071\", \"4200000000 - 4294967295\"] %\x7d",
   "deny quick from \x7b\x7b c.ip \x7d\x7d AS \x7b\x7b asns \x7d\x7d",
   "\x7b% endfor %\x7d",
   "\x7b% endif %\x7d",
   "\x7b% if irrdb.enforce_origin_in_as_set or irrdb.enforce_prefix_in_as_set %\x7d",
   "\x7b% for id in irrdb.as_set_ids %\x7d",
   "allow from \x7b\x7b c.ip \x7d\x7d\x7b% if irrdb.enforce_origin_in_as_set %\x7d source-as as-set \x7b\x7b id \x7d\x7d\x7b% endif %\x7d\x7b% if irrdb.enforce_prefix_in_as_set %\x7d prefix-set \x7b\x7b id \x7d\x7d_prefixes\x7b% endif %\x7d",
   "",
   "\x7b% endfor %\x7d",
   "\x7b% else %\x7d",
   "allow from \x7b\x7b c.ip \x7d\x7d",
   "\x7b% endif %\x7d",
   "\x7b% if cfg.filtering.irrdb.tag_as_set %\x7d",
   "\x7b% for id in irrdb.as_set_ids %\x7d",
   "\x7b% if tag.std %\x7d",
   "match from \x7b\x7b c.ip \x7d\x7d source-as as-set \x7b\x7b id \x7d\x7d set community \x7b\x7b tag.std \x7d\x7d",
   "\x7b% endif %\x7d",
   "\x7b% if tag.ext %\x7d",
   "match from \x7b\x7b c.ip \x7d\x7d source-as as-set \x7b\x7b id \x7d\x7d set ext-community \x7b\x7b tag.ext|convert_ext_comm \x7d\x7d",
   "\x7b% endif %\x7d",
   "\x7b% endfor %\x7d",
   "\x7b% endif %\x7d",
   "\x7b% endif %\x7d",
   "\x7b% endfor %\x7d",
   "",
   "\x7b% if blackholing.std %\x7d",
   "\x7b% for v in families %\x7d",
   "\x7b% set policy = bh[\"policy_ipv\" ~ v] %\x7d",
   "\x7b% if policy == \"rewrite-next-hop\" or (policy and bh.add_noexport) %\x7d",
   "match from any prefix \x7b\x7b \"0.0.0.0/0\" if v == 4 else \"::/0\" \x7d\x7d or-longer community \x7b\x7b blackholing.std \x7d\x7d set \x7b \x7b% if policy == \"rewrite-next-hop\" %\x7dnexthop \x7b\x7b bh[\"rewrite_next_hop_ipv\" ~ v] \x7d\x7d \x7b% endif %\x7d\x7b% if bh.add_noexport %\x7dcommunity NO_EXPORT \x7b% endif %\x7d\x7d",
   "\x7b% endif %\x7d",
   "\x7b% endfor %\x7d",
   "\x7b% if not cfg.blackhole_filtering.announce_to_client %\x7d",
   "deny quick to group \"clients\" community \x7b\x7b blackholing.std \x7d\x7d",
   "\x7b% endif %\x7d",
   "\x7b% endif %\x7d"]

/-- The AS-SETs. -/
def irrdb : String := ofLines
  ["\x7b% for id, set in as_sets|items %\x7d",
   "# \x7b\x7b set.name \x7d\x7d",
   "as-set \x7b\x7b id \x7d\x7d \x7b",
   "\x7b% for asn in set.asns %\x7d",
   "\t\x7b\x7b asn \x7d\x7d",
   "\x7b% endfor %\x7d",
   "\x7d",
   "prefix-set \x7b\x7b id \x7d\x7d_prefixes \x7b",
   "\x7b% for p in set.prefixes %\x7d",
   "\x7b% if p.prefix is current_ipver %\x7d",
   "\t\x7b\x7b p.prefix \x7d\x7d/\x7b\x7b p.length \x7d\x7d prefixlen \x7b\x7b p.min_length \x7d\x7d - \x7b\x7b p.max_length \x7d\x7d",
   "\x7b% endif %\x7d",
   "\x7b% endfor %\x7d",
   "\x7d",
   "",
   "\x7b% endfor %\x7d"]

/-- The template that is rendered. -/
def mainTemplate : String := ofLines
  ["# OpenBGPD route server configuration",
   "# generated by rsgen, do not edit",
   "",
   "\x7b\x7b \"header\"|include_local_file \x7d\x7dAS \x7b\x7b cfg.rs_as \x7d\x7d",
   "router-id \x7b\x7b cfg.router_id \x7d\x7d",
   "fib-update no",
   "log updates",
   "",
   "\x7b% include \"bogons.j2\" %\x7d",
   "\x7b\x7b \"pre-irrdb\"|include_local_file \x7d\x7d\x7b% include \"irrdb.j2\" %\x7d",
   "\x7b\x7b \"post-irrdb\"|include_local_file \x7d\x7d\x7b\x7b \"pre-clients\"|include_local_file \x7d\x7d\x7b% include \"clients.j2\" %\x7d",
   "\x7b\x7b \"post-clients\"|include_local_file \x7d\x7d\x7b\x7b \"pre-filters\"|include_local_file \x7d\x7d\x7b% include \"filters.j2\" %\x7d",
   "\x7b\x7b \"post-filters\"|include_local_file \x7d\x7d\x7b\x7b \"footer\"|include_local_file \x7d\x7d"]

/-- The templates by their names. -/
def files : List (String × String) :=
  [("bogons.j2", bogons),
   ("clients.j2", clients),
   ("filters.j2", filters),
   ("irrdb.j2", irrdb),
   ("main.j2", mainTemplate)]

end RouteServer.Shipped.OpenBgpd

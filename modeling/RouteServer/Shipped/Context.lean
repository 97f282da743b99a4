import RouteServer.Shipped.Basic

/-!
# Shipped — Context

The template that shows what the other templates are given.
-/

namespace RouteServer.Shipped.Context

/-- The template that is rendered. -/
def mainTemplate : String := ofLines
  ["\x7b\x7b \x7b\"ip_ver\": ip_ver, \"live_tests\": live_tests, \"cfg\": cfg, \"bogons\": bogons, \"clients\": clients, \"asns\": asns, \"as_sets\": as_sets, \"roas\": roas\x7d|to_yaml \x7d\x7d"]

/-- The templates by their names. -/
def files : List (String × String) :=
  [("main.j2", mainTemplate)]

end RouteServer.Shipped.Context

import RouteServer.Policy.Decode

/-!
# Policy — Choice

The options that are chosen from a few named possibilities.
-/

namespace RouteServer.Policy

open RouteServer.Yaml

/-- Which next hops a client may announce. -/
inductive NextHopPolicy where
  | strict
  | sameAs
  deriving DecidableEq, Repr

namespace NextHopPolicy

/-- All choices. -/
def all : List NextHopPolicy := [.strict, .sameAs]

/-- The text of a choice. -/
def text : NextHopPolicy → String
  | .strict => "strict"
  | .sameAs => "same-as"

/-- The choice a value gives. -/
def ofValue : Value → Decoded NextHopPolicy := Decoded.choice all text

end NextHopPolicy

/-- What is done with a route that has a transit-free network in its path. -/
inductive TransitFreeAction where
  | reject
  | warning
  /-- Tear the session down, which not every daemon can do from a filter. -/
  | shutdown
  deriving DecidableEq, Repr

namespace TransitFreeAction

/-- All choices. -/
def all : List TransitFreeAction := [.reject, .warning, .shutdown]

/-- The text of a choice. -/
def text : TransitFreeAction → String
  | .reject => "reject"
  | .warning => "warning"
  | .shutdown => "shutdown"

/-- The choice a value gives. -/
def ofValue : Value → Decoded TransitFreeAction := Decoded.choice all text

end TransitFreeAction

/-- What is done when a client announces more than its limit. -/
inductive MaxPrefixAction where
  | shutdown
  | restart
  | block
  | warning
  deriving DecidableEq, Repr

namespace MaxPrefixAction

/-- All choices. -/
def all : List MaxPrefixAction := [.shutdown, .restart, .block, .warning]

/-- The text of a choice. -/
def text : MaxPrefixAction → String
  | .shutdown => "shutdown"
  | .restart => "restart"
  | .block => "block"
  | .warning => "warning"

/-- The choice a value gives. -/
def ofValue : Value → Decoded MaxPrefixAction := Decoded.choice all text

end MaxPrefixAction

/-- What happens to the next hop of a blackhole route. -/
inductive BlackholePolicy where
  | propagateUnchanged
  | rewriteNextHop
  deriving DecidableEq, Repr

namespace BlackholePolicy

/-- All choices. -/
def all : List BlackholePolicy := [.propagateUnchanged, .rewriteNextHop]

/-- The text of a choice. -/
def text : BlackholePolicy → String
  | .propagateUnchanged => "propagate-unchanged"
  | .rewriteNextHop => "rewrite-next-hop"

/-- The choice a value gives. -/
def ofValue : Value → Decoded BlackholePolicy := Decoded.choice all text

end BlackholePolicy

/-- Who attaches a community. -/
inductive Direction where
  /-- Clients, to ask for an action of the route server. -/
  | inbound
  /-- The route server, on the routes it announces. -/
  | outbound
  deriving DecidableEq, Repr

namespace Direction

/-- All choices. -/
def all : List Direction := [.inbound, .outbound]

/-- The text of a choice. -/
def text : Direction → String
  | .inbound => "inbound"
  | .outbound => "outbound"

/-- The choice a value gives. -/
def ofValue : Value → Decoded Direction := Decoded.choice all text

end Direction

end RouteServer.Policy

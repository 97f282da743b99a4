import RouteServer.Lookup.Codec

/-!
# Enrich — Limits

How many prefixes the clients may announce, for those that leave it to what their networks say they
announce.
-/

namespace RouteServer.Enrich

open RouteServer.Lookup RouteServer.Net RouteServer.Policy

/-- Whether a client leaves a limit to its network. -/
def leavesLimit (client : Client) : Bool :=
  let m := client.cfg.filtering.maxPrefix
  m.peeringDb && (m.limitV4.isNone || m.limitV6.isNone)

/-- The networks whose records are needed, in order. -/
def wantedNets (c : Configuration) : List Asn :=
  (((c.clients.filter leavesLimit).map Client.asn).mergeSort fun a b => a ≤ b).eraseDups

/-- A limit: what the client says, or else what the network says, when that is not zero. -/
def limit (own announced : Option UInt32) : Option UInt32 :=
  own.orElse fun _ => announced.filter (0 < ·)

/-- A client with the limits of its network where it has none of its own. -/
def limitClient (asn : Asn) (net : NetRecord) (client : Client) : Client :=
  let m := client.cfg.filtering.maxPrefix
  if m.peeringDb ∧ client.asn = asn then
    { client with
      cfg.filtering.maxPrefix :=
        { m with
          limitV4 := limit m.limitV4 net.prefixesV4
          limitV6 := limit m.limitV6 net.prefixesV6 } }
  else client

/-- Gives the clients of a network its limits; without a record there are none. -/
def setLimits (asn : Asn) (net : Option NetRecord) (c : Configuration) : Configuration :=
  match net with
  | some net => { c with clients := c.clients.map (limitClient asn net) }
  | none => c

end RouteServer.Enrich

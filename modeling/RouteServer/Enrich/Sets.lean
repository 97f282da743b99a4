import RouteServer.Lookup.Codec

/-!
# Enrich — Sets

The AS-SETs that filter the clients.  A client is filtered with the sets of its own; when it has
none with those registered for its network; and when there are none either with the network itself,
taken as a set.

Sets are kept under symbols, and names that differ may share one: the set then keeps the name that
came first.
-/

namespace RouteServer.Enrich

open RouteServer.Lookup RouteServer.Net RouteServer.Policy

/-- The names of the sets that filter a client. -/
def clientSets (c : Configuration) (client : Client) : List String :=
  let own := client.cfg.filtering.irr.asSets
  if own.isEmpty then
    match AsnInfo.asSetsFor c.asns client.asn with
    | some sets => sets.eraseDups
    | none => [Asn.name client.asn]
  else own.eraseDups

/-- Some texts in order, each once. -/
def distinct (names : List String) : List String :=
  (Dictionary.ofList (names.map fun n => (n, ()))).keys

/-- The names of the sets that are needed for the clients that pass, or for all of them when routes
are tagged with what the sets say. -/
def wantedSets (c : Configuration) (p : Client → Bool) : List String :=
  let wanted := c.clients.filter fun client => c.general.filtering.irr.tagAsSet || p client
  distinct (wanted.flatMap (clientSets c))

/-- Adds a set that nothing is known about, unless its symbol is taken. -/
def addSet (sets : Dictionary ResolvedSet) (name : String) : Dictionary ResolvedSet :=
  if sets.contains (AsSet.symbol name) then sets else sets.insert (AsSet.symbol name) { name }

/-- A client with the symbols of its sets. -/
def assignSets (client : Client) (names : List String) : Client :=
  { client with cfg.filtering.irr.asSetIds := names.map AsSet.symbol }

/-- Gives every client the symbols of its sets, and every symbol a set. -/
def prepareSets (c : Configuration) : Configuration :=
  { c with
    clients := c.clients.map fun client => assignSets client (clientSets c client)
    asSets := (c.clients.flatMap (clientSets c)).foldl addSet c.asSets }

/-- Numbers in order, each once. -/
def ascending (ns : List Asn) : List Asn := (ns.mergeSort fun a b => a ≤ b).eraseDups

/-- Gives a set its origins. -/
def setOrigins (name : String) (origins : List Asn) (c : Configuration) : Configuration :=
  { c with
    asSets := c.asSets.modify (AsSet.symbol name) fun s => { s with asns := ascending origins } }

/-- Gives a set more prefixes. -/
def addPrefixes (name : String) (more : List SetPrefix) (c : Configuration) : Configuration :=
  { c with
    asSets := c.asSets.modify (AsSet.symbol name) fun s =>
      { s with prefixes := s.prefixes ++ more } }

end RouteServer.Enrich

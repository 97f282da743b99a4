import RouteServer.Policy.Prefix
import RouteServer.Policy.Client

/-!
# Policy — Configuration

The whole configuration of a route server: the loaded documents, put together by `derive`, and the
AS-SETs, which are filled in once they have been looked up.
-/

namespace RouteServer.Policy

open RouteServer.Net RouteServer.Yaml

/-- A prefix of a set, with the lengths in which it may be announced. -/
structure SetPrefix where
  address : Address
  length : UInt8
  minLength : UInt8
  maxLength : UInt8
  deriving DecidableEq, Repr

/-- An AS-SET, or a single network, with the origins and prefixes found for it. -/
structure ResolvedSet where
  name : String
  asns : List Asn := []
  prefixes : List SetPrefix := []
  deriving DecidableEq, Repr

/-- The configuration of a route server. -/
structure Configuration where
  general : General
  bogons : List Bogon
  asns : Dictionary AsnInfo
  clients : List Client
  roas : Option (List Roa)
  /-- The sets under their symbols. -/
  asSets : Dictionary ResolvedSet
  deriving DecidableEq

/-- The fields as a value. -/
def SetPrefix.toValue (p : SetPrefix) : Value :=
  .ofFields
    [("prefix", .string p.address.text), ("length", uint8Value p.length),
     ("min_length", uint8Value p.minLength), ("max_length", uint8Value p.maxLength)]

/-- The fields as a value. -/
def ResolvedSet.toValue (s : ResolvedSet) : Value :=
  .ofFields
    [("name", .string s.name), ("asns", .list (s.asns.map uint32Value)),
     ("prefixes", .list (s.prefixes.map SetPrefix.toValue))]

/-- A dictionary as a value. -/
def dictionaryValue (f : α → Value) (d : Dictionary α) : Value :=
  .ofFields (d.entries.map fun e => (e.1, f e.2))

/-- The bogons as a document. -/
def bogonsValue (bogons : List Bogon) : Value :=
  .ofFields [("bogons", .list (bogons.map Bogon.toValue))]

/-- What is known about the networks as a document. -/
def asnsValue (asns : Dictionary AsnInfo) : Value :=
  .ofFields [("asns", dictionaryValue AsnInfo.toValue asns)]

/-- The clients as a document. -/
def clientsValue (clients : List Client) : Value :=
  .ofFields [("clients", .list (clients.map Client.toValue))]

/-- The ROAs as a document. -/
def roasValue (roas : List Roa) : Value :=
  .ofFields [("roas", .list (roas.map Roa.toValue))]

namespace Configuration

/-- Puts the documents together: clients get their ids, communities what is fixed about them, and
no set has been looked up yet. -/
def derive (general : General) (bogons : List Bogon) (asns : Dictionary AsnInfo)
    (clients : List Client) (roas : Option (List Roa)) : Configuration :=
  { general := general.defineCommunities
    bogons, asns
    clients := Client.assignIds clients
    roas
    asSets := .empty }

/-- The configuration as a value. -/
def toValue (c : Configuration) : Value :=
  .ofFields
    [("general", c.general.toValue), ("bogons", bogonsValue c.bogons),
     ("asns", asnsValue c.asns), ("clients", clientsValue c.clients),
     ("roas", optionValue roasValue c.roas),
     ("as_sets", dictionaryValue ResolvedSet.toValue c.asSets)]

end Configuration

end RouteServer.Policy

import RouteServer.Policy.General
import RouteServer.Schema.Walk

/-!
# Policy — Prefix

Prefixes that a policy lists: bogons, which nobody may announce, and route origin authorisations
that are given with the configuration, for daemons without a feed.

Both are given as an address and a length side by side.  These make a network when the length fits
the family of the address and no bit beyond it is set.
-/

namespace RouteServer.Policy

open RouteServer.Net RouteServer.Schema RouteServer.Yaml

/-- The network of an address and a length, or why there is none. -/
def networkOf (address : Address) (length : Nat) : Except Cause Network :=
  match Network.ofLength? address length with
  | none => .error (.lengthTooLong address length)
  | some n => if n.hasHostBits then .error (.hostBits address length) else .ok n

/-- The address under a name. -/
def addressAt (name : String) (v : Value) : Option Address := address? (v.getD name)

/-- The number of eight bits under a name. -/
def lengthAt (name : String) (v : Value) : Option Nat :=
  (v.getD name).natural?.filter (· < 256)

/-- Violations of the items of a list, each at the path of its item. -/
def itemViolations (list : String) (check : String → Value → List Violation) (doc : Value) :
    List Violation :=
  ((doc.getD list).items.mapIdx fun i v => check (item list i) v).flatten

/-! ### Bogons -/

/-- A prefix that nobody may announce. -/
structure Bogon where
  address : Address
  length : UInt8
  comment : Option String
  deriving DecidableEq, Repr

namespace Bogon

/-- The fields of a bogon. -/
def fields : List Field :=
  [⟨"prefix", .address, .required⟩,
   ⟨"length", .natural 0 128, .required⟩,
   ⟨"comment", .string, .null⟩]

/-- The fields of the document. -/
def document : List Field := [⟨"bogons", .list (.record fields), .required⟩]

/-- The violation of a bogon that is no network. -/
def check (path : String) (v : Value) : List Violation :=
  match addressAt "prefix" v, lengthAt "length" v with
  | some a, some n =>
    match networkOf a n with
    | .ok _ => []
    | .error cause => [⟨path, cause⟩]
  | _, _ => []

/-- The violations of the constraints that span several fields. -/
def crossCheck : Value → List Violation := itemViolations "bogons" check

/-- The fields as a value. -/
def toValue (b : Bogon) : Value :=
  .ofFields
    [("prefix", .string b.address.text), ("length", uint8Value b.length),
     ("comment", optionValue .string b.comment)]

/-- The bogon that a normal form gives. -/
def ofValue (v : Value) : Decoded Bogon := do
  let address ← Decoded.field "prefix" Decoded.address v
  let length ← Decoded.field "length" Decoded.uint8 v
  let comment ← Decoded.field "comment" (Decoded.optional Decoded.string) v
  .ok { address, length, comment }

/-- The bogons that the normal form of a document gives. -/
def ofDocument : Value → Decoded (List Bogon) := Decoded.field "bogons" (Decoded.list ofValue)

end Bogon

/-! ### Route origin authorisations -/

/-- Which network may announce a prefix, and in pieces of which length. -/
structure Roa where
  address : Address
  length : UInt8
  maxLength : UInt8
  asn : Asn
  deriving DecidableEq, Repr

namespace Roa

/-- The fields of a ROA. -/
def fields : List Field :=
  [⟨"prefix", .address, .required⟩,
   ⟨"length", .natural 0 128, .required⟩,
   ⟨"max_len", .natural 0 128, .required⟩,
   ⟨"asn", .asn, .required⟩]

/-- The fields of the document. -/
def document : List Field := [⟨"roas", .list (.record fields), .emptyList⟩]

/-- The violation of a ROA that is no network, or else of one whose greatest length is out of
bounds. -/
def check (path : String) (v : Value) : List Violation :=
  match addressAt "prefix" v, lengthAt "length" v with
  | some a, some n =>
    match networkOf a n with
    | .error cause => [⟨path, cause⟩]
    | .ok _ =>
      match (v.getD "max_len").natural? with
      | some m =>
        if m < n ∨ a.family.width < m then
          [⟨path ++ ".max_len", .notBetween n a.family.width⟩]
        else []
      | none => []
  | _, _ => []

/-- The violations of the constraints that span several fields. -/
def crossCheck : Value → List Violation := itemViolations "roas" check

/-- The fields as a value. -/
def toValue (r : Roa) : Value :=
  .ofFields
    [("prefix", .string r.address.text), ("length", uint8Value r.length),
     ("max_len", uint8Value r.maxLength), ("asn", uint32Value r.asn)]

/-- The ROA that a normal form gives. -/
def ofValue (v : Value) : Decoded Roa := do
  let address ← Decoded.field "prefix" Decoded.address v
  let length ← Decoded.field "length" Decoded.uint8 v
  let maxLength ← Decoded.field "max_len" Decoded.uint8 v
  let asn ← Decoded.field "asn" Decoded.uint32 v
  .ok { address, length, maxLength, asn }

/-- The ROAs that the normal form of a document gives. -/
def ofDocument : Value → Decoded (List Roa) := Decoded.field "roas" (Decoded.list ofValue)

end Roa

end RouteServer.Policy

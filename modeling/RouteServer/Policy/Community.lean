import RouteServer.Policy.Choice
import RouteServer.Schema.Basic

/-!
# Policy — Community

Communities of BGP and the texts that encode them: standard ones (`ASN:value`, both of 16 bits),
large ones (`ASN:value:value`, all of 32 bits) and extended ones (`rt|ro:ASN:value`).  The last part
may be the macro `peer_as`, which stands for the number of a peer.

The policy knows seventeen communities (`builtin`).  A document gives their encodings only; who
attaches them and whether they name a peer is fixed.
-/

namespace RouteServer.Policy

open RouteServer.Text RouteServer.Yaml

namespace Community

/-! ### Encodings -/

/-- The three kinds of encodings. -/
inductive Encoding where
  | std
  | ext
  | lrg
  deriving DecidableEq, Repr

/-- The name of a kind, as documents know it. -/
def Encoding.name : Encoding → String
  | .std => "std"
  | .ext => "ext"
  | .lrg => "lrg"

/-- The name of a kind, as messages know it. -/
def Encoding.word : Encoding → String
  | .std => "standard"
  | .ext => "extended"
  | .lrg => "large"

/-- The parts of an encoding. -/
def Encoding.form : Encoding → String
  | .std => "ASN:value"
  | .ext => "type:ASN:value"
  | .lrg => "ASN:value:value"

/-- Why a text is no community. -/
inductive Fault where
  /-- It has not the right number of parts. -/
  | parts
  /-- The type of an extended community is not known. -/
  | type
  | asn (part : String)
  | value (part : String)
  deriving DecidableEq, Repr

/-- The wording of a fault in a text. -/
def Fault.message (kind : Encoding) (text : String) (fault : Fault) : String :=
  "invalid " ++ kind.word ++ " community '" ++ text ++ "': " ++
    match fault with
    | .parts => "expected " ++ kind.form
    | .type => "type must be 'rt' or 'ro'"
    | .asn part => "invalid ASN '" ++ part ++ "'"
    | .value part => "invalid value '" ++ part ++ "'"

/-- The macro that stands for the number of a peer. -/
def peerMacro : String := "peer_as"

/-- Whether a part is a number up to `max`. -/
def isNumber (max : Nat) (part : String) : Bool :=
  (readNat maxWord64 part.toList).toOption.any (· ≤ max)

/-- A part that has to be the number of a network. -/
def checkAsn (max : Nat) (part : String) : Except Fault Unit :=
  if isNumber max part then .ok () else .error (.asn part)

/-- A part that has to be a value. -/
def checkValue (max : Nat) (part : String) : Except Fault Unit :=
  if isNumber max part then .ok () else .error (.value part)

/-- The last part: a value or the macro. -/
def checkLast (max : Nat) (part : String) : Except Fault Unit :=
  if part = peerMacro then .ok () else checkValue max part

/-- Checks the parts of an encoding from the left. -/
def checkParts : Encoding → List String → Except Fault Unit
  | .std, [asn, value] => do
    checkAsn maxWord16 asn
    checkLast maxWord16 value
  | .lrg, [asn, value, last] => do
    checkAsn maxWord32 asn
    checkValue maxWord32 value
    checkLast maxWord32 last
  | .ext, [type, asn, value] =>
    if type = "rt" ∨ type = "ro" then do
      checkAsn maxWord32 asn
      checkLast maxWord32 value
    else .error .type
  | _, _ => .error .parts

/-- Checks an encoding; it is its own normal form. -/
def check (kind : Encoding) : Schema.TextCheck := fun text =>
  match checkParts kind (pieces ':' text) with
  | .ok () => .ok text
  | .error fault => .error (fault.message kind text)

/-- Whether an encoding ends in the macro. -/
def namesPeer (text : String) : Bool := endsWith (":" ++ peerMacro) text

/-! ### The communities of the policy -/

/-- What is fixed about a community. -/
structure Definition where
  name : String
  direction : Direction
  peerAs : Bool
  deriving DecidableEq, Repr

/-- The communities that the policy knows. -/
def builtin : List Definition :=
  [⟨"origin_present_in_as_set", .outbound, false⟩,
   ⟨"origin_not_present_in_as_set", .outbound, false⟩,
   ⟨"prefix_present_in_as_set", .outbound, false⟩,
   ⟨"prefix_not_present_in_as_set", .outbound, false⟩,
   ⟨"roa_valid", .outbound, false⟩,
   ⟨"roa_invalid", .outbound, false⟩,
   ⟨"roa_unknown", .outbound, false⟩,
   ⟨"blackholing", .inbound, false⟩,
   ⟨"do_not_announce_to_any", .inbound, false⟩,
   ⟨"do_not_announce_to_peer", .inbound, true⟩,
   ⟨"announce_to_peer", .inbound, true⟩,
   ⟨"prepend_once_to_any", .inbound, false⟩,
   ⟨"prepend_twice_to_any", .inbound, false⟩,
   ⟨"prepend_thrice_to_any", .inbound, false⟩,
   ⟨"prepend_once_to_peer", .inbound, true⟩,
   ⟨"prepend_twice_to_peer", .inbound, true⟩,
   ⟨"prepend_thrice_to_peer", .inbound, true⟩]

end Community

/-- A community of the policy with its encodings. -/
structure Community where
  direction : Direction := .inbound
  peerAs : Bool := false
  std : Option String := none
  ext : Option String := none
  lrg : Option String := none
  deriving DecidableEq, Repr

namespace Community

/-- The text of an encoding. -/
def encoding (c : Community) : Encoding → Option String
  | .std => c.std
  | .ext => c.ext
  | .lrg => c.lrg

/-- Whether a community has an encoding at all. -/
def isSet (c : Community) : Bool := c.std.isSome || c.ext.isSome || c.lrg.isSome

/-- The community with what is fixed about it. -/
def define (c : Community) (d : Definition) : Community :=
  { c with direction := d.direction, peerAs := d.peerAs }

/-- A text or null. -/
def textValue (s : Option String) : Value := (s.map Value.string).getD .null

/-- The community as a value. -/
def toValue (c : Community) : Value :=
  .ofFields
    [("type", .string c.direction.text), ("peer_as", .bool c.peerAs), ("std", textValue c.std),
     ("ext", textValue c.ext), ("lrg", textValue c.lrg)]

/-- The community that a normal form gives; what is fixed about it stands in none. -/
def ofValue (v : Value) : Decoded Community := do
  let std ← Decoded.field "std" (Decoded.optional Decoded.string) v
  let ext ← Decoded.field "ext" (Decoded.optional Decoded.string) v
  let lrg ← Decoded.field "lrg" (Decoded.optional Decoded.string) v
  .ok { std, ext, lrg }

end Community

end RouteServer.Policy

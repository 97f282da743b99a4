import RouteServer.Net.Network
import RouteServer.Yaml.Describe

/-!
# Schema — Violation

What a document can do wrong.  A violation names the place by a dotted path, with the index of a
list item between brackets, and the cause.  Some causes concern one field and are found by walking
the document against its schema, the others concern several fields at once.
-/

namespace RouteServer.Schema

open RouteServer.Text RouteServer.Net RouteServer.Yaml

/-- What a field wants. -/
inductive Expectation where
  | boolean
  | natural
  | string
  | oneOf (choices : List String)
  | asn
  | address
  | ipv4
  | ipv6
  | network
  | list
  | mapping

/-- The wording of what a field wants. -/
def Expectation.text : Expectation → String
  | .boolean => "a boolean"
  | .natural => "a non-negative integer"
  | .string => "a string"
  | .oneOf choices => "one of " ++ ", ".intercalate choices
  | .asn => "an AS number"
  | .address => "an IP address"
  | .ipv4 => "an IPv4 address"
  | .ipv6 => "an IPv6 address"
  | .network => "an IP prefix"
  | .list => "a list"
  | .mapping => "a mapping"

/-- Why a place of a document is refused. -/
inductive Cause where
  /-- A section that is neither a mapping nor missing. -/
  | notMapping
  | unknownField
  | invalidKey (key : Value)
  | missing
  | outOfRange (n least greatest : Nat)
  | unexpected (wanted : Expectation) (got : Value)
  /-- The lower bound of a range of prefix lengths is above the upper one. -/
  | minAboveMax
  /-- The same, of a range that a client gives or inherits. -/
  | rangeReversed
  /-- A policy that replaces next hops has none to put there. -/
  | nextHopRequired (policy : String)
  | peerMacroForbidden
  | peerMacroRequired
  | communityUsed (text by_ : String)
  | addressUsed (address : Address) (first : Nat)
  | lengthTooLong (address : Address) (length : Nat)
  | hostBits (address : Address) (length : Nat)
  | notBetween (least greatest : Nat)
  /-- A cause in the words of whoever found it. -/
  | stated (text : String)

/-- The wording of a cause. -/
def Cause.message : Cause → String
  | .notMapping => "expected a mapping"
  | .unknownField => "unknown field"
  | .invalidKey key => "invalid key " ++ key.spell
  | .missing => "missing required field"
  | .outOfRange n least greatest =>
    natText n ++ " is out of range [" ++ natText least ++ ", " ++ natText greatest ++ "]"
  | .unexpected wanted got => "expected " ++ wanted.text ++ ", got " ++ got.describe
  | .minAboveMax => "min must be less than or equal to max"
  | .rangeReversed => "expected min <= max"
  | .nextHopRequired policy => "required when " ++ policy ++ " is 'rewrite-next-hop'"
  | .peerMacroForbidden => "the 'peer_as' macro can only be used by peer-specific communities"
  | .peerMacroRequired => "peer-specific communities must end with the 'peer_as' macro"
  | .communityUsed text by_ => "community '" ++ text ++ "' is already used by '" ++ by_ ++ "'"
  | .addressUsed address first =>
    address.text ++ " is already used by clients[" ++ natText first ++ "]"
  | .lengthTooLong address length =>
    "invalid prefix length " ++ natText length ++ " for " ++ address.text
  | .hostBits address length => address.text ++ "/" ++ natText length ++ " has host bits set"
  | .notBetween least greatest =>
    "must be between " ++ natText least ++ " and " ++ natText greatest
  | .stated text => text

/-- A cause at a place. -/
structure Violation where
  path : String
  cause : Cause

/-- The wording of a violation: the place, unless it is the whole document, and the cause. -/
def Violation.text (v : Violation) : String :=
  if v.path = "" then v.cause.message else v.path ++ ": " ++ v.cause.message

/-- The path of a field under a path. -/
def join (path name : String) : String := if path = "" then name else path ++ "." ++ name

/-- The path of an item of a list. -/
def item (path : String) (i : Nat) : String := path ++ "[" ++ natText i ++ "]"

end RouteServer.Schema

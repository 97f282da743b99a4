import RouteServer.Schema.Violation

/-!
# Schema — Basic

The shape of a document: fields, the kind of value each of them holds, and what stands in for a
field that is missing or null.  Schemas are values, so that a law about documents can be stated for
all of them.
-/

namespace RouteServer.Schema

/-- Checks a text and gives its normal form, or says what is wrong with it. -/
abbrev TextCheck := String → Except String String

/-- What stands in for a field that is missing or null. -/
inductive Fallback where
  /-- Nothing: the field is required. -/
  | required
  | null
  | bool (b : Bool)
  | natural (n : Nat)
  | string (s : String)
  | emptyList
  | emptyMapping
  /-- The fallbacks of the fields of the section. -/
  | parts
  /-- The value that the parent document has under these names.  A section inherits field by
  field, so that it may be given in part. -/
  | inherit (names : List String)
  deriving DecidableEq

mutual
/-- The kind of a value. -/
inductive Kind where
  | boolean
  | natural (least greatest : Nat)
  | string
  | oneOf (choices : List String)
  /-- An AS number, as an integer or as text with or without `AS`. -/
  | asn
  | address
  | ipv4
  | ipv6
  | network
  /-- A string that a check accepts. -/
  | text (check : TextCheck)
  | list (item : Kind)
  | record (fields : List Field)
  /-- A mapping whose keys are names that a check accepts. -/
  | table (key : TextCheck) (item : Kind)
  /-- Accepted, and dropped from the normal form. -/
  | discarded

/-- A field of a section. -/
structure Field where
  name : String
  kind : Kind
  fallback : Fallback
end

/-- Whether a kind is a section with fields of its own. -/
def Kind.isRecord : Kind → Bool
  | .record _ => true
  | _ => false

/-- Whether values of the kind are dropped. -/
def Kind.isDiscarded : Kind → Bool
  | .discarded => true
  | _ => false

/-- A section that is built from the fallbacks of its fields when it is missing. -/
def Field.ofParts (name : String) (fields : List Field) : Field := ⟨name, .record fields, .parts⟩

end RouteServer.Schema

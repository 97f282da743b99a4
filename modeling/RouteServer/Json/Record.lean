import RouteServer.Json.Basic

/-!
# Json — Record

Records as JSON values.  A record is an object with a member for each field, or an array with the
fields in order.  Members with other names do not count, and a field that is written twice makes no
record.
-/

namespace RouteServer.Json

/-- When a field may be missing. -/
inductive Presence where
  | required
  /-- An object may leave the field out. -/
  | optional
  /-- An object may leave the field out, and an array may end in front of it. -/
  | defaulted
  deriving DecidableEq, Repr

/-- A field of a record. -/
structure RecordField where
  name : String
  presence : Presence := .required
  deriving DecidableEq, Repr

/-- The fields of an object, in order. -/
def ofObject? (members : List (String × Json)) : List RecordField → Option (List (Option Json))
  | [] => some []
  | f :: fs =>
    match members.filter fun m => m.1 = f.name with
    | [] => if f.presence = .required then none else (ofObject? members fs).map (none :: ·)
    | [m] => (ofObject? members fs).map (some m.2 :: ·)
    | _ => none

/-- The fields of an array, in order. -/
def ofArray? : List Json → List RecordField → Option (List (Option Json))
  | [], [] => some []
  | _ :: _, [] => none
  | v :: vs, _ :: fs => (ofArray? vs fs).map (some v :: ·)
  | [], f :: fs => if f.presence = .defaulted then (ofArray? [] fs).map (none :: ·) else none

/-- The fields of a record, in order. -/
def record? (fields : List RecordField) : Json → Option (List (Option Json))
  | .object ms => ofObject? ms fields
  | .array vs => ofArray? vs fields
  | _ => none

/-- A number of eight bits. -/
def uint8? (v : Json) : Option UInt8 :=
  v.nat?.bind fun n => if n < 256 then some (UInt8.ofNat n) else none

/-- A number of thirty-two bits. -/
def uint32? (v : Json) : Option UInt32 :=
  v.nat?.bind fun n => if n < 4294967296 then some (UInt32.ofNat n) else none

/-- A value that may be null or missing. -/
def optional? (decode : Json → Option α) : Option Json → Option (Option α)
  | none | some .null => some none
  | some v => (decode v).map some

/-- The items of an array. -/
def listOf? (decode : Json → Option α) : Json → Option (List α)
  | .array vs => vs.mapM decode
  | _ => none

end RouteServer.Json

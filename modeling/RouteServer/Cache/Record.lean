import RouteServer.Json.Basic
import RouteServer.Json.Printer
import RouteServer.Json.Reader
import RouteServer.Json.Record
import RouteServer.Json.Skim
import RouteServer.Power
import RouteServer.Time.Instant

/-!
# Cache — Record

What a cache keeps of an answer: its key, when it was written, how long answers were to be kept at
that time, and the answer itself.  How long a record is used is decided by whoever reads it
(`RecordInfo.isFresh`), not by what it says of itself.
-/

namespace RouteServer.Cache

open RouteServer.Text RouteServer.Time

/-- What a record says of itself. -/
structure RecordInfo where
  key : String
  cachedAt : Instant
  expirySeconds : Nat
  deriving DecidableEq, Repr

/-- A record of a cache. -/
structure Record extends RecordInfo where
  payload : Json

/-- The value of a word of 64 bits that has a sign. -/
def signedWord (n : Nat) : Int := (n : Int).bmod (twoTo 64)

namespace RecordInfo

/-- Whether a record is younger than an expiry, which is a word with a sign. -/
def isFresh (r : RecordInfo) (now : Instant) (expiry : Span) : Bool :=
  r.cachedAt.secondsTo now < signedWord expiry.seconds

/-- The fields of what a record says of itself. -/
def fields : List Json.RecordField :=
  [⟨"key", .required⟩, ⟨"cached_at", .required⟩, ⟨"expiry_secs", .required⟩]

/-- What the values of the fields say. -/
def ofValues? (key cachedAt expiry : Json) : Option RecordInfo := do
  let key ← key.string?
  let cachedAt ← cachedAt.string?.bind Instant.read
  let expirySeconds ← expiry.nat?
  some { key, cachedAt, expirySeconds }

/-- What a value says of a record. -/
def ofJson? (v : Json) : Option RecordInfo := do
  match ← Json.record? fields v with
  | [some key, some cachedAt, some expiry] => ofValues? key cachedAt expiry
  | _ => none

/-- What the text of a record says of it; all else is passed over. -/
def read (text : String) : Option RecordInfo := (Json.skim text).bind ofJson?

end RecordInfo

namespace Record

/-- The record of an object; an array is none. -/
def ofJson? : Json → Option Record
  | .object ms => do
    match ← Json.ofObject? ms (RecordInfo.fields ++ [⟨"payload", .required⟩]) with
    | [some key, some cachedAt, some expiry, some payload] =>
      let info ← RecordInfo.ofValues? key cachedAt expiry
      some { info with payload := payload.canonical }
    | _ => none
  | _ => none

/-- The record of a text. -/
def read (text : String) : Option Record := (Json.read text).bind ofJson?

/-- A record as an object. -/
def toJson (r : Record) : Json :=
  .object
    [("key", .string r.key), ("cached_at", .string r.cachedAt.text),
     ("expiry_secs", .nat r.expirySeconds), ("payload", r.payload)]

/-- The text of a record. -/
def text (r : Record) : String := r.toJson.pretty

end Record

end RouteServer.Cache

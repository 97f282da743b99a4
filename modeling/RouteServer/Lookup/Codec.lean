import RouteServer.Json.Record
import RouteServer.Policy.Configuration

/-!
# Lookup — Codec

The answers to look-ups, and how they are kept as JSON.  What is kept is read back as the same
answer.
-/

namespace RouteServer.Lookup

open RouteServer.Net RouteServer.Policy

/-- What the directory of networks says about one of them. -/
structure NetRecord where
  asn : UInt32
  /-- How many prefixes the network announces; unknown, or zero, when it does not say. -/
  prefixesV4 : Option UInt32
  prefixesV6 : Option UInt32
  deriving DecidableEq, Repr

/-- How answers of a type are kept. -/
structure Codec (α : Type) where
  encode : α → Json
  decode : Json → Option α

namespace Codec

/-- JSON values are kept as they are. -/
def json : Codec Json := ⟨id, some⟩

/-- Numbers of thirty-two bits. -/
def uint32 : Codec UInt32 := ⟨fun n => .nat n.toNat, Json.uint32?⟩

/-- Lists. -/
def list (c : Codec α) : Codec (List α) :=
  ⟨fun xs => .array (xs.map c.encode), Json.listOf? c.decode⟩

/-- Answers that may be missing. -/
def option (c : Codec α) : Codec (Option α) :=
  ⟨Json.ofOption c.encode, fun v => Json.optional? c.decode (some v)⟩

/-- The fields of a prefix. -/
def prefixFields : List Json.RecordField :=
  [⟨"prefix", .required⟩, ⟨"length", .required⟩, ⟨"min_length", .required⟩,
   ⟨"max_length", .required⟩]

/-- The prefix of a JSON value. -/
def setPrefix? (v : Json) : Option SetPrefix := do
  match ← Json.record? prefixFields v with
  | [some address, some length, some minLength, some maxLength] => do
    let address ← address.string?.bind Address.read
    let length ← Json.uint8? length
    let minLength ← Json.uint8? minLength
    let maxLength ← Json.uint8? maxLength
    some { address, length, minLength, maxLength }
  | _ => none

/-- Prefixes of sets. -/
def setPrefix : Codec SetPrefix where
  encode p := .object
    [("length", .nat p.length.toNat), ("max_length", .nat p.maxLength.toNat),
     ("min_length", .nat p.minLength.toNat), ("prefix", .string p.address.text)]
  decode := setPrefix?

/-- The fields of a record of the directory. -/
def netFields : List Json.RecordField :=
  [⟨"asn", .required⟩, ⟨"info_prefixes4", .defaulted⟩, ⟨"info_prefixes6", .defaulted⟩]

/-- The record of a JSON value. -/
def net? (v : Json) : Option NetRecord := do
  match ← Json.record? netFields v with
  | [some asn, v4, v6] => do
    let asn ← Json.uint32? asn
    let prefixesV4 ← Json.optional? Json.uint32? v4
    let prefixesV6 ← Json.optional? Json.uint32? v6
    some { asn, prefixesV4, prefixesV6 }
  | _ => none

/-- Records of the directory. -/
def netRecord : Codec NetRecord where
  encode r := .object
    [("asn", .nat r.asn.toNat), ("info_prefixes4", .ofOption (fun n => .nat n.toNat) r.prefixesV4),
     ("info_prefixes6", .ofOption (fun n => .nat n.toNat) r.prefixesV6)]
  decode := net?

end Codec

end RouteServer.Lookup

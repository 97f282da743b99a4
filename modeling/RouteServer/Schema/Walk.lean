import RouteServer.Schema.Basic
import RouteServer.Net.Asn

/-!
# Schema — Walk

Walking a document against its schema.  The walk gives the normal form of the document, in which
every field of the schema has a value, together with all violations: a value that is refused
becomes null and the walk goes on.

Violations come in the order of the walk.  In a section the keys come first, in the order of the
document, then the fields, in the order of the schema.
-/

namespace RouteServer.Schema

open RouteServer.Text RouteServer.Net RouteServer.Yaml

/-- A normal form and the violations met on the way to it. -/
abbrev Walked := Value × List Violation

/-- A value that is refused. -/
def refuse (path : String) (cause : Cause) : Walked := (.null, [⟨path, cause⟩])

/-- The AS number a value gives: a number, or a text with or without `AS`. -/
def asn? : Value → Option Asn
  | .number n => n.natural?.bind Asn.ofNat?
  | .string s => Asn.read s
  | _ => none

/-- The address a value gives. -/
def address? (v : Value) : Option Address := v.text?.bind Address.read

/-- A value that has to be an address. -/
def walkAddress (wanted : Expectation) (accept : Address → Bool) (v : Value) (path : String) :
    Walked :=
  match address? v with
  | some a => if accept a then (.string a.text, []) else refuse path (.unexpected wanted v)
  | none => refuse path (.unexpected wanted v)

/-- The violations of the keys of a section that has the fields `names`. -/
def keyViolations (names : List String) (path : String) :
    List (Value × Value) → List Violation
  | [] => []
  | (key, _) :: entries =>
    let rest := keyViolations names path entries
    match key.text? with
    | some k => if k ∈ names then rest else ⟨join path k, .unknownField⟩ :: rest
    | none => ⟨path, .invalidKey key⟩ :: rest

/-- The name that a key of a table gives. -/
def tableKey (check : TextCheck) (key : Value) : Except Cause String :=
  match key.text? with
  | some k => (check k).mapError .stated
  | none => .error (.invalidKey key)

/-- What stands in for a missing value of a kind that is no section. -/
def Fallback.value (parent : Option Value) (path : String) : Fallback → Walked
  | .required => refuse path .missing
  | .null => (.null, [])
  | .bool b => (.bool b, [])
  | .natural n => (.nat n, [])
  | .string s => (.string s, [])
  | .emptyList => (.list [], [])
  | .emptyMapping => (.mapping [], [])
  | .parts => (.null, [])
  | .inherit names => ((parent.bind (·.follow? names)).getD .null, [])

/-- Whether a missing section is built from its fields. -/
def Fallback.isBuilt : Fallback → Bool
  | .parts | .inherit _ => true
  | _ => false

mutual
/-- Walks a value of a kind. -/
def Kind.walk (parent : Option Value) : Kind → Value → String → Walked
  | .boolean, v, path =>
    match v with
    | .bool _ => (v, [])
    | _ => refuse path (.unexpected .boolean v)
  | .natural least greatest, v, path =>
    match v.natural? with
    | some n =>
      if least ≤ n ∧ n ≤ greatest then (v, []) else refuse path (.outOfRange n least greatest)
    | none => refuse path (.unexpected .natural v)
  | .string, v, path =>
    match v with
    | .string _ => (v, [])
    | _ => refuse path (.unexpected .string v)
  | .oneOf choices, v, path =>
    match v.text? with
    | some s => if s ∈ choices then (v, []) else refuse path (.unexpected (.oneOf choices) v)
    | none => refuse path (.unexpected (.oneOf choices) v)
  | .asn, v, path =>
    match asn? v with
    | some n => (.nat n.toNat, [])
    | none => refuse path (.unexpected .asn v)
  | .address, v, path => walkAddress .address (fun _ => true) v path
  | .ipv4, v, path => walkAddress .ipv4 (fun a => a.family = .v4) v path
  | .ipv6, v, path => walkAddress .ipv6 (fun a => a.family = .v6) v path
  | .network, v, path =>
    match v.text?.bind Network.read with
    | some n => (.string n.text, [])
    | none => refuse path (.unexpected .network v)
  | .text check, v, path =>
    match v.text? with
    | some s =>
      match check s with
      | .ok t => (.string t, [])
      | .error e => refuse path (.stated e)
    | none => refuse path (.unexpected .string v)
  | .list kind, v, path =>
    match v with
    | .list xs =>
      let walked := xs.mapIdx fun i x => kind.walk parent x (item path i)
      (.list (walked.map (·.1)), walked.flatMap (·.2))
    | _ => refuse path (.unexpected .list v)
  | .record fields, v, path =>
    match v with
    | .mapping entries =>
      let keys := keyViolations (fields.map Field.name) path entries
      let (out, violations) := walkFields parent fields entries path []
      (.mapping out, keys ++ violations)
    | .null =>
      let (out, violations) := walkFields parent fields [] path []
      (.mapping out, violations)
    | _ => refuse path .notMapping
  | .table check kind, v, path =>
    match v with
    | .mapping entries =>
      let (out, violations) := entries.foldl
        (fun (out, violations) (key, x) =>
          match tableKey check key with
          | .ok name =>
            let (y, more) := kind.walk parent x (join path name)
            (Value.insertEntry out (.string name) y, violations ++ more)
          | .error cause => (out, violations ++ [⟨path, cause⟩]))
        ([], [])
      (.mapping out, violations)
    | _ => refuse path (.unexpected .mapping v)
  | .discarded, _, _ => (.null, [])

/-- Walks the fields of a section over its entries; `out` holds what is there of the normal form. -/
def walkFields (parent : Option Value) :
    List Field → List (Value × Value) → String → List (Value × Value) →
      List (Value × Value) × List Violation
  | [], _, _, out => (out, [])
  | ⟨name, kind, fallback⟩ :: fields, entries, path, out =>
    if kind.isDiscarded then walkFields parent fields entries path out
    else
      let here := join path name
      let (v, violations) :=
        match (Value.lookup? name entries).filter (fun v => !v.isNull) with
        | some v => kind.walk parent v here
        | none =>
          if kind.isRecord && fallback.isBuilt then kind.walk parent .null here
          else fallback.value parent here
      let (out, more) :=
        walkFields parent fields entries path (Value.insertEntry out (.string name) v)
      (out, violations ++ more)
end

/-- Walks a whole section. -/
def walk (parent : Option Value) (fields : List Field) (v : Value) (path : String) : Walked :=
  (Kind.record fields).walk parent v path

end RouteServer.Schema

import RouteServer.Policy.General
import RouteServer.Schema.Walk
import RouteServer.Text.Blank

/-!
# Policy — AsSet

Sets of autonomous systems as the routing registries name them, and the sets each network has
registered.

A name may start with the registry it is looked up in (`RIPE::AS-FOO`).  Names become arguments of
another program, so they start with a letter or a digit.
-/

namespace RouteServer.Policy

open RouteServer.Text RouteServer.Net RouteServer.Schema RouteServer.Yaml

namespace AsSet

/-- An ASCII letter or digit. -/
def isWordChar (c : Char) : Bool :=
  ('0' ≤ c && c ≤ '9') || ('a' ≤ c && c ≤ 'z') || ('A' ≤ c && c ≤ 'Z')

/-- A character of a name. -/
def isNameChar (c : Char) : Bool :=
  isWordChar c || c = '-' || c = '_' || c = ':' || c = '.'

/-- Whether a text is a name. -/
def isName (cs : List Char) : Bool := cs.head?.any isWordChar && cs.all isNameChar

/-- Checks a name; blanks around it do not count. -/
def checkName : TextCheck := fun text =>
  let name := trim text.toList
  if isName name then .ok (String.ofList name)
  else .error ("invalid AS-SET name '" ++ String.ofList name ++ "'")

/-- The symbol that stands for a name in what is generated: every character but letters and digits
becomes an underscore. -/
def symbol (name : String) : String :=
  "AS_SET_" ++ String.ofList (name.toList.map fun c => if isWordChar c then c else '_')

/-- The kind of a list of names. -/
def listKind : Kind := .list (.text checkName)

end AsSet

/-- What is known about an autonomous system. -/
structure AsnInfo where
  asSets : List String
  deriving DecidableEq, Repr

namespace AsnInfo

/-- The fields of what is known about an autonomous system. -/
def fields : List Field := [⟨"as_sets", AsSet.listKind, .emptyList⟩]

/-- Checks the name of an autonomous system. -/
def checkKey : TextCheck := fun text =>
  match afterStart "AS" text with
  | some n =>
    match readNat maxWord32 n.toList with
    | .ok n => if 0 < n then .ok ("AS" ++ natText n) else refused text
    | .error _ => refused text
  | none => refused text
where
  /-- The fault of a name. -/
  refused (text : String) : Except String String :=
    .error ("invalid ASN key '" ++ text ++ "': expected AS<number>")

/-- The fields of the document; the clients may stand in the same one. -/
def document : List Field :=
  [⟨"asns", .table checkKey (.record fields), .emptyMapping⟩,
   ⟨"clients", .discarded, .null⟩]

/-- The fields as a value. -/
def toValue (i : AsnInfo) : Value := .ofFields [("as_sets", .list (i.asSets.map .string))]

/-- What a normal form gives. -/
def ofValue (v : Value) : Decoded AsnInfo := do
  let asSets ← Decoded.field "as_sets" (Decoded.list Decoded.string) v
  .ok { asSets }

/-- What the normal form of a document gives. -/
def ofDocument : Value → Decoded (Dictionary AsnInfo) :=
  Decoded.field "asns" (Decoded.dictionary ofValue)

/-- The sets registered for a network, if there are any. -/
def asSetsFor (asns : Dictionary AsnInfo) (asn : Asn) : Option (List String) :=
  ((asns.get? (Asn.name asn)).map AsnInfo.asSets).filter (!·.isEmpty)

end AsnInfo

end RouteServer.Policy

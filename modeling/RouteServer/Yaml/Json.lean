import RouteServer.Json.Basic
import RouteServer.Yaml.Value

/-!
# Yaml — Json

Documents and JSON values.  Every JSON value is a document (`Value.ofJson`).  In the other direction
a key that is no string becomes its text, and a tag becomes the name of a single member.
-/

namespace RouteServer.Yaml.Value

mutual
/-- A JSON value as a document. -/
def ofJson : Json → Value
  | .null => .null
  | .bool b => .bool b
  | .number n => .number n
  | .string s => .string s
  | .array items => .list (ofItems items)
  | .object ms => .mapping (ofMembers ms)

/-- The items of an array. -/
def ofItems : List Json → List Value
  | [] => []
  | v :: vs => ofJson v :: ofItems vs

/-- The members of an object. -/
def ofMembers : List (String × Json) → List (Value × Value)
  | [] => []
  | (name, v) :: ms => (.string name, ofJson v) :: ofMembers ms
end

/-- The text of a scalar key. -/
def keyText : Value → String
  | .string s => s
  | .bool b => if b then "true" else "false"
  | .number n => n.text
  | .null => "null"
  | _ => ""

mutual
/-- A document as a JSON value. -/
def toJson : Value → Json
  | .null => .null
  | .bool b => .bool b
  | .number n => .number n
  | .string s => .string s
  | .list items => .array (toItems items)
  | .mapping es => .object (toMembers es)
  | .tagged tag v => .object [(tag, toJson v)]

/-- The items of a list. -/
def toItems : List Value → List Json
  | [] => []
  | v :: vs => toJson v :: toItems vs

/-- The entries of a mapping. -/
def toMembers : List (Value × Value) → List (String × Json)
  | [] => []
  | (key, v) :: es => (keyText key, toJson v) :: toMembers es
end

end RouteServer.Yaml.Value

import RouteServer.Dictionary
import RouteServer.Number

/-!
# Json — Basic

JSON values.  An object is the list of its members as they are written, in that order and with the
ones that repeat a name, so that a reader of records can refuse them.

All the ways of writing a value have one form in common: the members of an object in the order of
their names, and of those with one name the last.
-/

namespace RouteServer

/-- A JSON value. -/
inductive Json where
  | null
  | bool (b : Bool)
  | number (n : Number)
  | string (s : String)
  | array (items : List Json)
  | object (members : List (String × Json))
  deriving Repr, Inhabited

namespace Json

/-- The number `n`. -/
def nat (n : Nat) : Json := .number (.ofNat n)

/-- A string, or null. -/
def ofOption (f : α → Json) : Option α → Json
  | none => .null
  | some x => f x

/-- The values written under a name. -/
def members (name : String) : Json → List Json
  | .object ms => (ms.filter fun m => m.1 = name).map (·.2)
  | _ => []

/-- The first value written under a name. -/
def get? (v : Json) (name : String) : Option Json := (v.members name).head?

/-- The value under a name; null when there is none. -/
def getD (v : Json) (name : String) : Json := (v.get? name).getD .null

/-- The text of a string. -/
def string? : Json → Option String
  | .string s => some s
  | _ => none

/-- A truth value. -/
def bool? : Json → Option Bool
  | .bool b => some b
  | _ => none

/-- A number that is an integer and not negative. -/
def nat? : Json → Option Nat
  | .number n => n.natural?
  | _ => none

/-- The items of an array. -/
def array? : Json → Option (List Json)
  | .array xs => some xs
  | _ => none

/-- Whether the value is null. -/
def isNull : Json → Bool
  | .null => true
  | _ => false

/-! ### The canonical form -/

mutual
/-- The canonical form of a value. -/
def canonical : Json → Json
  | .null => .null
  | .bool b => .bool b
  | .number n => .number n
  | .string s => .string s
  | .array items => .array (canonicalItems items)
  | .object ms => .object (Dictionary.ofList (canonicalMembers ms)).entries

/-- The canonical forms of items. -/
def canonicalItems : List Json → List Json
  | [] => []
  | v :: vs => canonical v :: canonicalItems vs

/-- The canonical forms of members. -/
def canonicalMembers : List (String × Json) → List (String × Json)
  | [] => []
  | (name, v) :: ms => (name, canonical v) :: canonicalMembers ms
end

end Json

end RouteServer

import RouteServer.Number

/-!
# Yaml — Value

The values of a document.  A mapping is its entries in the order they are written, no two of them
with the same key; keys may be values of any kind.  A value may carry a tag of the writer's own.

Most look-ups see through a tag (`untagged`): the text of a string, the value of a natural number,
whether something is null, the entry of a mapping under a name.
-/

namespace RouteServer.Yaml

/-- A value of a document. -/
inductive Value where
  | null
  | bool (b : Bool)
  | number (n : Number)
  | string (s : String)
  | list (items : List Value)
  | mapping (entries : List (Value × Value))
  | tagged (tag : String) (value : Value)
  deriving Repr, Inhabited

namespace Value

/-- The natural number `n`. -/
def nat (n : Nat) : Value := .number (.ofNat n)

/-- A mapping whose keys are names. -/
def ofFields (fields : List (String × Value)) : Value :=
  .mapping (fields.map fun f => (.string f.1, f.2))

/-- The value without the tags around it. -/
def untagged : Value → Value
  | .tagged _ v => v.untagged
  | v => v

/-- Whether a value is null, whatever its tag. -/
def isNull (v : Value) : Bool :=
  match v.untagged with
  | .null => true
  | _ => false

/-- The text of a string, whatever its tag. -/
def text? (v : Value) : Option String :=
  match v.untagged with
  | .string s => some s
  | _ => none

/-- A number that is an integer and not negative, whatever its tag. -/
def natural? (v : Value) : Option Nat :=
  match v.untagged with
  | .number n => n.natural?
  | _ => none

/-- The items of a list, whatever its tag; none when it is no list. -/
def items (v : Value) : List Value :=
  match v.untagged with
  | .list xs => xs
  | _ => []

/-- Whether a key is the plain name `name`. -/
def isName (name : String) : Value → Bool
  | .string s => s = name
  | _ => false

/-- The value under a name among the entries of a mapping. -/
def lookup? (name : String) (entries : List (Value × Value)) : Option Value :=
  (entries.find? fun e => e.1.isName name).map (·.2)

/-- The value under a name in a mapping, whatever its tag. -/
def get? (v : Value) (name : String) : Option Value :=
  match v.untagged with
  | .mapping entries => lookup? name entries
  | _ => none

/-- The value under a name; null when there is none. -/
def getD (v : Value) (name : String) : Value := (v.get? name).getD .null

/-- The value found by following names from a mapping into the mappings under it. -/
def follow? (v : Value) : List String → Option Value
  | [] => some v
  | name :: names => (v.get? name).bind (·.follow? names)

/-! ### Sameness of keys -/

/-- Whether two numbers are the same key: kinds apart, and what is not a number like itself. -/
def sameNumber : Number → Number → Bool
  | .int i, .int j => i = j
  | .float x, .float y => (x.isNaN && y.isNaN) || x.sameValue y
  | _, _ => false

mutual
/-- Whether two values are the same key.  The order of a mapping's entries is no part of it. -/
def same : Value → Value → Bool
  | .null, .null => true
  | .bool a, .bool b => a == b
  | .number m, .number n => sameNumber m n
  | .string s, .string t => s == t
  | .list xs, .list ys => sameItems xs ys
  | .mapping es, .mapping fs => es.length == fs.length && sameEntries es fs
  | .tagged s v, .tagged t w => s == t && same v w
  | _, _ => false

/-- Whether two lists hold the same values in the same order. -/
def sameItems : List Value → List Value → Bool
  | [], [] => true
  | x :: xs, y :: ys => same x y && sameItems xs ys
  | _, _ => false

/-- Whether every entry of the first list is one of the second. -/
def sameEntries : List (Value × Value) → List (Value × Value) → Bool
  | [], _ => true
  | (k, v) :: es, fs => fs.any (fun (l, w) => same k l && same v w) && sameEntries es fs
end

/-- The entries with one more at the end, or with the value of its key replaced. -/
def insertEntry (entries : List (Value × Value)) (key value : Value) : List (Value × Value) :=
  if entries.any (fun e => e.1.same key) then
    entries.map fun e => if e.1.same key then (e.1, value) else e
  else entries ++ [(key, value)]

/-- Whether a key occurs among the entries. -/
def hasKey (entries : List (Value × Value)) (key : Value) : Bool :=
  entries.any fun e => e.1.same key

end Value

end RouteServer.Yaml

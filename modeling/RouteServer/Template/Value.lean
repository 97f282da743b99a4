import RouteServer.Template.Expr
import RouteServer.Text.Message
import RouteServer.Yaml.Value

/-!
# Template — Value

The values that expressions have.  A look-up that finds nothing gives the undefined value, which can
be passed on and asked about but not used.

`text` is how a value is printed.  Strings stand for themselves at the top and between quotes within
a list or a mapping.
-/

namespace RouteServer.Template

open RouteServer.Text

/-- A value of an expression. -/
inductive Value where
  /-- What a look-up gives that finds nothing.  A value that was left out on purpose may be used. -/
  | undefined (leftOut : Bool)
  | none
  | bool (b : Bool)
  | number (n : Number)
  | string (s : String)
  | list (items : List Value)
  | mapping (entries : List (Value × Value))
  /-- A piece of a template that can be called; `scope` is where the names it mentions are kept. -/
  | snippet (name : String) (params : List String) (body : List Stmt) (scope : Nat)
  deriving Inhabited

namespace Value

/-- The natural number `n`. -/
def nat (n : Nat) : Value := .number (.ofNat n)

/-- A mapping whose keys are names. -/
def ofFields (fields : List (String × Value)) : Value :=
  .mapping (fields.map fun f => (.string f.1, f.2))

mutual
/-- The value of a document. -/
def ofYaml : Yaml.Value → Value
  | .null => .none
  | .bool b => .bool b
  | .number n => .number n
  | .string s => .string s
  | .list xs => .list (ofItems xs)
  | .mapping es => .mapping (ofEntries es)
  | .tagged _ v => ofYaml v

/-- The items of a list. -/
def ofItems : List Yaml.Value → List Value
  | [] => []
  | x :: xs => ofYaml x :: ofItems xs

/-- The entries of a mapping. -/
def ofEntries : List (Yaml.Value × Yaml.Value) → List (Value × Value)
  | [] => []
  | (k, v) :: es => (ofYaml k, ofYaml v) :: ofEntries es
end

mutual
/-- A value as a document; what has no counterpart is null. -/
def toYaml : Value → Yaml.Value
  | .undefined _ => .null
  | .none => .null
  | .bool b => .bool b
  | .number n => .number n
  | .string s => .string s
  | .list xs => .list (toItems xs)
  | .mapping es => .mapping (toEntries es)
  | .snippet name _ _ _ => .string ("<macro " ++ name ++ ">")

/-- The items of a list. -/
def toItems : List Value → List Yaml.Value
  | [] => []
  | x :: xs => toYaml x :: toItems xs

/-- The entries of a mapping. -/
def toEntries : List (Value × Value) → List (Yaml.Value × Yaml.Value)
  | [] => []
  | (k, v) :: es => (toYaml k, toYaml v) :: toEntries es
end

/-- The kind of a value, as messages call it. -/
def kind : Value → String
  | .undefined _ => "undefined"
  | .none => "none"
  | .bool _ => "bool"
  | .number _ => "number"
  | .string _ => "string"
  | .list _ => "sequence"
  | .mapping _ => "map"
  | .snippet _ _ _ _ => "plain object"

/-- The rank of a kind when values of different kinds are put in order. -/
def rank : Value → Nat
  | .undefined _ => 0
  | .none => 1
  | .bool _ => 2
  | .number _ => 3
  | .string _ => 4
  | .list _ => 5
  | .mapping _ => 6
  | .snippet _ _ _ _ => 7

/-- Whether a look-up has found nothing. -/
def isUndefined : Value → Bool
  | .undefined _ => true
  | _ => false

/-- The text of a number: a floating-point one without an exponent, and with a point in it. -/
def numberText : Number → String
  | .int i => intText i
  | .float x =>
    let s := x.positional
    if x.isFinite && !occursIn "." s then s ++ ".0" else s
where
  /-- Whether `part` occurs in a text. -/
  occursIn (part s : String) : Bool := s.toList.any fun c => part.toList.contains c

mutual
/-- How a value is printed within a list or a mapping. -/
def inner : Value → String
  | .undefined _ => "undefined"
  | .none => "None"
  | .bool b => if b then "True" else "False"
  | .number n => numberText n
  | .string s => quoted s
  | .list xs => "[" ++ ", ".intercalate (innerItems xs) ++ "]"
  | .mapping es => "\x7b" ++ ", ".intercalate (innerEntries es) ++ "\x7d"
  | .snippet name _ _ _ => "<macro " ++ name ++ ">"

/-- The items of a list. -/
def innerItems : List Value → List String
  | [] => []
  | x :: xs => inner x :: innerItems xs

/-- The entries of a mapping. -/
def innerEntries : List (Value × Value) → List String
  | [] => []
  | (k, v) :: es => (inner k ++ ": " ++ inner v) :: innerEntries es
end

/-- How a value is printed. -/
def text : Value → String
  | .undefined _ => ""
  | .string s => s
  | v => v.inner

/-- The text of a string. -/
def string? : Value → Option String
  | .string s => some s
  | _ => Option.none

/-- The number that a value counts as: a truth value is zero or one. -/
def number? : Value → Option Number
  | .number n => some n
  | .bool b => some (.int (if b then 1 else 0))
  | _ => Option.none

/-- The order of two numbers. -/
def compareNumbers (m n : Number) : Option Ordering :=
  match m, n with
  | .int i, .int j => some (compare i j)
  | .float x, .float y => x.compare? y
  | .int i, .float y => (Binary64.ofInt i).compare? y
  | .float x, .int j => x.compare? (Binary64.ofInt j)

/-- The order of two texts, code point by code point. -/
def compareTexts (s t : String) : Ordering :=
  if s < t then .lt else if s = t then .eq else .gt

mutual
/-- The order of two values; none when they have no order and differ. -/
def compare? : Value → Value → Option Ordering
  | .undefined _, .undefined _ => some .eq
  | .none, .none => some .eq
  | .string s, .string t => some (compareTexts s t)
  | .list xs, .list ys => compareItems xs ys
  | .mapping es, .mapping fs => compareEntries es fs
  | a, b =>
    match a.number?, b.number? with
    | some m, some n => compareNumbers m n
    | _, _ => some (compare a.rank b.rank)

/-- The order of two lists, item by item. -/
def compareItems : List Value → List Value → Option Ordering
  | [], [] => some .eq
  | [], _ :: _ => some .lt
  | _ :: _, [] => some .gt
  | x :: xs, y :: ys =>
    match compare? x y with
    | some .eq => compareItems xs ys
    | o => o

/-- The order of the entries of two mappings, one by one. -/
def compareEntries : List (Value × Value) → List (Value × Value) → Option Ordering
  | [], [] => some .eq
  | [], _ :: _ => some .lt
  | _ :: _, [] => some .gt
  | (k, v) :: es, (l, w) :: fs =>
    match compare? k l with
    | some .eq =>
      match compare? v w with
      | some .eq => compareEntries es fs
      | o => o
    | o => o
end

/-- Whether two values are equal. -/
def same (a b : Value) : Bool := compare? a b = some .eq

/-- The value under a key in a mapping. -/
def lookup? (key : Value) : List (Value × Value) → Option Value
  | [] => Option.none
  | (k, v) :: es => if k.same key then some v else lookup? key es

/-- Puts an entry in its place by its key, in place of the one with the same key. -/
def place (key value : Value) : List (Value × Value) → List (Value × Value)
  | [] => [(key, value)]
  | (k, v) :: es =>
    match compare? key k with
    | some .lt => (key, value) :: (k, v) :: es
    | some .eq => (key, value) :: es
    | _ => (k, v) :: place key value es

/-- How many items or entries or characters a value has. -/
def length? : Value → Option Nat
  | .string s => some s.length
  | .list xs => some xs.length
  | .mapping es => some es.length
  | _ => Option.none

/-- Whether a value counts as true. -/
def isTrue : Value → Bool
  | .undefined _ => false
  | .none => false
  | .bool b => b
  | .number (.int i) => i ≠ 0
  | .number (.float x) => !x.sameValue (Binary64.zero false)
  | .string s => s ≠ ""
  | .list xs => !xs.isEmpty
  | .mapping es => !es.isEmpty
  | .snippet _ _ _ _ => true

/-- The attribute of a value; none when it has no such attribute. -/
def attr? (v : Value) (name : String) : Option Value :=
  match v with
  | .mapping es => lookup? (.string name) es
  | _ => Option.none

/-- The item of a value under a key or an index; an index below zero counts from the end. -/
def item? (v index : Value) : Option Value :=
  match v, index with
  | .mapping es, key => lookup? key es
  | .list xs, .number (.int i) =>
    let i := if i < 0 then i + xs.length else i
    if i < 0 then Option.none else xs[i.toNat]?
  | .string s, .number (.int i) =>
    let cs := s.toList
    let i := if i < 0 then i + cs.length else i
    if i < 0 then Option.none else cs[i.toNat]?.map fun c => .string (.singleton c)
  | _, _ => Option.none

/-- What a loop runs over: the items of a list, the keys of a mapping, the characters of a string,
and nothing where there is no value. -/
def items? : Value → Option (List Value)
  | .undefined _ | .none => some []
  | .list xs => some xs
  | .mapping es => some (es.map (·.1))
  | .string s => some (s.toList.map fun c => .string (.singleton c))
  | _ => Option.none

end Value

end RouteServer.Template

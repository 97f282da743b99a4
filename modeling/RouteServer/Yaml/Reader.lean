import RouteServer.Yaml.Node
import RouteServer.Yaml.Scalar.Resolve
import RouteServer.Text.Split

/-!
# Yaml — Reader

The value of a document.  Anchored nodes are numbered in the order in which they start: each takes
the count of names met before it.  An alias stands for the number that its name has where the alias
is written, and is replaced by the node that took this number last.

A document may nest 128 collections, counting those that aliases bring in, and may follow a hundred
aliases for each of its parts.
-/

namespace RouteServer.Yaml

namespace Node

/-! ### Aliases -/

/-- Where a node stands in a tree: the number of the child to follow at each level. -/
abbrev Place := List Nat

/-- The names met so far with their numbers, and where the node of each number stands, the last
ones first. -/
structure Anchors where
  names : List (List Char × Nat) := []
  places : List (Nat × Place) := []

/-- Numbers the node at a place, given in reverse. -/
def Anchors.add (a : Anchors) (p : Properties) (place : Place) : Anchors :=
  match p.anchor with
  | none => a
  | some name =>
    let id := (a.names.map (·.1)).eraseDups.length
    ⟨(name, id) :: a.names, (id, place.reverse) :: a.places⟩

mutual
/-- Replaces the names of aliases by numbers, from the start of the document on.  An alias of a name
that has not been met is an error. -/
def number (place : Place) : NamedNode → Anchors → Option (Node Nat × Anchors)
  | .alias name, a => (a.names.lookup name).map fun id => (.alias id, a)
  | .scalar p plain text, a => some (.scalar p plain text, a.add p place)
  | .list p items, a =>
    (numberItems place 0 items (a.add p place)).map fun (items, a) => (.list p items, a)
  | .mapping p entries, a =>
    (numberEntries place 0 entries (a.add p place)).map fun (entries, a) => (.mapping p entries, a)

/-- Numbers the items of a list from the `i`-th child on. -/
def numberItems (place : Place) (i : Nat) :
    List NamedNode → Anchors → Option (List (Node Nat) × Anchors)
  | [], a => some ([], a)
  | n :: ns, a => do
    let (n, a) ← number (i :: place) n a
    let (ns, a) ← numberItems place (i + 1) ns a
    some (n :: ns, a)

/-- Numbers the entries of a mapping; a key and its value are two children. -/
def numberEntries (place : Place) (i : Nat) :
    List (NamedNode × NamedNode) → Anchors → Option (List (Node Nat × Node Nat) × Anchors)
  | [], a => some ([], a)
  | (k, v) :: es, a => do
    let (k, a) ← number (i :: place) k a
    let (v, a) ← number ((i + 1) :: place) v a
    let (es, a) ← numberEntries place (i + 2) es a
    some ((k, v) :: es, a)
end

/-- The children of a node. -/
def children : Node α → List (Node α)
  | .list _ items => items
  | .mapping _ entries => entries.flatMap fun e => [e.1, e.2]
  | _ => []

/-- The node at a place. -/
def at? (n : Node α) : Place → Option (Node α)
  | [] => some n
  | i :: place => n.children[i]?.bind fun child => child.at? place

mutual
/-- How many parts a node has: a collection counts for its start and its end. -/
def parts : Node α → Nat
  | .alias _ | .scalar _ _ _ => 1
  | .list _ items => itemParts items + 2
  | .mapping _ entries => entryParts entries + 2

/-- The parts of the items of a list. -/
def itemParts : List (Node α) → Nat
  | [] => 0
  | n :: ns => parts n + itemParts ns

/-- The parts of the entries of a mapping. -/
def entryParts : List (Node α × Node α) → Nat
  | [] => 0
  | (k, v) :: es => parts k + parts v + entryParts es
end

/-! ### Values -/

/-- A document whose aliases are numbered. -/
structure Document where
  root : Node Nat
  places : List (Nat × Place)

/-- How many aliases may be followed. -/
def Document.maxJumps (d : Document) : Nat := 100 * d.root.parts

/-- The node that an alias stands for. -/
def Document.target? (d : Document) (id : Nat) : Option (Node Nat) :=
  (d.places.lookup id).bind d.root.at?

/-- A value that counts the aliases followed on the way to it. -/
abbrev Counted := StateT Nat Option

/-- Follows an alias. -/
def Document.jump (d : Document) (id : Nat) : Counted (Node Nat) := fun jumps =>
  if d.maxJumps < jumps + 1 then none else (d.target? id).map fun n => (n, jumps + 1)

/-- The entries of a mapping, no two of them with one key; the value of a key that has been met is
not looked at. -/
def entryValues (below : Node Nat → Counted Value) :
    List (Node Nat × Node Nat) → List (Value × Value) → Counted (List (Value × Value))
  | [], done => pure done
  | (k, v) :: es, done => do
    let key ← below k
    if Value.hasKey done key then fun _ => none
    else
      let value ← below v
      entryValues below es (done ++ [(key, value)])

/-- The tag of a node when it is one of the writer's own, without its mark. -/
def ownTag (p : Properties) : Option (List Char) :=
  p.tag.bind fun tag => Text.stripStart ['!'] tag.toList

/-- A tag as a value shows it. -/
def shownTag (name : List Char) : String :=
  match name with
  | '!' :: c :: cs => String.ofList ('!' :: c :: cs)
  | cs => String.ofList ('!' :: cs)

/-- The value of a node that is no alias, below which `below` gives the values. -/
def valueHere (below : Node Nat → Counted Value) : Node Nat → Counted Value
  | .alias _ => fun _ => none
  | .scalar p plain text =>
    match ownTag p with
    | some [] => fun _ => none
    | some name => fun jumps =>
      (Scalar.untaggedValue none plain text).map fun v => (.tagged (shownTag name) v, jumps)
    | none => fun jumps => (Scalar.untaggedValue p.tag plain text).map fun v => (v, jumps)
  | .list p items => do
    let v := Value.list (← items.mapM below)
    match ownTag p with
    | some [] => fun _ => none
    | some name => pure (.tagged (shownTag name) v)
    | none => pure v
  | .mapping p entries => do
    let v := Value.mapping (← entryValues below entries [])
    match ownTag p with
    | some [] => fun _ => none
    | some name => pure (.tagged (shownTag name) v)
    | none => pure v

/-- Whether a node has nodes below it. -/
def isCollection : Node α → Bool
  | .list _ _ | .mapping _ _ => true
  | _ => false

/-- The value of a node below which `depth` collections may nest. -/
def value (d : Document) : Nat → Node Nat → Counted Value
  | depth, n => do
    let n ← match n with
      | .alias id => d.jump id
      | n => pure n
    match depth with
    | 0 => if n.isCollection then fun _ => none else valueHere (fun _ _ => none) n
    | depth + 1 => valueHere (value d depth) n

/-- The number of collections that may nest. -/
def maxDepth : Nat := 128

/-- The value of a document. -/
def toValue? (n : NamedNode) : Option Value := do
  let (root, anchors) ← number [] n {}
  let (v, _) ← value ⟨root, anchors.places⟩ maxDepth root 0
  some v

end Node

/-- The value of a text with one document in it, or none when it is not well formed. -/
def read (text : String) : Option Value := do
  let tokens ← Token.ofChars? text.toList
  let root ← Node.ofTokens? tokens
  root.toValue?

end RouteServer.Yaml

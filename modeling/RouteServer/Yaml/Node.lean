import RouteServer.Yaml.Token

/-!
# Yaml — Node

The tree of a document, before its scalars have values.  A node keeps the name it is anchored under;
an alias is a node of its own.  Nodes are read from tokens by the grammar of documents: what may
stand without a value is an empty plain scalar.
-/

namespace RouteServer.Yaml

/-- What a node may carry: a name for aliases, and a tag. -/
structure Properties where
  anchor : Option (List Char) := none
  tag : Option String := none
  deriving DecidableEq, Repr

/-- A node of a document, in which an alias is known by an `α`. -/
inductive Node (α : Type) where
  | alias (target : α)
  | scalar (props : Properties) (plain : Bool) (text : List Char)
  | list (props : Properties) (items : List (Node α))
  | mapping (props : Properties) (entries : List (Node α × Node α))

/-- A node as it is written: an alias is known by the name it gives. -/
abbrev NamedNode := Node (List Char)

namespace Node

/-- What stands where nothing is written. -/
def empty : NamedNode := .scalar {} true []

/-- What each tag handle means. -/
abbrev Handles := List (List Char × List Char)

/-- The handles that need no directive. -/
def defaultHandles : Handles :=
  [(['!'], ['!']), (['!', '!'], "tag:yaml.org,2002:".toList)]

/-- A tag in full. -/
def expand (handles : Handles) (t : TagText) : Option String :=
  if t.handle = [] then some (String.ofList t.rest)
  else (handles.lookup t.handle).map fun meaning => String.ofList (meaning ++ t.rest)

/-- Reads the properties of a node: a name and a tag in either order. -/
def readProperties (handles : Handles) : List Token → Option (Properties × List Token)
  | .anchor a :: .tag t :: ts => (expand handles t).map fun tag => (⟨some a, some tag⟩, ts)
  | .anchor a :: ts => some (⟨some a, none⟩, ts)
  | .tag t :: .anchor a :: ts => (expand handles t).map fun tag => (⟨some a, some tag⟩, ts)
  | .tag t :: ts => (expand handles t).map fun tag => (⟨none, some tag⟩, ts)
  | ts => some ({}, ts)

/-- A tag that is only a mark says nothing about a scalar that is written. -/
def dropMark (p : Properties) : Properties × Bool :=
  if p.tag = some "!" then ({ p with tag := none }, true) else (p, false)

/-- Whether a token ends an item of a list that opens no block of its own. -/
def endsItem : List Token → Bool
  | .item :: _ | .key :: _ | .value :: _ | .blockEnd :: _ => true
  | _ => false

/-- Whether a token ends a key or a value of a block. -/
def endsPart : List Token → Bool
  | .key :: _ | .value :: _ | .blockEnd :: _ => true
  | _ => false

/-- Whether a token ends an item of a list that is a block. -/
def endsBlockItem : List Token → Bool
  | .item :: _ | .blockEnd :: _ => true
  | _ => false

mutual
/-- Reads a node.  Block collections are read where `block` says so, and a list that opens no block
where `dashes` does. -/
def read (handles : Handles) : Nat → Bool → Bool → List Token → Option (NamedNode × List Token)
  | 0, _, _, _ => none
  | _ + 1, _, _, .alias name :: ts => some (.alias name, ts)
  | fuel + 1, block, dashes, ts => do
    let (props, ts) ← readProperties handles ts
    match ts with
    | .item :: _ =>
      if dashes then
        let (xs, ts) ← readDashes handles fuel ts
        some (.list props xs, ts)
      else readNothing props ts
    | .scalar plain text :: ts =>
      let (props, marked) := dropMark props
      some (.scalar props (plain || marked) text, ts)
    | .flowList :: ts =>
      let (xs, ts) ← readFlowItems handles fuel true ts
      some (.list props xs, ts)
    | .flowMapping :: ts =>
      let (es, ts) ← readFlowEntries handles fuel true ts
      some (.mapping props es, ts)
    | .blockList :: rest =>
      if block then
        let (xs, ts) ← readItems handles fuel rest
        some (.list props xs, ts)
      else readNothing props ts
    | .blockMapping :: rest =>
      if block then
        let (es, ts) ← readEntries handles fuel rest
        some (.mapping props es, ts)
      else readNothing props ts
    | ts => readNothing props ts

/-- A node with properties and nothing else. -/
def readNothing (props : Properties) (ts : List Token) : Option (NamedNode × List Token) :=
  if props = {} then none else some (.scalar props true [], ts)

/-- Reads a part of a collection, empty where `stop` says that nothing stands there. -/
def readPart (handles : Handles) : Nat → (List Token → Bool) → Bool → Bool → List Token →
    Option (NamedNode × List Token)
  | 0, _, _, _, _ => none
  | fuel + 1, stop, block, dashes, ts =>
    if stop ts then some (empty, ts) else read handles fuel block dashes ts

/-- Reads the items of a list that is a block. -/
def readItems (handles : Handles) : Nat → List Token → Option (List NamedNode × List Token)
  | 0, _ => none
  | fuel + 1, .item :: ts => do
    let (x, ts) ← readPart handles fuel endsBlockItem true false ts
    let (xs, ts) ← readItems handles fuel ts
    some (x :: xs, ts)
  | _ + 1, .blockEnd :: ts => some ([], ts)
  | _ + 1, _ => none

/-- Reads the items of a list that opens no block of its own. -/
def readDashes (handles : Handles) : Nat → List Token → Option (List NamedNode × List Token)
  | 0, _ => none
  | fuel + 1, .item :: ts => do
    let (x, ts) ← readPart handles fuel endsItem true false ts
    let (xs, ts) ← readDashes handles fuel ts
    some (x :: xs, ts)
  | _ + 1, ts => some ([], ts)

/-- Reads the entries of a mapping that is a block. -/
def readEntries (handles : Handles) :
    Nat → List Token → Option (List (NamedNode × NamedNode) × List Token)
  | 0, _ => none
  | fuel + 1, .key :: ts => do
    let (k, ts) ← readPart handles fuel endsPart true true ts
    let (v, ts) ← match ts with
      | .value :: ts => readPart handles fuel endsPart true true ts
      | ts => some (empty, ts)
    let (es, ts) ← readEntries handles fuel ts
    some ((k, v) :: es, ts)
  | _ + 1, .blockEnd :: ts => some ([], ts)
  | _ + 1, _ => none

/-- Reads the items of a list between brackets; all but the first have a comma in front. -/
def readFlowItems (handles : Handles) :
    Nat → Bool → List Token → Option (List NamedNode × List Token)
  | 0, _, _ => none
  | fuel + 1, first, ts =>
    match ts with
    | .flowListEnd :: ts => some ([], ts)
    | ts => do
      let ts ← if first then some ts else match ts with
        | .comma :: ts => some ts
        | _ => none
      match ts with
      | .flowListEnd :: ts => some ([], ts)
      | .key :: ts =>
        let (e, ts) ← readSinglePair handles fuel ts
        let (xs, ts) ← readFlowItems handles fuel false ts
        some (.mapping {} [e] :: xs, ts)
      | ts =>
        let (x, ts) ← read handles fuel false false ts
        let (xs, ts) ← readFlowItems handles fuel false ts
        some (x :: xs, ts)

/-- Reads a mapping of one entry that stands in a list.  A key that is left out takes the mark
behind it along. -/
def readSinglePair (handles : Handles) :
    Nat → List Token → Option ((NamedNode × NamedNode) × List Token)
  | 0, _ => none
  | fuel + 1, ts => do
    let (k, ts) ← match ts with
      | .value :: ts | .comma :: ts | .flowListEnd :: ts => some (empty, ts)
      | ts => read handles fuel false false ts
    match ts with
    | .value :: ts =>
      match ts with
      | .comma :: _ | .flowListEnd :: _ => some ((k, empty), ts)
      | ts =>
        let (v, ts) ← read handles fuel false false ts
        some ((k, v), ts)
    | ts => some ((k, empty), ts)

/-- Reads the entries of a mapping between braces; all but the first have a comma in front. -/
def readFlowEntries (handles : Handles) :
    Nat → Bool → List Token → Option (List (NamedNode × NamedNode) × List Token)
  | 0, _, _ => none
  | fuel + 1, first, ts =>
    match ts with
    | .flowMappingEnd :: ts => some ([], ts)
    | ts => do
      let ts ← if first then some ts else match ts with
        | .comma :: ts => some ts
        | _ => none
      match ts with
      | .flowMappingEnd :: ts => some ([], ts)
      | .key :: ts =>
        let (k, ts) ← match ts with
          | .value :: _ | .comma :: _ | .flowMappingEnd :: _ => some (empty, ts)
          | ts => read handles fuel false false ts
        let (v, ts) ← match ts with
          | .value :: ts =>
            match ts with
            | .comma :: _ | .flowMappingEnd :: _ => some (empty, ts)
            | ts => read handles fuel false false ts
          | ts => some (empty, ts)
        let (es, ts) ← readFlowEntries handles fuel false ts
        some ((k, v) :: es, ts)
      | ts =>
        let (k, ts) ← read handles fuel false false ts
        let (es, ts) ← readFlowEntries handles fuel false ts
        some ((k, empty) :: es, ts)
end

/-- Reads the directives in front of a document: at most one version, which has to be 1.1 or 1.2,
and at most one meaning for each handle. -/
def readDirectives : Bool → Handles → List Token → Option (Handles × List Token)
  | versioned, handles, .version major minor :: ts =>
    if versioned ∨ major ≠ 1 ∨ (minor ≠ 1 ∧ minor ≠ 2) then none
    else readDirectives true handles ts
  | versioned, handles, .tagDirective handle meaning :: ts =>
    if (handles.lookup handle).isSome then none
    else readDirectives versioned (handles ++ [(handle, meaning)]) ts
  | _, handles, ts => some (handles ++ defaultHandles, ts)

/-- Whether the content of a document is over before it has started. -/
def endsDocument : List Token → Bool
  | [] | .version _ _ :: _ | .tagDirective _ _ :: _ | .documentStart :: _ | .documentEnd :: _ =>
    true
  | _ => false

/-- Whether a document starts without a mark. -/
def startsBare : List Token → Bool
  | [] | .version _ _ :: _ | .tagDirective _ _ :: _ | .documentStart :: _ => false
  | _ => true

/-- The root of the only document that the tokens spell. -/
def ofTokens? (ts : List Token) : Option NamedNode := do
  let fuel := 4 * ts.length + 4
  if ts = [] then some empty
  else
    let (root, rest) ←
      if startsBare ts then read defaultHandles fuel true false ts
      else do
        let (handles, ts) ← readDirectives false [] ts
        match ts with
        | .documentStart :: ts =>
          if endsDocument ts then some (empty, ts) else read handles fuel true false ts
        | _ => none
    if rest.all (· = .documentEnd) then some root else none

end Node

end RouteServer.Yaml

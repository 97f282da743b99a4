import RouteServer.Template.Builtin
import RouteServer.Template.Machine
import RouteServer.Template.Parser

/-!
# Template — Eval

Rendering.  Expressions and statements are evaluated by recursion on their syntax; what leads to the
syntax of another place — a snippet that is called, a template that is embedded — is handed over to
`Calls`.  `render` ties the two together, to a number of levels that the limit on the depth never
lets rendering reach.
-/

namespace RouteServer.Template

open Render

/-- What leads to the syntax of another place. -/
structure Calls where
  /-- Calls a value with arguments. -/
  call : Value → List Value → Render Value
  /-- Renders statements of another template. -/
  embed : List Stmt → Render Unit

/-! ### Operations -/

/-- Whether a value counts as true.  One that has not been found is an error. -/
def truth : Value → Render Bool
  | .undefined false => fail .undefined
  | v => pure v.isTrue

/-- What a look-up gives in a value. -/
def found (parent : Value) : Option Value → Render Value
  | some v => pure v
  | none => if parent.isUndefined then fail .undefined else pure (.undefined false)

/-- What a loop runs over. -/
def itemsOf : Value → Render (List Value)
  | .undefined false => fail .undefined
  | v =>
    match v.items? with
    | some xs => pure xs
    | none => invalid (v.kind ++ " is not iterable")

/-- An operation on two numbers. -/
def arithmetic (symbol : String) (onInts : Int → Int → Int)
    (onFloats : Option (Binary64 → Binary64 → Binary64)) (a b : Value) : Render Value :=
  let impossible := invalid ("tried to use " ++ symbol ++ " operator on unsupported types " ++
    a.kind ++ " and " ++ b.kind)
  match a.number?, b.number?, onFloats with
  | some (.int i), some (.int j), _ => pure (.number (.int (onInts i j)))
  | some (.float x), some (.float y), some f => pure (.number (.float (f x y)))
  | some (.int i), some (.float y), some f => pure (.number (.float (f (.ofInt i) y)))
  | some (.float x), some (.int j), some f => pure (.number (.float (f x (.ofInt j))))
  | _, _, _ => impossible

/-- The sum of two numbers, or one text or list behind another. -/
def addValues (a b : Value) : Render Value :=
  match a, b with
  | .string s, .string t => pure (.string (s ++ t))
  | .list xs, .list ys => pure (.list (xs ++ ys))
  | a, b => arithmetic "+" (· + ·) (some Binary64.add) a b

/-- The negative of a number. -/
def negateValue : Value → Render Value
  | .number (.int i) => pure (.number (.int (-i)))
  | .number (.float x) => pure (.number (.float ⟨x.bits ^^^ 0x8000000000000000⟩))
  | _ => invalid ""

/-- Whether a comparison of two values holds. -/
def holds (op : Comparison) (a b : Value) : Bool :=
  match op, a.compare? b with
  | .eq, o => o = some .eq
  | .ne, o => o ≠ some .eq
  | .lt, o => o = some .lt
  | .gt, o => o = some .gt
  | .le, o => o = some .lt || o = some .eq
  | .ge, o => o = some .gt || o = some .eq

/-- Whether a value is in another: a text in a text, an item in a list, a key in a mapping. -/
def containsValue (container v : Value) : Render Bool :=
  match container with
  | .undefined false => fail .undefined
  | .string s => pure (Text.occursIn v.text s)
  | .list xs => pure (xs.any (·.same v))
  | .mapping es => pure (es.any (·.1.same v))
  | _ => invalid "cannot perform a containment check on this value"

/-- What `loop` means in the `i`-th of the rounds over some items. -/
def loopValue (items : List Value) (i : Nat) : Value :=
  let n := items.length
  .ofFields
    [("index0", .nat i), ("index", .nat (i + 1)), ("length", .nat n),
     ("revindex", .nat (n - i)), ("revindex0", .nat (n - i - 1)),
     ("first", .bool (i = 0)), ("last", .bool (i + 1 = n)),
     ("previtem", if i = 0 then .undefined false else (items[i - 1]?).getD (.undefined false)),
     ("nextitem", (items[i + 1]?).getD (.undefined false))]

/-! ### Names that a snippet mentions -/

mutual
/-- The names in an expression. -/
def Expr.names : Expr → List String
  | .literal _ => []
  | .var n => [n]
  | .attr e _ | .not e | .negate e => e.names
  | .item a b | .and a b | .or a b | .compare _ a b | .contains a b | .concat a b | .add a b
  | .subtract a b | .multiply a b | .guard a b => a.names ++ b.names
  | .filter _ e args | .test _ e args | .call e args => e.names ++ namesOfAll args
  | .list es => namesOfAll es
  | .dict es => namesOfEntries es
  | .choose a b c => a.names ++ b.names ++ c.names

/-- The names in some expressions. -/
def namesOfAll : List Expr → List String
  | [] => []
  | e :: es => e.names ++ namesOfAll es

/-- The names in the entries of a dictionary. -/
def namesOfEntries : List (Expr × Expr) → List String
  | [] => []
  | (k, v) :: es => k.names ++ v.names ++ namesOfEntries es
end

mutual
/-- The names in a statement. -/
def Stmt.names : Stmt → List String
  | .text _ => []
  | .print e => e.names
  | .branch t yes no => t.names ++ namesOfStmts yes ++ namesOfStmts no
  | .loop _ items pass body otherwise =>
    items.names ++ ((pass.map Expr.names).getD []) ++ namesOfStmts body ++ namesOfStmts otherwise
  | .bind _ e => e.names
  | .embed e _ => e.names
  | .take e _ => e.names
  | .snippet _ _ body => namesOfStmts body

/-- The names in some statements. -/
def namesOfStmts : List Stmt → List String
  | [] => []
  | s :: ss => s.names ++ namesOfStmts ss
end

/-! ### Expressions -/

/-- The value of a literal. -/
def Literal.value : Literal → Value
  | .none => .none
  | .bool b => .bool b
  | .number n => .number n
  | .string s => .string s

mutual
/-- The value of an expression. -/
def Expr.eval (env : Environment) (calls : Calls) : Expr → Render Value
  | .literal c => pure c.value
  | .var n => do
    let m ← get
    pure ((lookup? env.root m n).getD (.undefined false))
  | .attr e n => do
    let v ← e.eval env calls
    found v (v.attr? n)
  | .item e i => do
    let v ← e.eval env calls
    let i ← i.eval env calls
    found v (v.item? i)
  | .filter n e args => do
    let v ← e.eval env calls
    let args ← evalAll env calls args
    match env.filters.lookup n with
    | some f => lift (f v args)
    | none => fail .unknownFilter
  | .test n e args => do
    let v ← e.eval env calls
    let args ← evalAll env calls args
    match env.tests.lookup n with
    | some f => do
      let b ← lift (f v args)
      pure (.bool b)
    | none => fail .unknownTest
  | .call f args => do
    let args ← evalAll env calls args
    match f with
    | .var n => do
      let m ← get
      match lookup? env.root m n with
      | some v => calls.call v args
      | none => fail .unknownFunction
    | f => do
      let v ← f.eval env calls
      calls.call v args
  | .list es => do
    let vs ← evalAll env calls es
    pure (.list vs)
  | .dict es => do
    let es ← evalEntries env calls es
    pure (.mapping (es.foldl (fun done e => Value.place e.1 e.2 done) []))
  | .not e => do
    let v ← e.eval env calls
    let b ← truth v
    pure (.bool !b)
  | .negate e => do
    let v ← e.eval env calls
    negateValue v
  | .and a b => do
    let v ← a.eval env calls
    if ← truth v then b.eval env calls else pure v
  | .or a b => do
    let v ← a.eval env calls
    if ← truth v then pure v else b.eval env calls
  | .compare op a b => do
    let v ← a.eval env calls
    let w ← b.eval env calls
    pure (.bool (holds op v w))
  | .contains a b => do
    let v ← a.eval env calls
    let w ← b.eval env calls
    let answer ← containsValue w v
    pure (.bool answer)
  | .concat a b => do
    let v ← a.eval env calls
    let w ← b.eval env calls
    pure (.string (v.text ++ w.text))
  | .add a b => do
    let v ← a.eval env calls
    let w ← b.eval env calls
    addValues v w
  | .subtract a b => do
    let v ← a.eval env calls
    let w ← b.eval env calls
    arithmetic "-" (· - ·) none v w
  | .multiply a b => do
    let v ← a.eval env calls
    let w ← b.eval env calls
    arithmetic "*" (· * ·) none v w
  | .choose t yes no => do
    let v ← t.eval env calls
    if ← truth v then yes.eval env calls else no.eval env calls
  | .guard t yes => do
    let v ← t.eval env calls
    if ← truth v then yes.eval env calls else pure (.undefined true)

/-- The values of some expressions. -/
def evalAll (env : Environment) (calls : Calls) : List Expr → Render (List Value)
  | [] => pure []
  | e :: es => do
    let v ← e.eval env calls
    let vs ← evalAll env calls es
    pure (v :: vs)

/-- The values of the entries of a dictionary. -/
def evalEntries (env : Environment) (calls : Calls) :
    List (Expr × Expr) → Render (List (Value × Value))
  | [] => pure []
  | (k, v) :: es => do
    let k ← k.eval env calls
    let v ← v.eval env calls
    let es ← evalEntries env calls es
    pure ((k, v) :: es)
end

/-! ### Statements -/

/-- Renders a template in the frames that are open. -/
def embedStmts (calls : Calls) (body : List Stmt) : Render Unit := do
  modify fun m => { m with depth := m.depth + embedCost }
  checkDepth
  fun m =>
    match calls.embed body m with
    | .ok (_, m) => .ok ((), { m with depth := m.depth - embedCost })
    | .error f => .error (.inEmbedded f)

/-- The first template that is there, by names in turn; none when there is none and there need not
be. -/
def loadFirst (env : Environment) (optional : Bool) : List Value → Render (Option (List Stmt))
  | [] => if optional then pure none else fail .templateNotFound
  | .string n :: vs =>
    match env.load n with
    | .ok body => pure (some body)
    | .error .templateNotFound => loadFirst env optional vs
    | .error f => fail f
  | _ :: _ => invalid "template name was not a string"

/-- The template with a name, or with the first name of a list that has one.  A list without names
stands for nothing. -/
def loadNamed (env : Environment) (optional : Bool) : Value → Render (Option (List Stmt))
  | .list [] => pure none
  | .list vs => loadFirst env optional vs
  | v => loadFirst env optional [v]

mutual
/-- Renders a statement. -/
def Stmt.exec (env : Environment) (calls : Calls) : Stmt → Render Unit
  | .text s => write s
  | .print e => do
    match ← e.eval env calls with
    | .undefined false => fail .undefined
    | v => do
      let s ← lift (env.print v)
      write s
  | .branch t yes no => do
    let v ← t.eval env calls
    if ← truth v then execAll env calls yes else execAll env calls no
  | .loop target items pass body otherwise => do
    let v ← items.eval env calls
    let all ← itemsOf v
    let items ← match pass with
      | none => pure all
      | some p => inFrame {} (all.filterM fun x => do
          bindTarget target x
          let v ← p.eval env calls
          truth v)
    if items.isEmpty then execAll env calls otherwise
    else
      inFrame {} ((items.zipIdx).forM fun (x, i) => do
        modify fun m => match m.frames with
          | f :: fs => { m with frames := { f with loop := some (loopValue items i) } :: fs }
          | [] => m
        bindTarget target x
        execAll env calls body)
  | .bind target e => do
    let v ← e.eval env calls
    bindTarget target v
  | .embed e optional => do
    let v ← e.eval env calls
    match ← loadNamed env optional v with
    | some body => embedStmts calls body
    | none => pure ()
  | .take e names => do
    let v ← e.eval env calls
    match ← loadNamed env false v with
    | none => pure ()
    | some body =>
      let vars ← inFrame {} do
        let _ ← capture (embedStmts calls body)
        let m ← get
        pure ((m.frames.head?.map Frame.vars).getD [])
      names.forM fun (n, alias_) => bind alias_ ((vars.lookup n).getD (.undefined false))
  | .snippet n params body => do
    let id ← openScope
    keep env.root id (namesOfStmts body)
    bind n (.snippet n params body id)

/-- Renders some statements. -/
def execAll (env : Environment) (calls : Calls) : List Stmt → Render Unit
  | [] => pure ()
  | s :: ss => do
    s.exec env calls
    execAll env calls ss
end

/-! ### Snippets and embedded templates -/

/-- Runs a snippet in frames of its own and gives what it writes. -/
def callSnippet (run : List Stmt → Render Unit) (params : List String) (body : List Stmt)
    (scope : Nat) (args : List Value) : Render Value := do
  if params.length < args.length then fail .tooManyArguments
  else
    let m ← get
    let padded := args ++ List.replicate (params.length - args.length) (.undefined false)
    let frame : Frame := { vars := (params.zip padded).reverse, reads := some scope }
    set { m with frames := [frame, {}], depth := depthOf m + snippetCost }
    checkDepth
    let text ← capture (run body)
    modify fun n => { n with frames := m.frames, depth := m.depth }
    pure (.string text)

/-- Calls and embedded templates that may nest `levels` deep. -/
def callsOf (env : Environment) : Nat → Calls
  | 0 =>
    ⟨fun _ _ => invalid "recursion limit exceeded", fun _ => invalid "recursion limit exceeded"⟩
  | levels + 1 =>
    let inner := callsOf env levels
    { call := fun v args =>
        match v with
        | .snippet _ params body scope => callSnippet (execAll env inner) params body scope args
        | v => invalid ("value of type " ++ v.kind ++ " is not callable")
      embed := execAll env inner }

/-- The text of a template. -/
def render (env : Environment) (name : String) : Except Fault String := do
  let body ← env.load name
  let ((), m) ← (execAll env (callsOf env maxDepth) body).run {}
  pure (String.join m.out.reverse)

end RouteServer.Template

import RouteServer.Template.Eval

/-!
# Template — plain evaluation

What a template writes, told without a machine.  A *scope* is what is known of the names: the value
of a name, or the snippet that it calls.  `Stmt.plain` gives the scope after a statement and the
pieces of text that it writes; it gives nothing where a value is asked for that the scope does not
tell, where rendering would fail, and for the few forms that it leaves out.

**Refinement** (`execAll_of_plain`, `render_of_plain`).  What is told plainly is what the machine
does: from frames in which the names mean what the scope says, it succeeds, writes the same pieces
and leads to frames in which the names mean what the new scope says.

A loop has one frame for all its rounds, so a name that its body binds still means in one round what
it did in the round before.  The plain rounds forget such names.
-/

namespace RouteServer.Template

open Render

/-- What a name is known to mean. -/
inductive Meaning where
  | value (v : Value)
  /-- A snippet, wherever the names it mentions are kept. -/
  | snippet (params : List String) (body : List Stmt)

/-- What is known of the names, the last first. -/
abbrev Scope := List (String × Meaning)

namespace Scope

/-- A scope that knows nothing of some names. -/
def without (names : List String) (ρ : Scope) : Scope := ρ.filter fun e => !names.contains e.1

/-- A scope with values for some names. -/
def tell (vars : List (String × Value)) (ρ : Scope) : Scope :=
  (vars.reverse.map fun e => (e.1, .value e.2)) ++ ρ

theorem lookup_without (names : List String) (ρ : Scope) (n : String) :
    (ρ.without names).lookup n = if n ∈ names then none else ρ.lookup n := by
  unfold Scope.without
  induction ρ with
  | nil => simp
  | cons e ρ ih =>
      rw [List.filter_cons, List.lookup_cons]
      by_cases he : e.1 ∈ names
      · rw [if_neg (by simpa using he), ih]
        split
        · rfl
        case isFalse hn =>
            have hne : (n == e.1) = false := beq_eq_false_iff_ne.2 fun h => hn (h ▸ he)
            rw [hne]
      · rw [if_pos (by simpa using he), List.lookup_cons, ih]
        split
        case h_1 heq =>
            rw [eq_of_beq heq, if_neg he]
        case h_2 => rfl

end Scope

/-- The calls and the embedded templates that are told plainly, each at a depth. -/
structure PlainCalls where
  call : Nat → List String → List Stmt → List Value → Option Value
  embed : Nat → Scope → List Stmt → Option (Scope × List String)
  /-- The snippets of a template that consists of them. -/
  snippets : List Stmt → Option Scope

/-! ### Expressions -/

/-- Whether a value counts as true. -/
def truth? : Value → Option Bool
  | .undefined false => none
  | v => some v.isTrue

/-- What a look-up gives in a value. -/
def found? (parent : Value) : Option Value → Option Value
  | some v => some v
  | none => if parent.isUndefined then none else some (.undefined false)

mutual
/-- The value of an expression at a depth. -/
def Expr.plain (env : Environment) (pc : PlainCalls) (d : Nat) (ρ : Scope) : Expr → Option Value
  | .literal c => some c.value
  | .var n =>
    match ρ.lookup n with
    | some (.value v) => some v
    | _ => none
  | .attr e n => do
    let v ← e.plain env pc d ρ
    found? v (v.attr? n)
  | .item e i => do
    let v ← e.plain env pc d ρ
    let i ← i.plain env pc d ρ
    found? v (v.item? i)
  | .filter n e args => do
    let v ← e.plain env pc d ρ
    let args ← plainArgs env pc d ρ args
    let f ← env.filters.lookup n
    (f v args).toOption
  | .test n e args => do
    let v ← e.plain env pc d ρ
    let args ← plainArgs env pc d ρ args
    let f ← env.tests.lookup n
    let b ← (f v args).toOption
    some (.bool b)
  | .call (.var n) args => do
    let args ← plainArgs env pc d ρ args
    match ρ.lookup n with
    | some (.snippet params body) => pc.call d params body args
    | _ => none
  | .list es => do
    let vs ← plainArgs env pc d ρ es
    some (.list vs)
  | .dict es => do
    let es ← plainEntries env pc d ρ es
    some (.mapping (es.foldl (fun done e => Value.place e.1 e.2 done) []))
  | .not e => do
    let v ← e.plain env pc d ρ
    let b ← truth? v
    some (.bool !b)
  | .and a b => do
    let v ← a.plain env pc d ρ
    if ← truth? v then b.plain env pc d ρ else some v
  | .or a b => do
    let v ← a.plain env pc d ρ
    if ← truth? v then some v else b.plain env pc d ρ
  | .compare op a b => do
    let v ← a.plain env pc d ρ
    let w ← b.plain env pc d ρ
    some (.bool (holds op v w))
  | .concat a b => do
    let v ← a.plain env pc d ρ
    let w ← b.plain env pc d ρ
    some (.string (v.text ++ w.text))
  | .choose t yes no => do
    let v ← t.plain env pc d ρ
    if ← truth? v then yes.plain env pc d ρ else no.plain env pc d ρ
  | _ => none

/-- The values of some expressions. -/
def plainArgs (env : Environment) (pc : PlainCalls) (d : Nat) (ρ : Scope) :
    List Expr → Option (List Value)
  | [] => some []
  | e :: es => do
    let v ← e.plain env pc d ρ
    let vs ← plainArgs env pc d ρ es
    some (v :: vs)

/-- The values of the entries of a dictionary. -/
def plainEntries (env : Environment) (pc : PlainCalls) (d : Nat) (ρ : Scope) :
    List (Expr × Expr) → Option (List (Value × Value))
  | [] => some []
  | (k, v) :: es => do
    let k ← k.plain env pc d ρ
    let v ← v.plain env pc d ρ
    let es ← plainEntries env pc d ρ es
    some ((k, v) :: es)
end

/-! ### Statements -/

/-- What is bound to a target. -/
def Target.bindings : Target → Value → Option (List (String × Value))
  | .name n, v => some [(n, v)]
  | .names ns, .list vs => if vs.length = ns.length then some (ns.zip vs) else none
  | .names _, _ => none

/-- The names of a target. -/
def Target.all : Target → List String
  | .name n => [n]
  | .names ns => ns

mutual
/-- The names that a statement binds in the frame in which it is rendered. -/
def Stmt.bound? : Stmt → Option (List String)
  | .text _ | .print _ => some []
  | .branch _ yes no => do
    let ns ← bound? yes
    let ms ← bound? no
    some (ns ++ ms)
  | .loop _ _ _ _ otherwise => bound? otherwise
  | .bind t _ => some t.all
  | .take _ names => some (names.map (·.2))
  | .embed _ _ | .snippet _ _ _ => none

/-- The names that some statements bind. -/
def bound? : List Stmt → Option (List String)
  | [] => some []
  | s :: ss => do
    let ns ← s.bound?
    let ms ← bound? ss
    some (ns ++ ms)
end

/-- The snippets of a template that consists of them, the last first. -/
def snippets? : List Stmt → Scope → Option Scope
  | [], done => some done
  | .text _ :: ss, done => snippets? ss done
  | .snippet n params body :: ss, done => snippets? ss ((n, .snippet params body) :: done)
  | _ :: _, _ => none

/-- The scope with names of another one. -/
def takeNames (taken : Scope) : List (String × String) → Scope → Option Scope
  | [], ρ => some ρ
  | (n, alias_) :: names, ρ =>
    match taken.lookup n with
    | some μ => takeNames taken names ((alias_, μ) :: ρ)
    | none => none

/-- The text that is written for a value. -/
def written? (env : Environment) : Value → Option String
  | .undefined false => none
  | v => (env.print v).toOption

/-- What a loop runs over. -/
def items? : Value → Option (List Value)
  | .undefined false => none
  | v => v.items?

/-- The statements of the template with a name. -/
def load? (env : Environment) : Value → Option (List Stmt)
  | .string n => (env.load n).toOption
  | _ => none

/-- What a round of a loop writes when its body binds some names. -/
def plainRound (items : List Value) (target : Target) (run : Scope → Option (Scope × List String))
    (names : List String) (ρ : Scope) (x : Value) (i : Nat) : Option (List String) := do
  let vars ← target.bindings x
  let known := ρ.without ("loop" :: target.all ++ names)
  let (_, ps) ← run (Scope.tell (("loop", loopValue items i) :: vars) known)
  some ps

mutual
/-- The scope after a statement at a depth, and what it writes. -/
def Stmt.plain (env : Environment) (pc : PlainCalls) (d : Nat) (ρ : Scope) :
    Stmt → Option (Scope × List String)
  | .text s => some (ρ, [s])
  | .print e => do
    let v ← e.plain env pc d ρ
    let s ← written? env v
    some (ρ, [s])
  | .branch t yes no => do
    let v ← t.plain env pc d ρ
    if ← truth? v then plainAll env pc d ρ yes else plainAll env pc d ρ no
  | .loop target e none body otherwise => do
    let v ← e.plain env pc d ρ
    let items ← items? v
    if items.isEmpty then plainAll env pc d ρ otherwise
    else do
      let names ← bound? body
      if maxDepth < d + 1 ∨ "loop" ∈ target.all ++ names then none
      else do
        let run := fun ρ => plainAll env pc (d + 1) ρ body
        let written ← (items.zipIdx).mapM fun (x, i) =>
          plainRound items target run names ρ x i
        some (ρ, written.flatten)
  | .bind target e => do
    let v ← e.plain env pc d ρ
    let vars ← target.bindings v
    some (ρ.tell vars, [])
  | .embed e _ => do
    let v ← e.plain env pc d ρ
    let body ← load? env v
    if maxDepth < d + embedCost then none else pc.embed (d + embedCost) ρ body
  | .take e names => do
    let v ← e.plain env pc d ρ
    let body ← load? env v
    let taken ← pc.snippets body
    if maxDepth < d + 1 + embedCost then none
    else do
      let ρ ← takeNames taken names ρ
      some (ρ, [])
  | _ => none

/-- The scope after some statements, and what they write. -/
def plainAll (env : Environment) (pc : PlainCalls) (d : Nat) (ρ : Scope) :
    List Stmt → Option (Scope × List String)
  | [] => some (ρ, [])
  | s :: ss => do
    let (ρ, ps) ← s.plain env pc d ρ
    let (ρ, qs) ← plainAll env pc d ρ ss
    some (ρ, ps ++ qs)
end

/-- The plain calls and embedded templates that may nest `levels` deep. -/
def plainCallsOf (env : Environment) : Nat → PlainCalls
  | 0 => ⟨fun _ _ _ _ => none, fun _ _ _ => none, fun _ => none⟩
  | levels + 1 =>
    let inner := plainCallsOf env levels
    { call := fun d params body args =>
        if args.length = params.length ∧ d + snippetCost + 2 ≤ maxDepth then do
          let (_, ps) ← plainAll env inner (d + snippetCost + 2)
            (Scope.tell (params.zip args) []) body
          some (.string (String.join ps))
        else none
      embed := fun d ρ body => plainAll env inner d ρ body
      snippets := fun body => snippets? body [] }

/-- The scope of the names that are bound from the start. -/
def rootScope (root : Bindings) : Scope := root.map fun e => (e.1, .value e.2)

end RouteServer.Template

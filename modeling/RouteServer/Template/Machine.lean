import RouteServer.Template.Fault
import RouteServer.Template.Value

/-!
# Template — Machine

The state in which a template is rendered: the frames of names that are bound, and the text that has
been written.

A loop has a frame of its own, and so has a snippet while it runs.  The names a snippet mentions are
kept in a scope of the frame it is defined in; a name bound in that frame later on is bound in the
scope too, so that snippets may call each other.
-/

namespace RouteServer.Template

/-- Names and what they are bound to, the last binding first. -/
abbrev Bindings := List (String × Value)

/-- A frame of names. -/
structure Frame where
  vars : Bindings := []
  /-- What `loop` means here. -/
  loop : Option Value := none
  /-- The scope that is looked into after the names of the frame. -/
  reads : Option Nat := none
  /-- The scope of the snippets that are defined here. -/
  scope : Option Nat := none

/-- The state of rendering. -/
structure Machine where
  /-- The frames, the innermost first. -/
  frames : List Frame := [{}]
  /-- The scopes by their numbers. -/
  scopes : List (Nat × Bindings) := []
  /-- What the embedded templates and the running snippets count for. -/
  depth : Nat := 0
  /-- The pieces of text that have been written, in reverse. -/
  out : List String := []

/-- What templates can do: a filter or test has the value in front of it and its arguments. -/
structure Environment where
  /-- The statements of the template with a name. -/
  load : String → Except Fault (List Stmt)
  filters : List (String × (Value → List Value → Except Fault Value))
  tests : List (String × (Value → List Value → Except Fault Bool))
  /-- The text that is written for a value. -/
  print : Value → Except Fault String := fun v => .ok v.text
  /-- The names that are bound from the start. -/
  root : Bindings

/-- A step of rendering. -/
abbrev Render (α : Type) := StateT Machine (Except Fault) α

namespace Render

/-- A fault ends rendering. -/
def fail (f : Fault) : Render α := fun _ => .error f

/-- A value, unless there is a fault. -/
def lift : Except Fault α → Render α
  | .ok x => pure x
  | .error f => fail f

/-- The operation is not possible. -/
def invalid (detail : String) : Render α := fail (.invalidOperation detail)

/-- Writes a text. -/
def write (s : String) : Render Unit := modify fun m => { m with out := s :: m.out }

/-! ### Depth -/

/-- The depth at which rendering stops. -/
def maxDepth : Nat := 500

/-- How much an embedded template counts. -/
def embedCost : Nat := 10

/-- How much a running snippet counts. -/
def snippetCost : Nat := 4

/-- The depth of a state. -/
def depthOf (m : Machine) : Nat := m.depth + m.frames.length

/-- Stops when rendering has gone too deep. -/
def checkDepth : Render Unit := do
  if maxDepth < depthOf (← get) then invalid "recursion limit exceeded"

/-- Runs in a frame of its own. -/
def inFrame (f : Frame) (run : Render α) : Render α := do
  modify fun m => { m with frames := f :: m.frames }
  checkDepth
  let x ← run
  modify fun m => { m with frames := m.frames.tail }
  pure x

/-- Runs and gives the text that is written. -/
def capture (run : Render Unit) : Render String := do
  let before := (← get).out
  modify fun m => { m with out := [] }
  run
  let text := String.join (← get).out.reverse
  modify fun m => { m with out := before }
  pure text

/-! ### Names -/

/-- The bindings of a scope. -/
def scopeOf (m : Machine) (id : Nat) : Bindings := (m.scopes.lookup id).getD []

/-- What a name is bound to in a frame. -/
def lookupIn (m : Machine) (name : String) (f : Frame) : Option Value :=
  match f.vars.lookup name with
  | some v => some v
  | none =>
    match if name = "loop" then f.loop else none with
    | some l => some l
    | none =>
      (f.reads.bind fun id => (scopeOf m id).lookup name).filter fun v => !v.isUndefined

/-- What a name is bound to. -/
def lookup? (root : Bindings) (m : Machine) (name : String) : Option Value :=
  (m.frames.findSome? (lookupIn m name)).orElse fun _ => root.lookup name

/-- Binds a name in a scope. -/
def bindIn (m : Machine) (id : Nat) (name : String) (v : Value) : Machine :=
  { m with scopes := (id, (name, v) :: scopeOf m id) :: m.scopes }

/-- Binds a name in the innermost frame. -/
def bind (name : String) (v : Value) : Render Unit := modify fun m =>
  match m.frames with
  | [] => m
  | f :: fs =>
    let m := { m with frames := { f with vars := (name, v) :: f.vars } :: fs }
    match f.scope with
    | some id => bindIn m id name v
    | none => m

/-- Binds names to the items of a value, one each. -/
def bindTarget (t : Target) (v : Value) : Render Unit :=
  match t with
  | .name n => bind n v
  | .names ns =>
    match v with
    | .list xs =>
      if xs.length = ns.length then (ns.zip xs).forM fun (n, x) => bind n x
      else fail .cannotUnpack
    | _ => fail .cannotUnpack

/-- The scope of the innermost frame, opened if there is none yet. -/
def openScope : Render Nat := do
  let m ← get
  match m.frames with
  | [] => pure 0
  | f :: fs =>
    match f.scope with
    | some id => pure id
    | none =>
      let id := m.scopes.length
      set { m with frames := { f with scope := some id } :: fs, scopes := (id, []) :: m.scopes }
      pure id

/-- Keeps what names mean now in a scope, those that it does not have yet. -/
def keep (root : Bindings) (id : Nat) (names : List String) : Render Unit :=
  names.forM fun n => modify fun m =>
    if ((scopeOf m id).lookup n).isSome then m
    else bindIn m id n ((lookup? root m n).getD (.undefined false))

end Render

end RouteServer.Template

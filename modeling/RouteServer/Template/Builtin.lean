import RouteServer.Template.Fault
import RouteServer.Template.Value
import RouteServer.Text.Split

/-!
# Template — Builtin

The filters and tests that every template has.
-/

namespace RouteServer.Template.Builtin

open RouteServer.Text

/-- A filter: a value and its arguments give a value. -/
abbrev Filter := Value → List Value → Except Fault Value

/-- A test: a value and its arguments give an answer. -/
abbrev Test := Value → List Value → Except Fault Bool

/-- A filter without arguments. -/
def simple (f : Value → Except Fault Value) : Filter := fun v args =>
  if args.isEmpty then f v else .error .tooManyArguments

/-- A test without arguments. -/
def plainTest (f : Value → Except Fault Bool) : Test := fun v args =>
  if args.isEmpty then f v else .error .tooManyArguments

/-- The text of an argument, which has to be there. -/
def textOf : Value → Except Fault String
  | .undefined _ => .error .undefined
  | v => .ok v.text

/-- Joins texts; nothing is put behind what is still empty. -/
def joinTexts (sep : String) (texts : List String) : String :=
  texts.foldl (fun done s => if done = "" then s else done ++ sep ++ s) ""

/-- The items of a value with a text between them. -/
def join : Filter := fun v args => do
  let sep ← match args with
    | [] => pure ""
    | [s] => textOf s
    | _ => .error .tooManyArguments
  match v.items? with
  | some xs => pure (.string (joinTexts sep (xs.map Value.text)))
  | none => .error (.invalidOperation ("cannot join value of type " ++ v.kind))

/-- The text with every occurrence of one text replaced by another. -/
def replace : Filter := fun v args =>
  match args with
  | [old, new] => do
    let s ← textOf v
    let old ← textOf old
    let new ← textOf new
    pure (.string (.ofList (replaceAll old.toList new.toList s.toList)))
  | [] | [_] => .error .missingArgument
  | _ => .error .tooManyArguments

/-- The entries of a mapping as pairs. -/
def items : Filter := simple fun v =>
  match v with
  | .mapping es => pure (.list (es.map fun e => .list [e.1, e.2]))
  | _ => .error (.invalidOperation "cannot convert value into pair list")

/-- The number of items of a value. -/
def length : Filter := simple fun v =>
  match v.length? with
  | some n => pure (.nat n)
  | none =>
    .error (.invalidOperation ("cannot calculate length of value of type " ++ v.kind))

/-- The built-in filters. -/
def filters : List (String × Filter) :=
  [("join", join), ("replace", replace), ("items", items), ("length", length), ("count", length)]

/-- The built-in tests. -/
def tests : List (String × Test) :=
  [("none", plainTest fun v => pure (match v with | .none => true | _ => false)),
   ("defined", plainTest fun v => pure !v.isUndefined),
   ("undefined", plainTest fun v => pure v.isUndefined),
   ("boolean", plainTest fun v => pure (match v with | .bool _ => true | _ => false)),
   ("number", plainTest fun v => pure (match v with | .number _ => true | _ => false)),
   ("string", plainTest fun v => pure v.string?.isSome),
   ("sequence", plainTest fun v => pure (match v with | .list _ => true | _ => false)),
   ("mapping", plainTest fun v => pure (match v with | .mapping _ => true | _ => false)),
   ("iterable", plainTest fun v => pure v.items?.isSome),
   ("true", plainTest fun v => pure (match v with | .bool b => b | _ => false)),
   ("false", plainTest fun v => pure (match v with | .bool b => !b | _ => false))]

end RouteServer.Template.Builtin

import RouteServer.Binary64.Decimal

/-!
# Toml — Basic

TOML values.  A point in time is kept as the text of its one canonical form.
-/

namespace RouteServer

/-- A TOML value. -/
inductive Toml where
  | string (s : String)
  | integer (i : Int)
  | float (x : Binary64)
  | boolean (b : Bool)
  /-- A date, a time, or both. -/
  | moment (text : String)
  | array (items : List Toml)
  | table (entries : List (String × Toml))
  deriving Repr, Inhabited

namespace Toml

open RouteServer.Text

/-- The text of a value that is neither an array nor a table. -/
def text? : Toml → Option String
  | .string s => some s
  | .integer i => some (intText i)
  | .float x => some x.positional
  | .boolean b => some (if b then "true" else "false")
  | .moment text => some text
  | .array _ | .table _ => none

end Toml

end RouteServer

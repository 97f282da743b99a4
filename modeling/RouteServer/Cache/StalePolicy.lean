/-!
# Cache — StalePolicy

What happens when a record has expired and cannot be fetched again.
-/

namespace RouteServer.Cache

/-- What to do with an expired record that cannot be fetched again. -/
inductive StalePolicy where
  /-- The look-up fails. -/
  | fail
  /-- The expired record is used. -/
  | useStale
  deriving DecidableEq, Repr, Inhabited

namespace StalePolicy

/-- All policies. -/
def all : List StalePolicy := [.fail, .useStale]

/-- The text of a policy. -/
def text : StalePolicy → String
  | .fail => "fail"
  | .useStale => "use-stale"

/-- The policy with a text. -/
def ofText? (s : String) : Option StalePolicy := all.find? fun p => p.text = s

/-- The wording for a text that is no policy. -/
def refusal (s : String) : String :=
  "invalid stale policy '" ++ s ++ "': expected 'fail' or 'use-stale'"

end StalePolicy

end RouteServer.Cache

import RouteServer.Files.Tree
import RouteServer.Text.Message

/-!
# Lookup — Failure

Why a look-up fails: a cause, and what was being done when it came up, outermost first.
-/

namespace RouteServer.Lookup

open RouteServer.Text

/-- What is done to a file of the cache. -/
inductive FileAction where
  | write
  | replace
  | remove
  deriving DecidableEq, Repr

/-- The word for an action. -/
def FileAction.text : FileAction → String
  | .write => "write"
  | .replace => "replace"
  | .remove => "remove"

/-- Why a look-up fails. -/
inductive Cause where
  /-- A cause in the words of whoever was asked. -/
  | stated (text : String)
  /-- A text is no JSON, or not the JSON that is wanted. -/
  | notJson
  /-- A request cannot be made. -/
  | noConnection
  /-- The system refuses. -/
  | system (fault : Files.Fault)
  /-- The system refuses something on a file of the cache. -/
  | file (action : FileAction) (path : String) (fault : Files.Fault)
  deriving DecidableEq, Repr

/-- The wording of a cause. -/
def Cause.message : Cause → String
  | .stated text => text
  | .notJson => "unexpected JSON"
  | .noConnection => "no request can be made"
  | .system fault => fault.message
  | .file action path fault =>
    "Failed to " ++ action.text ++ " cache file " ++ quoted path ++ ": " ++ fault.message

/-- A failed look-up. -/
structure Failure where
  /-- What was being done, outermost first. -/
  context : List String := []
  cause : Cause
  deriving DecidableEq, Repr

namespace Failure

/-- The failure within something else that was being done. -/
def within (f : Failure) (doing : String) : Failure := { f with context := doing :: f.context }

/-- The wordings of what was being done and of the cause, outermost first. -/
def chain (f : Failure) : List String := f.context ++ [f.cause.message]

/-- The outermost wording. -/
def headline (f : Failure) : String := f.context.head?.getD f.cause.message

/-- The chain on one line. -/
def text (f : Failure) : String := ": ".intercalate f.chain

end Failure

end RouteServer.Lookup

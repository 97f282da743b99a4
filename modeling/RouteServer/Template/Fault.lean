/-!
# Template — Fault

Why rendering fails.  A fault in an embedded template is wrapped once for each template around it.
-/

namespace RouteServer.Template

/-- Why a template cannot be rendered. -/
inductive Fault where
  /-- A value is used that a look-up has not found. -/
  | undefined
  /-- A template is not well formed. -/
  | malformed
  | templateNotFound
  | unknownFilter
  | unknownTest
  | unknownFunction
  /-- A list of another length is unpacked into names. -/
  | cannotUnpack
  | tooManyArguments
  | missingArgument
  /-- A value does not allow what is done with it. -/
  | invalidOperation (detail : String)
  /-- A fault in an embedded template. -/
  | inEmbedded (cause : Fault)
  deriving DecidableEq, Repr, Inhabited

/-- The wording of a fault. -/
def Fault.message : Fault → String
  | .undefined => "undefined value"
  | .malformed => "syntax error"
  | .templateNotFound => "template not found"
  | .unknownFilter => "unknown filter"
  | .unknownTest => "unknown test"
  | .unknownFunction => "unknown function"
  | .cannotUnpack => "cannot unpack"
  | .tooManyArguments => "too many arguments"
  | .missingArgument => "missing argument"
  | .invalidOperation detail => "invalid operation: " ++ detail
  | .inEmbedded cause => "could not render include: " ++ cause.message

/-- The fault and those it wraps, outermost first. -/
def Fault.chain : Fault → List Fault
  | .inEmbedded cause => .inEmbedded cause :: cause.chain
  | f => [f]

end RouteServer.Template

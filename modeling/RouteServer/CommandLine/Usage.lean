import RouteServer.Text.Split

/-!
# CommandLine — Usage

Reading the arguments of a command: options up to the name of a command below it, or up to the end.

An option has a long name (`--output`), and may have a short one (`-o`).  Its value follows an
equals sign or stands in the next argument, and that of a short one may also follow at once; a value
in an argument of its own does not start with a hyphen.  Short options without values may share a
hyphen.
-/

namespace RouteServer.CommandLine

open RouteServer.Text

/-- What an option takes. -/
inductive Taking where
  /-- Nothing: it is there or not. -/
  | nothing
  /-- A value that passes. -/
  | value (accepts : String → Bool)
  /-- Values, which may be given one after the other. -/
  | values

/-- An option. -/
structure Opt where
  name : String
  letter : Option Char := none
  taking : Taking := .nothing

namespace Opt

/-- Whether an option has a value. -/
def takesValue (o : Opt) : Bool :=
  match o.taking with
  | .nothing => false
  | .value _ | .values => true

/-- Whether an option may be given more than once. -/
def repeats (o : Opt) : Bool :=
  match o.taking with
  | .values => true
  | .nothing | .value _ => false

/-- Whether an option may have a value. -/
def accepts (o : Opt) (v : String) : Bool :=
  match o.taking with
  | .value accepts => accepts v
  | .nothing | .values => true

end Opt

/-- A command: its options, and the names of the commands below it. -/
structure Grammar where
  options : List Opt
  below : List String := []

/-- Why the arguments of a command are not read to their end. -/
inductive Stop where
  /-- They break the rules. -/
  | misuse
  /-- They ask for a description of the program, or for its version. -/
  | information
  deriving DecidableEq, Repr

/-- The options that are given, in order. -/
abbrev Given := List (String × String)

namespace Given

/-- Whether an option is given. -/
def has (given : Given) (name : String) : Bool := given.any fun g => g.1 = name

/-- The value of an option that is given once. -/
def value? (given : Given) (name : String) : Option String :=
  (given.find? fun g => g.1 = name).map (·.2)

/-- The values of an option that may be given more than once; each may hold several, with commas
between them. -/
def values (given : Given) (name : String) : List String :=
  (given.filter fun g => g.1 = name).flatMap fun g => pieces ',' g.2

end Given

/-- The arguments of one command, read. -/
structure Level where
  given : Given
  /-- The command below, with its arguments. -/
  next : Option (String × List String)

namespace Grammar

/-- The option with a long name. -/
def named? (g : Grammar) (name : String) : Option Opt := g.options.find? fun o => o.name = name

/-- The option with a short name. -/
def lettered? (g : Grammar) (c : Char) : Option Opt := g.options.find? fun o => o.letter = some c

end Grammar

/-- Notes that an option is given. -/
def note (o : Opt) (v : String) (given : Given) : Except Stop Given :=
  if !o.repeats && given.has o.name then .error .misuse
  else if o.accepts v then .ok (given ++ [(o.name, v)])
  else .error .misuse

/-- Whether an argument can be the value of the option in front of it. -/
def canBeValue (arg : String) : Bool := arg = "-" || !startsWith "-" arg

/-- What reading an argument comes to. -/
inductive Read where
  /-- It has been read. -/
  | done (given : Given)
  /-- An option waits for its value. -/
  | waiting (o : Opt) (given : Given)

/-- Reads short options behind their hyphen. -/
def readLetters (g : Grammar) : List Char → Given → Except Stop Read
  | [], given => .ok (.done given)
  | c :: cs, given =>
    match g.lettered? c with
    | none => .error (if c = 'h' ∨ c = 'V' then .information else .misuse)
    | some o =>
      if o.takesValue then
        match cs with
        | [] => .ok (.waiting o given)
        | '=' :: v => (note o (.ofList v) given).map .done
        | v => (note o (.ofList v) given).map .done
      else do readLetters g cs (← note o "" given)

/-- Reads a long option behind its hyphens. -/
def readLong (g : Grammar) (text : List Char) (given : Given) : Except Stop Read :=
  let (name, value) := match splitOnce ['='] text with
    | some (name, v) => (name, some v)
    | none => (text, none)
  let name := String.ofList name
  match g.named? name, value with
  | some o, some v =>
    if o.takesValue then (note o (.ofList v) given).map .done else .error .misuse
  | some o, none => if o.takesValue then .ok (.waiting o given) else (note o "" given).map .done
  | none, none => .error (if name = "help" ∨ name = "version" then .information else .misuse)
  | none, some _ => .error .misuse

/-- Reads one argument that is not the name of a command. -/
def readArgument (g : Grammar) (arg : String) (given : Given) : Except Stop Read :=
  match arg.toList with
  | '-' :: '-' :: text => readLong g text given
  | '-' :: c :: cs => readLetters g (c :: cs) given
  | _ => .error .misuse

/-- Reads the arguments of a command; `waiting` is the option whose value comes next. -/
def readLevel (g : Grammar) : Option Opt → List String → Given → Except Stop Level
  | none, [], given => .ok ⟨given, none⟩
  | some _, [], _ => .error .misuse
  | some o, arg :: args, given =>
    if canBeValue arg then do readLevel g none args (← note o arg given) else .error .misuse
  | none, arg :: args, given =>
    if g.below.contains arg then .ok ⟨given, some (arg, args)⟩
    else if arg = "--" then if args = [] then .ok ⟨given, none⟩ else .error .misuse
    else do
      match ← readArgument g arg given with
      | .done given => readLevel g none args given
      | .waiting o given => readLevel g (some o) args given

end RouteServer.CommandLine

import RouteServer.Build.Builder
import RouteServer.CommandLine.Usage

/-!
# CommandLine — Command

The commands of the program and what their arguments ask for.  A command is reached from the program
by its name, or by the names of its group and its own.  Some options belong to every command and may
stand at any of these places; what is given nearer to the command counts.
-/

namespace RouteServer.CommandLine

open RouteServer.Build RouteServer.Net

/-- What a build is asked for. -/
structure BuildOptions where
  inputs : Inputs
  family : Option Family
  /-- The issues that are warnings only. -/
  ignored : List String
  localFiles : List String
  localFilesDir : Option String
  templateDir : Option String
  templateName : Option String
  liveTests : Bool
  /-- The file for the text; it is printed when there is none. -/
  output : Option String
  /-- The text is neither written nor printed. -/
  testOnly : Bool

/-- What the program is asked for. -/
inductive Command where
  /-- Builds the text for a target. -/
  | build (target : Target) (options : BuildOptions)
  /-- Shows the records of the cache. -/
  | listCache
  /-- Removes records from the cache. -/
  | clearCache (expiredOnly : Bool)
  /-- Shows the settings. -/
  | showSettings (withTemplates : Bool)

/-- A command, with the file of the settings if one is named. -/
structure Invocation where
  settingsFile : Option String
  command : Command

namespace BuildOptions

/-- The family with a number. -/
def family? (text : String) : Option Family :=
  if text = "4" then some .v4 else if text = "6" then some .v6 else none

/-- Whether a text can be a path. -/
def isPath (text : String) : Bool := text ≠ ""

/-- The options of a build. -/
def options : List Opt :=
  [{ name := "general", taking := .value isPath },
   { name := "clients", taking := .value isPath },
   { name := "bogons", taking := .value isPath },
   { name := "asns", taking := .value isPath },
   { name := "roas", taking := .value isPath },
   { name := "ip-ver", taking := .value fun text => (family? text).isSome },
   { name := "ignore-issues", taking := .values },
   { name := "local-files", taking := .values },
   { name := "local-files-dir", taking := .value isPath },
   { name := "template-dir", taking := .value isPath },
   { name := "template-file-name", taking := .value fun _ => true },
   { name := "live-tests" },
   { name := "output", letter := some 'o', taking := .value isPath },
   { name := "test-only" }]

/-- What the options that are given ask for. -/
def ofGiven (given : Given) : BuildOptions :=
  { inputs :=
      { general := .file ((given.value? "general").getD "general.yml")
        bogons := .file ((given.value? "bogons").getD "bogons.yml")
        clients := .file ((given.value? "clients").getD "clients.yml")
        asns := (given.value? "asns").map .file
        roas := (given.value? "roas").map .file }
    family := (given.value? "ip-ver").bind family?
    ignored := given.values "ignore-issues"
    localFiles := given.values "local-files"
    localFilesDir := given.value? "local-files-dir"
    templateDir := given.value? "template-dir"
    templateName := given.value? "template-file-name"
    liveTests := given.has "live-tests"
    output := given.value? "output"
    testOnly := given.has "test-only" }

/-- The arguments of a build: those of the settings, with what is asked for in their place. -/
def arguments (o : BuildOptions) (a : Arguments) : Arguments :=
  { a with
    family := o.family
    ignored := o.ignored
    liveTests := o.liveTests
    localFiles := o.localFiles
    localFilesDir := o.localFilesDir.getD a.localFilesDir
    templateDir := o.templateDir.or a.templateDir
    templateName := o.templateName.getD a.templateName }

end BuildOptions

/-! ### The tree of commands -/

/-- A place in the tree of commands: the program, a group of commands or a command. -/
inductive Place where
  | program
  | build (target : Target)
  | cache
  | listCache
  | clearCache
  | settings
  deriving DecidableEq, Repr

namespace Place

/-- How many names can follow. -/
def depth : Place → Nat
  | .program => 2
  | .cache => 1
  | .build _ | .listCache | .clearCache | .settings => 0

/-- The places below, under their names. -/
def below : Place → List (String × Place)
  | .program =>
    Target.all.map (fun t => (t.name, .build t)) ++ [("cache", .cache), ("config", .settings)]
  | .cache => [("list", .listCache), ("clear", .clearCache)]
  | .build _ | .listCache | .clearCache | .settings => []

/-- The place below with a name. -/
def below? (p : Place) (name : String) : Option Place :=
  (p.below.find? fun entry => entry.1 = name).map (·.2)

/-- Names lead down. -/
theorem depth_lt_of_below? {p q : Place} {name : String} (h : p.below? name = some q) :
    q.depth < p.depth := by
  obtain ⟨entry, found, rfl⟩ := Option.map_eq_some_iff.1 h
  have member : entry ∈ p.below := List.mem_of_find?_eq_some found
  cases p with
  | program =>
    simp only [below, Target.all, List.map_cons, List.map_nil, List.cons_append, List.nil_append,
      List.mem_cons, List.not_mem_nil, or_false] at member
    rcases member with rfl | rfl | rfl | rfl | rfl <;> simp [depth]
  | cache =>
    simp only [below, List.mem_cons, List.not_mem_nil, or_false] at member
    rcases member with rfl | rfl <;> simp [depth]
  | build _ => cases member
  | listCache => cases member
  | clearCache => cases member
  | settings => cases member

/-- The name that asks for a description of a command. -/
def helpName : String := "help"

/-- Whether a place has others below it, and so has descriptions of them. -/
def isGroup (p : Place) : Bool := !p.below.isEmpty

/-- The options that belong to every command. -/
def shared : List Opt :=
  [{ name := "config", letter := some 'c', taking := .value fun _ => true },
   { name := "debug" },
   { name := "quiet", letter := some 'q' }]

/-- The options of a place. -/
def options : Place → List Opt
  | .build _ => BuildOptions.options
  | .clearCache => [{ name := "expired" }]
  | .settings => [{ name := "verbose", letter := some 'v' }]
  | .program | .cache | .listCache => []

/-- What the arguments at a place may be. -/
def grammar (p : Place) : Grammar :=
  { options := shared ++ p.options
    below := p.below.map (·.1) ++ if p.isGroup then [helpName] else [] }

/-- What the options that are given at a place ask for; a group asks for a command below it. -/
def command? (given : Given) : Place → Option Command
  | .build t => some (.build t (.ofGiven given))
  | .listCache => some .listCache
  | .clearCache => some (.clearCache (given.has "expired"))
  | .settings => some (.showSettings (given.has "verbose"))
  | .program | .cache => none

/-- What comes of asking for the description of the place that some names lead to. -/
def describe : Place → List String → Stop
  | _, [] => .information
  | p, name :: names =>
    match p.below? name with
    | some q => q.describe names
    | none => if p.isGroup ∧ name = helpName ∧ names = [] then .information else .misuse

/-- Whether options exclude each other: there cannot be less and more to report. -/
def excluded (given : Given) : Bool := given.has "quiet" && given.has "debug"

/-- Reads the arguments at a place and below it. -/
def read (p : Place) (args : List String) : Except Stop Invocation := do
  let level ← readLevel p.grammar none args []
  let invocation ← match level.next with
    | none =>
      match p.command? level.given with
      | some command => .ok ⟨none, command⟩
      | none => .error .misuse
    | some (name, args) =>
      match _found : p.below? name with
      | some q => q.read args
      | none => .error (if name = helpName then p.describe args else .misuse)
  if excluded level.given then .error .misuse
  else .ok { invocation with
    settingsFile := invocation.settingsFile.or (level.given.value? "config") }
termination_by p.depth
decreasing_by exact depth_lt_of_below? _found

end Place

/-- A line about the commands of the program. -/
def usage : String :=
  "usage: COMMAND [OPTION]..., where COMMAND is one of " ++
    ", ".intercalate (Place.program.below.map (·.1))

/-- What the arguments of the program ask for. -/
def Invocation.read (args : List String) : Except Stop Invocation := Place.program.read args

end RouteServer.CommandLine

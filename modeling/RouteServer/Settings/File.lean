import RouteServer.Settings.Basic
import RouteServer.Toml.Reader

/-!
# Settings — File

Settings from a file and from the environment, which goes before the file.  A file that is missing
is created with every setting commented out.
-/

namespace RouteServer.Settings

open RouteServer.Files RouteServer.Text

/-- What stands in a file that has just been created. -/
def blankFile : String :=
  "\n".intercalate
    ["### rsgen configuration file",
     "",
     "### directory for data used by rsgen",
     "# data_dir = \"~/.rsgen\"",
     "",
     "### cache of IRR and PeeringDB records",
     "# cache_dir = \"~/.rsgen/cache\"",
     "# cache_expiry = \"12h\"",
     "### what to do when a record is expired and can't be fetched again: fail, use-stale",
     "# stale_policy = \"fail\"",
     "",
     "### template directories, one sub-directory per target (bird, openbgpd, ...)",
     "# templates_dir = \"~/.rsgen/templates\"",
     "",
     "### IRR queries",
     "# bgpq3_path = \"bgpq3\"",
     "# bgpq3_host = \"rr.ntt.net\"",
     "# bgpq3_sources = \"RIPE,APNIC,AFRINIC,ARIN,NTTCOM,ALTDB,BBOI,BELL,JPIRR,LEVEL3,RADB," ++
       "RGNET,SAVVIS,TC\"",
     "",
     "# peeringdb_url = \"https://www.peeringdb.com/api\"",
     "# threads = 4",
     ""]

/-- What all variables of the environment that are settings start with, in lower case. -/
def variableStart : String := "rsgen_"

/-- The names of the settings. -/
def names : List String :=
  ["data_dir", "cache_dir", "cache_expiry", "stale_policy", "templates_dir", "bgpq3_path",
   "bgpq3_host", "bgpq3_sources", "peeringdb_url", "threads"]

/-- The variables of the environment for the settings. -/
def variableNames : List String := names.map fun name => (variableStart ++ name).toUpper

/-- The settings of the environment, under their names; the case of a variable does not count. -/
def ofEnvironment (environment : List (String × String)) : List (String × String) :=
  environment.filterMap fun (name, value) =>
    (afterStart variableStart name.toLower).map fun name => (name, value)

/-- What stands under the name of a setting: a text, or something that is none. -/
abbrev Given := Option String

/-- A character of a plain name. -/
def inPlainName (c : Char) : Bool := Toml.inBareKey c

/-- Whether a text goes on with the names and indices of parts. -/
def isPartPath : Nat → List Char → Bool
  | 0, _ => false
  | _, [] => true
  | fuel + 1, '.' :: cs =>
    cs.head?.any inPlainName && isPartPath fuel (cs.dropWhile inPlainName)
  | fuel + 1, '[' :: cs =>
    let index := if cs.head? = some '-' then cs.tail else cs
    let rest := index.dropWhile fun c => (digit? c).isSome
    (index.head?.bind digit?).isSome && rest.head? = some ']' && isPartPath fuel rest.tail
  | _, _ => false

/-- Whether a name means a part of another setting. -/
def isPart (name : String) : Bool :=
  let rest := name.toList.dropWhile inPlainName
  rest ≠ [] && name.toList.head?.any inPlainName && isPartPath (rest.length + 1) rest

/-- What stands under a name when a text is given for it. -/
def givenText (name text : String) : Given := if isPart name then none else some text

/-- The settings of a file, with those of the environment in their place. -/
def merge (file : List (String × Toml)) (environment : List (String × String)) :
    Dictionary Given :=
  .ofList
    (file.map (fun (name, v) => (name, v.text?.bind (givenText name))) ++
     environment.map fun (name, text) => (name, givenText name text))

/-- The settings, which have to be texts. -/
def texts (given : Dictionary Given) : Except Fault (Dictionary String) :=
  match given.entries.mapM fun (name, g) => g.map fun text => (name, text) with
  | some entries => .ok (.ofList entries)
  | none => .error .notText

/-- A path with the ending of the format added to its name. -/
def withEnding (path : String) : String :=
  (if Path.isAbsolute path then "/" else "") ++ "/".intercalate (Path.parts path) ++ ".toml"

/-- The path of the file that is read for a path at which there is something: the one there, or the
one with an ending more. -/
def filePath? (files : Tree) (path : String) : Option String :=
  if files.isFile path then some path
  else if (Path.fileName? path).isNone then none
  else
    let other := withEnding path
    if files.isFile other then some other else none

/-- The places at which the settings are looked for. -/
def places (home : String) (path : Option String) : List String :=
  let path := path.getD (defaultFile home)
  [path, withEnding path]

/-- The settings in the file at a path. -/
def readFile (files : Tree) (path : String) : Except Fault (List (String × Toml)) :=
  match filePath? files path with
  | none => .error .malformed
  | some path =>
    match (files.read path).toOption.bind Toml.read with
    | some entries => .ok entries
    | none => .error .malformed

/-- The path of the file: the one given, or the default one, whose directory is made. -/
def locate (home : String) (path : Option String) (files : Tree) : Except Fault (String × Tree) :=
  match path with
  | some path => .ok (path, files)
  | none =>
    match files.makeDirectories (defaultDataDir home) with
    | .ok files => .ok (defaultFile home, files)
    | .error f => .error (.noDataDirectory f)

/-- The settings of a file, which is created when it is missing. -/
def openFile (path : String) (files : Tree) : Except Fault (List (String × Toml)) × Tree :=
  if files.has path then (readFile files path, files)
  else match files.write path blankFile with
    | .ok files => (.ok [], files)
    | .error f => (.error (.notCreated path f), files)

/-- The settings in effect: `home` is the directory of the user, `path` the file that is asked
for. -/
def load (home : String) (environment : List (String × String)) (path : Option String)
    (files : Tree) : Except Fault Settings × Tree :=
  match locate home path files with
  | .error e => (.error e, files)
  | .ok (path, files) =>
    let (entries, files) := openFile path files
    let settings : Except Fault Settings := do
      let given ← texts (merge (← entries) (ofEnvironment environment))
      ofTexts home given
    (settings, files)

end RouteServer.Settings

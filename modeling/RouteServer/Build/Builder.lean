import RouteServer.Build.Compatibility
import RouteServer.Build.Failure
import RouteServer.Build.Rendering
import RouteServer.Enrich.Pipeline

/-!
# Build — Builder

A build from its documents to its text.  A builder exists only once the arguments, the places and
the documents have been checked, so it always holds a valid configuration.  It completes a copy of
that configuration, compares it with what the target can do and renders it; the text is put out as a
whole or not at all.

Between one run and the next a builder keeps the answers that its cache has found.
-/

namespace RouteServer.Build

open RouteServer.Cache RouteServer.Enrich RouteServer.Files RouteServer.Lookup RouteServer.Policy
open RouteServer.Time

/-- The documents of a build. -/
structure Inputs where
  general : Source
  bogons : Source
  clients : Source
  /-- What is known about networks; the document of the clients when there is none. -/
  asns : Option Source := none
  roas : Option Source := none

namespace Inputs

/-- All documents. -/
def all (i : Inputs) : List Source :=
  [i.general, i.bogons, i.clients] ++ i.asns.toList ++ i.roas.toList

/-- The files of the documents. -/
def paths (i : Inputs) : List String := i.all.filterMap Source.path?

/-- Refuses a document that is not there. -/
def checkExist (i : Inputs) (files : Tree) : Loaded Unit := i.all.forM (Source.checkExists files)

/-- Loads the documents and puts them together. -/
def load (i : Inputs) (files : Tree) : Loaded Configuration := do
  let general ← loadGeneral files i.general
  let bogons ← loadBogons files i.bogons
  let asns ← loadAsns files (i.asns.getD i.clients)
  let clients ← loadClients files i.clients general
  let roas ← i.roas.mapM (loadRoas files)
  .ok (.derive general bogons asns clients roas)

end Inputs

/-- A build that can run. -/
structure Builder where
  target : Target
  arguments : Arguments
  /-- Put together from the documents, and not completed. -/
  configuration : Configuration
  cache : Store
  renderer : Renderer

namespace Builder

/-- The directories of the templates and of the cache, once the arguments that every target has and
the places they name have been checked. -/
def places (a : Arguments) (inputs : Inputs) (files : Tree) : Except Failure (String × String) := do
  let some templates := a.templateDir | .error (.missingArgument "template_dir")
  let some cache := a.cacheDir | .error (.missingArgument "cache_dir")
  if a.threads = 0 then .error (.invalidArgument .noThreads)
  else if !files.isDirectory templates then .error (.missingDirectory templates)
  else
    let template := Path.join templates a.templateName
    if !files.isFile template then .error (.missingFile template)
    else if !files.isDirectory cache then .error (.missingDirectory cache)
    else do
      (inputs.checkExist files).mapError .loading
      .ok (templates, cache)

/-- The cache of a build in a directory, with the files after it has been tried. -/
def openCache (a : Arguments) (dir : String) (files : Tree) : Except Failure (Store × Tree) :=
  let store : Store := { dir, expiry := a.cacheExpiry, stalePolicy := a.stalePolicy }
  let tried : Except NotWritable Tree := do store.checkWritable (← store.makeDirectory files)
  match tried with
  | .ok files => .ok (store, files)
  | .error e => .error (.cacheNotWritable e.dir e.fault)

/-- The builder, once the target, its templates and the documents allow it. -/
def assemble (target : Target) (a : Arguments) (inputs : Inputs) (templates : String)
    (cache : Store)
    (files : Tree) : Except Failure Builder := do
  (a.check target).mapError .invalidArgument
  let helpers := Helper.common a.family ++ Helper.ofTarget a target
  let renderer : Renderer := ⟨files, templates, helpers⟩
  (renderer.check a.templateName).mapError .rendering
  let configuration ← (inputs.load files).mapError .loading
  .ok { target, arguments := a, configuration, cache, renderer }

/-- Checks everything that can be checked before a build runs.  The cache is tried on the way, so
the files are given back. -/
def start (target : Target) (a : Arguments) (inputs : Inputs) (files : Tree) :
    Except Failure Builder × Tree :=
  match places a inputs files with
  | .error e => (.error e, files)
  | .ok (templates, cache) =>
    match openCache a cache files with
    | .error e => (.error e, files)
    | .ok (store, files) => (assemble target a inputs templates store files, files)

/-- How a part of a build ends. -/
structure Outcome (α : Type) where
  result : Except Failure α
  /-- The builder with the answers that have been found. -/
  builder : Builder
  files : Tree
  /-- The questions that the cache could not answer. -/
  asked : List Query

/-- Completes a copy of the configuration with data from outside. -/
def enrich (b : Builder) (sources : Sources) (now : Instant) (files : Tree) :
    Outcome Configuration :=
  let (failures, p) := runPipeline ⟨sources, b.arguments.families, now⟩
    ⟨b.configuration, ⟨b.cache, files⟩, []⟩
  { result := if failures.isEmpty then .ok p.configuration else .error (.enrichment failures)
    builder := { b with cache := p.cache.store }
    files := p.cache.files
    asked := p.asked }

/-- The issues that do not end the build; any other ends it. -/
def checkCompatibility (b : Builder) (c : Configuration) : Except Failure (List Issue) :=
  let issues := b.target.issues c
  match issues.filter fun i => classify i.id b.arguments.ignored = .fatal with
  | [] => .ok issues
  | fatal => .error (.incompatible fatal)

/-- The text for a completed configuration, if the target can do what it asks for. -/
def text (b : Builder) (c : Configuration) : Except Failure String := do
  let _ ← b.checkCompatibility c
  (b.renderer.render b.arguments.templateName
    (context c b.arguments.family b.arguments.liveTests)).mapError .rendering

/-- Runs the build: completes the configuration, compares it with the target and renders it. -/
def render (b : Builder) (sources : Sources) (now : Instant) (files : Tree) : Outcome String :=
  let o := b.enrich sources now files
  { o with result := o.result.bind b.text }

/-- What stands in an output after a build: the text behind what was there, or just what was there
when the build failed. -/
def Outcome.putOut (o : Outcome String) (output : String) : String :=
  match o.result with
  | .ok text => output ++ text
  | .error _ => output

end Builder

end RouteServer.Build

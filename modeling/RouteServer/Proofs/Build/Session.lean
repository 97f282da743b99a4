import RouteServer.Build.Builder
import RouteServer.Proofs.Build.Start
import RouteServer.Proofs.Enrich.Direct

/-!
# Build — sessions over one cache

A *session* (`Session`) is what builds over one cache directory can lead to: the directory starts
empty; a build is started, or refused; a build that is open enriches its configuration, any number
of times and at any time; and the rest of the files changes as it likes.  Documents, targets,
families, expiries and policies are free from build to build, the sources are not.

**Transparency** (`enrich_eq_of_empty`).  Whatever happened in a session, enriching gives what it
would give with an empty cache: the same configuration, or the same failures.

The invariant is that the directory holds, and every open build remembers, only the encoded answers
of the sources, each for the key of its question (`Session.trusted`).
-/

namespace RouteServer.Build

open RouteServer.Cache RouteServer.Enrich RouteServer.Files RouteServer.Lookup RouteServer.Policy
open RouteServer.Time

/-- The open builds and the files that a session over the cache in `dir` can have led to. -/
inductive Session (sources : Sources) (dir : String) : List Builder → Tree → Prop where
  /-- The directory is there and holds nothing. -/
  | empty {t : Tree} : t.names dir = .ok [] → Session sources dir [] t
  /-- A build is started. -/
  | start {bs : List Builder} {t u : Tree} {target : Target} {a : Arguments} {inputs : Inputs}
      {b : Builder} : Session sources dir bs t → a.cacheDir = some dir →
      Builder.start target a inputs t = (.ok b, u) → Session sources dir (b :: bs) u
  /-- A build is refused. -/
  | refuse {bs : List Builder} {t u : Tree} {target : Target} {a : Arguments} {inputs : Inputs}
      {e : Failure} : Session sources dir bs t → a.cacheDir = some dir →
      Builder.start target a inputs t = (.error e, u) → Session sources dir bs u
  /-- An open build enriches its configuration. -/
  | enrich {bs : List Builder} {t : Tree} {b : Builder} (now : Instant) :
      Session sources dir bs t → b ∈ bs →
      Session sources dir ((b.enrich sources now t).builder :: bs) (b.enrich sources now t).files
  /-- Files outside the directory change. -/
  | outside {bs : List Builder} {t u : Tree} : Session sources dir bs t → u.isDirectory dir →
      (∀ name, IsName name → u.node? (Path.join dir name) = t.node? (Path.join dir name)) →
      Session sources dir bs u

/-- The build with nothing remembered. -/
def Builder.forget (b : Builder) : Builder := { b with cache := { b.cache with memo := .empty } }

/-- The writer that every build has. -/
def ownWriter : Nat := 1000000

/-- An open build whose cache is the one in the directory. -/
structure Trusts (sources : Sources) (dir : String) (b : Builder) : Prop where
  dir : b.cache.dir = dir
  writer : b.cache.writer = ownWriter
  memo : Remembers (Kept sources ownWriter) b.cache.memo

namespace Builder

variable {sources : Sources} {dir : String} {t u : Tree}

theorem openCache_spec {right : Right} (a : Arguments) (h : Holds right dir t) :
    ∃ u, openCache a dir t =
        .ok ({ dir, expiry := a.cacheExpiry, stalePolicy := a.stalePolicy }, u) ∧
      Holds right dir u := by
  obtain ⟨u, hu, hholds⟩ := Store.checkWritable_spec
    (s := { dir, expiry := a.cacheExpiry, stalePolicy := a.stalePolicy }) h
  have htried : (newCache a dir).checkWritable t = .ok u := hu
  refine ⟨u, ?_, hholds⟩
  rw [openCache_eq h.isDirectory, htried]
  rfl

/-- A build that is started has the new cache of its arguments. -/
theorem cache_of_assemble {target : Target} {a : Arguments} {inputs : Inputs} {templates : String}
    {s : Store} {b : Builder} (h : assemble target a inputs templates s t = .ok b) :
    b.cache = s := by
  unfold assemble at h
  cases hc : (a.check target).mapError Failure.invalidArgument with
  | error e => rw [hc] at h; cases h
  | ok x =>
      rw [hc] at h
      simp only [bind, Except.bind] at h
      split at h
      · cases h
      · split at h
        · cases h
        · cases h; rfl

theorem cache_of_places {a : Arguments} {inputs : Inputs} {templates cache : String}
    (ha : a.cacheDir = some dir) (h : places a inputs t = .ok (templates, cache)) : cache = dir := by
  have hplace := (places_eq_ok h).2.1
  rw [ha] at hplace
  exact (Option.some.inj hplace).symm

/-- Starting a build leaves what the directory holds alone, and a build that is open then has
nothing remembered. -/
theorem start_spec (target : Target) {a : Arguments} (inputs : Inputs)
    (h : Holds (Kept sources ownWriter) dir t) (ha : a.cacheDir = some dir) :
    Holds (Kept sources ownWriter) dir (start target a inputs t).2 ∧
      ∀ b, (start target a inputs t).1 = .ok b → Trusts sources dir b := by
  unfold start
  cases hp : places a inputs t with
  | error e => exact ⟨h, fun b hb => by cases hb⟩
  | ok p =>
      obtain ⟨templates, cache⟩ := p
      cases cache_of_places ha hp
      obtain ⟨u, hu, hholds⟩ := openCache_spec a h
      simp only [hu]
      refine ⟨hholds, fun b hb => ?_⟩
      have hcache := cache_of_assemble hb
      exact ⟨by rw [hcache], by rw [hcache]; rfl, by rw [hcache]; intro k p hk; cases hk⟩

end Builder

/-- Enriching keeps a build trusting, and its cache right. -/
theorem Builder.enrich_spec {sources : Sources} {dir : String} {t : Tree} {b : Builder}
    (hb : Trusts sources dir b) (ht : Holds (Kept sources ownWriter) dir t) (now : Instant) :
    Trusts sources dir (b.enrich sources now t).builder ∧
      Holds (Kept sources ownWriter) dir (b.enrich sources now t).files ∧
      (b.enrich sources now t).result =
        let done := complete ⟨sources, b.arguments.families, now⟩ b.cache Stage.all b.configuration
        if done.1.isEmpty then .ok done.2 else .error (.enrichment done.1) := by
  have htrusted : Trusted sources ⟨b.cache, t⟩ := by
    refine ⟨?_, ?_⟩
    · rw [hb.writer, hb.dir]; exact ht
    · rw [hb.writer]; exact hb.memo
  obtain ⟨hfail, hconf, hsame, hright⟩ := runStages_spec
    ⟨sources, b.arguments.families, now⟩ Stage.all (p := ⟨b.configuration, ⟨b.cache, t⟩, []⟩)
    htrusted
  have hwriter := hsame.writer_eq.symm.trans hb.writer
  have hdir := hsame.dir_eq.symm.trans hb.dir
  refine ⟨⟨hdir, hwriter, ?_⟩, ?_, ?_⟩
  · have := hright.memo
    rw [hwriter] at this
    exact this
  · have := hright.files
    rw [hwriter, hdir] at this
    exact this
  · unfold Builder.enrich runPipeline
    simp only [hfail, hconf]

/-- **Only right answers are kept.** -/
theorem Session.trusted {sources : Sources} {dir : String} {bs : List Builder} {t : Tree}
    (h : Session sources dir bs t) :
    Holds (Kept sources ownWriter) dir t ∧ ∀ b ∈ bs, Trusts sources dir b := by
  induction h with
  | empty h => exact ⟨Holds.of_names h, fun b hb => by cases hb⟩
  | @start bs t u target a inputs b _ ha hs ih =>
      have hspec := Builder.start_spec target inputs ih.1 ha
      rw [hs] at hspec
      refine ⟨hspec.1, fun c hc => ?_⟩
      rcases List.mem_cons.1 hc with rfl | hc
      · exact hspec.2 c rfl
      · exact ih.2 c hc
  | @refuse bs t u target a inputs e _ ha hs ih =>
      have hspec := Builder.start_spec target inputs ih.1 ha
      rw [hs] at hspec
      exact ⟨hspec.1, ih.2⟩
  | enrich now _ hb ih =>
      obtain ⟨hb', ht', -⟩ := Builder.enrich_spec (ih.2 _ hb) ih.1 now
      refine ⟨ht', fun c hc => ?_⟩
      rcases List.mem_cons.1 hc with rfl | hc
      · exact hb'
      · exact ih.2 c hc
  | outside _ hd he ih => exact ⟨ih.1.congr hd he, ih.2⟩

/-- **Transparency.**  Whatever happened in a session, enriching an open build gives what it would
give with an empty cache, whatever the time is. -/
theorem Session.enrich_eq_of_empty {sources : Sources} {dir : String} {bs : List Builder}
    {t empty : Tree} {b : Builder} (h : Session sources dir bs t) (hb : b ∈ bs)
    (he : empty.names dir = .ok []) (now now' : Instant) :
    (b.enrich sources now t).result = (b.forget.enrich sources now' empty).result := by
  obtain ⟨ht, hbs⟩ := h.trusted
  have hforget : Trusts sources dir b.forget :=
    ⟨(hbs b hb).dir, (hbs b hb).writer, fun key payload hk => by cases hk⟩
  obtain ⟨-, -, hres⟩ := Builder.enrich_spec (hbs b hb) ht now
  obtain ⟨-, -, hres'⟩ := Builder.enrich_spec hforget (Holds.of_names he) now'
  have hsame : b.cache.SameButMemo b.forget.cache := rfl
  have hcomplete := complete_congr ⟨sources, b.arguments.families, now⟩ hsame Stage.all
    b.configuration
  rw [hres, hres', hcomplete]
  rfl

/-! ### A session -/

/-- One client, whose set is registered for its network. -/
def sampleInputs : Inputs where
  general := .value (.ofFields [("cfg", .ofFields
    [("rs_as", .nat 64500), ("router_id", .string "192.0.2.1")])])
  bogons := .value (.ofFields [("bogons", .list [])])
  clients := .value (.ofFields [("clients", .list
    [.ofFields [("asn", .nat 64501), ("ip", .string "192.0.2.2")]])])
  asns := some (.value (.ofFields [("asns", .ofFields [("AS64501", .ofFields
    [("as_sets", .list [.string "AS-SAMPLE"])])])]))

def sampleArguments : Arguments := { templateDir := some "t", cacheDir := some "c" }

/-- A template, and an empty directory for the cache. -/
def sampleTree : Tree :=
  ⟨.ofList [("c", .directory), ("t", .directory), ("t/main.j2", .file (.text ""))]⟩

/-- The set is known, and nothing else. -/
def sampleSources : Sources where
  origins name := if name = "AS-SAMPLE" then .ok [64501] else .error { cause := .noConnection }
  prefixes _ _ := .ok []
  net _ := .ok none

/-- A second run a minute after the first. -/
theorem enrich_again_sample :
    ∃ b t, Builder.start .context sampleArguments sampleInputs sampleTree = (.ok b, t) ∧
      let o := b.enrich sampleSources ⟨0, 0⟩ t
      (o.builder.enrich sampleSources ⟨60, 0⟩ o.files).result =
        (o.builder.forget.enrich sampleSources ⟨60, 0⟩ sampleTree).result := by
  have hs : (Builder.start .context sampleArguments sampleInputs sampleTree).1.toOption.isSome := by
    decide +kernel
  have hempty : sampleTree.names "c" = .ok [] := by rfl
  cases hstart : Builder.start .context sampleArguments sampleInputs sampleTree with
  | mk r t =>
      cases r with
      | error e => rw [hstart] at hs; cases hs
      | ok b =>
          have hopen : Session sampleSources "c" [b] t := (Session.empty hempty).start rfl hstart
          refine ⟨b, t, rfl, ?_⟩
          exact (hopen.enrich ⟨0, 0⟩ List.mem_cons_self).enrich_eq_of_empty
            List.mem_cons_self hempty ⟨60, 0⟩ ⟨60, 0⟩

end RouteServer.Build

import RouteServer.Build.Builder
import RouteServer.Proofs.Build.Session
import RouteServer.Proofs.Enrich.Replay

/-!
# Build — a builder that has completed its configuration

A builder may be called again and again, and between the calls anything may happen to the files, the
sources and the clock (`Builder.Becomes`).

**Stability** (`Builder.stable_of_enrich`).  Once enriching has succeeded, every later call gives the
same configuration and every later rendering the same text or the same failure, and nothing is asked:
each call starts from the configuration as it was loaded, so it raises the same questions, and their
answers are remembered.
-/

namespace RouteServer.Build

open RouteServer.Cache RouteServer.Enrich RouteServer.Files RouteServer.Lookup RouteServer.Policy
open RouteServer.Time

namespace Builder

/-- What the stages of a build are given. -/
def surroundings (b : Builder) (sources : Sources) (now : Instant) : Surroundings :=
  ⟨sources, b.arguments.families, now⟩

/-- Where the stages of a build start: the configuration is that of the documents. -/
def outset (b : Builder) (files : Tree) : Progress := ⟨b.configuration, ⟨b.cache, files⟩, []⟩

variable {b b' : Builder} {sources : Sources} {now : Instant} {files : Tree} {c : Configuration}

theorem enrich_eq_ok_iff : (b.enrich sources now files).result = .ok c ↔
    (runPipeline (b.surroundings sources now) (b.outset files)).1 = [] ∧
      (runPipeline (b.surroundings sources now) (b.outset files)).2.configuration = c := by
  simp only [enrich, surroundings, outset]
  cases runPipeline ⟨sources, b.arguments.families, now⟩ ⟨b.configuration, ⟨b.cache, files⟩, []⟩ with
  | mk failures p => cases failures <;> simp

/-- A template that prints a number, and an empty directory for the cache. -/
def printingTree : Tree :=
  ⟨.ofList [("c", .directory), ("t", .directory),
    ("t/main.j2", .file (.text "\x7b\x7b cfg.rs_as \x7d\x7d"))]⟩

theorem eq_ok_of_toOption {ε α : Type} {r : Except ε α} {x : α} (h : r.toOption = some x) :
    r = .ok x := by
  cases r with
  | error e => cases h
  | ok y => cases h; rfl

/-- A build that asks for what it needs and prints the number; its directories stay. -/
theorem exists_printing :
    ∃ b u c, start .context sampleArguments sampleInputs printingTree = (.ok b, u) ∧
      (b.enrich sampleSources ⟨0, 0⟩ u).result = .ok c ∧ b.text c = .ok "64500" ∧
      (b.enrich sampleSources ⟨0, 0⟩ u).asked ≠ [] ∧
      places sampleArguments sampleInputs (b.enrich sampleSources ⟨0, 0⟩ u).files =
        .ok ("t", "c") := by
  have hruns : (match start .context sampleArguments sampleInputs printingTree with
      | (.ok b, u) =>
        let o := b.enrich sampleSources ⟨0, 0⟩ u
        (o.result.bind b.text).toOption = some "64500" && o.asked ≠ [] &&
          (places sampleArguments sampleInputs o.files).toOption = some ("t", "c")
      | (.error _, _) => false) = true := by
    decide +kernel
  cases hstart : start .context sampleArguments sampleInputs printingTree with
  | mk r u =>
      cases r with
      | error e => rw [hstart] at hruns; cases hruns
      | ok b =>
          rw [hstart] at hruns
          simp only [Bool.and_eq_true, decide_eq_true_eq] at hruns
          obtain ⟨⟨htext, hasked⟩, hplaces⟩ := hruns
          cases hc : (b.enrich sampleSources ⟨0, 0⟩ u).result with
          | error e => rw [hc] at htext; cases htext
          | ok c =>
              rw [hc] at htext
              exact ⟨b, u, c, rfl, hc, eq_ok_of_toOption htext, hasked, eq_ok_of_toOption hplaces⟩

end Builder

end RouteServer.Build

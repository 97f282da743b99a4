import RouteServer.Proofs.Build.Compatibility
import RouteServer.Proofs.Build.Requests
import RouteServer.Proofs.Build.Warm
import RouteServer.Proofs.Files.Apart

/-!
# Build — the whole text or nothing

A build that has been started fails in one of three ways (`Builder.Fails`): a question is not
answered, the target cannot do something that is not ignored, or a template is at fault.  It has a
text exactly when it does not fail (`Builder.exists_text_iff`), and the text is put out only then, as
a whole (`Builder.putOut_of_fails`, `Builder.exists_putOut`).

Of the files, starting and running a build changes nothing but entries of the directory of its cache
(`Builder.changesOnly_start`, `Builder.changesOnly_render`).
-/

namespace RouteServer.Build.Builder

open RouteServer.Cache RouteServer.Enrich RouteServer.Files RouteServer.Lookup RouteServer.Policy
open RouteServer.Time

variable {b : Builder} {sources : Sources} {now : Instant} {files : Tree} {c : Configuration}
variable {text : String}

/-- What the configuration of a build has become when the answers are in, whether or not there are
all of them. -/
def completed (b : Builder) (sources : Sources) (now : Instant) (files : Tree) : Configuration :=
  (runPipeline (b.surroundings sources now) (b.outset files)).2.configuration

/-- The ways in which a build fails. -/
inductive Fails (b : Builder) (sources : Sources) (now : Instant) (files : Tree) : Prop where
  /-- A question that is wanted is not answered. -/
  | unanswered (q : Query) (hwanted : Wanted b.arguments.families b.configuration q)
    (hfails : q.succeeds sources now ⟨b.cache, files⟩ = false)
  /-- The target cannot do something, and that is not ignored. -/
  | incompatible (i : Issue) (hissue : i ∈ b.target.issues (b.completed sources now files))
    (hfatal : classify i.id b.arguments.ignored = .fatal)
  /-- A template is at fault, at whatever place. -/
  | template (fault : Template.Fault)
    (hfault : b.renderer.render b.arguments.templateName
      (context (b.completed sources now files) b.arguments.family b.arguments.liveTests) =
        .error fault)

theorem text_eq_ok_iff : b.text c = .ok text ↔
    (∀ i ∈ b.target.issues c, classify i.id b.arguments.ignored ≠ .fatal) ∧
      b.renderer.render b.arguments.templateName
        (context c b.arguments.family b.arguments.liveTests) = .ok text := by
  rw [← allows_iff, ← isOk_checkCompatibility_iff, Builder.text]
  cases b.checkCompatibility c with
  | error e => simp [bind, Except.bind, Except.isOk, Except.toBool]
  | ok issues => simp [bind, Except.bind, Except.isOk, Except.toBool, mapError_eq_ok]

theorem render_eq_ok_iff : (b.render sources now files).result = .ok text ↔
    (∀ q, Wanted b.arguments.families b.configuration q →
        q.succeeds sources now ⟨b.cache, files⟩) ∧
      b.text (b.completed sources now files) = .ok text := by
  have hanswered : (runPipeline (b.surroundings sources now) (b.outset files)).1 = [] ↔
      ∀ q, Wanted b.arguments.families b.configuration q →
        q.succeeds sources now ⟨b.cache, files⟩ := by
    rw [failures_eq_nil_iff (pairwise_families b.arguments)]
    exact forall_congr' fun q => imp_congr_left mem_questions
  rw [← hanswered]
  constructor
  · intro h
    obtain ⟨c, hc, htext⟩ := Decoded.bind_eq_ok.1 h
    obtain ⟨hnone, rfl⟩ := enrich_eq_ok_iff.1 hc
    exact ⟨hnone, htext⟩
  · rintro ⟨hnone, htext⟩
    exact Decoded.bind_eq_ok.2 ⟨_, enrich_eq_ok_iff.2 ⟨hnone, rfl⟩, htext⟩

/-- **A build has a text exactly when it does not fail.** -/
theorem exists_text_iff :
    (∃ text, (b.render sources now files).result = .ok text) ↔ ¬ b.Fails sources now files := by
  simp only [render_eq_ok_iff, text_eq_ok_iff]
  constructor
  · rintro ⟨text, hanswered, hissues, hrendered⟩ (⟨q, hq, hfails⟩ | ⟨i, hi, hfatal⟩ | ⟨f, hf⟩)
    · exact Bool.false_ne_true (hfails.symm.trans (hanswered q hq))
    · exact hissues i hi hfatal
    · cases hrendered.symm.trans hf
  · intro h
    have hanswered : ∀ q, Wanted b.arguments.families b.configuration q →
        q.succeeds sources now ⟨b.cache, files⟩ := fun q hq =>
      Bool.of_not_eq_false fun hfails => h (.unanswered q hq hfails)
    have hissues : ∀ i ∈ b.target.issues (b.completed sources now files),
        classify i.id b.arguments.ignored ≠ .fatal := fun i hi hfatal =>
      h (.incompatible i hi hfatal)
    cases hrendered : b.renderer.render b.arguments.templateName
        (context (b.completed sources now files) b.arguments.family b.arguments.liveTests) with
    | error f => exact absurd (.template f hrendered) h
    | ok text => exact ⟨text, hanswered, hissues, rfl⟩

theorem exists_error_of_fails (h : b.Fails sources now files) :
    ∃ e, (b.render sources now files).result = .error e := by
  cases hresult : (b.render sources now files).result with
  | error e => exact ⟨e, rfl⟩
  | ok text => exact absurd h (exists_text_iff.1 ⟨text, hresult⟩)

end RouteServer.Build.Builder

import RouteServer.Build.Builder
import RouteServer.Proofs.Files.Path
import RouteServer.Proofs.Shipped.Bird.Main
import RouteServer.Proofs.Shipped.Context
import RouteServer.Proofs.Shipped.OpenBgpd.Main

/-!
# Build — the installed templates

The templates that come with a target, read from a directory that holds them, are the statements
whose texts are known, and the helpers of the target are those that these rely on.  So what a build
writes with them is told for every configuration: `render_bird`, `render_openBgpd`,
`render_context`.

`strictly` is the same environment with one difference: a value that is none is refused where it is
written.  What it renders has no unset option in it.
-/

namespace RouteServer.Build

open RouteServer.Files RouteServer.Net RouteServer.Policy
open RouteServer.Template (Environment Value written?)

/-- The templates of a target lie in a directory as they come with the program. -/
def Installed (files : Tree) (dir : String) (t : Target) : Prop :=
  ∀ e ∈ t.templates, files.read (Path.join dir e.1) = .ok e.2

/-- A tree that holds the templates of a target in a directory `t`, and nothing else. -/
def Target.tree (t : Target) : Tree :=
  ⟨.ofList (("t", .directory) :: t.templates.map fun e => ("t/" ++ e.1, .file (.text e.2)))⟩

theorem installed_tree (t : Target) : Installed t.tree "t" t := by
  intro e he
  cases t with
  | bird =>
      simp only [Target.templates, Shipped.Bird.files, List.mem_cons, List.not_mem_nil,
        or_false] at he
      rcases he with rfl | rfl | rfl | rfl | rfl | rfl | rfl <;> rfl
  | openBgpd =>
      simp only [Target.templates, Shipped.OpenBgpd.files, List.mem_cons, List.not_mem_nil,
        or_false] at he
      rcases he with rfl | rfl | rfl | rfl | rfl <;> rfl
  | context =>
      simp only [Target.templates, Shipped.Context.files, List.mem_cons, List.not_mem_nil,
        or_false] at he
      subst he
      rfl

/-- The templates of a directory with the helpers that a target gives them. -/
def Target.renderer (t : Target) (a : Arguments) (files : Tree) (dir : String) : Renderer :=
  ⟨files, dir, Helper.common a.family ++ Helper.ofTarget a t⟩

/-- What templates are given by their names. -/
def rootOf (c : Configuration) (family : Option Family) (liveTests : Bool) : Template.Bindings :=
  (context c family liveTests).map fun e => (e.1, .ofYaml e.2)

/-- An environment in which nothing is written for none. -/
def strictly (env : Environment) : Environment :=
  { env with
    print := fun v => match v with
      | .none => .error (.invalidOperation "none is written")
      | v => .ok v.text }

section

variable {files : Tree} {dir : String} {t : Target}

theorem pathOf?_name {name : String} (hslash : '/' ∉ name.toList)
    (hsafe : Renderer.isSafePart name = true) :
    Renderer.pathOf? dir name = some (Path.join dir name) := by
  simp [Renderer.pathOf?, Path.pieces_of_noSlash hslash, hsafe]

theorem load_installed (h : Installed files dir t) (hs : List Helper) (root : Template.Bindings)
    (name : String) {text : String} {body : List Template.Stmt}
    (hmem : (name, text) ∈ t.templates) (hslash : '/' ∉ name.toList)
    (hsafe : Renderer.isSafePart name = true) (hparse : Template.parse text = some body) :
    (Renderer.environment ⟨files, dir, hs⟩ root).load name = .ok body := by
  simp [Renderer.environment, Renderer.load, pathOf?_name hslash hsafe, h _ hmem, hparse]

open Shipped.Bird in
theorem birdLoads (h : Installed files dir .bird) (hs : List Helper) (root : Template.Bindings) :
    Shipped.Bird.Loads (Renderer.environment ⟨files, dir, hs⟩ root) where
  main := load_installed h hs root "main.j2" (by simp [Target.templates, Shipped.Bird.files])
    (by decide) (by decide) parse_mainTemplate
  bogons := load_installed h hs root "bogons.j2" (by simp [Target.templates, Shipped.Bird.files])
    (by decide) (by decide) parse_bogons
  sets := load_installed h hs root "irrdb.j2" (by simp [Target.templates, Shipped.Bird.files])
    (by decide) (by decide) parse_irrdb
  roas := load_installed h hs root "rpki.j2" (by simp [Target.templates, Shipped.Bird.files])
    (by decide) (by decide) parse_rpki
  macros := load_installed h hs root "macros.j2" (by simp [Target.templates, Shipped.Bird.files])
    (by decide) (by decide) parse_macros
  filters := load_installed h hs root "filters.j2" (by simp [Target.templates, Shipped.Bird.files])
    (by decide) (by decide) parse_filters
  clients := load_installed h hs root "clients.j2" (by simp [Target.templates, Shipped.Bird.files])
    (by decide) (by decide) parse_clients

open Shipped.OpenBgpd in
theorem openBgpdLoads (h : Installed files dir .openBgpd) (hs : List Helper)
    (root : Template.Bindings) :
    Shipped.OpenBgpd.Loads (Renderer.environment ⟨files, dir, hs⟩ root) where
  main := load_installed h hs root "main.j2" (by simp [Target.templates, Shipped.OpenBgpd.files])
    (by decide) (by decide) parse_mainTemplate
  bogons := load_installed h hs root "bogons.j2"
    (by simp [Target.templates, Shipped.OpenBgpd.files]) (by decide) (by decide) parse_bogons
  sets := load_installed h hs root "irrdb.j2" (by simp [Target.templates, Shipped.OpenBgpd.files])
    (by decide) (by decide) parse_irrdb
  filters := load_installed h hs root "filters.j2"
    (by simp [Target.templates, Shipped.OpenBgpd.files]) (by decide) (by decide) parse_filters
  clients := load_installed h hs root "clients.j2"
    (by simp [Target.templates, Shipped.OpenBgpd.files]) (by decide) (by decide) parse_clients

/-- Refusing to write none leaves the templates as they are. -/
theorem birdLoads_strictly {env : Environment} (h : Shipped.Bird.Loads env) :
    Shipped.Bird.Loads (strictly env) :=
  ⟨h.main, h.bogons, h.sets, h.roas, h.macros, h.filters, h.clients⟩

theorem openBgpdLoads_strictly {env : Environment} (h : Shipped.OpenBgpd.Loads env) :
    Shipped.OpenBgpd.Loads (strictly env) :=
  ⟨h.main, h.bogons, h.sets, h.filters, h.clients⟩

end

/-! ### Helpers -/

section

variable {env : Environment} {family : Option Family}

/-- An environment that refuses to write none serves as well. -/
theorem Serves.strictly (h : Serves env family) : Serves (strictly env) family where
  current := h.current
  isNone := h.isNone
  isSet := h.isSet
  version := h.version
  join := h.join
  replace := h.replace
  items := h.items
  string _ := rfl
  nat _ := rfl

theorem servesFiles_strictly {a : Arguments} (h : Shipped.OpenBgpd.ServesFiles env a) :
    Shipped.OpenBgpd.ServesFiles (strictly env) a where
  toServes := h.toServes.strictly
  localFile := h.localFile
  spaced := h.spaced

variable (a : Arguments) (files : Tree) (dir : String) (t : Target) (root : Template.Bindings)

theorem serves : Serves ((t.renderer a files dir).environment root) a.family := by
  cases t <;> constructor <;>
    simp [Target.renderer, Renderer.environment, Helper.common, Helper.ofTarget, Helper.filters,
      Helper.tests, Template.Builtin.filters, Template.Builtin.tests, List.lookup_cons, written?]
  all_goals (try intro) <;> rfl

theorem servesFiles :
    Shipped.OpenBgpd.ServesFiles ((Target.openBgpd.renderer a files dir).environment root) a where
  toServes := serves a files dir .openBgpd root
  localFile := by
    simp [Target.renderer, Renderer.environment, Helper.common, Helper.ofTarget, Helper.filters,
      List.lookup_cons]
  spaced := by
    simp [Target.renderer, Renderer.environment, Helper.common, Helper.ofTarget, Helper.filters,
      List.lookup_cons]

end

/-! ### What is written -/

section

variable {a : Arguments} {files : Tree} {dir : String}

/-- A build for BIRD is for one family. -/
theorem family_of_check (h : a.check .bird = .ok ()) : ∃ f, a.family = some f := by
  cases hf : a.family with
  | some f => exact ⟨f, rfl⟩
  | none => simp [Arguments.check, hf] at h

/-- **Rendering for BIRD**, for every configuration. -/
theorem render_bird {f : Family} (hf : a.family = some f) (h : Installed files dir .bird)
    (c : Configuration) (liveTests : Bool) :
    (Target.bird.renderer a files dir).render "main.j2" (context c a.family liveTests) =
      Shipped.Bird.outcome f c := by
  have hserves := serves a files dir .bird (rootOf c a.family liveTests)
  rw [hf] at hserves ⊢
  exact Shipped.Bird.render_eq hserves (birdLoads h _ _) (told_root c (some f) liveTests)
    (hserves.writesNextHop_of_none rfl)

/-- **Rendering for OpenBGPD**, for every configuration. -/
theorem render_openBgpd (h : Installed files dir .openBgpd) (c : Configuration) (liveTests : Bool) :
    (Target.openBgpd.renderer a files dir).render "main.j2" (context c a.family liveTests) =
      Shipped.OpenBgpd.outcome a c :=
  Shipped.OpenBgpd.render_eq (servesFiles a files dir _) (openBgpdLoads h _ _)
    (told_root c a.family liveTests)
    fun _ => (serves a files dir .openBgpd _).writesNextHop_of_none rfl

/-- **Rendering the context**, for every configuration. -/
theorem render_context (h : Installed files dir .context) (c : Configuration) (liveTests : Bool) :
    (Target.context.renderer a files dir).render "main.j2" (context c a.family liveTests) =
      .ok (String.join (Shipped.Context.fullText c a.family liveTests)) :=
  Shipped.Context.render_eq
    (load_installed h _ _ "main.j2" (by simp [Target.templates, Shipped.Context.files])
      (by decide) (by decide) Shipped.Context.parse_mainTemplate)
    (by simp [Target.renderer, Renderer.environment, Helper.common, Helper.ofTarget, Helper.filters,
      List.lookup_cons])
    (serves a files dir .context _).string rfl

end

end RouteServer.Build

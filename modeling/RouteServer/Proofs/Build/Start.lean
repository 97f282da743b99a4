import RouteServer.Build.Builder
import RouteServer.Proofs.Cache.Recall
import RouteServer.Proofs.Files.Apart
import RouteServer.Proofs.Policy.Decoded

/-!
# Build — a build that is started

A configuration that has been loaded is put together from documents each of which has been accepted
on its own (`Loads`).

What it takes to start a build (`Builder.Starts`), and what it reads besides its cache: the places of
the arguments, the documents and the templates.  Where it finds them as before (`SameInputs`), it can
be started again with the same configuration (`Builder.Starts.again`).
-/

namespace RouteServer.Policy

open RouteServer.Files RouteServer.Yaml

/-! ### Documents that are read again -/

variable {t t' : Tree}

/-- A document whose file reads as before is read as before. -/
theorem Source.read_again {s : Source} (h : ∀ path, s.path? = some path → t'.read path = t.read path)
    {document : DocumentKind} {v : Value} (hv : s.read t document = .ok v) :
    s.read t' document = .ok v := by
  cases s with
  | value w => exact hv
  | file path =>
      obtain ⟨_, _, hv⟩ := Decoded.bind_eq_ok.1 hv
      have hread := h path rfl
      cases htext : t.read path with
      | error fault => rw [htext] at hv; cases hv
      | ok text =>
          rw [htext] at hread hv
          have hfile : t'.isFile path = true := by
            rw [Tree.isFile, Tree.read_eq_ok_iff.1 hread]
          simp only [Source.read, Source.checkExists, hfile, if_true, hread]
          exact hv

theorem Source.bind_read_again {s : Source}
    (h : ∀ path, s.path? = some path → t'.read path = t.read path) {document : DocumentKind}
    {α : Type} {accept : Value → Loaded α} {x : α} (hx : s.read t document >>= accept = .ok x) :
    s.read t' document >>= accept = .ok x := by
  obtain ⟨v, hv, hx⟩ := Decoded.bind_eq_ok.1 hx
  exact Decoded.bind_eq_ok.2 ⟨v, read_again h hv, hx⟩

end RouteServer.Policy

namespace RouteServer.Build

open RouteServer.Cache RouteServer.Enrich RouteServer.Files RouteServer.Lookup RouteServer.Policy
open RouteServer.Time

/-! ### What is loaded -/

/-- How a configuration comes from the documents of a build. -/
structure Loads (inputs : Inputs) (files : Tree) (c : Configuration) where
  general : General
  bogons : List Bogon
  asns : Dictionary AsnInfo
  clients : List Client
  roas : Option (List Roa)
  loadGeneral_eq : loadGeneral files inputs.general = .ok general
  loadBogons_eq : loadBogons files inputs.bogons = .ok bogons
  loadClients_eq : loadClients files inputs.clients general = .ok clients
  eq_derive : c = .derive general bogons asns clients roas

theorem loads_of_load {inputs : Inputs} {files : Tree} {c : Configuration}
    (h : inputs.load files = .ok c) : Nonempty (Loads inputs files c) := by
  unfold Inputs.load at h
  cases hg : loadGeneral files inputs.general with
  | error e => rw [hg] at h; cases h
  | ok general =>
  cases hb : loadBogons files inputs.bogons with
  | error e => rw [hg, hb] at h; cases h
  | ok bogons =>
  cases ha : loadAsns files (inputs.asns.getD inputs.clients) with
  | error e => rw [hg, hb, ha] at h; cases h
  | ok asns =>
  cases hc : loadClients files inputs.clients general with
  | error e =>
      rw [hg, hb, ha] at h
      simp only [bind, Except.bind, hc] at h
      cases h
  | ok clients =>
      rw [hg, hb, ha] at h
      simp only [bind, Except.bind, hc] at h
      split at h
      · cases h
      case h_2 roas _ =>
          cases h
          exact ⟨⟨general, bogons, asns, clients, roas, hg, hb, hc, rfl⟩⟩

/-- Nothing has been looked up yet. -/
theorem asSets_of_load {inputs : Inputs} {files : Tree} {c : Configuration}
    (h : inputs.load files = .ok c) : c.asSets = .empty := by
  obtain ⟨loads⟩ := loads_of_load h
  rw [loads.eq_derive]
  rfl

/-! ### Loading again -/

variable {t t' u : Tree} {a : Arguments} {inputs : Inputs} {dir : String} {c : Configuration}

theorem Inputs.load_again (h : ∀ path ∈ inputs.paths, t'.read path = t.read path)
    (hc : inputs.load t = .ok c) : inputs.load t' = .ok c := by
  have hsource : ∀ s ∈ inputs.all, ∀ path, s.path? = some path → t'.read path = t.read path :=
    fun s hs path hp => h path (List.mem_filterMap.2 ⟨s, hs, hp⟩)
  have hasns : inputs.asns.getD inputs.clients ∈ inputs.all := by
    unfold Inputs.all
    cases inputs.asns <;> simp
  obtain ⟨general, hgeneral, hc⟩ := Decoded.bind_eq_ok.1 hc
  obtain ⟨bogons, hbogons, hc⟩ := Decoded.bind_eq_ok.1 hc
  obtain ⟨asns, hloaded, hc⟩ := Decoded.bind_eq_ok.1 hc
  obtain ⟨clients, hclients, hc⟩ := Decoded.bind_eq_ok.1 hc
  obtain ⟨roas, hroas, hc⟩ := Decoded.bind_eq_ok.1 hc
  refine Decoded.bind_eq_ok.2 ⟨general, Source.bind_read_again (hsource _ ?_) hgeneral, ?_⟩
  · simp [Inputs.all]
  refine Decoded.bind_eq_ok.2 ⟨bogons, Source.bind_read_again (hsource _ ?_) hbogons, ?_⟩
  · simp [Inputs.all]
  refine Decoded.bind_eq_ok.2 ⟨asns, Source.bind_read_again (hsource _ hasns) hloaded, ?_⟩
  refine Decoded.bind_eq_ok.2 ⟨clients, Source.bind_read_again (hsource _ ?_) hclients, ?_⟩
  · simp [Inputs.all]
  refine Decoded.bind_eq_ok.2 ⟨roas, ?_, hc⟩
  cases hs : inputs.roas with
  | none => rw [hs] at hroas; exact hroas
  | some s =>
      rw [hs] at hroas
      have hmem : s ∈ inputs.all := by simp [Inputs.all, hs]
      obtain ⟨x, hx, hroas⟩ := Decoded.bind_eq_ok.1 hroas
      exact Decoded.bind_eq_ok.2 ⟨x, Source.bind_read_again (hsource s hmem) hx, hroas⟩

/-! ### Starting again -/

/-- A build finds in `t'` what it found when it was started in `t` and loaded from `u`: the places
of the arguments, the documents and the templates. -/
structure SameInputs (a : Arguments) (inputs : Inputs) (t u t' : Tree) : Prop where
  places : Builder.places a inputs t' = Builder.places a inputs t
  documents : ∀ path ∈ inputs.paths, t'.read path = u.read path
  templates : ∀ dir name path, a.templateDir = some dir → Renderer.pathOf? dir name = some path →
    t'.read path = u.read path

theorem Renderer.load_again {helpers : List Helper}
    (h : ∀ name path, Renderer.pathOf? dir name = some path → t'.read path = t.read path) :
    Renderer.load ⟨t', dir, helpers⟩ = Renderer.load ⟨t, dir, helpers⟩ := by
  funext name
  unfold Renderer.load
  cases hp : Renderer.pathOf? dir name with
  | none => rfl
  | some path => simp only [h name path hp]

/-- A part of a template's name leads nowhere or further down. -/
theorem Renderer.parts_join {part : String} (hd : dir ≠ "") (hslash : '/' ∉ part.toList)
    (hsafe : Renderer.isSafePart part) :
    Path.join dir part ≠ "" ∧
      ∃ rest, Path.parts (Path.join dir part) = Path.parts dir ++ rest ∧ ".." ∉ rest := by
  have hlead : Text.startsWith "." part = false := by
    simp only [Renderer.isSafePart, Bool.not_or, Bool.and_eq_true, Bool.not_eq_true'] at hsafe
    exact hsafe.1
  by_cases he : part = ""
  · subst he
    have hparts := Path.parts_append_slash dir ""
    rw [String.append_empty] at hparts
    unfold Path.join
    rw [if_neg (by decide), if_neg hd]
    split
    · exact ⟨by simpa using hd, [], by simp, List.not_mem_nil⟩
    · refine ⟨by simp, [], ?_, List.not_mem_nil⟩
      rw [String.append_empty, hparts]
      rfl
  · have hname : IsName part := by
      refine ⟨hslash, he, ?_, ?_⟩ <;> rintro rfl <;> exact absurd hlead (by decide)
    refine ⟨Path.join_ne_empty hname, [part], Path.parts_join dir hname, ?_⟩
    rw [List.mem_singleton]
    exact hname.ne_dots.symm

namespace Builder

/-- The cache of a build in a directory, with nothing remembered. -/
def newCache (a : Arguments) (dir : String) : Store :=
  { dir, expiry := a.cacheExpiry, stalePolicy := a.stalePolicy }

theorem places_eq_ok {templates : String} (h : places a inputs t = .ok (templates, dir)) :
    a.templateDir = some templates ∧ a.cacheDir = some dir ∧ t.isDirectory dir := by
  unfold places at h
  cases htemplates : a.templateDir with
  | none => rw [htemplates] at h; cases h
  | some templates' =>
  cases hcache : a.cacheDir with
  | none => rw [htemplates, hcache] at h; cases h
  | some dir' =>
      simp only [htemplates, hcache] at h
      split at h
      · cases h
      split at h
      · cases h
      split at h
      · cases h
      split at h
      · cases h
      case isFalse hdir =>
          obtain ⟨_, -, h⟩ := Decoded.bind_eq_ok.1 h
          cases h
          exact ⟨rfl, rfl, by simpa using hdir⟩

/-- The templates of a build with its helpers. -/
def newRenderer (target : Target) (a : Arguments) (templates : String) (files : Tree) : Renderer :=
  ⟨files, templates, Helper.common a.family ++ Helper.ofTarget a target⟩

/-- A cache is opened by trying its directory. -/
theorem openCache_eq (hd : t.isDirectory dir) :
    openCache a dir t = match (newCache a dir).checkWritable t with
      | .ok files => .ok (newCache a dir, files)
      | .error e => .error (.cacheNotWritable e.dir e.fault) := by
  unfold openCache
  simp only [Store.makeDirectory, Tree.makeDirectories_of_isDirectory hd, Except.mapError, bind,
    Except.bind]
  rfl

/-- A build can be started in `t`: its cache, its template and its documents are taken from `u`,
which is `t` after the cache has been tried. -/
structure Starts (target : Target) (a : Arguments) (inputs : Inputs) (templates dir : String)
    (t u : Tree) (c : Configuration) : Prop where
  places : places a inputs t = .ok (templates, dir)
  cache : (newCache a dir).checkWritable t = .ok u
  arguments : a.check target = .ok ()
  template : (newRenderer target a templates u).check a.templateName = .ok ()
  documents : inputs.load u = .ok c

variable {target : Target} {templates : String} {b : Builder}

theorem mapError_eq_ok {ε ε' α : Type} {r : Except ε α} {f : ε → ε'} {x : α} :
    r.mapError f = .ok x ↔ r = .ok x := by
  cases r <;> simp [Except.mapError]

theorem starts_of_start (h : start target a inputs t = (.ok b, u)) :
    ∃ templates dir c, Starts target a inputs templates dir t u c ∧
      b = ⟨target, a, c, newCache a dir, newRenderer target a templates u⟩ := by
  unfold start at h
  cases hp : places a inputs t with
  | error e => rw [hp] at h; cases h
  | ok p =>
  obtain ⟨templates, dir⟩ := p
  rw [hp] at h
  simp only [openCache_eq (places_eq_ok hp).2.2] at h
  cases hc : (newCache a dir).checkWritable t with
  | error e => rw [hc] at h; cases h
  | ok v =>
      simp only [hc, Prod.mk.injEq] at h
      obtain ⟨h, rfl⟩ := h
      obtain ⟨_, harguments, h⟩ := Decoded.bind_eq_ok.1 h
      obtain ⟨_, htemplate, h⟩ := Decoded.bind_eq_ok.1 h
      obtain ⟨c, hdocuments, h⟩ := Decoded.bind_eq_ok.1 h
      cases h
      exact ⟨templates, dir, c, ⟨hp, hc, mapError_eq_ok.1 harguments, mapError_eq_ok.1 htemplate,
        mapError_eq_ok.1 hdocuments⟩, rfl⟩

theorem Starts.start_eq (h : Starts target a inputs templates dir t u c) :
    start target a inputs t =
      (.ok ⟨target, a, c, newCache a dir, newRenderer target a templates u⟩, u) := by
  unfold start
  simp only [h.places, openCache_eq (places_eq_ok h.places).2.2, h.cache]
  refine congrArg (·, u) ?_
  refine Decoded.bind_eq_ok.2 ⟨(), mapError_eq_ok.2 h.arguments, ?_⟩
  refine Decoded.bind_eq_ok.2 ⟨(), mapError_eq_ok.2 h.template, ?_⟩
  exact Decoded.bind_eq_ok.2 ⟨c, mapError_eq_ok.2 h.documents, rfl⟩

theorem Starts.load_eq (h : Starts target a inputs templates dir t u c)
    (hsame : SameInputs a inputs t u t') :
    (newRenderer target a templates t').load = (newRenderer target a templates u).load :=
  Renderer.load_again fun name path => hsame.templates templates name path (places_eq_ok h.places).1

end Builder

end RouteServer.Build

import RouteServer.Proofs.Build.Filters
import RouteServer.Proofs.Build.Total
import RouteServer.Proofs.Shipped.Bird.Options

/-!
# Build — which options of a client are heeded

A client carries route options of its own.  For BIRD they stand in its filters, so that no change of
them goes by without a change of the text.  For OpenBGPD the rules about paths, lengths and next
hops are written once, from the general configuration, and no issue is raised where a client asks for
something else: neither the text nor the issues tell whether it does (`noticed_iff_bird`).
-/

namespace RouteServer.Policy

theorem Client.retune_routeOptions (c : Client) : c.retune c.routeOptions = c := by
  cases hf : c.family <;> simp [Client.retune, Client.routeOptions, Client.lengths, hf]

/-- A configuration with other clients. -/
def Configuration.withClients (c : Configuration) (clients : List Client) : Configuration :=
  { c with clients }

end RouteServer.Policy

namespace RouteServer.Build

open RouteServer.Enrich RouteServer.Files RouteServer.Net RouteServer.Policy

section

variable {c : Configuration} {front back : List Client} {x : Client} {o : RouteOptions}
  {a : Arguments}

/-! ### BIRD -/

section Bird

open Shipped.Bird

variable {f : Family}

/-- The text in front of a client and behind it says nothing about its options. -/
theorem bird_fullText_eq (hx : x.family = f) :
    String.join (fullText f (c.withClients (front ++ x :: back))) =
      String.join (commonText f c ++ ["# clients\n"] ++ (front.flatMap fun y =>
        if y.ip.family = f then clientText f c.general c.roas y else [])) ++
      String.join (clientText f c.general c.roas x) ++
      String.join (back.flatMap fun y =>
        if y.ip.family = f then clientText f c.general c.roas y else []) := by
  have hfamily : x.ip.family = f := hx
  have hcommon : commonText f (c.withClients (front ++ x :: back)) = commonText f c := rfl
  rw [fullText, hcommon]
  simp [clientsText, Configuration.withClients, hfamily, String.append_assoc]

/-- Other options are another text. -/
theorem bird_outcome_ne (hx : x.family = f) (ho : o ≠ x.routeOptions)
    (hc : (lacksTag f (c.withClients (front ++ x :: back))) = false)
    (hc' : (lacksTag f (c.withClients (front ++ x.retune o :: back))) = false) :
    outcome f (c.withClients (front ++ x.retune o :: back)) ≠
      outcome f (c.withClients (front ++ x :: back)) := by
  intro h
  rw [outcome, outcome, hc, hc'] at h
  have htext : String.join (fullText f (c.withClients (front ++ x.retune o :: back))) =
      String.join (fullText f (c.withClients (front ++ x :: back))) := Except.ok.inj h
  rw [bird_fullText_eq (x := x.retune o) hx, bird_fullText_eq hx, String.append_left_inj,
    String.append_right_inj] at htext
  -- the client is retuned by the options that it has
  nth_rewrite 2 [← x.retune_routeOptions] at htext
  exact ho (eq_of_clientText hx htext)

end Bird

/-! ### OpenBGPD -/

section OpenBgpd

open Shipped.OpenBgpd

/-- The text for a client does not depend on its route options. -/
theorem openBgpd_fullText_retune :
    fullText a (c.withClients (front ++ x.retune o :: back)) =
      fullText a (c.withClients (front ++ x :: back)) := by
  have hneighbor : neighborText a c.general (x.retune o) = neighborText a c.general x := rfl
  have hrules : rulesText c.general (x.retune o) = rulesText c.general x := rfl
  have hip : (x.retune o).ip = x.ip := rfl
  simp only [fullText, headText, restText, clientsText, filtersText, clientRulesText,
    Configuration.withClients, List.flatMap_append, List.flatMap_cons, hneighbor, hrules, hip]

theorem openBgpd_faultOf_retune :
    faultOf a (c.withClients (front ++ x.retune o :: back)) =
      faultOf a (c.withClients (front ++ x :: back)) := by
  have hneeds : needsTag a.family c.general (x.retune o) = needsTag a.family c.general x := rfl
  simp only [faultOf, clientsFault, Configuration.withClients, List.any_append, List.any_cons,
    hneeds]
  rfl

/-- Other options are the same text. -/
theorem openBgpd_outcome_retune :
    outcome a (c.withClients (front ++ x.retune o :: back)) =
      outcome a (c.withClients (front ++ x :: back)) := by
  rw [outcome, outcome, openBgpd_faultOf_retune, openBgpd_fullText_retune]

theorem openBgpd_issues_retune :
    Target.openBgpd.issues (c.withClients (front ++ x.retune o :: back)) =
      Target.openBgpd.issues (c.withClients (front ++ x :: back)) := by
  -- the issues list addresses of clients, by properties that route options have no part in
  have haddresses : ∀ p : Client → Bool, p (x.retune o) = p x →
      Compatibility.addressesOf (c.withClients (front ++ x.retune o :: back)) p =
        Compatibility.addressesOf (c.withClients (front ++ x :: back)) p := by
    intro p hp
    have hip : (x.retune o).ip = x.ip := rfl
    cases hx : p x <;>
      simp [Compatibility.addressesOf, Configuration.withClients, List.filter_append, hp, hx, hip]
  have hadd := haddresses (fun client => client.cfg.addPath) rfl
  have hlimits := haddresses Compatibility.hasOddLimitAction rfl
  simp only [Target.issues, Compatibility.ofOpenBgpd, hadd, hlimits]
  rfl

end OpenBgpd

end

/-- The second configuration is the first one, but that one client of the build asks for other
route options. -/
def Retuned (family : Option Family) (c d : Configuration) : Prop :=
  ∃ (front back : List Client) (x : Client) (o : RouteOptions), c.clients = front ++ x :: back ∧
    inBuild family x.ip = true ∧ o ≠ x.routeOptions ∧
    d = c.withClients (front ++ x.retune o :: back)

/-- The issues of a target, or what its templates write, tell two configurations apart. -/
def Noticed (t : Target) (a : Arguments) (files : Tree) (dir : String) (liveTests : Bool)
    (c d : Configuration) : Prop :=
  t.issues d ≠ t.issues c ∨
    (t.renderer a files dir).render "main.j2" (context d a.family liveTests) ≠
      (t.renderer a files dir).render "main.j2" (context c a.family liveTests)

variable {a : Arguments} {files : Tree} {dir : String} {c d : Configuration}

theorem noticed_bird (ha : a.check .bird = .ok ()) (h : Installed files dir .bird)
    (hc : Complete c.general) (hd : Retuned a.family c d) (liveTests : Bool) :
    Noticed .bird a files dir liveTests c d := by
  obtain ⟨front, back, x, o, hx, hbuilt, ho, rfl⟩ := hd
  have hself : c.withClients (front ++ x :: back) = c := by rw [← hx]; rfl
  obtain ⟨f, hf⟩ := family_of_check ha
  have hfamily : x.ip.family = f := by simpa [hf, inBuild] using hbuilt
  have htag : ∀ clients, Shipped.Bird.lacksTag f (c.withClients clients) = false :=
    fun clients => Complete.lacksTag_eq_false (c := c.withClients clients) hc f
  have houtcome := bird_outcome_ne hfamily ho (htag _) (htag (front ++ x.retune o :: back))
  rw [hself] at houtcome
  refine .inr ?_
  rwa [render_bird hf h c, render_bird hf h]

theorem not_noticed_openBgpd (h : Installed files dir .openBgpd) (hd : Retuned a.family c d)
    (liveTests : Bool) : ¬ Noticed .openBgpd a files dir liveTests c d := by
  obtain ⟨front, back, x, o, hx, -, -, rfl⟩ := hd
  have hself : c = c.withClients (front ++ x :: back) := by rw [← hx]; rfl
  have hissues : Target.openBgpd.issues (c.withClients (front ++ x.retune o :: back)) =
      Target.openBgpd.issues c := openBgpd_issues_retune.trans (congrArg _ hself.symm)
  have houtcome : Shipped.OpenBgpd.outcome a (c.withClients (front ++ x.retune o :: back)) =
      Shipped.OpenBgpd.outcome a c := openBgpd_outcome_retune.trans (congrArg _ hself.symm)
  rw [Noticed, render_openBgpd h c, render_openBgpd h]
  exact not_or.2 ⟨not_not.2 hissues, not_not.2 houtcome⟩

/-- **Heeding.**  Where a client asks for other route options, BIRD is told so, and only BIRD: for
OpenBGPD neither the issues nor the text change. -/
theorem noticed_iff_bird {t : Target} (ht : t ≠ .context) (ha : a.check t = .ok ())
    (h : Installed files dir t) (hc : Valid c) (hd : Retuned a.family c d) (liveTests : Bool) :
    Noticed t a files dir liveTests c d ↔ t = .bird := by
  cases t with
  | context => exact absurd rfl ht
  | bird => exact iff_of_true (noticed_bird ha h hc.complete hd liveTests) rfl
  | openBgpd => exact iff_of_false (not_noticed_openBgpd h hd liveTests) nofun

/-! ### A limit for one client -/

/-- One client with options about routes, and nothing that OpenBGPD cannot do. -/
def routeInputs (options : List (String × Yaml.Value)) : Inputs where
  general := .value (.ofFields [("cfg", .ofFields
    [("rs_as", .nat 64500), ("router_id", .string "192.0.2.1"), ("path_hiding", .bool false)])])
  bogons := .value (.ofFields [("bogons", .list [])])
  clients := .value (.ofFields [("clients", .list [.ofFields
    [("asn", .nat 64501), ("ip", .string "192.0.2.2"),
     ("cfg", .ofFields [("filtering", .ofFields options)])]])])
  asns := some (.value (.ofFields [("asns", .ofFields [])]))

/-- The same, but that the clients take paths of at most ten networks. -/
def shortPaths (c : Configuration) : Configuration :=
  c.withClients (c.clients.map fun x => x.retune { x.routeOptions with maxAsPathLen := 10 })

theorem retuned_shortPaths (hc : c.clients.map (fun x => (x.ip.family, x.routeOptions.maxAsPathLen))
      = [(.v4, 32)]) {family : Option Family} (hfamily : family ≠ some .v6) :
    Retuned family c (shortPaths c) := by
  obtain ⟨x, hx, hclient⟩ := List.map_eq_singleton_iff.1 hc
  obtain ⟨hip, hlen⟩ := Prod.mk.inj hclient
  refine ⟨[], [], x, { x.routeOptions with maxAsPathLen := 10 }, hx, ?_, fun h => ?_, ?_⟩
  · rcases family with _ | (_ | _) <;> simp_all [inBuild]
  · have hsame := hlen.symm.trans (congrArg RouteOptions.maxAsPathLen h).symm
    exact absurd hsame (by simp)
  · simp [shortPaths, hx]

theorem exists_retuned :
    ∃ c d, answered (routeInputs []) = some c ∧
      answered (routeInputs [("max_as_path_len", .nat 10)]) = some d ∧
      ∀ family, family ≠ some .v6 → Retuned family c d := by
  have hrun : (answered (routeInputs [])).any fun c => decide
      (answered (routeInputs [("max_as_path_len", .nat 10)]) = some (shortPaths c) ∧
        c.clients.map (fun x => (x.ip.family, x.routeOptions.maxAsPathLen)) = [(.v4, 32)]) := by
    decide +kernel
  cases hc : answered (routeInputs []) with
  | none => rw [hc] at hrun; cases hrun
  | some c =>
      rw [hc] at hrun
      obtain ⟨hshort, hclients⟩ := of_decide_eq_true hrun
      exact ⟨c, shortPaths c, rfl, hshort, fun _ hfamily => retuned_shortPaths hclients hfamily⟩

/-- BIRD is told that a client takes short paths only. -/
theorem noticed_iff_bird_shortPaths :
    ∃ c d, Valid c ∧ Retuned (some .v4) c d ∧
      (Noticed .bird { family := some .v4 } Target.bird.tree "t" false c d ↔
        Target.bird = .bird) := by
  obtain ⟨c, d, hc, -, hretuned⟩ := exists_retuned
  obtain ⟨loaded, p, hload, hrun, rfl⟩ := runPipeline_of_answered hc
  have hvalid := valid_of_run hload hrun
  have hdiffer := hretuned (some .v4) (by decide)
  exact ⟨p.configuration, d, hvalid, hdiffer, noticed_iff_bird (a := { family := some .v4 })
    (by decide) rfl (installed_tree .bird) hvalid hdiffer false⟩

/-- OpenBGPD is not. -/
theorem not_noticed_shortPaths :
    ∃ c d p q, (routeInputs []).load {} = .ok c ∧
      (routeInputs [("max_as_path_len", .nat 10)]).load {} = .ok d ∧
      runPipeline twoSurroundings ⟨c, emptyCache, []⟩ = ([], p) ∧
      runPipeline twoSurroundings ⟨d, emptyCache, []⟩ = ([], q) ∧
      Retuned none p.configuration q.configuration ∧
      ¬ Noticed .openBgpd {} Target.openBgpd.tree "t" false p.configuration q.configuration := by
  obtain ⟨c, d, hc, hd, hretuned⟩ := exists_retuned
  obtain ⟨loaded, p, hload, hrun, rfl⟩ := runPipeline_of_answered hc
  obtain ⟨limited, q, hlimited, hagain, rfl⟩ := runPipeline_of_answered hd
  have hdiffer := hretuned none (by decide)
  exact ⟨loaded, limited, p, q, hload, hlimited, hrun, hagain, hdiffer,
    not_noticed_openBgpd (installed_tree .openBgpd) hdiffer false⟩

end RouteServer.Build

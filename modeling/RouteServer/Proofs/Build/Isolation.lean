import RouteServer.Proofs.Build.Installed

/-!
# Build — one address family

A build for one address family writes nothing about the other one.  What is of the other family can
be left out of a configuration (`onlyFamily`), and the templates give the same text, or end with the
same fault (`render_onlyFamily`).
-/

namespace RouteServer.Policy

open RouteServer.Net

/-- A set with the prefixes of one family. -/
def ResolvedSet.onlyFamily (s : ResolvedSet) (f : Family) : ResolvedSet :=
  { s with prefixes := s.prefixes.filter fun p => p.address.family = f }

/-- A configuration without the clients and prefixes of the other family.  The clients keep their
ids and the sets their keys. -/
def Configuration.onlyFamily (c : Configuration) (f : Family) : Configuration :=
  { c with
    bogons := c.bogons.filter fun b => b.address.family = f
    clients := c.clients.filter fun x => x.ip.family = f
    roas := c.roas.map fun roas => roas.filter fun r => r.address.family = f
    asSets := c.asSets.map fun _ s => s.onlyFamily f }

end RouteServer.Policy

namespace RouteServer.Build

open RouteServer.Files RouteServer.Net RouteServer.Policy

/-- What is left out writes nothing. -/
theorem flatMap_filter_self {α β : Type} (xs : List α) (p : α → Bool) (w : α → List β)
    (h : ∀ x, p x = false → w x = []) : (xs.filter p).flatMap w = xs.flatMap w := by
  induction xs with
  | nil => rfl
  | cons x xs ih =>
      cases hx : p x with
      | true => simp [hx, ih]
      | false => simp [hx, ih, h x hx]

section Bird

open Shipped.Bird

variable (f : Family) (c : Configuration)

theorem bird_bogonsText : bogonsText f (c.onlyFamily f).bogons = bogonsText f c.bogons := by
  simp only [bogonsText, Configuration.onlyFamily]
  rw [flatMap_filter_self]
  intro b hb
  simp [bogonText, of_decide_eq_false hb]

theorem bird_setsText : setsText f (c.onlyFamily f).asSets = setsText f c.asSets := by
  have hset : ∀ id s, setText f id (s.onlyFamily f) = setText f id s := by
    intro id s
    simp only [setText, ResolvedSet.onlyFamily]
    -- the sets keep their keys, so only their prefixes have to be looked at
    rw [flatMap_filter_self]
    intro p hp
    simp [prefixText, of_decide_eq_false hp]
  simp [setsText, Configuration.onlyFamily, Dictionary.map, List.flatMap_map, hset]

theorem bird_roasText (g : General) :
    roasText f g (c.onlyFamily f).roas = roasText f g c.roas := by
  cases hr : c.roas with
  | none => simp [Configuration.onlyFamily, hr, roasText]
  | some roas =>
      have hroas : (roas.filter fun r => r.address.family = f).flatMap (roaText f) =
          roas.flatMap (roaText f) := by
        refine flatMap_filter_self _ _ _ fun r h => ?_
        simp [roaText, of_decide_eq_false h]
      simp [Configuration.onlyFamily, hr, roasText, hroas]

theorem bird_clientText (x : Client) :
    clientText f c.general (c.onlyFamily f).roas x = clientText f c.general c.roas x := by
  simp [clientText, receiveText, roaTestText, Configuration.onlyFamily]

theorem bird_clientsText :
    clientsText f c.general (c.onlyFamily f).roas (c.onlyFamily f).clients =
      clientsText f c.general c.roas c.clients := by
  simp only [clientsText, bird_clientText]
  rw [Configuration.onlyFamily, flatMap_filter_self]
  intro x hx
  simp [of_decide_eq_false hx]

theorem bird_lacksTag : lacksTag f (c.onlyFamily f) = lacksTag f c := by
  simp only [lacksTag, Configuration.onlyFamily, List.any_filter]
  congr 2
  funext x
  simp only [needsTag]
  cases decide (x.ip.family = f) <;> simp

theorem bird_outcome : outcome f (c.onlyFamily f) = outcome f c := by
  have hcommon : commonText f (c.onlyFamily f) = commonText f c := by
    simp only [commonText, bird_bogonsText, bird_setsText]
    rw [show (c.onlyFamily f).general = c.general from rfl, bird_roasText]
  have hfull : fullText f (c.onlyFamily f) = fullText f c := by
    rw [fullText, hcommon, show (c.onlyFamily f).general = c.general from rfl, bird_clientsText]
    rfl
  rw [outcome, bird_lacksTag, hfull]
  rfl

end Bird

section OpenBgpd

open Shipped.OpenBgpd

variable {a : Arguments} {f : Family} (hf : a.family = some f) (c : Configuration)
include hf

theorem inBuild_of_family (x : Address) : inBuild a.family x = decide (x.family = f) := by
  simp [inBuild, hf]

theorem openBgpd_bogonsText :
    bogonsText a.family (c.onlyFamily f).bogons = bogonsText a.family c.bogons := by
  simp only [bogonsText, Configuration.onlyFamily]
  rw [flatMap_filter_self]
  intro b hb
  simp [bogonText, inBuild_of_family hf, of_decide_eq_false hb]

theorem openBgpd_setsText :
    setsText a.family (c.onlyFamily f).asSets = setsText a.family c.asSets := by
  have hset : ∀ id s, setText a.family id (s.onlyFamily f) = setText a.family id s := by
    intro id s
    simp only [setText, ResolvedSet.onlyFamily]
    rw [flatMap_filter_self]
    intro p hp
    simp [prefixText, inBuild_of_family hf, of_decide_eq_false hp]
  simp [setsText, Configuration.onlyFamily, Dictionary.map, List.flatMap_map, hset]

theorem openBgpd_clientsText :
    clientsText a c.general (c.onlyFamily f).clients = clientsText a c.general c.clients := by
  simp only [clientsText, Configuration.onlyFamily]
  rw [flatMap_filter_self]
  intro x hx
  simp [inBuild_of_family hf, of_decide_eq_false hx]

theorem openBgpd_filtersText :
    filtersText a.family c.general (c.onlyFamily f).clients =
      filtersText a.family c.general c.clients := by
  have hrules : clientRulesText a.family c.general (c.onlyFamily f).clients =
      clientRulesText a.family c.general c.clients := by
    simp only [clientRulesText, Configuration.onlyFamily]
    rw [flatMap_filter_self]
    intro x hx
    simp [inBuild_of_family hf, of_decide_eq_false hx]
  rw [filtersText, hrules, filtersText]

theorem openBgpd_faultOf : faultOf a (c.onlyFamily f) = faultOf a c := by
  have hany : (c.onlyFamily f).clients.any (needsTag a.family c.general) =
      c.clients.any (needsTag a.family c.general) := by
    simp only [Configuration.onlyFamily, List.any_filter]
    congr 1
    funext x
    simp only [needsTag, inBuild_of_family hf]
    cases decide (x.ip.family = f) <;> simp
  simp only [faultOf, clientsFault, show (c.onlyFamily f).general = c.general from rfl, hany]

theorem openBgpd_outcome : outcome a (c.onlyFamily f) = outcome a c := by
  have hfull : fullText a (c.onlyFamily f) = fullText a c := by
    have hgeneral : (c.onlyFamily f).general = c.general := rfl
    simp only [fullText, headText, restText, hgeneral, openBgpd_bogonsText hf,
      openBgpd_setsText hf, openBgpd_clientsText hf, openBgpd_filtersText hf]
  rw [outcome, openBgpd_faultOf hf, hfull]
  rfl

end OpenBgpd

/-- **One family.**  What is of the other address family leaves no trace in what is written for a
daemon. -/
theorem render_onlyFamily {t : Target} (ht : t ≠ .context) {a : Arguments} {f : Family}
    (hf : a.family = some f) {files : Tree} {dir : String} (h : Installed files dir t)
    (c : Configuration) (liveTests : Bool) :
    (t.renderer a files dir).render "main.j2" (context (c.onlyFamily f) a.family liveTests) =
      (t.renderer a files dir).render "main.j2" (context c a.family liveTests) := by
  cases t with
  | bird => rw [render_bird hf h, render_bird hf h, bird_outcome]
  | openBgpd => rw [render_openBgpd h, render_openBgpd h, openBgpd_outcome hf]
  | context => exact absurd rfl ht

/-! ### Both families -/

/-- A client, a bogon and a ROA of each family. -/
def mixedInputs : Inputs where
  general := .value (.ofFields [("cfg", .ofFields
    [("rs_as", .nat 64500), ("router_id", .string "192.0.2.1")])])
  bogons := .value (.ofFields [("bogons", .list
    [.ofFields [("prefix", .string "10.0.0.0"), ("length", .nat 8)],
     .ofFields [("prefix", .string "fc00::"), ("length", .nat 7)]])])
  clients := .value (.ofFields [("clients", .list
    [.ofFields [("asn", .nat 64501), ("ip", .string "192.0.2.2")],
     .ofFields [("asn", .nat 64501), ("ip", .string "2001:db8::2")]])])
  asns := some (.value (.ofFields [("asns", .ofFields [])]))
  roas := some (.value (.ofFields [("roas", .list
    [.ofFields [("prefix", .string "192.0.2.0"), ("length", .nat 24), ("max_len", .nat 24),
       ("asn", .nat 64501)],
     .ofFields [("prefix", .string "2001:db8::"), ("length", .nat 32), ("max_len", .nat 48),
       ("asn", .nat 64501)]])]))

/-- A set with a prefix of each family. -/
def mixedSets : Dictionary ResolvedSet :=
  .ofList [("AS_SET_AS64501", ⟨"AS64501", [64501],
    [⟨.v4 0xC0000200, 24, 24, 24⟩, ⟨.v6 0x20010DB8000000000000000000000000, 32, 32, 48⟩]⟩)]

/-- What is of IPv6 is there, and leaves no trace for IPv4. -/
theorem render_onlyFamily_mixed :
    ∃ c, mixedInputs.load {} = .ok c ∧
      let full : Configuration := { c with asSets := mixedSets }
      full.onlyFamily .v4 ≠ full ∧ (full.onlyFamily .v4).clients.length = 1 ∧
        (Target.bird.renderer { family := some .v4 } Target.bird.tree "t").render "main.j2"
            (context (full.onlyFamily .v4) (some .v4) false) =
          (Target.bird.renderer { family := some .v4 } Target.bird.tree "t").render "main.j2"
            (context full (some .v4) false) := by
  have hrun : (mixedInputs.load {}).toOption.any fun c =>
      decide ((c.onlyFamily .v4).clients.length = 1 ∧ c.clients.length = 2) := by
    decide +kernel
  cases hload : mixedInputs.load {} with
  | error e => rw [hload] at hrun; cases hrun
  | ok c =>
      rw [hload] at hrun
      obtain ⟨hone, htwo⟩ := of_decide_eq_true hrun
      refine ⟨c, rfl, fun h => ?_, hone, ?_⟩
      · have hlength := congrArg (fun c => c.clients.length) h
        simp only [htwo] at hlength
        exact absurd (hone.symm.trans hlength) (by decide)
      · exact render_onlyFamily (a := { family := some .v4 }) (by decide) rfl
          (installed_tree .bird) _ false

end RouteServer.Build

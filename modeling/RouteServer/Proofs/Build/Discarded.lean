import RouteServer.Proofs.Build.Stable
import RouteServer.Proofs.Build.Start
import RouteServer.Proofs.Policy.Accepted
import RouteServer.Proofs.Schema.Ignored

/-!
# Build — parts of the documents that have no influence

Two parts of the documents are accepted whatever they say and then dropped: what a community says
about its type and about peers, which is fixed, and in the document of the clients what is known
about networks.

**They have no influence** (`independent_of_discarded`).  Documents that differ in such parts only
are loaded the same way.  What is known about networks is not lost, though: a build without a
document of its own for it reads it from the document of the clients, and next to clients that are
accepted it says what it says alone (`acceptAsns_alone`).  So it can be moved to a document of its
own (`Inputs.Moves`).
-/

namespace RouteServer.Policy

open RouteServer.Files RouteServer.Schema RouteServer.Yaml

section

variable {α : Type} {fields : List Field} {f : Value → Value} {v w : Value}

/-- Values that differ in what their schema ignores are accepted, or refused, alike. -/
theorem accept_congr (h : (Kind.record fields).Ignores f) (hvw : f v = f w)
    (document : DocumentKind) (parent : Option Value) (crossCheck : Value → List Violation)
    (decode : Value → Decoded α) :
    accept document fields parent crossCheck decode v =
      accept document fields parent crossCheck decode w := by
  have hwalk : walk parent fields v "" = walk parent fields w "" := h.walk_congr hvw parent ""
  rw [accept, accept, hwalk]

/-- What follows does not see what it ignores, nor whether there is anything to follow. -/
theorem bind_congr_of_map {x y : Loaded Value} {k : Value → Loaded α}
    (hk : ∀ v w, f v = f w → k v = k w) (h : x.map f = y.map f) : x >>= k = y >>= k := by
  cases x with
  | error e =>
      cases y with
      | error e' => cases h; rfl
      | ok w => cases h
  | ok v =>
      cases y with
      | error e => cases h
      | ok w => exact hk v w (Except.ok.inj h)

end

/-! ### General configurations -/

namespace General

/-- The names under which a community says what is fixed about it. -/
def fixedNames : List String := ["type", "peer_as"]

/-- A general configuration without what is fixed about its communities. -/
def withoutFixed : Value → Value :=
  .under (· = "cfg") (.under (· = "communities") (.under (fun _ => true) (.without fixedNames)))

theorem ignores_community : (Kind.record communityFields).Ignores (.without fixedNames) :=
  ignores_without (by decide) (by decide)

theorem ignores_communities :
    (Kind.record communitiesFields).Ignores (.under (fun _ => true) (.without fixedNames)) := by
  refine ignores_under ignores_community.isNull_eq fun g hg _ => ?_
  obtain ⟨d, -, rfl⟩ := List.mem_map.1 (List.mem_filter.1 hg).1
  exact ignores_community

theorem ignores_withoutFixed : (Kind.record document).Ignores withoutFixed := by
  have hfields : (Kind.record fields).Ignores (.under (· = "communities")
      (.under (fun _ => true) (.without fixedNames))) :=
    ignores_under_field (g := .ofParts "communities" communitiesFields) nodup_fields
      (by simp [fields]) ignores_communities
  exact ignores_under_field (g := ⟨"cfg", .record fields, .required⟩) (by decide)
    List.mem_cons_self hfields

end General

/-- What is fixed about communities makes no difference. -/
theorem loadGeneral_congr {files files' : Tree} {s s' : Source}
    (h : (s.read files .general).map General.withoutFixed =
      (s'.read files' .general).map General.withoutFixed) :
    loadGeneral files s = loadGeneral files' s' :=
  bind_congr_of_map (fun _ _ hvw => accept_congr General.ignores_withoutFixed hvw _ _ _ _) h

/-! ### Clients, and what is known about networks -/

namespace Client

theorem ignores_asns : (Kind.record document).Ignores (.without ["asns"]) :=
  ignores_without (by decide) (by decide)

end Client

/-- What stands next to the clients makes no difference to them. -/
theorem acceptClients_congr {v w : Value} (h : v.without ["asns"] = w.without ["asns"])
    (g : General) : acceptClients g v = acceptClients g w :=
  accept_congr Client.ignores_asns h _ _ _ _

theorem loadClients_congr {files files' : Tree} {s s' : Source}
    (h : (s.read files .clients).map (Value.without ["asns"]) =
      (s'.read files' .clients).map (Value.without ["asns"])) (g : General) :
    loadClients files s g = loadClients files' s' g :=
  bind_congr_of_map (fun _ _ hvw => acceptClients_congr hvw g) h

/-- A document of clients that is accepted has no key that would be refused in a document about
networks. -/
theorem keys_of_acceptClients {g : General} {v : Value} {cs : List Client}
    (h : acceptClients g v = .ok cs) :
    ∃ es, sectionEntries? v = some es ∧
      keyViolations (AsnInfo.document.map Field.name) "" es = [] := by
  have hconforms : Conforms Client.document v :=
    (walk_clean_iff_conforms _ _ _ "").1.1 (accept_eq_ok.1 h).1
  cases hv : sectionEntries? v with
  | none => exact absurd hconforms (not_conforms hv)
  | some es =>
      refine ⟨es, rfl, keyViolations_eq_nil_iff.2 fun e he => ?_⟩
      obtain ⟨f, hf, htext⟩ := ((conforms_iff hv).1 hconforms).1 e he
      have hnames : ∀ f ∈ Client.document, f.name ∈ AsnInfo.document.map Field.name := by decide
      exact ⟨f.name, hnames f hf, htext⟩

/-- **What is known about networks**, next to clients that are accepted, says what it says alone. -/
theorem acceptAsns_alone {g : General} {v known : Value} {cs : List Client}
    (h : acceptClients g v = .ok cs) (hknown : v.get? "asns" = some known) :
    acceptAsns v = acceptAsns (.ofFields [("asns", known)]) := by
  obtain ⟨es, hv, hkeys⟩ := keys_of_acceptClients h
  have hlookup : Value.lookup? "asns" es = some known := by
    cases v with
    | mapping es' => cases hv; exact hknown
    | null => cases hknown
    | _ => cases hv
  have hwalk : walk none AsnInfo.document v "" =
      walk none AsnInfo.document (.ofFields [("asns", known)]) "" := by
    refine walk_record_congr hv rfl ?_ fun f hf => ?_
    · rw [hkeys]
      rfl
    · obtain rfl := List.mem_singleton.1 hf
      unfold Field.walked Field.given?
      rw [hlookup]
      rfl
  rw [acceptAsns, accept, accept, hwalk]

end RouteServer.Policy

namespace RouteServer.Policy

open RouteServer.Files RouteServer.Yaml

variable {files : Tree} {s : Source} {v : Value} {document : DocumentKind}

/-- A value that is read does not depend on what it is read for. -/
theorem Source.read_as (h : s.read files document = .ok v) (document' : DocumentKind) :
    s.read files document' = .ok v := by
  cases s with
  | value w => exact h
  | file path =>
      obtain ⟨_, hexists, h⟩ := Decoded.bind_eq_ok.1 h
      refine Decoded.bind_eq_ok.2 ⟨_, hexists, ?_⟩
      cases htext : files.read path with
      | error fault => rw [htext] at h; cases h
      | ok text =>
          simp only [htext] at h ⊢
          cases hv : Yaml.read text with
          | none => rw [hv] at h; cases h
          | some w => rw [hv] at h; exact h

/-- What can be read is there. -/
theorem Source.checkExists_of_read (h : s.read files document = .ok v) :
    s.checkExists files = .ok () := by
  cases s with
  | value w => rfl
  | file path =>
      obtain ⟨⟨⟩, hexists, -⟩ := Decoded.bind_eq_ok.1 h
      exact hexists

theorem Source.bind_read (h : s.read files document = .ok v) {α : Type} (k : Value → Loaded α) :
    s.read files document >>= k = k v := by
  rw [h]
  rfl

end RouteServer.Policy

namespace RouteServer.Build

open RouteServer.Cache RouteServer.Files RouteServer.Policy RouteServer.Yaml

/-! ### Moving what is known about networks -/

/-- What is known about networks stands in the document of the clients, and `m` has it in a document
of its own.  Everything else is the same, but what is left of it next to the clients does not
matter. -/
structure Inputs.Moves (known : Value) (i m : Inputs) (files : Tree) : Prop where
  general : m.general = i.general
  bogons : m.bogons = i.bogons
  roas : m.roas = i.roas
  alone : i.asns = none
  held : ∃ v, i.clients.read files .clients = .ok v ∧ v.get? "asns" = some known
  rest : (m.clients.read files .clients).map (Value.without ["asns"]) =
    (i.clients.read files .clients).map (Value.without ["asns"])
  moved : ∃ s, m.asns = some s ∧ s.read files .asns = .ok (.ofFields [("asns", known)])

namespace Inputs.Moves

variable {known : Value} {i m : Inputs} {files : Tree}

/-- The same documents are missing. -/
theorem checkExist_eq (h : Moves known i m files) : m.checkExist files = i.checkExist files := by
  obtain ⟨v, hv, -⟩ := h.held
  obtain ⟨s, hs, hread⟩ := h.moved
  have hclients : m.clients.checkExists files = .ok () := by
    cases hw : m.clients.read files .clients with
    | ok w => exact Source.checkExists_of_read hw
    | error e =>
        have hrest := h.rest
        rw [hw, hv] at hrest
        cases hrest
  unfold checkExist all
  simp only [h.general, h.bogons, h.roas, h.alone, hs, Option.toList_some, Option.toList_none,
    List.append_nil, List.cons_append, List.nil_append, List.forM_eq_forM, List.forM_cons, hclients,
    Source.checkExists_of_read hv, Source.checkExists_of_read hread]
  rfl

/-- Either way the same configuration is put together, if there is one. -/
theorem load_iff (h : Moves known i m files) {c : Configuration} :
    i.load files = .ok c ↔ m.load files = .ok c := by
  obtain ⟨v, hv, hknown⟩ := h.held
  obtain ⟨s, hs, hread⟩ := h.moved
  have hclients (g : General) : loadClients files m.clients g = loadClients files i.clients g :=
    loadClients_congr h.rest g
  have hjoined : loadAsns files i.clients = acceptAsns v :=
    Source.bind_read (Source.read_as hv .asns) acceptAsns
  have halone : loadAsns files s = acceptAsns (.ofFields [("asns", known)]) :=
    Source.bind_read hread acceptAsns
  -- where the clients are accepted both documents say the same about networks
  have hasns {g : General} {cs : List Client} (hcs : loadClients files i.clients g = .ok cs) :
      loadAsns files i.clients = loadAsns files s := by
    rw [hjoined, halone]
    exact acceptAsns_alone ((Source.bind_read hv (acceptClients g)).symm.trans hcs) hknown
  simp only [load, h.general, h.bogons, h.roas, h.alone, hs, Option.getD_none, Option.getD_some,
    hclients, Decoded.bind_eq_ok]
  refine exists_congr fun g => and_congr_right fun _ => exists_congr fun bogons =>
    and_congr_right fun _ => exists_congr fun asns => and_congr_left fun hrest => ?_
  obtain ⟨cs, hcs, -⟩ := hrest
  rw [hasns hcs]

end Inputs.Moves

/-! ### Starting with other documents -/

namespace Builder

variable {target : Target} {a : Arguments} {i m : Inputs} {files u : Tree} {b : Builder}

/-- The trees in which a build looks for its documents: the one it is started in, and what is left
of it when the cache has been tried. -/
inductive LooksIn (a : Arguments) (files : Tree) : Tree → Prop
  | start : LooksIn a files files
  | tried {dir : String} {u : Tree} (hdir : a.cacheDir = some dir)
    (h : (newCache a dir).checkWritable files = .ok u) : LooksIn a files u

/-- A build starts with other documents if these are there as well and give the same
configuration. -/
theorem start_of_start (hexist : m.checkExist files = i.checkExist files)
    (hload : ∀ u c, LooksIn a files u → i.load u = .ok c → m.load u = .ok c)
    (h : start target a i files = (.ok b, u)) : start target a m files = (.ok b, u) := by
  obtain ⟨templates, dir, c, hstarts, rfl⟩ := starts_of_start h
  have hplaces : places a m files = .ok (templates, dir) := by
    rw [← hstarts.places]
    simp only [places, hexist]
  have hmoved : Starts target a m templates dir files u c :=
    { hstarts with
      places := hplaces
      documents := hload u c (.tried (places_eq_ok hplaces).2.1 hstarts.cache) hstarts.documents }
  exact hmoved.start_eq

end Builder

/-- **What is discarded has no influence.**  General documents that differ only in what they say
under the type and the peers of communities are loaded the same way, and the same configuration is
put together from them or the same violations are reported.  Documents of clients that differ only in
what is known about networks give the same clients or the same violations.  And a build that reads
what is known about networks from the document of the clients starts just when it does with that part
in a document of its own, with the same configuration and the same files. -/
theorem independent_of_discarded :
    (∀ (files files' : Tree) (s s' : Source),
      (s.read files .general).map General.withoutFixed =
          (s'.read files' .general).map General.withoutFixed →
        loadGeneral files s = loadGeneral files' s' ∧
        ∀ bogons asns clients roas,
          (loadGeneral files s).map (Configuration.derive · bogons asns clients roas) =
            (loadGeneral files' s').map (Configuration.derive · bogons asns clients roas)) ∧
    (∀ (files files' : Tree) (s s' : Source) (g : General),
      (s.read files .clients).map (Value.without ["asns"]) =
          (s'.read files' .clients).map (Value.without ["asns"]) →
        loadClients files s g = loadClients files' s' g) ∧
    ∀ (known : Value) (target : Target) (a : Arguments) (i m : Inputs) (files : Tree),
      (∀ t, Builder.LooksIn a files t → i.Moves known m t) →
        (∀ c, i.load files = .ok c ↔ m.load files = .ok c) ∧
        ∀ b u, Builder.start target a i files = (.ok b, u) ↔
          Builder.start target a m files = (.ok b, u) := by
  refine ⟨fun files files' s s' h => ?_, fun files files' s s' g h => loadClients_congr h g,
    fun known target a i m files h => ⟨fun c => (h files .start).load_iff, fun b u => ?_⟩⟩
  · have hload := loadGeneral_congr h
    exact ⟨hload, fun bogons asns clients roas => by rw [hload]⟩
  · have hexist := (h files .start).checkExist_eq
    exact ⟨Builder.start_of_start hexist fun t c ht => (h t ht).load_iff.1,
      Builder.start_of_start hexist.symm fun t c ht => (h t ht).load_iff.2⟩

/-- A general configuration that says something of its own about a community. -/
def annotated (type peerAs : Value) : Value :=
  .ofFields [("cfg", .ofFields
    [("rs_as", .nat 64500), ("router_id", .string "192.0.2.1"),
     ("communities", .ofFields [("blackholing", .ofFields
       [("type", type), ("std", .string "65535:666"), ("peer_as", peerAs)])])])]

theorem withoutFixed_annotated (type peerAs type' peerAs' : Value) :
    General.withoutFixed (annotated type peerAs) =
      General.withoutFixed (annotated type' peerAs') := by
  simp [General.withoutFixed, General.fixedNames, annotated, Value.ofFields, Value.under,
    Value.without, Value.mapEntries, Value.entriesUnder, Value.entriesWithout, Value.text?,
    Value.untagged]

/-- What is known about the network of the sample's client. -/
def sampleKnown : Value :=
  .ofFields [("AS64501", .ofFields [("as_sets", .list [.string "AS-SAMPLE"])])]

/-- The documents of the sample with what is known about networks next to the clients. -/
def joinedInputs : Inputs :=
  { sampleInputs with
    clients := .value (.ofFields
      [("clients", .list [.ofFields [("asn", .nat 64501), ("ip", .string "192.0.2.2")]]),
       ("asns", sampleKnown)])
    asns := none }

theorem rest_joined (files : Tree) :
    (sampleInputs.clients.read files .clients).map (Value.without ["asns"]) =
      (joinedInputs.clients.read files .clients).map (Value.without ["asns"]) := by
  simp [sampleInputs, joinedInputs, Source.read, Except.map, Value.ofFields, Value.without,
    Value.mapEntries, Value.entriesWithout, Value.text?, Value.untagged]

theorem moves_joined (files : Tree) : joinedInputs.Moves sampleKnown sampleInputs files where
  general := rfl
  bogons := rfl
  roas := rfl
  alone := rfl
  held := ⟨_, rfl, by simp [Value.get?, Value.ofFields, Value.untagged, Value.lookup?, Value.isName]⟩
  rest := rest_joined files
  moved := ⟨_, rfl, rfl⟩

/-- What is said about a community makes no difference, and what is known about networks may stand
next to the clients or in a document of its own. -/
theorem independent_of_discarded_joined :
    (∃ g, loadGeneral {} (.value (annotated (.nat 7) .null)) = .ok g ∧
      loadGeneral {} (.value (annotated (.list [.null]) (.string "all"))) = .ok g ∧
      loadClients {} joinedInputs.clients g = loadClients {} sampleInputs.clients g) ∧
    ∃ b u, Builder.start .context sampleArguments joinedInputs Builder.printingTree = (.ok b, u) ∧
      Builder.start .context sampleArguments sampleInputs Builder.printingTree = (.ok b, u) := by
  obtain ⟨hgeneral, hclients, hmoved⟩ := independent_of_discarded
  have hloads : (loadGeneral {} (.value (annotated (.nat 7) .null))).toOption.isSome := by
    decide +kernel
  obtain ⟨g, hg⟩ := Option.isSome_iff_exists.1 hloads
  have hg := Builder.eq_ok_of_toOption hg
  have hsame := (hgeneral {} {} (.value (annotated (.list [.null]) (.string "all")))
    (.value (annotated (.nat 7) .null)) (congrArg Except.ok (withoutFixed_annotated ..))).1
  obtain ⟨b, u, -, hstart, -⟩ := Builder.exists_printing
  refine ⟨⟨g, hg, hsame.trans hg, hclients {} {} _ _ g (rest_joined {}).symm⟩, b, u, ?_, hstart⟩
  exact ((hmoved _ .context _ joinedInputs _ _ fun t _ => moves_joined t).2 b u).2 hstart

end RouteServer.Build

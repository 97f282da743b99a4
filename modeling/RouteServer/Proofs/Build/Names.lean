import RouteServer.Lookup.Registry
import RouteServer.Policy.Configuration
import RouteServer.Proofs.Build.Requests
import RouteServer.Proofs.Policy.Ids
import RouteServer.Proofs.Policy.Registered
import RouteServer.Proofs.Policy.Rewalked

/-!
# Build — the names that the registries are asked about

The registries are asked by running a program, which gets the name of a set as its last argument.
The names come from the documents, so whoever writes those chooses an argument of a program.

A name of a set that a document has given starts with a letter or a digit, and goes on with these and
a few marks (`IsPlainName`).  This holds of the names of the clients and of what is known about their
networks (`plain_of_clients`, `plain_of_asns`), and of the name that a network has of its own
(`isPlainName_name`).

**Names are plain** (`plain_of_asked`).  Whatever the documents are, if they are accepted a run asks
about plain names only, and so the program never takes one of them for an option.  What it would
answer about other names makes no difference to the run.
-/

namespace RouteServer.Policy

open RouteServer.Net RouteServer.Schema RouteServer.Text RouteServer.Yaml

/-- A text that starts with an ASCII letter or digit and holds only these, hyphens, underscores,
colons and dots. -/
def IsPlainName (name : String) : Prop :=
  ∃ c cs, name.toList = c :: cs ∧ c.isAlphanum = true ∧
    ∀ d ∈ cs, d.isAlphanum = true ∨ d ∈ ['-', '_', ':', '.']

/-- A plain name does not look like an option. -/
theorem IsPlainName.head?_ne {name : String} (h : IsPlainName name) :
    name.toList.head? ≠ some '-' := by
  obtain ⟨c, cs, hname, hc, -⟩ := h
  rw [hname, List.head?_cons]
  rintro ⟨⟩
  exact absurd hc (by decide)

/-! ### Checked names -/

theorem isAlphanum_of_isWordChar {c : Char} (h : AsSet.isWordChar c = true) :
    c.isAlphanum = true := by
  simp only [AsSet.isWordChar, Bool.or_eq_true, Bool.and_eq_true, decide_eq_true_eq] at h
  rcases h with (hdigit | hlower) | hupper
  · have hc : c.isDigit = true :=
      Bool.and_eq_true_iff.2 ⟨decide_eq_true hdigit.1, decide_eq_true hdigit.2⟩
    exact Bool.or_eq_true_iff.2 (.inr hc)
  · have hc : c.isLower = true :=
      Bool.and_eq_true_iff.2 ⟨decide_eq_true hlower.1, decide_eq_true hlower.2⟩
    exact Bool.or_eq_true_iff.2 (.inl (Bool.or_eq_true_iff.2 (.inr hc)))
  · have hc : c.isUpper = true := decide_eq_true hupper
    exact Bool.or_eq_true_iff.2 (.inl (Bool.or_eq_true_iff.2 (.inl hc)))

theorem isPlainName_of_isName {cs : List Char} (h : AsSet.isName cs = true) :
    IsPlainName (String.ofList cs) := by
  obtain ⟨hhead, hall⟩ := Bool.and_eq_true_iff.1 h
  cases cs with
  | nil => cases hhead
  | cons c cs =>
      refine ⟨c, cs, String.toList_ofList, isAlphanum_of_isWordChar hhead, fun d hd => ?_⟩
      have hchar := List.all_eq_true.1 hall d (List.mem_cons_of_mem c hd)
      simp only [AsSet.isNameChar, Bool.or_eq_true, decide_eq_true_eq] at hchar
      rcases hchar with (((hword | rfl) | rfl) | rfl) | rfl
      · exact .inl (isAlphanum_of_isWordChar hword)
      all_goals exact .inr (by decide)

theorem isPlainName_of_checkName {s name : String} (h : AsSet.checkName s = .ok name) :
    IsPlainName name := by
  unfold AsSet.checkName at h
  simp only at h
  split at h
  case isTrue hname => cases h; exact isPlainName_of_isName hname
  case isFalse => cases h

/-- The name of a network can be taken for that of a set. -/
theorem isPlainName_name (n : Asn) : IsPlainName (Asn.name n) := by
  refine ⟨'A', 'S' :: digits n.toNat, ?_, by decide, ?_⟩
  · rw [Asn.name, String.toList_append, Asn.text, toList_natText]
    rfl
  · refine List.forall_mem_cons.2 ⟨.inl (by decide), fun d hd => .inl ?_⟩
    exact forall_mem_digits (p := fun c => c.isAlphanum = true) (by decide) n.toNat d hd

/-! ### The names that documents give -/

section

variable {parent : Option Value} {v : Value}

/-- The names of a list in normal form have been checked. -/
theorem plain_of_settled (h : AsSet.listKind.Settled parent v) {names : List String}
    (hnames : Decoded.list Decoded.string v = .ok names) : ∀ name ∈ names, IsPlainName name := by
  intro name hname
  obtain ⟨xs, rfl, hall⟩ := Decoded.list_eq_ok.1 hnames
  obtain ⟨x, hx, hread⟩ := Decoded.exists_of_forall₂ hall hname
  obtain rfl := Decoded.string_eq_ok.1 hread
  have hsettled := Kind.Settled.items h _ hx
  obtain ⟨s, t, hs, ht⟩ := accepts_text_iff.1 hsettled.accepts
  have hnormal := hsettled.normal_eq
  simp only [Kind.normal, hs, ht, Option.bind_some, Except.toOption, Option.map_some,
    Option.getD_some] at hnormal
  exact Value.string.inj hnormal ▸ isPlainName_of_checkName ht

theorem ClientIrr.asSets_of_ofValue {i : ClientIrr} (h : ofValue v = .ok i) :
    Decoded.list Decoded.string (v.getD "as_sets") = .ok i.asSets := by
  simp only [ofValue, Decoded.bind_eq_ok, Decoded.field] at h
  obtain ⟨asSets, hasSets, _, -, _, -, h⟩ := h
  cases h
  exact hasSets

theorem Client.plain_of_settled {c : Client} (h : (Kind.record fields).Settled parent v)
    (hc : ofValue v = .ok c) : ∀ name ∈ c.cfg.filtering.irr.asSets, IsPlainName name := by
  obtain ⟨-, -, -, -, hcfg⟩ := of_ofValue hc
  obtain ⟨-, -, -, -, hfiltering, -⟩ := ClientOptions.of_ofValue hcfg
  obtain ⟨-, -, -, -, -, hirr, -⟩ := ClientFiltering.of_ofValue hfiltering
  have hoptions := h.field (f := .ofParts "cfg" optionFields) (by decide) (by simp [fields]) rfl rfl
  have hparts := hoptions.field (f := .ofParts "filtering" filteringFields) (by decide)
    (by simp [optionFields]) rfl rfl
  have husage := hparts.field (f := .ofParts "irrdb" irrFields) (by decide)
    (by simp [filteringFields]) rfl rfl
  have hsets := husage.field (f := ⟨"as_sets", AsSet.listKind, .emptyList⟩) (by decide)
    (by simp [irrFields]) rfl rfl
  exact Policy.plain_of_settled hsets (ClientIrr.asSets_of_ofValue hirr)

end

/-- **The names of the clients** are plain. -/
theorem plain_of_clients {g : General} (hg : g.IsValid) {v : Value} {clients : List Client}
    (h : acceptClients g v = .ok clients) :
    ∀ client ∈ clients, ∀ name ∈ client.cfg.filtering.irr.asSets, IsPlainName name := by
  intro client hclient
  obtain ⟨hclean, -, hdecode⟩ := accept_eq_ok.1 h
  have hwalk : (Kind.record Client.document).Normalizes (some g.toValue) v
      (walk (some g.toValue) Client.document v "").1 :=
    (normalizes_iff_walk "").2 (Prod.ext rfl hclean)
  have hsettled := (Client.steady_document hg v _ hwalk).field
    (f := ⟨"clients", .list (.record Client.fields), .emptyList⟩) (by decide)
    (by simp [Client.document]) rfl rfl
  obtain ⟨xs, hxs, hall⟩ := Decoded.list_eq_ok.1 hdecode
  obtain ⟨x, hx, hread⟩ := Decoded.exists_of_forall₂ hall hclient
  rw [hxs] at hsettled
  exact Client.plain_of_settled (hsettled.items x hx) hread

/-- **The names that networks have registered** are plain. -/
theorem plain_of_asns {v : Value} {asns : Dictionary AsnInfo} (h : acceptAsns v = .ok asns)
    {key : String} {info : AsnInfo} (hinfo : asns.get? key = some info) :
    ∀ name ∈ info.asSets, IsPlainName name := by
  obtain ⟨haccepts, hdecode⟩ := AsnInfo.exists_table h
  obtain ⟨fs, hfs, hnames, hmem⟩ := insertAll_eq_named ((AsnInfo.entriesIn v).filterMap fun e =>
    (tableKey AsnInfo.checkKey e.1).toOption.map fun name =>
      (name, (Kind.record AsnInfo.fields).normal none e.2))
  rw [Kind.normal, sectionEntries?, Option.getD_some, hfs] at hdecode
  obtain ⟨w, hw, hread⟩ := (Decoded.get?_dictionary_iff hnames hdecode).1 hinfo
  obtain ⟨e, he, hentry⟩ := List.mem_filterMap.1 (hmem _ hw)
  obtain ⟨name, -, heq⟩ := Option.map_eq_some_iff.1 hentry
  obtain rfl : _ = w := (Prod.mk.inj heq).2
  have hsteady : (Kind.record AsnInfo.fields).Steady none := by
    have hparts : SteadyFields none AsnInfo.fields :=
      .cons (AsSet.steady_listKind.orElse settled_list_nil) steadyFields_nil
    exact hparts.record (by decide)
  have hsets := (hsteady e.2 _ ⟨((accepts_table_iff.1 haccepts) e he).2, rfl⟩).field
    (f := ⟨"as_sets", AsSet.listKind, .emptyList⟩) (by decide) (by simp [AsnInfo.fields]) rfl rfl
  simp only [AsnInfo.ofValue, Decoded.bind_eq_ok, Decoded.field] at hread
  obtain ⟨asSets, hasSets, hread⟩ := hread
  cases hread
  exact plain_of_settled hsets hasSets

end RouteServer.Policy

namespace RouteServer.Enrich

open RouteServer.Files RouteServer.Lookup RouteServer.Net RouteServer.Policy RouteServer.Time

/-- The name of the set that the registries are asked about. -/
def Query.setName? : Query → Option String
  | .origins name | .prefixes name _ => some name
  | .net _ => none

/-- Two sources give the same answers, but perhaps for names of sets that are not plain. -/
structure AgreeOnPlain (s s' : Sources) : Prop where
  origins : ∀ name, IsPlainName name → s.origins name = s'.origins name
  prefixes : ∀ name family, IsPlainName name → s.prefixes name family = s'.prefixes name family
  net : ∀ asn, s.net asn = s'.net asn

theorem AgreeOnPlain.ask_eq {s s' : Sources} (h : AgreeOnPlain s s') {q : Query}
    (hq : ∀ name, q.setName? = some name → IsPlainName name) : q.ask s = q.ask s' := by
  cases q with
  | origins name => exact h.origins name (hq name rfl)
  | prefixes name family => exact h.prefixes name family (hq name rfl)
  | net asn => exact h.net asn

/-! ### Runs -/

/-- Only questions that are put are asked. -/
theorem mem_of_mem_asked {sources : Sources} {now : Instant} {qs : List Query}
    {cache : Cache.State} {q : Query} (h : q ∈ (resolve sources now qs cache).asked) : q ∈ qs := by
  induction qs generalizing cache with
  | nil => cases h
  | cons p qs ih =>
      rw [resolve_cons] at h
      simp only at h
      split at h
      · rcases List.mem_cons.1 h with rfl | h
        · exact List.mem_cons_self
        · exact List.mem_cons_of_mem p (ih h)
      · exact List.mem_cons_of_mem p (ih h)

/-- Sources that give the same answers to the questions cannot be told apart. -/
theorem resolve_congr {s s' : Sources} {now : Instant} {qs : List Query}
    (h : ∀ q ∈ qs, q.ask s = q.ask s') (cache : Cache.State) :
    resolve s now qs cache = resolve s' now qs cache := by
  induction qs generalizing cache with
  | nil => rfl
  | cons q qs ih =>
      obtain ⟨hq, hqs⟩ := List.forall_mem_cons.1 h
      simp only [resolve, hq, ih hqs]

section

variable (s : Surroundings) (p : Progress)

theorem mem_questions_of_asked {q : Query} (h : q ∈ (runPipeline s p).2.asked)
    (hnew : q ∉ p.asked) : q ∈ questions s.families p.configuration := by
  rw [← runPipelineOnly_true, runPipelineOnly_eq, List.filter_true] at h
  exact mem_of_mem_asked ((List.mem_append.1 h).resolve_left hnew)

theorem runPipeline_congr {sources : Sources}
    (h : ∀ q ∈ questions s.families p.configuration, q.ask s.sources = q.ask sources) :
    runPipeline { s with sources } p = runPipeline s p := by
  rw [← runPipelineOnly_true, ← runPipelineOnly_true, runPipelineOnly_eq, runPipelineOnly_eq]
  simp only [List.filter_true]
  rw [resolve_congr h]

end

/-! ### Configurations -/

/-- All names of sets in a configuration are plain. -/
structure PlainNames (c : Configuration) : Prop where
  own : ∀ client ∈ c.clients, ∀ name ∈ client.cfg.filtering.irr.asSets, IsPlainName name
  registered : ∀ key info, c.asns.get? key = some info → ∀ name ∈ info.asSets, IsPlainName name

theorem PlainNames.listed {c : Configuration} (h : PlainNames c) {client : Client}
    (hclient : client ∈ c.clients) : ∀ name ∈ listedNames c client, IsPlainName name := by
  intro name hname
  unfold listedNames at hname
  split at hname
  case h_1 hown => exact h.own client hclient name (hown ▸ hname)
  case h_2 hinfo =>
      obtain ⟨info, hget, hsets⟩ := Option.map_eq_some_iff.1 hinfo
      exact h.registered _ info hget name (hsets ▸ hname)
  case h_3 => exact List.mem_singleton.1 hname ▸ isPlainName_name client.asn

theorem PlainNames.questions {c : Configuration} (h : PlainNames c) {families : List Family}
    {q : Query} (hq : q ∈ questions families c) {name : String} (hname : q.setName? = some name) :
    IsPlainName name := by
  have hneeded : ∃ p, Needed c p name := by
    have hwanted := mem_questions.1 hq
    cases q with
    | origins n => cases hname; exact ⟨_, hwanted⟩
    | prefixes n family => cases hname; exact ⟨_, hwanted.1⟩
    | net asn => cases hname
  obtain ⟨-, client, hclient, -, hlisted⟩ := hneeded
  exact h.listed hclient name hlisted

/-- The names in a configuration that is put together from accepted documents. -/
theorem plainNames_derive {files : Tree} {general asns clients : Source} {g : General}
    {infos : Dictionary AsnInfo} {cs : List Client} (hg : loadGeneral files general = .ok g)
    (ha : loadAsns files asns = .ok infos) (hc : loadClients files clients g = .ok cs)
    (bogons : List Bogon) (roas : Option (List Roa)) :
    PlainNames (.derive g bogons infos cs roas) := by
  obtain ⟨_, -, hgeneral⟩ := Decoded.bind_eq_ok.1 hg
  obtain ⟨_, -, hasns⟩ := Decoded.bind_eq_ok.1 ha
  obtain ⟨_, -, hclients⟩ := Decoded.bind_eq_ok.1 hc
  refine ⟨fun client hclient => ?_, fun key info hinfo => plain_of_asns hasns hinfo⟩
  obtain ⟨d, hd, k, -, rfl⟩ := Client.exists_of_mem_assignIdsFrom client hclient
  exact plain_of_clients (General.isValid_of_accept hgeneral) hclients d hd

end RouteServer.Enrich

namespace RouteServer.Build

open RouteServer.Cache RouteServer.Enrich RouteServer.Files RouteServer.Lookup RouteServer.Policy
open RouteServer.Time

/-- **The registries are asked about plain names only.**  In a run over a configuration that is put
together from accepted documents, every name that the sources are asked about starts with a letter
or a digit and otherwise holds only these and the marks of names, whatever the sources, the families
and the cache.  So as the last argument of the program it never looks like an option.  Sources that
differ in what they say about other names make no difference to the run. -/
theorem plain_of_asked {files : Tree} {general asns clients : Source} {g : General}
    {infos : Dictionary AsnInfo} {cs : List Client} (hg : loadGeneral files general = .ok g)
    (ha : loadAsns files asns = .ok infos) (hc : loadClients files clients g = .ok cs)
    (bogons : List Bogon) (roas : Option (List Roa)) (s : Surroundings) (cache : State) :
    let p : Progress := ⟨.derive g bogons infos cs roas, cache, []⟩
    (∀ name, .origins name ∈ (runPipeline s p).2.asked →
      IsPlainName name ∧ name.toList.head? ≠ some '-' ∧
        ∀ program : RegistryClient, (program.originArguments name).getLast? = some name) ∧
    (∀ name family, .prefixes name family ∈ (runPipeline s p).2.asked →
      IsPlainName name ∧ name.toList.head? ≠ some '-' ∧
        ∀ program : RegistryClient, (program.prefixArguments name family).getLast? = some name) ∧
    ∀ sources, AgreeOnPlain s.sources sources →
      runPipeline { s with sources } p = runPipeline s p := by
  intro p
  have hplain := plainNames_derive hg ha hc bogons roas
  have hasked : ∀ q ∈ (runPipeline s p).2.asked, ∀ name, q.setName? = some name →
      IsPlainName name := fun q hq name hname =>
    hplain.questions (mem_questions_of_asked s p hq List.not_mem_nil) hname
  refine ⟨fun name hname => ?_, fun name family hname => ?_, fun sources hagree => ?_⟩
  · have hsafe := hasked _ hname name rfl
    exact ⟨hsafe, hsafe.head?_ne, fun program => by simp [RegistryClient.originArguments]⟩
  · have hsafe := hasked _ hname name rfl
    exact ⟨hsafe, hsafe.head?_ne, fun program => by simp [RegistryClient.prefixArguments]⟩
  · exact runPipeline_congr s p fun q hq =>
      hagree.ask_eq fun name hname => hplain.questions hq hname

/-- The set of a client and the one that another network has registered are asked about. -/
theorem plain_of_asked_shared :
    ∃ g infos cs, loadGeneral {} sharedInputs.general = .ok g ∧
      loadAsns {} (sharedInputs.asns.getD sharedInputs.clients) = .ok infos ∧
      loadClients {} sharedInputs.clients g = .ok cs ∧
      ∀ name ∈ ["AS-ONE", "AS-SHARED", "AS64503"],
        .prefixes name .v4 ∈ (runPipeline ⟨silentSources, [.v4], ⟨0, 0⟩⟩
          ⟨.derive g [] infos cs none, emptyCache, []⟩).2.asked ∧ IsPlainName name := by
  have hrun : ((loadGeneral {} sharedInputs.general).toOption.any fun g =>
      (loadAsns {} (sharedInputs.asns.getD sharedInputs.clients)).toOption.any fun infos =>
      (loadClients {} sharedInputs.clients g).toOption.any fun cs =>
        decide (∀ name ∈ ["AS-ONE", "AS-SHARED", "AS64503"],
          .prefixes name .v4 ∈ (runPipeline ⟨silentSources, [.v4], ⟨0, 0⟩⟩
            ⟨.derive g [] infos cs none, emptyCache, []⟩).2.asked)) = true := by
    decide +kernel
  cases hg : loadGeneral {} sharedInputs.general with
  | error e => rw [hg] at hrun; cases hrun
  | ok g =>
  cases ha : loadAsns {} (sharedInputs.asns.getD sharedInputs.clients) with
  | error e => rw [hg, ha] at hrun; cases hrun
  | ok infos =>
  cases hc : loadClients {} sharedInputs.clients g with
  | error e =>
      rw [hg, ha, Except.toOption, Except.toOption, Option.any_some, Option.any_some, hc] at hrun
      cases hrun
  | ok cs =>
      rw [hg, ha, Except.toOption, Except.toOption, Option.any_some, Option.any_some, hc,
        Except.toOption, Option.any_some] at hrun
      have hasked := of_decide_eq_true hrun
      refine ⟨g, infos, cs, rfl, rfl, hc, fun name hname => ⟨hasked name hname, ?_⟩⟩
      exact ((plain_of_asked hg ha hc [] none ⟨silentSources, [.v4], ⟨0, 0⟩⟩ emptyCache).2.1 name .v4
        (hasked name hname)).1

end RouteServer.Build

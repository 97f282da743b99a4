import RouteServer.Proofs.Shipped.Bird.Text

/-!
# Shipped — Bird — clients
-/

namespace RouteServer.Shipped.Bird

open RouteServer.Build RouteServer.Net RouteServer.Policy RouteServer.Text
open RouteServer.Template (Environment Expr Stmt Meaning PlainCalls Scope Value plainAll between given
  each path only plain_each plain_eachIdx plain_given)
open RouteServer.Template.Render (maxDepth)

variable {env : Environment} {family : Family} {pc : PlainCalls} {d : Nat} {ρ : Scope}

/-- The word of the daemon for what is done about too many prefixes. -/
def actionWord : MaxPrefixAction → String
  | .shutdown => "disable"
  | .restart => "restart"
  | .block => "block"
  | .warning => "warn"

def actionsValue : Value :=
  .ofFields [("block", .string "block"), ("restart", .string "restart"),
    ("shutdown", .string "disable"), ("warning", .string "warn")]

theorem plain_actionWords : actionWords.plain env pc d ρ = some actionsValue := by
  have hrestart : Value.compareTexts "restart" "shutdown" = .lt := by decide
  have hblock : Value.compareTexts "block" "restart" = .lt := by decide
  have hwarning : ∀ s ∈ ["block", "restart", "shutdown"],
      Value.compareTexts "warning" s = .gt := by
    decide
  simp [actionWords, Template.plainEntries, Value.place, Value.compare?, hrestart, hblock, hwarning,
    actionsValue, Value.ofFields]

theorem item?_actionsValue (a : MaxPrefixAction) :
    actionsValue.item? (.string a.text) = some (.string (actionWord a)) := by
  have hitem : actionsValue.item? (.string a.text) = actionsValue.attr? a.text := rfl
  rw [hitem]
  cases a <;> simp [actionsValue, MaxPrefixAction.text, actionWord]

/-- What is known of the names in the part of a template that is about a client. -/
structure InClient (g : General) (roas : Option (List Roa)) (c : Client)
    (f : Family) (ρ : Scope) : Prop where
  cfg : ρ.lookup "cfg" = some (.value (.ofYaml g.toValue))
  roas : ρ.lookup "roas" = some (.value (.ofYaml (optionValue roasValue roas)))
  ipVer : ρ.lookup "ip_ver" = some (.value (.nat f.number))
  tag : ρ.lookup "tag" = some (.value (communityValue g.tag))
  actions : ρ.lookup "actions" = some (.value actionsValue)
  community : ρ.lookup "community" = some communityMeaning
  client : ρ.lookup "c" = some (.value (.ofYaml c.toValue))
  filtering : ρ.lookup "f" = some (.value (.ofYaml c.cfg.filtering.toValue))
  lengths : ρ.lookup "pref_len" = some (.value (.ofYaml (c.lengths f).toValue))
  limit : ρ.lookup "limit" = some (.value (.nat (c.limit g f).toNat))
  action : ρ.lookup "action" = some (.value (.string (c.limitAction g).text))

/-! ### Filters -/

def setTestsText (inFront : List String) (behind : String) (ids : List String) : List String :=
  between " || " (fun id => inFront ++ [id, behind]) ids

def originTestsText : List String → List String := setTestsText ["bgp_path.last ~ "] "_asns"

def prefixTestsText : List String → List String := setTestsText [] "_prefix_ok()"

def tagText (g : General) (c : Client) : List String :=
  if g.filtering.irr.tagAsSet then
    given (g.tag.bind Community.std) fun s =>
      ["\tif "] ++ originTestsText c.cfg.filtering.irr.asSetIds ++
        [" then bgp_community.add(", communityText s c.asn.text, ");\n"]
  else []

/-- The tests of a client's sets; without sets there is nothing to test. -/
def irrText (g : General) (c : Client) : List String :=
  let irr := c.cfg.filtering.irr
  if irr.asSetIds.isEmpty then []
  else
    (if irr.enforceOrigin then
      ["\tif !("] ++ originTestsText irr.asSetIds ++ [") then reject;\n"] else []) ++
    (if irr.enforcePrefix then
      ["\tif !("] ++ prefixTestsText irr.asSetIds ++ [") then reject;\n"] else []) ++
    tagText g c

theorem plain_setTests (h : Serves env (some family)) (hd : d < maxDepth) (inFront : List String)
    (behind : String) {f : ClientFiltering}
    (hf : ρ.lookup "f" = some (.value (.ofYaml f.toValue))) :
    (setTests inFront behind).plain env pc d ρ =
      some (ρ, setTestsText inFront behind f.irr.asSetIds) := by
  refine plain_eachIdx [] (f := Value.string)
    (w := fun id i => inFront ++ [id, behind] ++
      if i + 1 = f.irr.asSetIds.length then [] else [" || "])
    (by simp [hf, Function.comp_def]) hd (Template.bound?_texts _ _) (by decide) fun id i _ => ?_
  refine ⟨Template.roundScope ρ "id" [] (.string id)
    (Template.loopValue (f.irr.asSetIds.map .string) i), ?_⟩
  rw [Template.plainAll_append, Template.plainAll_texts]
  by_cases hi : i + 1 = f.irr.asSetIds.length <;>
    simp [Template.roundScope, Template.loopValue, h.string, hi]

theorem plain_tagTest (h : Serves env (some family)) (hpc : GivesCommunity pc)
    (hd : d + 6 ≤ maxDepth) {g : General} {roas : Option (List Roa)} {c : Client}
    (hc : InClient g roas c family ρ) (htag : g.filtering.irr.tagAsSet = true → g.tag.isSome) :
    tagTest.plain env pc d ρ = some (ρ, tagText g c) := by
  have horigin : originTests.plain env pc d ρ =
      some (ρ, originTestsText c.cfg.filtering.irr.asSetIds) :=
    plain_setTests h (by omega) _ _ hc.filtering
  cases hx : g.filtering.irr.tagAsSet with
  | false => simp [tagTest, hc.cfg, hx, tagText]
  | true =>
      obtain ⟨t, ht⟩ := Option.isSome_iff_exists.1 (htag hx)
      rw [tagText, if_pos hx, ht]
      refine plain_given (by simp [hc.cfg, hc.tag, hx, ht]) fun s hs _ => ?_
      replace hs : t.std = some s := hs
      have hm : ρ.lookup "community" = some (.snippet ["value", "peer"] communityBody) :=
        hc.community
      simp [horigin, hc.tag, ht, hc.client, hm, hs, hpc hd, h.string, Value.ofText, uint32Value,
        Asn.text]

theorem plain_irrTests (h : Serves env (some family)) (hpc : GivesCommunity pc)
    (hd : d + 6 ≤ maxDepth) {g : General} {roas : Option (List Roa)} {c : Client}
    (hc : InClient g roas c family ρ) (htag : c.isTagged g = true → g.tag.isSome) :
    irrTests.plain env pc d ρ = some (ρ, irrText g c) := by
  have horigin : originTests.plain env pc d ρ =
      some (ρ, originTestsText c.cfg.filtering.irr.asSetIds) :=
    plain_setTests h (by omega) _ _ hc.filtering
  have hprefix : prefixTests.plain env pc d ρ =
      some (ρ, prefixTestsText c.cfg.filtering.irr.asSetIds) :=
    plain_setTests h (by omega) _ _ hc.filtering
  cases hids : c.cfg.filtering.irr.asSetIds.isEmpty with
  | true => simp [irrTests, hc.filtering, irrText, hids]
  | false =>
      have htest := plain_tagTest h hpc hd hc fun hx => htag (by simp [Client.isTagged, hx, hids])
      simp [irrTests, horigin, hprefix, htest, hc.filtering, irrText, hids]

def roaTestText (g : General) (roas : Option (List Roa)) (c : Client) : List String :=
  if g.filtering.rpki.enabled && roas.isSome && c.cfg.filtering.rejectInvalidRoa then
    ["\tif roa_check(rpki_roas, net, bgp_path.last) = ROA_INVALID then reject;\n"]
  else []

def checksText (f : Family) (c : Client) : List String :=
  ["filter receive_from_", c.id, "\n\x7b\n\tif !is_blackhole() then \x7b\n\t\tif net.len < ",
   byteText (c.lengths f).min, " || net.len > ", byteText (c.lengths f).max,
   " then reject;\n\t\x7d\n\tif is_bogon() then reject;\n\tif bgp_path.len > ",
   byteText c.cfg.filtering.maxAsPathLen, " then reject;\n"] ++
  (if c.cfg.filtering.nextHopPolicy = .strict then
    ["\tif bgp_next_hop != from then reject;\n"] else []) ++
  ["\tif bgp_path.first != ", c.asn.text, " then reject;\n"] ++
  (if c.cfg.filtering.rejectInvalidAs then ["\treject_invalid_asns();\n"] else []) ++
  ["\treject_transit_free();\n"]

def receiveText (f : Family) (g : General) (roas : Option (List Roa))
    (c : Client) : List String :=
  checksText f c ++ irrText g c ++ roaTestText g roas c ++
  ["\tif is_blackhole() then apply_blackhole_policy();\n\taccept;\n\x7d\n\n" ++
    "filter announce_to_"]

def announceText (c : Client) : List String :=
  [c.id, "\n\x7b\n"] ++
  (if !c.cfg.announceBlackhole then ["\tif is_blackhole() then reject;\n"] else []) ++
  (if c.cfg.prependRsAs then ["\tbgp_path.prepend(rs_as);\n"] else []) ++
  ["\taccept;\n\x7d\n\nprotocol bgp "]

def protocolText (f : Family) (g : General) (c : Client) : List String :=
  [c.id, " \x7b\n\tdescription \"", c.called,
   "\";\n\tlocal as rs_as;\n\tneighbor ", c.ip.text, " as ", c.asn.text, ";\n\trs client;\n"] ++
  (if c.cfg.passive then ["\tpassive on;\n"] else []) ++
  (if c.cfg.gtsm then ["\tttl security on;\n"] else []) ++
  given c.password (fun s => ["\tpassword \"", s, "\";\n"]) ++
  ["\tipv", natText f.number, " \x7b\n\t\timport limit ", natText (c.limit g f).toNat, " action ",
   actionWord (c.limitAction g), ";\n\t\timport filter receive_from_", c.id,
   ";\n\t\texport filter announce_to_", c.id, ";\n"] ++
  (if c.cfg.addPath then ["\t\tadd paths tx;\n"] else []) ++ ["\t\x7d;\n\x7d\n\n"]

def clientText (f : Family) (g : General) (roas : Option (List Roa))
    (c : Client) : List String :=
  receiveText f g roas c ++ announceText c ++ protocolText f g c

section Client

variable {g : General} {roas : Option (List Roa)} {c : Client}

theorem plain_roaTest (h : Serves env (some family)) (hc : InClient g roas c family ρ) :
    roaTest.plain env pc d ρ = some (ρ, roaTestText g roas c) := by
  cases he : g.filtering.rpki.enabled && roas.isSome <;>
    simp [roaTest, plain_usesRoas h hc.cfg hc.roas, hc.filtering, he, roaTestText]

theorem plain_checksBody (h : Serves env (some family)) (hc : InClient g roas c family ρ) :
    plainAll env pc d ρ checksBody = some (ρ, checksText family c) := by
  have hstrict : decide (c.cfg.filtering.nextHopPolicy.text = "strict") =
      decide (c.cfg.filtering.nextHopPolicy = .strict) := by
    cases c.cfg.filtering.nextHopPolicy <;> decide
  simp [checksBody, hc.client, hc.filtering, hc.lengths, h.string, h.nat, hstrict, checksText,
    uint8Value, uint32Value, byteText, Asn.text]

theorem plain_receiveBody (h : Serves env (some family)) (hpc : GivesCommunity pc)
    (hd : d + 6 ≤ maxDepth) (hc : InClient g roas c family ρ)
    (htag : c.isTagged g = true → g.tag.isSome) :
    plainAll env pc d ρ receiveBody = some (ρ, receiveText family g roas c) := by
  rw [receiveBody, Template.plainAll_append, plain_checksBody h hc]
  simp [plain_irrTests h hpc hd hc htag, plain_roaTest h hc, receiveText]

theorem plain_announceBody (h : Serves env (some family)) (hc : InClient g roas c family ρ) :
    plainAll env pc d ρ announceBody = some (ρ, announceText c) := by
  simp [announceBody, hc.client, h.string, announceText]

theorem plain_description (hc : InClient g roas c family ρ) :
    description.plain env pc d ρ = some (.string (c.called)) := by
  cases hx : c.description with
  | none => simp [description, hc.client, hx, Value.ofText, Client.called]
  | some s =>
      by_cases hs : s = "" <;>
        simp [description, hc.client, hx, Value.ofText, Client.called, Option.filter, hs]

theorem plain_passwordLine (h : Serves env (some family)) (hc : InClient g roas c family ρ) :
    passwordLine.plain env pc d ρ =
      some (ρ, given c.password fun s => ["\tpassword \"", s, "\";\n"]) :=
  plain_given (by simp [hc.client]) fun s hs _ => by
    simp [hc.client, hs, Value.ofText, h.string]

theorem plain_protocolBody (h : Serves env (some family)) (hc : InClient g roas c family ρ) :
    plainAll env pc d ρ protocolBody = some (ρ, protocolText family g c) := by
  simp [protocolBody, hc.client, hc.ipVer, hc.limit, hc.action, hc.actions, h.string, h.nat,
    plain_description hc, plain_passwordLine h hc, item?_actionsValue, protocolText, uint32Value,
    Asn.text]

end Client

/-! ### The loop over the clients -/

/-- What is known of the names when the part about a client starts. -/
structure BeforeClient (g : General) (roas : Option (List Roa)) (c : Client)
    (f : Family) (ρ : Scope) : Prop where
  cfg : ρ.lookup "cfg" = some (.value (.ofYaml g.toValue))
  roas : ρ.lookup "roas" = some (.value (.ofYaml (optionValue roasValue roas)))
  ipVer : ρ.lookup "ip_ver" = some (.value (.nat f.number))
  tag : ρ.lookup "tag" = some (.value (communityValue g.tag))
  actions : ρ.lookup "actions" = some (.value actionsValue)
  community : ρ.lookup "community" = some communityMeaning
  client : ρ.lookup "c" = some (.value (.ofYaml c.toValue))

section Client

variable {g : General} {roas : Option (List Roa)} {c : Client}

def clientScope (g : General) (c : Client) (f : Family) (ρ : Scope) : Scope :=
  ("action", .value (.string (c.limitAction g).text)) ::
  ("limit", .value (.nat (c.limit g f).toNat)) ::
  ("client_limit", .value (.ofYaml
    (optionValue uint32Value (c.cfg.filtering.maxPrefix.ownLimit f)))) ::
  ("pref_len", .value (.ofYaml (c.lengths f).toValue)) ::
  ("f", .value (.ofYaml c.cfg.filtering.toValue)) :: ρ

theorem BeforeClient.inClient (h : BeforeClient g roas c family ρ) :
    InClient g roas c family (clientScope g c family ρ) where
  cfg := h.cfg
  roas := h.roas
  ipVer := h.ipVer
  tag := h.tag
  actions := h.actions
  community := h.community
  client := h.client
  filtering := rfl
  lengths := rfl
  limit := rfl
  action := rfl

theorem plain_limit (h : Serves env (some family))
    (hg : ρ.lookup "cfg" = some (.value (.ofYaml g.toValue)))
    (hv : ρ.lookup "ip_ver" = some (.value (.nat family.number)))
    (hl : ρ.lookup "client_limit" = some (.value (.ofYaml
      (optionValue uint32Value (c.cfg.filtering.maxPrefix.ownLimit family))))) :
    limit.plain env pc d ρ = some (.nat (c.limit g family).toNat) := by
  have hgeneral := item?_generalLimit g.filtering.maxPrefix family
  cases hx : c.cfg.filtering.maxPrefix.ownLimit family with
  | none =>
      simp [limit, hl, hg, hv, hx, hgeneral, h.isNone, optionValue, Client.limit]
  | some n => simp [limit, hl, hx, h.isNone, optionValue, Client.limit]

theorem plain_action (hg : ρ.lookup "cfg" = some (.value (.ofYaml g.toValue)))
    (hf : ρ.lookup "f" = some (.value (.ofYaml c.cfg.filtering.toValue))) :
    action.plain env pc d ρ = some (.string (c.limitAction g).text) := by
  have htext (a : MaxPrefixAction) : a.text ≠ "" := by cases a <;> decide
  cases hx : c.cfg.filtering.maxPrefix.action with
  | some a => simp [action, hf, hx, optionValue, htext, Client.limitAction]
  | none =>
      cases hy : g.filtering.maxPrefix.action with
      | some a => simp [action, hf, hg, hx, hy, optionValue, htext, Client.limitAction]
      | none =>
          simp [action, hf, hg, hx, hy, optionValue, Client.limitAction, MaxPrefixAction.text]

theorem plain_settingsBody (h : Serves env (some family))
    (hc : BeforeClient g roas c family ρ) :
    plainAll env pc d ρ settingsBody = some (clientScope g c family ρ, []) := by
  have hlengths := item?_lengths c family
  have hown := item?_ownLimit c.cfg.filtering.maxPrefix family
  let ρ₁ : Scope :=
    ("client_limit", .value (.ofYaml
      (optionValue uint32Value (c.cfg.filtering.maxPrefix.ownLimit family)))) ::
    ("pref_len", .value (.ofYaml (c.lengths family).toValue)) ::
    ("f", .value (.ofYaml c.cfg.filtering.toValue)) :: ρ
  have hlimit : limit.plain env pc d ρ₁ = some (.nat (c.limit g family).toNat) :=
    plain_limit h hc.cfg hc.ipVer rfl
  have haction : action.plain env pc d (("limit", .value (.nat (c.limit g family).toNat)) :: ρ₁) =
      some (.string (c.limitAction g).text) :=
    plain_action hc.cfg rfl
  simp only [ρ₁] at hlimit haction
  simp [settingsBody, hc.client, hc.ipVer, hlengths, hown, hlimit, haction, Scope.tell, clientScope]

theorem plain_clientBody (h : Serves env (some family)) (hpc : GivesCommunity pc)
    (hd : d + 6 ≤ maxDepth) (hc : BeforeClient g roas c family ρ)
    (htag : c.isTagged g = true → g.tag.isSome) :
    plainAll env pc d ρ clientBody =
      some (clientScope g c family ρ, clientText family g roas c) := by
  have hin := hc.inClient
  simp [clientBody, Template.plainAll_append, plain_settingsBody h hc,
    plain_receiveBody h hpc hd hin htag, plain_announceBody h hin, plain_protocolBody h hin,
    clientText]

/-- A client of another family is left out. -/
theorem plain_clientRound (h : Serves env (some family)) (hpc : GivesCommunity pc)
    (hd : d + 6 ≤ maxDepth) (hc : BeforeClient g roas c family ρ)
    (htag : c.ip.family = family → c.isTagged g = true → g.tag.isSome) :
    ∃ ρ', plainAll env pc d ρ [only (.test "current_ipver" (path "c" ["ip"]) []) clientBody] =
      some (ρ', if c.ip.family = family then clientText family g roas c else []) := by
  by_cases hf : c.ip.family = family
  · refine ⟨clientScope g c family ρ, ?_⟩
    simp [hc.client, h.current, inBuild, hf, plain_clientBody h hpc hd hc (htag hf)]
  · refine ⟨ρ, ?_⟩
    simp [hc.client, h.current, inBuild, hf]

end Client

def clientsText (f : Family) (g : General) (roas : Option (List Roa)) (cs : List Client) :
    List String :=
  ["# clients\n"] ++ cs.flatMap fun c => if c.ip.family = f then clientText f g roas c else []

/-- The scope in which the clients are written. -/
def clientsScope (g : General) (ρ : Scope) : Scope :=
  ("tag", .value (communityValue g.tag)) :: ("actions", .value actionsValue) ::
  ("community", communityMeaning) :: ρ

/-- The names that the part about a client binds. -/
def settingNames : List String := ["f", "pref_len", "client_limit", "limit", "action"]

section Clients

variable {g : General} {roas : Option (List Roa)} {cs : List Client} {c : Client}

theorem plain_clientBindings (hload : env.load "macros.j2" = .ok macrosBody) (levels : Nat)
    (hd : d + 11 ≤ maxDepth) (hg : ρ.lookup "cfg" = some (.value (.ofYaml g.toValue))) :
    plainAll env (Template.plainCallsOf env (levels + 1)) d ρ clientBindings =
      some (clientsScope g ρ, ["# clients\n"]) := by
  simp [clientBindings, plain_takeCommunity hload levels hd, plain_actionWords, hg, Scope.tell,
    clientsScope, General.tag]

theorem beforeClient_round (hv : ρ.lookup "ip_ver" = some (.value (.nat family.number)))
    (hg : ρ.lookup "cfg" = some (.value (.ofYaml g.toValue)))
    (hr : ρ.lookup "roas" = some (.value (.ofYaml (optionValue roasValue roas)))) (c : Client)
    (loop : Value) :
    BeforeClient g roas c family
      (Template.roundScope (clientsScope g ρ) "c" settingNames (.ofYaml c.toValue) loop) := by
  constructor <;>
    simp [Template.roundScope, Scope.lookup_without, clientsScope, settingNames, hg, hr, hv]

theorem plain_clients (h : Serves env (some family)) (hload : env.load "macros.j2" = .ok macrosBody)
    (levels : Nat) (hd : d + 11 ≤ maxDepth)
    (htag : ∀ c ∈ cs, c.ip.family = family → c.isTagged g = true → g.tag.isSome)
    (hv : ρ.lookup "ip_ver" = some (.value (.nat family.number)))
    (hg : ρ.lookup "cfg" = some (.value (.ofYaml g.toValue)))
    (hr : ρ.lookup "roas" = some (.value (.ofYaml (optionValue roasValue roas))))
    (hcs : ρ.lookup "clients" = some (.value (.ofYaml (.list (cs.map Client.toValue))))) :
    plainAll env (Template.plainCallsOf env (levels + 1)) d ρ clientsBody =
      some (clientsScope g ρ, clientsText family g roas cs) := by
  have hloop : eachClient.plain env (Template.plainCallsOf env (levels + 1)) d (clientsScope g ρ) =
      some (clientsScope g ρ, cs.flatMap fun c =>
        if c.ip.family = family then clientText family g roas c else []) :=
    plain_each settingNames (f := fun c => Value.ofYaml c.toValue)
      (by simp [clientsScope, hcs, Function.comp_def]) (by omega) rfl (by decide) fun c hc loop =>
        plain_clientRound h (givesCommunity h levels) (by omega)
          (beforeClient_round hv hg hr c loop) (htag c hc)
  rw [clientsBody, Template.plainAll_append, plain_clientBindings hload levels hd hg]
  simp [hloop, clientsText]

end Clients

end RouteServer.Shipped.Bird

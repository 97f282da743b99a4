import RouteServer.Proofs.Shipped.OpenBgpd.Client

/-!
# Shipped — OpenBGPD — rules
-/

namespace RouteServer.Shipped.OpenBgpd

open RouteServer.Build RouteServer.Net RouteServer.Policy RouteServer.Text
open RouteServer.Template (Environment Expr Fault Stmt Meaning PlainCalls Scope Value plainAll given
  each path only plain_each plain_given lookup_roundScope)
open RouteServer.Template.Render (maxDepth)

variable {env : Environment} {a : Arguments} {pc : PlainCalls} {d : Nat} {ρ : Scope}

/-! ### General rules -/

/-- The families of a build. -/
def familiesOf (family : Option Family) : List Family :=
  match family with
  | some f => [f]
  | none => [.v4, .v6]

theorem plain_families (h : ServesFiles env a)
    (hv : ρ.lookup "ip_ver" =
      some (.value (.ofYaml (optionValue (fun f => .nat f.number) a.family)))) :
    families.plain env pc d ρ =
      some (.list ((familiesOf a.family).map fun f => .nat f.number)) := by
  cases hf : a.family with
  | none =>
      simp [families, hv, hf, h.isNone, optionValue, familiesOf]
      exact ⟨rfl, rfl⟩
  | some f => simp [families, hv, hf, h.isNone, optionValue, familiesOf]

def filterScope (family : Option Family) (g : General) (ρ : Scope) : Scope :=
  ("v6", .value (.ofYaml g.filtering.lengthsV6.toValue)) ::
  ("v4", .value (.ofYaml g.filtering.lengthsV4.toValue)) ::
  ("tag", .value (communityValue g.tag)) ::
  ("families", .value (.list ((familiesOf family).map fun f => .nat f.number))) ::
  ("bh", .value (.ofYaml g.blackhole.toValue)) ::
  ("blackholing", .value (communityValue g.blackholing)) :: ρ

def generalText (g : General) : List String :=
  let f := g.filtering
  ["# last matching rule wins, unless quick\ndeny from any\nallow to any\n\n" ++
     "deny quick from any prefix-set bogons\ndeny quick from any inet prefixlen < ",
   byteText f.lengthsV4.min, "\ndeny quick from any inet prefixlen > ",
   byteText f.lengthsV4.max, "\ndeny quick from any inet6 prefixlen < ",
   byteText f.lengthsV6.min, "\ndeny quick from any inet6 prefixlen > ",
   byteText f.lengthsV6.max, "\ndeny quick from any max-as-len ", byteText f.maxAsPathLen, "\n"] ++
  (f.transitFree.asns.flatMap fun n => ["deny quick from any transit-as ", n.text, "\n"]) ++
  (if f.nextHopPolicy = .strict then
    ["deny quick from group \"clients\" ! nexthop neighbor\n"] else []) ++ ["\n"]

section General

variable {g : General}

theorem plain_filterBindings (h : ServesFiles env a)
    (hv : ρ.lookup "ip_ver" =
      some (.value (.ofYaml (optionValue (fun f => .nat f.number) a.family))))
    (hg : ρ.lookup "cfg" = some (.value (.ofYaml g.toValue))) :
    plainAll env pc d ρ filterBindings = some (filterScope a.family g ρ, []) := by
  have hfamilies : families.plain env pc d (("bh", .value (.ofYaml g.blackhole.toValue)) ::
      ("blackholing", .value (communityValue g.blackholing)) :: ρ) =
        some (.list ((familiesOf a.family).map fun f => .nat f.number)) :=
    plain_families h hv
  simp only [General.blackholing] at hfamilies
  simp [filterBindings, hg, hfamilies, Scope.tell, filterScope, General.tag, General.blackholing]

theorem plain_generalBody (h : ServesFiles env a) (hd : d < maxDepth)
    (hg : ρ.lookup "cfg" = some (.value (.ofYaml g.toValue)))
    (h4 : ρ.lookup "v4" = some (.value (.ofYaml g.filtering.lengthsV4.toValue)))
    (h6 : ρ.lookup "v6" = some (.value (.ofYaml g.filtering.lengthsV6.toValue))) :
    plainAll env pc d ρ generalBody = some (ρ, generalText g) := by
  have hstrict : decide (g.filtering.nextHopPolicy.text = "strict") =
      decide (g.filtering.nextHopPolicy = .strict) := by
    cases g.filtering.nextHopPolicy <;> decide
  have hloop : eachTransit.plain env pc d ρ =
      some (ρ, g.filtering.transitFree.asns.flatMap fun n =>
        ["deny quick from any transit-as ", n.text, "\n"]) :=
    plain_each [] (f := fun n => Value.nat n.toNat)
      (by simp [hg, Function.comp_def]) hd rfl (by decide)
      fun n _ loop => ⟨_, by simp [Template.roundScope, h.nat, Asn.text]; rfl⟩
  simp [generalBody, hg, h4, h6, h.nat, hloop, hstrict, generalText, byteText]

end General

/-! ### Rules for a client -/

/-- An extended community with a blank behind its type. -/
def spacedText (s : String) : String :=
  match pieces ':' s with
  | [type, asn, value] => type ++ " " ++ asn ++ ":" ++ value
  | _ => ""

/-- Why a text cannot be written as an extended community. -/
def spacedFault (s : String) : Option Fault :=
  match Helper.spaceExtended (.string s) with
  | .ok _ => none
  | .error fault => some fault

theorem spaceExtended_of_spacedFault {s : String} (hs : spacedFault s = none) :
    Template.Builtin.simple Helper.spaceExtended (.string s) [] =
      .ok (.string (spacedText s)) := by
  unfold spacedFault at hs
  simp only [Template.Builtin.simple, List.isEmpty_nil, if_true, Helper.spaceExtended,
    Value.string?, Option.getD_some, spacedText] at hs ⊢
  split <;> simp_all

/-- Why routes cannot be tagged by the sets that their origins are in. -/
def tagFault (g : General) : Option Fault :=
  match g.tag with
  | none => some .undefined
  | some t => (t.ext.filter (· ≠ "")).bind spacedFault

/-- The networks that nobody may have in a path. -/
def invalidAsns : List String := ["0", "23456", "64496 - 131071", "4200000000 - 4294967295"]

def allowedText (c : Client) (id : String) : List String :=
  ["allow from ", c.ip.text] ++
  (if c.cfg.filtering.irr.enforceOrigin then [" source-as as-set ", id] else []) ++
  (if c.cfg.filtering.irr.enforcePrefix then [" prefix-set ", id, "_prefixes"] else []) ++ ["\n"]

def tagLineText (c : Client) (id word s : String) : List String :=
  ["match from ", c.ip.text, " source-as as-set ", id, " set " ++ word ++ " ", s, "\n"]

def tagText (tag : Option Community) (c : Client) (id : String) : List String :=
  given (tag.bind Community.std) (tagLineText c id "community") ++
  given (tag.bind Community.ext) fun s => tagLineText c id "ext-community" (spacedText s)

def routeRulesText (c : Client) : List String :=
  let irr := c.cfg.filtering.irr
  ["deny quick from ", c.ip.text, " ! peer-as ", c.asn.text, "\n"] ++
  (if c.cfg.filtering.rejectInvalidAs then
    invalidAsns.flatMap fun n => ["deny quick from ", c.ip.text, " AS ", n, "\n"] else []) ++
  (if irr.enforceOrigin || irr.enforcePrefix then irr.asSetIds.flatMap (allowedText c)
    else ["allow from ", c.ip.text, "\n"])

def rulesText (g : General) (c : Client) : List String :=
  routeRulesText c ++
  if g.filtering.irr.tagAsSet then c.cfg.filtering.irr.asSetIds.flatMap (tagText g.tag c) else []

section Client

variable {g : General} {c : Client}

/-- What is known of the names in the rules for a client. -/
structure InClient (g : General) (c : Client) (ρ : Scope) : Prop where
  cfg : ρ.lookup "cfg" = some (.value (.ofYaml g.toValue))
  tag : ρ.lookup "tag" = some (.value (communityValue g.tag))
  client : ρ.lookup "c" = some (.value (.ofYaml c.toValue))
  irr : ρ.lookup "irrdb" = some (.value (.ofYaml c.cfg.filtering.irr.toValue))

/-- What is known stays so in a loop over something else. -/
theorem InClient.round (hc : InClient g c ρ) {n : String} (x loop : Value)
    (hn : ∀ m ∈ ["cfg", "tag", "c", "irrdb"], m ∉ ["loop", n]) :
    InClient g c (Template.roundScope ρ n [] x loop) where
  cfg := (lookup_roundScope (hn _ (by simp))).trans hc.cfg
  tag := (lookup_roundScope (hn _ (by simp))).trans hc.tag
  client := (lookup_roundScope (hn _ (by simp))).trans hc.client
  irr := (lookup_roundScope (hn _ (by simp))).trans hc.irr

theorem tag_of_tagFault (h : tagFault g = none) :
    ∃ t, g.tag = some t ∧ ∀ s, t.ext = some s → s ≠ "" → spacedFault s = none := by
  unfold tagFault at h
  split at h
  · cases h
  case h_2 t ht =>
      refine ⟨t, ht, fun s hs hne => ?_⟩
      simpa [hs, Option.filter, hne] using h

theorem plain_tagLine (h : ServesFiles env a) (kind word : String) {e : Expr} {o : Option String}
    {w : String → String} {id : String} (hc : InClient g c ρ)
    (hid : ρ.lookup "id" = some (.value (.string id)))
    (ho : (communityValue g.tag).attr? kind = some (.ofText o))
    (he : ∀ s, o = some s → s ≠ "" → e.plain env pc d ρ = some (.string (w s))) :
    (tagLine kind word e).plain env pc d ρ =
      some (ρ, given o fun s => tagLineText c id word (w s)) :=
  plain_given (by simp [hc.tag, ho]) fun s hs hne => by
    simp [tagHead, hc.client, hid, he s hs hne, h.string, tagLineText]

theorem plain_tagBody (h : ServesFiles env a) (hfault : tagFault g = none)
    {id : String} (hc : InClient g c ρ) (hid : ρ.lookup "id" = some (.value (.string id))) :
    plainAll env pc d ρ tagBody = some (ρ, tagText g.tag c id) := by
  obtain ⟨t, ht, hext⟩ := tag_of_tagFault hfault
  have hstd : (tagLine "std" "community" (path "tag" ["std"])).plain env pc d ρ =
      some (ρ, given t.std (tagLineText c id "community")) :=
    plain_tagLine (w := fun s => s) h _ _ hc hid (by simp [ht]) fun s hs _ => by
      simp [hc.tag, ht, hs, Value.ofText]
  have hspaced : (tagLine "ext" "ext-community"
      (.filter "convert_ext_comm" (path "tag" ["ext"]) [])).plain env pc d ρ =
        some (ρ, given t.ext fun s => tagLineText c id "ext-community" (spacedText s)) :=
    plain_tagLine h _ _ hc hid (by simp [ht]) fun s hs hne => by
      simp [hc.tag, ht, hs, Value.ofText, h.spaced, spaceExtended_of_spacedFault (hext s hs hne)]
  simp only [tagBody, plainAll, hstd, hspaced, Option.bind_eq_bind, Option.bind_some, tagText,
    List.append_nil, ht]

theorem plain_invalidBody (h : ServesFiles env a) {n : String} (hc : InClient g c ρ)
    (hn : ρ.lookup "asns" = some (.value (.string n))) :
    plainAll env pc d ρ invalidBody =
      some (ρ, ["deny quick from ", c.ip.text, " AS ", n, "\n"]) := by
  simp [invalidBody, hc.client, hn, h.string]

theorem plain_allowedBody (h : ServesFiles env a) {id : String} (hc : InClient g c ρ)
    (hid : ρ.lookup "id" = some (.value (.string id))) :
    plainAll env pc d ρ allowedBody = some (ρ, allowedText c id) := by
  simp [allowedBody, hc.client, hc.irr, hid, h.string, allowedText]

theorem plain_ids (hc : InClient g c ρ) :
    (path "irrdb" ["as_set_ids"]).plain env pc d ρ =
      some (.list (c.cfg.filtering.irr.asSetIds.map .string)) := by
  simp [hc.irr, Function.comp_def]

theorem plain_routeRules (h : ServesFiles env a) (hd : d < maxDepth) (hc : InClient g c ρ) :
    plainAll env pc d ρ routeRules = some (ρ, routeRulesText c) := by
  have hinvalid : eachInvalid.plain env pc d ρ =
      some (ρ, invalidAsns.flatMap fun n => ["deny quick from ", c.ip.text, " AS ", n, "\n"]) :=
    plain_each [] (f := Value.string) (by simp [invalidAsns]) hd rfl (by decide)
      fun n _ loop => ⟨_, plain_invalidBody h (hc.round (.string n) loop (by decide)) rfl⟩
  have hallowed : eachAllowed.plain env pc d ρ =
      some (ρ, c.cfg.filtering.irr.asSetIds.flatMap (allowedText c)) :=
    plain_each [] (plain_ids hc) hd rfl (by decide) fun id _ loop =>
      ⟨_, plain_allowedBody h (hc.round (.string id) loop (by decide)) rfl⟩
  cases ho : c.cfg.filtering.irr.enforceOrigin <;>
    simp [routeRules, hc.client, hc.irr, hinvalid, hallowed, h.string, h.nat, routeRulesText,
      Asn.text, ho]

theorem plain_tagRules (h : ServesFiles env a) (hd : d < maxDepth) (hc : InClient g c ρ)
    (hfault : c.isTagged g = true → tagFault g = none) :
    tagRules.plain env pc d ρ = some (ρ, if g.filtering.irr.tagAsSet then
      c.cfg.filtering.irr.asSetIds.flatMap (tagText g.tag c) else []) := by
  cases htag : g.filtering.irr.tagAsSet with
  | false => simp [tagRules, hc.cfg, htag]
  | true =>
      have htags : eachTag.plain env pc d ρ =
          some (ρ, c.cfg.filtering.irr.asSetIds.flatMap (tagText g.tag c)) := by
        refine plain_each [] (plain_ids hc) hd rfl (by decide) fun id hid loop => ?_
        have htagged : c.isTagged g = true := by
          simp [Client.isTagged, htag, List.ne_nil_of_mem hid]
        exact ⟨_, plain_tagBody h (hfault htagged) (hc.round (.string id) loop (by decide)) rfl⟩
      simp [tagRules, hc.cfg, htag, htags]

/-- The scope in which the rules for a client are written. -/
def clientRulesScope (c : Client) (ρ : Scope) : Scope :=
  ("irrdb", .value (.ofYaml c.cfg.filtering.irr.toValue)) :: ρ

theorem inClient_rules (hg : ρ.lookup "cfg" = some (.value (.ofYaml g.toValue)))
    (ht : ρ.lookup "tag" = some (.value (communityValue g.tag)))
    (hc : ρ.lookup "c" = some (.value (.ofYaml c.toValue))) :
    InClient g c (clientRulesScope c ρ) := ⟨hg, ht, hc, rfl⟩

theorem plain_bindIrr (hc : ρ.lookup "c" = some (.value (.ofYaml c.toValue))) :
    plainAll env pc d ρ bindIrr = some (clientRulesScope c ρ, []) := by
  simp [bindIrr, hc, Scope.tell, clientRulesScope]

/-- A client of another family is left out. -/
theorem plain_clientRound (h : ServesFiles env a) (hd : d < maxDepth)
    (hg : ρ.lookup "cfg" = some (.value (.ofYaml g.toValue)))
    (ht : ρ.lookup "tag" = some (.value (communityValue g.tag)))
    (hc : ρ.lookup "c" = some (.value (.ofYaml c.toValue)))
    (hfault : inBuild a.family c.ip = true → c.isTagged g = true → tagFault g = none) :
    ∃ ρ', plainAll env pc d ρ clientRound =
      some (ρ', if inBuild a.family c.ip then rulesText g c else []) := by
  cases hf : inBuild a.family c.ip with
  | true =>
      have hin := inClient_rules hg ht hc
      have hrules : plainAll env pc d ρ clientRules =
          some (clientRulesScope c ρ, rulesText g c) := by
        simp only [clientRules, Template.plainAll_append, plain_bindIrr hc,
          plain_routeRules h hd hin, plain_tagRules h hd hin (hfault hf), plainAll,
          Option.bind_eq_bind, Option.bind_some, List.nil_append, List.append_nil, rulesText]
      refine ⟨clientRulesScope c ρ, ?_⟩
      simp [clientRound, hc, h.current, hf, hrules]
  | false =>
      refine ⟨ρ, ?_⟩
      simp [clientRound, hc, h.current, hf]

end Client

/-! ### Rules for blackhole routes -/

def wholeText : Family → String
  | .v4 => "0.0.0.0/0"
  | .v6 => "::/0"

def policyText (b : Blackhole) (s : String) (f : Family) : List String :=
  let rewrites := b.policy f = some .rewriteNextHop
  if rewrites ∨ ((b.policy f).isSome ∧ b.addNoExport) then
    ["match from any prefix ", wholeText f, " or-longer community ", s, " set \x7b "] ++
    (if rewrites then ["nexthop ", b.nextHopWord f, " "] else []) ++
    (if b.addNoExport then ["community NO_EXPORT "] else []) ++ ["\x7d\n"]
  else []

def blackholeText (family : Option Family) (g : General) : List String :=
  given (g.blackholing.bind Community.std) fun s =>
    (familiesOf family).flatMap (policyText g.blackhole s) ++
    if !g.blackhole.announceToClient then
      ["deny quick to group \"clients\" community ", s, "\n"] else []

theorem plain_policyRule (h : ServesFiles env a) {b : Blackhole} {c : Community} {s : String}
    {f : Family} (hb : WritesNextHop env b f) (hs : c.std = some s)
    (hv : ρ.lookup "v" = some (.value (.nat f.number)))
    (hbh : ρ.lookup "bh" = some (.value (.ofYaml b.toValue)))
    (hc : ρ.lookup "blackholing" = some (.value (.ofYaml c.toValue)))
    (hp : ρ.lookup "policy" =
      some (.value (.ofYaml (optionValue (fun p => .string p.text) (b.policy f))))) :
    policyRule.plain env pc d ρ = some (ρ, policyText b s f) := by
  have hwhole : wholeFamily.plain env pc d ρ = some (.string (wholeText f)) := by
    cases f <;> simp [wholeFamily, hv] <;> rfl
  cases hpol : b.policy f with
  | none => simp [policyRule, rewrites, hp, hpol, optionValue, policyText]
  | some p =>
      cases p with
      | propagateUnchanged =>
          cases hx : b.addNoExport <;>
            simp [policyRule, rewrites, hbh, hp, hpol, hx, optionValue, policyText,
              BlackholePolicy.text, hwhole, hc, hs, h.string, Value.ofText]
      | rewriteNextHop =>
          have hnext := hb hpol
          simp [policyRule, rewrites, hbh, hp, hpol, optionValue, policyText, BlackholePolicy.text,
            hwhole, hv, hc, hs, h.string, item?_nextHop, hnext]

theorem plain_blackholeRules (h : ServesFiles env a) (hd : d < maxDepth) {g : General}
    {c : Community} (hb : g.blackholing = some c) (hnext : ∀ f, WritesNextHop env g.blackhole f)
    (hg : ρ.lookup "cfg" = some (.value (.ofYaml g.toValue)))
    (hbh : ρ.lookup "bh" = some (.value (.ofYaml g.blackhole.toValue)))
    (hc : ρ.lookup "blackholing" = some (.value (.ofYaml c.toValue)))
    (hf : ρ.lookup "families" =
      some (.value (.list ((familiesOf a.family).map fun f => .nat f.number)))) :
    blackholeRules.plain env pc d ρ = some (ρ, blackholeText a.family g) := by
  rw [blackholeText, hb]
  refine plain_given (by simp [hc]) fun s hs _ => ?_
  replace hs : c.std = some s := hs
  have hloop : eachFamily.plain env pc d ρ =
      some (ρ, (familiesOf a.family).flatMap (policyText g.blackhole s)) := by
    refine plain_each ["policy"] (f := fun f => Value.nat f.number) (by simp [hf]) hd rfl
      (by decide) fun f _ loop => ?_
    let ρ₁ := Template.roundScope ρ "v" ["policy"] (.nat f.number) loop
    refine ⟨("policy", .value (.ofYaml (optionValue (fun p => .string p.text)
      (g.blackhole.policy f)))) :: ρ₁, ?_⟩
    -- the round binds the family and its policy, and hides nothing else
    have hbh' : ρ₁.lookup "bh" = _ := (lookup_roundScope (by decide)).trans hbh
    have hc' : ρ₁.lookup "blackholing" = _ := (lookup_roundScope (by decide)).trans hc
    have hv : ρ₁.lookup "v" = some (.value (.nat f.number)) := rfl
    have hrule : policyRule.plain env pc (d + 1) (("policy", .value (.ofYaml (optionValue
        (fun p => .string p.text) (g.blackhole.policy f)))) :: ρ₁) = some (_, _) :=
      plain_policyRule h (hnext f) hs rfl hbh' hc' rfl
    simp only [ρ₁] at hbh' hv hrule
    simp [hbh', hv, item?_policy, Scope.tell, hrule, ρ₁]
  simp [hloop, hg, hc, hs, h.string, Value.ofText]

/-! ### All rules -/

/-- The rules for the clients of the build. -/
def clientRulesText (family : Option Family) (g : General) (cs : List Client) : List String :=
  cs.flatMap fun c => if inBuild family c.ip then rulesText g c else []

def filtersText (family : Option Family) (g : General) (cs : List Client) : List String :=
  generalText g ++ clientRulesText family g cs ++ ["\n"] ++ blackholeText family g

/-- The clients whose routes cannot be tagged unless nothing is wrong with the community for it. -/
def needsTag (family : Option Family) (g : General) (c : Client) : Bool :=
  inBuild family c.ip && c.isTagged g

section Filters

variable {g : General} {cs : List Client}

theorem plain_filtersFront (h : ServesFiles env a) (hd : d < maxDepth)
    (hv : ρ.lookup "ip_ver" =
      some (.value (.ofYaml (optionValue (fun f => .nat f.number) a.family))))
    (hg : ρ.lookup "cfg" = some (.value (.ofYaml g.toValue))) :
    plainAll env pc d ρ (filterBindings ++ generalBody) =
      some (filterScope a.family g ρ, generalText g) := by
  have hgeneral : plainAll env pc d (filterScope a.family g ρ) generalBody =
      some (filterScope a.family g ρ, generalText g) :=
    plain_generalBody h hd hg rfl rfl
  simp [Template.plainAll_append, plain_filterBindings h hv hg, hgeneral]

/-- What is known of the names in the round of a client. -/
theorem plain_round (h : ServesFiles env a) (hd : d < maxDepth) {c : Client}
    (hg : ρ.lookup "cfg" = some (.value (.ofYaml g.toValue))) (loop : Value)
    (hfault : inBuild a.family c.ip = true → c.isTagged g = true → tagFault g = none) :
    ∃ ρ', plainAll env pc d (Template.roundScope (filterScope a.family g ρ) "c" ["irrdb"]
        (.ofYaml c.toValue) loop) clientRound =
      some (ρ', if inBuild a.family c.ip then rulesText g c else []) := by
  refine plain_clientRound h hd ?_ ?_ rfl hfault
  · rw [lookup_roundScope (by decide)]
    exact hg
  · rw [lookup_roundScope (by decide)]
    rfl

theorem plain_eachClient (h : ServesFiles env a) (hd : d + 1 < maxDepth)
    (hg : ρ.lookup "cfg" = some (.value (.ofYaml g.toValue)))
    (hcs : ρ.lookup "clients" = some (.value (.ofYaml (.list (cs.map Client.toValue)))))
    (hfault : ∀ c ∈ cs, inBuild a.family c.ip = true → c.isTagged g = true → tagFault g = none) :
    eachClient.plain env pc d (filterScope a.family g ρ) =
      some (filterScope a.family g ρ, clientRulesText a.family g cs) := by
  have hclients : (path "clients" []).plain env pc d (filterScope a.family g ρ) =
      some (.list (cs.map fun c => Value.ofYaml c.toValue)) := by
    simp [filterScope, hcs, Function.comp_def]
  exact plain_each ["irrdb"] hclients (by omega) rfl (by decide)
    fun c hc loop => plain_round h hd hg loop (hfault c hc)

theorem plain_filters (h : ServesFiles env a) (hd : d + 1 < maxDepth)
    (hnext : ∀ f, WritesNextHop env g.blackhole f)
    (hv : ρ.lookup "ip_ver" =
      some (.value (.ofYaml (optionValue (fun f => .nat f.number) a.family))))
    (hg : ρ.lookup "cfg" = some (.value (.ofYaml g.toValue)))
    (hcs : ρ.lookup "clients" = some (.value (.ofYaml (.list (cs.map Client.toValue)))))
    (hfault : ∀ c ∈ cs, inBuild a.family c.ip = true → c.isTagged g = true → tagFault g = none)
    (hb : g.blackholing.isSome) :
    plainAll env pc d ρ filtersBody =
      some (filterScope a.family g ρ, filtersText a.family g cs) := by
  obtain ⟨b, hb⟩ := Option.isSome_iff_exists.1 hb
  have hrules : blackholeRules.plain env pc d (filterScope a.family g ρ) =
      some (filterScope a.family g ρ, blackholeText a.family g) := by
    refine plain_blackholeRules h (by omega) hb hnext hg rfl ?_ rfl
    rw [← communityValue_some, ← hb]
    rfl
  rw [filtersBody, Template.plainAll_append, Template.plainAll_append,
    plain_filtersFront h (by omega) hv hg]
  simp [plain_eachClient h hd hg hcs hfault, hrules, filtersText]

end Filters

end RouteServer.Shipped.OpenBgpd

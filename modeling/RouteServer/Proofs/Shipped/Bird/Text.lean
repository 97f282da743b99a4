import RouteServer.Proofs.Build.Context
import RouteServer.Proofs.Policy.Options
import RouteServer.Proofs.Shipped.Bird.Syntax

/-!
# Shipped — Bird — text
-/

namespace RouteServer.Shipped.Bird

open RouteServer.Build RouteServer.Net RouteServer.Policy RouteServer.Text
open RouteServer.Template (Environment Expr Stmt Meaning PlainCalls Scope Value plainAll between given
  each path only plain_each plain_eachIdx plain_eachPair plain_given)
open RouteServer.Template.Builtin (joinTexts)
open RouteServer.Template.Render (maxDepth)

variable {env : Environment} {family : Family} {pc : PlainCalls} {d : Nat} {ρ : Scope}

/-! ### Prefixes and sets -/

def bogonText (f : Family) (b : Bogon) : List String :=
  if b.address.family = f then
    ["\tif net ~ [ ", b.address.text, "/", byteText b.length, "+ ] then return true;\n"]
  else []

def bogonsText (f : Family) (bs : List Bogon) : List String :=
  ["# bogons\nfunction is_bogon()\n\x7b\n"] ++ bs.flatMap (bogonText f) ++
    ["\treturn false;\n\x7d\n\n"]

theorem plain_bogonBody (h : Serves env (some family)) {b : Bogon}
    (hb : ρ.lookup "b" = some (.value (.ofYaml b.toValue))) :
    plainAll env pc d ρ bogonBody = some (ρ, bogonText family b) := by
  simp [bogonBody, hb, h.current, h.string, h.nat, bogonText, inBuild, uint8Value, byteText]

theorem plain_bogons (h : Serves env (some family)) (hd : d < maxDepth) {bs : List Bogon}
    (hb : ρ.lookup "bogons" = some (.value (.ofYaml (.list (bs.map Bogon.toValue))))) :
    plainAll env pc d ρ bogonsBody = some (ρ, bogonsText family bs) := by
  have hloop : eachBogon.plain env pc d ρ = some (ρ, bs.flatMap (bogonText family)) :=
    plain_each [] (by simp [hb, Function.comp_def]) hd rfl (by decide)
      fun b _ loop => ⟨_, plain_bogonBody h rfl⟩
  simp [bogonsBody, hloop, bogonsText]

/-! ### Sets -/

def prefixText (f : Family) (p : SetPrefix) : List String :=
  if p.address.family = f then
    ["\tif net ~ [ ",
     p.address.text ++ "/" ++ byteText p.length ++ "\x7b" ++ byteText p.minLength ++ "," ++
       byteText p.maxLength ++ "\x7d",
     " ] then return true;\n"]
  else []

def originsText (id : String) (asns : List Asn) : List String :=
  if asns.isEmpty then ["define ", id, "_asns = [ 0 ];\n"]
  else ["define ", id, "_asns = [ ", joinTexts ", " (asns.map Asn.text), " ];\n"]

def setText (f : Family) (id : String) (s : ResolvedSet) : List String :=
  ["# ", s.name, "\n"] ++ originsText id s.asns ++ ["function ", id, "_prefix_ok()\n\x7b\n"] ++
    s.prefixes.flatMap (prefixText f) ++ ["\treturn false;\n\x7d\n\n"]

def setsText (f : Family) (sets : Dictionary ResolvedSet) : List String :=
  "# IRR data\n" :: sets.entries.flatMap fun e => setText f e.1 e.2

theorem plain_prefixBody (h : Serves env (some family)) {p : SetPrefix}
    (hp : ρ.lookup "p" = some (.value (.ofYaml p.toValue))) :
    plainAll env pc d ρ prefixBody = some (ρ, prefixText family p) := by
  simp [prefixBody, hp, h.current, h.string, prefixText, inBuild, uint8Value, byteText]

theorem plain_setBody (h : Serves env (some family)) (hd : d < maxDepth) {id : String}
    {s : ResolvedSet} (hid : ρ.lookup "id" = some (.value (.string id)))
    (hs : ρ.lookup "set" = some (.value (.ofYaml s.toValue))) :
    plainAll env pc d ρ setBody = some (ρ, setText family id s) := by
  have hloop : eachPrefix.plain env pc d ρ = some (ρ, s.prefixes.flatMap (prefixText family)) :=
    plain_each [] (by simp [hs, Function.comp_def]) hd rfl (by decide)
      fun p _ loop => ⟨_, plain_prefixBody h rfl⟩
  simp [setBody, hid, hs, hloop, h.string, h.join, setText, originsText]

theorem plain_sets (h : Serves env (some family)) (hd : d + 1 < maxDepth)
    {sets : Dictionary ResolvedSet}
    (hs : ρ.lookup "as_sets" =
      some (.value (.ofYaml (dictionaryValue ResolvedSet.toValue sets)))) :
    plainAll env pc d ρ setsBody = some (ρ, setsText family sets) := by
  have hloop : eachSet.plain env pc d ρ =
      some (ρ, sets.entries.flatMap fun e => setText family e.1 e.2) :=
    plain_eachPair []
      (by simp [hs, h.items, dictionaryValue, Value.ofYaml_ofFields, Function.comp_def])
      (by omega) rfl (by decide) fun e _ loop => ⟨_, plain_setBody h hd rfl rfl⟩
  simp [setsBody, hloop, setsText]

/-! ### Route origin authorisations -/

def roaText (f : Family) (r : Roa) : List String :=
  if r.address.family = f then
    ["\troute ", r.address.text, "/", byteText r.length, " max ", byteText r.maxLength, " as ",
     r.asn.text, ";\n"]
  else []

def roasText (f : Family) (g : General) (roas : Option (List Roa)) : List String :=
  match roas with
  | some roas =>
    if g.filtering.rpki.enabled then
      ["# ROAs\nroa", natText f.number,
       " table rpki_roas;\n\nprotocol static static_roas \x7b\n\troa", natText f.number,
       " \x7b table rpki_roas; \x7d;\n"] ++ roas.flatMap (roaText f) ++ ["\x7d\n\n"]
    else []
  | none => []

theorem plain_roaBody (h : Serves env (some family)) {r : Roa}
    (hr : ρ.lookup "r" = some (.value (.ofYaml r.toValue))) :
    plainAll env pc d ρ roaBody = some (ρ, roaText family r) := by
  simp [roaBody, hr, h.current, h.string, h.nat, roaText, inBuild, uint8Value, uint32Value,
    byteText, Asn.text]

theorem plain_usesRoas (h : Serves env (some family)) {g : General} {roas : Option (List Roa)}
    (hg : ρ.lookup "cfg" = some (.value (.ofYaml g.toValue)))
    (hr : ρ.lookup "roas" = some (.value (.ofYaml (optionValue roasValue roas)))) :
    usesRoas.plain env pc d ρ = some (.bool (g.filtering.rpki.enabled && roas.isSome)) := by
  cases he : g.filtering.rpki.enabled <;> cases roas <;>
    simp [usesRoas, hg, hr, he, h.isNone, optionValue, roasValue, Value.ofYaml_ofFields]

theorem plain_roas (h : Serves env (some family)) (hd : d < maxDepth) {g : General}
    {roas : Option (List Roa)}
    (hv : ρ.lookup "ip_ver" = some (.value (.nat family.number)))
    (hg : ρ.lookup "cfg" = some (.value (.ofYaml g.toValue)))
    (hr : ρ.lookup "roas" = some (.value (.ofYaml (optionValue roasValue roas)))) :
    plainAll env pc d ρ roasBody = some (ρ, roasText family g roas) := by
  cases roas with
  | none => simp [roasBody, plain_usesRoas h hg hr, roasText]
  | some roas =>
      have hloop : eachRoa.plain env pc d ρ = some (ρ, roas.flatMap (roaText family)) :=
        plain_each []
          (by simp [hr, optionValue, roasValue, Value.attr?_ofFields, Function.comp_def]) hd rfl
          (by decide) fun r _ loop => ⟨_, plain_roaBody h rfl⟩
      simp [roasBody, plain_usesRoas h hg hr, roasText, hloop, hv, h.nat]

/-! ### Filters that clients share -/

/-- A community as the daemon writes it, with the number of a peer in place of the macro. -/
def communityText (value peer : String) : String :=
  "(" ++ String.ofList (replaceAll ":".toList ", ".toList
    (replaceAll ":peer_as".toList (":" ++ peer).toList value.toList)) ++ ")"

/-- What the snippet for communities gives. -/
def GivesCommunity (pc : PlainCalls) : Prop :=
  ∀ {d value peer}, d + 6 ≤ maxDepth →
    pc.call d ["value", "peer"] communityBody [.string value, peer] =
      some (.string (communityText value peer.text))

theorem givesCommunity (h : Serves env (some family)) (levels : Nat) :
    GivesCommunity (Template.plainCallsOf env (levels + 1)) := by
  intro d value peer hd
  have hcan : [Value.string value, peer].length = ["value", "peer"].length ∧
      d + Template.Render.snippetCost + 2 ≤ maxDepth := ⟨rfl, hd⟩
  simp only [Template.plainCallsOf, if_pos hcan]
  simp [communityBody, Scope.tell, h.string, h.replace, communityText, String.join]

/-- What the snippet is known to be. -/
def communityMeaning : Meaning := .snippet ["value", "peer"] communityBody

theorem plain_takeCommunity (hload : env.load "macros.j2" = .ok macrosBody) (levels : Nat)
    (hd : d + 11 ≤ maxDepth) :
    takeCommunity.plain env (Template.plainCallsOf env (levels + 1)) d ρ =
      some (("community", communityMeaning) :: ρ, []) := by
  have hdepth : ¬ maxDepth < d + 1 + Template.Render.embedCost := by
    simp only [Template.Render.embedCost]
    omega
  simp [takeCommunity, Template.load?, hload, hdepth, Template.plainCallsOf, macrosBody,
    Template.snippets?, Template.takeNames, communityMeaning]

def transitText (t : TransitFree) : List String :=
  if t.asns.isEmpty then []
  else
    ["\tif bgp_path ~ [= * [ ", joinTexts ", " (t.asns.map Asn.text), " ] * =] then \x7b\n",
     if t.action = .warning then
       "\t\tprint \"transit-free ASN in AS_PATH of \", net, \" from \", from;\n"
     else "\t\treject \"transit-free ASN in AS_PATH of \", net;\n",
     "\t\x7d\n"]

def blackholeTestText (list : String) (o : Option String) : List String :=
  given o fun s => ["\tif ", communityText s (natText 0), " ~ " ++ list ++ " then return true;\n"]

def policyText (b : Blackhole) (f : Family) : List String :=
  (if b.policy f = some .rewriteNextHop then
    ["\tbgp_next_hop = ", b.nextHopWord f, ";\n"] else []) ++
  if (b.policy f).isSome && b.addNoExport then ["\tbgp_community.add((65535, 65281));\n"] else []

def blackholeTestsText : Option Community → List String
  | some c =>
    if isGiven c then
      blackholeTestText "bgp_community" c.std ++ blackholeTestText "bgp_large_community" c.lrg
    else []
  | none => []

def filtersText (f : Family) (g : General) : List String :=
  ["# common filters\nfunction reject_transit_free()\n\x7b\n"] ++
  transitText g.filtering.transitFree ++
  ["\treturn true;\n\x7d\n\nfunction is_blackhole()\n\x7b\n"] ++
  blackholeTestsText g.blackholing ++
  ["\treturn false;\n\x7d\n\nfunction apply_blackhole_policy()\n\x7b\n"] ++
  policyText g.blackhole f ++
  ["\treturn true;\n\x7d\n\n# AS0, AS_TRANS, documentation, private and reserved ASNs\n" ++
    "function reject_invalid_asns()\n\x7b\n\tif bgp_path ~ [= * [0, 23456, 64496..131071, " ++
    "4200000000..4294967295] * =] then\n\t\treject \"invalid ASN in AS_PATH of \", net;\n" ++
    "\treturn true;\n\x7d\n\n"]

theorem plain_transitTest (h : Serves env (some family)) {g : General}
    (hg : ρ.lookup "cfg" = some (.value (.ofYaml g.toValue))) :
    transitTest.plain env pc d ρ = some (ρ, transitText g.filtering.transitFree) := by
  cases hx : g.filtering.transitFree.asns.isEmpty with
  | true => simp [transitTest, transitText, hg, hx]
  | false =>
      cases ha : g.filtering.transitFree.action <;>
        simp [transitTest, transitText, hg, hx, ha, h.string, h.join, TransitFreeAction.text]

theorem plain_blackholeTest (h : Serves env (some family)) (hpc : GivesCommunity pc)
    (hd : d + 6 ≤ maxDepth) (kind list : String) {c : Community} {o : Option String}
    (hc : ρ.lookup "blackholing" = some (.value (.ofYaml c.toValue)))
    (hm : ρ.lookup "community" = some communityMeaning)
    (ho : (Value.ofYaml c.toValue).attr? kind = some (.ofText o)) :
    (blackholeTest kind list).plain env pc d ρ = some (ρ, blackholeTestText list o) := by
  refine plain_given (by simp [hc, ho]) fun s hs _ => ?_
  subst hs
  simp only [communityMeaning] at hm
  simp [hc, hm, ho, h.string, Value.ofText, hpc hd]
  rfl

theorem plain_blackholeTests (h : Serves env (some family)) (hpc : GivesCommunity pc)
    (hd : d + 6 ≤ maxDepth) {o : Option Community}
    (hc : ρ.lookup "blackholing" = some (.value (communityValue o)))
    (hm : ρ.lookup "community" = some communityMeaning) :
    blackholeTests.plain env pc d ρ = some (ρ, blackholeTestsText o) := by
  have hset : (Expr.filter "community_is_set" (path "blackholing" []) []).plain env pc d ρ =
      some (.bool (o.any isGiven)) := by
    simp [hc, h.isSet]
  cases o with
  | none => simp only [blackholeTests, only, Stmt.plain, hset]; rfl
  | some c =>
      have hstd := plain_blackholeTest h hpc hd "std" "bgp_community" (o := c.std) hc hm (by simp)
      have hlrg := plain_blackholeTest h hpc hd "lrg" "bgp_large_community" (o := c.lrg) hc hm
        (by simp)
      simp [blackholeTests, hc, h.isSet, hstd, hlrg, blackholeTestsText]

theorem plain_policyBody {b : Blackhole} (hb : WritesNextHop env b family)
    (hv : ρ.lookup "ip_ver" = some (.value (.nat family.number)))
    (hbh : ρ.lookup "bh" = some (.value (.ofYaml b.toValue)))
    (hp : ρ.lookup "bh_policy" =
      some (.value (.ofYaml (optionValue (fun p => .string p.text) (b.policy family))))) :
    plainAll env pc d ρ policyBody = some (ρ, policyText b family) := by
  cases hpol : b.policy family with
  | none => simp [policyBody, hp, hpol, optionValue, policyText]
  | some p =>
      cases p with
      | propagateUnchanged =>
          simp [policyBody, hbh, hp, hpol, optionValue, policyText, BlackholePolicy.text]
      | rewriteNextHop =>
          simp [policyBody, hv, hbh, hp, hpol, optionValue, policyText, item?_nextHop, hb hpol,
            BlackholePolicy.text]

/-- The scope in which the filters are written. -/
def filterScope (g : General) (f : Family) (ρ : Scope) : Scope :=
  ("bh_policy", .value (.ofYaml (optionValue (fun p => .string p.text) (g.blackhole.policy f)))) ::
  ("bh", .value (.ofYaml g.blackhole.toValue)) ::
  ("blackholing", .value (communityValue g.blackholing)) :: ("community", communityMeaning) :: ρ

theorem plain_filterBindings (hload : env.load "macros.j2" = .ok macrosBody) (levels : Nat)
    (hd : d + 11 ≤ maxDepth) {g : General}
    (hv : ρ.lookup "ip_ver" = some (.value (.nat family.number)))
    (hg : ρ.lookup "cfg" = some (.value (.ofYaml g.toValue))) :
    plainAll env (Template.plainCallsOf env (levels + 1)) d ρ filterBindings =
      some (filterScope g family ρ, []) := by
  simp [filterBindings, plain_takeCommunity hload levels hd, hg, hv, item?_policy, Scope.tell,
    filterScope, General.blackholing]

theorem plain_filters (h : Serves env (some family)) (hload : env.load "macros.j2" = .ok macrosBody)
    (levels : Nat) (hd : d + 11 ≤ maxDepth) {g : General}
    (hnext : WritesNextHop env g.blackhole family)
    (hv : ρ.lookup "ip_ver" = some (.value (.nat family.number)))
    (hg : ρ.lookup "cfg" = some (.value (.ofYaml g.toValue))) :
    plainAll env (Template.plainCallsOf env (levels + 1)) d ρ filtersBody =
      some (filterScope g family ρ, filtersText family g) := by
  have hg' : (filterScope g family ρ).lookup "cfg" = some (.value (.ofYaml g.toValue)) := hg
  have hv' : (filterScope g family ρ).lookup "ip_ver" = some (.value (.nat family.number)) := hv
  have htests : blackholeTests.plain env (Template.plainCallsOf env (levels + 1)) d
      (filterScope g family ρ) = some (filterScope g family ρ, blackholeTestsText g.blackholing) :=
    plain_blackholeTests h (givesCommunity h levels) (by omega) rfl rfl
  have hpolicy : plainAll env (Template.plainCallsOf env (levels + 1)) d
      (filterScope g family ρ) policyBody =
        some (filterScope g family ρ, policyText g.blackhole family) :=
    plain_policyBody hnext hv' rfl rfl
  simp [filtersBody, plain_filterBindings hload levels hd hv hg, Template.plainAll_append,
    plain_transitTest h hg', hpolicy, htests, filtersText]

end RouteServer.Shipped.Bird

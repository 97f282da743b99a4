import RouteServer.Proofs.Shipped.Bird.Client
import RouteServer.Proofs.Template.Failure

/-!
# Shipped — Bird — the whole text

What rendering gives for every configuration there is, accepted or not (`render_eq`): its text, or
the fault of a community that is missing.

The part about a client asks for the standard encoding of the community of its sets.  Where routes
of the client are tagged and there is no such community, rendering ends there (`fails_clients`).
-/

namespace RouteServer.Shipped.Bird

open RouteServer.Build RouteServer.Net RouteServer.Policy RouteServer.Text
open RouteServer.Template (Calls Environment Expr Fault FailAll Follows PlainCalls Scope Stmt Value
  callsOf only path plainAll plainCallsOf plain_embed failAll_append failAll_cons fails_embed)
open RouteServer.Template.Render (maxDepth embedCost)

/-! ### Where rendering fails -/

section

variable {env : Environment} {calls : Calls} {family : Family} {pc : PlainCalls} {d : Nat}
  {ρ : Scope} {g : General} {roas : Option (List Roa)} {c : Client}

theorem fails_tagTest (hc : Follows env calls pc) (hin : InClient g roas c family ρ)
    (hnone : g.tag = none) (htag : g.filtering.irr.tagAsSet = true) :
    tagTest.Fails env calls d ρ .undefined := by
  have hcfg : (path "cfg" ["filtering", "irrdb", "tag_as_set"]).plain env pc d ρ =
      some (.bool true) := by
    simp [hin.cfg, htag]
  have hvar : (Expr.var "tag").plain env pc d ρ = some (.undefined false) := by
    simp [hin.tag, hnone]
  exact Stmt.fails_test (Expr.fails_and hc hcfg rfl (Expr.fails_attr hc hvar))

theorem fails_irrTests (h : Serves env (some family)) (hc : Follows env calls pc)
    (hd : d + 6 ≤ maxDepth) (hin : InClient g roas c family ρ) (hnone : g.tag = none)
    (htag : c.isTagged g = true) : irrTests.Fails env calls d ρ .undefined := by
  obtain ⟨htag, hids⟩ := Bool.and_eq_true_iff.1 htag
  have horigin : originTests.plain env pc d ρ =
      some (ρ, originTestsText c.cfg.filtering.irr.asSetIds) :=
    plain_setTests h (by omega) _ _ hin.filtering
  have hprefix : prefixTests.plain env pc d ρ =
      some (ρ, prefixTestsText c.cfg.filtering.irr.asSetIds) :=
    plain_setTests h (by omega) _ _ hin.filtering
  -- the tests of origins and prefixes are told plainly
  obtain ⟨ps, hfront⟩ : ∃ ps, plainAll env pc d ρ
      [only (path "f" ["irrdb", "enforce_origin_in_as_set"])
        [.text "\tif !(", originTests, .text ") then reject;\n"],
       only (path "f" ["irrdb", "enforce_prefix_in_as_set"])
        [.text "\tif !(", prefixTests, .text ") then reject;\n"]] = some (ρ, ps) := by
    simp [horigin, hprefix, hin.filtering]
  have hsets : (path "f" ["irrdb", "as_set_ids"]).plain env pc d ρ =
      some (.list (c.cfg.filtering.irr.asSetIds.map .string)) := by
    simp [hin.filtering, Function.comp_def]
  refine Stmt.fails_yes hc hsets (by simpa using hids) ?_
  exact failAll_append hc hfront (failAll_cons (fails_tagTest hc hin hnone htag))

theorem fails_clientBody (h : Serves env (some family)) (hc : Follows env calls pc)
    (hd : d + 6 ≤ maxDepth) (hb : BeforeClient g roas c family ρ) (hnone : g.tag = none)
    (htag : c.isTagged g = true) : FailAll env calls d ρ clientBody .undefined := by
  have hin := hb.inClient
  have hfront : plainAll env pc d ρ (settingsBody ++ checksBody) =
      some (clientScope g c family ρ, checksText family c) := by
    simp [Template.plainAll_append, plain_settingsBody h hb, plain_checksBody h hin]
  have hsplit : clientBody = (settingsBody ++ checksBody) ++
      irrTests :: (receiveBody.drop (checksBody.length + 1) ++ announceBody ++ protocolBody) := rfl
  rw [hsplit]
  exact failAll_append hc hfront (failAll_cons (fails_irrTests h hc hd hin hnone htag))

/-- The clients whose part of the text cannot be written without a community for their sets. -/
def needsTag (f : Family) (g : General) (c : Client) : Bool :=
  decide (c.ip.family = f) && c.isTagged g

theorem fails_clientRound (h : Serves env (some family)) (hc : Follows env calls pc)
    (hd : d + 6 ≤ maxDepth) (hb : BeforeClient g roas c family ρ) (hnone : g.tag = none)
    (hneeds : needsTag family g c = true) :
    FailAll env calls d ρ [only (.test "current_ipver" (path "c" ["ip"]) []) clientBody]
      .undefined := by
  obtain ⟨hfamily, htag⟩ := Bool.and_eq_true_iff.1 hneeds
  have htest : (Expr.test "current_ipver" (path "c" ["ip"]) []).plain env pc d ρ =
      some (.bool true) := by
    simp [hb.client, h.current, inBuild, of_decide_eq_true hfamily]
  exact failAll_cons (Stmt.fails_yes hc htest rfl (fails_clientBody h hc hd hb hnone htag))

theorem fails_clients {cs : List Client} (h : Serves env (some family))
    (hload : env.load "macros.j2" = .ok macrosBody) (levels : Nat) (hd : d + 11 ≤ maxDepth)
    (hv : ρ.lookup "ip_ver" = some (.value (.nat family.number)))
    (hg : ρ.lookup "cfg" = some (.value (.ofYaml g.toValue)))
    (hr : ρ.lookup "roas" = some (.value (.ofYaml (optionValue roasValue roas))))
    (hcs : ρ.lookup "clients" = some (.value (.ofYaml (.list (cs.map Client.toValue)))))
    (hnone : g.tag = none) (hany : cs.any (needsTag family g)) :
    FailAll env (Template.callsOf env (levels + 1)) d ρ clientsBody .undefined := by
  have hfollows := Template.follows_callsOf env (levels + 1)
  have hgives : GivesCommunity (Template.plainCallsOf env (levels + 1)) := givesCommunity h levels
  -- the first of the clients in question
  obtain ⟨c, hfind⟩ := Option.isSome_iff_exists.1 (List.find?_isSome.2 (List.any_eq_true.1 hany))
  obtain ⟨hneeds, earlier, later, rfl, hearlier⟩ := List.find?_eq_some_iff_append.1 hfind
  have hclients : (path "clients" []).plain env (Template.plainCallsOf env (levels + 1)) d
      (clientsScope g ρ) =
        some (.list ((earlier ++ c :: later).map fun x => Value.ofYaml x.toValue)) := by
    simp [clientsScope, hcs, Function.comp_def]
  have hplain : ∀ y ∈ earlier, ∀ loop, ∃ ρ' ps,
      plainAll env (Template.plainCallsOf env (levels + 1)) (d + 1)
        (Template.roundScope (clientsScope g ρ) "c" settingNames (.ofYaml y.toValue) loop)
        [only (.test "current_ipver" (path "c" ["ip"]) []) clientBody] = some (ρ', ps) := by
    intro y hy loop
    obtain ⟨ρ', hround⟩ := plain_clientRound h hgives (show d + 1 + 6 ≤ maxDepth by omega)
      (beforeClient_round hv hg hr y loop) fun hf hty => by
        simpa [needsTag, hf, hty] using hearlier y hy
    exact ⟨ρ', _, hround⟩
  have hround : eachClient.Fails env (Template.callsOf env (levels + 1)) d (clientsScope g ρ)
      .undefined :=
    Template.fails_each hfollows settingNames hclients (by omega) rfl (by decide) hplain
      fun loop => fails_clientRound h hfollows (by omega) (beforeClient_round hv hg hr c loop) hnone
        hneeds
  rw [clientsBody]
  exact failAll_append hfollows (plain_clientBindings hload levels hd hg) (failAll_cons hround)

end

/-! ### The text -/

/-- The places of the templates for the daemon. -/
structure Loads (env : Environment) : Prop where
  main : env.load "main.j2" = .ok mainBody
  bogons : env.load "bogons.j2" = .ok bogonsBody
  sets : env.load "irrdb.j2" = .ok setsBody
  roas : env.load "rpki.j2" = .ok roasBody
  macros : env.load "macros.j2" = .ok macrosBody
  filters : env.load "filters.j2" = .ok filtersBody
  clients : env.load "clients.j2" = .ok clientsBody

def headText (f : Family) (g : General) : List String :=
  ["# BIRD 2 route server configuration, IPv", natText f.number,
   "\n# generated by rsgen, do not edit\n\nrouter id ", Address.v4Text g.routerId,
   ";\ndefine rs_as = ", g.rsAs.text,
   ";\n\nlog syslog all;\nlog \"/var/log/bird.log\" all;\n\nprotocol device \x7b\x7d;\n\n"]

/-- What is written in front of the clients. -/
def commonText (f : Family) (c : Configuration) : List String :=
  headText f c.general ++ bogonsText f c.bogons ++ setsText f c.asSets ++
  roasText f c.general c.roas ++ filtersText f c.general

/-- What is written for a configuration. -/
def fullText (f : Family) (c : Configuration) : List String :=
  commonText f c ++ clientsText f c.general c.roas c.clients

/-- Whether the text needs the community of the sets and there is none. -/
def lacksTag (f : Family) (c : Configuration) : Bool :=
  c.general.tag.isNone && c.clients.any (needsTag f c.general)

/-- What rendering gives. -/
def outcome (f : Family) (c : Configuration) : Except Fault String :=
  if lacksTag f c then .error (.inEmbedded .undefined) else .ok (String.join (fullText f c))

section

variable {env : Environment} {f : Family} {c : Configuration} {ρ : Scope}

theorem plain_front (h : Serves env (some f)) (hl : Loads env) (ht : Told c (some f) ρ)
    (hnext : WritesNextHop env c.general.blackhole f) (levels : Nat) :
    plainAll env (plainCallsOf env (levels + 2)) 1 ρ (headBody ++ partsBody.take 4) =
      some (filterScope c.general f ρ, commonText f c) := by
  have hv : ρ.lookup "ip_ver" = some (.value (.nat f.number)) := ht.ipVer
  have hhead : plainAll env (plainCallsOf env (levels + 2)) 1 ρ headBody =
      some (ρ, headText f c.general) := by
    simp [headBody, hv, ht.cfg, h.string, h.nat, headText, uint32Value, Asn.text]
  have hbogons : plainAll env (plainCallsOf env (levels + 1)) (1 + embedCost) ρ bogonsBody = _ :=
    plain_bogons h (by decide) ht.bogons
  have hsets : plainAll env (plainCallsOf env (levels + 1)) (1 + embedCost) ρ setsBody = _ :=
    plain_sets h (by decide) ht.asSets
  have hroas : plainAll env (plainCallsOf env (levels + 1)) (1 + embedCost) ρ roasBody = _ :=
    plain_roas h (by decide) hv ht.cfg ht.roas
  have hfilters := plain_filters (d := 1 + embedCost) h hl.macros levels (by decide) hnext hv ht.cfg
  have hd : 1 + embedCost ≤ maxDepth := by decide
  have hparts : partsBody.take 4 =
      [.embed (Template.str "bogons.j2") false, .embed (Template.str "irrdb.j2") false,
       .embed (Template.str "rpki.j2") false, .embed (Template.str "filters.j2") false] := rfl
  rw [Template.plainAll_append, hhead, hparts]
  simp only [plainAll, plain_embed hl.bogons _ hd, hbogons, plain_embed hl.sets _ hd,
    hsets, plain_embed hl.roas _ hd, hroas, plain_embed hl.filters _ hd, hfilters,
    Option.bind_eq_bind, Option.bind_some, commonText, List.append_nil, List.append_assoc]

theorem mainBody_eq : mainBody =
    (headBody ++ partsBody.take 4) ++ [.embed (Template.str "clients.j2") false] := rfl

theorem plain_main (h : Serves env (some f)) (hl : Loads env) (ht : Told c (some f) ρ)
    (hnext : WritesNextHop env c.general.blackhole f) (hlacks : lacksTag f c = false)
    (levels : Nat) :
    plainAll env (plainCallsOf env (levels + 2)) 1 ρ mainBody =
      some (clientsScope c.general (filterScope c.general f ρ), fullText f c) := by
  have hv : ρ.lookup "ip_ver" = some (.value (.nat f.number)) := ht.ipVer
  have htag : ∀ x ∈ c.clients, x.ip.family = f → x.isTagged c.general = true →
      c.general.tag.isSome := by
    intro x hx hfamily hx'
    cases hnone : c.general.tag with
    | some t => rfl
    | none =>
        have : c.clients.any (needsTag f c.general) = true :=
          List.any_eq_true.2 ⟨x, hx, by simp [needsTag, hfamily, hx']⟩
        simp [lacksTag, hnone, this] at hlacks
  have hclients := plain_clients (d := 1 + embedCost) (ρ := filterScope c.general f ρ) h hl.macros
    levels (by decide) htag hv ht.cfg ht.roas ht.clients
  rw [mainBody_eq, Template.plainAll_append, plain_front h hl ht hnext]
  simp only [plainAll, plain_embed hl.clients _ (show 1 + embedCost ≤ maxDepth by decide), hclients,
    Option.bind_eq_bind, Option.bind_some, fullText, List.append_nil]

theorem fails_main (h : Serves env (some f)) (hl : Loads env) (ht : Told c (some f) ρ)
    (hnext : WritesNextHop env c.general.blackhole f) (hlacks : lacksTag f c = true)
    (levels : Nat) :
    FailAll env (callsOf env (levels + 2)) 1 ρ mainBody (.inEmbedded .undefined) := by
  have hv : ρ.lookup "ip_ver" = some (.value (.nat f.number)) := ht.ipVer
  obtain ⟨hnone, hany⟩ := Bool.and_eq_true_iff.1 hlacks
  have hclients := fails_clients (d := 1 + embedCost) (ρ := filterScope c.general f ρ) h hl.macros
    levels (by decide) hv ht.cfg ht.roas ht.clients (Option.isNone_iff_eq_none.1 hnone) hany
  rw [mainBody_eq]
  exact failAll_append (Template.follows_callsOf env (levels + 2)) (plain_front h hl ht hnext levels)
    (failAll_cons (fails_embed hl.clients (by decide) hclients))

/-- **The whole of rendering**, for every configuration. -/
theorem render_eq (h : Serves env (some f)) (hl : Loads env)
    (ht : Told c (some f) (Template.rootScope env.root))
    (hnext : WritesNextHop env c.general.blackhole f) :
    Template.render env "main.j2" = outcome f c := by
  unfold outcome
  cases hlacks : lacksTag f c with
  | true => exact Template.render_of_failAll hl.main (fails_main h hl ht hnext hlacks 498)
  | false => exact Template.render_of_plain hl.main (plain_main h hl ht hnext hlacks 498)

end

end RouteServer.Shipped.Bird

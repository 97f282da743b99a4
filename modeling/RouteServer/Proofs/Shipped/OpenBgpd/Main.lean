import RouteServer.Proofs.Shipped.OpenBgpd.Rules
import RouteServer.Proofs.Template.Failure

/-!
# Shipped — OpenBGPD — the whole text

What rendering gives for every configuration there is, accepted or not (`render_eq`): its text, or
the fault of a community that is missing or cannot be written.

The rules that tag the routes of a client ask for the community of its sets and for an extended
encoding that has three parts (`fails_eachClient`); those for blackhole routes ask for their
community (`fails_blackholeRules`).
-/

namespace RouteServer.Shipped.OpenBgpd

open RouteServer.Build RouteServer.Net RouteServer.Policy RouteServer.Text
open RouteServer.Template (Calls Environment Expr Fault FailAll Follows PlainCalls Scope Stmt Value
  callsOf given lookup_roundScope path plainAll plainCallsOf plain_embed failAll_append
  failAll_cons fails_embed str)
open RouteServer.Template.Render (maxDepth embedCost)

/-! ### Where rendering fails -/

section

variable {env : Environment} {a : Arguments} {calls : Calls} {pc : PlainCalls} {d : Nat} {ρ : Scope}
  {g : General} {c : Client} {fault : Fault}

theorem fails_tagBody (h : ServesFiles env a) (hc : Follows env calls pc) {id : String}
    (hin : InClient g c ρ) (hid : ρ.lookup "id" = some (.value (.string id)))
    (hfault : tagFault g = some fault) : FailAll env calls d ρ tagBody fault := by
  unfold tagFault at hfault
  split at hfault
  case h_1 hnone =>
      cases hfault
      have hvar : (Expr.var "tag").plain env pc d ρ = some (.undefined false) := by
        simp [hin.tag, hnone]
      exact failAll_cons (Stmt.fails_test (Expr.fails_attr hc hvar))
  case h_2 t ht =>
      obtain ⟨s, hs, hspaced⟩ := Option.bind_eq_some_iff.1 hfault
      obtain ⟨hext, hne⟩ := Option.filter_eq_some_iff.1 hs
      have hfilter : Template.Builtin.simple Helper.spaceExtended (.string s) [] = .error fault := by
        unfold spacedFault at hspaced
        split at hspaced
        · cases hspaced
        case h_2 f hf =>
            cases hspaced
            simpa [Template.Builtin.simple] using hf
      -- the line with the standard community is written before the other one fails
      have hstd : (tagLine "std" "community" (path "tag" ["std"])).plain env pc d ρ =
          some (ρ, given t.std (tagLineText c id "community")) :=
        plain_tagLine (w := fun s => s) h _ _ hin hid (by simp [ht]) fun s hs _ => by
          simp [hin.tag, ht, hs]
      obtain ⟨ps, hhead⟩ : ∃ ps, plainAll env pc d ρ (tagHead "ext-community") = some (ρ, ps) := by
        simp [tagHead, hin.client, hid, h.string]
      have hvalue : (path "tag" ["ext"]).plain env pc d ρ = some (.string s) := by
        simp [hin.tag, ht, hext]
      have hfront : plainAll env pc d ρ [tagLine "std" "community" (path "tag" ["std"])] =
          some (ρ, given t.std (tagLineText c id "community")) := by
        simp only [plainAll, hstd, Option.bind_eq_bind, Option.bind_some, List.append_nil]
      refine failAll_append hc hfront (failAll_cons (Stmt.fails_yes hc hvalue
        (by simpa using hne) (failAll_append hc hhead (failAll_cons (Stmt.fails_print ?_)))))
      exact Expr.fails_filter hc hvalue h.spaced hfilter

theorem fails_tagRules (h : ServesFiles env a) (hc : Follows env calls pc) (hd : d < maxDepth)
    (hin : InClient g c ρ) (htag : c.isTagged g = true) (hfault : tagFault g = some fault) :
    tagRules.Fails env calls d ρ fault := by
  obtain ⟨htag, hids⟩ := Bool.and_eq_true_iff.1 htag
  have hcfg : (path "cfg" ["filtering", "irrdb", "tag_as_set"]).plain env pc d ρ =
      some (.bool true) := by
    simp [hin.cfg, htag]
  obtain ⟨id, ids, hids⟩ := List.exists_cons_of_ne_nil (l := c.cfg.filtering.irr.asSetIds)
    (by simpa using hids)
  have hlist : (path "irrdb" ["as_set_ids"]).plain env pc d ρ =
      some (.list (([] ++ id :: ids).map Value.string)) := by
    rw [plain_ids hin, hids]
    rfl
  refine Stmt.fails_yes hc hcfg rfl (failAll_cons ?_)
  exact Template.fails_each hc [] hlist hd rfl (by decide) (fun _ hy => by cases hy)
    fun loop => fails_tagBody h hc (hin.round (.string id) loop (by decide)) rfl hfault

theorem fails_clientRound (h : ServesFiles env a) (hc : Follows env calls pc) (hd : d < maxDepth)
    (hg : ρ.lookup "cfg" = some (.value (.ofYaml g.toValue)))
    (ht : ρ.lookup "tag" = some (.value (communityValue g.tag)))
    (hclient : ρ.lookup "c" = some (.value (.ofYaml c.toValue)))
    (hneeds : needsTag a.family g c = true) (hfault : tagFault g = some fault) :
    FailAll env calls d ρ clientRound fault := by
  obtain ⟨hf, htag⟩ := Bool.and_eq_true_iff.1 hneeds
  have hin := inClient_rules hg ht hclient
  have htest : (Expr.test "current_ipver" (path "c" ["ip"]) []).plain env pc d ρ =
      some (.bool true) := by
    simp [hclient, h.current, hf]
  have hfront : plainAll env pc d ρ (bindIrr ++ routeRules) =
      some (clientRulesScope c ρ, routeRulesText c) := by
    simp [Template.plainAll_append, plain_bindIrr hclient, plain_routeRules h hd hin]
  exact failAll_cons (Stmt.fails_yes hc htest rfl
    (failAll_append hc hfront (failAll_cons (fails_tagRules h hc hd hin htag hfault))))

theorem fails_eachClient {cs : List Client} (h : ServesFiles env a) (hc : Follows env calls pc)
    (hd : d + 1 < maxDepth) (hg : ρ.lookup "cfg" = some (.value (.ofYaml g.toValue)))
    (hcs : ρ.lookup "clients" = some (.value (.ofYaml (.list (cs.map Client.toValue)))))
    (hany : cs.any (needsTag a.family g)) (hfault : tagFault g = some fault) :
    eachClient.Fails env calls d (filterScope a.family g ρ) fault := by
  -- the first client whose routes are tagged
  obtain ⟨c, hfind⟩ := Option.isSome_iff_exists.1 (List.find?_isSome.2 (List.any_eq_true.1 hany))
  obtain ⟨hneeds, earlier, later, rfl, hearlier⟩ := List.find?_eq_some_iff_append.1 hfind
  have hclients : (path "clients" []).plain env pc d (filterScope a.family g ρ) =
      some (.list ((earlier ++ c :: later).map fun x => Value.ofYaml x.toValue)) := by
    simp [filterScope, hcs, Function.comp_def]
  have hplain : ∀ y ∈ earlier, ∀ loop, ∃ ρ' ps, plainAll env pc (d + 1)
      (Template.roundScope (filterScope a.family g ρ) "c" ["irrdb"] (.ofYaml y.toValue) loop)
      clientRound = some (ρ', ps) := by
    intro y hy loop
    obtain ⟨ρ', hround⟩ := plain_round (c := y) h hd hg loop fun hf hty => by
      have hy := hearlier y hy
      simp [needsTag, hf, hty] at hy
    exact ⟨ρ', _, hround⟩
  refine Template.fails_each hc ["irrdb"] hclients (by omega) rfl (by decide) hplain fun loop => ?_
  refine fails_clientRound h hc hd ?_ ?_ rfl hneeds hfault
  · rw [lookup_roundScope (by decide)]
    exact hg
  · rw [lookup_roundScope (by decide)]
    rfl

theorem fails_blackholeRules (hc : Follows env calls pc)
    (hb : ρ.lookup "blackholing" = some (.value (.undefined false))) :
    blackholeRules.Fails env calls d ρ .undefined := by
  have hvar : (Expr.var "blackholing").plain env pc d ρ = some (.undefined false) := by simp [hb]
  exact Stmt.fails_test (Expr.fails_attr hc hvar)

end

/-! ### The text -/

/-- The places of the templates for the daemon. -/
structure Loads (env : Environment) : Prop where
  main : env.load "main.j2" = .ok mainBody
  bogons : env.load "bogons.j2" = .ok bogonsBody
  sets : env.load "irrdb.j2" = .ok setsBody
  filters : env.load "filters.j2" = .ok filtersBody
  clients : env.load "clients.j2" = .ok clientsBody

/-- What is written in front of the clients. -/
def headText (a : Arguments) (c : Configuration) : List String :=
  ["# OpenBGPD route server configuration\n# generated by rsgen, do not edit\n\n",
   localText a "header", "AS ", c.general.rsAs.text, "\nrouter-id ",
   Address.v4Text c.general.routerId, "\nfib-update no\nlog updates\n\n"] ++
  bogonsText a.family c.bogons ++ [localText a "pre-irrdb"] ++ setsText a.family c.asSets ++
  [localText a "post-irrdb", localText a "pre-clients"]

/-- What is written behind the clients. -/
def restText (a : Arguments) (c : Configuration) : List String :=
  [localText a "post-clients", localText a "pre-filters"] ++
  filtersText a.family c.general c.clients ++
  [localText a "post-filters", localText a "footer", "\n"]

/-- What is written for a configuration. -/
def fullText (a : Arguments) (c : Configuration) : List String :=
  headText a c ++ clientsText a c.general c.clients ++ restText a c

/-- What the rules for the clients need of the community of their sets and do not find. -/
def clientsFault (family : Option Family) (g : General) (cs : List Client) : Option Fault :=
  if cs.any (needsTag family g) then tagFault g else none

/-- What the text needs of the communities and does not find. -/
def faultOf (a : Arguments) (c : Configuration) : Option Fault :=
  (clientsFault a.family c.general c.clients).or
    (if c.general.blackholing.isNone then some .undefined else none)

/-- What rendering gives. -/
def outcome (a : Arguments) (c : Configuration) : Except Fault String :=
  match faultOf a c with
  | some fault => .error (.inEmbedded fault)
  | none => .ok (String.join (fullText a c))

theorem tagFault_of_clientsFault {family : Option Family} {g : General} {cs : List Client}
    (h : clientsFault family g cs = none) :
    ∀ c ∈ cs, inBuild family c.ip = true → c.isTagged g = true → tagFault g = none := by
  intro c hc hf htag
  have hany : cs.any (needsTag family g) = true :=
    List.any_eq_true.2 ⟨c, hc, by simp [needsTag, hf, htag]⟩
  simpa [clientsFault, hany] using h

section

variable {env : Environment} {a : Arguments} {c : Configuration} {ρ : Scope} {d : Nat}

theorem fails_filters (h : ServesFiles env a) (levels : Nat) (hd : d + 1 < maxDepth)
    (ht : Told c a.family ρ) {fault : Fault} (hfault : faultOf a c = some fault) :
    FailAll env (callsOf env levels) d ρ filtersBody fault := by
  have hc := Template.follows_callsOf env levels
  have hfront : plainAll env (plainCallsOf env levels) d ρ (filterBindings ++ generalBody) = _ :=
    plain_filtersFront h (by omega) ht.ipVer ht.cfg
  have hsplit : filtersBody =
      (filterBindings ++ generalBody) ++ eachClient :: [.text "\n", blackholeRules] := rfl
  rw [hsplit]
  refine failAll_append hc hfront ?_
  cases hclients : clientsFault a.family c.general c.clients with
  | some f =>
      -- the rules for the clients fail
      obtain rfl : f = fault := by simpa [faultOf, hclients] using hfault
      unfold clientsFault at hclients
      split at hclients
      case isTrue hany => exact failAll_cons (fails_eachClient h hc hd ht.cfg ht.clients hany hclients)
      case isFalse => cases hclients
  | none =>
      -- the rules for blackhole routes fail behind them
      obtain ⟨hnone, rfl⟩ : c.general.blackholing = none ∧ .undefined = fault := by
        simpa [faultOf, hclients] using hfault
      have hloop : eachClient.plain env (plainCallsOf env levels) d
          (filterScope a.family c.general ρ) = _ :=
        plain_eachClient h hd ht.cfg ht.clients (tagFault_of_clientsFault hclients)
      have hrounds : plainAll env (plainCallsOf env levels) d (filterScope a.family c.general ρ)
          [eachClient, .text "\n"] = some (filterScope a.family c.general ρ,
            clientRulesText a.family c.general c.clients ++ ["\n"]) := by
        simp only [plainAll, hloop, Stmt.plain, Option.bind_eq_bind, Option.bind_some,
          List.append_nil]
      exact failAll_append hc hrounds (failAll_cons (fails_blackholeRules hc (by
        rw [← communityValue_none, ← hnone]
        rfl)))

theorem plain_front (h : ServesFiles env a) (hl : Loads env) (levels : Nat)
    (ht : Told c a.family ρ) :
    plainAll env (plainCallsOf env (levels + 1)) 1 ρ frontBody =
      some (ρ, headText a c ++ clientsText a c.general c.clients ++
        [localText a "post-clients", localText a "pre-filters"]) := by
  have hd : 1 + embedCost ≤ maxDepth := by decide
  have hbogons : plainAll env (plainCallsOf env levels) (1 + embedCost) ρ bogonsBody = _ :=
    plain_bogons h.toServes (by decide) ht.bogons
  have hsets : plainAll env (plainCallsOf env levels) (1 + embedCost) ρ setsBody = _ :=
    plain_sets h.toServes (by decide) ht.asSets
  have hclients : plainAll env (plainCallsOf env levels) (1 + embedCost) ρ clientsBody = _ :=
    plain_clients h (by decide) ht.cfg ht.clients
  have hlocal : ∀ id ∈ Arguments.localFileIds,
      (localFile id).plain env (plainCallsOf env (levels + 1)) 1 ρ = some (ρ, [localText a id]) :=
    fun id hid => plain_localFile h id hid
  have hrsAs : (Stmt.print (Template.path "cfg" ["rs_as"])).plain env
      (plainCallsOf env (levels + 1)) 1 ρ = some (ρ, [c.general.rsAs.text]) := by
    simp [ht.cfg, h.nat, Asn.text]
  have hrouter : (Stmt.print (Template.path "cfg" ["router_id"])).plain env
      (plainCallsOf env (levels + 1)) 1 ρ = some (ρ, [Address.v4Text c.general.routerId]) := by
    simp [ht.cfg, h.string]
  have htext : ∀ s, (Stmt.text s).plain env (plainCallsOf env (levels + 1)) 1 ρ = some (ρ, [s]) :=
    fun _ => rfl
  simp only [frontBody, plainAll, htext, hrsAs, hrouter, hlocal "header" (by decide),
    hlocal "pre-irrdb" (by decide), hlocal "post-irrdb" (by decide),
    hlocal "pre-clients" (by decide), hlocal "post-clients" (by decide),
    hlocal "pre-filters" (by decide), plain_embed hl.bogons _ hd, hbogons,
    plain_embed hl.sets _ hd, hsets, plain_embed hl.clients _ hd, hclients, Option.bind_eq_bind,
    Option.bind_some, headText, List.append_nil, List.append_assoc, List.cons_append,
    List.nil_append]

theorem plain_main (h : ServesFiles env a) (hl : Loads env) (levels : Nat)
    (ht : Told c a.family ρ) (hnext : ∀ f, WritesNextHop env c.general.blackhole f)
    (hfault : faultOf a c = none) :
    plainAll env (plainCallsOf env (levels + 1)) 1 ρ mainBody =
      some (filterScope a.family c.general ρ, fullText a c) := by
  -- nothing is missing, for the clients or for blackhole routes
  obtain ⟨hclients, hb⟩ := Option.or_eq_none_iff.1 hfault
  have hfilters : plainAll env (plainCallsOf env levels) (1 + embedCost) ρ filtersBody = _ :=
    plain_filters h (by decide) hnext ht.ipVer ht.cfg ht.clients
      (tagFault_of_clientsFault hclients) (by
        cases hb' : c.general.blackholing with
        | some b => rfl
        | none => simp [hb'] at hb)
  have hlocal : ∀ id ∈ Arguments.localFileIds, ∀ ρ,
      (localFile id).plain env (plainCallsOf env (levels + 1)) 1 ρ = some (ρ, [localText a id]) :=
    fun id hid _ => plain_localFile h id hid
  have htext : ∀ ρ s, (Stmt.text s).plain env (plainCallsOf env (levels + 1)) 1 ρ = some (ρ, [s]) :=
    fun _ _ => rfl
  rw [mainBody, Template.plainAll_append, plain_front h hl levels ht]
  simp only [plainAll, plain_embed hl.filters _ (show 1 + embedCost ≤ maxDepth by decide), hfilters,
    footBody, hlocal "post-filters" (by decide), hlocal "footer" (by decide), htext,
    Option.bind_eq_bind, Option.bind_some, fullText, restText, List.append_assoc, List.cons_append,
    List.nil_append]

/-- **The whole of rendering**, for every configuration. -/
theorem render_eq (h : ServesFiles env a) (hl : Loads env)
    (ht : Told c a.family (Template.rootScope env.root))
    (hnext : ∀ f, WritesNextHop env c.general.blackhole f) :
    Template.render env "main.j2" = outcome a c := by
  unfold outcome
  split
  case h_1 fault hfault =>
      refine Template.render_of_failAll hl.main ?_
      have hfilters := fails_filters (d := 1 + embedCost) h 499 (by decide) ht hfault
      exact failAll_append (Template.follows_callsOf env 500) (plain_front h hl 499 ht)
        (failAll_cons (fails_embed hl.filters (by decide) hfilters))
  case h_2 hfault =>
      exact Template.render_of_plain hl.main (plain_main h hl 499 ht hnext hfault)

end

end RouteServer.Shipped.OpenBgpd

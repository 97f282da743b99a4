import RouteServer.Proofs.Template.Rounds

/-!
# Template — the machine does what is told plainly

Statements run as they are told plainly when calls do, and so calls do level by level
(`follows_callsOf`).  What is rendered is then the text that is told plainly (`render_of_plain`).
-/

namespace RouteServer.Template

open Render

/-! ### Snippets of another template -/

/-- The values of a frame are known by the meanings of some snippets. -/
def Holds (taken : Scope) (vars : List (String × Value)) : Prop :=
  ∀ n μ, taken.lookup n = some μ → ∃ v, vars.lookup n = some v ∧ μ.Of v

theorem Tells.takeNames {root : Bindings} {f : Frame} {fs : List Frame} {taken ρ ρ' : Scope}
    {vars : List (String × Value)} (hv : Holds taken vars) {names : List (String × String)}
    (h : takeNames taken names ρ = some ρ') (ht : Tells root (f :: fs) ρ) :
    Tells root ({ f with
      vars := (names.map fun e => (e.2, (vars.lookup e.1).getD (.undefined false))).reverse ++
        f.vars } :: fs) ρ' := by
  induction names generalizing f ρ with
  | nil =>
      cases h
      exact ht
  | cons e names ih =>
      obtain ⟨n, alias_⟩ := e
      unfold RouteServer.Template.takeNames at h
      split at h
      case h_1 μ hμ =>
          obtain ⟨v, hv', hof⟩ := hv n μ hμ
          have htell : Tells root ({ f with vars := (alias_, v) :: f.vars } :: fs)
              ((alias_, μ) :: ρ) := ht.cons hof
          have := ih h htell
          simpa [hv'] using this
      case h_2 => cases h

theorem take_ok {root : Bindings} {f : Frame} {fs : List Frame} {taken ρ ρ' : Scope}
    {vars : List (String × Value)} (hv : Holds taken vars) {names : List (String × String)}
    (h : takeNames taken names ρ = some ρ') {m : Machine} (hm : m.frames = f :: fs)
    (hf : f.scope = none) (ht : Tells root m.frames ρ) :
    ∃ m', (names.forM fun (n, alias_) =>
        Render.bind alias_ ((vars.lookup n).getD (.undefined false))) m = .ok ((), m') ∧
      Ran root (some (names.map (·.2))) f fs ρ' [] m m' := by
  -- to take names is to bind the values that the snippets have under them
  have hforM : ∀ ns : List (String × String),
      (ns.forM fun (n, alias_) => Render.bind alias_ ((vars.lookup n).getD (.undefined false))) =
        (ns.map fun e => (e.2, (vars.lookup e.1).getD (.undefined false))).forM
          fun e => Render.bind e.1 e.2 := by
    intro ns
    induction ns with
    | nil => rfl
    | cons e ns ih =>
        show (Render.bind e.2 _ >>= fun _ => List.forM ns _) = _
        rw [ih]
        rfl
  let taken' := names.map fun e => (e.2, (vars.lookup e.1).getD (.undefined false))
  refine ⟨bound taken' f fs m, by rw [hforM]; exact forM_bind_eq hm hf,
    ⟨_, rfl, grown_bound ?_ hf, ?_⟩, rfl, rfl⟩
  · intro e he
    obtain ⟨e', he', rfl⟩ := List.mem_map.1 he
    exact List.mem_map.2 ⟨e', he', rfl⟩
  · rw [hm] at ht
    exact ht.takeNames hv h

theorem keep_frames (root : Bindings) (id : Nat) (names : List String) (m : Machine) :
    ∃ m', keep root id names m = .ok ((), m') ∧ Same m m' := by
  unfold keep
  induction names generalizing m with
  | nil => exact ⟨m, rfl, .refl m⟩
  | cons n names ih =>
      -- what a snippet keeps goes to its scope, and no frame notices
      let m₁ := if ((scopeOf m id).lookup n).isSome then m
        else bindIn m id n ((lookup? root m n).getD (.undefined false))
      have hm₁ : Same m m₁ := by
        simp only [m₁]
        split <;> exact ⟨rfl, rfl, rfl⟩
      obtain ⟨m', hrest, hs⟩ := ih m₁
      exact ⟨m', hrest, hm₁.trans hs⟩

/-- A snippet is bound in the frame in which it is defined. -/
theorem exec_snippet (env : Environment) (calls : Calls) (n : String) (params : List String)
    (body : List Stmt) {m : Machine} {f : Frame} {fs : List Frame} (hm : m.frames = f :: fs) :
    ∃ m' f' id, (Stmt.snippet n params body).exec env calls m = .ok ((), m') ∧
      m'.frames = f' :: fs ∧ m'.depth = m.depth ∧
      f'.vars = (n, .snippet n params body id) :: f.vars := by
  -- the first snippet of a frame opens a scope for all of them
  obtain ⟨id, m₁, f₁, hopen, hm₁, hdepth₁, hvars₁⟩ : ∃ id m₁ f₁, openScope m = .ok (id, m₁) ∧
      m₁.frames = f₁ :: fs ∧ m₁.depth = m.depth ∧ f₁.vars = f.vars := by
    cases hf : f.scope with
    | some id =>
        refine ⟨id, m, f, ?_, hm, rfl, rfl⟩
        rw [openScope, bind_ok (get_eq m)]
        simp only [hm, hf]
        rfl
    | none =>
        refine ⟨m.scopes.length, { m with
          frames := { f with scope := some m.scopes.length } :: fs
          scopes := (m.scopes.length, []) :: m.scopes }, { f with scope := some m.scopes.length },
          ?_, rfl, rfl, rfl⟩
        rw [openScope, bind_ok (get_eq m)]
        simp only [hm, hf]
        rfl
  obtain ⟨m₂, hkeep, hs⟩ := keep_frames env.root id (namesOfStmts body) m₁
  have hm₂ : m₂.frames = f₁ :: fs := hs.frames.trans hm₁
  have hdepth₂ : m₂.depth = m.depth := hs.depth.trans hdepth₁
  rw [Stmt.exec, bind_ok hopen, bind_ok hkeep]
  cases hf : f₁.scope with
  | none =>
      rw [bind_eq hm₂ hf]
      exact ⟨_, _, id, rfl, rfl, hdepth₂, by rw [← hvars₁]; rfl⟩
  | some id' =>
      refine ⟨bindIn { m₂ with frames := { f₁ with
        vars := (n, .snippet n params body id) :: f₁.vars } :: fs } id' n
          (.snippet n params body id), _, id, ?_, rfl, hdepth₂, by rw [hvars₁]⟩
      simp only [Render.bind, modify_eq, hm₂, hf]

theorem execAll_of_snippets (env : Environment) (calls : Calls) {body : List Stmt}
    {taken done : Scope} (h : snippets? body done = some taken) {m : Machine} {f : Frame}
    {fs : List Frame} (hm : m.frames = f :: fs) (hdone : Holds done f.vars) :
    ∃ m' f', execAll env calls body m = .ok ((), m') ∧ m'.frames = f' :: fs ∧
      m'.depth = m.depth ∧ Holds taken f'.vars := by
  induction body generalizing done m f with
  | nil =>
      cases h
      exact ⟨m, f, rfl, hm, rfl, hdone⟩
  | cons s ss ih =>
      cases s with
      | text t =>
          obtain ⟨m', f', hrest, hm', hdepth, hv⟩ :=
            ih (m := { m with out := t :: m.out }) h hm hdone
          exact ⟨m', f', hrest, hm', hdepth, hv⟩
      | snippet n params b =>
          obtain ⟨m₁, f₁, id, hexec, hm₁, hdepth₁, hvars₁⟩ :=
            exec_snippet env calls n params b hm
          have hdone₁ : Holds ((n, .snippet params b) :: done) f₁.vars := by
            intro k μ hk
            rw [hvars₁, List.lookup_cons]
            rw [List.lookup_cons] at hk
            split at hk
            · cases hk
              exact ⟨_, rfl, n, id, rfl⟩
            · exact hdone k μ hk
          obtain ⟨m', f', hrest, hm', hdepth, hv⟩ := ih h hm₁ hdone₁
          exact ⟨m', f', by rw [execAll, bind_ok hexec, hrest], hm', hdepth.trans hdepth₁, hv⟩
      | _ => cases h

/-! ### Statements and levels -/

section

variable {env : Environment} {calls : Calls} {pc : PlainCalls}

/-- The names that a template binds in a frame of its own. -/
def takenVars (calls : Calls) (body : List Stmt) : Render Bindings := do
  let _ ← capture (embedStmts calls body)
  let m ← get
  pure ((m.frames.head?.map Frame.vars).getD [])

theorem snippets_ok (hc : Follows env calls pc) {body : List Stmt} {taken : Scope}
    (h : pc.snippets body = some taken) {m : Machine}
    (hd : ¬ maxDepth < depthOf m + 1 + embedCost) :
    ∃ m' vars, inFrame {} (takenVars calls body) m = .ok (vars, m') ∧ Same m m' ∧
      Holds taken vars := by
  -- the snippets are bound in a frame that is gone afterwards
  let m₁ : Machine := { m with frames := {} :: m.frames }
  have hd₁ : ¬ maxDepth < depthOf m + 1 := by omega
  let m₂ : Machine := { m₁ with out := [], depth := m.depth + embedCost }
  have hm₂ : m₂.frames = {} :: m.frames := rfl
  obtain ⟨m₃, f₃, hembed, hm₃, hdepth₃, hv⟩ := hc.snippets h hm₂ rfl
  have hembed' : embedStmts calls body { m₁ with out := [] } =
      .ok ((), { m₃ with depth := m₃.depth - embedCost }) :=
    embedStmts_ok hd hembed
  have hvars : takenVars calls body m₁ =
      .ok (f₃.vars, { m₃ with depth := m₃.depth - embedCost, out := m₁.out }) := by
    rw [takenVars, bind_ok (capture_ok hembed'), bind_ok (get_eq _)]
    simp only [hm₃]
    rfl
  refine ⟨_, f₃.vars, inFrame_ok hd₁ hvars, ⟨?_, ?_, rfl⟩, hv⟩
  · simp only [hm₃, List.tail_cons]
  · simp only [hdepth₃]
    exact Nat.add_sub_cancel m.depth embedCost

mutual
/-- A statement does what is told plainly. -/
theorem Stmt.exec_of_plain (hc : Follows env calls pc) : ∀ {s : Stmt} {d : Nat} {ρ ρ' : Scope}
    {ps : List String} {m : Machine} {f : Frame} {fs : List Frame}, m.frames = f :: fs →
    f.scope = none → At env.root d ρ m → s.plain env pc d ρ = some (ρ', ps) →
      ∃ m', s.exec env calls m = .ok ((), m') ∧ Ran env.root s.bound? f fs ρ' ps m m'
  | .text t, d, ρ, ρ', ps, m, f, fs, hm, hf, hat, h => by
      cases h
      exact ⟨{ m with out := t :: m.out }, rfl, ran_of_out hm hf hat.tells rfl rfl rfl⟩
  | .print e, d, ρ, ρ', ps, m, f, fs, hm, hf, hat, h => by
      obtain ⟨v, hv, h⟩ := Option.bind_eq_some_iff.1 h
      obtain ⟨t, ht, h⟩ := Option.bind_eq_some_iff.1 h
      cases h
      obtain ⟨m₁, heval, hs⟩ := Expr.eval_of_plain hc hat hv
      unfold written? at ht
      split at ht
      · cases ht
      case h_2 hne =>
          refine ⟨{ m₁ with out := t :: m₁.out }, ?_, ran_of_out hm hf hat.tells hs.frames
            hs.depth (by rw [← hs.out]; rfl)⟩
          rw [Stmt.exec, bind_ok heval]
          split
          · exact absurd rfl hne
          · rw [bind_ok (lift_of ht m₁)]
            rfl
  | .branch t yes no, d, ρ, ρ', ps, m, f, fs, hm, hf, hat, h => by
      obtain ⟨v, hv, h⟩ := Option.bind_eq_some_iff.1 h
      obtain ⟨b, hb, h⟩ := Option.bind_eq_some_iff.1 h
      obtain ⟨m₁, heval, hs⟩ := Expr.eval_of_plain hc hat hv
      have hm₁ : m₁.frames = f :: fs := hs.frames.trans hm
      split at h
      case isTrue hyes =>
          obtain ⟨m', hexec, hran⟩ := execAll_of_plain hc hm₁ hf (hat.same hs) h
          refine ⟨m', ?_, (hran.after hs).mono fun ls hls => ?_⟩
          · rw [Stmt.exec, bind_ok heval, bind_ok (truth_of hb m₁), if_pos hyes, hexec]
          · obtain ⟨ns, hns, hls⟩ := Option.bind_eq_some_iff.1 hls
            obtain ⟨ms, -, hls⟩ := Option.bind_eq_some_iff.1 hls
            cases hls
            exact ⟨ns, hns, fun n hn => List.mem_append_left _ hn⟩
      case isFalse hno =>
          obtain ⟨m', hexec, hran⟩ := execAll_of_plain hc hm₁ hf (hat.same hs) h
          refine ⟨m', ?_, (hran.after hs).mono fun ls hls => ?_⟩
          · rw [Stmt.exec, bind_ok heval, bind_ok (truth_of hb m₁), if_neg hno, hexec]
          · obtain ⟨ns, -, hls⟩ := Option.bind_eq_some_iff.1 hls
            obtain ⟨ms, hms, hls⟩ := Option.bind_eq_some_iff.1 hls
            cases hls
            exact ⟨ms, hms, fun n hn => List.mem_append_right _ hn⟩
  | .loop target e none body otherwise, d, ρ, ρ', ps, m, f, fs, hm, hf, hat, h => by
      obtain ⟨v, hv, h⟩ := Option.bind_eq_some_iff.1 h
      obtain ⟨items, hitems, h⟩ := Option.bind_eq_some_iff.1 h
      obtain ⟨m₁, heval, hs⟩ := Expr.eval_of_plain hc hat hv
      have hm₁ : m₁.frames = f :: fs := hs.frames.trans hm
      have hat₁ := hat.same hs
      split at h
      case isTrue hempty =>
          obtain ⟨m', hexec, hran⟩ := execAll_of_plain hc hm₁ hf hat₁ h
          refine ⟨m', ?_, hran.after hs⟩
          rw [Stmt.exec, bind_ok heval, bind_ok (itemsOf_of hitems m₁)]
          show (if items.isEmpty then _ else _ : Render Unit) m₁ = _
          rw [if_pos hempty, hexec]
      case isFalse hitems' =>
          obtain ⟨names, hnames, h⟩ := Option.bind_eq_some_iff.1 h
          split at h
          · cases h
          case isFalse hcan =>
              obtain ⟨pss, hpss, h⟩ := Option.bind_eq_some_iff.1 h
              cases h
              rw [not_or] at hcan
              have hrun : ∀ {ρ ρ' ps m f fs}, m.frames = f :: fs → f.scope = none →
                  At env.root (d + 1) ρ m → plainAll env pc (d + 1) ρ body = some (ρ', ps) →
                  ∃ m', execAll env calls body m = .ok ((), m') ∧
                    Ran env.root (some names) f fs ρ' ps m m' := fun hm hf hat h => by
                obtain ⟨m', hexec, hran⟩ := execAll_of_plain hc hm hf hat h
                exact ⟨m', hexec, hnames ▸ hran⟩
              obtain ⟨m', g', hrounds, hm', -, -, hdepth, hout⟩ :=
                framed_rounds_of_plain hat₁ hcan.2 hrun hpss
              have hframe := inFrame_ok (hat₁.depth ▸ hcan.1) hrounds
              -- the frame of the loop is gone, and with it all that the rounds have bound
              have hran : Ran env.root (bound? otherwise) f fs ρ pss.flatten m₁
                  { m' with frames := m'.frames.tail } :=
                ran_of_out hm₁ hf hat₁.tells (by simp only [hm', List.tail_cons]) hdepth hout
              refine ⟨{ m' with frames := m'.frames.tail }, ?_, hran.after hs⟩
              rw [Stmt.exec, bind_ok heval, bind_ok (itemsOf_of hitems m₁)]
              show (if items.isEmpty then _ else _ : Render Unit) m₁ = _
              rw [if_neg hitems']
              exact hframe
  | .bind target e, d, ρ, ρ', ps, m, f, fs, hm, hf, hat, h => by
      obtain ⟨v, hv, h⟩ := Option.bind_eq_some_iff.1 h
      obtain ⟨vars, hvars, h⟩ := Option.bind_eq_some_iff.1 h
      cases h
      obtain ⟨m₁, heval, hs⟩ := Expr.eval_of_plain hc hat hv
      have hm₁ : m₁.frames = f :: fs := hs.frames.trans hm
      have htell := (hat.same hs).tells
      rw [hm₁] at htell
      refine ⟨bound vars f fs m₁, ?_,
        ⟨_, rfl, grown_bound (names_of_bindings hvars) hf, htell.tell _⟩, hs.depth, hs.out⟩
      rw [Stmt.exec, bind_ok heval, bindTarget_of hvars hm₁ hf]
  | .embed e optional, d, ρ, ρ', ps, m, f, fs, hm, hf, hat, h => by
      obtain ⟨v, hv, h⟩ := Option.bind_eq_some_iff.1 h
      obtain ⟨body, hbody, h⟩ := Option.bind_eq_some_iff.1 h
      obtain ⟨m₁, heval, hs⟩ := Expr.eval_of_plain hc hat hv
      have hat₁ := hat.same hs
      split at h
      · cases h
      case isFalse hd =>
          let m₂ : Machine := { m₁ with depth := m₁.depth + embedCost }
          have hm₂ : m₂.frames = f :: fs := hs.frames.trans hm
          have hat₂ : At env.root (d + embedCost) ρ m₂ := by
            refine ⟨?_, hat₁.tells⟩
            rw [← hat₁.depth]
            simp only [depthOf, m₂]
            omega
          obtain ⟨m', hembed, hran⟩ := hc.embed h hm₂ hf hat₂
          have hd₁ : ¬ maxDepth < depthOf m₁ + embedCost := hat₁.depth ▸ hd
          refine ⟨{ m' with depth := m'.depth - embedCost }, ?_, ⟨hran.frames, ?_, ?_⟩⟩
          · rw [Stmt.exec, bind_ok heval, bind_ok (loadNamed_of hbody optional m₁)]
            exact embedStmts_ok hd₁ hembed
          · show m'.depth - embedCost = m.depth
            rw [hran.depth, ← hs.depth]
            exact Nat.add_sub_cancel m₁.depth embedCost
          · rw [← hs.out]
            exact hran.out
  | .take e names, d, ρ, ρ', ps, m, f, fs, hm, hf, hat, h => by
      obtain ⟨v, hv, h⟩ := Option.bind_eq_some_iff.1 h
      obtain ⟨body, hbody, h⟩ := Option.bind_eq_some_iff.1 h
      obtain ⟨taken, htaken, h⟩ := Option.bind_eq_some_iff.1 h
      obtain ⟨m₁, heval, hs⟩ := Expr.eval_of_plain hc hat hv
      have hat₁ := hat.same hs
      split at h
      · cases h
      case isFalse hd =>
          obtain ⟨ρ'', hnames, h⟩ := Option.bind_eq_some_iff.1 h
          cases h
          obtain ⟨m₂, vars, htake, hs', hv⟩ :=
            snippets_ok hc htaken (m := m₁) (by rw [hat₁.depth]; exact hd)
          have hat₂ := hat₁.same hs'
          obtain ⟨m', hforM, hran⟩ :=
            take_ok hv hnames ((hs.trans hs').frames.trans hm) hf hat₂.tells
          refine ⟨m', ?_, hran.after (hs.trans hs')⟩
          rw [Stmt.exec, bind_ok heval, bind_ok (loadNamed_of hbody false m₁)]
          show ((inFrame {} (takenVars calls body) : Render Bindings) >>= _) m₁ = _
          rw [bind_ok htake, hforM]
  | .loop _ _ (some _) _ _, _, _, _, _, _, _, _, _, _, _, h
  | .snippet _ _ _, _, _, _, _, _, _, _, _, _, _, h => by cases h

theorem execAll_of_plain (hc : Follows env calls pc) : ∀ {ss : List Stmt} {d : Nat}
    {ρ ρ' : Scope} {ps : List String} {m : Machine} {f : Frame} {fs : List Frame},
    m.frames = f :: fs → f.scope = none → At env.root d ρ m →
    plainAll env pc d ρ ss = some (ρ', ps) →
      ∃ m', execAll env calls ss m = .ok ((), m') ∧ Ran env.root (bound? ss) f fs ρ' ps m m'
  | [], d, ρ, ρ', ps, m, f, fs, hm, hf, hat, h => by
      cases h
      exact ⟨m, rfl, ran_of_out hm hf hat.tells rfl rfl rfl⟩
  | s :: ss, d, ρ, ρ', ps, m, f, fs, hm, hf, hat, h => by
      obtain ⟨⟨ρ₁, ps₁⟩, hs, h⟩ := Option.bind_eq_some_iff.1 h
      obtain ⟨⟨ρ₂, ps₂⟩, hss, h⟩ := Option.bind_eq_some_iff.1 h
      cases h
      obtain ⟨m₁, hexec, hran⟩ := Stmt.exec_of_plain hc hm hf hat hs
      obtain ⟨f₁, hm₁, hgrown, -⟩ := hran.frames
      obtain ⟨m₂, hexec', hran'⟩ :=
        execAll_of_plain hc hm₁ hgrown.scope (hran.at hm hat.depth) hss
      exact ⟨m₂, by rw [execAll, bind_ok hexec, hexec'], hran.append hm₁ hran'⟩
end

end

theorem callSnippet_of_plain {env : Environment} {calls : Calls} {pc : PlainCalls}
    (hc : Follows env calls pc) {d : Nat} {params : List String} {body : List Stmt}
    {args : List Value} {ρ : Scope} {ps : List String} (hlen : args.length = params.length)
    (hd : d + snippetCost + 2 ≤ maxDepth)
    (h : plainAll env pc (d + snippetCost + 2) (Scope.tell (params.zip args) []) body =
      some (ρ, ps)) {m : Machine} (hm : depthOf m = d) (id : Nat) :
    ∃ m', callSnippet (execAll env calls) params body id args m =
      .ok (.string (String.join ps), m') ∧ Same m m' := by
  -- the body sees its parameters and what it keeps, but none of the frames of the caller
  let frame : Frame := { vars := (params.zip args).reverse, reads := some id }
  let m₁ : Machine := { m with frames := [frame, {}], depth := depthOf m + snippetCost }
  have hpad : args ++ List.replicate (params.length - args.length) (.undefined false) = args := by
    simp [hlen]
  have hat : At env.root (d + snippetCost + 2) (Scope.tell (params.zip args) [])
      { m₁ with out := [] } := by
    constructor
    · rw [← hm]
      rfl
    · have hnone : Tells env.root [{ reads := some id }, {}] [] := fun n μ hn => by cases hn
      have := hnone.tell (params.zip args)
      simpa [m₁, frame] using this
  obtain ⟨m₂, hexec, hran⟩ := execAll_of_plain hc rfl rfl hat h
  have hset : (set m₁ : Render Unit) m = .ok ((), m₁) := rfl
  have hcheck : checkDepth m₁ = .ok ((), m₁) := checkDepth_of (by
    have : depthOf m₁ = d + snippetCost + 2 := hat.depth
    omega)
  have htext : capture (execAll env calls body) m₁ =
      .ok (String.join ps, { m₂ with out := m₁.out }) := by
    rw [capture_ok hexec, hran.out]
    simp
  refine ⟨{ m₂ with out := m.out, frames := m.frames, depth := m.depth }, ?_, ⟨rfl, rfl, rfl⟩⟩
  unfold callSnippet
  rw [if_neg (by omega), bind_ok (get_eq m)]
  simp only [hpad]
  rw [bind_ok hset, bind_ok hcheck, bind_ok htext]
  rfl

/-- **What leads to other places does what is told plainly**, to every number of levels. -/
theorem follows_callsOf (env : Environment) (levels : Nat) :
    Follows env (callsOf env levels) (plainCallsOf env levels) := by
  induction levels with
  | zero =>
      -- at the last level nothing is told, so there is nothing to follow
      refine ⟨fun h => ?_, fun h => ?_, fun h => ?_⟩ <;> cases h
  | succ levels ih =>
      refine ⟨fun {d params body args v} h {m} hm name id => ?_,
        fun {d ρ ρ' body ps} h {m f fs} hm hf hat => ?_,
        fun {body taken} h {m f fs} hm hf => ?_⟩
      · simp only [plainCallsOf] at h
        split at h
        case isTrue hcan =>
            obtain ⟨⟨ρ, ps⟩, hplain, h⟩ := Option.bind_eq_some_iff.1 h
            cases h
            exact callSnippet_of_plain ih hcan.1 hcan.2 hplain hm id
        case isFalse => cases h
      · obtain ⟨m', hexec, hran⟩ := execAll_of_plain ih hm hf hat h
        exact ⟨m', hexec, hran.mono fun ls hls => by cases hls⟩
      · have hnone : Holds [] f.vars := fun n μ hn => by cases hn
        obtain ⟨m', f', hexec, hm', hdepth, hv⟩ :=
          execAll_of_snippets env (callsOf env levels) h hm hnone
        exact ⟨m', f', hexec, hm', hdepth, hv⟩

theorem tells_root (root : Bindings) : Tells root [{}] (rootScope root) := by
  intro n μ hn
  have hroot : plainLookup root n [{}] = root.lookup n := by
    simp [plainLookup]
  rw [hroot]
  unfold rootScope at hn
  induction root with
  | nil => cases hn
  | cons e root ih =>
      rw [List.map_cons, List.lookup_cons] at hn
      rw [List.lookup_cons]
      split at hn
      · cases hn
        exact ⟨e.2, rfl, rfl⟩
      · exact ih hn (by simp [plainLookup])

/-- **Rendering writes what is told plainly.** -/
theorem render_of_plain {env : Environment} {name : String} {body : List Stmt} {ρ : Scope}
    {ps : List String} (hload : env.load name = .ok body)
    (h : plainAll env (plainCallsOf env maxDepth) 1 (rootScope env.root) body = some (ρ, ps)) :
    render env name = .ok (String.join ps) := by
  have hat : At env.root 1 (rootScope env.root) {} := ⟨rfl, tells_root env.root⟩
  obtain ⟨m', hexec, hran⟩ := execAll_of_plain (follows_callsOf env maxDepth) rfl rfl hat h
  have hrun : (execAll env (callsOf env maxDepth) body).run {} = .ok ((), m') := hexec
  unfold render
  simp only [hload, hrun, Bind.bind, Except.bind, pure, Except.pure, hran.out]
  simp

end RouteServer.Template

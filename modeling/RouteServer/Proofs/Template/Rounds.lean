import RouteServer.Proofs.Template.Evaluation

/-!
# Template — what runs in a frame

Statements change only the innermost frame of a machine (`Ran`): it gains names, and pieces of text
are written.  A loop runs its rounds in a frame of its own, which is gone afterwards with all that
they have bound (`framed_rounds_of_plain`).
-/

namespace RouteServer.Template

open Render

/-! ### Binding -/

section

variable {root : Bindings} {ρ : Scope} {f : Frame} {fs : List Frame}

theorem Tells.cons {n : String} {μ : Meaning} {v : Value} (h : Tells root (f :: fs) ρ)
    (hμ : μ.Of v) : Tells root ({ f with vars := (n, v) :: f.vars } :: fs) ((n, μ) :: ρ) := by
  intro k ν hk
  rw [List.lookup_cons] at hk
  unfold plainLookup
  rw [List.lookup_cons]
  split at hk
  case h_1 he => cases hk; exact ⟨v, rfl, hμ⟩
  case h_2 he => exact h k ν hk

theorem Tells.tell (vars : List (String × Value)) (h : Tells root (f :: fs) ρ) :
    Tells root ({ f with vars := vars.reverse ++ f.vars } :: fs) (ρ.tell vars) := by
  induction vars generalizing f ρ with
  | nil => exact h
  | cons e vars ih =>
      have hcons : Tells root ({ f with vars := e :: f.vars } :: fs) ((e.1, .value e.2) :: ρ) :=
        h.cons rfl
      have := ih hcons
      simpa [Scope.tell] using this

theorem lookup_append_of_notMem {names : List String} {vars old : List (String × Value)}
    (h : ∀ e ∈ vars, e.1 ∈ names) {n : String} (hn : n ∉ names) :
    (vars ++ old).lookup n = old.lookup n := by
  induction vars with
  | nil => rfl
  | cons e vars ih =>
      obtain ⟨he, hvars⟩ := List.forall_mem_cons.1 h
      have hne : (n == e.1) = false := beq_eq_false_iff_ne.2 fun heq => hn (heq ▸ he)
      rw [List.cons_append, List.lookup_cons, hne]
      exact ih hvars

theorem names_of_bindings {t : Target} {v : Value} {vars : List (String × Value)}
    (h : t.bindings v = some vars) : ∀ e ∈ vars, e.1 ∈ t.all := by
  unfold Target.bindings at h
  split at h
  case h_1 => cases h; simp [Target.all]
  case h_2 ns ws =>
      split at h
      · cases h
        intro e he
        exact (List.of_mem_zip he).1
      · cases h
  case h_3 => cases h

/-- The machine with names bound in its innermost frame. -/
def bound (vars : List (String × Value)) (f : Frame) (fs : List Frame) (m : Machine) : Machine :=
  { m with frames := { f with vars := vars.reverse ++ f.vars } :: fs }

theorem modify_eq (change : Machine → Machine) (m : Machine) :
    (modify change : Render Unit) m = .ok ((), change m) := rfl

theorem bind_eq {m : Machine} (hm : m.frames = f :: fs) (hf : f.scope = none) (n : String)
    (v : Value) : Render.bind n v m = .ok ((), bound [(n, v)] f fs m) := by
  simp only [Render.bind, modify_eq, bound, hm, hf]
  rfl

theorem forM_bind_eq {vars : List (String × Value)} {m : Machine} (hm : m.frames = f :: fs)
    (hf : f.scope = none) :
    (vars.forM fun (n, x) => Render.bind n x) m = .ok ((), bound vars f fs m) := by
  induction vars generalizing m f with
  | nil =>
      obtain ⟨frames, scopes, depth, out⟩ := m
      cases hm
      rfl
  | cons e vars ih =>
      have hbound : (bound [e] f fs m).frames = { f with vars := e :: f.vars } :: fs := rfl
      have hrest := ih hbound hf
      show (Render.bind e.1 e.2 >>= fun _ => vars.forM fun (n, x) => Render.bind n x) m = _
      rw [bind_ok (bind_eq hm hf e.1 e.2), hrest]
      simp [bound]

theorem bindTarget_of {t : Target} {v : Value} {vars : List (String × Value)} {m : Machine}
    (h : t.bindings v = some vars) (hm : m.frames = f :: fs) (hf : f.scope = none) :
    bindTarget t v m = .ok ((), bound vars f fs m) := by
  unfold Target.bindings at h
  split at h
  case h_1 => cases h; exact bind_eq hm hf _ _
  case h_2 ns ws =>
      split at h
      case isTrue hlen =>
          cases h
          simp only [bindTarget, if_pos hlen]
          exact forM_bind_eq hm hf
      case isFalse => cases h
  case h_3 => cases h

end

/-! ### Statements -/

theorem Grown.refl (names : Option (List String)) {f : Frame} (h : f.scope = none) :
    Grown names f f :=
  ⟨h, rfl, rfl, fun _ _ _ _ => rfl⟩

theorem grown_bound {names : List String} {vars : List (String × Value)}
    (h : ∀ e ∈ vars, e.1 ∈ names) {f : Frame} (hf : f.scope = none) :
    Grown (some names) f { f with vars := vars.reverse ++ f.vars } where
  scope := hf
  loop := rfl
  reads := rfl
  vars ns hns n hn := by
    cases hns
    exact lookup_append_of_notMem (fun e he => h e (List.mem_reverse.1 he)) hn

section

variable {root : Bindings} {names : Option (List String)} {f : Frame} {fs : List Frame}
variable {ρ : Scope} {ps : List String} {m m' : Machine}

/-- A machine that has run after an expression was evaluated. -/
theorem Ran.after {m₁ : Machine} (h : Ran root names f fs ρ ps m₁ m') (hs : Same m m₁) :
    Ran root names f fs ρ ps m m' where
  frames := h.frames
  depth := h.depth.trans hs.depth
  out := by rw [h.out, hs.out]

/-- A machine that has only written something. -/
theorem ran_of_out (hm : m.frames = f :: fs) (hf : f.scope = none) (ht : Tells root m.frames ρ)
    (hframes : m'.frames = m.frames) (hdepth : m'.depth = m.depth)
    (hout : m'.out = ps.reverse ++ m.out) : Ran root names f fs ρ ps m m' where
  frames := ⟨f, hframes.trans hm, .refl names hf, hm ▸ ht⟩
  depth := hdepth
  out := hout

/-- One run after another. -/
theorem Ran.append {ns ms : Option (List String)} {f' : Frame} {ρ' : Scope} {qs : List String}
    {m'' : Machine} (h : Ran root ns f fs ρ ps m m') (hf' : m'.frames = f' :: fs)
    (h' : Ran root ms f' fs ρ' qs m' m'') :
    Ran root (do let ns ← ns; let ms ← ms; some (ns ++ ms)) f fs ρ' (ps ++ qs) m m'' where
  frames := by
    obtain ⟨g, hg, hgrown, -⟩ := h.frames
    obtain ⟨g', hg', hgrown', ht⟩ := h'.frames
    cases hg.symm.trans hf'
    refine ⟨g', hg', ⟨hgrown'.scope, hgrown'.loop.trans hgrown.loop,
      hgrown'.reads.trans hgrown.reads, fun ls hls n hn => ?_⟩, ht⟩
    obtain ⟨ns', hns, hls⟩ := Option.bind_eq_some_iff.1 hls
    obtain ⟨ms', hms, hls⟩ := Option.bind_eq_some_iff.1 hls
    cases hls
    rw [List.mem_append, not_or] at hn
    rw [hgrown'.vars _ hms n hn.2, hgrown.vars _ hns n hn.1]
  depth := h'.depth.trans h.depth
  out := by rw [h'.out, h.out, List.reverse_append, List.append_assoc]

theorem Ran.mono {ns ms : Option (List String)} (h : Ran root ns f fs ρ ps m m')
    (hle : ∀ ls, ms = some ls → ∃ ks, ns = some ks ∧ ∀ n ∈ ks, n ∈ ls) :
    Ran root ms f fs ρ ps m m' where
  frames := by
    obtain ⟨f', hf', hgrown, ht⟩ := h.frames
    refine ⟨f', hf', ⟨hgrown.scope, hgrown.loop, hgrown.reads, fun ls hls n hn => ?_⟩, ht⟩
    obtain ⟨ks, hks, hsub⟩ := hle ls hls
    exact hgrown.vars ks hks n fun hk => hn (hsub n hk)
  depth := h.depth
  out := h.out

theorem Ran.at {d : Nat} (h : Ran root names f fs ρ ps m m') (hm : m.frames = f :: fs)
    (hd : depthOf m = d) : At root d ρ m' := by
  obtain ⟨f', hf', -, ht⟩ := h.frames
  constructor
  · rw [← hd, depthOf, depthOf, hf', hm, h.depth]
    rfl
  · rw [hf']
    exact ht

end

/-- What is known at the start of a round. -/
theorem tells_round {root : Bindings} {g : Frame} {fs : List Frame} {ρ : Scope} {l : Value}
    {names : List String} (h : Tells root fs ρ) (hl : g.loop = some l) (hr : g.reads = none)
    (hvars : ∀ n, n ∉ names → g.vars.lookup n = none) (hloop : "loop" ∉ names) :
    Tells root (g :: fs) (("loop", .value l) :: ρ.without ("loop" :: names)) := by
  intro n μ hn
  rw [List.lookup_cons] at hn
  unfold plainLookup
  split at hn
  case h_1 he =>
      cases hn
      rw [eq_of_beq he, hvars _ hloop]
      exact ⟨l, by simp [hl], rfl⟩
  case h_2 he =>
      rw [Scope.lookup_without] at hn
      split at hn
      · cases hn
      case isFalse hmem =>
          -- a name that the loop does not bind means what it means around it
          rw [List.mem_cons, not_or] at hmem
          rw [hvars n hmem.2, hr]
          simp only [if_neg hmem.1]
          exact h n μ hn

/-- One round of a loop in its frame. -/
def round (items : List Value) (target : Target) (run : Render Unit) (x : Value) (i : Nat) :
    Render Unit := do
  modify fun m => match m.frames with
    | f :: fs => { m with frames := { f with loop := some (loopValue items i) } :: fs }
    | [] => m
  bindTarget target x
  run

/-- The frame of a loop between two rounds: it has no names but some. -/
structure Round (names : List String) (g : Frame) : Prop where
  scope : g.scope = none
  reads : g.reads = none
  vars : ∀ n, n ∉ names → g.vars.lookup n = none

section

variable {root : Bindings} {d : Nat} {ρ : Scope} {fs : List Frame} {items : List Value}
variable {target : Target} {run : Render Unit} {names : List String}
variable {plainRun : Scope → Option (Scope × List String)}

/-- A round runs with the meaning of `loop` and the item bound in the frame of the loop. -/
theorem round_eq (items : List Value) (run : Render Unit) (i : Nat) (ht : Tells root fs ρ)
    (hloop : "loop" ∉ target.all ++ names) {x : Value} {vars : List (String × Value)}
    (hbind : target.bindings x = some vars) {m : Machine} {g : Frame} (hm : m.frames = g :: fs)
    (hg : Round (target.all ++ names) g) (hd : depthOf m = d) :
    let m' := bound vars { g with loop := some (loopValue items i) } fs m
    round items target run x i m = run m' ∧
      At root d (Scope.tell (("loop", loopValue items i) :: vars)
        (ρ.without ("loop" :: target.all ++ names))) m' := by
  -- the machine with the meaning of `loop` for this round
  let l := loopValue items i
  let m₁ : Machine := { m with frames := { g with loop := some l } :: fs }
  have hm₁ : m₁.frames = { g with loop := some l } :: fs := rfl
  have hset : (modify fun m => match m.frames with
      | f :: fs => { m with frames := { f with loop := some (loopValue items i) } :: fs }
      | [] => m : Render Unit) m = .ok ((), m₁) := by
    simp only [modify_eq, hm]
    rfl
  have ht₁ : Tells root ({ g with loop := some l } :: fs)
      (("loop", .value l) :: ρ.without ("loop" :: (target.all ++ names))) :=
    tells_round ht rfl hg.reads hg.vars hloop
  refine ⟨?_, ?_, ?_⟩
  · unfold round
    rw [bind_ok hset, bind_ok (bindTarget_of hbind hm₁ hg.scope)]
    rfl
  · rw [← hd, depthOf, depthOf, hm]
    rfl
  · have htell := ht₁.tell vars
    show Tells root ({ g with vars := vars.reverse ++ g.vars, loop := some l } :: fs) _
    simpa [Scope.tell] using htell

theorem round_of_plain (ht : Tells root fs ρ) (hloop : "loop" ∉ target.all ++ names)
    (hrun : ∀ {ρ ρ' ps m f fs}, m.frames = f :: fs → f.scope = none → At root d ρ m →
      plainRun ρ = some (ρ', ps) →
        ∃ m', run m = .ok ((), m') ∧ Ran root (some names) f fs ρ' ps m m')
    {x : Value} {i : Nat} {ps : List String}
    (h : plainRound items target plainRun names ρ x i = some ps) {m : Machine} {g : Frame}
    (hm : m.frames = g :: fs) (hg : Round (target.all ++ names) g) (hd : depthOf m = d) :
    ∃ m' g', round items target run x i m = .ok ((), m') ∧ m'.frames = g' :: fs ∧
      Round (target.all ++ names) g' ∧ m'.depth = m.depth ∧ m'.out = ps.reverse ++ m.out := by
  obtain ⟨vars, hbind, h⟩ := Option.bind_eq_some_iff.1 h
  obtain ⟨⟨ρ', ps'⟩, hplain, h⟩ := Option.bind_eq_some_iff.1 h
  cases h
  obtain ⟨hround, hat⟩ := round_eq items run i ht hloop hbind hm hg hd
  have hframes : (bound vars { g with loop := some (loopValue items i) } fs m).frames =
      { g with vars := vars.reverse ++ g.vars, loop := some (loopValue items i) } :: fs := rfl
  obtain ⟨m', hrun', hran⟩ := hrun hframes hg.scope hat hplain
  obtain ⟨g', hg', hgrown, -⟩ := hran.frames
  refine ⟨m', g', hround.trans hrun', hg',
    ⟨hgrown.scope, hgrown.reads.trans hg.reads, fun n hn => ?_⟩, hran.depth, hran.out⟩
  -- what is new in the frame has been bound by the round or by its body
  have hn' := hn
  rw [List.mem_append, not_or] at hn
  rw [hgrown.vars _ rfl n hn.2]
  exact (lookup_append_of_notMem
    (fun e he => names_of_bindings hbind e (List.mem_reverse.1 he)) hn.1).trans (hg.vars n hn')

theorem rounds_of_plain (ht : Tells root fs ρ) (hloop : "loop" ∉ target.all ++ names)
    (hrun : ∀ {ρ ρ' ps m f fs}, m.frames = f :: fs → f.scope = none → At root d ρ m →
      plainRun ρ = some (ρ', ps) →
        ∃ m', run m = .ok ((), m') ∧ Ran root (some names) f fs ρ' ps m m')
    {rest : List (Value × Nat)} {pss : List (List String)}
    (h : rest.mapM (fun (x, i) => plainRound items target plainRun names ρ x i) = some pss)
    {m : Machine} {g : Frame} (hm : m.frames = g :: fs) (hg : Round (target.all ++ names) g)
    (hd : depthOf m = d) :
    ∃ m' g', (rest.forM fun (x, i) => round items target run x i) m = .ok ((), m') ∧
      m'.frames = g' :: fs ∧ Round (target.all ++ names) g' ∧ m'.depth = m.depth ∧
      m'.out = pss.flatten.reverse ++ m.out := by
  -- by induction on the rounds that are left; `Round` carries what the frame has gathered
  induction rest generalizing m g pss with
  | nil =>
      cases h
      exact ⟨m, g, rfl, hm, hg, rfl, rfl⟩
  | cons e rest ih =>
      obtain ⟨x, i⟩ := e
      rw [List.mapM_cons] at h
      obtain ⟨ps, hps, h⟩ := Option.bind_eq_some_iff.1 h
      obtain ⟨pss', hpss, h⟩ := Option.bind_eq_some_iff.1 h
      cases h
      obtain ⟨m₁, g₁, hround, hm₁, hg₁, hdepth₁, hout₁⟩ :=
        round_of_plain ht hloop hrun hps hm hg hd
      have hd₁ : depthOf m₁ = d := by
        rw [← hd, depthOf, depthOf, hm₁, hm, hdepth₁]
        rfl
      obtain ⟨m', g', hrest, hm', hg', hdepth, hout⟩ := ih hpss hm₁ hg₁ hd₁
      refine ⟨m', g', ?_, hm', hg', hdepth.trans hdepth₁, ?_⟩
      · show (round items target run x i >>= fun _ =>
          rest.forM fun (x, i) => round items target run x i) m = _
        rw [bind_ok hround, hrest]
      · rw [hout, hout₁, List.flatten_cons, List.reverse_append, List.append_assoc]

/-- Rounds that start in a new frame, one level down. -/
theorem framed_rounds_of_plain {m : Machine} (hat : At root d ρ m)
    (hloop : "loop" ∉ target.all ++ names)
    (hrun : ∀ {ρ ρ' ps m f fs}, m.frames = f :: fs → f.scope = none → At root (d + 1) ρ m →
      plainRun ρ = some (ρ', ps) →
        ∃ m', run m = .ok ((), m') ∧ Ran root (some names) f fs ρ' ps m m')
    {rest : List (Value × Nat)} {pss : List (List String)}
    (h : rest.mapM (fun (x, i) => plainRound items target plainRun names ρ x i) = some pss) :
    ∃ m' g, (rest.forM fun (x, i) => round items target run x i)
        { m with frames := {} :: m.frames } = .ok ((), m') ∧
      m'.frames = g :: m.frames ∧ Round (target.all ++ names) g ∧ depthOf m' = d + 1 ∧
      m'.depth = m.depth ∧ m'.out = pss.flatten.reverse ++ m.out := by
  have hdepth : depthOf { m with frames := {} :: m.frames } = d + 1 := by
    rw [← hat.depth]
    rfl
  obtain ⟨m', g, hrounds, hm', hg, hsame, hout⟩ := rounds_of_plain
    (m := { m with frames := {} :: m.frames }) (g := {}) hat.tells hloop hrun h rfl
    ⟨rfl, rfl, fun _ _ => rfl⟩ hdepth
  refine ⟨m', g, hrounds, hm', hg, ?_, hsame, hout⟩
  rw [← hdepth, depthOf, depthOf, hm', hsame]
  rfl

end

/-! ### Frames and depth around a run -/

theorem inFrame_ok {α : Type} {run : Render α} {x : α} {m m' : Machine}
    (hd : ¬ maxDepth < depthOf m + 1)
    (h : run { m with frames := {} :: m.frames } = .ok (x, m')) :
    inFrame {} run m = .ok (x, { m' with frames := m'.frames.tail }) := by
  have hset : (modify fun m => { m with frames := {} :: m.frames } : Render Unit) m =
      .ok ((), { m with frames := {} :: m.frames }) := rfl
  have hcheck : checkDepth { m with frames := {} :: m.frames } =
      .ok ((), { m with frames := {} :: m.frames }) := checkDepth_of hd
  rw [inFrame, bind_ok hset, bind_ok hcheck, bind_ok h]
  rfl

theorem embedStmts_ok {calls : Calls} {body : List Stmt} {m m' : Machine}
    (hd : ¬ maxDepth < depthOf m + embedCost)
    (h : calls.embed body { m with depth := m.depth + embedCost } = .ok ((), m')) :
    embedStmts calls body m = .ok ((), { m' with depth := m'.depth - embedCost }) := by
  have hset : (modify fun m => { m with depth := m.depth + embedCost } : Render Unit) m =
      .ok ((), { m with depth := m.depth + embedCost }) := rfl
  have hdepth : depthOf { m with depth := m.depth + embedCost } = depthOf m + embedCost := by
    unfold depthOf
    simp only
    omega
  have hcheck : checkDepth { m with depth := m.depth + embedCost } =
      .ok ((), { m with depth := m.depth + embedCost }) := checkDepth_of (hdepth ▸ hd)
  rw [embedStmts, bind_ok hset, bind_ok hcheck]
  simp only [h]

theorem capture_ok {run : Render Unit} {m m' : Machine}
    (h : run { m with out := [] } = .ok ((), m')) :
    capture run m = .ok (String.join m'.out.reverse, { m' with out := m.out }) := by
  have hset : (modify fun m => { m with out := [] } : Render Unit) m =
      .ok ((), { m with out := [] }) := rfl
  rw [capture, bind_ok (get_eq m), bind_ok hset, bind_ok h, bind_ok (get_eq m')]
  rfl

end RouteServer.Template

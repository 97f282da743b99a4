import RouteServer.Proofs.Template.Forms
import RouteServer.Proofs.Template.Refinement

/-!
# Template — where rendering fails

Plain evaluation tells nothing where rendering fails.  A fault is told on its own: an expression or
statements *fail* in a scope (`Expr.Fails`, `Stmt.Fails`, `FailAll`) when they end with the fault
from every machine in which the names mean what the scope says.

What is rendered in front of the place that fails is told plainly, so a fault is found the way it
arises: the statements in front, the rounds of a loop before the one that fails (`fails_each`), the
templates around it (`fails_embed`).
-/

namespace RouteServer.Template

open Render

theorem bind_error {α β : Type} {r : Render α} {f : α → Render β} {m : Machine} {e : Fault}
    (h : r m = .error e) : (r >>= f) m = .error e := by
  simp only [Bind.bind, StateT.bind, h, Except.bind]

/-- An expression ends with a fault wherever the names mean what a scope says. -/
def Expr.Fails (env : Environment) (calls : Calls) (d : Nat) (ρ : Scope) (e : Expr)
    (fault : Fault) : Prop :=
  ∀ ⦃m : Machine⦄, At env.root d ρ m → e.eval env calls m = .error fault

/-- A statement ends with a fault wherever the names mean what a scope says. -/
def Stmt.Fails (env : Environment) (calls : Calls) (d : Nat) (ρ : Scope) (s : Stmt)
    (fault : Fault) : Prop :=
  ∀ ⦃m : Machine⦄ ⦃f : Frame⦄ ⦃fs : List Frame⦄, m.frames = f :: fs → f.scope = none →
    At env.root d ρ m → s.exec env calls m = .error fault

/-- Statements end with a fault wherever the names mean what a scope says. -/
def FailAll (env : Environment) (calls : Calls) (d : Nat) (ρ : Scope) (ss : List Stmt)
    (fault : Fault) : Prop :=
  ∀ ⦃m : Machine⦄ ⦃f : Frame⦄ ⦃fs : List Frame⦄, m.frames = f :: fs → f.scope = none →
    At env.root d ρ m → execAll env calls ss m = .error fault

section

variable {env : Environment} {calls : Calls} {pc : PlainCalls} {d : Nat} {ρ : Scope}
  {fault : Fault}

/-! ### Expressions -/

/-- Nothing is looked up in what has not been found. -/
theorem Expr.fails_attr (hc : Follows env calls pc) {e : Expr} {n : String} {b : Bool}
    (he : e.plain env pc d ρ = some (.undefined b)) : (attr e n).Fails env calls d ρ .undefined := by
  intro m hm
  obtain ⟨m', heval, -⟩ := Expr.eval_of_plain hc hm he
  rw [Expr.eval, bind_ok heval]
  rfl

theorem Expr.fails_and (hc : Follows env calls pc) {a b : Expr} {v : Value}
    (ha : a.plain env pc d ρ = some v) (hv : truth? v = some true)
    (hb : b.Fails env calls d ρ fault) : (and a b).Fails env calls d ρ fault := by
  intro m hm
  obtain ⟨m', heval, hs⟩ := Expr.eval_of_plain hc hm ha
  rw [Expr.eval, bind_ok heval, bind_ok (truth_of hv m')]
  exact hb (hm.same hs)

theorem Expr.fails_filter (hc : Follows env calls pc) {n : String} {e : Expr} {v : Value}
    {f : Value → List Value → Except Fault Value} (he : e.plain env pc d ρ = some v)
    (hf : env.filters.lookup n = some f) (hv : f v [] = .error fault) :
    (filter n e []).Fails env calls d ρ fault := by
  intro m hm
  obtain ⟨m', heval, -⟩ := Expr.eval_of_plain hc hm he
  have hargs : evalAll env calls [] m' = .ok ([], m') := rfl
  rw [Expr.eval, bind_ok heval, bind_ok hargs]
  simp only [hf, hv]
  rfl

/-! ### Statements -/

theorem Stmt.fails_print {e : Expr} (he : e.Fails env calls d ρ fault) :
    (print e).Fails env calls d ρ fault := by
  intro m f fs _ _ hat
  rw [Stmt.exec, bind_error (he hat)]

theorem Stmt.fails_test {t : Expr} {yes no : List Stmt} (ht : t.Fails env calls d ρ fault) :
    (branch t yes no).Fails env calls d ρ fault := by
  intro m f fs _ _ hat
  rw [Stmt.exec, bind_error (ht hat)]

theorem Stmt.fails_yes (hc : Follows env calls pc) {t : Expr} {yes no : List Stmt} {v : Value}
    (ht : t.plain env pc d ρ = some v) (hv : truth? v = some true)
    (hyes : FailAll env calls d ρ yes fault) : (branch t yes no).Fails env calls d ρ fault := by
  intro m f fs hm hf hat
  obtain ⟨m', heval, hs⟩ := Expr.eval_of_plain hc hat ht
  rw [Stmt.exec, bind_ok heval, bind_ok (truth_of hv m')]
  exact hyes (hs.frames.trans hm) hf (hat.same hs)

theorem failAll_cons {s : Stmt} {ss : List Stmt} (h : s.Fails env calls d ρ fault) :
    FailAll env calls d ρ (s :: ss) fault := by
  intro m f fs hm hf hat
  rw [execAll, bind_error (h hm hf hat)]

theorem execAll_append (xs ys : List Stmt) (m : Machine) :
    execAll env calls (xs ++ ys) m =
      (execAll env calls xs >>= fun _ => execAll env calls ys) m := by
  induction xs generalizing m with
  | nil => rfl
  | cons x xs ih =>
      rw [List.cons_append, execAll, execAll]
      rw [bind_assoc]
      match hx : x.exec env calls m with
      | .error e => rw [bind_error hx, bind_error hx]
      | .ok (_, m') => rw [bind_ok hx, bind_ok hx, ih]

/-- A fault is found behind what is told plainly. -/
theorem failAll_append (hc : Follows env calls pc) {xs ys : List Stmt} {ρ' : Scope}
    {ps : List String} (hxs : plainAll env pc d ρ xs = some (ρ', ps))
    (hys : FailAll env calls d ρ' ys fault) : FailAll env calls d ρ (xs ++ ys) fault := by
  intro m f fs hm hf hat
  obtain ⟨m', hexec, hran⟩ := execAll_of_plain hc hm hf hat hxs
  obtain ⟨f', hm', hgrown, -⟩ := hran.frames
  rw [execAll_append, bind_ok hexec]
  exact hys hm' hgrown.scope (hran.at hm hat.depth)

theorem exists_mapM {α β : Type} {g : α → Option β} {xs : List α}
    (h : ∀ x ∈ xs, ∃ y, g x = some y) : ∃ ys, xs.mapM g = some ys := by
  induction xs with
  | nil => exact ⟨[], rfl⟩
  | cons x xs ih =>
      obtain ⟨y, hy⟩ := h x List.mem_cons_self
      obtain ⟨ys, hys⟩ := ih fun z hz => h z (List.mem_cons_of_mem _ hz)
      exact ⟨y :: ys, by rw [List.mapM_cons, hy, hys]; rfl⟩

theorem inFrame_error {α : Type} {run : Render α} {m : Machine}
    (hd : ¬ maxDepth < depthOf m + 1)
    (h : run { m with frames := {} :: m.frames } = .error fault) :
    inFrame {} run m = .error fault := by
  have hset : (modify fun m => { m with frames := {} :: m.frames } : Render Unit) m =
      .ok ((), { m with frames := {} :: m.frames }) := rfl
  have hcheck : checkDepth { m with frames := {} :: m.frames } =
      .ok ((), { m with frames := {} :: m.frames }) := checkDepth_of hd
  rw [inFrame, bind_ok hset, bind_ok hcheck, bind_error h]

/-- A loop fails in the round of an item when the rounds before it are told plainly. -/
theorem fails_each (hc : Follows env calls pc) (names : List String) {n : String} {e : Expr}
    {body : List Stmt} {α : Type} {earlier later : List α} {x : α} {v : α → Value}
    (he : e.plain env pc d ρ = some (.list ((earlier ++ x :: later).map v))) (hd : d < maxDepth)
    (hnames : bound? body = some names) (hloop : "loop" ∉ n :: names)
    (hearlier : ∀ y ∈ earlier, ∀ loop, ∃ ρ' ps,
      plainAll env pc (d + 1) (roundScope ρ n names (v y) loop) body = some (ρ', ps))
    (hx : ∀ loop, FailAll env calls (d + 1) (roundScope ρ n names (v x) loop) body fault) :
    (each n e body).Fails env calls d ρ fault := by
  intro m f fs hm hf hat
  obtain ⟨m₁, heval, hs⟩ := Expr.eval_of_plain hc hat he
  have hat₁ := hat.same hs
  have hitems : items? (.list ((earlier ++ x :: later).map v)) = some _ := rfl
  let items := (earlier ++ x :: later).map v
  let run := fun ρ => plainAll env pc (d + 1) ρ body
  have hloop' : "loop" ∉ (Target.name n).all ++ names := hloop
  -- the rounds in front of the one that fails
  obtain ⟨pss, hpss⟩ : ∃ pss, (earlier.map v).zipIdx.mapM
      (fun e => plainRound items (.name n) run names ρ e.1 e.2) = some pss := by
    refine exists_mapM fun y hy => ?_
    obtain ⟨z, hz, hzy⟩ := List.mem_map.1 (List.fst_mem_of_mem_zipIdx hy)
    obtain ⟨ρ', ps, h⟩ := hearlier z hz (loopValue items y.2)
    exact ⟨ps, plainRound_name (hzy ▸ h)⟩
  have hrun : ∀ {ρ ρ' ps m f fs}, m.frames = f :: fs → f.scope = none →
      At env.root (d + 1) ρ m → plainAll env pc (d + 1) ρ body = some (ρ', ps) →
      ∃ m', execAll env calls body m = .ok ((), m') ∧
        Ran env.root (some names) f fs ρ' ps m m' := fun hm hf hat h => by
    obtain ⟨m', hexec, hran⟩ := execAll_of_plain hc hm hf hat h
    exact ⟨m', hexec, hnames ▸ hran⟩
  obtain ⟨m₂, g, hrounds, hm₂, hg, hd₂, -⟩ := framed_rounds_of_plain hat₁ hloop' hrun hpss
  obtain ⟨hround, hat₂⟩ := round_eq items (execAll env calls body) earlier.length hat₁.tells hloop'
    (x := v x) rfl hm₂ hg hd₂
  have hfail : round items (.name n) (execAll env calls body) (v x) earlier.length m₂ =
      .error fault := by
    rw [hround]
    exact hx (loopValue items earlier.length) rfl hg.scope hat₂
  let step := fun e : Value × Nat => round items (.name n) (execAll env calls body) e.1 e.2
  replace hrounds : (earlier.map v).zipIdx.forM step { m₁ with frames := {} :: m₁.frames } =
    .ok ((), m₂) := hrounds
  have hall : items.zipIdx.forM step { m₁ with frames := {} :: m₁.frames } = .error fault := by
    have hsplit : items.zipIdx = (earlier.map v).zipIdx ++
        (v x, earlier.length) :: (later.map v).zipIdx (earlier.length + 1) := by
      simp [items, List.zipIdx_append]
    rw [List.forM_eq_forM] at hrounds ⊢
    -- the rounds behind it are never reached
    rw [hsplit, List.forM_append, bind_ok hrounds, List.forM_cons, bind_error hfail]
  have hne : items ≠ [] := by simp [items]
  rw [each, Stmt.exec, bind_ok heval, bind_ok (itemsOf_of hitems m₁)]
  show (if items.isEmpty then _ else _ : Render Unit) m₁ = _
  rw [if_neg (by simpa using hne)]
  exact inFrame_error (by rw [hat₁.depth]; omega) hall

/-- A fault in an embedded template is wrapped. -/
theorem fails_embed {n : String} {body : List Stmt} (hload : env.load n = .ok body) {levels : Nat}
    (hd : d + embedCost ≤ maxDepth)
    (h : FailAll env (callsOf env levels) (d + embedCost) ρ body fault) :
    (Stmt.embed (str n) false).Fails env (callsOf env (levels + 1)) d ρ (.inEmbedded fault) := by
  intro m f fs hm hf hat
  have hname : (str n).eval env (callsOf env (levels + 1)) m = .ok (.string n, m) := rfl
  have hloaded : loadNamed env false (.string n) m = .ok (some body, m) :=
    loadNamed_of (by simp [load?, hload]) false m
  have hat' : At env.root (d + embedCost) ρ { m with depth := m.depth + embedCost } := by
    refine ⟨?_, hat.tells⟩
    rw [← hat.depth]
    simp only [depthOf]
    omega
  have hset : (modify fun m => { m with depth := m.depth + embedCost } : Render Unit) m =
      .ok ((), { m with depth := m.depth + embedCost }) := rfl
  have hcheck : checkDepth { m with depth := m.depth + embedCost } =
      .ok ((), { m with depth := m.depth + embedCost }) :=
    checkDepth_of (by rw [hat'.depth]; omega)
  rw [Stmt.exec, bind_ok hname, bind_ok hloaded]
  show embedStmts (callsOf env (levels + 1)) body m = _
  rw [embedStmts, bind_ok hset, bind_ok hcheck]
  have hbody : (callsOf env (levels + 1)).embed body { m with depth := m.depth + embedCost } =
      .error fault := h hm hf hat'
  simp only [hbody]

end

/-- **Rendering fails where it is told to.** -/
theorem render_of_failAll {env : Environment} {name : String} {body : List Stmt} {fault : Fault}
    (hload : env.load name = .ok body)
    (h : FailAll env (callsOf env maxDepth) 1 (rootScope env.root) body fault) :
    render env name = .error fault := by
  have hrun : (execAll env (callsOf env maxDepth) body).run {} = .error fault :=
    h rfl rfl ⟨rfl, tells_root env.root⟩
  unfold render
  simp only [hload, hrun, Bind.bind, Except.bind]

end RouteServer.Template

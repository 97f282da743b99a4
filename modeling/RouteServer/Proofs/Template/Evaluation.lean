import RouteServer.Proofs.Template.Plain

/-!
# Template — expressions have the values that are told plainly

Frames *tell* a scope (`Tells`) when every name means in them what the scope says.  The calls of a
machine *follow* the plain ones (`Follows`) when they do what those say; then an expression has the
value that is told plainly, and leaves the frames, the depth and the text of the machine alone
(`Same`).
-/

namespace RouteServer.Template

open Render

/-! ### Running -/

theorem bind_ok {α β : Type} {r : Render α} {f : α → Render β} {m m' : Machine} {x : α}
    (h : r m = .ok (x, m')) : (r >>= f) m = f x m' := by
  simp only [Bind.bind, StateT.bind, h, Except.bind]

theorem get_eq (m : Machine) : (get : Render Machine) m = .ok (m, m) := rfl

theorem lift_of {α : Type} {r : Except Fault α} {x : α} (h : r.toOption = some x) (m : Machine) :
    lift r m = .ok (x, m) := by
  cases r with
  | error e => cases h
  | ok y => cases h; rfl

theorem truth_of {v : Value} {b : Bool} (h : truth? v = some b) (m : Machine) :
    truth v m = .ok (b, m) := by
  unfold truth? at h
  split at h
  · cases h
  · cases h
    unfold truth
    split
    · contradiction
    · rfl

theorem found_of {parent v : Value} {o : Option Value} (h : found? parent o = some v)
    (m : Machine) : found parent o m = .ok (v, m) := by
  cases o with
  | some w => cases h; rfl
  | none =>
      simp only [found?] at h
      split at h
      · cases h
      case isFalse hp => cases h; simp only [found, if_neg hp]; rfl

theorem itemsOf_of {v : Value} {xs : List Value} (h : items? v = some xs) (m : Machine) :
    itemsOf v m = .ok (xs, m) := by
  unfold items? at h
  split at h
  · cases h
  · unfold itemsOf
    split
    · contradiction
    · rw [h]; rfl

theorem loadNamed_of {env : Environment} {v : Value} {body : List Stmt}
    (h : load? env v = some body) (optional : Bool) (m : Machine) :
    loadNamed env optional v m = .ok (some body, m) := by
  unfold load? at h
  split at h
  case h_1 n =>
      cases hl : env.load n with
      | error e => rw [hl] at h; cases h
      | ok b => rw [hl] at h; cases h; simp only [loadNamed, loadFirst, hl]; rfl
  case h_2 => cases h

theorem checkDepth_of {m : Machine} (h : ¬ maxDepth < depthOf m) : checkDepth m = .ok ((), m) := by
  rw [checkDepth, bind_ok (get_eq m), if_neg h]
  rfl

/-! ### Frames -/

/-- What a name means in some frames, without what snippets keep. -/
def plainLookup (root : Bindings) (n : String) : List Frame → Option Value
  | [] => root.lookup n
  | f :: fs =>
    match f.vars.lookup n with
    | some v => some v
    | none =>
      match if n = "loop" then f.loop else none with
      | some l => some l
      | none => if f.reads.isSome then none else plainLookup root n fs

theorem lookup?_of_plainLookup {root : Bindings} {n : String} {v : Value} {m : Machine}
    (h : plainLookup root n m.frames = some v) : lookup? root m n = some v := by
  unfold lookup?
  generalize m.frames = fs at h
  induction fs with
  | nil => exact h
  | cons f fs ih =>
      unfold plainLookup at h
      rw [List.findSome?_cons]
      unfold lookupIn
      cases hw : f.vars.lookup n with
      | some w => simpa [hw] using h
      | none =>
          cases hl : (if n = "loop" then f.loop else none) with
          | some l => simpa [hw, hl] using h
          | none =>
              rw [hw, hl] at h
              -- a frame that reads what snippets keep is not looked through
              cases hr : f.reads with
              | some id => simp [hr] at h
              | none => exact ih (by simpa [hr] using h)

/-- The values that are known by a meaning. -/
def Meaning.Of : Meaning → Value → Prop
  | .value v, w => w = v
  | .snippet params body, w => ∃ name id, w = .snippet name params body id

/-- The names mean what a scope says. -/
def Tells (root : Bindings) (fs : List Frame) (ρ : Scope) : Prop :=
  ∀ n μ, ρ.lookup n = some μ → ∃ v, plainLookup root n fs = some v ∧ μ.Of v

/-- A machine at a depth in which the names mean what a scope says. -/
structure At (root : Bindings) (d : Nat) (ρ : Scope) (m : Machine) : Prop where
  depth : depthOf m = d
  tells : Tells root m.frames ρ

/-- Only what snippets keep has changed. -/
structure Same (m m' : Machine) : Prop where
  frames : m'.frames = m.frames
  depth : m'.depth = m.depth
  out : m'.out = m.out

theorem Same.refl (m : Machine) : Same m m := ⟨rfl, rfl, rfl⟩

theorem Same.trans {m m' m'' : Machine} (h : Same m m') (h' : Same m' m'') : Same m m'' :=
  ⟨h'.frames.trans h.frames, h'.depth.trans h.depth, h'.out.trans h.out⟩

theorem At.same {root : Bindings} {d : Nat} {ρ : Scope} {m m' : Machine} (h : At root d ρ m)
    (hs : Same m m') : At root d ρ m' := by
  constructor
  · rw [← h.depth, depthOf, depthOf, hs.frames, hs.depth]
  · rw [hs.frames]
    exact h.tells

/-- What an innermost frame becomes: it gains names, those only that are listed when there is a
list. -/
structure Grown (names : Option (List String)) (f f' : Frame) : Prop where
  scope : f'.scope = none
  loop : f'.loop = f.loop
  reads : f'.reads = f.reads
  vars : ∀ ns, names = some ns → ∀ n, n ∉ ns → f'.vars.lookup n = f.vars.lookup n

/-- A machine has run in the innermost of its frames, and written some pieces. -/
structure Ran (root : Bindings) (names : Option (List String)) (f : Frame) (fs : List Frame)
    (ρ : Scope) (ps : List String) (m m' : Machine) : Prop where
  frames : ∃ f', m'.frames = f' :: fs ∧ Grown names f f' ∧ Tells root (f' :: fs) ρ
  depth : m'.depth = m.depth
  out : m'.out = ps.reverse ++ m.out

/-- What leads to other places does what is told plainly. -/
structure Follows (env : Environment) (calls : Calls) (pc : PlainCalls) : Prop where
  call : ∀ {d params body args v}, pc.call d params body args = some v →
    ∀ {m}, depthOf m = d → ∀ name id,
      ∃ m', calls.call (.snippet name params body id) args m = .ok (v, m') ∧ Same m m'
  embed : ∀ {d ρ ρ' body ps}, pc.embed d ρ body = some (ρ', ps) →
    ∀ {m f fs}, m.frames = f :: fs → f.scope = none → At env.root d ρ m →
      ∃ m', calls.embed body m = .ok ((), m') ∧ Ran env.root none f fs ρ' ps m m'
  snippets : ∀ {body taken}, pc.snippets body = some taken →
    ∀ {m f fs}, m.frames = f :: fs → f.vars = [] →
      ∃ m' f', calls.embed body m = .ok ((), m') ∧ m'.frames = f' :: fs ∧ m'.depth = m.depth ∧
        ∀ n μ, taken.lookup n = some μ → ∃ v, f'.vars.lookup n = some v ∧ μ.Of v

/-! ### Expressions -/

section

variable {env : Environment} {calls : Calls} {pc : PlainCalls} {d : Nat} {ρ : Scope}

theorem lookup?_of_tells {m : Machine} (h : At env.root d ρ m) {n : String} {μ : Meaning}
    (hn : ρ.lookup n = some μ) : ∃ v, lookup? env.root m n = some v ∧ μ.Of v := by
  obtain ⟨v, hv, hμ⟩ := h.tells n μ hn
  exact ⟨v, lookup?_of_plainLookup hv, hμ⟩

mutual
/-- An expression has the value that is told plainly. -/
theorem Expr.eval_of_plain (hc : Follows env calls pc) : ∀ {e : Expr} {m : Machine} {v : Value},
    At env.root d ρ m → e.plain env pc d ρ = some v →
      ∃ m', e.eval env calls m = .ok (v, m') ∧ Same m m'
  | .literal c, m, v, _, h => by
      cases h
      exact ⟨m, rfl, .refl m⟩
  | .var n, m, v, hm, h => by
      unfold Expr.plain at h
      split at h
      case h_1 w hw =>
          cases h
          obtain ⟨u, hu, rfl⟩ := lookup?_of_tells hm hw
          refine ⟨m, ?_, .refl m⟩
          have : (lookup? env.root m n).getD (.undefined false) = u := by rw [hu]; rfl
          rw [← this]
          rfl
      case h_2 => cases h
  | .attr e n, m, v, hm, h => by
      obtain ⟨u, hu, hf⟩ := Option.bind_eq_some_iff.1 h
      obtain ⟨m', he, hs⟩ := Expr.eval_of_plain hc hm hu
      exact ⟨m', by rw [Expr.eval, bind_ok he, found_of hf], hs⟩
  | .item e i, m, v, hm, h => by
      obtain ⟨u, hu, h⟩ := Option.bind_eq_some_iff.1 h
      obtain ⟨j, hj, hf⟩ := Option.bind_eq_some_iff.1 h
      obtain ⟨m₁, he, hs⟩ := Expr.eval_of_plain hc hm hu
      obtain ⟨m₂, he', hs'⟩ := Expr.eval_of_plain hc (hm.same hs) hj
      exact ⟨m₂, by rw [Expr.eval, bind_ok he, bind_ok he', found_of hf], hs.trans hs'⟩
  | .filter n e args, m, v, hm, h => by
      obtain ⟨u, hu, h⟩ := Option.bind_eq_some_iff.1 h
      obtain ⟨us, hus, h⟩ := Option.bind_eq_some_iff.1 h
      obtain ⟨f, hf, hv⟩ := Option.bind_eq_some_iff.1 h
      obtain ⟨m₁, he, hs⟩ := Expr.eval_of_plain hc hm hu
      obtain ⟨m₂, he', hs'⟩ := evalAll_of_plain hc (hm.same hs) hus
      refine ⟨m₂, ?_, hs.trans hs'⟩
      rw [Expr.eval, bind_ok he, bind_ok he']
      simp only [hf, lift_of hv]
  | .test n e args, m, v, hm, h => by
      obtain ⟨u, hu, h⟩ := Option.bind_eq_some_iff.1 h
      obtain ⟨us, hus, h⟩ := Option.bind_eq_some_iff.1 h
      obtain ⟨f, hf, h⟩ := Option.bind_eq_some_iff.1 h
      obtain ⟨b, hb, h⟩ := Option.bind_eq_some_iff.1 h
      cases h
      obtain ⟨m₁, he, hs⟩ := Expr.eval_of_plain hc hm hu
      obtain ⟨m₂, he', hs'⟩ := evalAll_of_plain hc (hm.same hs) hus
      refine ⟨m₂, ?_, hs.trans hs'⟩
      rw [Expr.eval, bind_ok he, bind_ok he']
      simp only [hf, bind_ok (lift_of hb m₂)]
      rfl
  | .call (.var n) args, m, v, hm, h => by
      obtain ⟨us, hus, h⟩ := Option.bind_eq_some_iff.1 h
      split at h
      case h_1 params body hn =>
          obtain ⟨m₁, he, hs⟩ := evalAll_of_plain hc hm hus
          have hm₁ := hm.same hs
          obtain ⟨w, hw, name, id, rfl⟩ := lookup?_of_tells hm₁ hn
          obtain ⟨m₂, hcall, hs'⟩ := hc.call h hm₁.depth name id
          refine ⟨m₂, ?_, hs.trans hs'⟩
          rw [Expr.eval, bind_ok he]
          simp only [bind_ok (get_eq m₁), hw, hcall]
      case h_2 => cases h
  | .list es, m, v, hm, h => by
      obtain ⟨us, hus, h⟩ := Option.bind_eq_some_iff.1 h
      cases h
      obtain ⟨m', he, hs⟩ := evalAll_of_plain hc hm hus
      exact ⟨m', by rw [Expr.eval, bind_ok he]; rfl, hs⟩
  | .dict es, m, v, hm, h => by
      obtain ⟨us, hus, h⟩ := Option.bind_eq_some_iff.1 h
      cases h
      obtain ⟨m', he, hs⟩ := evalEntries_of_plain hc hm hus
      exact ⟨m', by rw [Expr.eval, bind_ok he]; rfl, hs⟩
  | .not e, m, v, hm, h => by
      obtain ⟨u, hu, h⟩ := Option.bind_eq_some_iff.1 h
      obtain ⟨b, hb, h⟩ := Option.bind_eq_some_iff.1 h
      cases h
      obtain ⟨m', he, hs⟩ := Expr.eval_of_plain hc hm hu
      exact ⟨m', by rw [Expr.eval, bind_ok he, bind_ok (truth_of hb m')]; rfl, hs⟩
  | .and a b, m, v, hm, h => by
      obtain ⟨u, hu, h⟩ := Option.bind_eq_some_iff.1 h
      obtain ⟨t, ht, h⟩ := Option.bind_eq_some_iff.1 h
      obtain ⟨m₁, he, hs⟩ := Expr.eval_of_plain hc hm hu
      split at h
      case isTrue hyes =>
          obtain ⟨m₂, he', hs'⟩ := Expr.eval_of_plain hc (hm.same hs) h
          refine ⟨m₂, ?_, hs.trans hs'⟩
          rw [Expr.eval, bind_ok he, bind_ok (truth_of ht m₁), if_pos hyes, he']
      case isFalse hno =>
          cases h
          refine ⟨m₁, ?_, hs⟩
          rw [Expr.eval, bind_ok he, bind_ok (truth_of ht m₁), if_neg hno]
          rfl
  | .or a b, m, v, hm, h => by
      obtain ⟨u, hu, h⟩ := Option.bind_eq_some_iff.1 h
      obtain ⟨t, ht, h⟩ := Option.bind_eq_some_iff.1 h
      obtain ⟨m₁, he, hs⟩ := Expr.eval_of_plain hc hm hu
      split at h
      case isTrue hyes =>
          cases h
          refine ⟨m₁, ?_, hs⟩
          rw [Expr.eval, bind_ok he, bind_ok (truth_of ht m₁), if_pos hyes]
          rfl
      case isFalse hno =>
          obtain ⟨m₂, he', hs'⟩ := Expr.eval_of_plain hc (hm.same hs) h
          refine ⟨m₂, ?_, hs.trans hs'⟩
          rw [Expr.eval, bind_ok he, bind_ok (truth_of ht m₁), if_neg hno, he']
  | .compare op a b, m, v, hm, h => by
      obtain ⟨u, hu, h⟩ := Option.bind_eq_some_iff.1 h
      obtain ⟨w, hw, h⟩ := Option.bind_eq_some_iff.1 h
      cases h
      obtain ⟨m₁, he, hs⟩ := Expr.eval_of_plain hc hm hu
      obtain ⟨m₂, he', hs'⟩ := Expr.eval_of_plain hc (hm.same hs) hw
      exact ⟨m₂, by rw [Expr.eval, bind_ok he, bind_ok he']; rfl, hs.trans hs'⟩
  | .concat a b, m, v, hm, h => by
      obtain ⟨u, hu, h⟩ := Option.bind_eq_some_iff.1 h
      obtain ⟨w, hw, h⟩ := Option.bind_eq_some_iff.1 h
      cases h
      obtain ⟨m₁, he, hs⟩ := Expr.eval_of_plain hc hm hu
      obtain ⟨m₂, he', hs'⟩ := Expr.eval_of_plain hc (hm.same hs) hw
      exact ⟨m₂, by rw [Expr.eval, bind_ok he, bind_ok he']; rfl, hs.trans hs'⟩
  | .choose t yes no, m, v, hm, h => by
      obtain ⟨u, hu, h⟩ := Option.bind_eq_some_iff.1 h
      obtain ⟨b, hb, h⟩ := Option.bind_eq_some_iff.1 h
      obtain ⟨m₁, he, hs⟩ := Expr.eval_of_plain hc hm hu
      split at h
      case isTrue hyes =>
          obtain ⟨m₂, he', hs'⟩ := Expr.eval_of_plain hc (hm.same hs) h
          refine ⟨m₂, ?_, hs.trans hs'⟩
          rw [Expr.eval, bind_ok he, bind_ok (truth_of hb m₁), if_pos hyes, he']
      case isFalse hno =>
          obtain ⟨m₂, he', hs'⟩ := Expr.eval_of_plain hc (hm.same hs) h
          refine ⟨m₂, ?_, hs.trans hs'⟩
          rw [Expr.eval, bind_ok he, bind_ok (truth_of hb m₁), if_neg hno, he']
  -- only what a name means is called, and the other operators are told nowhere
  | .call (.literal _) _, _, _, _, h | .call (.attr _ _) _, _, _, _, h
  | .call (.item _ _) _, _, _, _, h | .call (.filter _ _ _) _, _, _, _, h
  | .call (.test _ _ _) _, _, _, _, h | .call (.call _ _) _, _, _, _, h
  | .call (.list _) _, _, _, _, h | .call (.dict _) _, _, _, _, h
  | .call (.not _) _, _, _, _, h | .call (.negate _) _, _, _, _, h
  | .call (.and _ _) _, _, _, _, h | .call (.or _ _) _, _, _, _, h
  | .call (.compare _ _ _) _, _, _, _, h | .call (.contains _ _) _, _, _, _, h
  | .call (.concat _ _) _, _, _, _, h | .call (.add _ _) _, _, _, _, h
  | .call (.subtract _ _) _, _, _, _, h | .call (.multiply _ _) _, _, _, _, h
  | .call (.choose _ _ _) _, _, _, _, h | .call (.guard _ _) _, _, _, _, h
  | .negate _, _, _, _, h | .contains _ _, _, _, _, h | .add _ _, _, _, _, h
  | .subtract _ _, _, _, _, h | .multiply _ _, _, _, _, h | .guard _ _, _, _, _, h => by cases h

theorem evalAll_of_plain (hc : Follows env calls pc) :
    ∀ {es : List Expr} {m : Machine} {vs : List Value},
    At env.root d ρ m → plainArgs env pc d ρ es = some vs →
      ∃ m', evalAll env calls es m = .ok (vs, m') ∧ Same m m'
  | [], m, vs, _, h => by
      cases h
      exact ⟨m, rfl, .refl m⟩
  | e :: es, m, vs, hm, h => by
      obtain ⟨u, hu, h⟩ := Option.bind_eq_some_iff.1 h
      obtain ⟨us, hus, h⟩ := Option.bind_eq_some_iff.1 h
      cases h
      obtain ⟨m₁, he, hs⟩ := Expr.eval_of_plain hc hm hu
      obtain ⟨m₂, he', hs'⟩ := evalAll_of_plain hc (hm.same hs) hus
      exact ⟨m₂, by rw [evalAll, bind_ok he, bind_ok he']; rfl, hs.trans hs'⟩

theorem evalEntries_of_plain (hc : Follows env calls pc) :
    ∀ {es : List (Expr × Expr)} {m : Machine} {vs : List (Value × Value)},
    At env.root d ρ m → plainEntries env pc d ρ es = some vs →
      ∃ m', evalEntries env calls es m = .ok (vs, m') ∧ Same m m'
  | [], m, vs, _, h => by
      cases h
      exact ⟨m, rfl, .refl m⟩
  | (k, v) :: es, m, vs, hm, h => by
      obtain ⟨u, hu, h⟩ := Option.bind_eq_some_iff.1 h
      obtain ⟨w, hw, h⟩ := Option.bind_eq_some_iff.1 h
      obtain ⟨us, hus, h⟩ := Option.bind_eq_some_iff.1 h
      cases h
      obtain ⟨m₁, he, hs⟩ := Expr.eval_of_plain hc hm hu
      obtain ⟨m₂, he', hs'⟩ := Expr.eval_of_plain hc (hm.same hs) hw
      obtain ⟨m₃, he'', hs''⟩ := evalEntries_of_plain hc ((hm.same hs).same hs') hus
      refine ⟨m₃, ?_, (hs.trans hs').trans hs''⟩
      rw [evalEntries, bind_ok he, bind_ok he', bind_ok he'']
      rfl
end

end

end RouteServer.Template

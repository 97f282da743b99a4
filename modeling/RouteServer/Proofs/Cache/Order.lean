import RouteServer.Proofs.Cache.Workers

/-!
# Cache — the order of the steps does not matter

In a steady world (`World.steady`) the clock stands still, fetching is a function of what is fetched,
and nothing breaks down or comes in between.  There a call has at most one thing to do, which is
local to its key.  If every call has a key of its own, steps of two calls can therefore be swapped
(`Step.swap`), and runs that have parted can be joined again (`Run.join`): every run leads to the one
pool in which all calls have returned (`Run.of_isComplete`), if there is a run that leads to it.
-/

namespace RouteServer.Cache

open RouteServer.Lookup RouteServer.Time

variable {ι : Type} {c : Calls ι}

/-- The clock stands still, fetching is a function, and nothing else happens. -/
def World.steady (c : Calls ι) (now : Instant) (ask : (i : ι) → Except Failure (c.Answer i)) :
    World c where
  shows t := t = now
  gives i r := r = ask i
  fails _ := False
  breaks := False
  disturbs _ _ := False

section Steady

variable {now : Instant} {ask : (i : ι) → Except Failure (c.Answer i)} {i : ι}

/-- A move in a steady world is a local action: it would be made in any state. -/
theorem Move.exists_isLocal {k k' : Slot} {φ φ' : Phase (c.Answer i)} {s s' : State}
    (h : Move (.steady c now ask) i k φ s k' φ' s') :
    ∃ F : State → Phase (c.Answer i) × State, IsLocal (c.key i) F ∧ F s = (φ', s') ∧
      ∀ t, Move (.steady c now ask) i k φ t k' (F t).1 (F t).2 := by
  cases h with
  | enter => exact ⟨fun s => (.entered, s), .pure _ _, rfl, fun _ => .enter⟩
  | refuse => exact ⟨fun s => (_, s), .pure _ _, rfl, fun _ => .refuse⟩
  | @work _ _ _ t outcome hφ hnow hgives =>
      exact ⟨φ.advance (c.codec i) (c.key i) t outcome, isLocal_advance _ _ _ _ _, rfl,
        fun _ => .work hφ hnow hgives⟩
  | fail _ he => cases he
  | breakDown _ hb => cases hb
  | leave => exact ⟨fun s => (_, s), .pure _ _, rfl, fun _ => .leave⟩

/-- A call has at most one thing to do. -/
theorem Move.unique {k k₁ k₂ : Slot} {φ φ₁ φ₂ : Phase (c.Answer i)} {s s₁ s₂ : State}
    (h₁ : Move (.steady c now ask) i k φ s k₁ φ₁ s₁)
    (h₂ : Move (.steady c now ask) i k φ s k₂ φ₂ s₂) : k₁ = k₂ ∧ φ₁ = φ₂ ∧ s₁ = s₂ := by
  cases h₁ with
  | enter =>
      cases h₂ with
      | enter => exact ⟨rfl, rfl, rfl⟩
      | work hφ => cases hφ
      | fail _ he => cases he
      | breakDown _ hb => cases hb
  | refuse =>
      cases h₂ with
      | refuse => exact ⟨rfl, rfl, rfl⟩
      | work hφ => cases hφ
      | fail _ he => cases he
      | breakDown _ hb => cases hb
  | work hφ hnow hgives =>
      cases h₂ with
      | work _ hnow' hgives' =>
          cases hnow.trans hnow'.symm
          cases hgives.trans hgives'.symm
          exact ⟨rfl, rfl, rfl⟩
      | enter => cases hφ
      | refuse => cases hφ
      | leave => cases hφ
      | fail _ he => cases he
      | breakDown _ hb => cases hb
  | fail _ he => cases he
  | breakDown _ hb => cases hb
  | leave =>
      cases h₂ with
      | leave => exact ⟨rfl, rfl, rfl⟩
      | work hφ => cases hφ
      | fail _ he => cases he
      | breakDown _ hb => cases hb

variable [DecidableEq ι]

namespace Pool

theorem Step.exists_move {σ τ : Pool c} (h : Step (.steady c now ask) σ τ) :
    ∃ i k φ s, Move (.steady c now ask) i (σ.slot (c.key i)) (σ.phase i) σ.state k φ s ∧
      τ = σ.moved i k φ s := by
  cases h with
  | move hmove => exact ⟨_, _, _, _, hmove, rfl⟩
  | disturb hd => cases hd

theorem moved_comm (σ : Pool c) {i j : ι} (hij : i ≠ j) (hkey : c.key i ≠ c.key j) (k k' : Slot)
    (φ : Phase (c.Answer i)) (ψ : Phase (c.Answer j)) (s s' t : State) :
    (σ.moved i k φ s).moved j k' ψ t = (σ.moved j k' ψ s').moved i k φ t := by
  simp only [moved]
  rw [Function.update_comm hkey, Function.update_comm hij]

/-- **Steps of two calls can be swapped.** -/
theorem Step.swap (hkeys : Function.Injective c.key) {σ τ υ : Pool c}
    (h : Step (.steady c now ask) σ τ) (h' : Step (.steady c now ask) σ υ) :
    τ = υ ∨ ∃ ρ, Step (.steady c now ask) τ ρ ∧ Step (.steady c now ask) υ ρ := by
  obtain ⟨i, k, φ, s, hi, rfl⟩ := h.exists_move
  obtain ⟨j, k', ψ, s', hj, rfl⟩ := h'.exists_move
  by_cases hij : i = j
  · subst hij
    obtain ⟨rfl, rfl, rfl⟩ := hi.unique hj
    exact .inl rfl
  have hkey : c.key i ≠ c.key j := fun he => hij (hkeys he)
  obtain ⟨F, hF, hFs, hFmove⟩ := hi.exists_isLocal
  obtain ⟨G, hG, hGs, hGmove⟩ := hj.exists_isLocal
  -- neither call sees what the other has done, and both orders leave the same cache
  have hψ : (G s).1 = ψ := by
    have := (hF.unseen hG hkey σ.state).1
    rwa [hFs, hGs] at this
  have hφ : (F s').1 = φ := by
    have := (hG.unseen hF (Ne.symm hkey) σ.state).1
    rwa [hFs, hGs] at this
  have hs : (G s).2 = (F s').2 := by
    have := hF.comm hG hkey σ.state
    rwa [hFs, hGs] at this
  refine .inr ⟨(σ.moved i k φ s).moved j k' ψ (G s).2, .move ?_, ?_⟩
  · have hmove := hGmove s
    rw [hψ] at hmove
    rwa [← slot_moved_of_ne σ (Ne.symm hkey) k φ s, ← phase_moved_of_ne σ (Ne.symm hij) k φ s]
      at hmove
  · rw [moved_comm σ hij hkey k k' φ ψ s s', hs]
    refine .move ?_
    have hmove := hFmove s'
    rw [hφ] at hmove
    rwa [← slot_moved_of_ne σ hkey k' ψ s', ← phase_moved_of_ne σ hij k' ψ s'] at hmove

/-- **Runs that have parted can be joined.** -/
theorem Run.join (hkeys : Function.Injective c.key) {σ τ υ : Pool c}
    (h : Run (.steady c now ask) σ τ) (h' : Run (.steady c now ask) σ υ) :
    Relation.Join (Run (.steady c now ask)) τ υ := by
  refine Relation.church_rosser (fun σ τ υ hτ hυ => ?_) h h'
  rcases hτ.swap hkeys hυ with rfl | ⟨ρ, hτρ, hυρ⟩
  · exact ⟨τ, .refl, .refl⟩
  · exact ⟨ρ, .single hτρ, .single hυρ⟩

/-- All calls have returned. -/
def IsComplete (σ : Pool c) : Prop := ∀ i, ∃ result, σ.phase i = .returned result

/-- When all calls have returned there is nothing more to do. -/
theorem IsComplete.eq_of_run {σ τ : Pool c} (h : σ.IsComplete)
    (hr : Run (.steady c now ask) σ τ) : τ = σ := by
  rcases hr.cases_head with rfl | ⟨υ, hs, -⟩
  · rfl
  · obtain ⟨i, k, φ, s, hmove, -⟩ := hs.exists_move
    obtain ⟨result, hresult⟩ := h i
    rw [hresult] at hmove
    generalize σ.slot (c.key i) = slot at hmove
    cases hmove with
    | work hφ => cases hφ
    | fail _ he => cases he
    | breakDown _ hb => cases hb

/-- **Every run leads to the pool in which all calls have returned.** -/
theorem Run.of_isComplete (hkeys : Function.Injective c.key) {σ τ done : Pool c}
    (hr : Run (.steady c now ask) σ τ) (hdone : Run (.steady c now ask) σ done)
    (hcomplete : done.IsComplete) : Run (.steady c now ask) τ done := by
  obtain ⟨ρ, hτ, hd⟩ := hr.join hkeys hdone
  exact hcomplete.eq_of_run hd ▸ hτ

end Pool

end Steady

end RouteServer.Cache

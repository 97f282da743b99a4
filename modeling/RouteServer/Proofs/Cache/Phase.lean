import RouteServer.Proofs.Cache.Local

/-!
# Cache — a look-up step by step

A look-up that has the slot of its key to itself goes through phases (`Phase`): it looks at what is
remembered, reads the record of its key, judges it, fetches, writes the temporary file, moves it and
remembers.  One step is `Phase.advance`; between two steps others may do theirs.

A step is local to the key (`isLocal_advance`).  When nobody comes in between, the steps are a
look-up (`run_entered`), so a look-up is local to its key as well (`onlyAt_lookup`).
-/

namespace RouteServer.Cache

open RouteServer.Files RouteServer.Lookup RouteServer.Time

/-- How far a look-up has come. -/
inductive Phase (α : Type) where
  /-- The slot of the key is still to be taken. -/
  | waiting
  /-- The slot has been taken. -/
  | entered
  /-- Nothing is remembered. -/
  | missing
  /-- The record of the key has been read. -/
  | read (stored : Option Record)
  /-- The answer is being fetched; there may be a record that has expired. -/
  | fetching (expired : Option Record)
  /-- Fetching has come to an end. -/
  | fetched (expired : Option Record) (outcome : Except Failure α)
  /-- The record of the answer is in its temporary file. -/
  | prepared (x : α)
  /-- The record of the answer is in its place. -/
  | committed (x : α)
  /-- All is done but to give the slot back. -/
  | leaving (result : Except Failure α)
  | returned (result : Except Failure α)
  /-- The look-up came to no end. -/
  | broken

namespace Phase

variable {α : Type}

/-- Whether the look-up has something to do while it has the slot. -/
def isWorking : Phase α → Bool
  | .entered | .missing | .read _ | .fetching _ | .fetched _ _ | .prepared _ | .committed _ => true
  | .waiting | .leaving _ | .returned _ | .broken => false

/-- Whether the look-up has the slot. -/
def isInside : Phase α → Bool
  | .leaving _ => true
  | φ => φ.isWorking

/-- Whether the answer is being fetched. -/
def isFetching : Phase α → Bool
  | .fetching _ => true
  | _ => false

/-- Whether an answer that has been fetched is being written to its file. -/
def isWriting : Phase α → Bool
  | .fetched _ (.ok _) | .prepared _ => true
  | _ => false

/-- What follows from what is remembered. -/
def recalled (codec : Codec α) : Option Json → Phase α
  | some payload => .leaving (Store.answer codec payload)
  | none => .missing

/-- The next phase if something could be done; a failure ends the look-up. -/
def followed (next : Phase α) : Except Failure Unit → Phase α
  | .ok () => next
  | .error e => .leaving (.error e)

/-- What is kept of an answer. -/
def payload (codec : Codec α) (x : α) : Json := (codec.encode x).canonical

/-- A look-up that ends with the answer of a record. -/
def served (codec : Codec α) (key : String) (r : Record) (s : State) : Phase α × State :=
  (.leaving (s.serve codec key r.payload).1, (s.serve codec key r.payload).2)

/-- A step of a look-up that has the slot: `now` is what the clock shows if it is looked at, and
`outcome` is what fetching gives if the step ends it. -/
def advance (codec : Codec α) (key : String) (now : Instant) (outcome : Except Failure α) :
    Phase α → State → Phase α × State
  | .entered, s => (recalled codec (s.store.memo.get? key), s)
  | .missing, s => (.read (s.stored? key), s)
  | .read none, s => (.fetching none, s)
  | .read (some r), s =>
    if r.isFresh now s.store.expiry then served codec key r s else (.fetching (some r), s)
  | .fetching expired, s => (.fetched expired outcome, s)
  | .fetched _ (.ok x), s =>
    let step := s.prepare now key (payload codec x)
    (followed (.prepared x) step.1, step.2)
  | .fetched none (.error e), s => (.leaving (.error e), s)
  | .fetched (some r) (.error e), s =>
    if s.store.stalePolicy = .useStale then served codec key r s else (.leaving (.error e), s)
  | .prepared x, s =>
    let step := s.commit key
    (followed (.committed x) step.1, step.2)
  | .committed x, s => (.leaving (.ok x), s.remember key (payload codec x))
  | φ, s => (φ, s)

theorem advance_of_idle {codec : Codec α} {key : String} {now : Instant}
    {outcome : Except Failure α} {φ : Phase α} (h : φ.isWorking = false) (s : State) :
    advance codec key now outcome φ s = (φ, s) := by
  cases φ with
  | waiting | leaving _ | returned _ | broken => rfl
  | _ => cases h

/-- Some steps with nobody in between. -/
def run (codec : Codec α) (key : String) (now : Instant) (outcome : Except Failure α) :
    Nat → Phase α × State → Phase α × State
  | 0, p => p
  | n + 1, p => run codec key now outcome n (advance codec key now outcome p.1 p.2)

end Phase

variable {α β : Type} {key : String}

theorem IsLocal.ite {c : State → Prop} [DecidablePred c] {F G : State → β × State}
    (hc : ∀ {s s'}, AlikeAt key s s' → (c s' ↔ c s)) (hF : IsLocal key F) (hG : IsLocal key G) :
    IsLocal key fun s => if c s then F s else G s where
  only s := by
    by_cases h : c s
    · rw [if_pos h]; exact hF.only s
    · rw [if_neg h]; exact hG.only s
  alike {s s'} h := by
    by_cases hs : c s
    · rw [if_pos hs, if_pos ((hc h).2 hs)]; exact hF.alike h
    · rw [if_neg hs, if_neg fun hs' => hs ((hc h).1 hs')]; exact hG.alike h

open Phase

theorem isLocal_served (codec : Codec α) (key : String) (r : Record) :
    IsLocal key (served codec key r) :=
  (isLocal_serve codec key r.payload).map leaving

/-- **A step of a look-up is local to its key.** -/
theorem isLocal_advance (codec : Codec α) (key : String) (now : Instant)
    (outcome : Except Failure α) (φ : Phase α) : IsLocal key (advance codec key now outcome φ) := by
  have hstay : ∀ ψ : Phase α, IsLocal key fun s => (ψ, s) := fun ψ => .pure key ψ
  cases φ with
  | entered =>
      refine IsLocal.read (f := fun s => recalled codec (s.store.memo.get? key)) ?_
      intro s s' h
      rw [h.memo]
  | missing =>
      refine IsLocal.read (f := fun s => Phase.read (s.stored? key)) ?_
      intro s s' h
      rw [h.stored?_eq]
  | read stored =>
      cases stored with
      | none => exact hstay (.fetching none)
      | some r =>
          have hjudge : IsLocal key fun s : State =>
              if r.isFresh now s.store.expiry then served codec key r s
              else (.fetching (some r), s) := by
            refine IsLocal.ite ?_ (isLocal_served codec key r) (hstay (.fetching (some r)))
            intro s s' h
            rw [h.store.expiry_eq]
          exact hjudge
  | fetching expired => exact hstay (.fetched expired outcome)
  | fetched expired outcome =>
      cases outcome with
      | ok x => exact (isLocal_prepare now key (payload codec x)).map (followed (.prepared x))
      | error e =>
          cases expired with
          | none => exact hstay (.leaving (.error e))
          | some r =>
              have hfallBack : IsLocal key fun s : State =>
                  if s.store.stalePolicy = .useStale then served codec key r s
                  else (.leaving (.error e), s) := by
                refine IsLocal.ite ?_ (isLocal_served codec key r) (hstay (.leaving (.error e)))
                intro s s' h
                rw [h.store.stalePolicy_eq]
              exact hfallBack
  | prepared x => exact (isLocal_commit key).map (followed (.committed x))
  | committed x => exact isLocal_remember key (payload codec x) (leaving (.ok x))
  | waiting => exact hstay .waiting
  | leaving result => exact hstay (.leaving result)
  | returned result => exact hstay (.returned result)
  | broken => exact hstay .broken

/-! ### A look-up with nobody in between -/

theorem isLocal_run (codec : Codec α) (key : String) (now : Instant) (outcome : Except Failure α)
    (n : Nat) (φ : Phase α) : IsLocal key fun s => run codec key now outcome n (φ, s) := by
  induction n generalizing φ with
  | zero => exact .pure key φ
  | succ n ih => exact (isLocal_advance codec key now outcome φ).bind ih

section Run

variable (codec : Codec α) (key : String) (now : Instant) (outcome : Except Failure α) (n : Nat)
  (s : State)

theorem run_leaving (result : Except Failure α) :
    run codec key now outcome n (.leaving result, s) = (.leaving result, s) := by
  induction n with
  | zero => rfl
  | succ n ih => exact ih

theorem served_eq (r : Record) :
    served codec key r s =
      (.leaving (s.store.serve codec key r.payload).1,
        ⟨(s.store.serve codec key r.payload).2, s.files⟩) := rfl

/-- An answer that has been fetched is kept. -/
theorem run_fetched_ok (expired : Option Record) (x : α) :
    run codec key now outcome (n + 3) (.fetched expired (.ok x), s) =
      (.leaving ((s.store.keep s.files now key (payload codec x)).1.map fun _ => x),
        (s.store.keep s.files now key (payload codec x)).2) := by
  rw [run, advance, State.prepare]
  unfold Store.keep
  cases s.store.prepare s.files (s.store.record now key (payload codec x)) with
  | error e => exact run_leaving codec key now outcome (n + 2) s (.error e)
  | ok prepared =>
      simp only [State.withFiles, followed]
      rw [run, advance, State.commit]
      cases s.store.commit prepared key with
      | error e => exact run_leaving codec key now outcome (n + 1) ⟨s.store, prepared⟩ (.error e)
      | ok files =>
          simp only [State.withFiles, followed]
          rw [run, advance]
          exact run_leaving codec key now outcome n _ (.ok x)

theorem settle_ok (expired : Option Record) (x : α) :
    s.store.settle s.files now codec key expired (.ok x) =
      ((s.store.keep s.files now key (payload codec x)).1.map fun _ => x,
        (s.store.keep s.files now key (payload codec x)).2) := by
  simp only [Store.settle, payload]

/-- A look-up that found nothing ends with what has been fetched. -/
theorem run_fetched (expired : Option Record) :
    run codec key now outcome (n + 3) (.fetched expired outcome, s) =
      (.leaving (s.store.settle s.files now codec key expired outcome).1,
        (s.store.settle s.files now codec key expired outcome).2) := by
  cases outcome with
  | ok x => rw [run_fetched_ok, settle_ok]
  | error e =>
      cases expired with
      | none =>
          rw [run, advance, run_leaving]
          unfold Store.settle
          cases s.store.stalePolicy <;> rfl
      | some r =>
          rw [run, advance]
          unfold Store.settle
          cases s.store.stalePolicy with
          | fail => simp only [reduceCtorEq, if_false, run_leaving]
          | useStale => simp only [if_true, served_eq, run_leaving]

/-- What is done with the record of the key. -/
theorem run_read (stored : Option Record) (hmemo : s.store.memo.get? key = none)
    (hstored : s.stored? key = stored) :
    run codec key now outcome (n + 5) (.read stored, s) =
      (.leaving (s.store.lookup s.files now codec key outcome).result,
        (s.store.lookup s.files now codec key outcome).state) := by
  rw [State.stored?] at hstored
  cases stored with
  | none =>
      rw [Store.lookup_of_missed (Store.consult_absent now hmemo hstored), run, advance, run,
        advance]
      exact run_fetched codec key now outcome n s none
  | some r =>
      have hconsult := Store.consult_recorded codec now hmemo hstored
      rw [run, advance]
      by_cases hfresh : r.isFresh now s.store.expiry = true
      · rw [if_pos hfresh] at hconsult ⊢
        rw [Store.lookup_of_settled hconsult, served_eq, run_leaving]
      · rw [if_neg hfresh] at hconsult ⊢
        rw [Store.lookup_of_missed hconsult, run, advance]
        exact run_fetched codec key now outcome n s (some r)

/-- **The steps of a look-up are a look-up.** -/
theorem run_entered :
    run codec key now outcome 7 (.entered, s) =
      (.leaving (s.store.lookup s.files now codec key outcome).result,
        (s.store.lookup s.files now codec key outcome).state) := by
  rw [run, advance]
  cases hmemo : s.store.memo.get? key with
  | some payload =>
      rw [Store.lookup_of_settled (Store.consult_remembered now hmemo)]
      exact run_leaving codec key now outcome 6 s _
  | none =>
      rw [recalled, run, advance]
      exact run_read codec key now outcome 0 s _ hmemo rfl

/-- A look-up changes only what belongs to its key. -/
theorem onlyAt_lookup :
    OnlyAt (· = key) s (s.store.lookup s.files now codec key outcome).state := by
  have h := (isLocal_run codec key now outcome 7 .entered).only s
  rwa [run_entered] at h

end Run

/-! ### What is remembered -/

namespace Phase

variable {α : Type}

/-- Whether the look-up has found nothing remembered, and goes on. -/
def isMissing : Phase α → Bool
  | .missing | .read _ | .fetching _ | .fetched _ _ | .prepared _ | .committed _ => true
  | _ => false

/-- The look-up gives an answer. -/
def Gives (φ : Phase α) (x : α) : Prop := φ = .leaving (.ok x) ∨ φ = .returned (.ok x)

/-- A phase goes with what is remembered under the key: nothing while the look-up goes on without
an answer, and the answer once there is one. -/
structure Agrees (codec : Codec α) (φ : Phase α) (memo : Option Json) : Prop where
  nothing : φ.isMissing → memo = none
  answer : ∀ x, φ.Gives x → ∃ payload, memo = some payload ∧ codec.decode payload = some x

theorem isInside_of_isMissing {φ : Phase α} (h : φ.isMissing) : φ.isInside := by
  cases φ <;> first | rfl | cases h

theorem isInside_of_isFetching {φ : Phase α} (h : φ.isFetching) : φ.isInside := by
  cases φ <;> first | rfl | cases h

theorem isMissing_of_isFetching {φ : Phase α} (h : φ.isFetching) : φ.isMissing := by
  cases φ <;> first | rfl | cases h

theorem isInside_of_isWorking {φ : Phase α} (h : φ.isWorking) : φ.isInside := by
  cases φ <;> first | rfl | cases h

theorem isInside_of_isWriting {φ : Phase α} (h : φ.isWriting) : φ.isInside := by
  cases φ <;> first | rfl | cases h

variable {codec : Codec α} {key : String} {memo : Option Json}

/-- A phase in which there is neither an answer nor work on one. -/
theorem agrees_of_idle {φ : Phase α} (h : φ.isMissing = false)
    (hgives : ∀ x, φ ≠ .leaving (.ok x) ∧ φ ≠ .returned (.ok x)) : φ.Agrees codec memo where
  nothing hm := absurd (h ▸ hm) Bool.false_ne_true
  answer x hx := by
    rcases hx with hx | hx
    · exact absurd hx (hgives x).1
    · exact absurd hx (hgives x).2

theorem agrees_entered : (entered : Phase α).Agrees codec memo :=
  agrees_of_idle rfl fun _ => ⟨nofun, nofun⟩

theorem agrees_of_isMissing {φ : Phase α} (h : φ.isMissing) (hmemo : memo = none) :
    φ.Agrees codec memo :=
  ⟨fun _ => hmemo, fun x hx => by rcases hx with hx | hx <;> rw [hx] at h <;> cases h⟩

theorem agrees_leaving {result : Except Failure α}
    (h : ∀ x, result = .ok x → ∃ payload, memo = some payload ∧ codec.decode payload = some x) :
    (leaving result).Agrees codec memo where
  nothing := nofun
  answer x hx := by
    rcases hx with hx | hx
    · exact h x (leaving.inj hx)
    · cases hx

theorem agrees_leaving_error (e : Failure) :
    (leaving (.error e) : Phase α).Agrees codec memo := agrees_leaving nofun

theorem decode_of_answer {payload : Json} {x : α} (h : Store.answer codec payload = .ok x) :
    codec.decode payload = some x := by
  unfold Store.answer at h
  split at h
  · cases h; assumption
  · cases h

theorem get?_remember (s : State) (key : String) (payload : Json) :
    (s.remember key payload).store.memo.get? key = some payload := by
  rw [State.remember, Store.remember, Dictionary.get?_insert, if_pos rfl]

theorem store_withFiles (s : State) (r : Except Failure Tree) : (s.withFiles r).2.store = s.store := by
  cases r <;> rfl

/-- The phase and the cache after a step of a look-up that has the slot: it still has the slot, and
what was remembered under the key has stayed. -/
structure Advances (codec : Codec α) (key : String) (s : State) (p : Phase α × State) : Prop where
  isInside : p.1.isInside
  agrees : p.1.Agrees codec (p.2.store.memo.get? key)
  stays : p.2.store.memo.get? key = s.store.memo.get? key ∨ s.store.memo.get? key = none

theorem advances_missing {s : State} {p : Phase α × State} (hp : p.1.isMissing)
    (hmemo : s.store.memo.get? key = none) (hstore : p.2.store = s.store) :
    Advances codec key s p where
  isInside := isInside_of_isMissing hp
  agrees := agrees_of_isMissing hp (hstore ▸ hmemo)
  stays := .inr hmemo

theorem advances_served {s : State} (hmemo : s.store.memo.get? key = none) (r : Record) :
    Advances codec key s (served codec key r s) where
  isInside := rfl
  agrees := by
    unfold served State.serve Store.serve
    cases hanswer : Store.answer codec r.payload with
    | error e => exact agrees_leaving_error e
    | ok x =>
        refine agrees_leaving fun y hy => ⟨r.payload, get?_remember s key r.payload, ?_⟩
        exact decode_of_answer (hanswer.trans hy)
  stays := .inr hmemo

theorem advances_followed {s s' : State} {next : Phase α} (hnext : next.isMissing)
    (hmemo : s.store.memo.get? key = none) (hstore : s'.store = s.store)
    (done : Except Failure Unit) : Advances codec key s (followed next done, s') := by
  cases done with
  | ok _ => exact advances_missing hnext hmemo hstore
  | error e => exact ⟨rfl, agrees_leaving_error e, .inr hmemo⟩

/-- **A step of a look-up goes with what is remembered.** -/
theorem advances_advance (hcodec : ∀ x, codec.decode (payload codec x) = some x) {φ : Phase α}
    {s : State} (hφ : φ.isWorking) (h : φ.Agrees codec (s.store.memo.get? key)) (now : Instant)
    (outcome : Except Failure α) : Advances codec key s (advance codec key now outcome φ s) := by
  have hleaves : ∀ e, Advances codec key s ((leaving (.error e) : Phase α), s) := fun e =>
    ⟨rfl, agrees_leaving_error e, .inl rfl⟩
  cases φ with
  | entered =>
      cases hmemo : s.store.memo.get? key with
      | some payload =>
          simp only [advance, hmemo, recalled]
          exact ⟨rfl, agrees_leaving fun x hx => ⟨payload, hmemo, decode_of_answer hx⟩, .inl rfl⟩
      | none =>
          simp only [advance, hmemo, recalled]
          exact advances_missing rfl hmemo rfl
  | missing => exact advances_missing rfl (h.nothing rfl) rfl
  | read stored =>
      cases stored with
      | none => exact advances_missing rfl (h.nothing rfl) rfl
      | some r =>
          simp only [advance]
          split
          · exact advances_served (h.nothing rfl) r
          · exact advances_missing rfl (h.nothing rfl) rfl
  | fetching expired => exact advances_missing rfl (h.nothing rfl) rfl
  | fetched expired outcome =>
      cases outcome with
      | ok x => exact advances_followed rfl (h.nothing rfl) (store_withFiles s _) _
      | error e =>
          cases expired with
          | none => exact hleaves e
          | some r =>
              simp only [advance]
              split
              · exact advances_served (h.nothing rfl) r
              · exact hleaves e
  | prepared x => exact advances_followed rfl (h.nothing rfl) (store_withFiles s _) _
  | committed x =>
      refine ⟨rfl, agrees_leaving fun y hy => ?_, .inr (h.nothing rfl)⟩
      cases hy
      exact ⟨payload codec x, get?_remember s key _, hcodec x⟩
  | waiting => cases hφ
  | leaving result => cases hφ
  | returned result => cases hφ
  | broken => cases hφ

/-- What was remembered under the key is so after some steps. -/
theorem agrees_run (hcodec : ∀ x, codec.decode (payload codec x) = some x) (now : Instant)
    (outcome : Except Failure α) (n : Nat) {φ : Phase α} {s : State}
    (h : φ.Agrees codec (s.store.memo.get? key)) :
    (run codec key now outcome n (φ, s)).1.Agrees codec
        ((run codec key now outcome n (φ, s)).2.store.memo.get? key) ∧
      ∀ p, s.store.memo.get? key = some p →
        (run codec key now outcome n (φ, s)).2.store.memo.get? key = some p := by
  induction n generalizing φ s with
  | zero => exact ⟨h, fun _ hp => hp⟩
  | succ n ih =>
      rw [run]
      by_cases hφ : φ.isWorking
      · have hstep := advances_advance hcodec hφ h now outcome
        obtain ⟨hagrees, hstays⟩ := ih hstep.agrees
        refine ⟨hagrees, fun p hp => hstays p ?_⟩
        rcases hstep.stays with hsame | hnone
        · exact hsame.trans hp
        · rw [hnone] at hp; cases hp
      · rw [advance_of_idle (Bool.eq_false_iff.2 hφ)]
        exact ih h

end Phase

section Lookup

variable {codec : Codec α} (hcodec : ∀ x, codec.decode (payload codec x) = some x) (key : String)
  (now : Instant) (outcome : Except Failure α) (s : State)

include hcodec

/-- An answer that a look-up gives is remembered. -/
theorem remembered_of_lookup {x : α}
    (h : (s.store.lookup s.files now codec key outcome).result = .ok x) :
    ∃ p, (s.store.lookup s.files now codec key outcome).state.store.memo.get? key = some p ∧
      codec.decode p = some x := by
  have hentered : (entered : Phase α).Agrees codec (s.store.memo.get? key) := agrees_entered
  obtain ⟨hagrees, -⟩ := agrees_run hcodec now outcome 7 hentered
  rw [run_entered, h] at hagrees
  exact hagrees.answer x (.inl rfl)

/-- What is remembered stays. -/
theorem stays_of_lookup {k : String} {p : Json} (h : s.store.memo.get? k = some p) :
    (s.store.lookup s.files now codec key outcome).state.store.memo.get? k = some p := by
  by_cases hk : k = key
  · have hentered : (entered : Phase α).Agrees codec (s.store.memo.get? key) := agrees_entered
    obtain ⟨-, hstays⟩ := agrees_run hcodec now outcome 7 hentered
    rw [run_entered] at hstays
    exact hk ▸ hstays p (hk ▸ h)
  · exact ((onlyAt_lookup codec key now outcome s).memo k hk).trans h

end Lookup

end RouteServer.Cache

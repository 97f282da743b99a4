import Mathlib.Logic.Function.Basic
import Mathlib.Logic.Relation
import RouteServer.Proofs.Cache.Phase

/-!
# Cache — many workers, one cache

Some calls (`Calls`) look keys up in one cache, each whenever its worker gets to do a step (`Step`).
A call takes the slot of its key first and gives it back last; the slot is all that keeps the calls
of one key apart.  Around them (`World`) the clock shows what it likes, fetching gives what it
likes, a file may fail to be written, a call may break down and leave its slot poisoned, and the
files may change at any time.

**A key is resolved once** (`single_resolution`).  No two calls fetch one key at a time; once a call
has returned an answer, its key is not fetched any more; and the answers to calls of one kind for one
key are equal.

A step keeps the pool in order (`InOrder`): a call in its slot is alone there, as long as it goes on
its key is not remembered, and an answer that a call gives is the one that is remembered.  What is
remembered stays.
-/

namespace RouteServer.Cache

open RouteServer.Files RouteServer.Lookup RouteServer.Net RouteServer.Policy RouteServer.Time

/-- Calls of a cache: what each looks up, and how its answer is kept. -/
structure Calls (ι : Type) where
  Answer : ι → Type
  codec : (i : ι) → Codec (Answer i)
  key : ι → String

/-- The slot of a key. -/
inductive Slot where
  | free
  | held
  /-- A call has broken down in it. -/
  | poisoned
  deriving DecidableEq

/-- Why a call does not get a slot. -/
def poisonedSlot (key : String) : Failure :=
  { cause := .stated ("cache slot for '" ++ key ++ "' is poisoned") }

variable {ι : Type}

/-- What can happen around the calls. -/
structure World (c : Calls ι) where
  /-- The clock may show this. -/
  shows : Instant → Prop
  /-- Fetching may give this. -/
  gives : (i : ι) → Except Failure (c.Answer i) → Prop
  /-- Writing a file may fail with this, whatever the files are. -/
  fails : Failure → Prop
  /-- A call may break down. -/
  breaks : Prop
  /-- The files may change like this. -/
  disturbs : Tree → Tree → Prop

/-- The world in which everything can happen. -/
def World.any (c : Calls ι) : World c where
  shows _ := True
  gives _ _ := True
  fails _ := True
  breaks := True
  disturbs _ _ := True

variable {c : Calls ι} {w : World c} {i : ι}

/-- What a call can do, with the slot of its key and the cache before and after. -/
inductive Move (w : World c) (i : ι) :
    Slot → Phase (c.Answer i) → State → Slot → Phase (c.Answer i) → State → Prop where
  /-- It takes the slot. -/
  | enter {s : State} : Move w i .free .waiting s .held .entered s
  /-- It does not get the slot. -/
  | refuse {s : State} :
      Move w i .poisoned .waiting s .poisoned (.returned (.error (poisonedSlot (c.key i)))) s
  | work {k : Slot} {φ : Phase (c.Answer i)} {s : State} {now : Instant}
      {outcome : Except Failure (c.Answer i)} : φ.isWorking → w.shows now → w.gives i outcome →
      Move w i k φ s k (φ.advance (c.codec i) (c.key i) now outcome s).1
        (φ.advance (c.codec i) (c.key i) now outcome s).2
  /-- The file it writes cannot be written. -/
  | fail {k : Slot} {φ : Phase (c.Answer i)} {s : State} {e : Failure} : φ.isWriting → w.fails e →
      Move w i k φ s k (.leaving (.error e)) s
  | breakDown {k : Slot} {φ : Phase (c.Answer i)} {s : State} : φ.isInside → w.breaks →
      Move w i k φ s .poisoned .broken s
  /-- It gives the slot back. -/
  | leave {k : Slot} {s : State} {result : Except Failure (c.Answer i)} :
      Move w i k (.leaving result) s .free (.returned result) s

/-- Every answer is read back from what is kept of it. -/
def Calls.IsFaithful (c : Calls ι) : Prop :=
  ∀ i x, (c.codec i).decode (Phase.payload (c.codec i) x) = some x

/-- What a move leaves behind, when the phase went with the slot and with what was remembered. -/
structure Move.Leaves (c : Calls ι) (i : ι) (k : Slot) (φ : Phase (c.Answer i)) (s : State)
    (k' : Slot) (φ' : Phase (c.Answer i)) (s' : State) : Prop where
  /-- Only the call that has the slot can do something while the slot is held. -/
  isInside : φ.isInside ∨ k ≠ .held
  held : φ'.isInside → k' = .held
  agrees : φ'.Agrees (c.codec i) (s'.store.memo.get? (c.key i))
  stays : s'.store.memo.get? (c.key i) = s.store.memo.get? (c.key i) ∨
    s.store.memo.get? (c.key i) = none
  others : ∀ key, key ≠ c.key i → s'.store.memo.get? key = s.store.memo.get? key

theorem Move.leaves (hc : c.IsFaithful) {k k' : Slot} {φ φ' : Phase (c.Answer i)} {s s' : State}
    (h : Move w i k φ s k' φ' s') (hheld : φ.isInside → k = .held)
    (hagrees : φ.Agrees (c.codec i) (s.store.memo.get? (c.key i))) :
    Move.Leaves c i k φ s k' φ' s' := by
  cases h with
  | enter =>
      exact ⟨.inr nofun, fun _ => rfl, Phase.agrees_of_idle rfl fun _ => ⟨nofun, nofun⟩,
        .inl rfl, fun _ _ => rfl⟩
  | refuse =>
      exact ⟨.inr nofun, nofun, Phase.agrees_of_idle rfl fun _ => ⟨nofun, nofun⟩,
        .inl rfl, fun _ _ => rfl⟩
  | @work _ _ _ now outcome hφ _ _ =>
      have hinside := Phase.isInside_of_isWorking hφ
      have hadvance := Phase.advances_advance (hc i) hφ hagrees now outcome
      have honly := (isLocal_advance (c.codec i) (c.key i) now outcome φ).only s
      exact ⟨.inl hinside, fun _ => hheld hinside, hadvance.agrees, hadvance.stays, honly.memo⟩
  | fail hφ _ =>
      have hinside := Phase.isInside_of_isWriting hφ
      exact ⟨.inl hinside, fun _ => hheld hinside, Phase.agrees_leaving_error _, .inl rfl,
        fun _ _ => rfl⟩
  | breakDown hφ _ =>
      exact ⟨.inl hφ, nofun, Phase.agrees_of_idle rfl fun _ => ⟨nofun, nofun⟩,
        .inl rfl, fun _ _ => rfl⟩
  | @leave _ _ result =>
      refine ⟨.inl rfl, nofun, ⟨nofun, fun x hx => ?_⟩, .inl rfl, fun _ _ => rfl⟩
      rcases hx with hx | hx
      · cases hx
      · exact hagrees.answer x (.inl (congrArg Phase.leaving (Phase.returned.inj hx)))

/-- A cache with the slots of its keys and the calls that use it. -/
structure Pool (c : Calls ι) where
  state : State
  slot : String → Slot
  phase : (i : ι) → Phase (c.Answer i)

namespace Pool

/-- No call has started. -/
structure IsStart (σ : Pool c) : Prop where
  waiting : ∀ i, σ.phase i = .waiting
  notHeld : ∀ key, σ.slot key ≠ .held

/-- A pool in order: a call that is inside has the slot of its key for itself, and every phase goes
with what is remembered. -/
structure InOrder (σ : Pool c) : Prop where
  held : ∀ i, (σ.phase i).isInside → σ.slot (c.key i) = .held
  alone : ∀ i j, (σ.phase i).isInside → (σ.phase j).isInside → c.key i = c.key j → i = j
  agrees : ∀ i, (σ.phase i).Agrees (c.codec i) (σ.state.store.memo.get? (c.key i))

theorem IsStart.inOrder {σ : Pool c} (h : σ.IsStart) : σ.InOrder := by
  have hidle : ∀ i, (σ.phase i).isInside = false := fun i => by rw [h.waiting i]; rfl
  refine ⟨fun i hi => ?_, fun i j hi _ _ => ?_, fun i => ?_⟩
  · rw [hidle] at hi; cases hi
  · rw [hidle] at hi; cases hi
  · rw [h.waiting i]
    exact Phase.agrees_of_idle rfl fun _ => ⟨nofun, nofun⟩

variable [DecidableEq ι]

/-- The pool after a call has done something. -/
def moved (σ : Pool c) (i : ι) (k : Slot) (φ : Phase (c.Answer i)) (s : State) : Pool c where
  state := s
  slot := Function.update σ.slot (c.key i) k
  phase := Function.update σ.phase i φ

theorem phase_moved_self (σ : Pool c) (i : ι) (k : Slot) (φ : Phase (c.Answer i)) (s : State) :
    (σ.moved i k φ s).phase i = φ := Function.update_self ..

theorem phase_moved_of_ne (σ : Pool c) {i j : ι} (h : j ≠ i) (k : Slot) (φ : Phase (c.Answer i))
    (s : State) : (σ.moved i k φ s).phase j = σ.phase j := Function.update_of_ne h ..

theorem slot_moved_self (σ : Pool c) (i : ι) (k : Slot) (φ : Phase (c.Answer i)) (s : State) :
    (σ.moved i k φ s).slot (c.key i) = k := Function.update_self ..

theorem slot_moved_of_ne (σ : Pool c) {i : ι} {key : String} (h : key ≠ c.key i) (k : Slot)
    (φ : Phase (c.Answer i)) (s : State) : (σ.moved i k φ s).slot key = σ.slot key :=
  Function.update_of_ne h ..

theorem moved_moved (σ : Pool c) (i : ι) (k k' : Slot) (φ φ' : Phase (c.Answer i)) (s s' : State) :
    (σ.moved i k φ s).moved i k' φ' s' = σ.moved i k' φ' s' := by
  simp only [moved, Function.update_idem]

/-- A step: a call does something, or the files change. -/
inductive Step (w : World c) : Pool c → Pool c → Prop where
  | move {σ : Pool c} {i : ι} {k : Slot} {φ : Phase (c.Answer i)} {s : State} :
      Move w i (σ.slot (c.key i)) (σ.phase i) σ.state k φ s → Step w σ (σ.moved i k φ s)
  | disturb {σ : Pool c} {files : Tree} : w.disturbs σ.state.files files →
      Step w σ { σ with state := { σ.state with files } }

/-- Any number of steps. -/
abbrev Run (w : World c) : Pool c → Pool c → Prop := Relation.ReflTransGen (Step w)

/-- What is remembered stays. -/
def Keeps (σ τ : Pool c) : Prop :=
  ∀ key payload, σ.state.store.memo.get? key = some payload →
    τ.state.store.memo.get? key = some payload

/-- **A step keeps the pool in order.** -/
theorem InOrder.step (hc : c.IsFaithful) {σ τ : Pool c} (h : σ.InOrder) (hs : Step w σ τ) :
    τ.InOrder ∧ σ.Keeps τ := by
  cases hs with
  | disturb => exact ⟨⟨h.held, h.alone, h.agrees⟩, fun _ _ hk => hk⟩
  | @move i k φ s hmove =>
      have hleaves := hmove.leaves hc (h.held i) (h.agrees i)
      -- no other call of the key has the slot
      have houtside : ∀ j, j ≠ i → c.key j = c.key i → (σ.phase j).isInside = false := by
        intro j hj hkey
        refine Bool.eq_false_iff.2 fun hin => ?_
        rcases hleaves.isInside with hi | hk
        · exact hj (h.alone j i hin hi hkey)
        · exact hk (hkey ▸ h.held j hin)
      have hkeeps : σ.Keeps (σ.moved i k φ s) := fun key payload hk => by
        by_cases hkey : key = c.key i
        · subst hkey
          rcases hleaves.stays with hsame | hnone
          · exact hsame.trans hk
          · rw [hnone] at hk; cases hk
        · exact (hleaves.others key hkey).trans hk
      refine ⟨⟨fun j hin => ?_, fun j j' hin hin' hkey => ?_, fun j => ?_⟩, hkeeps⟩
      · by_cases hj : j = i
        · subst hj
          rw [phase_moved_self] at hin
          rw [slot_moved_self, hleaves.held hin]
        · rw [phase_moved_of_ne σ hj] at hin
          by_cases hkey : c.key j = c.key i
          · rw [houtside j hj hkey] at hin; cases hin
          · rw [slot_moved_of_ne σ hkey, h.held j hin]
      · by_cases hj : j = i <;> by_cases hj' : j' = i
        · rw [hj, hj']
        · subst hj
          rw [phase_moved_of_ne σ hj', houtside j' hj' hkey.symm] at hin'
          cases hin'
        · subst hj'
          rw [phase_moved_of_ne σ hj, houtside j hj hkey] at hin
          cases hin
        · rw [phase_moved_of_ne σ hj] at hin
          rw [phase_moved_of_ne σ hj'] at hin'
          exact h.alone j j' hin hin' hkey
      · by_cases hj : j = i
        · subst hj
          rw [phase_moved_self]
          exact hleaves.agrees
        · rw [phase_moved_of_ne σ hj]
          by_cases hkey : c.key j = c.key i
          · refine ⟨fun hm => ?_, fun x hx => ?_⟩
            · have hin := Phase.isInside_of_isMissing hm
              rw [houtside j hj hkey] at hin
              cases hin
            · obtain ⟨payload, hmemo, hdecode⟩ := (h.agrees j).answer x hx
              exact ⟨payload, hkeeps _ _ hmemo, hdecode⟩
          · exact (hleaves.others _ hkey).symm ▸ h.agrees j

/-- **Runs keep the pool in order**, and what is remembered. -/
theorem InOrder.run (hc : c.IsFaithful) {σ τ : Pool c} (h : σ.InOrder) (hr : Run w σ τ) :
    τ.InOrder ∧ σ.Keeps τ := by
  induction hr with
  | refl => exact ⟨h, fun _ _ hk => hk⟩
  | tail _ hs ih =>
      obtain ⟨hτ, hkeeps⟩ := ih
      obtain ⟨hυ, hkeeps'⟩ := hτ.step hc hs
      exact ⟨hυ, fun key payload hk => hkeeps' key payload (hkeeps key payload hk)⟩

/-! ### A call that is left alone -/

/-- A call that has the slot works on. -/
theorem run_work {σ : Pool c} {now : Instant} {outcome : Except Failure (c.Answer i)}
    (hnow : w.shows now) (hgives : w.gives i outcome) (k : Slot) (n : Nat)
    (φ : Phase (c.Answer i)) (s : State) :
    Run w (σ.moved i k φ s)
      (σ.moved i k (Phase.run (c.codec i) (c.key i) now outcome n (φ, s)).1
        (Phase.run (c.codec i) (c.key i) now outcome n (φ, s)).2) := by
  induction n generalizing φ s with
  | zero => exact .refl
  | succ n ih =>
      by_cases hφ : φ.isWorking
      · have hmove : Move w i ((σ.moved i k φ s).slot (c.key i)) ((σ.moved i k φ s).phase i)
            (σ.moved i k φ s).state k (φ.advance (c.codec i) (c.key i) now outcome s).1
            (φ.advance (c.codec i) (c.key i) now outcome s).2 := by
          rw [slot_moved_self, phase_moved_self]
          exact .work hφ hnow hgives
        have hstep := Step.move hmove
        rw [moved_moved] at hstep
        exact .head hstep (ih _ _)
      · rw [Phase.run, Phase.advance_of_idle (Bool.eq_false_iff.2 hφ)]
        exact ih φ s

/-- **A call that is left alone is a look-up.** -/
theorem run_alone {σ : Pool c} (i : ι) (now : Instant) (outcome : Except Failure (c.Answer i))
    (hnow : w.shows now) (hgives : w.gives i outcome) (hwaiting : σ.phase i = .waiting)
    (hfree : σ.slot (c.key i) = .free) :
    Run w σ (σ.moved i .free
      (.returned (σ.state.store.lookup σ.state.files now (c.codec i) (c.key i) outcome).result)
      (σ.state.store.lookup σ.state.files now (c.codec i) (c.key i) outcome).state) := by
  have henter : Step w σ (σ.moved i .held .entered σ.state) := .move (by
    rw [hwaiting, hfree]
    exact .enter)
  have hwork := run_work hnow hgives (σ := σ) .held 7 .entered σ.state
  rw [run_entered] at hwork
  refine .head henter (hwork.tail ?_)
  rw [← moved_moved σ i .held .free (.leaving _)]
  refine .move ?_
  rw [slot_moved_self, phase_moved_self]
  exact .leave

theorem exists_run_alone {σ : Pool c} (i : ι) (now : Instant) (outcome : Except Failure (c.Answer i))
    (hnow : w.shows now) (hgives : w.gives i outcome) (hwaiting : σ.phase i = .waiting)
    (hfree : σ.slot (c.key i) = .free) :
    ∃ τ, Run w σ τ ∧ τ.phase i =
      .returned (σ.state.store.lookup σ.state.files now (c.codec i) (c.key i) outcome).result :=
  ⟨_, run_alone i now outcome hnow hgives hwaiting hfree, σ.phase_moved_self ..⟩

end Pool

/-- Once a call has returned an answer its key is not being fetched. -/
theorem Pool.InOrder.not_isFetching {σ τ : Pool c} (h : σ.InOrder) (hτ : τ.InOrder) (hk : σ.Keeps τ)
    {i j : ι} {x : c.Answer i} (hi : σ.phase i = .returned (.ok x)) (hkey : c.key j = c.key i) :
    (τ.phase j).isFetching = false := by
  refine Bool.eq_false_iff.2 fun hj => ?_
  obtain ⟨payload, hmemo, -⟩ := (h.agrees i).answer x (.inr hi)
  have hnone := (hτ.agrees j).nothing (Phase.isMissing_of_isFetching hj)
  rw [hkey, hk _ _ hmemo] at hnone
  cases hnone

/-! ### Calls of the three kinds -/

/-- The kinds of answers that are kept. -/
inductive Kind where
  | origins
  | prefixes
  | net
  deriving DecidableEq

/-- The type of the answers of a kind. -/
abbrev Kind.Answer : Kind → Type
  | .origins => List Asn
  | .prefixes => List SetPrefix
  | .net => Option NetRecord

/-- How answers of a kind are kept. -/
def Kind.codec : (k : Kind) → Codec k.Answer
  | .origins => .list .uint32
  | .prefixes => .list .setPrefix
  | .net => .option .netRecord

theorem Kind.codec_faithful (k : Kind) : ∃ n, k.codec.Faithful n := by
  cases k with
  | origins => exact ⟨_, Codec.list_faithful Codec.uint32_faithful⟩
  | prefixes => exact ⟨_, Codec.list_faithful Codec.setPrefix_faithful⟩
  | net =>
      exact ⟨_, Codec.option_faithful Codec.netRecord_faithful fun _ => Json.noConfusion⟩

/-- A request for an answer of a kind, under any key. -/
structure Request where
  kind : Kind
  key : String

/-- Calls for some requests. -/
def Calls.ofRequests (request : ι → Request) : Calls ι where
  Answer i := (request i).kind.Answer
  codec i := (request i).kind.codec
  key i := (request i).key

theorem isFaithful_ofRequests (request : ι → Request) : (Calls.ofRequests request).IsFaithful := by
  intro i x
  obtain ⟨n, hf⟩ := (request i).kind.codec_faithful
  exact hf.decode_canonical x

/-- Answers of one kind that are read from one payload are equal. -/
theorem Kind.heq_of_decode {k k' : Kind} (hk : k = k') {payload : Json} {x : k.Answer}
    {y : k'.Answer} (hx : k.codec.decode payload = some x) (hy : k'.codec.decode payload = some y) :
    HEq x y := by
  subst hk
  exact heq_of_eq (Option.some.inj (hx.symm.trans hy))

/-- **A key is resolved once.**  However many workers call whatever happens around them: no two calls
fetch one key at a time; once a call has returned an answer no call fetches its key any more; and the
answers of one kind that calls for one key have returned are equal. -/
theorem single_resolution [DecidableEq ι] (request : ι → Request)
    (w : World (.ofRequests request)) {σ τ : Pool (.ofRequests request)} (hstart : σ.IsStart)
    (hrun : Pool.Run w σ τ) :
    (∀ i j, (request i).key = (request j).key → (τ.phase i).isFetching → (τ.phase j).isFetching →
      i = j) ∧
    (∀ i x, τ.phase i = .returned (.ok x) → ∀ υ, Pool.Run w τ υ →
      ∀ j, (request j).key = (request i).key → (υ.phase j).isFetching = false) ∧
    ∀ i j x y, τ.phase i = .returned (.ok x) → τ.phase j = .returned (.ok y) →
      (request i).key = (request j).key → (request i).kind = (request j).kind → HEq x y := by
  have hc := isFaithful_ofRequests request
  have hτ := (hstart.inOrder.run hc hrun).1
  refine ⟨fun i j hkey hi hj => ?_, fun i x hi υ hυ j hkey => ?_, fun i j x y hi hj hkey hkind => ?_⟩
  · exact hτ.alone i j (Phase.isInside_of_isFetching hi) (Phase.isInside_of_isFetching hj) hkey
  · obtain ⟨hυ, hkeeps⟩ := hτ.run hc hυ
    exact hτ.not_isFetching hυ hkeeps hi hkey
  · obtain ⟨payload, hmemo, hx⟩ := (hτ.agrees i).answer x (.inr hi)
    obtain ⟨payload', hmemo', hy⟩ := (hτ.agrees j).answer y (.inr hj)
    have hsame : (Calls.ofRequests request).key i = (Calls.ofRequests request).key j := hkey
    rw [hsame, hmemo'] at hmemo
    cases hmemo
    exact Kind.heq_of_decode hkind hx hy

/-- Two calls for one set. -/
def sampleRequests : Fin 2 → Request := fun _ => ⟨.origins, "irr:origins:AS-SAMPLE"⟩

/-- An empty cache, and no call has started. -/
def samplePool : Pool (.ofRequests sampleRequests) where
  state := ⟨{ dir := "c", expiry := .ofSeconds 60, stalePolicy := .fail },
    ⟨.ofList [("c", .directory)]⟩⟩
  slot _ := .free
  phase _ := .waiting

/-- The first call has fetched an answer, and the second fetches none. -/
theorem single_resolution_sample :
    ∃ τ : Pool (.ofRequests sampleRequests), Pool.Run (.any _) samplePool τ ∧
      τ.phase 0 = .returned (.ok ([64500] : List Asn)) ∧
      ∀ υ, Pool.Run (.any _) τ υ → (υ.phase 1).isFetching = false := by
  have hstart : samplePool.IsStart := ⟨fun _ => rfl, fun _ => nofun⟩
  have hresult : (samplePool.state.store.lookup samplePool.state.files ⟨0, 0⟩ Kind.origins.codec
      "irr:origins:AS-SAMPLE" (.ok ([64500] : List Asn))).result = .ok [64500] := by
    decide +kernel
  obtain ⟨τ, hrun, hphase⟩ := samplePool.exists_run_alone (w := .any _) 0 ⟨0, 0⟩
    (.ok ([64500] : List Asn)) trivial trivial rfl rfl
  have hreturned := hphase.trans (congrArg Phase.returned hresult)
  refine ⟨τ, hrun, hreturned, fun υ hυ => ?_⟩
  exact (single_resolution sampleRequests _ hstart hrun).2.1 0 _ hreturned υ hυ 1 rfl

end RouteServer.Cache

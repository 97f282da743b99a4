import Mathlib.Data.List.Induction
import RouteServer.Proofs.Cache.Recall

/-!
# Cache — how a look-up ends

A look-up ends in one of five ways (`Ends`): with what is remembered, with a fresh record, with what
was fetched, with a record that has expired, or with a failure.  What follows is read off these.

**Records that cannot be used** (`isOk_lookup_iff`).  When the answer can be fetched and kept, a
look-up gives one, whatever stands in the file of its key — but for a fresh record that does not hold
an answer of the type that is asked for, which ends it.

**Caches that share a directory** (`Site`).  In any run of look-ups and newly opened caches, a record
is what it was at the start or what an answer was kept in after it had been fetched
(`file_run`).  So an expired record is given only in place of an answer that could not be fetched,
and giving it leaves it as old as it is (`stale_in_need`).
-/

namespace RouteServer.Cache

open RouteServer.Files RouteServer.Lookup RouteServer.Time

section Ends

variable {α : Type} {codec : Codec α} {key : String} {now : Instant} {fetch : Except Failure α}
  {s : State}

/-- A record that can be read and is fresh is kept under a key. -/
def State.HasFresh (s : State) (now : Instant) (key : String) (r : Record) : Prop :=
  s.stored? key = some r ∧ r.isFresh now s.store.expiry = true

/-- How a look-up ends. -/
inductive Ends (s : State) (now : Instant) (codec : Codec α) (key : String)
    (fetch : Except Failure α) : Store.Outcome α → Prop where
  | remembered (payload : Json) : s.store.memo.get? key = some payload →
      Ends s now codec key fetch ⟨Store.answer codec payload, false, s⟩
  | fresh (r : Record) : s.store.memo.get? key = none → s.HasFresh now key r →
      Ends s now codec key fetch
        ⟨(s.serve codec key r.payload).1, false, (s.serve codec key r.payload).2⟩
  | fetched (x : α) : s.store.memo.get? key = none → (∀ r, ¬ s.HasFresh now key r) →
      fetch = .ok x → Ends s now codec key fetch
        ⟨(s.store.keep s.files now key (Phase.payload codec x)).1.map fun _ => x, true,
          (s.store.keep s.files now key (Phase.payload codec x)).2⟩
  | stale (r : Record) (e : Failure) : s.store.memo.get? key = none → s.stored? key = some r →
      r.isFresh now s.store.expiry = false → fetch = .error e → s.store.stalePolicy = .useStale →
      Ends s now codec key fetch
        ⟨(s.serve codec key r.payload).1, true, (s.serve codec key r.payload).2⟩
  | failed (e : Failure) : s.store.memo.get? key = none → (∀ r, ¬ s.HasFresh now key r) →
      fetch = .error e → (s.store.stalePolicy = .useStale → s.stored? key = none) →
      Ends s now codec key fetch ⟨.error e, true, s⟩

/-- A look-up that found nothing fresh ends with what fetching gave. -/
theorem ends_settle (hmemo : s.store.memo.get? key = none) (hnone : ∀ r, ¬ s.HasFresh now key r) :
    Ends s now codec key fetch
      ⟨(s.store.settle s.files now codec key (s.stored? key) fetch).1, true,
        (s.store.settle s.files now codec key (s.stored? key) fetch).2⟩ := by
  cases fetch with
  | ok x =>
      simp only [settle_ok]
      exact .fetched x hmemo hnone rfl
  | error e =>
      cases hpolicy : s.store.stalePolicy with
      | fail =>
          simp only [Store.settle, hpolicy]
          exact .failed e hmemo hnone rfl fun h => by rw [hpolicy] at h; cases h
      | useStale =>
          cases hstored : s.stored? key with
          | none =>
              simp only [Store.settle, hpolicy]
              exact .failed e hmemo hnone rfl fun _ => hstored
          | some r =>
              have hstale : r.isFresh now s.store.expiry = false :=
                Bool.eq_false_iff.2 fun h => hnone r ⟨hstored, h⟩
              simp only [Store.settle, hpolicy]
              exact .stale r e hmemo hstored hstale rfl hpolicy

/-- **How a look-up ends.** -/
theorem ends_lookup (codec : Codec α) (key : String) (now : Instant) (fetch : Except Failure α)
    (s : State) : Ends s now codec key fetch (s.store.lookup s.files now codec key fetch) := by
  cases hmemo : s.store.memo.get? key with
  | some payload =>
      rw [Store.lookup_of_settled (Store.consult_remembered now hmemo)]
      exact .remembered payload hmemo
  | none =>
      by_cases hfresh : ∃ r, s.HasFresh now key r
      · obtain ⟨r, hstored, hr⟩ := hfresh
        have hconsult := Store.consult_recorded codec now hmemo hstored
        rw [if_pos hr] at hconsult
        rw [Store.lookup_of_settled hconsult]
        exact .fresh r hmemo ⟨hstored, hr⟩
      · have hconsult : s.store.consult s.files now codec key = .missed (s.stored? key) := by
          cases hstored : s.stored? key with
          | none => exact Store.consult_absent now hmemo hstored
          | some r =>
              rw [Store.consult_recorded codec now hmemo hstored,
                if_neg fun h => hfresh ⟨r, hstored, h⟩]
        rw [Store.lookup_of_missed hconsult]
        exact ends_settle hmemo fun r hr => hfresh ⟨r, hr⟩

theorem State.HasFresh.unique {r r' : Record} (h : s.HasFresh now key r)
    (h' : s.HasFresh now key r') : r = r' := Option.some.inj (h.1.symm.trans h'.1)

/-- Nothing is fetched just when something is remembered or there is a fresh record. -/
theorem fetched_lookup_iff (hmemo : s.store.memo.get? key = none) :
    (s.store.lookup s.files now codec key fetch).fetched = true ↔
      ∀ r, ¬ s.HasFresh now key r := by
  have hends := ends_lookup codec key now fetch s
  generalize s.store.lookup s.files now codec key fetch = o at hends ⊢
  cases hends with
  | remembered payload h => rw [hmemo] at h; cases h
  | fresh r _ hr => exact ⟨nofun, fun h => absurd hr (h r)⟩
  | fetched x _ hnone _ => exact ⟨fun _ => hnone, fun _ => rfl⟩
  | stale r e _ hstored hstale _ _ =>
      refine ⟨fun _ r' hr' => ?_, fun _ => rfl⟩
      cases hstored.symm.trans hr'.1
      rw [hr'.2] at hstale
      cases hstale
  | failed e _ hnone _ _ => exact ⟨fun _ => hnone, fun _ => rfl⟩

/-- A payload gives an answer just when it holds one of the type that is asked for. -/
theorem serve_eq (codec : Codec α) (key : String) (payload : Json) (s : State) :
    s.serve codec key payload =
      match codec.decode payload with
      | some x => (.ok x, s.remember key payload)
      | none => (.error ⟨[], .notJson⟩, s) := by
  unfold State.serve Store.serve Store.answer
  cases codec.decode payload <;> rfl

/-! ### Records that cannot be used -/

/-- The answer to a key can be written: its files are files, or are missing. -/
structure State.Accepts (s : State) (key : String) : Prop where
  isDirectory : s.files.isDirectory s.store.dir
  fits : Fits s.store.writer key
  record : s.files.node? (s.store.recordPath key) ≠ some .directory
  temporary : s.files.node? (s.store.temporaryPath key) ≠ some .directory

/-- An answer is kept where it can be. -/
theorem State.Accepts.exists_keep (h : s.Accepts key) (now : Instant) (payload : Json) :
    ∃ u, s.store.keep s.files now key payload = (.ok (), ⟨s.store.remember key payload, u⟩) ∧
      u.node? (s.store.recordPath key) =
        some (.file (.text (s.store.record now key payload).text)) := by
  obtain ⟨-, lead, ho⟩ := Tree.isDirectory_iff.1 h.isDirectory
  have hrec := isName_recordName key
  have htmp := isName_temporaryName key s.store.writer
  have hsize : ¬ Tree.maxNameBytes < (recordName key).utf8ByteSize :=
    Nat.not_lt.2 h.fits.recordName
  have hdrec := h.record
  rw [Store.recordPath, ho.node?_join hrec, if_neg hsize] at hdrec
  have hdtmp := h.temporary
  rw [Store.temporaryPath, ho.node?_join htmp, if_neg (Nat.not_lt.2 h.fits)] at hdtmp
  obtain ⟨u, hkeep, hdirs, hget⟩ := Store.exists_keep ho h.fits hdtmp hdrec now payload
  refine ⟨u, hkeep, ?_⟩
  rw [Store.recordPath, (ho.mono hdirs).node?_join hrec, if_neg hsize, hget, if_pos rfl]

/-- **Only a fresh record with a wrong payload stands in the way of an answer.**  When nothing is
remembered and the answer can be fetched and kept, the look-up gives one just when every fresh record
of the key holds one; such a record that does not ends the look-up.  Without a fresh record, whatever
stands in the file, the answer is fetched and its record takes the place of the file. -/
theorem isOk_lookup_iff (hmemo : s.store.memo.get? key = none) (h : s.Accepts key) (now : Instant)
    (codec : Codec α) (x : α) :
    ((∃ y, (s.store.lookup s.files now codec key (.ok x)).result = .ok y) ↔
      ∀ r, s.HasFresh now key r → (codec.decode r.payload).isSome) ∧
    (∀ r, s.HasFresh now key r → codec.decode r.payload = none →
      s.store.lookup s.files now codec key (.ok x) = ⟨.error ⟨[], .notJson⟩, false, s⟩) ∧
    ((∀ r, ¬ s.HasFresh now key r) → ∃ u,
      s.store.lookup s.files now codec key (.ok x) =
        ⟨.ok x, true, ⟨s.store.remember key (Phase.payload codec x), u⟩⟩ ∧
      u.read (s.store.recordPath key) =
        .ok (s.store.record now key (Phase.payload codec x)).text) := by
  have hends := ends_lookup codec key now (.ok x) s
  generalize s.store.lookup s.files now codec key (.ok x) = o at hends ⊢
  cases hends with
  | remembered payload hp => rw [hmemo] at hp; cases hp
  | stale r e _ _ _ he _ => cases he
  | failed e _ _ he _ => cases he
  | fresh r _ hr =>
      rw [serve_eq]
      refine ⟨⟨fun ⟨y, hy⟩ r' hr' => ?_, fun hall => ?_⟩, fun r' hr' hnone => ?_,
        fun hnone => absurd hr (hnone r)⟩
      · cases hr.unique hr'
        cases hd : codec.decode r.payload with
        | none => rw [hd] at hy; cases hy
        | some z => rfl
      · obtain ⟨z, hz⟩ := Option.isSome_iff_exists.1 (hall r hr)
        exact ⟨z, by rw [hz]⟩
      · cases hr.unique hr'
        rw [hnone]
  | fetched y _ hnone hy =>
      cases hy
      obtain ⟨u, hkeep, hnode⟩ := h.exists_keep now (Phase.payload codec x)
      rw [hkeep]
      exact ⟨⟨fun _ r hr => absurd hr (hnone r), fun _ => ⟨x, rfl⟩⟩,
        fun r hr => absurd hr (hnone r), fun _ => ⟨u, rfl, Tree.read_eq_ok_iff.2 hnode⟩⟩

end Ends

/-- A cache that keeps its records for long, with a text in the file of one key. -/
def sampleState (text : String) : State :=
  ⟨{ dir := "c", expiry := .ofSeconds 1000000000000, stalePolicy := .fail },
    ⟨.ofList [("c", .directory), ("c/k.json", .file (.text text))]⟩⟩

/-- A damaged file is replaced. -/
theorem isOk_lookup_iff_damaged :
    ∃ u, (sampleState "damaged").store.lookup (sampleState "damaged").files ⟨1600000000, 0⟩
        Codec.uint32 "k" (.ok 7) =
        ⟨.ok 7, true, ⟨(sampleState "damaged").store.remember "k" (.nat 7), u⟩⟩ ∧
      u.read "c/k.json" =
        .ok ((sampleState "damaged").store.record ⟨1600000000, 0⟩ "k" (.nat 7)).text := by
  have haccepts : (sampleState "damaged").Accepts "k" :=
    ⟨by decide +kernel, by decide +kernel, by decide +kernel, by decide +kernel⟩
  have hnone : ∀ r, ¬ (sampleState "damaged").HasFresh ⟨1600000000, 0⟩ "k" r := by
    intro r hr
    have hstored : ((sampleState "damaged").stored? "k").isNone = true := by decide +kernel
    rw [hr.1] at hstored
    cases hstored
  exact (isOk_lookup_iff rfl haccepts ⟨1600000000, 0⟩ Codec.uint32 7).2.2 hnone

/-- A fresh record with a text where a number is asked for. -/
def wrongPayload : State :=
  sampleState ("\x7b\"key\":\"k\",\"cached_at\":\"2000-01-01T00:00:00Z\",\"expiry_secs\":60," ++
    "\"payload\":\"x\"\x7d")

/-- Such a record makes the look-up fail, though the number can be fetched and kept. -/
theorem not_isOk_wrongPayload :
    wrongPayload.store.memo.get? "k" = none ∧ wrongPayload.Accepts "k" ∧
      ¬ ∃ n, (wrongPayload.store.lookup wrongPayload.files ⟨1600000000, 0⟩ Codec.uint32 "k"
        (.ok 7)).result = .ok n := by
  have hresult : (wrongPayload.store.lookup wrongPayload.files ⟨1600000000, 0⟩ Codec.uint32 "k"
      (.ok 7)).result = .error ⟨[], .notJson⟩ := by decide +kernel
  refine ⟨rfl, ⟨by decide +kernel, by decide +kernel, by decide +kernel, by decide +kernel⟩,
    fun ⟨n, hn⟩ => ?_⟩
  rw [hresult] at hn
  cases hn

/-! ### Caches that share a directory -/

/-- A record that has expired stays so while time goes on. -/
theorem RecordInfo.isFresh_of_later {r : RecordInfo} {now later : Instant} {expiry : Span}
    (h : now.nanoseconds ≤ later.nanoseconds) (hstale : r.isFresh now expiry = false) :
    r.isFresh later expiry = false := by
  simp only [isFresh, decide_eq_false_iff_not, Int.not_lt] at hstale ⊢
  exact hstale.trans (Instant.secondsTo_mono h)

/-- A look-up that is to be made. -/
structure Call where
  Answer : Type
  codec : Codec Answer
  key : String
  now : Instant
  /-- What fetching the answer gives. -/
  fetch : Except Failure Answer

/-- The look-up of a call. -/
def Call.lookup (c : Call) (s : State) : Store.Outcome c.Answer :=
  s.store.lookup s.files c.now c.codec c.key c.fetch

theorem Call.ends_lookup (c : Call) (s : State) :
    Ends s c.now c.codec c.key c.fetch (c.lookup s) :=
  Cache.ends_lookup c.codec c.key c.now c.fetch s

/-- Caches with the files they stand in. -/
structure Site (ι : Type) where
  dir : String
  caches : ι → Store
  files : Tree

/-- What can happen to caches. -/
inductive Event (ι : Type) where
  /-- A cache is opened, in place of the one before it. -/
  | opens (i : ι) (expiry : Span) (stalePolicy : StalePolicy) (writer : Nat)
  | calls (i : ι) (c : Call)

namespace Site

variable {ι : Type} [DecidableEq ι]

/-- The state of one of the caches. -/
def state (σ : Site ι) (i : ι) : State := ⟨σ.caches i, σ.files⟩

/-- The caches with a new state of one. -/
def withState (σ : Site ι) (i : ι) (s : State) : Site ι :=
  { σ with caches := Function.update σ.caches i s.store, files := s.files }

/-- A cache in which nothing is remembered. -/
def newStore (σ : Site ι) (expiry : Span) (stalePolicy : StalePolicy) (writer : Nat) : Store :=
  { dir := σ.dir, expiry, stalePolicy, writer }

/-- What an event does. -/
def step (σ : Site ι) : Event ι → Site ι
  | .opens i expiry stalePolicy writer =>
    let store := σ.newStore expiry stalePolicy writer
    match store.makeDirectory σ.files with
    | .ok files => σ.withState i ⟨store, files⟩
    | .error _ => σ
  | .calls i c => σ.withState i (c.lookup (σ.state i)).state

/-- What events do, one after the other. -/
def run (σ : Site ι) (events : List (Event ι)) : Site ι := events.foldl step σ

/-- What stands in the place of the record of a key. -/
def file (σ : Site ι) (key : String) : Option Entry :=
  σ.files.node? (Path.join σ.dir (recordName key))

/-- The record that an entry is. -/
def recordOf? : Option Entry → Option Record
  | some (.file (.text text)) => Record.read text
  | _ => none

/-- The record of a key. -/
def record? (σ : Site ι) (key : String) : Option Record := recordOf? (σ.file key)

/-- The caches share a directory. -/
structure IsShared (σ : Site ι) : Prop where
  isDirectory : σ.files.isDirectory σ.dir
  dir_eq : ∀ i, (σ.caches i).dir = σ.dir

/-- A call of a key fetches its answer. -/
structure Supplied (σ : Site ι) (key : String) (i : ι) (c : Call) (x : c.Answer) : Prop where
  key_eq : c.key = key
  fetch : c.fetch = .ok x
  fetched : (c.lookup (σ.state i)).fetched = true

/-- A call finds its answer in a fresh record. -/
structure IsHit (σ : Site ι) (i : ι) (c : Call) (x : c.Answer) : Prop where
  fetched : (c.lookup (σ.state i)).fetched = false
  record : ∃ r, σ.record? c.key = some r ∧ r.isFresh c.now (σ.caches i).expiry = true ∧
    c.codec.decode r.payload = some x

/-- A call falls back on a record that has expired: its cache may, and its answer could not be
fetched. -/
structure IsLastResort (σ : Site ι) (i : ι) (c : Call) (x : c.Answer) : Prop where
  stalePolicy : (σ.caches i).stalePolicy = .useStale
  fetched : (c.lookup (σ.state i)).fetched = true
  failed : ∃ e, c.fetch = .error e
  record : ∃ r, σ.record? c.key = some r ∧ r.isFresh c.now (σ.caches i).expiry = false ∧
    c.codec.decode r.payload = some x

variable {σ : Site ι}

omit [DecidableEq ι] in
/-- Every cache of the directory finds the same records. -/
theorem stored?_eq_record? {store : Store} (hdir : store.dir = σ.dir) (key : String) :
    store.stored? σ.files key = σ.record? key := by
  have hfile : σ.files.node? (Path.join σ.dir (recordName key)) = σ.file key := rfl
  refine Option.ext fun r => ?_
  rw [Store.stored?_eq_some_iff, hdir, record?, hfile]
  rcases σ.file key with _ | ⟨⟨text⟩ | ⟨bytes⟩⟩ | _ <;> simp [recordOf?]

theorem run_append (σ : Site ι) (events events' : List (Event ι)) :
    σ.run (events ++ events') = (σ.run events).run events' := List.foldl_append

theorem caches_withState_self (σ : Site ι) (i : ι) (s : State) :
    (σ.withState i s).caches i = s.store := Function.update_self ..

theorem state_withState (σ : Site ι) (i : ι) (s : State) : (σ.withState i s).state i = s := by
  rw [state, caches_withState_self, withState]

theorem caches_withState_of_ne (σ : Site ι) {i j : ι} (h : j ≠ i) (s : State) :
    (σ.withState i s).caches j = σ.caches j := Function.update_of_ne h ..

omit [DecidableEq ι] in
theorem IsShared.state_dir (h : σ.IsShared) (i : ι) : (σ.state i).store.dir = σ.dir := h.dir_eq i

/-- A cache that has another state in the directory leaves it shared. -/
theorem IsShared.withState (h : σ.IsShared) {i : ι} {s : State} (hdir : s.store.dir = σ.dir)
    (hfiles : s.files.isDirectory σ.dir) : (σ.withState i s).IsShared where
  isDirectory := hfiles
  dir_eq j := by
    by_cases hj : j = i
    · rw [hj, caches_withState_self, hdir, Site.withState]
    · rw [caches_withState_of_ne σ hj, h.dir_eq j, Site.withState]

/-- A directory that is there is left as it is when a cache is opened in it. -/
theorem IsShared.step_opens (h : σ.IsShared) (i : ι) (expiry : Span) (stalePolicy : StalePolicy)
    (writer : Nat) : σ.step (.opens i expiry stalePolicy writer) =
      σ.withState i ⟨σ.newStore expiry stalePolicy writer, σ.files⟩ := by
  have hmade : (σ.newStore expiry stalePolicy writer).makeDirectory σ.files = .ok σ.files := by
    rw [Store.makeDirectory, newStore, Tree.makeDirectories_of_isDirectory h.isDirectory]
    rfl
  rw [step]
  simp only [hmade]

theorem onlyAt_call (c : Call) (s : State) : OnlyAt (· = c.key) s (c.lookup s).state :=
  onlyAt_lookup c.codec c.key c.now c.fetch s

/-- **What an event preserves.** -/
theorem IsShared.step (h : σ.IsShared) (e : Event ι) : (σ.step e).IsShared := by
  cases e with
  | opens i expiry stalePolicy writer =>
      rw [h.step_opens]
      exact h.withState rfl h.isDirectory
  | calls i c =>
      have honly := onlyAt_call c (σ.state i)
      have hfiles := honly.files
      obtain ⟨hne, lead, ho⟩ := Tree.isDirectory_iff.1 h.isDirectory
      rw [h.state_dir] at hfiles
      exact h.withState (honly.store.dir_eq.symm.trans (h.dir_eq i))
        (Tree.isDirectory_iff.2 ⟨hne, lead, hfiles.opens ho⟩)

theorem IsShared.run (h : σ.IsShared) (events : List (Event ι)) : (σ.run events).IsShared := by
  induction events generalizing σ with
  | nil => exact h
  | cons e events ih => exact ih (h.step e)

/-- The text of the record in which a call keeps its answer. -/
def keptText (σ : Site ι) (i : ι) (c : Call) (x : c.Answer) : String :=
  ((σ.caches i).record c.now c.key (Phase.payload c.codec x)).text

/-- A look-up leaves the file of its record alone, unless it fetched the answer and keeps it. -/
theorem file_call (h : σ.IsShared) (i : ι) (c : Call) :
    (σ.step (.calls i c)).file c.key = σ.file c.key ∨
      ∃ x, σ.Supplied c.key i c x ∧
        (σ.step (.calls i c)).file c.key = some (.file (.text (σ.keptText i c x))) := by
  have hends := c.ends_lookup (σ.state i)
  have hfile : (σ.step (.calls i c)).file c.key =
      (c.lookup (σ.state i)).state.files.node? (Path.join σ.dir (recordName c.key)) := rfl
  have hsupplied : ∀ {x}, c.fetch = .ok x → (c.lookup (σ.state i)).fetched = true →
      σ.Supplied c.key i c x := fun hx hf => ⟨rfl, hx, hf⟩
  rw [hfile]
  generalize c.lookup (σ.state i) = o at hends hsupplied ⊢
  cases hends with
  | remembered => exact .inl rfl
  | fresh => exact .inl rfl
  | stale => exact .inl rfl
  | failed => exact .inl rfl
  | fetched x _ _ hx =>
      rcases keep_cases (σ.state i) c.now c.key (Phase.payload c.codec x) with
        ⟨u, hkeep, hnode⟩ | ⟨e, u, hkeep, hnode⟩
      all_goals rw [h.state_dir] at hnode
      · rw [hkeep]
        exact .inr ⟨x, hsupplied hx rfl, hnode⟩
      · rw [hkeep]
        exact .inl hnode

/-- **What an event does to a record**: nothing, unless a call of its key fetched an answer. -/
theorem file_step (h : σ.IsShared) (e : Event ι) (key : String) :
    (σ.step e).file key = σ.file key ∨
      ∃ i c x, e = .calls i c ∧ σ.Supplied key i c x ∧
        (σ.step e).file key = some (.file (.text (σ.keptText i c x))) := by
  cases e with
  | opens i expiry stalePolicy writer => exact .inl (by rw [h.step_opens]; rfl)
  | calls i c =>
      by_cases hkey : key = c.key
      · subst hkey
        rcases file_call h i c with hsame | ⟨x, hx, hfile⟩
        · exact .inl hsame
        · exact .inr ⟨i, c, x, rfl, hx, hfile⟩
      · have halike := (onlyAt_call c (σ.state i)).alikeAt hkey
        have hnode := halike.nodes (recordName key) (.inl rfl)
        rw [h.state_dir] at hnode
        exact .inl hnode

/-- **What a run does to a record**: it is what it was, or what a call of its key kept in it that had
fetched its answer. -/
theorem file_run (h : σ.IsShared) (events : List (Event ι)) (key : String) :
    (σ.run events).file key = σ.file key ∨
      ∃ before i c after x, events = before ++ .calls i c :: after ∧
        (σ.run before).Supplied key i c x ∧
        (σ.run events).file key = some (.file (.text ((σ.run before).keptText i c x))) := by
  induction events using List.reverseRecOn with
  | nil => exact .inl rfl
  | append_singleton events e ih =>
      have hrun : σ.run (events ++ [e]) = (σ.run events).step e := run_append σ events [e]
      rw [hrun]
      rcases file_step (h.run events) e key with hsame | ⟨i, c, x, rfl, hx, hfile⟩
      · rw [hsame]
        rcases ih with hsame' | ⟨before, i, c, after, x, rfl, hx, hfile⟩
        · exact .inl hsame'
        · exact .inr ⟨before, i, c, after ++ [e], x, by simp, hx, hfile⟩
      · exact .inr ⟨events, i, c, [], x, rfl, hx, hfile⟩

omit [DecidableEq ι] in
/-- **Where the answer of a call comes from** when nothing is remembered. -/
theorem origin_of_call (h : σ.IsShared) {i : ι} {c : Call}
    (hmemo : (σ.caches i).memo.get? c.key = none) {x : c.Answer}
    (hx : (c.lookup (σ.state i)).result = .ok x) :
    σ.IsHit i c x ∨ σ.Supplied c.key i c x ∨ σ.IsLastResort i c x := by
  have hends := c.ends_lookup (σ.state i)
  have hserve : ∀ {r : Record}, ((σ.state i).serve c.codec c.key r.payload).1 = .ok x →
      c.codec.decode r.payload = some x := fun {r} hr => by
    rw [serve_eq] at hr
    split at hr
    case h_1 y hy => cases hr; exact hy
    case h_2 => cases hr
  have hhit : ∀ hf hr, σ.IsHit i c x := fun hf hr => ⟨hf, hr⟩
  have hsupplied : ∀ hf hr, σ.Supplied c.key i c x := fun hf hr => ⟨rfl, hf, hr⟩
  have hlast : ∀ hp hf he hr, σ.IsLastResort i c x := fun hp hf he hr => ⟨hp, hf, he, hr⟩
  generalize c.lookup (σ.state i) = o at hends hx hhit hsupplied hlast
  cases hends with
  | remembered payload hp => exact absurd (hmemo.symm.trans hp) nofun
  | fresh r _ hr =>
      exact .inl (hhit rfl ⟨r, stored?_eq_record? (h.dir_eq i) c.key ▸ hr.1, hr.2, hserve hx⟩)
  | stale r e _ hstored hstale he hpolicy =>
      exact .inr (.inr (hlast hpolicy rfl ⟨e, he⟩
        ⟨r, stored?_eq_record? (h.dir_eq i) c.key ▸ hstored, hstale, hserve hx⟩))
  | failed e => cases hx
  | fetched y _ _ hy =>
      refine .inr (.inl (hsupplied ?_ rfl))
      rw [hy]
      cases hk : ((σ.state i).store.keep (σ.state i).files c.now c.key
          (Phase.payload c.codec y)).1 with
      | error e => rw [hk] at hx; cases hx
      | ok _ => rw [hk] at hx; exact hx

/-- When its answer cannot be fetched, a call leaves all files alone. -/
theorem files_of_failed {i : ι} {c : Call} {e : Failure} (he : c.fetch = .error e) :
    (σ.step (.calls i c)).files = σ.files := by
  have hends := c.ends_lookup (σ.state i)
  have hfiles : (σ.step (.calls i c)).files = (c.lookup (σ.state i)).state.files := rfl
  rw [hfiles]
  generalize c.lookup (σ.state i) = o at hends ⊢
  cases hends with
  | fetched x _ _ hx => rw [he] at hx; cases hx
  | _ => rfl

/-- A cache that has just been opened fetches an answer unless there is a record that is fresh for
it. -/
theorem fetched_opened_iff (h : σ.IsShared) (i : ι) (expiry : Span) (stalePolicy : StalePolicy)
    (writer : Nat) (c : Call) :
    (c.lookup ((σ.step (.opens i expiry stalePolicy writer)).state i)).fetched = true ↔
      ∀ r, σ.record? c.key = some r → r.isFresh c.now expiry = false := by
  have hmemo : (σ.newStore expiry stalePolicy writer).memo.get? c.key = none :=
    Dictionary.get?_empty c.key
  have hstored : (σ.newStore expiry stalePolicy writer).stored? σ.files c.key =
      σ.record? c.key := stored?_eq_record? rfl c.key
  rw [h.step_opens, state_withState, Call.lookup, fetched_lookup_iff hmemo]
  simp only [State.HasFresh, State.stored?, hstored, not_and, Bool.not_eq_true]
  rfl

/-- **An expired record is given in need only, and stays as old as it is.**  After any run, a call of
a key that its cache does not remember has its answer from a fresh record, from fetching it, or, as a
last resort, from a record that has expired: then the cache has the policy for it and fetching
failed.  When fetching failed no file has changed.  As long as nobody fetches an answer of the key
after that, the record stays what it was, and a cache that is newly opened fetches the answer again
unless the record is fresh by its own expiry and clock; with the same expiry and no earlier clock it
is not. -/
theorem stale_in_need (h : σ.IsShared) (events : List (Event ι)) (i : ι) (c : Call)
    (hmemo : ((σ.run events).caches i).memo.get? c.key = none) :
    (∀ x, (c.lookup ((σ.run events).state i)).result = .ok x →
      (σ.run events).IsHit i c x ∨ (σ.run events).Supplied c.key i c x ∨
        (σ.run events).IsLastResort i c x) ∧
    ∀ e, c.fetch = .error e →
      (σ.run (events ++ [.calls i c])).files = (σ.run events).files ∧
      ∀ later : List (Event ι),
        (∀ before j d after y, later = before ++ .calls j d :: after →
          ¬ (σ.run (events ++ .calls i c :: before)).Supplied c.key j d y) →
        (σ.run (events ++ .calls i c :: later)).file c.key = (σ.run events).file c.key ∧
        ∀ j expiry stalePolicy writer (d : Call), d.key = c.key →
          let opened := σ.run (events ++ .calls i c :: later ++ [.opens j expiry stalePolicy writer])
          ((d.lookup (opened.state j)).fetched = true ↔
            ∀ r, (σ.run events).record? c.key = some r → r.isFresh d.now expiry = false) ∧
          (expiry = ((σ.run events).caches i).expiry → c.now.nanoseconds ≤ d.now.nanoseconds →
            (∀ r, (σ.run events).record? c.key = some r → r.isFresh c.now expiry = false) →
            (d.lookup (opened.state j)).fetched = true) := by
  have hshared := h.run events
  refine ⟨fun x hx => origin_of_call hshared hmemo hx, fun e he => ?_⟩
  have hfiles : ((σ.run events).step (.calls i c)).files = (σ.run events).files :=
    files_of_failed he
  refine ⟨by rw [run_append]; exact hfiles, fun later hquiet => ?_⟩
  have hrun : ∀ before, σ.run (events ++ .calls i c :: before) =
      ((σ.run events).step (.calls i c)).run before := fun before => run_append σ events _
  -- the call changes no file, and nothing after it has touched the record
  have hcall : ((σ.run events).step (.calls i c)).file c.key = (σ.run events).file c.key := by
    rw [file, file, hfiles]
    rfl
  have hlater : (σ.run (events ++ .calls i c :: later)).file c.key = (σ.run events).file c.key := by
    rw [hrun]
    rcases file_run (hshared.step (.calls i c)) later c.key with
      hsame | ⟨before, j, d, after, y, hlater, hy, -⟩
    · rw [hsame, hcall]
    · exact absurd (hrun before ▸ hy) (hquiet before j d after y hlater)
  refine ⟨hlater, fun j expiry stalePolicy writer d hd => ?_⟩
  have hopened : σ.run (events ++ .calls i c :: later ++ [.opens j expiry stalePolicy writer]) =
      (σ.run (events ++ .calls i c :: later)).step (.opens j expiry stalePolicy writer) :=
    run_append σ _ _
  have hrecord : (σ.run (events ++ .calls i c :: later)).record? d.key =
      (σ.run events).record? c.key := by
    rw [hd, record?, record?, hlater]
  have hiff := fetched_opened_iff (h.run (events ++ .calls i c :: later)) j expiry stalePolicy
    writer d
  rw [hrecord] at hiff
  rw [hopened]
  exact ⟨hiff, fun _ hclock hstale => hiff.2 fun r hr =>
    RecordInfo.isFresh_of_later hclock (hstale r hr)⟩

end Site

/-- Caches whose records expire at once, with an old record of one key. -/
def staleSite : Site Bool where
  dir := "c"
  caches _ := { dir := "c", expiry := .ofSeconds 0, stalePolicy := .useStale }
  files := ⟨.ofList [("c", .directory), ("c/k.json", .file (.text
    ("\x7b\"key\":\"k\",\"cached_at\":\"2000-01-01T00:00:00Z\",\"expiry_secs\":60," ++
      "\"payload\":1\x7d")))]⟩

/-- A call of the key whose answer cannot be fetched. -/
def staleCall : Call :=
  ⟨UInt32, Codec.uint32, "k", ⟨1600000000, 0⟩, .error ⟨[], .stated "unreachable"⟩⟩

/-- A later call of the key. -/
def laterCall : Call := ⟨UInt32, Codec.uint32, "k", ⟨1600000060, 0⟩, .ok 7⟩

theorem isShared_staleSite : staleSite.IsShared := ⟨by decide +kernel, fun _ => rfl⟩

theorem result_staleCall : (staleCall.lookup (staleSite.state true)).result = .ok (1 : UInt32) := by
  have hresult : ((staleSite.caches true).lookup staleSite.files ⟨1600000000, 0⟩ Codec.uint32 "k"
      (.error ⟨[], .stated "unreachable"⟩)).result = .ok 1 := by decide +kernel
  exact hresult

/-- The old record is given, and the next cache of the same expiry tries to fetch the answer. -/
theorem stale_in_need_again :
    (staleCall.lookup (staleSite.state true)).result = .ok (1 : UInt32) ∧
      (laterCall.lookup ((staleSite.run
        [.calls true staleCall, .opens false (.ofSeconds 0) .fail 1]).state false)).fetched =
        true := by
  have hstale : ∀ r, staleSite.record? "k" = some r →
      r.isFresh staleCall.now (.ofSeconds 0) = false := by
    intro r hr
    have hall : (staleSite.record? "k").all fun r =>
        !r.isFresh staleCall.now (.ofSeconds 0) := by decide +kernel
    rw [hr] at hall
    simpa using hall
  refine ⟨result_staleCall, ?_⟩
  obtain ⟨-, hfailed⟩ := Site.stale_in_need isShared_staleSite [] true staleCall rfl
  obtain ⟨-, hlater⟩ := hfailed _ rfl
  obtain ⟨-, hnext⟩ := hlater [] (fun _ _ _ _ _ he => absurd he (by simp))
  exact (hnext false (.ofSeconds 0) .fail 1 laterCall rfl).2 rfl (by decide) hstale

/-- The old record is given as a last resort, and a cache that is opened next and keeps its records
for longer does not try to fetch the answer again. -/
theorem not_fetched_longer :
    staleSite.IsLastResort true staleCall (1 : UInt32) ∧
      (laterCall.lookup ((staleSite.run
        [.calls true staleCall, .opens false (.ofSeconds 1000000000000) .fail 1]).state
          false)).fetched = false := by
  have hfetched : (staleCall.lookup (staleSite.state true)).fetched = true := by decide +kernel
  refine ⟨?_, by decide +kernel⟩
  rcases Site.origin_of_call isShared_staleSite rfl result_staleCall with hhit | hsupplied | hlast
  · rw [hhit.fetched] at hfetched
    cases hfetched
  · exact absurd hsupplied.fetch nofun
  · exact hlast

end RouteServer.Cache

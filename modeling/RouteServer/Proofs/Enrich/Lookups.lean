import RouteServer.Proofs.Cache.Phase
import RouteServer.Proofs.Enrich.Direct

/-!
# Enrich — look-ups do not see each other

A run puts many questions to one cache, one after the other.  A look-up touches only what belongs to
its key, and questions that differ have different keys, so what an earlier question leaves behind does
not show at a later one.

**Independence** (`resolve_eq`).  Each of some questions is answered as it would be if it were the
only one, and is fetched just when it would be fetched then.  It does not matter which other
questions are put, nor whether they fail.

**Order** (`resolve_comm`).  Questions of two kinds may be put in either order: all of them are
answered alike, and the same cache is left.
-/

namespace RouteServer.Cache

open RouteServer.Files RouteServer.Lookup RouteServer.Time

variable {α : Type} (codec : Codec α) {key : String} (now : Instant) (fetch : Except Failure α)

/-- An answer is fetched when it is not remembered and has no record that is fresh. -/
theorem fetched_lookup (s : State) :
    (s.store.lookup s.files now codec key fetch).fetched =
      ((s.store.memo.get? key).isNone && !(s.stored? key).any (·.isFresh now s.store.expiry)) := by
  cases hmemo : s.store.memo.get? key with
  | some payload => rw [Store.lookup_of_settled (Store.consult_remembered now hmemo)]; rfl
  | none =>
      cases hstored : s.stored? key with
      | none => rw [Store.lookup_of_missed (Store.consult_absent now hmemo hstored)]; rfl
      | some r =>
          have hconsult := Store.consult_recorded codec now hmemo hstored
          cases hfresh : r.isFresh now s.store.expiry with
          | true =>
              rw [if_pos hfresh] at hconsult
              rw [Store.lookup_of_settled hconsult, Option.any_some, hfresh]
              rfl
          | false =>
              rw [if_neg (by rw [hfresh]; exact Bool.false_ne_true)] at hconsult
              rw [Store.lookup_of_missed hconsult, Option.any_some, hfresh]
              rfl

/-- Where nothing is kept, every answer is fetched. -/
theorem fetched_of_empty {s : State} (hmemo : s.store.memo = .empty)
    (hdir : s.files.names s.store.dir = .ok []) :
    (s.store.lookup s.files now codec key fetch).fetched = true := by
  have hnothing : Holds (fun _ _ => False) s.store.dir s.files := Holds.of_names hdir
  have hstored : s.stored? key = none :=
    Option.eq_none_iff_forall_ne_some.2 fun r hr => Store.stored?_right hnothing hr
  rw [fetched_lookup, hmemo, hstored]
  rfl

/-- Whether an answer is fetched depends only on what belongs to its key. -/
theorem AlikeAt.fetched_eq {s s' : State} (h : AlikeAt key s s') :
    (s'.store.lookup s'.files now codec key fetch).fetched =
      (s.store.lookup s.files now codec key fetch).fetched := by
  rw [fetched_lookup, fetched_lookup, h.memo, h.stored?_eq, h.store.expiry_eq]

/-- A look-up sees only what belongs to its key. -/
theorem AlikeAt.lookup_eq {s s' : State} (h : AlikeAt key s s') :
    (s'.store.lookup s'.files now codec key fetch).result =
      (s.store.lookup s.files now codec key fetch).result := by
  have hsteps := ((isLocal_run codec key now fetch 7 .entered).alike h).1
  rw [run_entered, run_entered] at hsteps
  exact Phase.leaving.inj hsteps

end RouteServer.Cache

namespace RouteServer.Enrich

open RouteServer.Cache RouteServer.Lookup RouteServer.Time

variable (sources : Sources) (now : Instant)

/-- How a look-up of a question ends. -/
def Query.lookup (cache : Cache.State) (q : Query) : Store.Outcome q.Answer :=
  cache.store.lookup cache.files now q.codec q.key (q.ask sources)

/-- A question with what comes of it when it is put to a cache. -/
def Query.put (cache : Cache.State) (q : Query) : Answered :=
  ⟨q, (q.lookup sources now cache).result⟩

/-- Put to an empty cache, a question is answered by the sources. -/
theorem Query.put_of_empty {cache : Cache.State} (hmemo : cache.store.memo = .empty)
    (hdir : cache.files.names cache.store.dir = .ok []) (q : Query) :
    q.put sources now cache = q.direct sources cache.store := by
  obtain ⟨hresult, -, -⟩ := Store.lookup_spec (trusted_of_empty sources hmemo hdir)
    (answers_kept sources cache.store q) now
  rw [Query.put, Query.lookup, Query.direct, hresult]

/-- The first question is looked up in the cache, and the others in what it leaves. -/
theorem resolve_cons (q : Query) (qs : List Query) (cache : Cache.State) :
    resolve sources now (q :: qs) cache =
      let rest := resolve sources now qs (q.lookup sources now cache).state
      ⟨q.put sources now cache :: rest.answered, rest.cache,
        if (q.lookup sources now cache).fetched then q :: rest.asked else rest.asked⟩ := rfl

/-- Questions are put in two parts as they are put at once. -/
theorem resolve_append (qs ps : List Query) (cache : Cache.State) :
    resolve sources now (qs ++ ps) cache =
      let first := resolve sources now qs cache
      let rest := resolve sources now ps first.cache
      ⟨first.answered ++ rest.answered, rest.cache, first.asked ++ rest.asked⟩ := by
  induction qs generalizing cache with
  | nil => rfl
  | cons q qs ih =>
      rw [List.cons_append, resolve_cons, resolve_cons, ih]
      cases (q.lookup sources now cache).fetched <;> rfl

/-- Every question gets its place among those that have been put. -/
theorem map_query_answered (qs : List Query) (cache : Cache.State) :
    (resolve sources now qs cache).answered.map Answered.query = qs := by
  induction qs generalizing cache with
  | nil => rfl
  | cons q qs ih =>
      rw [resolve_cons, List.map_cons]
      exact congrArg (q :: ·) (ih _)

/-- A look-up leaves what belongs to other questions alone. -/
theorem alikeAt_lookup {q p : Query} (hne : p ≠ q) (cache : Cache.State) :
    AlikeAt p.key cache (q.lookup sources now cache).state :=
  (onlyAt_lookup q.codec q.key now (q.ask sources) cache).alikeAt
    fun he => hne (Query.key_injective he)

theorem Query.put_eq_of_alike (q : Query) {cache cache' : Cache.State}
    (h : AlikeAt q.key cache cache') : q.put sources now cache' = q.put sources now cache :=
  congrArg (Answered.mk q) (h.lookup_eq q.codec now (q.ask sources))

/-- Independence, in a cache that is like another as far as the questions go. -/
theorem resolve_eq_of_alike {qs : List Query} (h : qs.Nodup) {cache cache' : Cache.State}
    (halike : ∀ q ∈ qs, AlikeAt q.key cache cache') :
    (resolve sources now qs cache').answered = qs.map (·.put sources now cache) ∧
      (resolve sources now qs cache').asked =
        qs.filter fun q => (q.lookup sources now cache).fetched := by
  induction qs generalizing cache' with
  | nil => exact ⟨rfl, rfl⟩
  | cons q qs ih =>
      obtain ⟨hnew, hrest⟩ := List.nodup_cons.1 h
      obtain ⟨hq, hqs⟩ := List.forall_mem_cons.1 halike
      have hput := q.put_eq_of_alike sources now hq
      have hfetched : (q.lookup sources now cache').fetched =
          (q.lookup sources now cache).fetched := hq.fetched_eq q.codec now (q.ask sources)
      obtain ⟨hanswered, hasked⟩ := ih hrest fun p hp =>
        (hqs p hp).trans (alikeAt_lookup sources now (ne_of_mem_of_not_mem hp hnew) cache')
      simp only [resolve_cons, List.map_cons, hput, hanswered, hfetched, hasked, List.filter_cons,
        and_self]

/-- **Independence.**  Questions that differ are answered as if each were the only one, and are
fetched when they are missed in the cache they are put to. -/
theorem resolve_eq {qs : List Query} (h : qs.Nodup) (cache : Cache.State) :
    (resolve sources now qs cache).answered = qs.map (·.put sources now cache) ∧
      (resolve sources now qs cache).asked =
        qs.filter fun q => (q.lookup sources now cache).fetched :=
  resolve_eq_of_alike sources now h fun q _ => .refl q.key cache

/-! ### Questions in another order -/

/-- Look-ups of questions that differ leave the same cache in either order. -/
theorem Query.state_lookup_comm {q p : Query} (hne : q ≠ p) (cache : Cache.State) :
    (p.lookup sources now (q.lookup sources now cache).state).state =
      (q.lookup sources now (p.lookup sources now cache).state).state := by
  have hq := isLocal_run q.codec q.key now (q.ask sources) 7 .entered
  have hp := isLocal_run p.codec p.key now (p.ask sources) 7 .entered
  have hcomm := hq.comm hp (fun he => hne (Query.key_injective he)) cache
  simp only [run_entered] at hcomm
  exact hcomm

/-- Questions do not see that another one was looked up, and it may be looked up behind them. -/
theorem resolve_lookup {q : Query} {ps : List Query} (hq : q ∉ ps) (cache : Cache.State) :
    resolve sources now ps (q.lookup sources now cache).state =
      let r := resolve sources now ps cache
      ⟨r.answered, (q.lookup sources now r.cache).state, r.asked⟩ := by
  induction ps generalizing cache with
  | nil => rfl
  | cons p ps ih =>
      rw [List.mem_cons, not_or] at hq
      obtain ⟨hne, hrest⟩ := hq
      have halike := alikeAt_lookup sources now (Ne.symm hne) cache
      have hput := p.put_eq_of_alike sources now halike
      have hfetched : (p.lookup sources now (q.lookup sources now cache).state).fetched =
          (p.lookup sources now cache).fetched := halike.fetched_eq p.codec now (p.ask sources)
      simp only [resolve_cons, hput, hfetched, Query.state_lookup_comm sources now hne, ih hrest]

/-- **Order.**  Questions do not see that others were put before, and these may be put behind
them. -/
theorem resolve_comm {qs ps : List Query} (h : ∀ q ∈ qs, q ∉ ps) (cache : Cache.State) :
    resolve sources now ps (resolve sources now qs cache).cache =
      let r := resolve sources now ps cache
      ⟨r.answered, (resolve sources now qs r.cache).cache, r.asked⟩ := by
  induction qs generalizing cache with
  | nil => rfl
  | cons q qs ih =>
      obtain ⟨hq, hqs⟩ := List.forall_mem_cons.1 h
      simp only [resolve_cons, ih hqs, resolve_lookup sources now hq]

end RouteServer.Enrich

import RouteServer.Proofs.Cache.Store
import RouteServer.Proofs.Files.Change

/-!
# Cache — what belongs to a key

What is remembered under a key, its record and its temporary file belong to the key.  Two states of a
cache may look alike at a key (`AlikeAt`), and a state may differ from another at some keys only
(`OnlyAt`).  An action is *local* to a key (`IsLocal`) when it reads and changes only what belongs to
it, and the operations of a store are.

**Actions that are local to different keys commute** (`IsLocal.comm`): neither sees the other, and
either order leaves the same state.
-/

namespace RouteServer.Cache

open RouteServer.Files RouteServer.Lookup RouteServer.Time

namespace Store.SameButMemo

variable {s s' : Store}

theorem refl (s : Store) : s.SameButMemo s := rfl

theorem symm (h : s.SameButMemo s') : s'.SameButMemo s := by
  unfold SameButMemo at h ⊢
  rw [← h]

theorem expiry_eq (h : s.SameButMemo s') : s.expiry = s'.expiry := by
  unfold SameButMemo at h
  rw [← h]

theorem stalePolicy_eq (h : s.SameButMemo s') : s.stalePolicy = s'.stalePolicy := by
  unfold SameButMemo at h
  rw [← h]

theorem recordPath_eq (h : s.SameButMemo s') (key : String) :
    s.recordPath key = s'.recordPath key := by
  rw [recordPath, recordPath, h.dir_eq]

theorem temporaryPath_eq (h : s.SameButMemo s') (key : String) :
    s.temporaryPath key = s'.temporaryPath key := by
  rw [temporaryPath, temporaryPath, h.dir_eq, h.writer_eq]

end Store.SameButMemo

/-- The names of the files of a key. -/
def Store.Owns (s : Store) (key name : String) : Prop :=
  name = recordName key ∨ name = temporaryName key s.writer

theorem Store.Owns.isName {s : Store} {key name : String} (h : s.Owns key name) : IsName name := by
  rcases h with rfl | rfl
  · exact isName_recordName key
  · exact isName_temporaryName key s.writer

/-- No file belongs to two keys. -/
theorem Store.Owns.unique {s : Store} {key key' name : String} (h : s.Owns key name)
    (h' : s.Owns key' name) : key = key' := by
  rcases h with rfl | rfl <;> rcases h' with h' | h'
  · exact recordName_injective h'
  · exact absurd h'.symm (temporaryName_ne_recordName key' key s.writer)
  · exact absurd h' (temporaryName_ne_recordName key key' s.writer)
  · exact (temporaryName_inj.1 h').1

/-- Two states of a cache are the same as far as a key goes. -/
structure AlikeAt (key : String) (s s' : State) : Prop where
  store : s.store.SameButMemo s'.store
  memo : s'.store.memo.get? key = s.store.memo.get? key
  places : Tree.SamePlaces s.store.dir s.files s'.files
  nodes : ∀ name, s.store.Owns key name →
    s'.files.node? (Path.join s.store.dir name) = s.files.node? (Path.join s.store.dir name)

/-- A state of a cache differs from another at some keys only. -/
structure OnlyAt (keys : String → Prop) (s s' : State) : Prop where
  store : s.store.SameButMemo s'.store
  memo : ∀ key, ¬ keys key → s'.store.memo.get? key = s.store.memo.get? key
  files : Tree.ChangesOnly s.store.dir (fun name => ∃ key, keys key ∧ s.store.Owns key name)
    s.files s'.files

theorem Store.owns_congr {s s' : Store} (h : s.SameButMemo s') : s'.Owns = s.Owns := by
  funext key name
  rw [Owns, Owns, h.writer_eq]

namespace AlikeAt

variable {key : String} {s s' s'' : State}

theorem refl (key : String) (s : State) : AlikeAt key s s :=
  ⟨.refl _, rfl, fun _ _ => rfl, fun _ _ => rfl⟩

theorem symm (h : AlikeAt key s s') : AlikeAt key s' s where
  store := h.store.symm
  memo := h.memo.symm
  places := h.store.dir_eq ▸ h.places.symm
  nodes name hn := by
    rw [Store.owns_congr h.store] at hn
    rw [← h.store.dir_eq, h.nodes name hn]

theorem trans (h : AlikeAt key s s') (h' : AlikeAt key s' s'') : AlikeAt key s s'' where
  store := h.store.trans h'.store
  memo := h'.memo.trans h.memo
  places := h.places.trans (h.store.dir_eq ▸ h'.places)
  nodes name hn := by
    have hnodes := h'.nodes name (by rw [Store.owns_congr h.store]; exact hn)
    rw [← h.store.dir_eq] at hnodes
    rw [hnodes, h.nodes name hn]

end AlikeAt

namespace OnlyAt

variable {keys keys' : String → Prop} {s s' s'' : State}

theorem refl (keys : String → Prop) (s : State) : OnlyAt keys s s :=
  ⟨.refl _, fun _ _ => rfl, .refl _ _ _⟩

theorem symm (h : OnlyAt keys s s') : OnlyAt keys s' s where
  store := h.store.symm
  memo key hk := (h.memo key hk).symm
  files := by
    rw [← h.store.dir_eq, Store.owns_congr h.store]
    exact h.files.symm

theorem trans (h : OnlyAt keys s s') (h' : OnlyAt keys s' s'') : OnlyAt keys s s'' where
  store := h.store.trans h'.store
  memo key hk := (h'.memo key hk).trans (h.memo key hk)
  files := by
    have hfiles := h'.files
    rw [← h.store.dir_eq, Store.owns_congr h.store] at hfiles
    exact h.files.trans hfiles

theorem mono (h : OnlyAt keys s s') (hkeys : ∀ key, keys key → keys' key) : OnlyAt keys' s s' where
  store := h.store
  memo key hk := h.memo key fun hkey => hk (hkeys key hkey)
  files := h.files.mono fun _ ⟨key, hkey, hown⟩ => ⟨key, hkeys key hkey, hown⟩

/-- What belongs to another key is not touched. -/
theorem alikeAt (h : OnlyAt keys s s') {key : String} (hk : ¬ keys key) : AlikeAt key s s' where
  store := h.store
  memo := h.memo key hk
  places := h.files.places
  nodes _ hn := h.files.node?_eq hn.isName fun ⟨_, hkey, hown⟩ => hk (hn.unique hown ▸ hkey)

/-- States that differ at some keys only and look alike at these are the same. -/
theorem eq_of_alikeAt (h : OnlyAt keys s s') (halike : ∀ key, keys key → AlikeAt key s s') :
    s = s' := by
  have hmemo : s.store.memo = s'.store.memo := Dictionary.ext_get? fun key => by
    by_cases hk : keys key
    · exact (halike key hk).memo.symm
    · exact (h.memo key hk).symm
  have hfiles : s.files.entries = s'.files.entries := Dictionary.ext_get? fun place => by
    by_cases hname : ∀ name, IsName name → (∃ key, keys key ∧ s.store.Owns key name) →
        s.files.locate (Path.join s.store.dir name) ≠ .ok place
    · exact (h.files.entries place hname).symm
    · simp only [not_forall, not_not] at hname
      obtain ⟨name, hn, ⟨key, hkey, hown⟩, hl⟩ := hname
      have hnode := (halike key hkey).nodes name hown
      rw [Tree.node?_of_locate_join hn hl,
        Tree.node?_of_locate_join hn ((h.files.places name hn).trans hl)] at hnode
      exact hnode.symm
  have hstore : s.store = s'.store := by
    have hsame := h.store
    unfold Store.SameButMemo at hsame
    rw [← hsame, ← hmemo]
  obtain ⟨store, ⟨entries⟩⟩ := s
  obtain ⟨store', ⟨entries'⟩⟩ := s'
  cases hstore
  cases hfiles
  rfl

end OnlyAt

/-! ### Local actions -/

/-- An action reads and changes only what belongs to a key. -/
structure IsLocal {β : Type} (key : String) (F : State → β × State) : Prop where
  only : ∀ s, OnlyAt (· = key) s (F s).2
  alike : ∀ {s s'}, AlikeAt key s s' → (F s').1 = (F s).1 ∧ AlikeAt key (F s).2 (F s').2

namespace IsLocal

variable {β γ : Type} {key key' : String} {F : State → β × State} {G : State → γ × State}

theorem pure (key : String) (x : β) : IsLocal key fun s => (x, s) :=
  ⟨fun _ => .refl _ _, fun h => ⟨rfl, h⟩⟩

/-- Looking at what belongs to the key. -/
theorem read {f : State → β} (h : ∀ {s s'}, AlikeAt key s s' → f s' = f s) :
    IsLocal key fun s => (f s, s) :=
  ⟨fun _ => .refl _ _, fun hs => ⟨h hs, hs⟩⟩

theorem map (f : β → γ) (hF : IsLocal key F) : IsLocal key fun s => (f (F s).1, (F s).2) where
  only := hF.only
  alike h := ⟨congrArg f (hF.alike h).1, (hF.alike h).2⟩

theorem bind {G : β → State → γ × State} (hF : IsLocal key F) (hG : ∀ x, IsLocal key (G x)) :
    IsLocal key fun s => G (F s).1 (F s).2 where
  only s := (hF.only s).trans ((hG _).only _)
  alike h := by
    obtain ⟨hresult, hstate⟩ := hF.alike h
    rw [hresult]
    exact (hG _).alike hstate

/-- An action sees nothing of one that is local to another key. -/
theorem unseen (hF : IsLocal key F) (hG : IsLocal key' G) (hne : key ≠ key') (s : State) :
    (G (F s).2).1 = (G s).1 ∧ AlikeAt key' (G s).2 (G (F s).2).2 :=
  hG.alike ((hF.only s).alikeAt (Ne.symm hne))

/-- **Actions that are local to different keys commute.** -/
theorem comm (hF : IsLocal key F) (hG : IsLocal key' G) (hne : key ≠ key') (s : State) :
    (G (F s).2).2 = (F (G s).2).2 := by
  have hleft : ∀ k, k = key → k = key ∨ k = key' := fun _ => .inl
  have hright : ∀ k, k = key' → k = key ∨ k = key' := fun _ => .inr
  have hF' := (hF.only (G s).2).mono hleft
  have hG' := (hG.only (F s).2).mono hright
  -- both orders start from `s`, and neither leaves the two keys
  have honly := (hG'.symm.trans ((hF.only s).mono hleft).symm).trans
    (((hG.only s).mono hright).trans hF')
  refine honly.eq_of_alikeAt fun k hk => ?_
  rcases hk with rfl | rfl
  · exact ((hG.only (F s).2).alikeAt hne).symm.trans (hG.unseen hF (Ne.symm hne) s).2
  · exact (hF.unseen hG hne s).2.symm.trans ((hF.only (G s).2).alikeAt (Ne.symm hne))

end IsLocal

/-! ### The operations of a store -/

namespace State

/-- The record that is kept under a key. -/
def stored? (s : State) (key : String) : Option Record := s.store.stored? s.files key

/-- The state once an answer has been given. -/
def remember (s : State) (key : String) (payload : Json) : State :=
  { s with store := s.store.remember key payload }

/-- The answer that a payload holds, remembered if there is one. -/
def serve {α : Type} (codec : Codec α) (key : String) (payload : Json) (s : State) :
    Except Failure α × State :=
  ((s.store.serve codec key payload).1, { s with store := (s.store.serve codec key payload).2 })

/-- The state after something was done to its files. -/
def withFiles (s : State) : Except Failure Tree → Except Failure Unit × State
  | .ok files => (.ok (), { s with files })
  | .error e => (.error e, s)

/-- Prepares the record of an answer. -/
def prepare (now : Instant) (key : String) (payload : Json) (s : State) :
    Except Failure Unit × State :=
  s.withFiles (s.store.prepare s.files (s.store.record now key payload))

/-- Puts the record that has been prepared in its place. -/
def commit (key : String) (s : State) : Except Failure Unit × State :=
  s.withFiles (s.store.commit s.files key)

end State

variable {α : Type} {key : String} {s s' : State}

theorem AlikeAt.stored?_eq (h : AlikeAt key s s') : s'.stored? key = s.stored? key := by
  have hread : s'.files.read (s'.store.recordPath key) = s.files.read (s.store.recordPath key) := by
    rw [← h.store.recordPath_eq]
    exact Tree.read_congr (h.places _ (isName_recordName key)) (h.nodes _ (.inl rfl))
  rw [State.stored?, State.stored?, Store.stored?, Store.stored?, hread]

theorem isLocal_remember (key : String) (payload : Json) (x : α) :
    IsLocal key fun s => (x, s.remember key payload) where
  only s :=
    { store := rfl
      memo := fun k hk => by rw [State.remember, Store.remember, Dictionary.get?_insert, if_neg hk]
      files := .refl _ _ _ }
  alike {s s'} h := by
    refine ⟨rfl, ?_, ?_, h.places, h.nodes⟩
    · have hsame := h.store
      unfold Store.SameButMemo at hsame ⊢
      rw [State.remember, State.remember, Store.remember, Store.remember, ← hsame]
    · simp only [State.remember, Store.remember, Dictionary.get?_insert, if_true]

theorem isLocal_serve (codec : Codec α) (key : String) (payload : Json) :
    IsLocal key (State.serve codec key payload) := by
  unfold State.serve Store.serve
  cases Store.answer codec payload with
  | ok x => exact isLocal_remember key payload (Except.ok x)
  | error e => exact .pure key (Except.error e)

/-- The same change of the files leaves states alike. -/
theorem AlikeAt.withFiles (h : AlikeAt key s s') (names : String → Prop)
    {r r' : Except Failure Tree} (hr : r'.map (fun _ => ()) = r.map fun _ => ())
    (hok : ∀ u u', r = .ok u → r' = .ok u' →
      Tree.ChangesOnly s.store.dir names s.files u ∧
      Tree.ChangesOnly s.store.dir names s'.files u' ∧
      ∀ name, names name →
        u'.node? (Path.join s.store.dir name) = u.node? (Path.join s.store.dir name)) :
    (s'.withFiles r').1 = (s.withFiles r).1 ∧ AlikeAt key (s.withFiles r).2 (s'.withFiles r').2 := by
  cases r with
  | error e =>
      cases r' with
      | ok u' => cases hr
      | error e' => cases hr; exact ⟨rfl, h⟩
  | ok u =>
      cases r' with
      | error e' => cases hr
      | ok u' =>
          obtain ⟨hu, hu', hnodes⟩ := hok u u' rfl rfl
          refine ⟨rfl, h.store, h.memo, hu.places.symm.trans (h.places.trans hu'.places), ?_⟩
          intro name hown
          by_cases hname : names name
          · exact hnodes name hname
          · exact (hu'.node?_eq hown.isName hname).trans
              ((h.nodes name hown).trans (hu.node?_eq hown.isName hname).symm)

/-- A change of the files of a key. -/
theorem onlyAt_withFiles {r : Except Failure Tree}
    (h : ∀ u, r = .ok u → Tree.ChangesOnly s.store.dir (s.store.Owns key) s.files u) :
    OnlyAt (· = key) s (s.withFiles r).2 := by
  cases r with
  | error e => exact .refl _ _
  | ok u => exact ⟨rfl, fun _ _ => rfl, (h u rfl).mono fun name hown => ⟨key, rfl, hown⟩⟩

theorem Store.write_of_prepare {store : Store} {files u : Tree} {r : Record}
    (h : store.prepare files r = .ok u) :
    files.write (Path.join store.dir (temporaryName r.key store.writer)) r.text = .ok u := by
  unfold prepare temporaryPath at h
  cases hw : files.write (Path.join store.dir (temporaryName r.key store.writer)) r.text with
  | error f => simp only [hw] at h; cases h
  | ok v => simp only [hw] at h; cases h; rfl

theorem Store.rename_of_commit {store : Store} {files u : Tree} {key : String}
    (h : store.commit files key = .ok u) :
    files.rename (Path.join store.dir (temporaryName key store.writer))
      (Path.join store.dir (recordName key)) = .ok u := by
  unfold commit temporaryPath recordPath at h
  cases hm : files.rename (Path.join store.dir (temporaryName key store.writer))
      (Path.join store.dir (recordName key)) with
  | error f => simp only [hm] at h; cases h
  | ok v => simp only [hm] at h; cases h; rfl

theorem map_mapError {ε ε' β γ : Type} (r : Except ε β) (f : ε → ε') (g : β → γ) :
    (r.mapError f).map g = (r.map g).mapError f := by
  cases r <;> rfl

/-- Preparing a record writes its temporary file. -/
theorem changesOnly_of_prepare {store : Store} {files u : Tree} {r : Record}
    (h : store.prepare files r = .ok u) :
    Tree.ChangesOnly store.dir (· = temporaryName r.key store.writer) files u ∧
      u.node? (Path.join store.dir (temporaryName r.key store.writer)) =
        some (.file (.text r.text)) :=
  Tree.changesOnly_of_write (isName_temporaryName r.key store.writer) (Store.write_of_prepare h)

/-- Putting a record in its place moves the temporary file. -/
theorem changesOnly_of_commit {store : Store} {files u : Tree} {key : String}
    (h : store.commit files key = .ok u) :
    Tree.ChangesOnly store.dir
        (fun name => name = temporaryName key store.writer ∨ name = recordName key) files u ∧
      u.node? (Path.join store.dir (recordName key)) =
        files.node? (Path.join store.dir (temporaryName key store.writer)) ∧
      u.node? (Path.join store.dir (temporaryName key store.writer)) = none :=
  Tree.changesOnly_of_rename (isName_temporaryName key store.writer) (isName_recordName key)
    (temporaryName_ne_recordName key key store.writer) (Store.rename_of_commit h)

/-- The record of an answer is the same for stores that differ in what is remembered. -/
theorem record_congr {store store' : Store} (h : store.SameButMemo store') (now : Instant)
    (key : String) (payload : Json) :
    store'.record now key payload = store.record now key payload := by
  rw [Store.record, Store.record, h.expiry_eq]

theorem isLocal_prepare (now : Instant) (key : String) (payload : Json) :
    IsLocal key (State.prepare now key payload) where
  only s := onlyAt_withFiles fun u hu =>
    (changesOnly_of_prepare hu).1.mono fun name hname => .inr hname
  alike {s s'} h := by
    have hrecord := record_congr h.store now key payload
    refine h.withFiles (· = temporaryName key s.store.writer) ?_ fun u u' hu hu' => ?_
    · have hwrite := Tree.write_congr h.places (isName_temporaryName key s.store.writer)
        (h.nodes _ (.inr rfl)) (s.store.record now key payload).text
      rw [hrecord, Store.prepare, Store.prepare, map_mapError, map_mapError,
        ← h.store.temporaryPath_eq]
      exact congrArg _ hwrite
    · rw [hrecord] at hu'
      obtain ⟨hchange, hnode⟩ := changesOnly_of_prepare hu
      obtain ⟨hchange', hnode'⟩ := changesOnly_of_prepare hu'
      rw [← h.store.dir_eq, ← h.store.writer_eq] at hchange' hnode'
      exact ⟨hchange, hchange', fun name he => he ▸ hnode'.trans hnode.symm⟩

theorem isLocal_commit (key : String) : IsLocal key (State.commit key) where
  only s := onlyAt_withFiles fun u hu =>
    (changesOnly_of_commit hu).1.mono fun name hname => hname.symm
  alike {s s'} h := by
    refine h.withFiles (fun name => name = temporaryName key s.store.writer ∨
      name = recordName key) ?_ fun u u' hu hu' => ?_
    · have hrename := Tree.rename_congr h.places (isName_temporaryName key s.store.writer)
        (isName_recordName key) (h.nodes _ (.inr rfl)) (h.nodes _ (.inl rfl))
      rw [Store.commit, Store.commit, map_mapError, map_mapError, ← h.store.temporaryPath_eq,
        ← h.store.recordPath_eq]
      exact congrArg _ hrename
    · obtain ⟨hchange, hnew, hold⟩ := changesOnly_of_commit hu
      obtain ⟨hchange', hnew', hold'⟩ := changesOnly_of_commit hu'
      rw [← h.store.dir_eq, ← h.store.writer_eq] at hchange' hnew' hold'
      refine ⟨hchange, hchange', fun name hname => ?_⟩
      rcases hname with rfl | rfl
      · rw [hold, hold']
      · rw [hnew, hnew', h.nodes _ (.inr rfl)]

end RouteServer.Cache

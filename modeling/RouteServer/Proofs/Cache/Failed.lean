import RouteServer.Proofs.Cache.Ends

/-!
# Cache — what a look-up that fails leaves behind

A record is prepared in its temporary file and then put in place of the old one.  Whatever makes a
look-up fail, it fails before a file is touched, with one exception: nothing can be put in the place
of a directory (`State.Strands`), and then the temporary file has been written and is not removed.

So a look-up that fails leaves the cache as it was, its memo and its files, just when it does not
strand there, or when the file it leaves was there already (`unchanged_of_failed`).
-/

namespace RouteServer.Files

/-- Trees that differ under some names only, and hold the same there, are the same. -/
theorem Tree.ChangesOnly.eq {dir : String} {names : String → Prop} {t u : Tree}
    (h : Tree.ChangesOnly dir names t u) (hsame : ∀ name, IsName name → names name →
      u.node? (Path.join dir name) = t.node? (Path.join dir name)) : u = t := by
  have hentries : u.entries = t.entries := Dictionary.ext_get? fun place => by
    by_cases hplace : ∀ name, IsName name → names name →
        t.locate (Path.join dir name) ≠ .ok place
    · exact h.entries place hplace
    · simp only [not_forall, not_not] at hplace
      obtain ⟨name, hn, hname, hl⟩ := hplace
      have hnode := hsame name hn hname
      rwa [Tree.node?_of_locate_join hn hl,
        Tree.node?_of_locate_join hn ((h.places name hn).trans hl)] at hnode
  obtain ⟨entries⟩ := t
  obtain ⟨entries'⟩ := u
  cases hentries
  rfl

end RouteServer.Files

namespace RouteServer.Cache

open RouteServer.Files RouteServer.Lookup RouteServer.Time

/-! ### Putting a record in its place -/

/-- A record that has been prepared fits in its place, unless a directory stands there. -/
theorem Store.exists_commit {store : Store} {files prepared : Tree} {r : Record}
    (hp : store.prepare files r = .ok prepared)
    (hfree : files.node? (store.recordPath r.key) ≠ some .directory) :
    ∃ u, store.commit prepared r.key = .ok u := by
  have htmp := isName_temporaryName r.key store.writer
  have hrec := isName_recordName r.key
  obtain ⟨hchange, hwritten⟩ := changesOnly_of_prepare hp
  rw [recordPath, ← hchange.node?_eq hrec
    (temporaryName_ne_recordName r.key r.key store.writer).symm] at hfree
  cases hl : prepared.locate (Path.join store.dir (temporaryName r.key store.writer)) with
  | error f => rw [Tree.node?, hl] at hwritten; cases hwritten
  | ok source =>
      obtain ⟨lead, ho, hfits, rfl⟩ := Tree.locate_join_eq_ok htmp hl
      have hsize : (recordName r.key).utf8ByteSize ≤ Tree.maxNameBytes := Fits.recordName hfits
      rw [ho.node?_join htmp, if_neg (Nat.not_lt.2 hfits)] at hwritten
      rw [ho.node?_join hrec, if_neg (Nat.not_lt.2 hsize)] at hfree
      exact ⟨_, commit_of_rename (ho.rename_join htmp hrec hfits hsize hwritten hfree)⟩

/-- No record can be put in the place of a directory. -/
theorem Store.commit_of_directory {store : Store} {files prepared : Tree} {r : Record}
    (hp : store.prepare files r = .ok prepared)
    (hdir : files.node? (store.recordPath r.key) = some .directory) :
    store.commit prepared r.key =
      .error ⟨[], .file .replace (store.recordPath r.key) .refused⟩ := by
  obtain ⟨hchange, hwritten⟩ := changesOnly_of_prepare hp
  rw [recordPath, ← hchange.node?_eq (isName_recordName r.key)
    (temporaryName_ne_recordName r.key r.key store.writer).symm] at hdir
  have hrename : prepared.rename (store.temporaryPath r.key) (store.recordPath r.key) =
      .error .refused := by
    rw [temporaryPath, recordPath, Tree.rename_join, hwritten, hdir]
    unfold Tree.node? at hwritten hdir
    cases hs : prepared.locate (Path.join store.dir (temporaryName r.key store.writer)) with
    | error f => rw [hs] at hwritten; cases hwritten
    | ok source =>
        cases ht : prepared.locate (Path.join store.dir (recordName r.key)) with
        | error f => rw [ht] at hdir; cases hdir
        | ok target => rfl
  simp only [commit, hrename]
  rfl

/-! ### Look-ups that fail -/

variable {α : Type} {codec : Codec α} {key : String} {now : Instant} {fetch : Except Failure α}
  {s : State}

/-- Nothing is remembered under a key, and its record can be prepared, but a directory stands in its
place. -/
structure State.Strands (s : State) (key : String) : Prop where
  forgotten : s.store.memo.get? key = none
  directory : s.files.node? (s.store.recordPath key) = some .directory
  fits : Fits s.store.writer key
  free : s.files.node? (s.store.temporaryPath key) ≠ some .directory

theorem State.Strands.exists_prepare (h : s.Strands key) {r : Record} (hr : r.key = key) :
    ∃ u, s.store.prepare s.files r = .ok u := by
  have hrec := isName_recordName key
  have htmp := isName_temporaryName key s.store.writer
  have hdir := h.directory
  unfold Store.recordPath at hdir
  cases hl : s.files.locate (Path.join s.store.dir (recordName key)) with
  | error f => rw [Tree.node?, hl] at hdir; cases hdir
  | ok place =>
      obtain ⟨lead, ho, -, -⟩ := Tree.locate_join_eq_ok hrec hl
      have hfree := h.free
      rw [Store.temporaryPath, ho.node?_join htmp, if_neg (Nat.not_lt.2 h.fits)] at hfree
      subst hr
      exact ⟨_, Store.prepare_of_write (ho.write_join htmp h.fits hfree r.text)⟩

/-- A directory is no record. -/
theorem State.Strands.not_hasFresh (h : s.Strands key) (r : Record) : ¬ s.HasFresh now key r := by
  rintro ⟨hstored, -⟩
  obtain ⟨text, hnode, -⟩ := Store.stored?_eq_some_iff.1 hstored
  have hdir := h.directory
  rw [Store.recordPath, hnode] at hdir
  cases hdir

/-- An answer that cannot be kept: either nothing has been touched, or a directory stands in the
place of its record. -/
theorem keep_eq_error {payload : Json} {e : Failure} {s' : State}
    (h : s.store.keep s.files now key payload = (.error e, s')) :
    s' = s ∨ s'.store = s.store ∧
      s.files.node? (s.store.recordPath key) = some .directory ∧
      s.store.prepare s.files (s.store.record now key payload) = .ok s'.files := by
  unfold Store.keep at h
  split at h
  case h_1 => cases h; exact .inl rfl
  case h_2 prepared hp =>
      split at h
      case h_1 e' hcommit =>
          cases h
          refine .inr ⟨rfl, ?_, hp⟩
          by_contra hfree
          obtain ⟨u, hu⟩ := Store.exists_commit hp hfree
          rw [show (s.store.record now key payload).key = key from rfl, hcommit] at hu
          cases hu
      case h_2 => cases h

/-- An answer whose record cannot be put in place is left in the temporary file. -/
theorem keep_of_directory {payload : Json} {u : Tree}
    (hp : s.store.prepare s.files (s.store.record now key payload) = .ok u)
    (hdir : s.files.node? (s.store.recordPath key) = some .directory) :
    s.store.keep s.files now key payload =
      (.error ⟨[], .file .replace (s.store.recordPath key) .refused⟩, ⟨s.store, u⟩) := by
  have hcommit : s.store.commit u key =
      .error ⟨[], .file .replace (s.store.recordPath key) .refused⟩ :=
    Store.commit_of_directory (r := s.store.record now key payload) hp hdir
  unfold Store.keep
  rw [hp]
  simp only [hcommit]

/-- What has been written can be written: its name fits, and it is no directory. -/
theorem State.strands_of_prepare (hmemo : s.store.memo.get? key = none)
    (hdir : s.files.node? (s.store.recordPath key) = some .directory) {r : Record} {u : Tree}
    (hr : r.key = key) (hp : s.store.prepare s.files r = .ok u) : s.Strands key := by
  have htmp := isName_temporaryName key s.store.writer
  subst hr
  have hwrite := Store.write_of_prepare hp
  rw [Tree.write_join htmp] at hwrite
  cases hl : s.files.locate (Path.join s.store.dir (temporaryName r.key s.store.writer)) with
  | error f => rw [hl] at hwrite; cases hwrite
  | ok place =>
      obtain ⟨-, -, hfits, -⟩ := Tree.locate_join_eq_ok htmp hl
      refine ⟨hmemo, hdir, hfits, fun hfree => ?_⟩
      rw [Store.temporaryPath] at hfree
      rw [hl, hfree] at hwrite
      cases hwrite

/-- **Look-ups that strand.**  They fail, and the record is left in its temporary file. -/
theorem State.Strands.lookup (h : s.Strands key) (now : Instant) (codec : Codec α) (x : α) :
    ∃ u, s.store.lookup s.files now codec key (.ok x) =
        ⟨.error ⟨[], .file .replace (s.store.recordPath key) .refused⟩, true, ⟨s.store, u⟩⟩ ∧
      Tree.ChangesOnly s.store.dir (· = temporaryName key s.store.writer) s.files u ∧
      u.node? (s.store.temporaryPath key) =
        some (.file (.text (s.store.record now key (Phase.payload codec x)).text)) := by
  have hends := ends_lookup codec key now (.ok x) s
  generalize s.store.lookup s.files now codec key (.ok x) = o at hends ⊢
  cases hends with
  | remembered payload hp => rw [h.forgotten] at hp; cases hp
  | fresh r _ hr => exact absurd hr (h.not_hasFresh r)
  | stale r e _ _ _ he _ => cases he
  | failed e _ _ he _ => cases he
  | fetched y _ _ hy =>
      cases hy
      obtain ⟨u, hu⟩ := h.exists_prepare (r := s.store.record now key (Phase.payload codec x)) rfl
      rw [keep_of_directory hu h.directory]
      obtain ⟨hchange, hwritten⟩ := changesOnly_of_prepare hu
      exact ⟨u, rfl, hchange, hwritten⟩

/-- A look-up that fails has changed nothing, or it has stranded. -/
theorem eq_or_strands_of_failed {e : Failure}
    (h : (s.store.lookup s.files now codec key fetch).result = .error e) :
    (s.store.lookup s.files now codec key fetch).state = s ∨
      s.Strands key ∧ ∃ x, fetch = .ok x := by
  have hends := ends_lookup codec key now fetch s
  generalize s.store.lookup s.files now codec key fetch = o at hends h ⊢
  cases hends with
  | remembered payload _ => exact .inl rfl
  | fresh r _ _ =>
      rw [serve_eq] at h ⊢
      cases hd : codec.decode r.payload with
      | none => exact .inl rfl
      | some x => rw [hd] at h; cases h
  | stale r _ _ _ _ _ _ =>
      rw [serve_eq] at h ⊢
      cases hd : codec.decode r.payload with
      | none => exact .inl rfl
      | some x => rw [hd] at h; cases h
  | failed _ _ _ _ _ => exact .inl rfl
  | fetched x hmemo _ hx =>
      cases hkeep : s.store.keep s.files now key (Phase.payload codec x) with
      | mk kept s' =>
          cases kept with
          | ok _ => rw [hkeep] at h; cases h
          | error e' =>
              rcases keep_eq_error hkeep with rfl | ⟨-, hdir, hp⟩
              · exact .inl rfl
              · exact .inr ⟨State.strands_of_prepare hmemo hdir rfl hp, x, hx⟩

/-- **A look-up that fails leaves the cache as it was, unless it strands.**  What is remembered never
changes, under any key.  The files are what they were just when the look-up has not stranded, or
when the file that it leaves was there already, with the same text.  If it strands, its failure is
that the record could not be put in place; the temporary file is then there, with the record, and
everything else is as it was. -/
theorem unchanged_of_failed {e : Failure}
    (h : (s.store.lookup s.files now codec key fetch).result = .error e) :
    (s.store.lookup s.files now codec key fetch).state.store = s.store ∧
    ((s.store.lookup s.files now codec key fetch).state.files = s.files ↔
      ∀ x, fetch = .ok x → s.Strands key → s.files.node? (s.store.temporaryPath key) =
        some (.file (.text (s.store.record now key (Phase.payload codec x)).text))) ∧
    ∀ x, fetch = .ok x → s.Strands key →
      e = ⟨[], .file .replace (s.store.recordPath key) .refused⟩ ∧
      Tree.ChangesOnly s.store.dir (· = temporaryName key s.store.writer) s.files
        (s.store.lookup s.files now codec key fetch).state.files ∧
      (s.store.lookup s.files now codec key fetch).state.files.node? (s.store.temporaryPath key) =
        some (.file (.text (s.store.record now key (Phase.payload codec x)).text)) := by
  by_cases hstrands : s.Strands key ∧ ∃ x, fetch = .ok x
  · obtain ⟨hstrands, x, rfl⟩ := hstrands
    obtain ⟨u, hlookup, hchange, hwritten⟩ := hstrands.lookup now codec x
    rw [hlookup] at h ⊢
    refine ⟨rfl, ⟨fun hfiles y hy _ => ?_, fun hsame => ?_⟩, fun y hy _ => ?_⟩
    · cases hy
      rw [← hwritten]
      exact congrArg (Tree.node? · _) hfiles.symm
    · refine hchange.eq fun name hn hname => ?_
      subst hname
      exact hwritten.trans (hsame x rfl hstrands).symm
    · cases hy
      exact ⟨(Except.error.inj h).symm, hchange, hwritten⟩
  · have hstate := (eq_or_strands_of_failed h).resolve_right hstrands
    rw [hstate]
    exact ⟨rfl, ⟨fun _ x hx hs => absurd ⟨hs, x, hx⟩ hstrands, fun _ => rfl⟩,
      fun x hx hs => absurd ⟨hs, x, hx⟩ hstrands⟩

/-- A fresh record with a wrong payload makes a look-up fail, and nothing changes. -/
theorem unchanged_of_failed_wrongPayload :
    (wrongPayload.store.lookup wrongPayload.files ⟨1600000000, 0⟩ Codec.uint32 "k"
        (.ok 7)).result = .error ⟨[], .notJson⟩ ∧
      (wrongPayload.store.lookup wrongPayload.files ⟨1600000000, 0⟩ Codec.uint32 "k"
        (.ok 7)).state.files = wrongPayload.files := by
  have hfailed : (wrongPayload.store.lookup wrongPayload.files ⟨1600000000, 0⟩ Codec.uint32 "k"
      (.ok 7)).result = .error ⟨[], .notJson⟩ := by decide +kernel
  have hfile : wrongPayload.files.node? (wrongPayload.store.recordPath "k") ≠ some .directory := by
    decide +kernel
  exact ⟨hfailed, (unchanged_of_failed hfailed).2.1.2 fun _ _ hs => absurd hs.directory hfile⟩

/-- A cache in which a directory stands in the place of a record. -/
def blocked : State :=
  ⟨{ dir := "c", expiry := .ofSeconds 60, stalePolicy := .fail },
    ⟨.ofList [("c", .directory), ("c/k.json", .directory)]⟩⟩

/-- A look-up of its key fails and leaves a file that was not there. -/
theorem not_unchanged_blocked :
    (blocked.store.lookup blocked.files ⟨1600000000, 0⟩ Codec.uint32 "k" (.ok 7)).result =
        .error ⟨[], .file .replace "c/k.json" .refused⟩ ∧
      blocked.files.names "c" = .ok ["k.json"] ∧
      (blocked.store.lookup blocked.files ⟨1600000000, 0⟩ Codec.uint32 "k"
        (.ok 7)).state.files.names "c" = .ok ["k.json", "k.json.1000000.tmp"] := by
  refine ⟨?_, ?_, ?_⟩ <;> decide +kernel

end RouteServer.Cache

import RouteServer.Cache.Store
import RouteServer.Proofs.Cache.Key
import RouteServer.Proofs.Cache.Record
import RouteServer.Proofs.Files.Directory

/-!
# Cache — a look-up gives what fetching gives

Whether a payload is right for a key is up to whoever asks (`Right`).  A directory *holds* right
records when every record that can be read in it is right for the key it is found under; a memo when
all that is remembered is.

**A look-up is transparent** (`lookup_spec`).  Where only right payloads are kept, a look-up gives
what it would give if nothing were kept, whether it finds its answer in the memo, in a fresh record
or nowhere, and it leaves only right payloads behind.  A record that has expired plays no part: its
key has an answer, so fetching it does not fail.
-/

namespace RouteServer.Cache

open RouteServer.Files RouteServer.Lookup RouteServer.Time

/-- The payloads that are right for a key. -/
abbrev Right := String → Json → Prop

/-- A writer can name the temporary file for the record of a key. -/
def Fits (writer : Nat) (key : String) : Prop :=
  (temporaryName key writer).utf8ByteSize ≤ Tree.maxNameBytes

instance (writer : Nat) (key : String) : Decidable (Fits writer key) :=
  inferInstanceAs (Decidable (_ ≤ _))

theorem Fits.recordName {writer : Nat} {key : String} (h : Fits writer key) :
    (recordName key).utf8ByteSize ≤ Tree.maxNameBytes :=
  Nat.le_trans (size_recordName_le key writer) h

/-- The directory is there, nothing in it is a directory, and its records are right. -/
structure Holds (right : Right) (dir : String) (t : Tree) : Prop where
  isDirectory : t.isDirectory dir
  noDirectory : ∀ name, IsName name → t.node? (Path.join dir name) ≠ some .directory
  right : ∀ key text r, t.node? (Path.join dir (recordName key)) = some (.file (.text text)) →
    Record.read text = some r → right key r.payload

/-- What is remembered is right. -/
def Remembers (right : Right) (memo : Dictionary Json) : Prop :=
  ∀ key payload, memo.get? key = some payload → right key payload

namespace Holds

variable {right : Right} {dir lead : String} {t u : Tree}

/-- What is seen under the names of a directory decides what it holds. -/
theorem congr (h : Holds right dir t) (hd : u.isDirectory dir)
    (he : ∀ name, IsName name → u.node? (Path.join dir name) = t.node? (Path.join dir name)) :
    Holds right dir u where
  isDirectory := hd
  noDirectory name hn := by
    rw [he name hn]
    exact h.noDirectory name hn
  right key text r hr := by
    rw [he _ (isName_recordName key)] at hr
    exact h.right key text r hr

theorem get?_ne_directory (h : Holds right dir t) (ho : t.Opens dir lead) {name : String}
    (hn : IsName name) (hsize : name.utf8ByteSize ≤ Tree.maxNameBytes) :
    t.entries.get? (lead ++ name) ≠ some .directory := by
  have := h.noDirectory name hn
  rwa [ho.node?_join hn, if_neg (by omega)] at this

/-- A change of some entries keeps what is held, when every file that is new under the name of a
record is a right one. -/
theorem change (h : Holds right dir t) (ho : t.Opens dir lead) (hk : t.KeepsDirectories u)
    (he : ∀ name, IsName name →
      u.entries.get? (lead ++ name) = t.entries.get? (lead ++ name) ∨
      u.entries.get? (lead ++ name) = none ∨
      ∃ text, u.entries.get? (lead ++ name) = some (.file (.text text)) ∧
        ∀ key r, name = recordName key → Record.read text = some r → right key r.payload) :
    Holds right dir u where
  isDirectory := Tree.isDirectory_mono h.isDirectory hk
  noDirectory name hn hd := by
    rw [(ho.mono hk).node?_join hn] at hd
    split at hd
    · cases hd
    case isFalse hsize =>
        have ht := h.get?_ne_directory ho hn (by omega)
        rcases he name hn with hsame | hnone | ⟨text, hfile, -⟩
        · exact ht (hsame ▸ hd)
        · rw [hnone] at hd; cases hd
        · rw [hfile] at hd; cases hd
  right key text r hr hread := by
    have hn := isName_recordName key
    rw [(ho.mono hk).node?_join hn] at hr
    split at hr
    · cases hr
    case isFalse hsize =>
        rcases he _ hn with hsame | hnone | ⟨text', hfile, hright⟩
        · refine h.right key text r ?_ hread
          rw [ho.node?_join hn, if_neg hsize, ← hsame, hr]
        · rw [hnone] at hr; cases hr
        · rw [hfile] at hr
          cases hr
          exact hright key r rfl hread

/-- An empty directory holds right records only. -/
theorem of_names (h : t.names dir = .ok []) :
    Holds right dir t := by
  obtain ⟨lead, ho, -, hnames⟩ := Tree.opens_of_names h
  have hnone : ∀ name, IsName name → t.node? (Path.join dir name) = none := by
    intro name hn
    rw [ho.node?_join hn]
    split
    · rfl
    · refine Option.not_isSome_iff_eq_none.1 fun hs => ?_
      cases (hnames name).2 ⟨hn.ne_empty, hn.noSlash, hs⟩
  refine ⟨Tree.isDirectory_of_names h, fun name hn he => ?_, fun key text r he => ?_⟩
  · rw [hnone name hn] at he; cases he
  · rw [hnone _ (isName_recordName key)] at he; cases he

end Holds

namespace Store

variable {right : Right} {t : Tree} {α : Type}

theorem stored?_right {s : Store} (h : Holds right s.dir t) {key : String} {r : Record}
    (hs : s.stored? t key = some r) : right key r.payload := by
  obtain ⟨text, htext, hread⟩ := Option.bind_eq_some_iff.1 hs
  refine h.right key text r (Tree.read_eq_ok_iff.1 ?_) hread
  cases hr : t.read (s.recordPath key) with
  | error e => rw [hr] at htext; cases htext
  | ok text' => rw [hr] at htext; cases htext; exact hr

/-- What is fetched, when it can be kept. -/
def verdict (s : Store) (key : String) : Except Failure α → Except Failure α
  | .ok x =>
    if Fits s.writer key then .ok x
    else .error ⟨[], .file .write (s.temporaryPath key) .refused⟩
  | .error e => .error e

/-- A file that is written and moved: what is seen of the entries, and of the directories. -/
theorem get?_moved {source target : String} (content : Content) (k : String) :
    (((t.entries.insert source (.file content)).erase source).insert target
        (.file content)).get? k =
      if k = target then some (.file content)
      else if k = source then none else t.entries.get? k := by
  simp only [Dictionary.get?_insert, Dictionary.get?_erase]
  by_cases hs : k = source <;> simp [hs]

theorem prepare_of_write {s : Store} {r : Record} {u : Tree}
    (h : t.write (s.temporaryPath r.key) r.text = .ok u) : s.prepare t r = .ok u := by
  simp only [prepare, h]
  rfl

theorem prepare_of_refused {s : Store} {r : Record} {f : Files.Fault}
    (h : t.write (s.temporaryPath r.key) r.text = .error f) :
    s.prepare t r = .error ⟨[], .file .write (s.temporaryPath r.key) f⟩ := by
  simp only [prepare, h]
  rfl

theorem commit_of_rename {s : Store} {key : String} {u : Tree}
    (h : t.rename (s.temporaryPath key) (s.recordPath key) = .ok u) :
    s.commit t key = .ok u := by
  simp only [commit, h]
  rfl

theorem keep_of_commit {s : Store} {now : Instant} {key : String} {payload : Json}
    {prepared u : Tree} (hw : s.prepare t (s.record now key payload) = .ok prepared)
    (hm : s.commit prepared key = .ok u) :
    s.keep t now key payload = (.ok (), ⟨s.remember key payload, u⟩) := by
  unfold keep
  rw [hw]
  simp only [hm]

/-- An answer that is kept has its record in its place, and no temporary file is left. -/
theorem exists_keep {s : Store} {lead : String} (ho : t.Opens s.dir lead) {key : String}
    (hfits : Fits s.writer key)
    (hdtmp : t.entries.get? (lead ++ temporaryName key s.writer) ≠ some .directory)
    (hdrec : t.entries.get? (lead ++ recordName key) ≠ some .directory) (now : Instant)
    (payload : Json) :
    ∃ u, s.keep t now key payload = (.ok (), ⟨s.remember key payload, u⟩) ∧
      t.KeepsDirectories u ∧ ∀ k, u.entries.get? k =
        if k = lead ++ recordName key then some (.file (.text (s.record now key payload).text))
        else if k = lead ++ temporaryName key s.writer then none else t.entries.get? k := by
  have htmp := isName_temporaryName key s.writer
  have hrec := isName_recordName key
  have hne : lead ++ recordName key ≠ lead ++ temporaryName key s.writer := fun he =>
    temporaryName_ne_recordName key key s.writer ((String.append_right_inj _).1 he).symm
  -- the temporary file is written first, then moved to the place of the record
  let r := s.record now key payload
  let prepared := t.withText (lead ++ temporaryName key s.writer) r.text
  have hkeep := Tree.keepsDirectories_withText hdtmp r.text
  have hfile : prepared.entries.get? (lead ++ temporaryName key s.writer) =
      some (.file (.text r.text)) := by
    simp only [prepared, Tree.withText, Dictionary.get?_insert, if_true]
  have hdrec' : prepared.entries.get? (lead ++ recordName key) ≠ some .directory := by
    simpa only [prepared, Tree.withText, Dictionary.get?_insert, if_neg hne] using hdrec
  have hwrite : s.prepare t r = .ok prepared :=
    prepare_of_write (ho.write_join htmp hfits hdtmp r.text)
  have hmove : s.commit prepared key = .ok ⟨(prepared.entries.erase
      (lead ++ temporaryName key s.writer)).insert (lead ++ recordName key)
      (.file (.text r.text))⟩ :=
    commit_of_rename
      ((ho.mono hkeep).rename_join htmp hrec hfits hfits.recordName hfile hdrec')
  refine ⟨_, keep_of_commit hwrite hmove, Tree.keepsDirectories_of_get? fun k hk => ?_, fun k => ?_⟩
  -- neither of the two names is that of a directory
  · have hktmp : k ≠ lead ++ temporaryName key s.writer := fun he => hdtmp (he ▸ hk)
    have hkrec : k ≠ lead ++ recordName key := fun he => hdrec (he ▸ hk)
    rw [show prepared.entries = t.entries.insert _ (.file (.text r.text)) from rfl, get?_moved,
      if_neg hkrec, if_neg hktmp, hk]
  · rw [show prepared.entries = t.entries.insert _ (.file (.text r.text)) from rfl, get?_moved]

/-- **An answer is kept.**  Its record is put in its place, and the directory goes on holding right
records. -/
theorem keep_spec {s : Store} (h : Holds right s.dir t) {key : String} {payload : Json}
    (hfits : Fits s.writer key) (hp : Record.Keepable payload) (hright : right key payload)
    (now : Instant) :
    ∃ u, s.keep t now key payload = (.ok (), ⟨s.remember key payload, u⟩) ∧
      Holds right s.dir u := by
  obtain ⟨-, lead, ho⟩ := Tree.isDirectory_iff.1 h.isDirectory
  have hdtmp := h.get?_ne_directory ho (isName_temporaryName key s.writer) hfits
  have hdrec := h.get?_ne_directory ho (isName_recordName key) hfits.recordName
  obtain ⟨u, hkeep, hdirs, hget⟩ := exists_keep ho hfits hdtmp hdrec now payload
  refine ⟨u, hkeep, h.change ho hdirs fun name _ => ?_⟩
  rw [hget]
  -- a record under this name is of this key, as different keys have different names
  by_cases hname : name = recordName key
  · refine .inr (.inr ⟨_, by rw [if_pos (hname ▸ rfl)], fun key' r' hk hread => ?_⟩)
    rw [← recordName_injective (hname.symm.trans hk), Record.payload_of_read_text hp hread]
    exact hright
  · rw [if_neg fun he => hname ((String.append_right_inj _).1 he)]
    split
    · exact .inr (.inl rfl)
    · exact .inl rfl

/-- An answer whose temporary file cannot be named is not kept, and nothing changes. -/
theorem keep_long {s : Store} (hd : t.isDirectory s.dir) {key : String}
    (hfits : ¬ Fits s.writer key) (now : Instant) (payload : Json) :
    s.keep t now key payload =
      (.error ⟨[], .file .write (s.temporaryPath key) .refused⟩, ⟨s, t⟩) := by
  obtain ⟨-, lead, ho⟩ := Tree.isDirectory_iff.1 hd
  have hlong : Tree.maxNameBytes < (temporaryName key s.writer).utf8ByteSize :=
    Nat.lt_of_not_le hfits
  have hrefused : t.write (s.temporaryPath key) (s.record now key payload).text =
      .error .refused := ho.write_join_long (isName_temporaryName key s.writer) hlong _
  have hwrite : s.prepare t (s.record now key payload) =
      .error ⟨[], .file .write (s.temporaryPath key) .refused⟩ := prepare_of_refused hrefused
  unfold keep
  rw [hwrite]

/-- Trying whether the directory can be written to leaves what it holds alone. -/
theorem checkWritable_spec {s : Store} (h : Holds right s.dir t) :
    ∃ u, s.checkWritable t = .ok u ∧ Holds right s.dir u := by
  obtain ⟨-, lead, ho⟩ := Tree.isDirectory_iff.1 h.isDirectory
  have hsize : probeName.utf8ByteSize ≤ Tree.maxNameBytes := by decide
  have hdir := h.get?_ne_directory ho isName_probeName hsize
  let tried := t.withText (lead ++ probeName) "ok"
  have hkeep := Tree.keepsDirectories_withText hdir "ok"
  have hfile : tried.entries.get? (lead ++ probeName) = some (.file (.text "ok")) := by
    simp only [tried, Tree.withText, Dictionary.get?_insert, if_true]
  have hdir' : tried.entries.get? (lead ++ probeName) ≠ some .directory := by
    rw [hfile]; exact fun h => by cases h
  have hremove := (ho.mono hkeep).remove_join isName_probeName hsize hfile
  refine ⟨⟨tried.entries.erase (lead ++ probeName)⟩, ?_, h.change ho
    (hkeep.trans (Tree.keepsDirectories_erase hdir')) fun name hn => ?_⟩
  · unfold checkWritable
    simp only [ho.write_join isName_probeName hsize hdir, Except.bind]
    rw [hremove]
    rfl
  · simp only [tried, Tree.withText, Dictionary.get?_erase, Dictionary.get?_insert]
    by_cases hname : lead ++ name = lead ++ probeName
    · exact .inr (.inl (if_pos hname))
    · rw [if_neg hname, if_neg hname]
      exact .inl rfl

/-- Right payloads belong to a question: they hold its answer, and the answer can be kept as one. -/
structure Answers (right : Right) (s : Store) (codec : Codec α) (key : String)
    (fetched : Except Failure α) : Prop where
  of_right : ∀ payload, right key payload →
    Fits s.writer key ∧ ∃ x, fetched = .ok x ∧ codec.decode payload = some x
  right_of : ∀ x, fetched = .ok x → Fits s.writer key →
    right key (codec.encode x).canonical ∧ Record.Keepable (codec.encode x).canonical

/-- A state of a cache that keeps only right payloads. -/
structure IsRight (right : Right) (state : State) : Prop where
  files : Holds right state.store.dir state.files
  memo : Remembers right state.store.memo

/-- Only what is remembered differs between two stores. -/
def SameButMemo (s s' : Store) : Prop := { s with memo := s'.memo } = s'

theorem SameButMemo.dir_eq {s s' : Store} (h : SameButMemo s s') : s.dir = s'.dir := by
  unfold SameButMemo at h
  rw [← h]

theorem SameButMemo.writer_eq {s s' : Store} (h : SameButMemo s s') : s.writer = s'.writer := by
  unfold SameButMemo at h
  rw [← h]

theorem SameButMemo.trans {s s' s'' : Store} (h : SameButMemo s s') (h' : SameButMemo s' s'') :
    SameButMemo s s'' := by
  unfold SameButMemo at h h' ⊢
  rw [← h', ← h]

theorem remembers_remember {s : Store} (h : Remembers right s.memo) {key : String} {payload : Json}
    (hp : right key payload) : Remembers right (s.remember key payload).memo := by
  intro k p hk
  rw [remember, Dictionary.get?_insert] at hk
  split at hk
  case isTrue he => cases hk; exact he ▸ hp
  case isFalse => exact h k p hk

variable {s : Store} {codec : Codec α} {key : String} {fetched : Except Failure α}

theorem answer_right (ha : Answers right s codec key fetched) {payload : Json}
    (hp : right key payload) :
    answer codec payload = s.verdict key fetched ∧ ∃ x, answer codec payload = .ok x := by
  obtain ⟨hfits, x, rfl, hx⟩ := ha.of_right payload hp
  simp only [answer, hx, verdict, hfits, if_true, true_and]
  exact ⟨x, rfl⟩

theorem serve_right (ha : Answers right s codec key fetched) {payload : Json}
    (hp : right key payload) :
    s.serve codec key payload = (s.verdict key fetched, s.remember key payload) := by
  obtain ⟨hv, x, hx⟩ := answer_right ha hp
  rw [serve, ← hv, hx]

theorem settle_spec (h : IsRight right ⟨s, t⟩) (ha : Answers right s codec key fetched)
    (now : Instant) {expired : Option Record} (he : ∀ r, expired = some r → right key r.payload) :
    (s.settle t now codec key expired fetched).1 = s.verdict key fetched ∧
      SameButMemo s (s.settle t now codec key expired fetched).2.store ∧
      IsRight right (s.settle t now codec key expired fetched).2 := by
  cases fetched with
  | ok x =>
      by_cases hfits : Fits s.writer key
      · obtain ⟨hright, hp⟩ := ha.right_of x rfl hfits
        obtain ⟨u, hkeep, hu⟩ := keep_spec h.files hfits hp hright now
        simp only [settle, hkeep, verdict, if_pos hfits]
        exact ⟨rfl, rfl, hu, remembers_remember h.memo hright⟩
      · simp only [settle, keep_long h.files.isDirectory hfits, verdict, if_neg hfits]
        exact ⟨rfl, rfl, h⟩
  | error e =>
      cases expired with
      | none =>
          have hnone : s.settle t now codec key none (.error e) = (.error e, ⟨s, t⟩) := by
            unfold settle
            cases s.stalePolicy <;> rfl
          rw [hnone]
          exact ⟨rfl, rfl, h⟩
      | some r =>
          -- a right record means that the question is answered
          obtain ⟨-, x, hx, -⟩ := ha.of_right r.payload (he r rfl)
          cases hx

theorem lookup_of_missed {now : Instant} {expired : Option Record}
    (h : s.consult t now codec key = .missed expired) :
    s.lookup t now codec key fetched =
      ⟨(s.settle t now codec key expired fetched).1, true,
        (s.settle t now codec key expired fetched).2⟩ := by
  rw [lookup, h]

theorem lookup_of_settled {now : Instant} {result : Except Failure α} {s' : Store}
    (h : s.consult t now codec key = .settled result s') :
    s.lookup t now codec key fetched = ⟨result, false, ⟨s', t⟩⟩ := by
  rw [lookup, h]

/-- Looking for an answer, by what is remembered and what the record says. -/
theorem consult_remembered (now : Instant) {payload : Json}
    (hmemo : s.memo.get? key = some payload) :
    s.consult t now codec key = .settled (answer codec payload) s := by
  simp only [consult, hmemo]

theorem consult_absent (now : Instant) (hmemo : s.memo.get? key = none)
    (hstored : s.stored? t key = none) : s.consult t now codec key = .missed none := by
  simp only [consult, hmemo, hstored]

theorem consult_recorded (codec : Codec α) (now : Instant) {r : Record}
    (hmemo : s.memo.get? key = none) (hstored : s.stored? t key = some r) :
    s.consult t now codec key =
      if r.isFresh now s.expiry then
        .settled (s.serve codec key r.payload).1 (s.serve codec key r.payload).2
      else .missed (some r) := by
  simp only [consult, hmemo, hstored]

/-- What is found is right, and so is a record that has expired. -/
theorem consult_spec (h : IsRight right ⟨s, t⟩) (ha : Answers right s codec key fetched)
    (now : Instant) :
    (∃ s', s.consult t now codec key = .settled (s.verdict key fetched) s' ∧ SameButMemo s s' ∧
      Remembers right s'.memo) ∨
    ∃ expired, s.consult t now codec key = .missed expired ∧
      ∀ r, expired = some r → right key r.payload := by
  cases hmemo : s.memo.get? key with
  | some payload =>
      have hanswer := (answer_right ha (h.memo key payload hmemo)).1
      rw [consult_remembered now hmemo, hanswer]
      exact .inl ⟨s, rfl, rfl, h.memo⟩
  | none =>
      cases hstored : s.stored? t key with
      | none =>
          rw [consult_absent now hmemo hstored]
          exact .inr ⟨none, rfl, fun r hr => by cases hr⟩
      | some r =>
          have hright := stored?_right h.files hstored
          rw [consult_recorded codec now hmemo hstored]
          by_cases hfresh : r.isFresh now s.expiry = true
          · rw [if_pos hfresh, serve_right ha hright]
            exact .inl ⟨_, rfl, rfl, remembers_remember h.memo hright⟩
          · rw [if_neg hfresh]
            exact .inr ⟨some r, rfl, fun r' hr => by cases hr; exact hright⟩

/-- **A look-up is transparent.**  It gives what it would give if nothing were kept, and keeps only
right payloads. -/
theorem lookup_spec (h : IsRight right ⟨s, t⟩) (ha : Answers right s codec key fetched)
    (now : Instant) :
    (s.lookup t now codec key fetched).result = s.verdict key fetched ∧
      SameButMemo s (s.lookup t now codec key fetched).state.store ∧
      IsRight right (s.lookup t now codec key fetched).state := by
  rcases consult_spec h ha now with ⟨s', hc, hsame, hmemo⟩ | ⟨expired, hc, hexp⟩
  · rw [lookup_of_settled hc]
    exact ⟨rfl, hsame, hsame.dir_eq ▸ h.files, hmemo⟩
  · rw [lookup_of_missed hc]
    exact settle_spec h ha now hexp

end Store

end RouteServer.Cache

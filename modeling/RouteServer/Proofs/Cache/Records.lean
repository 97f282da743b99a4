import RouteServer.Proofs.Cache.Ends

/-!
# Cache — the records of a directory

A cache takes for its records the files of its directory whose names end as names of records do
(`exists_recordPaths`).  Removing some of them leaves the others (`removes_of_removeAll`).

**Cleaning** (`kept_of_clearExpired`).  What cleaning keeps is listed and fresh, but only what a
record says of itself has been read.  A look-up reads more: it finds such a record just when its text
is full.

**Clearing** (`listed_iff_answered`).  In a directory that was empty, what a cache lists are the keys
to which it gave an answer, each once, and clearing removes their records — but for the key without
characters, whose file has no ending.
-/

namespace RouteServer.Cache

open RouteServer.Files RouteServer.Lookup RouteServer.Time

/-! ### Which files are records -/

/-- A name that ends as the names of records do. -/
structure IsRecordLike (name : String) : Prop extends IsName name where
  extension : (Path.splitExtension name).2 = some recordExtension

theorem isRecordLike_iff {name : String} :
    IsRecordLike name ↔ (name ≠ "" ∧ '/' ∉ name.toList) ∧
      (Path.splitExtension name).2 = some recordExtension := by
  refine ⟨fun h => ⟨⟨h.ne_empty, h.noSlash⟩, h.extension⟩, fun ⟨⟨hne, hslash⟩, hext⟩ => ?_⟩
  -- a dot and two dots have no such ending
  have hdot : name ≠ "." := by rintro rfl; exact absurd hext (by decide)
  have hdots : name ≠ ".." := by rintro rfl; exact absurd hext (by decide)
  exact ⟨⟨hslash, hne, hdot, hdots⟩, hext⟩

theorem isRecordLike_recordName_iff {key : String} : IsRecordLike (recordName key) ↔ key ≠ "" := by
  have hname := isName_recordName key
  rw [isRecordLike_iff, extension_recordName]
  by_cases h : key = "" <;> simp [h, hname.ne_empty, hname.noSlash]

namespace Store

variable {s : Store} {t : Tree} {lead : String}

/-- The paths of the records are those of the entries with such names. -/
theorem exists_recordPaths (ho : t.Opens s.dir lead) (hne : s.dir ≠ "") :
    ∃ ns : List String, s.recordPaths t = .ok (ns.map (Path.join s.dir)) ∧ ns.Nodup ∧ ∀ name,
      name ∈ ns ↔ IsRecordLike name ∧ (t.entries.get? (lead ++ name)).isSome := by
  have hdir : t.has s.dir = true := by
    have hd : t.isDirectory s.dir := Tree.isDirectory_iff.2 ⟨hne, lead, ho⟩
    rw [Tree.has, of_decide_eq_true hd]
    rfl
  obtain ⟨names, hnames, hnodup, hmem⟩ := ho.exists_names hne
  refine ⟨names.filter fun name => (Path.splitExtension name).2 = some recordExtension, ?_,
    hnodup.filter _, fun name => ?_⟩
  · rw [recordPaths, if_pos hdir, hnames]
  · rw [List.mem_filter, hmem, decide_eq_true_iff, isRecordLike_iff]
    tauto

/-- Without a directory there are no records. -/
theorem recordPaths_cases {paths : List String} (h : s.recordPaths t = .ok paths) :
    paths = [] ∧ t.has s.dir = false ∨ s.dir ≠ "" ∧ ∃ lead, t.Opens s.dir lead := by
  unfold recordPaths at h
  split at h
  · split at h
    case h_1 names hnames =>
        exact .inr (Tree.isDirectory_iff.1 (Tree.isDirectory_of_names hnames))
    case h_2 => cases h
  case isFalse hd => exact .inl ⟨(Except.ok.inj h).symm, by simpa using hd⟩

/-! ### Removing files -/

/-- What removing files does: it touches no others, and if it does not fail all of them are gone. -/
structure Removes (dir : String) (ns : List String) (t : Tree) (r : Except Failure Unit × Tree) :
    Prop where
  changes : Tree.ChangesOnly dir (· ∈ ns) t r.2
  gone : r.1 = .ok () → ∀ name ∈ ns, name.utf8ByteSize ≤ Tree.maxNameBytes ∧
    r.2.node? (Path.join dir name) = none

theorem removes_of_removeAll {dir : String} {ns : List String} (hns : ∀ name ∈ ns, IsName name)
    (t : Tree) : Removes dir ns t (removeAll (ns.map (Path.join dir)) t) := by
  induction ns generalizing t with
  | nil => exact ⟨.refl _ _ _, fun _ _ h => absurd h List.not_mem_nil⟩
  | cons name ns ih =>
      have hname := hns name List.mem_cons_self
      rw [List.map_cons, removeAll]
      cases hr : t.remove (Path.join dir name) with
      | error f => exact ⟨.refl _ _ _, nofun⟩
      | ok u =>
          obtain ⟨hchange, hnone⟩ := Tree.changesOnly_of_remove hname hr
          have hrest := ih (fun n hn => hns n (List.mem_cons_of_mem name hn)) u
          refine ⟨(hchange.mono ?_).trans (hrest.changes.mono ?_), fun hok n hn => ?_⟩
          · exact fun n hn => hn ▸ List.mem_cons_self
          · exact fun n hn => List.mem_cons_of_mem name hn
          by_cases hin : n ∈ ns
          · exact hrest.gone hok n hin
          · obtain rfl : n = name := (List.mem_cons.1 hn).resolve_right hin
            refine ⟨?_, (hrest.changes.node?_eq hname hin).trans hnone⟩
            cases hl : t.locate (Path.join dir n) with
            | error e => rw [Tree.remove, hl] at hr; cases hr
            | ok key =>
                obtain ⟨-, -, hsize, -⟩ := Tree.locate_join_eq_ok hname hl
                exact hsize

/-- Files that are there can be removed. -/
theorem removeAll_isOk {dir : String} {ns : List String} (hns : ∀ name ∈ ns, IsName name)
    (hnodup : ns.Nodup)
    (hfile : ∀ name ∈ ns, ∃ c, t.node? (Path.join dir name) = some (.file c)) :
    (removeAll (ns.map (Path.join dir)) t).1 = .ok () := by
  induction ns generalizing t with
  | nil => rfl
  | cons name ns ih =>
      obtain ⟨hnot, hnodup⟩ := List.nodup_cons.1 hnodup
      have hname := hns name List.mem_cons_self
      obtain ⟨c, hc⟩ := hfile name List.mem_cons_self
      obtain ⟨u, hu⟩ := Tree.exists_remove hc
      rw [List.map_cons, removeAll, hu]
      refine ih (fun n hn => hns n (List.mem_cons_of_mem name hn)) hnodup fun n hn => ?_
      have hne : n ≠ name := fun he => hnot (he ▸ hn)
      rw [(Tree.changesOnly_of_remove hname hu).1.node?_eq
        (hns n (List.mem_cons_of_mem name hn)) hne]
      exact hfile n (List.mem_cons_of_mem name hn)

/-- The entries once all files have been removed. -/
theorem Removes.get?_eq {dir lead : String} {ns : List String} {r : Except Failure Unit × Tree}
    (h : Removes dir ns t r) (hok : r.1 = .ok ()) (ho : t.Opens dir lead) {name : String}
    (hname : IsName name) :
    r.2.entries.get? (lead ++ name) =
      if name ∈ ns then none else t.entries.get? (lead ++ name) := by
  by_cases hin : name ∈ ns
  · obtain ⟨hsize, hnone⟩ := h.gone hok name hin
    rw [(h.changes.opens ho).node?_join hname, if_neg (Nat.not_lt.2 hsize)] at hnone
    rw [if_pos hin, hnone]
  · rw [if_neg hin]
    refine h.changes.entries _ fun n hn hmem hl => hin ?_
    rw [ho.locate_join hn] at hl
    split at hl
    · cases hl
    · exact (String.append_right_inj _).1 (Except.ok.inj hl) ▸ hmem

/-- The records that are left once files have been removed. -/
theorem Removes.exists_left {gone ns : List String} {r : Except Failure Unit × Tree}
    (h : Removes s.dir gone t r) (hok : r.1 = .ok ()) (ho : t.Opens s.dir lead) (hne : s.dir ≠ "")
    (hmem : ∀ name,
      name ∈ ns ↔ IsRecordLike name ∧ (t.entries.get? (lead ++ name)).isSome) :
    ∃ left : List String, s.recordPaths r.2 = .ok (left.map (Path.join s.dir)) ∧ left.Nodup ∧
      ∀ name, name ∈ left ↔ name ∈ ns ∧ name ∉ gone := by
  obtain ⟨left, hleft, hnodup, hmem'⟩ := exists_recordPaths (h.changes.opens ho) hne
  refine ⟨left, hleft, hnodup, fun name => ?_⟩
  rw [hmem', hmem]
  by_cases hlike : IsRecordLike name
  · rw [h.get?_eq hok ho hlike.toIsName]
    by_cases hin : name ∈ gone <;> simp [hin, hlike]
  · simp [hlike]

/-! ### Listing and cleaning -/

theorem list_perm {paths : List String} (h : s.recordPaths t = .ok paths) :
    ∃ infos, s.list t = .ok infos ∧ infos.Perm (paths.filterMap (info? t)) := by
  refine ⟨_, ?_, List.mergeSort_perm _ fun a b => !a.cachedAt.isBefore b.cachedAt⟩
  simp only [list, h, bind, Except.bind]

/-- A record is kept when what it says of itself can be read, and is fresh. -/
theorem isKept_iff {now : Instant} {path : String} :
    s.isKept t now path = true ↔ ∃ text info, t.node? path = some (.file (.text text)) ∧
      RecordInfo.read text = some info ∧ info.isFresh now s.expiry = true := by
  unfold isKept info?
  simp only [← Tree.read_eq_ok_iff]
  cases t.read path with
  | error f => simp [Except.toOption]
  | ok text => simp [Except.toOption, Option.any_eq_true]

/-- What cleaning does. -/
theorem clearExpired_eq {now : Instant} {paths : List String} (h : s.recordPaths t = .ok paths) :
    s.clearExpired t now =
      ((removeAll (paths.filter fun path => !s.isKept t now path) t).1.map fun _ =>
          (paths.filter fun path => !s.isKept t now path).length,
        ⟨s, (removeAll (paths.filter fun path => !s.isKept t now path) t).2⟩) := by
  simp only [clearExpired, h]

/-- Which files cleaning removes. -/
theorem removes_of_clearExpired (now : Instant) {ns : List String}
    (hns : ∀ name ∈ ns, IsName name) (h : s.recordPaths t = .ok (ns.map (Path.join s.dir))) :
    ∃ r, s.clearExpired t now =
        (r.1.map fun _ => (ns.filter fun name => !s.isKept t now (Path.join s.dir name)).length,
          ⟨s, r.2⟩) ∧
      Removes s.dir (ns.filter fun name => !s.isKept t now (Path.join s.dir name)) t r := by
  have hfilter : (ns.map (Path.join s.dir)).filter (fun path => !s.isKept t now path) =
      (ns.filter fun name => !s.isKept t now (Path.join s.dir name)).map (Path.join s.dir) := by
    rw [List.filter_map]
    rfl
  refine ⟨_, ?_, removes_of_removeAll (fun name hn => hns name (List.mem_of_mem_filter hn)) t⟩
  rw [clearExpired_eq h, hfilter, List.length_map]

/-- What is left when cleaning did not fail. -/
theorem recordPaths_of_clearExpired {now : Instant} {paths : List String}
    (h : s.recordPaths t = .ok paths) {n : Nat} (hok : (s.clearExpired t now).1 = .ok n) :
    ∃ left, s.recordPaths (s.clearExpired t now).2.files = .ok left ∧
      n + left.length = paths.length ∧
      ∀ path, path ∈ left ↔ path ∈ paths ∧ s.isKept t now path = true := by
  rcases recordPaths_cases h with ⟨rfl, hd⟩ | ⟨hne, lead, ho⟩
  · have hnone : s.clearExpired t now = (.ok 0, ⟨s, t⟩) := clearExpired_eq h
    rw [hnone] at hok ⊢
    cases hok
    exact ⟨[], h, rfl, by simp⟩
  · obtain ⟨ns, hns, hnodup, hmem⟩ := exists_recordPaths ho hne
    cases h.symm.trans hns
    have hname : ∀ name ∈ ns, IsName name := fun name hn => ((hmem name).1 hn).1.toIsName
    obtain ⟨r, hclear, hremoves⟩ := removes_of_clearExpired now hname hns
    rw [hclear] at hok ⊢
    cases hr : r.1 with
    | error e => rw [hr] at hok; cases hok
    | ok _ =>
        rw [hr] at hok
        cases hok
        obtain ⟨kept, hkept, hnodup', hmem'⟩ := hremoves.exists_left hr ho hne hmem
        have hperm : kept.Perm (ns.filter fun name => s.isKept t now (Path.join s.dir name)) := by
          refine (List.perm_ext_iff_of_nodup hnodup' (hnodup.filter _)).2 fun name => ?_
          rw [hmem', List.mem_filter, List.mem_filter]
          by_cases hk : s.isKept t now (Path.join s.dir name) <;> simp [hk]
        have hpaths : (kept.map (Path.join s.dir)).Perm
            ((ns.map (Path.join s.dir)).filter (s.isKept t now)) := by
          rw [List.filter_map]
          exact hperm.map _
        refine ⟨_, hkept, ?_, fun path => by rw [hpaths.mem_iff, List.mem_filter]⟩
        have := List.length_eq_length_filter_add (l := ns)
          fun name => s.isKept t now (Path.join s.dir name)
        simp only [List.length_map, hperm.length_eq]
        omega

/-- What clearing does when all records can be removed. -/
theorem clearAll_eq {paths : List String} {u : Tree} (h : s.recordPaths t = .ok paths)
    (hu : removeAll paths t = (.ok (), u)) :
    s.clearAll t = (.ok paths.length, ⟨{ s with memo := .empty }, u⟩) := by
  simp only [clearAll, h, hu]

/-- What is kept is left alone. -/
theorem node?_of_clearExpired {now : Instant} {paths : List String}
    (h : s.recordPaths t = .ok paths) {name : String} (hn : IsName name)
    (hkept : s.isKept t now (Path.join s.dir name) = true) :
    (s.clearExpired t now).2.files.node? (Path.join s.dir name) =
      t.node? (Path.join s.dir name) := by
  rcases recordPaths_cases h with ⟨rfl, hd⟩ | ⟨hne, lead, ho⟩
  · rw [clearExpired_eq h]
    rfl
  · obtain ⟨ns, hns, -, hmem⟩ := exists_recordPaths ho hne
    obtain ⟨r, hclear, hremoves⟩ := removes_of_clearExpired now
      (fun name hn => ((hmem name).1 hn).1.toIsName) hns
    rw [hclear]
    exact hremoves.changes.node?_eq hn fun hin => by simp [hkept] at hin

/-- A cache that remembers nothing under a key finds the record in a text that is fresh for it just
when the text is full. -/
theorem fetched_of_info {store : Store} {files : Tree} {key text : String} {info : RecordInfo}
    {now : Instant} (hmemo : store.memo.get? key = none)
    (hnode : files.node? (Path.join store.dir (recordName key)) = some (.file (.text text)))
    (hinfo : RecordInfo.read text = some info) (hfresh : info.isFresh now store.expiry = true)
    {α : Type} (codec : Codec α) (fetch : Except Failure α) :
    (store.lookup files now codec key fetch).fetched = false ↔ Record.IsFull text := by
  have hstored : ∀ r, store.stored? files key = some r ↔ Record.read text = some r := fun r => by
    rw [stored?_eq_some_iff, hnode]
    simp
  rw [← Bool.not_eq_true, fetched_lookup_iff (s := ⟨store, files⟩) hmemo, not_forall]
  simp only [not_not, State.HasFresh, State.stored?, hstored]
  constructor
  · rintro ⟨r, hr, -⟩
    exact (Record.info_of_read hr).2
  · intro hfull
    obtain ⟨r, hr, rfl⟩ := Record.read_of_isFull hinfo hfull
    exact ⟨r, hr, hfresh⟩

/-- **What cleaning keeps.**  When cleaning does not fail, what is left are the records that say of
themselves that they are fresh, and it gives the number of the others.  The record of a key among them
is listed, and cleaning leaves it alone whether it fails or not.  A look-up of the key reads more of
the record: any cache of the directory that remembers nothing under the key, and for which the record
is fresh, finds it without fetching just when its text is full. -/
theorem kept_of_clearExpired (s : Store) (t : Tree) (now : Instant) {paths : List String}
    (h : s.recordPaths t = .ok paths) :
    (∀ n, (s.clearExpired t now).1 = .ok n →
      ∃ left, s.recordPaths (s.clearExpired t now).2.files = .ok left ∧
        n + left.length = paths.length ∧
        ∀ path, path ∈ left ↔ path ∈ paths ∧ s.isKept t now path = true) ∧
    ∀ key, s.recordPath key ∈ paths → s.isKept t now (s.recordPath key) = true →
      ∃ text info infos, t.read (s.recordPath key) = .ok text ∧
        RecordInfo.read text = some info ∧ info.isFresh now s.expiry = true ∧
        s.list t = .ok infos ∧ info ∈ infos ∧
        (s.clearExpired t now).2.files.read (s.recordPath key) = .ok text ∧
        ∀ (other : Store) (later : Instant) (α : Type) (codec : Codec α) (fetch : Except Failure α),
          other.dir = s.dir → other.memo.get? key = none →
          info.isFresh later other.expiry = true →
          ((other.lookup (s.clearExpired t now).2.files later codec key fetch).fetched = false ↔
            Record.IsFull text) := by
  refine ⟨fun n hok => recordPaths_of_clearExpired h hok, fun key hlisted hkept => ?_⟩
  obtain ⟨text, info, hnode, hinfo, hfresh⟩ := isKept_iff.1 hkept
  obtain ⟨infos, hlist, hperm⟩ := list_perm h
  have hname := isName_recordName key
  have hleft : (s.clearExpired t now).2.files.node? (s.recordPath key) =
      some (.file (.text text)) := (node?_of_clearExpired h hname hkept).trans hnode
  have hread : t.read (s.recordPath key) = .ok text := Tree.read_eq_ok_iff.2 hnode
  have hinfo? : info? t (s.recordPath key) = some info := by
    rw [info?, hread]
    exact hinfo
  refine ⟨text, info, infos, hread, hinfo, hfresh, hlist,
    hperm.mem_iff.2 (List.mem_filterMap.2 ⟨_, hlisted, hinfo?⟩), Tree.read_eq_ok_iff.2 hleft,
    fun other later α codec fetch hdir hmemo hlater => ?_⟩
  rw [recordPath, ← hdir] at hleft
  exact fetched_of_info hmemo hleft hinfo hlater codec fetch

end Store

/-- A record of a number that is fresh. -/
def fullRecord : State :=
  sampleState ("\x7b\"key\":\"k\",\"cached_at\":\"2000-01-01T00:00:00Z\",\"expiry_secs\":60," ++
    "\"payload\":1\x7d")

theorem kept_of_clearExpired_fullRecord :
    (fullRecord.store.clearExpired fullRecord.files ⟨1600000000, 0⟩).1 = .ok 0 ∧
      ∃ text, fullRecord.files.read "c/k.json" = .ok text ∧ Record.IsFull text := by
  have hpaths : fullRecord.store.recordPaths fullRecord.files = .ok ["c/k.json"] := by
    decide +kernel
  have hfetched : (fullRecord.store.lookup
      (fullRecord.store.clearExpired fullRecord.files ⟨1600000000, 0⟩).2.files ⟨1600000000, 0⟩
      Codec.uint32 "k" (.ok 7)).fetched = false := by decide +kernel
  refine ⟨by decide +kernel, ?_⟩
  obtain ⟨text, info, -, hread, -, hfresh, -, -, -, hlookup⟩ :=
    (Store.kept_of_clearExpired fullRecord.store fullRecord.files ⟨1600000000, 0⟩ hpaths).2 "k"
      (by decide +kernel) (by decide +kernel)
  exact ⟨text, hread, (hlookup fullRecord.store ⟨1600000000, 0⟩ UInt32 Codec.uint32 (.ok 7) rfl rfl
    hfresh).1 hfetched⟩

/-- A record that is fresh but holds nothing. -/
def payloadless : State :=
  sampleState
    "\x7b\"key\":\"k\",\"cached_at\":\"2000-01-01T00:00:00Z\",\"expiry_secs\":60\x7d"

/-- Cleaning keeps such a record, and it is listed; but no look-up can read it. -/
theorem not_found_payloadless :
    payloadless.store.isKept payloadless.files ⟨1600000000, 0⟩ "c/k.json" = true ∧
      (payloadless.store.clearExpired payloadless.files ⟨1600000000, 0⟩).1 = .ok 0 ∧
      payloadless.store.list
          (payloadless.store.clearExpired payloadless.files ⟨1600000000, 0⟩).2.files =
        .ok [⟨"k", ⟨946684800, 0⟩, 60⟩] ∧
      (payloadless.store.lookup
        (payloadless.store.clearExpired payloadless.files ⟨1600000000, 0⟩).2.files ⟨1600000000, 0⟩
        Codec.uint32 "k" (.ok 7)).fetched = true := by
  refine ⟨?_, ?_, ?_, ?_⟩ <;> decide +kernel

/-! ### A cache over a directory that was empty -/

namespace State

/-- The state after some calls. -/
def after (s : State) : List Call → State
  | [] => s
  | c :: calls => (c.lookup s).state.after calls

/-- One of the calls gives an answer to a key. -/
def Answered (s : State) : List Call → String → Prop
  | [], _ => False
  | c :: calls, key =>
    (c.key = key ∧ ∃ x, (c.lookup s).result = .ok x) ∨ (c.lookup s).state.Answered calls key

/-- The files of the directory are the records of what is remembered. -/
structure Recorded (lead : String) (s : State) : Prop where
  opens : s.files.Opens s.store.dir lead
  dir_ne : s.store.dir ≠ ""
  record : ∀ key payload, s.store.memo.get? key = some payload →
    Fits s.store.writer key ∧ ∃ now : Instant, now.IsShown ∧
      s.files.entries.get? (lead ++ recordName key) =
        some (.file (.text (s.store.record now key payload).text))
  only : ∀ name, IsName name → (s.files.entries.get? (lead ++ name)).isSome →
    ∃ key, name = recordName key ∧ (s.store.memo.get? key).isSome

variable {s : State} {lead : String}

/-- There is nothing under the name of the record of a key that is not remembered. -/
theorem Recorded.get?_eq_none (h : s.Recorded lead) {key : String}
    (hmemo : s.store.memo.get? key = none) :
    s.files.entries.get? (lead ++ recordName key) = none := by
  refine Option.not_isSome_iff_eq_none.1 fun hs => ?_
  obtain ⟨key', hkey, hmemo'⟩ := h.only _ (isName_recordName key) hs
  rw [← recordName_injective hkey, hmemo] at hmemo'
  cases hmemo'

theorem Recorded.stored?_eq_none (h : s.Recorded lead) {key : String}
    (hmemo : s.store.memo.get? key = none) : s.stored? key = none := by
  refine Option.eq_none_iff_forall_not_mem.2 fun r hr => ?_
  obtain ⟨text, hnode, -⟩ := Store.stored?_eq_some_iff.1 hr
  rw [h.opens.node?_join (isName_recordName key), h.get?_eq_none hmemo] at hnode
  split at hnode <;> cases hnode

/-- What is new in a memo to which an answer is added. -/
theorem isSome_memo_remember (s : Store) (key key' : String) (payload : Json) :
    ((s.remember key payload).memo.get? key').isSome ↔
      (s.memo.get? key').isSome ∨ key = key' := by
  rw [Store.remember, Dictionary.get?_insert]
  by_cases h : key' = key
  · simp [h]
  · simp [h, Ne.symm h]

/-- An answer is kept in a record, or cannot be. -/
theorem Recorded.keep (h : s.Recorded lead) {key : String} (hmemo : s.store.memo.get? key = none)
    {now : Instant} (hnow : now.IsShown) (payload : Json) :
    (∃ u, s.store.keep s.files now key payload = (.ok (), ⟨s.store.remember key payload, u⟩) ∧
      Recorded lead ⟨s.store.remember key payload, u⟩) ∨
    ∃ e, s.store.keep s.files now key payload = (.error e, s) := by
  have hdir : s.files.isDirectory s.store.dir := Tree.isDirectory_iff.2 ⟨h.dir_ne, lead, h.opens⟩
  by_cases hfits : Fits s.store.writer key
  case neg => exact .inr ⟨_, Store.keep_long hdir hfits now payload⟩
  -- nothing stands in the way of the two files
  have htmp : s.files.entries.get? (lead ++ temporaryName key s.store.writer) ≠
      some .directory := by
    intro he
    obtain ⟨key', hkey, -⟩ :=
      h.only _ (isName_temporaryName key s.store.writer) (by rw [he]; rfl)
    exact temporaryName_ne_recordName key key' s.store.writer hkey
  have hrec : s.files.entries.get? (lead ++ recordName key) ≠ some .directory := by
    rw [h.get?_eq_none hmemo]
    nofun
  obtain ⟨u, hkeep, hdirs, hget⟩ := Store.exists_keep h.opens hfits htmp hrec now payload
  refine .inl ⟨u, hkeep, h.opens.mono hdirs, h.dir_ne, fun key' payload' hp => ?_,
    fun name hn hs => ?_⟩
  · rw [Store.remember, Dictionary.get?_insert] at hp
    split at hp
    case isTrue he =>
        subst he
        cases hp
        exact ⟨hfits, now, hnow, by rw [hget, if_pos rfl]; rfl⟩
    case isFalse hne =>
        obtain ⟨hfits', now', hnow', hfile⟩ := h.record key' payload' hp
        have hrecord : recordName key' ≠ recordName key := fun he => hne (recordName_injective he)
        refine ⟨hfits', now', hnow', ?_⟩
        rw [hget, if_neg fun he => hrecord ((String.append_right_inj _).1 he),
          if_neg fun he => temporaryName_ne_recordName key key' s.store.writer
            ((String.append_right_inj _).1 he).symm]
        exact hfile
  · rw [hget] at hs
    by_cases hname : name = recordName key
    · exact ⟨key, hname, (isSome_memo_remember s.store key key payload).2 (.inr rfl)⟩
    · rw [if_neg fun he => hname ((String.append_right_inj _).1 he)] at hs
      split at hs
      · cases hs
      · obtain ⟨key', hkey', hmemo'⟩ := h.only name hn hs
        exact ⟨key', hkey', (isSome_memo_remember s.store key key' payload).2 (.inl hmemo')⟩

/-- **What a look-up preserves**: the directory holds the records of what is remembered, and what is
remembered are the answers that were given. -/
theorem Recorded.lookup (h : s.Recorded lead) {c : Call} (hnow : c.now.IsShown) :
    (c.lookup s).state.Recorded lead ∧ s.store.SameButMemo (c.lookup s).state.store ∧
      ∀ key, ((c.lookup s).state.store.memo.get? key).isSome ↔
        (c.key = key ∧ ∃ x, (c.lookup s).result = .ok x) ∨ (s.store.memo.get? key).isSome := by
  have hends := c.ends_lookup s
  generalize c.lookup s = o at hends ⊢
  cases hends with
  | remembered payload hp =>
      refine ⟨h, rfl, fun key => ⟨.inr, ?_⟩⟩
      rintro (⟨rfl, -⟩ | hk)
      · exact Option.isSome_iff_exists.2 ⟨payload, hp⟩
      · exact hk
  | fresh r hmemo hr =>
      have hstored := hr.1
      rw [h.stored?_eq_none hmemo] at hstored
      cases hstored
  | stale r e hmemo hstored =>
      rw [h.stored?_eq_none hmemo] at hstored
      cases hstored
  | failed e => exact ⟨h, rfl, fun key => by simp⟩
  | fetched x hmemo =>
      rcases h.keep hmemo hnow (Phase.payload c.codec x) with ⟨u, hkeep, hu⟩ | ⟨e, hkeep⟩
      · rw [hkeep]
        refine ⟨hu, rfl, fun key => ?_⟩
        rw [isSome_memo_remember, or_comm]
        exact or_congr_left ⟨fun hk => ⟨hk, x, rfl⟩, And.left⟩
      · rw [hkeep]
        exact ⟨h, rfl, fun key => by simp [Except.map]⟩

/-- **What calls preserve.** -/
theorem Recorded.after (h : s.Recorded lead) {calls : List Call}
    (hnow : ∀ c ∈ calls, c.now.IsShown) :
    (s.after calls).Recorded lead ∧ s.store.SameButMemo (s.after calls).store ∧
      ∀ key, ((s.after calls).store.memo.get? key).isSome ↔
        s.Answered calls key ∨ (s.store.memo.get? key).isSome := by
  induction calls generalizing s with
  | nil => exact ⟨h, rfl, fun key => by simp [State.after, Answered]⟩
  | cons c calls ih =>
      obtain ⟨hc, hsame, hmemo⟩ := h.lookup (hnow c List.mem_cons_self)
      obtain ⟨hrest, hsame', hmemo'⟩ := ih hc fun d hd => hnow d (List.mem_cons_of_mem c hd)
      refine ⟨hrest, hsame.trans hsame', fun key => ?_⟩
      rw [State.after, hmemo', hmemo, Answered]
      tauto

/-- The records of the directory are those of what is remembered, without the key that has no
characters. -/
theorem Recorded.isRecord_iff (h : s.Recorded lead) (name : String) :
    IsRecordLike name ∧ (s.files.entries.get? (lead ++ name)).isSome ↔
      ∃ key, name = recordName key ∧ key ≠ "" ∧ (s.store.memo.get? key).isSome := by
  constructor
  · rintro ⟨hlike, hs⟩
    obtain ⟨key, rfl, hmemo⟩ := h.only name hlike.toIsName hs
    exact ⟨key, rfl, isRecordLike_recordName_iff.1 hlike, hmemo⟩
  · rintro ⟨key, rfl, hkey, hmemo⟩
    obtain ⟨payload, hp⟩ := Option.isSome_iff_exists.1 hmemo
    obtain ⟨-, now, -, hfile⟩ := h.record key payload hp
    exact ⟨isRecordLike_recordName_iff.2 hkey, by rw [hfile]; rfl⟩

/-- What is remembered under a key has its record in a file. -/
theorem Recorded.node? (h : s.Recorded lead) {key : String} {payload : Json}
    (hp : s.store.memo.get? key = some payload) :
    ∃ now : Instant, now.IsShown ∧ s.files.node? (Path.join s.store.dir (recordName key)) =
      some (.file (.text (s.store.record now key payload).text)) := by
  obtain ⟨hfits, now, hnow, hfile⟩ := h.record key payload hp
  refine ⟨now, hnow, ?_⟩
  rw [h.opens.node?_join (isName_recordName key), if_neg (Nat.not_lt.2 hfits.recordName), hfile]

/-- What is remembered under a key has a record that says so. -/
theorem Recorded.info? (h : s.Recorded lead)
    (hexpiry : s.store.expiry.seconds ≤ Text.maxWord64) {key : String}
    (hmemo : (s.store.memo.get? key).isSome) :
    ∃ info, Store.info? s.files (Path.join s.store.dir (recordName key)) = some info ∧
      info.key = key := by
  obtain ⟨payload, hp⟩ := Option.isSome_iff_exists.1 hmemo
  obtain ⟨now, hnow, hnode⟩ := h.node? hp
  have hinfo : RecordInfo.read (s.store.record now key payload).text =
      some (s.store.record now key payload).toRecordInfo := Record.info_of_text hnow hexpiry
  refine ⟨(s.store.record now key payload).toRecordInfo, ?_, rfl⟩
  rw [Store.info?, Tree.read_eq_ok_iff.2 hnode, Except.toOption, Option.bind_some, hinfo]

/-- Records that say of which key they are give back the names of their files. -/
theorem map_recordName {dir : String} {t : Tree} {ns : List String}
    (h : ∀ name ∈ ns, ∃ info, Store.info? t (Path.join dir name) = some info ∧
      recordName info.key = name) :
    ((ns.map (Path.join dir)).filterMap (Store.info? t)).map (fun info => recordName info.key) =
      ns := by
  induction ns with
  | nil => rfl
  | cons name ns ih =>
      obtain ⟨info, hinfo, hname⟩ := h name List.mem_cons_self
      rw [List.map_cons, List.filterMap_cons_some hinfo, List.map_cons, hname,
        ih fun n hn => h n (List.mem_cons_of_mem name hn)]

/-- **What is listed** are the keys of what is remembered, each once. -/
theorem Recorded.list (h : s.Recorded lead)
    (hexpiry : s.store.expiry.seconds ≤ Text.maxWord64) :
    ∃ infos, s.store.list s.files = .ok infos ∧ (infos.map (·.key)).Nodup ∧
      (∀ key, key ∈ infos.map (·.key) ↔ key ≠ "" ∧ (s.store.memo.get? key).isSome) ∧
      ∃ paths, s.store.recordPaths s.files = .ok paths ∧ paths.length = infos.length := by
  obtain ⟨ns, hns, hnodup, hmem⟩ := Store.exists_recordPaths h.opens h.dir_ne
  simp only [h.isRecord_iff] at hmem
  obtain ⟨infos, hlist, hperm⟩ := Store.list_perm hns
  have hnames : (infos.map fun info => recordName info.key).Perm ns := by
    refine (hperm.map _).trans (.of_eq (map_recordName fun name hn => ?_))
    obtain ⟨key, rfl, -, hmemo⟩ := (hmem name).1 hn
    obtain ⟨info, hinfo, rfl⟩ := h.info? hexpiry hmemo
    exact ⟨info, hinfo, rfl⟩
  have hkeys : (infos.map fun info => recordName info.key) =
      (infos.map (·.key)).map recordName := by
    rw [List.map_map]
    rfl
  rw [hkeys] at hnames
  refine ⟨infos, hlist, .of_map recordName (hnames.nodup_iff.2 hnodup), fun key => ?_,
    _, hns, ?_⟩
  · rw [← List.mem_map_of_injective recordName_injective, hnames.mem_iff, hmem]
    constructor
    · rintro ⟨key', he, hkey⟩
      exact recordName_injective he ▸ hkey
    · exact fun hkey => ⟨key, rfl, hkey⟩
  · rw [List.length_map, ← hnames.length_eq, List.length_map, List.length_map]

/-- The state once all records have been removed and everything is forgotten. -/
def cleared (s : State) (files : Tree) : State := ⟨{ s.store with memo := .empty }, files⟩

/-- **What clearing does**: it removes all records but that of the key without characters. -/
theorem Recorded.clearAll (h : s.Recorded lead) :
    ∃ paths u, s.store.recordPaths s.files = .ok paths ∧
      s.store.clearAll s.files = (.ok paths.length, s.cleared u) ∧
      (s.cleared u).store.recordPaths u = .ok [] ∧
      ∀ key, u.node? (Path.join s.store.dir (recordName key)) =
        if key = "" then s.files.node? (Path.join s.store.dir (recordName key)) else none := by
  obtain ⟨ns, hns, hnodup, hlike⟩ := Store.exists_recordPaths h.opens h.dir_ne
  have hmem := fun name => (hlike name).trans (h.isRecord_iff name)
  have hname : ∀ name ∈ ns, IsName name := fun name hn => ((hlike name).1 hn).1.toIsName
  obtain ⟨u, hu⟩ : ∃ u, Store.removeAll (ns.map (Path.join s.store.dir)) s.files = (.ok (), u) := by
    refine ⟨_, Prod.ext (Store.removeAll_isOk hname hnodup fun name hn => ?_) rfl⟩
    obtain ⟨key, rfl, -, hmemo⟩ := (hmem name).1 hn
    obtain ⟨payload, hp⟩ := Option.isSome_iff_exists.1 hmemo
    obtain ⟨now, -, hnode⟩ := h.node? hp
    exact ⟨_, hnode⟩
  have hremoves : Store.Removes s.store.dir ns s.files (.ok (), u) :=
    hu ▸ Store.removes_of_removeAll hname s.files
  have hopens : u.Opens s.store.dir lead := hremoves.changes.opens h.opens
  have hget : ∀ name, IsName name → u.entries.get? (lead ++ name) =
      if name ∈ ns then none else s.files.entries.get? (lead ++ name) :=
    fun name hn => hremoves.get?_eq rfl h.opens hn
  refine ⟨_, u, hns, Store.clearAll_eq hns hu, ?_, fun key => ?_⟩
  · obtain ⟨left, hleft, -, hmem'⟩ := Store.Removes.exists_left (s := (s.cleared u).store)
      hremoves rfl h.opens h.dir_ne hlike
    have hnil : left = [] := List.eq_nil_iff_forall_not_mem.2 fun name hn =>
      ((hmem' name).1 hn).2 ((hmem' name).1 hn).1
    rw [hleft, hnil]
    rfl
  · have hrecord := isName_recordName key
    rw [hopens.node?_join hrecord, h.opens.node?_join hrecord, hget _ hrecord]
    have hin : recordName key ∈ ns ↔ key ≠ "" ∧ (s.store.memo.get? key).isSome := by
      rw [hmem]
      exact ⟨fun ⟨key', he, hkey⟩ => recordName_injective he ▸ hkey, fun hkey => ⟨key, rfl, hkey⟩⟩
    by_cases hkey : key = ""
    · rw [if_pos hkey, if_neg fun hn => (hin.1 hn).1 hkey]
    · cases hmemo : s.store.memo.get? key with
      | none => simp [hin, hkey, hmemo, h.get?_eq_none hmemo]
      | some payload => simp [hin, hkey, hmemo]

/-- A cache that remembers nothing, over an empty directory. -/
theorem recorded_of_empty {store : Store} {t : Tree} (hempty : t.names store.dir = .ok [])
    (hmemo : store.memo = .empty) : ∃ lead, Recorded lead ⟨store, t⟩ := by
  obtain ⟨lead, ho, -, hnames⟩ := Tree.opens_of_names hempty
  refine ⟨lead, ho, (Tree.isDirectory_iff.1 (Tree.isDirectory_of_names hempty)).1,
    fun key payload hp => ?_, fun name hn hs => ?_⟩
  · rw [show (State.mk store t).store.memo = .empty from hmemo] at hp
    cases hp
  · exact absurd ((hnames name).2 ⟨hn.ne_empty, hn.noSlash, hs⟩) List.not_mem_nil

/-- A look-up in a cache that has been cleared finds what is left. -/
theorem fetched_cleared_iff {u : Tree} (c : Call) :
    (c.lookup (s.cleared u)).fetched = true ↔
      ∀ r, s.store.stored? u c.key = some r → r.isFresh c.now s.store.expiry = false := by
  rw [Call.lookup, fetched_lookup_iff (Dictionary.get?_empty c.key)]
  simp only [HasFresh, not_and, Bool.not_eq_true]
  rfl

end State

/-- **What is listed and cleared.**  After any calls of a cache over a directory that was empty, the
cache lists the keys to which it gave an answer, each once, but not the key without characters.
Clearing gives the number of those that are listed and leaves none, and then every such key is
fetched again.  The record of the key without characters stays in its file, and is found as long as it
is fresh. -/
theorem listed_iff_answered {store : Store} {t : Tree} (hempty : t.names store.dir = .ok [])
    (hmemo : store.memo = .empty) (hexpiry : store.expiry.seconds ≤ Text.maxWord64)
    {calls : List Call} (hnow : ∀ c ∈ calls, c.now.IsShown) :
    let s := State.after ⟨store, t⟩ calls
    ∃ infos u, s.store.list s.files = .ok infos ∧ (infos.map (·.key)).Nodup ∧
      (∀ key, key ∈ infos.map (·.key) ↔ key ≠ "" ∧ State.Answered ⟨store, t⟩ calls key) ∧
      s.store.clearAll s.files = (.ok infos.length, s.cleared u) ∧
      (s.cleared u).store.list u = .ok [] ∧
      (∀ c : Call, c.key ≠ "" → (c.lookup (s.cleared u)).fetched = true) ∧
      (State.Answered ⟨store, t⟩ calls "" → ∃ text, u.read (s.store.recordPath "") = .ok text) ∧
      ∀ c : Call, c.key = "" → ((c.lookup (s.cleared u)).fetched = true ↔
        ∀ r, s.stored? "" = some r → r.isFresh c.now store.expiry = false) := by
  intro s
  obtain ⟨lead, hstart⟩ := State.recorded_of_empty hempty hmemo
  obtain ⟨hs, hsame, hanswered⟩ := hstart.after hnow
  have hexpiry_eq : s.store.expiry = store.expiry := hsame.expiry_eq.symm
  have hkeys : ∀ key, (s.store.memo.get? key).isSome ↔ State.Answered ⟨store, t⟩ calls key := by
    intro key
    have hnone : (State.mk store t).store.memo.get? key = none := by
      rw [show (State.mk store t).store.memo = .empty from hmemo]
      rfl
    rw [hanswered, hnone]
    simp
  obtain ⟨infos, hlist, hnodup, hmem, paths, hpaths, hlength⟩ := hs.list (hexpiry_eq ▸ hexpiry)
  obtain ⟨paths', u, hpaths', hclear, hnothing, hnodes⟩ := hs.clearAll
  cases hpaths.symm.trans hpaths'
  have hstored : ∀ key, s.store.stored? u key = if key = "" then s.stored? "" else none := by
    intro key
    refine Option.ext fun r => ?_
    rw [Store.stored?_eq_some_iff, hnodes]
    by_cases hkey : key = ""
    · rw [if_pos hkey, if_pos hkey, hkey, State.stored?, Store.stored?_eq_some_iff]
    · simp [hkey]
  refine ⟨infos, u, hlist, hnodup, fun key => by rw [hmem, hkeys], hlength ▸ hclear, ?_,
    fun c hc => ?_, fun hgiven => ?_, fun c hc => ?_⟩
  · obtain ⟨none', hnone', hperm⟩ := Store.list_perm hnothing
    rw [hnone', hperm.eq_nil]
  · rw [State.fetched_cleared_iff, hstored, if_neg hc]
    intro r hr
    cases hr
  · obtain ⟨payload, hp⟩ := Option.isSome_iff_exists.1 ((hkeys "").2 hgiven)
    obtain ⟨now, -, hnode⟩ := hs.node? hp
    have hleft := hnodes ""
    rw [if_pos rfl, hnode] at hleft
    exact ⟨_, Tree.read_eq_ok_iff.2 hleft⟩
  · rw [State.fetched_cleared_iff, hstored, if_pos hc, hexpiry_eq]

/-- An empty cache that keeps its records for an hour. -/
def emptyCache : State :=
  ⟨{ dir := "c", expiry := .ofSeconds 3600, stalePolicy := .fail }, ⟨.ofList [("c", .directory)]⟩⟩

/-- A call of a key that fetches a number. -/
def numberCall (key : String) : Call := ⟨UInt32, Codec.uint32, key, ⟨1600000000, 0⟩, .ok 7⟩

/-- Two keys are listed after three calls, and are fetched again once they have been cleared. -/
theorem listed_iff_answered_twice :
    let s := emptyCache.after [numberCall "a", numberCall "b", numberCall "a"]
    ∃ infos u, s.store.list s.files = .ok infos ∧
      "a" ∈ infos.map (·.key) ∧ "b" ∈ infos.map (·.key) ∧
      s.store.clearAll s.files = (.ok infos.length, s.cleared u) ∧
      ((numberCall "a").lookup (s.cleared u)).fetched = true := by
  have hempty : emptyCache.files.names emptyCache.store.dir = .ok [] := by decide +kernel
  have hexpiry : emptyCache.store.expiry.seconds ≤ Text.maxWord64 := by decide +kernel
  have hnow : ∀ c ∈ [numberCall "a", numberCall "b", numberCall "a"], c.now.IsShown := by
    have hshown : (⟨1600000000, 0⟩ : Instant).IsShown := by decide +kernel
    simpa using ⟨hshown, hshown, hshown⟩
  obtain ⟨infos, u, hlist, -, hlisted, hclear, -, hfetched, -⟩ :=
    listed_iff_answered hempty rfl hexpiry hnow
  have ha : (emptyCache.store.lookup emptyCache.files ⟨1600000000, 0⟩ Codec.uint32 "a"
      (.ok 7)).result = .ok 7 := by decide +kernel
  have hb : (((numberCall "a").lookup emptyCache).state.store.lookup
      ((numberCall "a").lookup emptyCache).state.files ⟨1600000000, 0⟩ Codec.uint32 "b"
      (.ok 7)).result = .ok 7 := by decide +kernel
  exact ⟨infos, u, hlist, (hlisted "a").2 ⟨by decide, .inl ⟨rfl, _, ha⟩⟩,
    (hlisted "b").2 ⟨by decide, .inr (.inl ⟨rfl, _, hb⟩)⟩, hclear,
    hfetched (numberCall "a") (by decide)⟩

/-- The answer to the key without characters is not listed and is not cleared: it is given again. -/
theorem not_listed_noCharacters :
    let s := emptyCache.after [numberCall ""]
    (∃ n : UInt32, ((numberCall "").lookup emptyCache).result = .ok n) ∧
      s.store.list s.files = .ok [] ∧ (s.store.clearAll s.files).1 = .ok 0 ∧
      ((numberCall "").lookup (s.store.clearAll s.files).2).fetched = false := by
  have hresult : (emptyCache.store.lookup emptyCache.files ⟨1600000000, 0⟩ Codec.uint32 ""
      (.ok 7)).result = .ok 7 := by decide +kernel
  exact ⟨⟨_, hresult⟩, by decide +kernel, by decide +kernel, by decide +kernel⟩

end RouteServer.Cache

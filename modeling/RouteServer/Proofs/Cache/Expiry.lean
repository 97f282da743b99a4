import RouteServer.Proofs.Cache.Records

/-!
# Cache — longer and shorter expiries

An expiry outlasts another when it keeps every record fresh that the other one keeps (`Outlasts`).
A cache that is opened with it then serves from its files whatever a cache with the other one serves
from them, and the same of it (`Outlasts.lookup_eq`); and cleaning leaves every record that it would
leave with the other one, also when it fails on the way (`Outlasts.node?_clearExpired`).

The age of a record has a sign, and the seconds of an expiry are compared with it as a word that has
one.  From 2⁶³ on they count as a negative number, so an expiry need not outlast those that are
shorter (`outlasts_iff`): the longest ones keep no record but some from the future.
-/

namespace RouteServer.Files

/-- Only files can be removed, and all of them. -/
theorem Tree.isFile_iff_exists_remove {t : Tree} {path : String} :
    t.isFile path = true ↔ ∃ u, t.remove path = .ok u := by
  unfold Tree.isFile
  constructor
  · intro h
    split at h
    case h_1 c hc => exact Tree.exists_remove hc
    case h_2 => cases h
  · rintro ⟨u, hu⟩
    unfold Tree.remove at hu
    unfold Tree.node?
    cases hl : t.locate path with
    | error e => rw [hl] at hu; cases hu
    | ok key =>
        rw [hl] at hu
        simp only [bind, Except.bind] at hu ⊢
        split at hu
        case h_1 hfile => rw [hfile]
        case h_2 => cases hu
        case h_3 => cases hu

end RouteServer.Files

namespace RouteServer.Cache

open RouteServer.Files RouteServer.Lookup RouteServer.Text RouteServer.Time

/-- An expiry keeps every record fresh that another one keeps fresh. -/
def Outlasts (longer shorter : Span) : Prop :=
  ∀ (r : RecordInfo) (now : Instant), r.isFresh now shorter = true → r.isFresh now longer = true

/-- A cache with another expiry. -/
def Store.withExpiry (s : Store) (expiry : Span) : Store := { s with expiry }

/-! ### The word that an expiry is compared as -/

theorem signedWord_of_lt {n : Nat} (h : n < twoTo 63) : signedWord n = n := by
  simp only [signedWord, twoTo, Nat.pow_eq, Int.bmod] at h ⊢
  omega

theorem signedWord_of_le {n : Nat} (h : twoTo 63 ≤ n) (hmax : n ≤ maxWord64) :
    signedWord n = n - (twoTo 64 : Nat) := by
  simp only [signedWord, twoTo, Nat.pow_eq, maxWord64, Int.bmod] at h hmax ⊢
  omega

/-- Expiries outlast each other in the order of the words that they are compared as. -/
theorem outlasts_iff_signedWord {longer shorter : Span} :
    Outlasts longer shorter ↔ signedWord shorter.seconds ≤ signedWord longer.seconds := by
  constructor
  · intro h
    -- a record that is one second younger than what the shorter one is compared as
    have hage : ∀ n : Int, (⟨0, 0⟩ : Instant).secondsTo ⟨n, 0⟩ = n := fun n => by
      simp [Instant.secondsTo, nanosPerSecond]
    have hfresh := h ⟨"", ⟨0, 0⟩, 0⟩ ⟨signedWord shorter.seconds - 1, 0⟩
    simp only [RecordInfo.isFresh, hage, decide_eq_true_eq] at hfresh
    omega
  · intro h r now hr
    exact decide_eq_true (lt_of_lt_of_le (of_decide_eq_true hr) h)

section

variable {longer shorter : Span}

/-- **Which of the longer expiries keep what a shorter one keeps.** -/
theorem outlasts_iff (hle : shorter.seconds ≤ longer.seconds) (hmax : longer.seconds ≤ maxWord64) :
    Outlasts longer shorter ↔ longer.seconds < twoTo 63 ∨ twoTo 63 ≤ shorter.seconds := by
  rw [outlasts_iff_signedWord]
  rcases Nat.lt_or_ge longer.seconds (twoTo 63) with hl | hl
  · rw [signedWord_of_lt hl, signedWord_of_lt (lt_of_le_of_lt hle hl)]
    simp [hl, hle]
  rcases Nat.lt_or_ge shorter.seconds (twoTo 63) with hs | hs
  · have hneg : ((longer.seconds : Int) - (twoTo 64 : Nat)) < 0 := by
      simp only [twoTo, Nat.pow_eq, maxWord64] at hmax ⊢
      omega
    rw [signedWord_of_le hl hmax, signedWord_of_lt hs]
    simp only [Nat.not_lt.2 hl, Nat.not_le.2 hs, or_self, iff_false]
    omega
  · rw [signedWord_of_le hl hmax, signedWord_of_le hs (hle.trans hmax)]
    simp [hs, hle]

/-- A record that an expiry of 2⁶³ seconds or more keeps is from the future. -/
theorem secondsTo_neg_of_isFresh (hl : twoTo 63 ≤ longer.seconds)
    (hmax : longer.seconds ≤ maxWord64) {r : RecordInfo} {now : Instant}
    (h : r.isFresh now longer = true) : r.cachedAt.secondsTo now < 0 := by
  have hage := of_decide_eq_true h
  rw [signedWord_of_le hl hmax] at hage
  simp only [twoTo, Nat.pow_eq, maxWord64] at hage hmax
  omega

/-! ### Look-ups -/

/-- The expiry plays no part in what a payload gives. -/
theorem Store.serve_withExpiry {α : Type} (s : Store) (expiry : Span) (codec : Codec α)
    (key : String) (payload : Json) :
    (s.withExpiry expiry).serve codec key payload =
      ((s.serve codec key payload).1, (s.serve codec key payload).2.withExpiry expiry) := by
  unfold Store.serve
  cases Store.answer codec payload <;> rfl

/-- What is remembered is given whatever the expiry. -/
theorem Store.lookup_withExpiry_of_remembered {s : Store} {key : String} {payload : Json}
    (hmemo : s.memo.get? key = some payload) (expiry : Span) (files : Tree) (now : Instant)
    {α : Type} (codec : Codec α) (fetch : Except Failure α) :
    (s.withExpiry expiry).lookup files now codec key fetch =
      ⟨Store.answer codec payload, false, ⟨s.withExpiry expiry, files⟩⟩ :=
  lookup_of_settled (consult_remembered now hmemo)

/-- A record is given by every cache for which it is fresh. -/
theorem Store.lookup_withExpiry_of_fresh {s : Store} {files : Tree} {key : String} {r : Record}
    {now : Instant} {expiry : Span} (hmemo : s.memo.get? key = none)
    (hstored : s.stored? files key = some r) (hfresh : r.isFresh now expiry = true)
    {α : Type} (codec : Codec α) (fetch : Except Failure α) :
    (s.withExpiry expiry).lookup files now codec key fetch =
      ⟨(s.serve codec key r.payload).1, false,
        ⟨(s.serve codec key r.payload).2.withExpiry expiry, files⟩⟩ := by
  have hconsult := consult_recorded (s := s.withExpiry expiry) codec now hmemo hstored
  have hkept : r.isFresh now (s.withExpiry expiry).expiry = true := hfresh
  rw [if_pos hkept, serve_withExpiry] at hconsult
  exact lookup_of_settled hconsult

/-- **Look-ups.**  What is found without fetching with the shorter expiry is found with the longer
one, and the same is remembered. -/
theorem Outlasts.lookup_eq (h : Outlasts longer shorter) {s : Store} {files : Tree} {now : Instant}
    {α : Type} {codec : Codec α} {key : String} {fetch : Except Failure α} {o : Store.Outcome α}
    (ho : (s.withExpiry shorter).lookup files now codec key fetch = o) (hfound : o.fetched = false)
    (fetch' : Except Failure α) :
    (s.withExpiry longer).lookup files now codec key fetch' =
      ⟨o.result, false, ⟨o.state.store.withExpiry longer, files⟩⟩ := by
  cases hmemo : s.memo.get? key with
  | some payload =>
      rw [Store.lookup_withExpiry_of_remembered hmemo] at ho ⊢
      rw [← ho]
      rfl
  | none =>
      have hfresh : ∃ r, s.stored? files key = some r ∧ r.isFresh now shorter = true := by
        by_contra hnone
        have hfetched : ((s.withExpiry shorter).lookup files now codec key fetch).fetched = true :=
          (fetched_lookup_iff (s := ⟨s.withExpiry shorter, files⟩) hmemo).2 fun r hr => hnone ⟨r, hr⟩
        rw [ho, hfound] at hfetched
        cases hfetched
      obtain ⟨r, hstored, hr⟩ := hfresh
      have hkept : r.isFresh now longer = true := h r.toRecordInfo now hr
      rw [Store.lookup_withExpiry_of_fresh hmemo hstored hr] at ho
      rw [Store.lookup_withExpiry_of_fresh hmemo hstored hkept, ← ho]
      rfl

/-! ### Cleaning -/

theorem takeWhile_congr {α : Type} {p q : α → Bool} {l : List α} (h : ∀ x ∈ l, p x = q x) :
    l.takeWhile p = l.takeWhile q := by
  induction l with
  | nil => rfl
  | cons x l ih =>
      rw [List.takeWhile_cons, List.takeWhile_cons, h x List.mem_cons_self,
        ih fun y hy => h y (List.mem_cons_of_mem x hy)]

/-- When fewer are taken, and those left out could all have been, no others are. -/
theorem takeWhile_filter_subset {α : Type} {p few more : α → Bool}
    (hfew : ∀ x, few x = true → more x = true)
    (hout : ∀ x, few x = false → more x = true → p x = true) (l : List α) :
    (l.filter few).takeWhile p ⊆ (l.filter more).takeWhile p := by
  induction l with
  | nil => exact List.Subset.refl _
  | cons x l ih =>
      cases hf : few x with
      | true =>
          rw [List.filter_cons_of_pos hf, List.filter_cons_of_pos (hfew x hf), List.takeWhile_cons,
            List.takeWhile_cons]
          cases p x with
          | true => exact List.cons_subset_cons x ih
          | false => exact List.nil_subset _
      | false =>
          rw [List.filter_cons_of_neg (by simp [hf])]
          cases hm : more x with
          | true =>
              rw [List.filter_cons_of_pos hm, List.takeWhile_cons, if_pos (hout x hf hm)]
              exact List.subset_cons_of_subset x ih
          | false =>
              rw [List.filter_cons_of_neg (by simp [hm])]
              exact ih

/-- **Removing files** goes in order, up to the first that cannot be removed. -/
theorem Store.node?_removeAll {dir : String} {ns : List String} (hns : ∀ name ∈ ns, IsName name)
    (hnodup : ns.Nodup) (t : Tree) {name : String} (hname : IsName name) :
    (removeAll (ns.map (Path.join dir)) t).2.node? (Path.join dir name) =
      if name ∈ ns.takeWhile (fun n => t.isFile (Path.join dir n)) then none
      else t.node? (Path.join dir name) := by
  induction ns generalizing t with
  | nil => rfl
  | cons n ns ih =>
      obtain ⟨hnot, hnodup⟩ := List.nodup_cons.1 hnodup
      have hn := hns n List.mem_cons_self
      have hns' : ∀ m ∈ ns, IsName m := fun m hm => hns m (List.mem_cons_of_mem n hm)
      rw [List.map_cons, removeAll, List.takeWhile_cons]
      cases hr : t.remove (Path.join dir n) with
      | error f =>
          have hfile : ¬ t.isFile (Path.join dir n) = true := by
            rw [Tree.isFile_iff_exists_remove, hr]
            rintro ⟨u, hu⟩
            cases hu
          simp [hfile]
      | ok u =>
          obtain ⟨hchange, hnone⟩ := Tree.changesOnly_of_remove hn hr
          -- the files that follow are others, so what could be removed still can
          have hsame : ∀ m, IsName m → m ≠ n →
              u.node? (Path.join dir m) = t.node? (Path.join dir m) := fun m hm hne =>
            hchange.node?_eq hm hne
          have hrest : ns.takeWhile (fun m => u.isFile (Path.join dir m)) =
              ns.takeWhile (fun m => t.isFile (Path.join dir m)) :=
            takeWhile_congr fun m hm => by
              unfold Tree.isFile
              rw [hsame m (hns' m hm) fun he => hnot (he ▸ hm)]
          rw [ih hns' hnodup u, hrest, if_pos (Tree.isFile_iff_exists_remove.2 ⟨u, hr⟩)]
          by_cases he : name = n
          · have hout : name ∉ ns.takeWhile (fun m => t.isFile (Path.join dir m)) := fun hm =>
              hnot (he ▸ (List.takeWhile_prefix _).subset hm)
            rw [if_neg hout, if_pos (he ▸ List.mem_cons_self), he, hnone]
          · simp only [hsame name hname he, List.mem_cons, he, false_or]

theorem Outlasts.isKept (h : Outlasts longer shorter) {s : Store} {files : Tree} {now : Instant}
    {path : String} (hkept : (s.withExpiry shorter).isKept files now path = true) :
    (s.withExpiry longer).isKept files now path = true := by
  obtain ⟨text, info, hnode, hinfo, hfresh⟩ := Store.isKept_iff.1 hkept
  exact Store.isKept_iff.2 ⟨text, info, hnode, hinfo, h info now hfresh⟩

theorem Store.isFile_of_isKept {s : Store} {files : Tree} {now : Instant} {path : String}
    (h : s.isKept files now path = true) : files.isFile path = true := by
  obtain ⟨text, -, hnode, -⟩ := isKept_iff.1 h
  rw [Tree.isFile, hnode]

/-- **Cleaning.**  Every record that is left with the shorter expiry is left with the longer one, as
it was, also when cleaning fails on the way. -/
theorem Outlasts.node?_clearExpired (h : Outlasts longer shorter) (s : Store) (files : Tree)
    (now : Instant) {paths : List String} (hpaths : s.recordPaths files = .ok paths) {path : String}
    (hpath : path ∈ paths) {entry : Entry}
    (hleft : ((s.withExpiry shorter).clearExpired files now).2.files.node? path = some entry) :
    ((s.withExpiry longer).clearExpired files now).2.files.node? path = some entry := by
  rcases Store.recordPaths_cases hpaths with ⟨rfl, -⟩ | ⟨hne, lead, ho⟩
  · cases hpath
  obtain ⟨ns, hns, hnodup, hmem⟩ := Store.exists_recordPaths ho hne
  cases hpaths.symm.trans hns
  obtain ⟨name, hn, rfl⟩ := List.mem_map.1 hpath
  have hname : ∀ name ∈ ns, IsName name := fun name hn => ((hmem name).1 hn).1.toIsName
  -- what is left, by the names of the files that are removed
  have hclear : ∀ e : Span, ((s.withExpiry e).clearExpired files now).2.files.node?
      (Path.join s.dir name) =
        if name ∈ (ns.filter fun n => !(s.withExpiry e).isKept files now (Path.join s.dir n)).takeWhile
          (fun n => files.isFile (Path.join s.dir n)) then none
        else files.node? (Path.join s.dir name) := fun e => by
    rw [Store.clearExpired_eq (s := s.withExpiry e) hpaths, List.filter_map]
    exact Store.node?_removeAll (fun n hn => hname n (List.mem_of_mem_filter hn))
      (hnodup.filter _) files (hname name hn)
  rw [hclear] at hleft ⊢
  split at hleft
  · cases hleft
  case isFalse hstays =>
      rw [if_neg fun hin => hstays (takeWhile_filter_subset ?_ ?_ ns hin)]
      · exact hleft
      · intro n hn
        simp only [Bool.not_eq_true'] at hn ⊢
        exact Bool.eq_false_iff.2 fun hk => absurd (h.isKept hk) (by simp [hn])
      · intro n hn _
        exact Store.isFile_of_isKept (by simpa using hn)

/-- **A longer expiry keeps what a shorter one keeps, up to 2⁶³ seconds.**  Of two expiries the longer
one keeps every record fresh that the shorter one does just when its seconds fit a word with a sign,
or those of neither do.  Then every look-up that is served from the memo or from a file with the
shorter one is served in the same way with the longer one, and cleaning leaves every record with the
longer one that it leaves with the shorter one.  Otherwise it is the other way round: with the longer
one only records from the future are fresh, and these are fresh with the shorter one as well. -/
theorem keeps_longer_iff (hle : shorter.seconds ≤ longer.seconds)
    (hmax : longer.seconds ≤ maxWord64) :
    (Outlasts longer shorter ↔ longer.seconds < twoTo 63 ∨ twoTo 63 ≤ shorter.seconds) ∧
    (Outlasts longer shorter → ∀ (s : Store) (files : Tree) (now : Instant),
      (∀ (α : Type) (codec : Codec α) (key : String) (fetch fetch' : Except Failure α)
          (o : Store.Outcome α),
        (s.withExpiry shorter).lookup files now codec key fetch = o → o.fetched = false →
        (s.withExpiry longer).lookup files now codec key fetch' =
          ⟨o.result, false, ⟨o.state.store.withExpiry longer, files⟩⟩) ∧
      ∀ paths, s.recordPaths files = .ok paths → ∀ path ∈ paths, ∀ entry,
        ((s.withExpiry shorter).clearExpired files now).2.files.node? path = some entry →
        ((s.withExpiry longer).clearExpired files now).2.files.node? path = some entry) ∧
    (¬ Outlasts longer shorter → ∀ (r : RecordInfo) (now : Instant),
      r.isFresh now longer = true →
        r.cachedAt.secondsTo now < 0 ∧ r.isFresh now shorter = true) := by
  refine ⟨outlasts_iff hle hmax, fun h s files now => ⟨?_, ?_⟩, fun h r now hr => ?_⟩
  · exact fun α codec key fetch fetch' o ho hfound => h.lookup_eq ho hfound fetch'
  · exact fun paths hpaths path hpath entry hleft =>
      h.node?_clearExpired s files now hpaths hpath hleft
  · have hwrapped := mt (outlasts_iff hle hmax).2 h
    simp only [not_or, Nat.not_lt, Nat.not_le] at hwrapped
    have hage := secondsTo_neg_of_isFresh hwrapped.1 hmax hr
    refine ⟨hage, decide_eq_true ?_⟩
    rw [signedWord_of_lt hwrapped.2]
    exact lt_of_lt_of_le hage (Int.natCast_nonneg _)

end

/-- An expiry of 2·10¹² seconds outlasts one of 10¹², and serves a record that this one serves. -/
theorem keeps_longer_iff_fullRecord :
    Outlasts (.ofSeconds 2000000000000) (.ofSeconds 1000000000000) ∧
      (((fullRecord.store.withExpiry (.ofSeconds 2000000000000)).lookup fullRecord.files
        ⟨1600000000, 0⟩ Codec.uint32 "k" (.ok 7)).fetched = false) := by
  have hle : (Span.ofSeconds 1000000000000).seconds ≤ (Span.ofSeconds 2000000000000).seconds := by
    decide +kernel
  have hmax : (Span.ofSeconds 2000000000000).seconds ≤ maxWord64 := by decide +kernel
  have hboth := keeps_longer_iff hle hmax
  have houtlasts := hboth.1.2 (.inl (by decide +kernel))
  refine ⟨houtlasts, ?_⟩
  have hfound : ((fullRecord.store.withExpiry (.ofSeconds 1000000000000)).lookup fullRecord.files
      ⟨1600000000, 0⟩ Codec.uint32 "k" (.ok 7)).fetched = false := by decide +kernel
  rw [(hboth.2.1 houtlasts fullRecord.store fullRecord.files ⟨1600000000, 0⟩).1 UInt32 Codec.uint32
    "k" (.ok 7) (.ok 7) _ rfl hfound]

/-- The longest expiry discards a record that a shorter one keeps: it is not fresh, it is fetched
again, and cleaning removes it. -/
theorem not_kept_longest :
    (Span.ofSeconds 1000000000000).seconds ≤ (Span.ofSeconds maxWord64).seconds ∧
      (⟨"k", ⟨946684800, 0⟩, 60⟩ : RecordInfo).isFresh ⟨1600000000, 0⟩ (.ofSeconds 1000000000000) =
        true ∧
      (⟨"k", ⟨946684800, 0⟩, 60⟩ : RecordInfo).isFresh ⟨1600000000, 0⟩ (.ofSeconds maxWord64) =
        false ∧
      ((fullRecord.store.withExpiry (.ofSeconds 1000000000000)).lookup fullRecord.files
        ⟨1600000000, 0⟩ Codec.uint32 "k" (.ok 7)).fetched = false ∧
      ((fullRecord.store.withExpiry (.ofSeconds maxWord64)).lookup fullRecord.files
        ⟨1600000000, 0⟩ Codec.uint32 "k" (.ok 7)).fetched = true ∧
      ((fullRecord.store.withExpiry (.ofSeconds 1000000000000)).clearExpired fullRecord.files
        ⟨1600000000, 0⟩).1 = .ok 0 ∧
      ((fullRecord.store.withExpiry (.ofSeconds maxWord64)).clearExpired fullRecord.files
        ⟨1600000000, 0⟩).1 = .ok 1 := by
  refine ⟨?_, ?_, ?_, ?_, ?_, ?_, ?_⟩ <;> decide +kernel

end RouteServer.Cache

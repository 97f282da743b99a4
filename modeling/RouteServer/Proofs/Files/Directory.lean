import RouteServer.Files.Tree
import RouteServer.Proofs.Dictionary
import RouteServer.Proofs.Files.Path

/-!
# Files — the entries of a directory

A directory that a path leads to has a lead: the entries in it are kept under the lead with their
names behind it (`Opens`).  Under a directory the operations are therefore operations of the
dictionary of entries at that key, and they keep the directory open, since none of them puts
anything in place of a directory (`Opens.mono`).
-/

namespace RouteServer.Files.Tree

open RouteServer.Text

/-! ### Following a path -/

/-- The parts, in reverse, that a path leads through; all are directories. -/
def walk (t : Tree) (absolute : Bool) : List String → List String → Except Fault (List String)
  | done, [] => .ok done
  | done, part :: parts =>
    match t.at? (canonical absolute done.reverse) with
    | some .directory =>
      if maxNameBytes < part.utf8ByteSize then .error .refused
      else if part = ".." then t.walk absolute (above absolute done) parts
      else t.walk absolute (part :: done) parts
    | some (.file _) => .error .refused
    | none => .error .missing

theorem follow_eq_walk (t : Tree) (absolute : Bool) (done parts : List String) :
    t.follow absolute done parts =
      (t.walk absolute done parts).map fun done => canonical absolute done.reverse := by
  induction parts generalizing done with
  | nil => rfl
  | cons part parts ih =>
      rw [follow, walk]
      cases t.at? (canonical absolute done.reverse) with
      | none => rfl
      | some entry =>
          cases entry with
          | file c => rfl
          | directory =>
              simp only [ih]
              split
              · rfl
              · split <;> rfl

theorem walk_append (t : Tree) (absolute : Bool) (done ps qs : List String) :
    t.walk absolute done (ps ++ qs) =
      (t.walk absolute done ps).bind fun done => t.walk absolute done qs := by
  induction ps generalizing done with
  | nil => rfl
  | cons part ps ih =>
      rw [List.cons_append, walk, walk]
      cases t.at? (canonical absolute done.reverse) with
      | none => rfl
      | some entry =>
          cases entry with
          | file c => rfl
          | directory =>
              simp only [ih]
              split
              · rfl
              · split <;> rfl

/-- The directories of another tree are directories of this one. -/
def KeepsDirectories (t u : Tree) : Prop :=
  ∀ key, t.at? key = some .directory → u.at? key = some .directory

theorem walk_mono {t u : Tree} (h : KeepsDirectories t u) {absolute : Bool} {ps : List String} :
    ∀ {done last : List String}, t.walk absolute done ps = .ok last →
      u.walk absolute done ps = .ok last := by
  induction ps with
  | nil => exact fun hw => hw
  | cons part ps ih =>
      intro done last hw
      rw [walk] at hw ⊢
      cases hd : t.at? (canonical absolute done.reverse) with
      | none => rw [hd] at hw; cases hw
      | some entry =>
          rw [hd] at hw
          cases entry with
          | file c => cases hw
          | directory =>
              rw [h _ hd]
              simp only at hw ⊢
              split at hw
              · cases hw
              · split at hw
                · rw [if_neg ‹_›, if_pos ‹_›]; exact ih hw
                · rw [if_neg ‹_›, if_neg ‹_›]; exact ih hw

/-- A part of a canonical path. -/
def IsPart (part : String) : Prop := part ≠ "" ∧ '/' ∉ part.toList

theorem isPart_of_mem_parts {path part : String} (h : part ∈ Path.parts path) : IsPart part := by
  obtain ⟨hp, hne⟩ := List.mem_filter.1 h
  simp only [ne_eq, Bool.and_eq_true, decide_eq_true_eq] at hne
  refine ⟨hne.1, ?_⟩
  obtain ⟨cs, hcs, rfl⟩ := List.mem_map.1 hp
  rw [String.toList_ofList]
  exact notMem_of_mem_splitAt hcs

theorem isPart_above {absolute : Bool} {done : List String} (hd : ∀ p ∈ done, IsPart p) :
    ∀ p ∈ above absolute done, IsPart p := by
  have hdots : IsPart ".." := by unfold IsPart; decide
  intro p h
  cases done with
  | nil =>
      cases absolute with
      | true => cases h
      | false => rw [List.mem_singleton.1 h]; exact hdots
  | cons q qs =>
      simp only [above] at h
      split at h
      · rcases List.mem_cons.1 h with rfl | h
        · exact hdots
        · exact hd p h
      · exact hd p (List.mem_cons_of_mem q h)

theorem walk_isPart {t : Tree} {absolute : Bool} {ps : List String} (hp : ∀ p ∈ ps, IsPart p) :
    ∀ {done last : List String}, (∀ p ∈ done, IsPart p) → t.walk absolute done ps = .ok last →
      ∀ p ∈ last, IsPart p := by
  induction ps with
  | nil => intro done last hd hw; cases hw; exact hd
  | cons part ps ih =>
      intro done last hd hw
      have hps : ∀ p ∈ ps, IsPart p := fun p h => hp p (List.mem_cons_of_mem part h)
      have habove : ∀ p ∈ above absolute done, IsPart p := isPart_above hd
      have hcons : ∀ p ∈ part :: done, IsPart p := fun p h => by
        rcases List.mem_cons.1 h with rfl | h
        · exact hp p List.mem_cons_self
        · exact hd p h
      rw [walk] at hw
      split at hw
      · split at hw
        · cases hw
        · split at hw
          · exact ih hps habove hw
          · exact ih hps hcons hw
      · cases hw
      · cases hw

/-! ### The lead of a directory -/

/-- What stands in front of the names of the entries of a directory. -/
def leadOf (key : String) : String := if key = "" ∨ key = "/" then key else key ++ "/"

theorem leadOf_cases (key : String) : leadOf key = "" ∨ ∃ base, leadOf key = base ++ "/" := by
  unfold leadOf
  split
  case isTrue h =>
      rcases h with rfl | rfl
      · exact .inl rfl
      · exact .inr ⟨"", rfl⟩
  case isFalse => exact .inr ⟨key, rfl⟩

theorem canonical_concat {absolute : Bool} {done : List String} (hd : ∀ p ∈ done, IsPart p)
    (name : String) :
    canonical absolute (name :: done).reverse = leadOf (canonical absolute done.reverse) ++ name := by
  rw [List.reverse_cons]
  cases hr : done.reverse with
  | nil =>
      cases absolute <;> simp [canonical, leadOf]
  | cons p ps =>
      have hp : IsPart p := hd p (List.mem_reverse.1 (hr ▸ List.mem_cons_self))
      -- the canonical path starts with a character of a part, so it is neither empty nor the root
      obtain ⟨c, cs, hc⟩ := List.exists_cons_of_ne_nil
        (fun he => hp.1 (String.toList_eq_nil_iff.1 he))
      have hc' : c ≠ '/' := fun he => hp.2 (hc ▸ he ▸ List.mem_cons_self)
      have hstart : ∃ ds, ("/".intercalate (p :: ps)).toList = c :: ds := by
        rw [String.toList_intercalate, List.map_cons, hc]
        cases ps with
        | nil => exact ⟨cs, by simp⟩
        | cons q qs => exact ⟨_, by rw [List.map_cons, List.intercalate_cons_cons]; rfl⟩
      obtain ⟨ds, hds⟩ := hstart
      have hkey : ¬ (canonical absolute (p :: ps) = "" ∨ canonical absolute (p :: ps) = "/") := by
        intro h
        have hchars : (canonical absolute (p :: ps)).toList = [] ∨
            (canonical absolute (p :: ps)).toList = ['/'] := by
          rcases h with h | h <;> rw [h]
          · exact .inl rfl
          · exact .inr rfl
        cases absolute with
        | true =>
            rw [canonical, String.toList_append, hds] at hchars
            rcases hchars with h | h
            · cases h
            · cases h
        | false =>
            rw [canonical, String.toList_append, hds] at hchars
            rcases hchars with h | h
            · cases h
            · exact hc' (List.cons.inj h).1
      rw [leadOf, if_neg hkey, canonical, canonical,
        String.intercalate_append_of_ne_nil (by simp) (by simp), String.intercalate_singleton]
      simp only [String.append_assoc]

/-- The path leads to a directory whose entries are kept behind the lead. -/
def Opens (t : Tree) (dir lead : String) : Prop :=
  ∃ done, t.walk (Path.isAbsolute dir) [] (Path.parts dir) = .ok done ∧
    t.at? (canonical (Path.isAbsolute dir) done.reverse) = some .directory ∧
    lead = leadOf (canonical (Path.isAbsolute dir) done.reverse)

theorem Opens.mono {t u : Tree} {dir lead : String} (h : t.Opens dir lead)
    (hk : KeepsDirectories t u) : u.Opens dir lead := by
  obtain ⟨done, hw, hd, hl⟩ := h
  exact ⟨done, walk_mono hk hw, hk _ hd, hl⟩

theorem opens_of_locate {t : Tree} {dir key : String} (hl : t.locate dir = .ok key)
    (hd : t.at? key = some .directory) : t.Opens dir (leadOf key) := by
  unfold locate at hl
  split at hl
  · cases hl
  · rw [follow_eq_walk] at hl
    cases hw : t.walk (Path.isAbsolute dir) [] (Path.parts dir) with
    | error e => rw [hw] at hl; cases hl
    | ok done =>
        have hkey : canonical (Path.isAbsolute dir) done.reverse = key := by
          rw [hw] at hl
          simp only [Except.map, bind, Except.bind] at hl
          split at hl
          · split at hl
            · cases hl
            · exact Except.ok.inj hl
          · exact Except.ok.inj hl
        exact ⟨done, hw, by rw [hkey, hd], by rw [hkey]⟩

theorem Opens.exists_locate {t : Tree} {dir lead : String} (h : t.Opens dir lead) (hne : dir ≠ "") :
    ∃ key, t.locate dir = .ok key ∧ t.at? key = some .directory ∧ lead = leadOf key := by
  obtain ⟨done, hw, hd, hl⟩ := h
  refine ⟨canonical (Path.isAbsolute dir) done.reverse, ?_, hd, hl⟩
  rw [locate, if_neg hne, follow_eq_walk, hw]
  simp only [Except.map, bind, Except.bind, hd]

theorem isDirectory_iff {t : Tree} {dir : String} :
    t.isDirectory dir ↔ dir ≠ "" ∧ ∃ lead, t.Opens dir lead := by
  constructor
  · intro h
    have he : t.node? dir = some .directory := of_decide_eq_true h
    unfold node? at he
    split at he
    case h_1 key hl =>
        refine ⟨fun hd => ?_, leadOf key, opens_of_locate hl he⟩
        rw [hd] at hl
        cases hl
    case h_2 => cases he
  · rintro ⟨hne, lead, ho⟩
    obtain ⟨key, hl, hd, -⟩ := ho.exists_locate hne
    exact decide_eq_true (by rw [node?, hl]; exact hd)

theorem isDirectory_mono {t u : Tree} {dir : String} (h : t.isDirectory dir)
    (hk : KeepsDirectories t u) : u.isDirectory dir := by
  obtain ⟨hne, lead, ho⟩ := isDirectory_iff.1 h
  exact isDirectory_iff.2 ⟨hne, lead, ho.mono hk⟩

theorem at?_of_walk {t : Tree} {absolute : Bool} {done ps last : List String}
    (hw : t.walk absolute done ps = .ok last)
    (hd : t.at? (canonical absolute last.reverse) = some .directory) :
    t.at? (canonical absolute done.reverse) = some .directory := by
  cases ps with
  | nil => cases hw; exact hd
  | cons part ps =>
      rw [walk] at hw
      split at hw
      · assumption
      · cases hw
      · cases hw

theorem makeParts_of_walk {t : Tree} {absolute : Bool} {ps : List String} :
    ∀ {done last : List String}, t.walk absolute done ps = .ok last →
      t.at? (canonical absolute last.reverse) = some .directory →
      makeParts absolute done ps t = .ok t := by
  induction ps with
  | nil => intros; rfl
  | cons part ps ih =>
      intro done last hw hd
      rw [walk] at hw
      split at hw
      case h_2 => cases hw
      case h_3 => cases hw
      rw [makeParts]
      split at hw
      · cases hw
      case isFalse hsize =>
          rw [if_neg hsize]
          -- every directory on the way is there, so none is made
          split at hw
          case isTrue hdots => rw [if_pos hdots]; exact ih hw hd
          case isFalse hdots =>
              rw [if_neg hdots]
              simp only [at?_of_walk hw hd]
              exact ih hw hd

/-- A directory that is there is not made again. -/
theorem makeDirectories_of_isDirectory {t : Tree} {dir : String} (h : t.isDirectory dir) :
    t.makeDirectories dir = .ok t := by
  obtain ⟨-, -, done, hw, hd, -⟩ := isDirectory_iff.1 h
  exact makeParts_of_walk hw hd

/-! ### Operations under a directory -/

section Operations

variable {t : Tree} {dir lead name : String}

/-- A text is read where there is a file with it. -/
theorem read_eq_ok_iff {path text : String} :
    t.read path = .ok text ↔ t.node? path = some (.file (.text text)) := by
  unfold read node?
  cases t.locate path with
  | error e => simp [bind, Except.bind]
  | ok key =>
      simp only [bind, Except.bind]
      rcases t.at? key with _ | ⟨⟨s⟩ | ⟨bs⟩⟩ | _ <;> simp

theorem Opens.lead_cases (h : t.Opens dir lead) : lead = "" ∨ ∃ base, lead = base ++ "/" := by
  obtain ⟨done, -, -, rfl⟩ := h
  exact leadOf_cases _

theorem Opens.isBase_append (h : t.Opens dir lead) (hn : IsName name) :
    isBase (lead ++ name) = false := by
  have hmem : name ∈ pieces '/' (lead ++ name) := by
    rcases h.lead_cases with rfl | ⟨base, rfl⟩
    · rw [String.empty_append, Path.pieces_of_noSlash hn.noSlash]; simp
    · rw [Path.pieces_append_slash, Path.pieces_of_noSlash hn.noSlash]; simp
  have hslash : lead ++ name ≠ "/" := fun he => by
    have hpieces : pieces '/' "/" = ["", ""] := by decide
    rw [he, hpieces] at hmem
    simp [hn.ne_empty] at hmem
  have hempty : lead ++ name ≠ "" := fun he => by
    rw [he, Path.pieces_empty] at hmem
    simp [hn.ne_empty] at hmem
  have hdots : ((pieces '/' (lead ++ name)).all fun part => part = "..") = false :=
    List.all_eq_false.2 ⟨name, hmem, by simp [hn.ne_dots]⟩
  simp [isBase, hslash, hempty, hdots]

theorem Opens.at?_append (h : t.Opens dir lead) (hn : IsName name) (u : Tree) :
    u.at? (lead ++ name) = u.entries.get? (lead ++ name) := by
  rw [at?, h.isBase_append hn, if_neg Bool.false_ne_true]

theorem Opens.locate_join (h : t.Opens dir lead) (hn : IsName name) :
    t.locate (Path.join dir name) =
      if maxNameBytes < name.utf8ByteSize then .error .refused else .ok (lead ++ name) := by
  obtain ⟨done, hw, hd, hl⟩ := id h
  have hpart : ∀ p ∈ done, IsPart p :=
    walk_isPart (fun p hp => isPart_of_mem_parts hp) (by simp) hw
  have hwalk : t.walk (Path.isAbsolute dir) [] (Path.parts (Path.join dir name)) =
      if maxNameBytes < name.utf8ByteSize then .error .refused else .ok (name :: done) := by
    rw [Path.parts_join dir hn, walk_append, hw]
    simp only [Except.bind, walk, hd, hn.ne_dots, if_false]
  have hkey : canonical (Path.isAbsolute dir) (name :: done).reverse = lead ++ name :=
    (canonical_concat hpart name).trans (by rw [hl])
  rw [locate, if_neg (Path.join_ne_empty hn), follow_eq_walk, Path.isAbsolute_join hn, hwalk]
  by_cases hsize : maxNameBytes < name.utf8ByteSize
  · simp only [hsize, if_true]; rfl
  · simp only [hsize, if_false, Except.map, bind, Except.bind, hkey]
    rw [Path.meansDirectory_join hn]
    cases t.at? (lead ++ name) with
    | none => rfl
    | some entry => cases entry <;> rfl

theorem Opens.node?_join (h : t.Opens dir lead) (hn : IsName name) :
    t.node? (Path.join dir name) =
      if maxNameBytes < name.utf8ByteSize then none else t.entries.get? (lead ++ name) := by
  rw [node?, h.locate_join hn]
  split
  case h_1 key hl =>
      split at hl
      · cases hl
      · cases hl
        rw [if_neg ‹_›, h.at?_append hn t]
  case h_2 e hl =>
      split at hl
      · rw [if_pos ‹_›]
      · cases hl

/-- The tree with a text in a file. -/
def withText (t : Tree) (key text : String) : Tree := ⟨t.entries.insert key (.file (.text text))⟩

theorem Opens.write_join (h : t.Opens dir lead) (hn : IsName name)
    (hsize : name.utf8ByteSize ≤ maxNameBytes)
    (hdir : t.entries.get? (lead ++ name) ≠ some .directory) (text : String) :
    t.write (Path.join dir name) text = .ok (t.withText (lead ++ name) text) := by
  rw [write, h.locate_join hn, if_neg (by omega)]
  simp only [bind, Except.bind, h.at?_append hn t, Path.meansDirectory_join hn]
  cases he : t.entries.get? (lead ++ name) with
  | none => rfl
  | some entry =>
      cases entry with
      | directory => exact absurd he hdir
      | file c => rfl

theorem Opens.write_join_long (h : t.Opens dir lead) (hn : IsName name)
    (hsize : maxNameBytes < name.utf8ByteSize) (text : String) :
    t.write (Path.join dir name) text = .error .refused := by
  rw [write, h.locate_join hn, if_pos hsize]; rfl

theorem Opens.remove_join (h : t.Opens dir lead) (hn : IsName name)
    (hsize : name.utf8ByteSize ≤ maxNameBytes) {c : Content}
    (hfile : t.entries.get? (lead ++ name) = some (.file c)) :
    t.remove (Path.join dir name) = .ok ⟨t.entries.erase (lead ++ name)⟩ := by
  rw [remove, h.locate_join hn, if_neg (by omega)]
  simp only [bind, Except.bind, h.at?_append hn t, hfile]

theorem Opens.rename_join {other : String} (h : t.Opens dir lead) (hn : IsName name)
    (ho : IsName other) (hsize : name.utf8ByteSize ≤ maxNameBytes)
    (hsize' : other.utf8ByteSize ≤ maxNameBytes) {c : Content}
    (hfile : t.entries.get? (lead ++ name) = some (.file c))
    (hdir : t.entries.get? (lead ++ other) ≠ some .directory) :
    t.rename (Path.join dir name) (Path.join dir other) =
      .ok ⟨(t.entries.erase (lead ++ name)).insert (lead ++ other) (.file c)⟩ := by
  rw [rename, h.locate_join hn, h.locate_join ho, if_neg (by omega), if_neg (by omega)]
  simp only [bind, Except.bind, h.at?_append hn t, h.at?_append ho t, hfile]

/-- A change of entries that are no directories keeps the directories. -/
theorem keepsDirectories_of_get? {u : Tree}
    (h : ∀ key, t.entries.get? key = some .directory → u.entries.get? key = some .directory) :
    KeepsDirectories t u := by
  intro key hk
  unfold at? at hk ⊢
  split at hk
  · rw [if_pos ‹_›]
  · rw [if_neg ‹_›]; exact h key hk

theorem keepsDirectories_withText {key : String} (h : t.entries.get? key ≠ some .directory)
    (text : String) : KeepsDirectories t (t.withText key text) := by
  refine keepsDirectories_of_get? fun k hk => ?_
  have hne : k ≠ key := fun he => h (he ▸ hk)
  rw [withText, Dictionary.get?_insert, if_neg hne, hk]

theorem keepsDirectories_erase {key : String} (h : t.entries.get? key ≠ some .directory) :
    KeepsDirectories t ⟨t.entries.erase key⟩ := by
  refine keepsDirectories_of_get? fun k hk => ?_
  have hne : k ≠ key := fun he => h (he ▸ hk)
  rw [Dictionary.get?_erase, if_neg hne, hk]

theorem KeepsDirectories.trans {u v : Tree} (h : KeepsDirectories t u) (h' : KeepsDirectories u v) :
    KeepsDirectories t v := fun key hk => h' key (h key hk)

/-! ### The names of a directory -/

theorem isDirectory_of_names {ns : List String} (h : t.names dir = .ok ns) : t.isDirectory dir := by
  refine decide_eq_true ?_
  unfold names at h
  unfold node?
  cases hl : t.locate dir with
  | error e => rw [hl] at h; cases h
  | ok key =>
      rw [hl] at h
      simp only [bind, Except.bind] at h
      split at h
      case h_1 hd => exact hd
      case h_2 => cases h
      case h_3 => cases h

/-- The names of a directory are those behind its lead, each once. -/
theorem Opens.exists_names (h : t.Opens dir lead) (hne : dir ≠ "") :
    ∃ ns, t.names dir = .ok ns ∧ ns.Nodup ∧ ∀ name,
      name ∈ ns ↔ name ≠ "" ∧ '/' ∉ name.toList ∧ (t.entries.get? (lead ++ name)).isSome := by
  obtain ⟨key, hl, hd, rfl⟩ := h.exists_locate hne
  let nameOf (k : String) : Option String :=
    (afterStart (leadOf key) k).filter fun rest => rest ≠ "" && !(rest.toList.contains '/')
  have hmem : ∀ k name, name ∈ nameOf k ↔
      k = leadOf key ++ name ∧ name ≠ "" ∧ '/' ∉ name.toList := by
    intro k name
    rw [Option.mem_def, Option.filter_eq_some_iff, afterStart_eq_some_iff]
    simp
  refine ⟨t.entries.keys.filterMap nameOf, ?_, ?_, fun name => ?_⟩
  · rw [names, hl]
    simp only [bind, Except.bind, hd]
    rfl
  · refine List.Nodup.filterMap (fun k k' name hk hk' => ?_) (Dictionary.keys_nodup _)
    exact ((hmem k name).1 hk).1.trans ((hmem k' name).1 hk').1.symm
  · rw [List.mem_filterMap]
    constructor
    · rintro ⟨k, hk, hname⟩
      obtain ⟨rfl, hempty, hslash⟩ := (hmem k name).1 hname
      exact ⟨hempty, hslash, Dictionary.contains_iff.2 hk⟩
    · rintro ⟨hempty, hslash, hs⟩
      exact ⟨_, Dictionary.contains_iff.1 hs, (hmem _ name).2 ⟨rfl, hempty, hslash⟩⟩

theorem opens_of_names {ns : List String} (h : t.names dir = .ok ns) :
    ∃ lead, t.Opens dir lead ∧ ns.Nodup ∧ ∀ name,
      name ∈ ns ↔ name ≠ "" ∧ '/' ∉ name.toList ∧ (t.entries.get? (lead ++ name)).isSome := by
  obtain ⟨hne, lead, ho⟩ := isDirectory_iff.1 (isDirectory_of_names h)
  obtain ⟨ns', hns, hspec⟩ := ho.exists_names hne
  cases h.symm.trans hns
  exact ⟨lead, ho, hspec⟩

end Operations

end RouteServer.Files.Tree

import RouteServer.Proofs.Files.Directory

/-!
# Files — what a change under a directory leaves alone

A name of a directory leads to a place (`locate_join_eq_ok`), and different names lead to different
places (`locate_join_injective`).  A change *under* some names of a directory (`ChangesOnly`) leaves
the places where they are and touches no entry but those of the names: writing a file and moving one
are such changes, whatever comes of them.
-/

namespace RouteServer.Files.Tree

open RouteServer.Text

/-! ### Where a name leads -/

theorem walk_unique {t u : Tree} {absolute : Bool} {ps : List String} :
    ∀ {done last last' : List String}, t.walk absolute done ps = .ok last →
      u.walk absolute done ps = .ok last' → last = last' := by
  induction ps with
  | nil => intro done last last' h h'; cases h; cases h'; rfl
  | cons part ps ih =>
      intro done last last' h h'
      rw [walk] at h h'
      split at h
      case h_2 => cases h
      case h_3 => cases h
      split at h'
      case h_2 => cases h'
      case h_3 => cases h'
      split at h
      · cases h
      case isFalse hsize =>
          rw [if_neg hsize] at h'
          split at h
          case isTrue hdots => rw [if_pos hdots] at h'; exact ih h h'
          case isFalse hdots => rw [if_neg hdots] at h'; exact ih h h'

/-- The lead of a directory does not depend on what is in it. -/
theorem Opens.unique {t u : Tree} {dir lead lead' : String} (h : t.Opens dir lead)
    (h' : u.Opens dir lead') : lead = lead' := by
  obtain ⟨done, hw, -, rfl⟩ := h
  obtain ⟨done', hw', -, rfl⟩ := h'
  rw [walk_unique hw hw']

variable {t u v : Tree} {dir name : String}

/-- A name leads somewhere only in a directory that is there. -/
theorem opens_of_locate_join {key : String} (hn : IsName name)
    (h : t.locate (Path.join dir name) = .ok key) : ∃ lead, t.Opens dir lead := by
  rw [locate, if_neg (Path.join_ne_empty hn), follow_eq_walk, Path.parts_join dir hn, walk_append,
    Path.isAbsolute_join hn] at h
  cases hw : t.walk (Path.isAbsolute dir) [] (Path.parts dir) with
  | error e => rw [hw] at h; cases h
  | ok done =>
      rw [hw] at h
      simp only [Except.bind, walk] at h
      split at h
      case h_1 hd => exact ⟨_, done, hw, hd, rfl⟩
      case h_2 => cases h
      case h_3 => cases h

theorem locate_join_eq_ok {key : String} (hn : IsName name)
    (h : t.locate (Path.join dir name) = .ok key) :
    ∃ lead, t.Opens dir lead ∧ name.utf8ByteSize ≤ maxNameBytes ∧ key = lead ++ name := by
  obtain ⟨lead, ho⟩ := opens_of_locate_join hn h
  rw [ho.locate_join hn] at h
  split at h
  · cases h
  case isFalse hsize => exact ⟨lead, ho, Nat.le_of_not_lt hsize, (Except.ok.inj h).symm⟩

/-- **Names that differ lead to places that differ.** -/
theorem locate_join_injective {other key : String} (hn : IsName name) (ho : IsName other)
    (h : t.locate (Path.join dir name) = .ok key)
    (h' : t.locate (Path.join dir other) = .ok key) : name = other := by
  obtain ⟨lead, hopen, -, rfl⟩ := locate_join_eq_ok hn h
  obtain ⟨lead', hopen', -, he⟩ := locate_join_eq_ok ho h'
  rw [hopen.unique hopen'] at he
  exact (String.append_right_inj _).1 he

/-- The place of a name is not one that is always there. -/
theorem at?_of_locate_join {key : String} (hn : IsName name)
    (h : t.locate (Path.join dir name) = .ok key) (u : Tree) : u.at? key = u.entries.get? key := by
  obtain ⟨lead, ho, -, rfl⟩ := locate_join_eq_ok hn h
  exact ho.at?_append hn u

theorem node?_of_locate_join {key : String} (hn : IsName name)
    (h : t.locate (Path.join dir name) = .ok key) :
    t.node? (Path.join dir name) = t.entries.get? key := by
  rw [node?, h]
  exact at?_of_locate_join hn h t

/-! ### Changes -/

/-- The names of a directory lead to the same places. -/
def SamePlaces (dir : String) (t u : Tree) : Prop :=
  ∀ name, IsName name → u.locate (Path.join dir name) = t.locate (Path.join dir name)

theorem SamePlaces.symm (h : SamePlaces dir t u) : SamePlaces dir u t := fun name hn =>
  (h name hn).symm

theorem SamePlaces.trans (h : SamePlaces dir t u) (h' : SamePlaces dir u v) :
    SamePlaces dir t v := fun name hn => (h' name hn).trans (h name hn)

theorem Opens.samePlaces {lead lead' : String} (h : t.Opens dir lead) (h' : u.Opens dir lead') :
    SamePlaces dir t u := fun name hn => by
  rw [h.locate_join hn, h'.locate_join hn, h.unique h']

/-- Only the entries under some names of a directory change. -/
structure ChangesOnly (dir : String) (names : String → Prop) (t u : Tree) : Prop where
  places : SamePlaces dir t u
  entries : ∀ key, (∀ name, IsName name → names name → t.locate (Path.join dir name) ≠ .ok key) →
    u.entries.get? key = t.entries.get? key

namespace ChangesOnly

variable {names names' : String → Prop}

theorem refl (dir : String) (names : String → Prop) (t : Tree) : ChangesOnly dir names t t :=
  ⟨fun _ _ => rfl, fun _ _ => rfl⟩

theorem symm (h : ChangesOnly dir names t u) : ChangesOnly dir names u t where
  places := h.places.symm
  entries key hkey := (h.entries key fun name hn hname => h.places name hn ▸ hkey name hn hname).symm

theorem trans (h : ChangesOnly dir names t u) (h' : ChangesOnly dir names u v) :
    ChangesOnly dir names t v where
  places := h.places.trans h'.places
  entries key hkey := by
    have hkey' : ∀ name, IsName name → names name → u.locate (Path.join dir name) ≠ .ok key := by
      intro name hn hname
      rw [h.places name hn]
      exact hkey name hn hname
    rw [h'.entries key hkey', h.entries key hkey]

theorem mono (h : ChangesOnly dir names t u) (hnames : ∀ name, names name → names' name) :
    ChangesOnly dir names' t u where
  places := h.places
  entries key hkey := h.entries key fun name hn hname => hkey name hn (hnames name hname)

/-- The directory stays where it is. -/
theorem opens {lead : String} (h : ChangesOnly dir names t u) (ho : t.Opens dir lead) :
    u.Opens dir lead := by
  have hx : IsName "x" := ⟨by decide, by decide, by decide, by decide⟩
  have hl : t.locate (Path.join dir "x") = .ok (lead ++ "x") := by
    rw [ho.locate_join hx]
    rfl
  obtain ⟨lead', ho'⟩ := opens_of_locate_join hx ((h.places "x" hx).trans hl)
  rwa [ho.unique ho']

/-- What is under another name stays. -/
theorem node?_eq (h : ChangesOnly dir names t u) (hn : IsName name) (hname : ¬ names name) :
    u.node? (Path.join dir name) = t.node? (Path.join dir name) := by
  cases hl : t.locate (Path.join dir name) with
  | error e => rw [node?, node?, h.places name hn, hl]
  | ok key =>
      have hl' : u.locate (Path.join dir name) = .ok key := (h.places name hn).trans hl
      rw [node?_of_locate_join hn hl, node?_of_locate_join hn hl']
      refine h.entries key fun other ho hother he => hname ?_
      exact locate_join_injective ho hn he hl ▸ hother

end ChangesOnly

theorem read_congr {path : String} (h : u.locate path = t.locate path)
    (h' : u.node? path = t.node? path) : u.read path = t.read path := by
  unfold node? at h'
  unfold read
  rw [h] at h' ⊢
  cases hl : t.locate path with
  | error e => rfl
  | ok key =>
      simp only [hl] at h'
      simp only [bind, Except.bind, h']

/-- Writing a file, as what is under its name decides it. -/
theorem write_join (hn : IsName name) (text : String) :
    t.write (Path.join dir name) text =
      (t.locate (Path.join dir name)).bind fun key =>
        match t.node? (Path.join dir name) with
        | some .directory => .error .refused
        | _ => .ok (t.withText key text) := by
  unfold write node?
  cases hl : t.locate (Path.join dir name) with
  | error e => rfl
  | ok key =>
      simp only [bind, Except.bind, Path.meansDirectory_join hn]
      cases t.at? key with
      | none => rfl
      | some entry => cases entry <;> rfl

/-- Moving a file, as what is under the two names decides it. -/
theorem rename_join (source target : String) :
    t.rename (Path.join dir source) (Path.join dir target) =
      (t.locate (Path.join dir source)).bind fun sourceKey =>
        (t.locate (Path.join dir target)).bind fun targetKey =>
          match t.node? (Path.join dir source), t.node? (Path.join dir target) with
          | some (.file _), some .directory => .error .refused
          | some (.file content), _ =>
            .ok ⟨(t.entries.erase sourceKey).insert targetKey (.file content)⟩
          | some .directory, _ => .error .refused
          | none, _ => .error .missing := by
  unfold rename node?
  cases t.locate (Path.join dir source) with
  | error e => rfl
  | ok key =>
      cases t.locate (Path.join dir target) <;> rfl

/-- What is under the name decides whether a file can be written. -/
theorem write_congr (h : SamePlaces dir t u) (hn : IsName name)
    (h' : u.node? (Path.join dir name) = t.node? (Path.join dir name)) (text : String) :
    (u.write (Path.join dir name) text).map (fun _ => ()) =
      (t.write (Path.join dir name) text).map fun _ => () := by
  rw [write_join hn, write_join hn, h', h name hn]
  cases t.locate (Path.join dir name) with
  | error e => rfl
  | ok key =>
      simp only [Except.bind]
      split <;> rfl

/-- What is under the two names decides whether a file can be moved. -/
theorem rename_congr {source target : String} (h : SamePlaces dir t u) (hs : IsName source)
    (ht : IsName target) (hsource : u.node? (Path.join dir source) = t.node? (Path.join dir source))
    (htarget : u.node? (Path.join dir target) = t.node? (Path.join dir target)) :
    (u.rename (Path.join dir source) (Path.join dir target)).map (fun _ => ()) =
      (t.rename (Path.join dir source) (Path.join dir target)).map fun _ => () := by
  rw [rename_join, rename_join, hsource, htarget, h source hs, h target ht]
  cases t.locate (Path.join dir source) with
  | error e => rfl
  | ok key =>
      cases t.locate (Path.join dir target) with
      | error e => rfl
      | ok key' =>
          simp only [Except.bind]
          split <;> rfl

theorem places_of_keepsDirectories {key : String} (hn : IsName name)
    (h : t.locate (Path.join dir name) = .ok key) (hk : KeepsDirectories t u) :
    SamePlaces dir t u := by
  obtain ⟨lead, ho⟩ := opens_of_locate_join hn h
  exact ho.samePlaces (ho.mono hk)

/-- A file that has been written is there, and nothing else has changed. -/
theorem changesOnly_of_write {text : String} (hn : IsName name)
    (h : t.write (Path.join dir name) text = .ok u) :
    ChangesOnly dir (· = name) t u ∧ u.node? (Path.join dir name) = some (.file (.text text)) := by
  rw [write_join hn] at h
  cases hl : t.locate (Path.join dir name) with
  | error e => rw [hl] at h; cases h
  | ok key =>
      rw [hl, node?_of_locate_join hn hl] at h
      have hdir : t.entries.get? key ≠ some .directory := fun hd => by
        simp only [hd, Except.bind] at h
        cases h
      have hu : u = t.withText key text := by
        simp only [Except.bind] at h
        exact (Except.ok.inj h).symm
      have hplaces : SamePlaces dir t u := by
        rw [hu]
        exact places_of_keepsDirectories hn hl (keepsDirectories_withText hdir text)
      refine ⟨⟨hplaces, fun k hk => ?_⟩, ?_⟩
      · have hne : k ≠ key := fun he => hk name hn rfl (he ▸ hl)
        rw [hu, withText, Dictionary.get?_insert, if_neg hne]
      · rw [node?_of_locate_join hn ((hplaces name hn).trans hl), hu, withText,
          Dictionary.get?_insert, if_pos rfl]

theorem exists_remove {path : String} {c : Content} (h : t.node? path = some (.file c)) :
    ∃ u, t.remove path = .ok u := by
  unfold node? at h
  unfold remove
  cases hl : t.locate path with
  | error e => rw [hl] at h; cases h
  | ok key =>
      rw [hl] at h
      simp only [bind, Except.bind, h]
      exact ⟨_, rfl⟩

/-- A file that has been removed is gone, and nothing else has changed. -/
theorem changesOnly_of_remove (hn : IsName name) (h : t.remove (Path.join dir name) = .ok u) :
    ChangesOnly dir (· = name) t u ∧ u.node? (Path.join dir name) = none := by
  unfold remove at h
  cases hl : t.locate (Path.join dir name) with
  | error e => rw [hl] at h; cases h
  | ok key =>
      rw [hl] at h
      simp only [bind, Except.bind, at?_of_locate_join hn hl] at h
      split at h
      case h_2 => cases h
      case h_3 => cases h
      case h_1 content hfile =>
          have hu := (Except.ok.inj h).symm
          have hplaces : SamePlaces dir t u := by
            rw [hu]
            exact places_of_keepsDirectories hn hl (keepsDirectories_erase (by rw [hfile]; nofun))
          refine ⟨⟨hplaces, fun k hk => ?_⟩, ?_⟩
          · have hne : k ≠ key := fun he => hk name hn rfl (he ▸ hl)
            rw [hu, Dictionary.get?_erase, if_neg hne]
          · rw [node?_of_locate_join hn ((hplaces name hn).trans hl), hu, Dictionary.get?_erase,
              if_pos rfl]

/-- A file that has been moved is at its new place, and nothing else has changed. -/
theorem changesOnly_of_rename {source target : String} (hs : IsName source) (ht : IsName target)
    (hne : source ≠ target) (h : t.rename (Path.join dir source) (Path.join dir target) = .ok u) :
    ChangesOnly dir (fun name => name = source ∨ name = target) t u ∧
      u.node? (Path.join dir target) = t.node? (Path.join dir source) ∧
      u.node? (Path.join dir source) = none := by
  rw [rename_join] at h
  cases hls : t.locate (Path.join dir source) with
  | error e => rw [hls] at h; cases h
  | ok oldKey =>
  cases hlt : t.locate (Path.join dir target) with
  | error e => rw [hls, hlt] at h; cases h
  | ok newKey =>
      rw [hls, hlt, node?_of_locate_join hs hls, node?_of_locate_join ht hlt] at h
      simp only [Except.bind] at h
      split at h
      case h_1 => cases h
      case h_3 => cases h
      case h_4 => cases h
      case h_2 content hfile hdir =>
          have hu := (Except.ok.inj h).symm
          have hplace : oldKey ≠ newKey := fun he => hne (locate_join_injective hs ht hls (he ▸ hlt))
          have hget : ∀ k, u.entries.get? k = if k = newKey then some (.file content)
              else if k = oldKey then none else t.entries.get? k := fun k => by
            rw [hu, Dictionary.get?_insert, Dictionary.get?_erase]
          have hkeep : KeepsDirectories t u := keepsDirectories_of_get? fun k hk => by
            have hnew : k ≠ newKey := fun he => hdir (he ▸ hk)
            have hold : k ≠ oldKey := fun he => by rw [he, hfile] at hk; cases hk
            rw [hget, if_neg hnew, if_neg hold, hk]
          have hplaces := places_of_keepsDirectories hs hls hkeep
          refine ⟨⟨hplaces, fun k hk => ?_⟩, ?_, ?_⟩
          · have hnew : k ≠ newKey := fun he => hk target ht (.inr rfl) (he ▸ hlt)
            have hold : k ≠ oldKey := fun he => hk source hs (.inl rfl) (he ▸ hls)
            rw [hget, if_neg hnew, if_neg hold]
          · rw [node?_of_locate_join ht ((hplaces target ht).trans hlt), hget, if_pos rfl,
              node?_of_locate_join hs hls, hfile]
          · rw [node?_of_locate_join hs ((hplaces source hs).trans hls), hget, if_neg hplace,
              if_pos rfl]

end RouteServer.Files.Tree

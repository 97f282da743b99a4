import Mathlib.Data.List.Basic
import Mathlib.Data.List.TakeWhile
import RouteServer.Text.Split

/-!
# Text — cutting undoes joining

Pieces without the separator, joined by it, are what the cut gives back; a lead that is put in front
is what `stripStart` takes off; and `splitOnce` cuts at the first place where its separator starts.

Where a text is cut at its quotes, every second piece is a quoted word.  This is how a daemon finds
one: quotes are taken in pairs, and the text in a pair is the word of the statement whose name ends
right in front of it.  There are no escapes, so a word that is put in quotes is read up to its first
quote (`readQuoted_append`), and comes back as it was exactly when there is none in it.
-/

namespace RouteServer.Text

/-! ### Cutting at a character -/

theorem splitAt_ne_nil (sep : Char) (cs : List Char) : splitAt sep cs ≠ [] := by
  induction cs with
  | nil => simp [splitAt]
  | cons c cs ih =>
      unfold splitAt
      split
      · simp
      · split <;> simp

theorem splitAt_cons_ne {sep c : Char} (h : c ≠ sep) (cs : List Char) :
    ∃ piece rest, splitAt sep cs = piece :: rest ∧ splitAt sep (c :: cs) = (c :: piece) :: rest := by
  cases hs : splitAt sep cs with
  | nil => exact absurd hs (splitAt_ne_nil sep cs)
  | cons piece rest => exact ⟨piece, rest, rfl, by simp [splitAt, h, hs]⟩

/-- A cut at a separator is a cut on either side of it. -/
theorem splitAt_append (sep : Char) (xs ys : List Char) :
    splitAt sep (xs ++ sep :: ys) = splitAt sep xs ++ splitAt sep ys := by
  induction xs with
  | nil => simp [splitAt]
  | cons x xs ih =>
      by_cases h : x = sep
      · subst h; simp [splitAt, ih]
      · obtain ⟨p, r, hp, hc⟩ := splitAt_cons_ne h xs
        rw [hc, List.cons_append]
        simp [splitAt, h, ih, hp]

theorem splitAt_of_notMem {sep : Char} {xs : List Char} (h : sep ∉ xs) : splitAt sep xs = [xs] := by
  induction xs with
  | nil => rfl
  | cons x xs ih =>
      have hx : x ≠ sep := fun he => h (he ▸ List.mem_cons_self)
      simp [splitAt, hx, ih fun hm => h (List.mem_cons_of_mem _ hm)]

/-- Pieces without the separator, joined by it, are cut again as they were. -/
theorem splitAt_intercalate {sep : Char} {ls : List (List Char)} (hne : ls ≠ [])
    (h : ∀ l ∈ ls, sep ∉ l) : splitAt sep ([sep].intercalate ls) = ls := by
  induction ls with
  | nil => exact absurd rfl hne
  | cons l ls ih =>
      have hl : sep ∉ l := h l List.mem_cons_self
      cases ls with
      | nil => simpa using splitAt_of_notMem hl
      | cons m ls =>
          have hrest := ih (by simp) fun k hk => h k (List.mem_cons_of_mem _ hk)
          rw [List.intercalate_cons_cons, List.append_assoc, List.singleton_append,
            splitAt_append, splitAt_of_notMem hl, hrest]
          rfl

/-- Joining undoes cutting. -/
theorem intercalate_splitAt (sep : Char) (cs : List Char) :
    [sep].intercalate (splitAt sep cs) = cs := by
  induction cs with
  | nil => rfl
  | cons c cs ih =>
      obtain ⟨piece, rest, hsplit⟩ := List.exists_cons_of_ne_nil (splitAt_ne_nil sep cs)
      by_cases h : c = sep
      · subst h
        rw [splitAt, if_pos rfl, hsplit, List.intercalate_cons_cons, ← hsplit, ih]
        rfl
      · obtain ⟨p, r, hp, hc⟩ := splitAt_cons_ne h cs
        rw [hp] at ih
        rw [hc]
        cases r with
        | nil => simpa using ih
        | cons q r =>
            rw [List.intercalate_cons_cons] at ih ⊢
            rw [List.cons_append, List.cons_append, ih]

theorem notMem_of_mem_splitAt {sep : Char} {cs piece : List Char} (h : piece ∈ splitAt sep cs) :
    sep ∉ piece := by
  induction cs generalizing piece with
  | nil => simp [splitAt] at h; simp [h]
  | cons c cs ih =>
      by_cases hc : c = sep
      · subst hc
        simp only [splitAt, if_true, List.mem_cons] at h
        rcases h with rfl | h
        · exact List.not_mem_nil
        · exact ih h
      · obtain ⟨p, r, hp, hs⟩ := splitAt_cons_ne hc cs
        rw [hs] at h
        rcases List.mem_cons.1 h with rfl | h
        · have := ih (hp ▸ List.mem_cons_self)
          simp [Ne.symm hc, this]
        · exact ih (hp ▸ List.mem_cons_of_mem p h)

theorem mem_intercalate_iff {sep c : Char} {ls : List (List Char)} (hc : c ≠ sep) :
    c ∈ [sep].intercalate ls ↔ ∃ l ∈ ls, c ∈ l := by
  induction ls with
  | nil => simp
  | cons l ls ih =>
      cases ls with
      | nil => simp
      | cons m ls =>
          rw [List.intercalate_cons_cons, List.exists_mem_cons_iff, ← ih]
          simp [hc]

/-- The pieces of a text are those without the separator that it joins. -/
theorem pieces_eq_iff {sep : Char} {s : String} {ps : List String} (hne : ps ≠ []) :
    pieces sep s = ps ↔
      s.toList = [sep].intercalate (ps.map String.toList) ∧ ∀ p ∈ ps, sep ∉ p.toList := by
  have hlists : pieces sep s = ps ↔ splitAt sep s.toList = ps.map String.toList := by
    have hinj : Function.Injective String.toList := fun _ _ => String.toList_inj.1
    rw [pieces, ← (List.map_injective_iff.2 hinj).eq_iff, List.map_map]
    simp [Function.comp_def]
  rw [hlists]
  constructor
  · intro h
    refine ⟨by rw [← h, intercalate_splitAt], fun p hp => ?_⟩
    exact notMem_of_mem_splitAt (h ▸ List.mem_map_of_mem hp)
  · rintro ⟨hs, hp⟩
    rw [hs]
    exact splitAt_intercalate (by simpa using hne) (List.forall_mem_map.2 hp)

/-! ### A lead -/

@[simp] theorem stripStart_append (lead cs : List Char) : stripStart lead (lead ++ cs) = some cs := by
  induction lead with
  | nil => simp [stripStart]
  | cons l lead ih => simp [stripStart, ih]

theorem stripStart_eq_some_iff {lead cs rest : List Char} :
    stripStart lead cs = some rest ↔ cs = lead ++ rest := by
  constructor
  · intro h
    induction lead generalizing cs with
    | nil => simpa [stripStart] using h
    | cons l lead ih =>
        cases cs with
        | nil => simp [stripStart] at h
        | cons c cs =>
            by_cases hc : l = c
            · subst hc
              simp only [stripStart, if_true] at h
              rw [ih h, List.cons_append]
            · simp [stripStart, hc] at h
  · rintro rfl
    exact stripStart_append lead rest

theorem afterStart_append (lead s : String) : afterStart lead (lead ++ s) = some s := by
  simp [afterStart]

theorem afterStart_eq_some_iff {lead s rest : String} :
    afterStart lead s = some rest ↔ s = lead ++ rest := by
  constructor
  · intro h
    obtain ⟨cs, hcs, rfl⟩ := Option.map_eq_some_iff.1 h
    apply String.toList_inj.1
    rw [stripStart_eq_some_iff.1 hcs, String.toList_append, String.toList_ofList]
  · rintro rfl
    exact afterStart_append lead rest

theorem startsWith_iff {lead s : String} : startsWith lead s ↔ lead.toList <+: s.toList := by
  unfold startsWith
  rw [Option.isSome_iff_exists]
  simp only [stripStart_eq_some_iff]
  exact ⟨fun ⟨r, h⟩ => ⟨r, h.symm⟩, fun ⟨r, h⟩ => ⟨r, h.symm⟩⟩

theorem endsWith_iff {tail s : String} : endsWith tail s ↔ tail.toList <:+ s.toList := by
  unfold endsWith stripEnd
  rw [Option.isSome_map, Option.isSome_iff_exists]
  simp only [stripStart_eq_some_iff]
  rw [← List.reverse_prefix]
  exact ⟨fun ⟨r, h⟩ => ⟨r, h.symm⟩, fun ⟨r, h⟩ => ⟨r, h.symm⟩⟩

/-! ### The first of a separator -/

/-- A cut at a character is where it stands first. -/
theorem splitOnce_singleton {sep : Char} {cs before after : List Char} :
    splitOnce [sep] cs = some (before, after) ↔ cs = before ++ sep :: after ∧ sep ∉ before := by
  induction cs generalizing before with
  | nil => simp [splitOnce]
  | cons c cs ih =>
      by_cases hc : c = sep
      · subst hc
        have hcut : splitOnce [c] (c :: cs) = some ([], cs) := by simp [splitOnce, stripStart]
        rw [hcut]
        cases before <;> simp +contextual [eq_comm]
      · have hs : stripStart [sep] (c :: cs) = none := by simp [stripStart, Ne.symm hc]
        rw [splitOnce, hs, Option.map_eq_some_iff]
        cases before with
        | nil => simp [hc]
        | cons b bs =>
            rw [List.cons_append, List.cons.injEq, List.mem_cons, not_or]
            constructor
            · rintro ⟨⟨x, y⟩, hxy, he⟩
              cases he
              obtain ⟨rfl, hx⟩ := ih.1 hxy
              exact ⟨⟨rfl, rfl⟩, Ne.symm hc, hx⟩
            · rintro ⟨⟨rfl, rfl⟩, -, hbs⟩
              exact ⟨(bs, after), ih.2 ⟨rfl, hbs⟩, rfl⟩

/-! ### The first of two separators in a row -/

/-- A cut of what stands behind some characters, with these in front. -/
def inFront (cs : List Char) : List Char × List Char → List Char × List Char
  | (before, after) => (cs ++ before, after)

theorem splitOnce_cons {sep c : Char} {cs : List Char} (h : c ≠ sep ∨ ∀ ds, cs ≠ sep :: ds) :
    splitOnce [sep, sep] (c :: cs) = (splitOnce [sep, sep] cs).map (inFront [c]) := by
  have hs : stripStart [sep, sep] (c :: cs) = none := by
    rw [Option.eq_none_iff_forall_not_mem]
    intro r hr
    have he : c :: cs = sep :: sep :: r := stripStart_eq_some_iff.1 hr
    obtain ⟨h₁, h₂⟩ := List.cons.inj he
    rcases h with h | h
    · exact h h₁
    · exact h r h₂
  rw [splitOnce, hs]
  rfl

theorem splitOnce_append {sep : Char} {xs : List Char} (h : sep ∉ xs) (cs : List Char) :
    splitOnce [sep, sep] (xs ++ cs) = (splitOnce [sep, sep] cs).map (inFront xs) := by
  induction xs with
  | nil => cases hs : splitOnce [sep, sep] cs <;> simp [inFront, hs]
  | cons x xs ih =>
      have hx : x ≠ sep := fun he => h (he ▸ List.mem_cons_self)
      rw [List.cons_append, splitOnce_cons (.inl hx), ih fun hm => h (List.mem_cons_of_mem _ hm),
        Option.map_map]
      rfl

/-- Pieces joined by one separator are in front of the first two in a row. -/
theorem splitOnce_intercalate {sep : Char} {ls : List (List Char)} (cs : List Char)
    (h : ∀ l ∈ ls, l ≠ [] ∧ sep ∉ l) :
    splitOnce [sep, sep] ([sep].intercalate ls ++ cs) =
      (splitOnce [sep, sep] cs).map (inFront ([sep].intercalate ls)) := by
  induction ls with
  | nil => cases hs : splitOnce [sep, sep] cs <;> simp [inFront, hs]
  | cons l ls ih =>
      have hl := h l List.mem_cons_self
      cases ls with
      | nil => simpa using splitOnce_append hl.2 cs
      | cons m ls =>
          have hm := h m (by simp)
          have hstart : ∀ ds, [sep].intercalate (m :: ls) ++ cs ≠ sep :: ds := by
            intro ds he
            obtain ⟨x, xs, rfl⟩ := List.exists_cons_of_ne_nil hm.1
            have hx : x = sep := by
              cases ls <;> simp [List.intercalate_cons_cons] at he <;> exact he.1
            exact hm.2 (hx ▸ List.mem_cons_self)
          have hrest := ih fun k hk => h k (List.mem_cons_of_mem _ hk)
          rw [List.intercalate_cons_cons, List.append_assoc, List.append_assoc,
            List.singleton_append, splitOnce_append hl.2, splitOnce_cons (.inr hstart), hrest,
            Option.map_map, Option.map_map]
          congr 1
          funext ⟨b, a⟩
          simp [inFront]

@[simp] theorem splitOnce_pair_self (sep : Char) (cs : List Char) :
    splitOnce [sep, sep] (sep :: sep :: cs) = some ([], cs) := by
  simp [splitOnce, stripStart]

/-! ### Texts in parts -/

/-- Parts in a row are a part of the text. -/
theorem exists_of_infix {ps qs : List String} (h : ps <:+: qs) :
    ∃ front back, String.join qs = front ++ String.join ps ++ back := by
  obtain ⟨front, back, rfl⟩ := h
  exact ⟨String.join front, String.join back, by rw [String.join_append, String.join_append]⟩

theorem infix_flatMap {α β : Type} {xs : List α} {x : α} (hx : x ∈ xs) (w : α → List β) :
    w x <:+: xs.flatMap w := by
  rw [List.flatMap_def]
  exact List.infix_of_mem_flatten (List.mem_map_of_mem hx)

/-! ### Quoted statements -/

/-- The first quoted text with a name in front, where texts outside and inside of quotes take
turns. -/
def readQuoted (name : List Char) : List (List Char) → Option (List Char)
  | outside :: inside :: next :: rest =>
    if name <:+ outside then some inside else readQuoted name (next :: rest)
  | _ => none

/-- The text of the first statement with a name: what stands between the quote behind the name and
the next one. -/
def readStatement (name text : String) : Option String :=
  (readQuoted (name ++ " ").toList (splitAt '"' text.toList)).map String.ofList

/-- A text up to its first quote. -/
def untilQuote (s : String) : String := String.ofList (s.toList.takeWhile (· ≠ '"'))

theorem untilQuote_eq_self_iff {s : String} : untilQuote s = s ↔ '"' ∉ s.toList := by
  rw [untilQuote, ← String.toList_inj, String.toList_ofList, List.takeWhile_eq_self_iff]
  simp only [decide_eq_true_eq]
  exact ⟨fun h hmem => h _ hmem rfl, fun h c hc he => h (he ▸ hc)⟩

theorem splitAt_eq_cons (sep : Char) (cs : List Char) :
    ∃ rest, splitAt sep cs = cs.takeWhile (· ≠ sep) :: rest := by
  induction cs with
  | nil => exact ⟨[], rfl⟩
  | cons c cs ih =>
      by_cases hc : c = sep
      · exact ⟨splitAt sep cs, by simp [splitAt, hc]⟩
      · obtain ⟨rest, hrest⟩ := ih
        exact ⟨rest, by simp [splitAt, hc, hrest]⟩

variable {name : List Char} {head s rest : List Char}

/-- A quoted text is cut off at its first quote. -/
theorem readQuoted_append (hhead : '"' ∉ head) (hname : name <:+ head) :
    readQuoted name (splitAt '"' (head ++ '"' :: (s ++ '"' :: rest))) =
      some (s.takeWhile (· ≠ '"')) := by
  obtain ⟨more, hs⟩ := splitAt_eq_cons '"' s
  obtain ⟨next, last, hrest⟩ := List.exists_cons_of_ne_nil (splitAt_ne_nil '"' rest)
  rw [splitAt_append, splitAt_append, splitAt_of_notMem hhead, hs, hrest]
  cases more <;> simp [readQuoted, hname]

/-- A quoted text with another name is passed over. -/
theorem readQuoted_skip (hhead : '"' ∉ head) (hs : '"' ∉ s) (hname : ¬ name <:+ head) :
    readQuoted name (splitAt '"' (head ++ '"' :: (s ++ '"' :: rest))) =
      readQuoted name (splitAt '"' rest) := by
  obtain ⟨next, last, hrest⟩ := List.exists_cons_of_ne_nil (splitAt_ne_nil '"' rest)
  rw [splitAt_append, splitAt_append, splitAt_of_notMem hhead, splitAt_of_notMem hs, hrest]
  simp [readQuoted, hname]

end RouteServer.Text

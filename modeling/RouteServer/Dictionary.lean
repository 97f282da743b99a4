/-!
# Dictionary

Finite maps from texts.  A dictionary is the list of its entries in the order of their keys, code
point by code point, so that two dictionaries with the same entries are equal.  `get?` is the view:
`get?_insert` says what an insertion does to it.
-/

namespace RouteServer

/-- A finite map from texts to values, its entries in the order of their keys. -/
structure Dictionary (α : Type) where
  entries : List (String × α)
  sorted : entries.Pairwise (fun e f => e.1 < f.1)

namespace Dictionary

variable {α β : Type}

instance [DecidableEq α] : DecidableEq (Dictionary α) := fun d e =>
  if h : d.entries = e.entries then isTrue (by cases d; cases e; simp_all)
  else isFalse fun he => h (by rw [he])

/-- No entries. -/
def empty : Dictionary α := ⟨[], .nil⟩

instance : Inhabited (Dictionary α) := ⟨empty⟩

/-- The keys in order. -/
def keys (d : Dictionary α) : List String := d.entries.map (·.1)

/-- The values in the order of their keys. -/
def values (d : Dictionary α) : List α := d.entries.map (·.2)

/-- How many entries there are. -/
def size (d : Dictionary α) : Nat := d.entries.length

/-- Whether there is no entry. -/
def isEmpty (d : Dictionary α) : Bool := d.entries.isEmpty

/-- The value under a key. -/
def find? (key : String) : List (String × α) → Option α
  | [] => none
  | (k, v) :: es => if k = key then some v else find? key es

/-- The value under a key. -/
def get? (d : Dictionary α) (key : String) : Option α := find? key d.entries

/-- Whether there is an entry under a key. -/
def contains (d : Dictionary α) (key : String) : Bool := (d.get? key).isSome

/-- Puts an entry in its place, in place of the one with its key. -/
def place (key : String) (value : α) : List (String × α) → List (String × α)
  | [] => [(key, value)]
  | (k, v) :: es =>
    if key < k then (key, value) :: (k, v) :: es
    else if k = key then (key, value) :: es
    else (k, v) :: place key value es

theorem mem_place {key : String} {value : α} {es : List (String × α)} {e : String × α}
    (h : e ∈ place key value es) : e = (key, value) ∨ e ∈ es := by
  induction es with
  | nil => simpa [place] using h
  | cons f es ih =>
    obtain ⟨k, v⟩ := f
    unfold place at h
    split at h
    · simpa using h
    · split at h
      · rcases List.mem_cons.1 h with h | h
        · exact .inl h
        · exact .inr (List.mem_cons_of_mem _ h)
      · rcases List.mem_cons.1 h with h | h
        · exact .inr (h ▸ List.mem_cons_self)
        · rcases ih h with h | h
          · exact .inl h
          · exact .inr (List.mem_cons_of_mem _ h)

theorem pairwise_place {key : String} {value : α} {es : List (String × α)}
    (h : es.Pairwise (fun e f => e.1 < f.1)) :
    (place key value es).Pairwise (fun e f => e.1 < f.1) := by
  induction es with
  | nil => simp [place]
  | cons f es ih =>
    obtain ⟨k, v⟩ := f
    obtain ⟨hk, hes⟩ := List.pairwise_cons.1 h
    unfold place
    split
    case isTrue hlt =>
      refine List.pairwise_cons.2 ⟨fun g hg => ?_, h⟩
      rcases List.mem_cons.1 hg with hg | hg
      · subst hg; exact hlt
      · exact String.lt_trans hlt (hk g hg)
    case isFalse hnlt =>
      split
      case isTrue heq =>
        subst heq
        exact List.pairwise_cons.2 ⟨hk, hes⟩
      case isFalse hne =>
        refine List.pairwise_cons.2 ⟨fun g hg => ?_, ih hes⟩
        rcases mem_place hg with hg | hg
        · subst hg
          have hle : k ≤ key := String.not_lt.1 hnlt
          exact Std.lt_of_le_of_ne hle hne
        · exact hk g hg

/-- The dictionary with one more entry, or with the value of its key replaced. -/
def insert (d : Dictionary α) (key : String) (value : α) : Dictionary α :=
  ⟨place key value d.entries, pairwise_place d.sorted⟩

/-- The dictionary with the value under a key changed, when there is one. -/
def modify (d : Dictionary α) (key : String) (f : α → α) : Dictionary α :=
  match d.get? key with
  | none => d
  | some v => d.insert key (f v)

/-- The dictionary with the values changed. -/
def map (f : String → α → β) (d : Dictionary α) : Dictionary β :=
  ⟨d.entries.map fun e => (e.1, f e.1 e.2), by
    rw [List.pairwise_map]
    exact d.sorted⟩

/-- The dictionary without the entries that do not pass. -/
def filter (p : String → α → Bool) (d : Dictionary α) : Dictionary α :=
  ⟨d.entries.filter fun e => p e.1 e.2, d.sorted.sublist List.filter_sublist⟩

/-- The dictionary without the entry under a key. -/
def erase (d : Dictionary α) (key : String) : Dictionary α := d.filter fun k _ => k ≠ key

/-- The dictionary of some entries; of two with one key the later counts. -/
def ofList (es : List (String × α)) : Dictionary α :=
  es.foldl (fun d e => d.insert e.1 e.2) empty

/-! ### The view -/

theorem find?_place_self (key : String) (value : α) (es : List (String × α)) :
    find? key (place key value es) = some value := by
  induction es with
  | nil => simp [place, find?]
  | cons e es ih =>
    obtain ⟨k, v⟩ := e
    unfold place
    split
    · simp [find?]
    · split
      · simp [find?]
      · simp [find?, *]

theorem find?_place_ne {key other : String} (value : α) (es : List (String × α))
    (h : other ≠ key) : find? other (place key value es) = find? other es := by
  induction es with
  | nil => simp [place, find?, Ne.symm h]
  | cons e es ih =>
    obtain ⟨k, v⟩ := e
    unfold place
    split
    · simp [find?, Ne.symm h]
    · split
      case isTrue hk => subst hk; simp [find?, Ne.symm h]
      case isFalse => simp [find?, ih]

/-- An insertion changes the view at its key only. -/
theorem get?_insert (d : Dictionary α) (key other : String) (value : α) :
    (d.insert key value).get? other = if other = key then some value else d.get? other := by
  unfold get? insert
  split
  case isTrue h => subst h; exact find?_place_self ..
  case isFalse h => exact find?_place_ne _ _ h

end Dictionary

end RouteServer

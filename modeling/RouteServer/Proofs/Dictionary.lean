import Mathlib.Data.List.Nodup
import RouteServer.Dictionary

/-!
# Dictionary — what the operations do to the view

A dictionary is what `get?` sees of it.  An operation is described by the view of its result, and
the keys are in order and none stands twice, so a dictionary whose keys are known is known.
-/

namespace RouteServer.Dictionary

variable {α β : Type}

@[simp] theorem get?_empty (key : String) : (empty : Dictionary α).get? key = none := rfl

theorem find?_mem {key : String} {v : α} :
    ∀ {es : List (String × α)}, find? key es = some v → (key, v) ∈ es
  | (k, w) :: es, h => by
      unfold find? at h
      split at h
      case isTrue hk => subst hk; cases h; exact List.mem_cons_self
      case isFalse => exact List.mem_cons_of_mem _ (find?_mem h)

theorem find?_of_mem {key : String} {v : α} {es : List (String × α)}
    (hs : es.Pairwise (fun e f => e.1 < f.1)) (h : (key, v) ∈ es) : find? key es = some v := by
  induction es with
  | nil => cases h
  | cons e es ih =>
      obtain ⟨k, w⟩ := e
      obtain ⟨hk, hes⟩ := List.pairwise_cons.1 hs
      rcases List.mem_cons.1 h with h | h
      · cases h; simp [find?]
      · have hne : k ≠ key := fun he => String.lt_irrefl key (he ▸ hk _ h)
        simp [find?, hne, ih hes h]

/-- A value is seen under a key just when they are an entry. -/
theorem get?_eq_some_iff {d : Dictionary α} {key : String} {v : α} :
    d.get? key = some v ↔ (key, v) ∈ d.entries :=
  ⟨find?_mem, find?_of_mem d.sorted⟩

theorem contains_iff {d : Dictionary α} {key : String} : d.contains key ↔ key ∈ d.keys := by
  unfold contains keys
  rw [Option.isSome_iff_exists]
  simp [get?_eq_some_iff]

theorem get?_eq_none_iff {d : Dictionary α} {key : String} : d.get? key = none ↔ key ∉ d.keys := by
  rw [← contains_iff, contains]
  cases d.get? key <;> simp

/-- The keys are in order, so none stands twice. -/
theorem keys_pairwise (d : Dictionary α) : d.keys.Pairwise (· < ·) :=
  List.pairwise_map.2 d.sorted

theorem keys_nodup (d : Dictionary α) : d.keys.Nodup := by
  refine d.keys_pairwise.imp fun {a b} (h : a < b) (he : a = b) => ?_
  exact String.lt_irrefl b (he ▸ h)

/-- A dictionary is what `get?` sees of it. -/
theorem ext_get? {d e : Dictionary α} (h : ∀ key, d.get? key = e.get? key) : d = e := by
  obtain ⟨ds, hds⟩ := d
  obtain ⟨es, hes⟩ := e
  have hmem : ∀ x, x ∈ ds ↔ x ∈ es := fun (k, v) => by
    rw [← get?_eq_some_iff (d := ⟨ds, hds⟩), ← get?_eq_some_iff (d := ⟨es, hes⟩), h]
  have hne : ∀ {x y : String × α}, x.1 < y.1 → x ≠ y := fun hlt he =>
    String.lt_irrefl _ (he ▸ hlt)
  have hperm : ds.Perm es :=
    (List.perm_ext_iff_of_nodup (hds.imp hne) (hes.imp hne)).2 hmem
  congr
  exact hperm.eq_of_pairwise (fun a b _ _ hab hba => absurd rfl (hne (String.lt_trans hab hba)))
    hds hes

theorem get?_map (f : String → α → β) (d : Dictionary α) (key : String) :
    (d.map f).get? key = (d.get? key).map (f key) := by
  change find? key (d.entries.map fun e => (e.1, f e.1 e.2)) = (find? key d.entries).map (f key)
  induction d.entries with
  | nil => rfl
  | cons e es ih =>
      obtain ⟨k, v⟩ := e
      by_cases h : k = key
      · simp [find?, h]
      · simpa [find?, h] using ih

theorem get?_modify (d : Dictionary α) (key other : String) (f : α → α) :
    (d.modify key f).get? other =
      if other = key then (d.get? key).map f else d.get? other := by
  unfold modify
  split
  case h_1 h =>
      split
      case isTrue he => rw [he, h]; rfl
      case isFalse => rfl
  case h_2 v h => rw [get?_insert, h]; rfl

theorem mem_keys_modify {d : Dictionary α} {key other : String} {f : α → α} :
    other ∈ (d.modify key f).keys ↔ other ∈ d.keys := by
  simp only [← contains_iff, contains, get?_modify]
  split
  case isTrue h => rw [h, Option.isSome_map]
  case isFalse => rfl

theorem contains_insert (d : Dictionary α) (key other : String) (v : α) :
    (d.insert key v).contains other = (decide (other = key) || d.contains other) := by
  unfold contains
  rw [get?_insert]
  by_cases h : other = key <;> simp [h]

theorem get?_erase (d : Dictionary α) (key other : String) :
    (d.erase key).get? other = if other = key then none else d.get? other := by
  split
  case isTrue h =>
      subst h
      rw [get?_eq_none_iff]
      simp [keys, erase, filter]
  case isFalse h =>
      refine Option.ext fun v => ?_
      simp only [get?_eq_some_iff, erase, filter, List.mem_filter]
      simp [h]

theorem mem_keys_insert {d : Dictionary α} {key other : String} {v : α} :
    other ∈ (d.insert key v).keys ↔ other = key ∨ other ∈ d.keys := by
  rw [← contains_iff, contains_insert, Bool.or_eq_true, decide_eq_true_iff, contains_iff]

theorem mem_keys_foldl_insert {es : List (String × α)} {d : Dictionary α} {key : String} :
    key ∈ (es.foldl (fun d e => d.insert e.1 e.2) d).keys ↔
      key ∈ d.keys ∨ key ∈ es.map (·.1) := by
  induction es generalizing d with
  | nil => simp
  | cons e es ih =>
      rw [List.foldl_cons, ih, mem_keys_insert, List.map_cons, List.mem_cons, or_left_comm,
        or_assoc]

theorem mem_keys_ofList {es : List (String × α)} {key : String} :
    key ∈ (ofList es).keys ↔ key ∈ es.map (·.1) := by
  unfold ofList
  rw [mem_keys_foldl_insert]
  simp [keys, empty]

/-- The entries of the dictionary of some entries are some of them. -/
theorem mem_of_mem_ofList {es : List (String × α)} {e : String × α}
    (h : e ∈ (ofList es).entries) : e ∈ es := by
  suffices H : ∀ d : Dictionary α, e ∈ (es.foldl (fun d e => d.insert e.1 e.2) d).entries →
      e ∈ d.entries ∨ e ∈ es from (H empty h).resolve_left List.not_mem_nil
  clear h
  induction es with
  | nil => exact fun d h => .inl h
  | cons f es ih =>
      intro d h
      rcases ih _ h with h | h
      · rcases mem_place h with rfl | h
        · exact .inr List.mem_cons_self
        · exact .inl h
      · exact .inr (List.mem_cons_of_mem _ h)

/-- Where no key stands twice, the dictionary of some entries has each of them. -/
theorem get?_ofList_eq_some_iff {es : List (String × α)} (hkeys : (es.map (·.1)).Nodup)
    {key : String} {v : α} : (ofList es).get? key = some v ↔ (key, v) ∈ es := by
  refine ⟨fun h => mem_of_mem_ofList (get?_eq_some_iff.1 h), fun h => ?_⟩
  have hkey : key ∈ (ofList es).keys := mem_keys_ofList.2 (List.mem_map_of_mem (f := (·.1)) h)
  obtain ⟨e, he, rfl⟩ := List.mem_map.1 hkey
  have hsame : e = (e.1, v) := List.inj_on_of_nodup_map hkeys (mem_of_mem_ofList he) h rfl
  exact get?_eq_some_iff.2 (hsame ▸ he)

theorem place_of_lt {key : String} {v : α} {es : List (String × α)}
    (h : ∀ e ∈ es, e.1 < key) : place key v es = es ++ [(key, v)] := by
  induction es with
  | nil => rfl
  | cons e es ih =>
      obtain ⟨k, w⟩ := e
      have hk : k < key := h _ List.mem_cons_self
      have h₁ : ¬ key < k := String.lt_asymm hk
      have h₂ : k ≠ key := fun he => String.lt_irrefl key (he ▸ hk)
      simp only [place, h₁, h₂, if_false]
      rw [ih fun e he => h e (List.mem_cons_of_mem _ he)]
      rfl

/-- Entries that are in order already are the entries of their dictionary. -/
theorem entries_ofList {es : List (String × α)} (hs : es.Pairwise (fun e f => e.1 < f.1)) :
    (ofList es).entries = es := by
  have key : ∀ (es : List (String × α)) (d : Dictionary α),
      (d.entries ++ es).Pairwise (fun e f => e.1 < f.1) →
      (es.foldl (fun d e => d.insert e.1 e.2) d).entries = d.entries ++ es := by
    intro es
    induction es with
    | nil => intro d _; simp
    | cons e es ih =>
        intro d h
        have hlt : ∀ f ∈ d.entries, f.1 < e.1 := fun f hf =>
          (List.pairwise_append.1 h).2.2 f hf e List.mem_cons_self
        have hins : (d.insert e.1 e.2).entries = d.entries ++ [e] := place_of_lt hlt
        rw [List.foldl_cons, ih, hins, List.append_assoc]
        · rfl
        · rw [hins, List.append_assoc]; exact h
  exact key es empty hs

end RouteServer.Dictionary

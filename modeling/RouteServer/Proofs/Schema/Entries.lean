import RouteServer.Proofs.Schema.Section

/-!
# Schema — entries put in one after the other

A normal form is built by putting in one entry after the other (`insertAll`).  An entry whose name
is there already takes the place of the earlier one, so what stands under a name is the last that
was put in under it (`lookup?_insertAll`); where the names are all different nothing is replaced
(`insertAll_of_nodup`).
-/

namespace RouteServer.Schema

open RouteServer.Yaml

/-- Some entries with others put in one after the other. -/
def insertAll (out es : List (Value × Value)) : List (Value × Value) :=
  es.foldl (fun out e => Value.insertEntry out e.1 e.2) out

/-- Entries under names. -/
def named (es : List (String × Value)) : List (Value × Value) := es.map fun e => (.string e.1, e.2)

theorem same_string_eq (key : Value) (name : String) :
    key.same (.string name) = key.isName name := by
  cases key <;> simp [Value.same, Value.isName, Bool.beq_eq_decide_eq]

theorem string_same (name : String) (key : Value) :
    (Value.string name).same key = key.isName name := by
  cases key <;> simp [Value.same, Value.isName, Bool.beq_eq_decide_eq, eq_comm]

theorem isName_iff {key : Value} {name : String} : key.isName name = true ↔ key = .string name := by
  cases key <;> simp [Value.isName]

theorem lookup?_cons (e : Value × Value) (es : List (Value × Value)) (name : String) :
    Value.lookup? name (e :: es) =
      bif e.1.isName name then some e.2 else Value.lookup? name es := by
  unfold Value.lookup?
  rw [List.find?_cons]
  cases e.1.isName name <;> rfl

theorem lookup?_append (front back : List (Value × Value)) (name : String) :
    Value.lookup? name (front ++ back) =
      (Value.lookup? name front).or (Value.lookup? name back) := by
  unfold Value.lookup?
  rw [List.find?_append, Option.map_or]

theorem lookup?_eq_none_iff {es : List (Value × Value)} {name : String} :
    Value.lookup? name es = none ↔ ∀ e ∈ es, e.1.isName name = false := by
  simp [Value.lookup?]

/-- What stands under a name that no other entry has. -/
theorem lookup?_named {fs : List (String × Value)} (hnames : (fs.map (·.1)).Nodup) {name : String}
    {v : Value} (h : (name, v) ∈ fs) : Value.lookup? name (named fs) = some v := by
  induction fs with
  | nil => cases h
  | cons f fs ih =>
      rw [List.map_cons, List.nodup_cons] at hnames
      rw [named, List.map_cons, lookup?_cons, ← named]
      rcases List.mem_cons.1 h with rfl | h
      · simp [Value.isName]
      · have hne : f.1 ≠ name := fun hsame =>
          hnames.1 (hsame ▸ List.mem_map_of_mem (f := (·.1)) h)
        simpa [Value.isName, hne] using ih hnames.2 h

theorem mem_of_lookup?_named {fs : List (String × Value)} {name : String} {v : Value}
    (h : Value.lookup? name (named fs) = some v) : (name, v) ∈ fs := by
  obtain ⟨e, he, rfl⟩ := Option.map_eq_some_iff.1 h
  obtain ⟨f, hf, rfl⟩ := List.mem_map.1 (List.mem_of_find?_eq_some he)
  have hisName : (Value.string f.1).isName name = true :=
    List.find?_some (p := fun e : Value × Value => e.1.isName name) he
  exact of_decide_eq_true hisName ▸ hf

theorem getD_named {fs : List (String × Value)} (hnames : (fs.map (·.1)).Nodup) {name : String}
    {v : Value} (h : (name, v) ∈ fs) : (Value.mapping (named fs)).getD name = v := by
  have hget : (Value.mapping (named fs)).get? name = some v := lookup?_named hnames h
  rw [Value.getD, hget, Option.getD_some]

/-- A changed value stands where the old one stood. -/
theorem lookup?_replaced (es : List (Value × Value)) (name other : String) (v : Value) :
    Value.lookup? other (es.map fun e => if e.1.isName name then (e.1, v) else e) =
      if other = name then (Value.lookup? name es).map fun _ => v else Value.lookup? other es := by
  induction es with
  | nil => simp [Value.lookup?]
  | cons e es ih =>
      rw [List.map_cons, lookup?_cons, ih, lookup?_cons, lookup?_cons]
      by_cases hname : e.1.isName name = true
      · rw [if_pos hname, hname, isName_iff.1 hname]
        by_cases h : other = name
        · simp [h, Value.isName]
        · simp [h, Ne.symm h, Value.isName]
      · rw [if_neg hname, Bool.eq_false_iff.2 hname]
        split
        case isTrue h => rw [h, Bool.eq_false_iff.2 hname]; rfl
        case isFalse => rfl

/-- What is put in under a name stands under it, and nothing else has changed. -/
theorem lookup?_insertEntry (es : List (Value × Value)) (name other : String) (v : Value) :
    Value.lookup? other (Value.insertEntry es (.string name) v) =
      if other = name then some v else Value.lookup? other es := by
  unfold Value.insertEntry
  simp only [same_string_eq]
  split
  case isTrue h =>
      have hthere : (Value.lookup? name es).isSome := by
        rw [Option.isSome_iff_ne_none, Ne, lookup?_eq_none_iff]
        obtain ⟨e, he, hname⟩ := List.any_eq_true.1 h
        exact fun hnone => absurd hname (by simp [hnone e he])
      rw [lookup?_replaced]
      obtain ⟨w, hw⟩ := Option.isSome_iff_exists.1 hthere
      rw [hw, Option.map_some]
  case isFalse h =>
      have hnone : Value.lookup? name es = none := by
        rw [lookup?_eq_none_iff]
        intro e he
        rw [Bool.eq_false_iff]
        exact fun hname => h (List.any_eq_true.2 ⟨e, he, hname⟩)
      rw [lookup?_append, lookup?_cons]
      split
      case isTrue hother => simp [hother, hnone, Value.isName]
      case isFalse hother => simp [Ne.symm hother, Value.isName, Value.lookup?]

/-- **The last entry counts.** -/
theorem lookup?_insertAll (out : List (Value × Value)) (es : List (String × Value))
    (name : String) :
    Value.lookup? name (insertAll out (named es)) =
      ((es.reverse.find? (·.1 = name)).map (·.2)).or (Value.lookup? name out) := by
  unfold insertAll named
  induction es generalizing out with
  | nil => simp
  | cons e es ih =>
      rw [List.map_cons, List.foldl_cons, ih, lookup?_insertEntry, List.reverse_cons,
        List.find?_append]
      cases es.reverse.find? (·.1 = name) with
      | some f => simp
      | none =>
          by_cases h : name = e.1
          · simp [h]
          · simp [h, Ne.symm h]

/-- Entries with names of their own are kept as they are. -/
theorem insertAll_of_nodup {out : List (Value × Value)} {es : List (String × Value)}
    (hnames : (es.map (·.1)).Nodup) (hnew : ∀ e ∈ es, ∀ f ∈ out, f.1.isName e.1 = false) :
    insertAll out (named es) = out ++ named es := by
  unfold insertAll named
  induction es generalizing out with
  | nil => simp
  | cons e es ih =>
      rw [List.map_cons, List.nodup_cons] at hnames
      have hfirst : Value.insertEntry out (.string e.1) e.2 = out ++ [(.string e.1, e.2)] :=
        insertEntry_of_new fun f hf => by rw [same_string_eq, hnew e List.mem_cons_self f hf]
      have hrest : ∀ g ∈ es, ∀ f ∈ out ++ [(Value.string e.1, e.2)], f.1.isName g.1 = false := by
        intro g hg f hf
        rcases List.mem_append.1 hf with hf | hf
        · exact hnew g (List.mem_cons_of_mem _ hg) f hf
        · rw [List.mem_singleton.1 hf]
          refine decide_eq_false fun h => hnames.1 ?_
          exact h ▸ List.mem_map_of_mem (f := (·.1)) hg
      rw [List.map_cons, List.foldl_cons, hfirst, ih hnames.2 hrest, List.append_assoc]
      rfl

/-- What is put into entries under names of their own is one of such entries, too. -/
theorem insertEntry_named {fs : List (String × Value)} (hnames : (fs.map (·.1)).Nodup)
    (name : String) (v : Value) :
    ∃ gs, Value.insertEntry (named fs) (.string name) v = named gs ∧ (gs.map (·.1)).Nodup ∧
      ∀ g ∈ gs, g = (name, v) ∨ g ∈ fs := by
  unfold Value.insertEntry
  simp only [same_string_eq]
  split
  case isTrue =>
      refine ⟨fs.map fun f => if f.1 = name then (name, v) else f, ?_, ?_, ?_⟩
      · unfold named
        rw [List.map_map, List.map_map]
        refine List.map_congr_left fun f _ => ?_
        by_cases h : f.1 = name <;> simp [h, Value.isName]
      · have hsame : (fs.map fun f => if f.1 = name then (name, v) else f).map (·.1) =
            fs.map (·.1) := by
          rw [List.map_map]
          refine List.map_congr_left fun f _ => ?_
          by_cases h : f.1 = name <;> simp [h]
        rwa [hsame]
      · intro g hg
        obtain ⟨f, hf, rfl⟩ := List.mem_map.1 hg
        split
        · exact .inl rfl
        · exact .inr hf
  case isFalse h =>
      refine ⟨fs ++ [(name, v)], by simp [named], ?_, ?_⟩
      · rw [List.map_append, List.nodup_append]
        refine ⟨hnames, by simp, ?_⟩
        rintro _ hmem _ hname rfl
        obtain ⟨f, hf, rfl⟩ := List.mem_map.1 hmem
        refine h (List.any_eq_true.2 ⟨_, List.mem_map_of_mem hf, ?_⟩)
        exact decide_eq_true (List.mem_singleton.1 hname)
      · intro g hg
        rcases List.mem_append.1 hg with hg | hg
        · exact .inr hg
        · exact .inl (List.mem_singleton.1 hg)

/-- Entries that are put in come out under names of their own. -/
theorem insertAll_eq_named (es : List (String × Value)) :
    ∃ fs, insertAll [] (named es) = named fs ∧ (fs.map (·.1)).Nodup ∧ ∀ f ∈ fs, f ∈ es := by
  suffices H : ∀ (es fs : List (String × Value)), (fs.map (·.1)).Nodup →
      ∃ gs, insertAll (named fs) (named es) = named gs ∧ (gs.map (·.1)).Nodup ∧
        ∀ g ∈ gs, g ∈ fs ∨ g ∈ es by
    obtain ⟨gs, hgs, hnames, hmem⟩ := H es [] List.nodup_nil
    exact ⟨gs, hgs, hnames, fun g hg => (hmem g hg).resolve_left List.not_mem_nil⟩
  intro es
  induction es with
  | nil => exact fun fs h => ⟨fs, rfl, h, fun g hg => .inl hg⟩
  | cons e es ih =>
      intro fs h
      obtain ⟨gs, hgs, hnames, hmem⟩ := insertEntry_named h e.1 e.2
      obtain ⟨hs, hhs, hnames', hmem'⟩ := ih gs hnames
      refine ⟨hs, ?_, hnames', fun g hg => ?_⟩
      · rw [← hhs, ← hgs]
        rfl
      · rcases hmem' g hg with hg | hg
        · rcases hmem g hg with rfl | hg
          · exact .inr List.mem_cons_self
          · exact .inl hg
        · exact .inr (List.mem_cons_of_mem _ hg)

end RouteServer.Schema

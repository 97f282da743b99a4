import RouteServer.Proofs.Schema.Conforms

/-!
# Schema — where violations are

What is found below a place that has a path is found at a path (`path_ne_of_walk`).  So a violation
without one concerns the whole document, or a key of it: the walk of a document whose fields have
names finds nothing else there (`isPlaced_of_walk`).
-/

namespace RouteServer.Schema

open RouteServer.Net RouteServer.Yaml

/-- A violation names a place in the document, or it is that the document is no mapping, or has a
key that it should not have. -/
def Violation.IsPlaced (b : Violation) : Prop :=
  b.path ≠ "" ∨ b.cause = .notMapping ∨ b.cause = .unknownField ∨ ∃ key, b.cause = .invalidKey key

theorem join_ne_empty {path name : String} (h : path ≠ "" ∨ name ≠ "") : join path name ≠ "" := by
  unfold join
  split
  case isTrue hpath => exact h.resolve_left fun hnot => hnot hpath
  case isFalse hpath => exact fun h => hpath (String.append_eq_empty_iff.1
    (String.append_eq_empty_iff.1 h).1).1

theorem item_ne_empty (path : String) (i : Nat) : item path i ≠ "" := fun h => by
  have hbracket := (String.append_eq_empty_iff.1 h).2
  exact absurd hbracket (by decide)

section

variable {parent : Option Value} {v : Value} {path : String} {b : Violation}

theorem eq_of_mem_refuse {cause : Cause} (h : b ∈ (refuse path cause).2) : b.path = path := by
  rw [List.mem_singleton.1 h]

theorem path_of_fallback {fallback : Fallback} (h : b ∈ (fallback.value parent path).2) :
    b.path = path := by
  cases fallback with
  | required => exact eq_of_mem_refuse h
  | _ => cases h

/-- What is wrong with a single value is found where it stands. -/
theorem path_of_walk_single {k : Kind} (hk : k.isSingle = true) (h : b ∈ (k.walk parent v path).2) :
    b.path = path := by
  cases k with
  | list | record | table => cases hk
  | discarded => cases h
  | boolean | natural | string | oneOf | asn | address | ipv4 | ipv6 | network | text =>
      simp only [Kind.walk, walkAddress] at h
      repeat' split at h
      all_goals first | exact eq_of_mem_refuse h | cases h

theorem mem_keyViolations {names : List String} {es : List (Value × Value)}
    (h : b ∈ keyViolations names path es) :
    (∃ name, b = ⟨join path name, .unknownField⟩) ∨ ∃ key, b = ⟨path, .invalidKey key⟩ := by
  induction es with
  | nil => cases h
  | cons e es ih =>
      obtain ⟨key, w⟩ := e
      simp only [keyViolations] at h
      split at h
      case h_1 name _ =>
          split at h
          · exact ih h
          · rcases List.mem_cons.1 h with rfl | h
            · exact .inl ⟨name, rfl⟩
            · exact ih h
      case h_2 =>
          rcases List.mem_cons.1 h with rfl | h
          · exact .inr ⟨key, rfl⟩
          · exact ih h

/-- What is found in a field is found where the field stands. -/
theorem path_of_walked {f : Field} {es : List (Value × Value)}
    (ih : ∀ v path, path ≠ "" → ∀ b ∈ (f.kind.walk parent v path).2, b.path ≠ "")
    (hpath : join path f.name ≠ "") (h : b ∈ (f.walked parent es path).2) : b.path ≠ "" := by
  unfold Field.walked Field.fill at h
  repeat' split at h
  · exact ih _ _ hpath b h
  · exact ih _ _ hpath b h
  · exact path_of_fallback h ▸ hpath

end

/-- **What is found below a place** is found at a path. -/
theorem path_ne_of_walk (parent : Option Value) (k : Kind) :
    ∀ v path, path ≠ "" → ∀ b ∈ (k.walk parent v path).2, b.path ≠ "" := by
  induction k using Kind.induction with
  | single k hk => exact fun v path hpath b hb => path_of_walk_single hk hb ▸ hpath
  | list kind ih =>
      intro v path hpath b hb
      cases v with
      | list xs =>
          simp only [Kind.walk, List.mem_flatMap, List.mem_mapIdx] at hb
          obtain ⟨-, ⟨i, hi, rfl⟩, hb⟩ := hb
          exact ih _ _ (item_ne_empty path i) b hb
      | _ => exact eq_of_mem_refuse hb ▸ hpath
  | record fields ih =>
      intro v path hpath b hb
      cases hv : sectionEntries? v with
      | none =>
          rw [walk_record_of_none hv] at hb
          exact eq_of_mem_refuse hb ▸ hpath
      | some es =>
          rw [walk_section hv] at hb
          rcases List.mem_append.1 hb with hb | hb
          · obtain ⟨name, rfl⟩ | ⟨key, rfl⟩ := mem_keyViolations hb
            · exact join_ne_empty (.inl hpath)
            · exact hpath
          · obtain ⟨f, hf, hb⟩ := List.mem_flatMap.1 hb
            exact path_of_walked (ih f (List.mem_filter.1 hf).1) (join_ne_empty (.inl hpath)) hb
  | table check kind ih =>
      intro v path hpath b hb
      cases v with
      | mapping es =>
          rw [walk_table] at hb
          obtain ⟨e, -, hb⟩ := List.mem_flatMap.1 hb
          unfold entryViolations at hb
          split at hb
          · exact ih _ _ (join_ne_empty (.inl hpath)) b hb
          · exact List.mem_singleton.1 hb ▸ hpath
      | _ => exact eq_of_mem_refuse hb ▸ hpath

/-- **What is found in a document** whose fields have names is found at a path, or concerns the
whole document or one of its keys. -/
theorem isPlaced_of_walk {parent : Option Value} {fields : List Field}
    (hnames : ∀ f ∈ fields, f.name ≠ "") {v : Value} {path : String} {b : Violation}
    (hb : b ∈ (walk parent fields v path).2) : b.IsPlaced := by
  rw [walk] at hb
  cases hv : sectionEntries? v with
  | none =>
      rw [walk_record_of_none hv] at hb
      rw [List.mem_singleton.1 hb]
      exact .inr (.inl rfl)
  | some es =>
      rw [walk_section hv] at hb
      rcases List.mem_append.1 hb with hb | hb
      · obtain ⟨name, rfl⟩ | ⟨key, rfl⟩ := mem_keyViolations hb
        · exact .inr (.inr (.inl rfl))
        · exact .inr (.inr (.inr ⟨key, rfl⟩))
      · obtain ⟨f, hf, hb⟩ := List.mem_flatMap.1 hb
        exact .inl (path_of_walked (path_ne_of_walk parent f.kind)
          (join_ne_empty (.inr (hnames f (List.mem_filter.1 hf).1))) hb)

end RouteServer.Schema

import Mathlib.Data.List.Forall2
import Mathlib.Data.List.Perm.Basic
import RouteServer.Proofs.Policy.Agreement

/-!
# Policy — the order of keys

Two values are equal up to the order of keys when the entries of mappings have changed places, at any
depth (`Value.Reordered`).  Two documents that are so are loaded as the same configuration, or both
are refused with the same paths, each as often (`load_reordered`).

Whatever is said about a document is said about a value in which no mapping has a key twice
(`Value.distinctKeys`); what is read of a text is such a value (`Node.distinctKeys_of_read`).  The
entry under a name is then the same wherever it stands.  So the walk of two such values gives one
normal form, and finds something at the same paths (`sameWalk_of_reordered`), if the kind has no
tables: the normal form of a table keeps the order of its entries.  What spans several fields is
checked in the normal form, and left out where the walk has found something at its path; that is no
matter of order, either.
-/

namespace RouteServer.Yaml.Value

/-! ### Values with keys of their own -/

mutual
/-- Whether no mapping has two entries with the same key. -/
def distinctKeys : Value → Bool
  | .list xs => itemsDistinct xs
  | .mapping es => entriesDistinct es
  | .tagged _ v => v.distinctKeys
  | _ => true

/-- Whether this is so of the items of a list. -/
def itemsDistinct : List Value → Bool
  | [] => true
  | x :: xs => x.distinctKeys && itemsDistinct xs

/-- Whether the keys of some entries are all different, and it is so of what is in them. -/
def entriesDistinct : List (Value × Value) → Bool
  | [] => true
  | (k, v) :: es =>
    k.distinctKeys && v.distinctKeys && !es.any (fun e => k.same e.1) && entriesDistinct es
end

theorem itemsDistinct_iff {xs : List Value} : itemsDistinct xs ↔ ∀ x ∈ xs, x.distinctKeys := by
  induction xs with
  | nil => simp [itemsDistinct]
  | cons x xs ih => simp [itemsDistinct, ih]

theorem entriesDistinct_append {es : List (Value × Value)} {k v : Value} :
    entriesDistinct (es ++ [(k, v)]) ↔
      entriesDistinct es ∧ hasKey es k = false ∧ k.distinctKeys ∧ v.distinctKeys := by
  induction es with
  | nil => simp [entriesDistinct, hasKey]
  | cons e es ih =>
      obtain ⟨l, w⟩ := e
      simp only [List.cons_append, entriesDistinct, List.any_append, Bool.and_eq_true, ih, hasKey,
        List.any_cons, List.any_nil, Bool.or_false, Bool.not_eq_true', Bool.or_eq_false_iff]
      tauto

/-- At most one entry has a name for its key. -/
theorem length_filter_isName {es : List (Value × Value)} (h : entriesDistinct es) (name : String) :
    (es.filter fun e => e.1.isName name).length ≤ 1 := by
  induction es with
  | nil => simp
  | cons e es ih =>
      obtain ⟨k, v⟩ := e
      simp only [entriesDistinct, Bool.and_eq_true, Bool.not_eq_true', List.any_eq_false] at h
      obtain ⟨⟨-, hother⟩, hes⟩ := h
      cases hname : k.isName name with
      | false => simpa [List.filter_cons, hname] using ih hes
      | true =>
          have hnone : (es.filter fun e => e.1.isName name) = [] := by
            rw [List.filter_eq_nil_iff]
            intro e he
            rw [← Schema.string_same, ← Schema.isName_iff.1 hname]
            exact hother e he
          simp [hname, hnone]

/-! ### Values that differ in the order of entries -/

/-- Two values are equal up to the order of the entries of mappings, at any depth: the entries of a
mapping may change places, and so may those within its keys and values. -/
inductive Reordered : Value → Value → Prop
  | refl (v : Value) : Reordered v v
  | list {xs ys : List Value} (h : List.Forall₂ Reordered xs ys) :
    Reordered (.list xs) (.list ys)
  | mapping {es fs gs : List (Value × Value)}
    (hkeys : List.Forall₂ Reordered (es.map (·.1)) (fs.map (·.1)))
    (hvalues : List.Forall₂ Reordered (es.map (·.2)) (fs.map (·.2)))
    (hfs : fs.Perm gs) : Reordered (.mapping es) (.mapping gs)
  | tagged (tag : String) {v w : Value} (h : Reordered v w) :
    Reordered (.tagged tag v) (.tagged tag w)

/-- Two entries have keys and values that are equal up to the order of entries. -/
def ReorderedEntry (e f : Value × Value) : Prop := Reordered e.1 f.1 ∧ Reordered e.2 f.2

theorem exists_of_reordered_mapping {es : List (Value × Value)} {w : Value}
    (h : Reordered (.mapping es) w) :
    ∃ fs gs, w = .mapping gs ∧ List.Forall₂ ReorderedEntry es fs ∧ fs.Perm gs := by
  cases h with
  | refl =>
      exact ⟨es, es, rfl, List.forall₂_same.2 fun e _ => ⟨.refl _, .refl _⟩, .refl _⟩
  | @mapping _ fs gs hkeys hvalues hfs =>
      refine ⟨fs, gs, rfl, ?_, hfs⟩
      rw [List.forall₂_map_left_iff, List.forall₂_map_right_iff] at hkeys hvalues
      exact hkeys.mp (fun _ _ => And.intro) hvalues

theorem exists_of_reordered_list {xs : List Value} {w : Value} (h : Reordered (.list xs) w) :
    ∃ ys, w = .list ys ∧ List.Forall₂ Reordered xs ys := by
  cases h with
  | refl => exact ⟨xs, rfl, List.forall₂_same.2 fun x _ => .refl x⟩
  | list h => exact ⟨_, rfl, h⟩

/-- Whether a value is a list or a mapping, whatever its tag. -/
def isCollection : Value → Bool
  | .list _ | .mapping _ => true
  | .tagged _ v => v.isCollection
  | _ => false

/-- What is reordered is a collection, or the same. -/
theorem eq_or_isCollection :
    ∀ {v w : Value}, Reordered v w → v = w ∨ v.isCollection = true ∧ w.isCollection = true
  | .tagged tag v, w, h => by
      cases h with
      | refl => exact .inl rfl
      | tagged _ h => exact (eq_or_isCollection h).imp_left (congrArg _)
  | .list _, _, h | .mapping _, _, h => by
      cases h <;> first | exact .inl rfl | exact .inr ⟨rfl, rfl⟩
  | .null, _, h | .bool _, _, h | .number _, _, h | .string _, _, h => by
      cases h
      exact .inl rfl

theorem text?_of_isCollection : ∀ {v : Value}, v.isCollection = true → v.text? = none
  | .tagged _ v, h => text?_of_isCollection (v := v) h
  | .list _, _ | .mapping _, _ => rfl

theorem natural?_of_isCollection : ∀ {v : Value}, v.isCollection = true → v.natural? = none
  | .tagged _ v, h => natural?_of_isCollection (v := v) h
  | .list _, _ | .mapping _, _ => rfl

theorem isNull_of_isCollection : ∀ {v : Value}, v.isCollection = true → v.isNull = false
  | .tagged _ v, h => isNull_of_isCollection (v := v) h
  | .list _, _ | .mapping _, _ => rfl

section

variable {v w : Value}

theorem text?_of_reordered (h : Reordered v w) : v.text? = w.text? := by
  rcases eq_or_isCollection h with rfl | ⟨hv, hw⟩
  · rfl
  · rw [text?_of_isCollection hv, text?_of_isCollection hw]

theorem isNull_of_reordered (h : Reordered v w) : v.isNull = w.isNull := by
  rcases eq_or_isCollection h with rfl | ⟨hv, hw⟩
  · rfl
  · rw [isNull_of_isCollection hv, isNull_of_isCollection hw]

theorem isName_of_reordered (h : Reordered v w) (name : String) :
    v.isName name = w.isName name := by
  cases h <;> rfl

end

/-! ### What stands under a name -/

section

variable {es fs gs : List (Value × Value)}

/-- What one entry is, among those with a name, does not depend on where it stands. -/
theorem lookup?_of_perm (h : fs.Perm gs) {name : String}
    (honce : (fs.filter fun e => e.1.isName name).length ≤ 1) :
    lookup? name fs = lookup? name gs := by
  have hfilter : (fs.filter fun e => e.1.isName name) = gs.filter fun e => e.1.isName name := by
    have hperm := h.filter fun e => e.1.isName name
    cases hfs : fs.filter fun e => e.1.isName name with
    | nil => rw [hfs] at hperm; exact (List.nil_perm.1 hperm).symm
    | cons e rest =>
        rw [hfs] at hperm honce
        obtain rfl : rest = [] := List.eq_nil_of_length_eq_zero (by simpa using honce)
        exact List.singleton_perm.1 hperm
  rw [lookup?, lookup?, ← List.head?_filter, ← List.head?_filter, hfilter]

/-- The same is given under a name, up to the order of the entries within. -/
inductive SameGiven : Option Value → Option Value → Prop
  | none : SameGiven none none
  | some {v w : Value} (hkeys : v.distinctKeys) (h : Reordered v w) : SameGiven (some v) (some w)

/-- What is null counts as missing on either side. -/
theorem SameGiven.present {a b : Option Value} (h : SameGiven a b) :
    SameGiven (a.filter fun v => !v.isNull) (b.filter fun v => !v.isNull) := by
  cases h with
  | none => exact .none
  | @some v w hkeys h =>
      rw [Option.filter_some, Option.filter_some, ← isNull_of_reordered h]
      cases v.isNull with
      | true => exact .none
      | false => exact .some hkeys h

theorem lookup?_of_forall₂ (hkeys : entriesDistinct es) (h : List.Forall₂ ReorderedEntry es fs)
    (name : String) : SameGiven (lookup? name es) (lookup? name fs) := by
  induction h with
  | nil => exact .none
  | @cons e f es fs hentry _ ih =>
      obtain ⟨k, v⟩ := e
      simp only [entriesDistinct, Bool.and_eq_true] at hkeys
      rw [Schema.lookup?_cons, Schema.lookup?_cons, ← isName_of_reordered hentry.1]
      cases k.isName name with
      | true => exact .some hkeys.1.1.2 hentry.2
      | false => exact ih hkeys.2

theorem lookup?_of_reordered (hkeys : entriesDistinct es) (h : List.Forall₂ ReorderedEntry es fs)
    (hperm : fs.Perm gs) (name : String) : SameGiven (lookup? name es) (lookup? name gs) := by
  have honce : (fs.filter fun e => e.1.isName name).length ≤ 1 := by
    have hfilter := List.rel_filter (p := fun e => e.1.isName name) (q := fun e => e.1.isName name)
      (fun e f (hentry : ReorderedEntry e f) => iff_of_eq (congrArg (· = true)
        (isName_of_reordered hentry.1 name))) h
    exact hfilter.length_eq ▸ length_filter_isName hkeys name
  rw [← lookup?_of_perm hperm honce]
  exact lookup?_of_forall₂ hkeys h name

end

end RouteServer.Yaml.Value

namespace RouteServer.Yaml.Node

open RouteServer.Yaml.Value (distinctKeys entriesDistinct)

/-! ### Values that are read -/

/-- However many aliases have been followed, only what is in `P` is given. -/
def Counted.Gives {α : Type} (P : α → Prop) (x : Counted α) : Prop :=
  ∀ i a j, x i = some (a, j) → P a

section

variable {α β : Type} {P : α → Prop} {Q : β → Prop}

theorem gives_pure {a : α} (h : P a) : Counted.Gives P (pure a : Counted α) := by
  intro i b j hb
  cases hb
  exact h

theorem gives_none : Counted.Gives P (fun _ => none : Counted α) := nofun

theorem gives_option {o : Option β} {f : β → α} (h : ∀ b, o = some b → P (f b)) :
    Counted.Gives P (fun i => o.map fun b => (f b, i) : Counted α) := by
  intro i a j ha
  obtain ⟨b, hb, heq⟩ := Option.map_eq_some_iff.1 ha
  cases heq
  exact h b hb

theorem gives_bind {x : Counted α} {f : α → Counted β} (hx : Counted.Gives P x)
    (hf : ∀ a, P a → Counted.Gives Q (f a)) : Counted.Gives Q (x >>= f) := by
  intro i b j hb
  obtain ⟨⟨a, k⟩, ha, hb⟩ := Option.bind_eq_some_iff.1 hb
  exact hf a (hx i a k ha) k b j hb

theorem gives_mapM {f : β → Counted α} (hf : ∀ b, Counted.Gives P (f b)) (bs : List β) :
    Counted.Gives (fun xs => ∀ x ∈ xs, P x) (bs.mapM f) := by
  induction bs with
  | nil => exact gives_pure nofun
  | cons b bs ih =>
      rw [List.mapM_cons]
      exact gives_bind (hf b) fun x hx => gives_bind ih fun xs hxs =>
        gives_pure (List.forall_mem_cons.2 ⟨hx, hxs⟩)

end

theorem distinctKeys_of_resolve {cs : List Char} {v : Value} (h : Scalar.resolve cs = some v) :
    v.distinctKeys := by
  simp only [Scalar.resolve] at h
  repeat' split at h
  all_goals cases h <;> rfl

/-- A scalar has no keys. -/
theorem distinctKeys_of_untaggedValue {tag : Option String} {plain : Bool} {cs : List Char}
    {v : Value} (h : Scalar.untaggedValue tag plain cs = some v) : v.distinctKeys := by
  simp only [Scalar.untaggedValue] at h
  split at h
  · split at h
    · exact distinctKeys_of_resolve h
    · cases h
      rfl
  · split at h
    · obtain ⟨b, -, rfl⟩ := Option.map_eq_some_iff.1 h
      rfl
    split at h
    · obtain ⟨i, -, h⟩ := Option.bind_eq_some_iff.1 h
      obtain ⟨-, h⟩ := Option.ite_none_right_eq_some.1 h
      cases h
      rfl
    split at h
    · obtain ⟨x, -, rfl⟩ := Option.map_eq_some_iff.1 h
      rfl
    split at h
    · obtain ⟨-, h⟩ := Option.ite_none_right_eq_some.1 h
      cases h
      rfl
    · cases h
      rfl

section

variable {below : Node Nat → Counted Value}

theorem gives_entryValues (hbelow : ∀ n, (below n).Gives fun v => v.distinctKeys)
    (es : List (Node Nat × Node Nat)) (done : List (Value × Value)) (hdone : entriesDistinct done) :
    (entryValues below es done).Gives fun out => entriesDistinct out := by
  induction es generalizing done with
  | nil => exact gives_pure hdone
  | cons e es ih =>
      refine gives_bind (hbelow e.1) fun key hkey => ?_
      split
      case isTrue => exact gives_none
      case isFalse hnew =>
          refine gives_bind (hbelow e.2) fun value hvalue => ih _ ?_
          exact Value.entriesDistinct_append.2 ⟨hdone, Bool.eq_false_iff.2 hnew, hkey, hvalue⟩

theorem gives_valueHere (hbelow : ∀ n, (below n).Gives fun v => v.distinctKeys) (n : Node Nat) :
    (valueHere below n).Gives fun v => v.distinctKeys := by
  rcases n with _ | ⟨p, plain, text⟩ | ⟨p, items⟩ | ⟨p, entries⟩
  · exact gives_none
  · unfold valueHere
    simp only
    split
    · exact gives_none
    · exact gives_option fun w hw => (distinctKeys_of_untaggedValue hw : w.distinctKeys)
    · exact gives_option fun w hw => distinctKeys_of_untaggedValue hw
  · refine gives_bind (gives_mapM hbelow items) fun xs hxs => ?_
    have hlist : (Value.list xs).distinctKeys := Value.itemsDistinct_iff.2 hxs
    split
    · exact gives_none
    · exact gives_pure hlist
    · exact gives_pure hlist
  · refine gives_bind (gives_entryValues hbelow entries [] rfl) fun es hes => ?_
    split
    · exact gives_none
    · exact gives_pure hes
    · exact gives_pure hes

end

theorem gives_value (d : Document) (depth : Nat) (n : Node Nat) :
    (value d depth n).Gives fun v => v.distinctKeys := by
  have hany : ∀ x : Counted (Node Nat), x.Gives fun _ => True := fun _ _ _ _ _ => trivial
  induction depth generalizing n with
  | zero =>
      have hhere : ∀ n : Node Nat, Counted.Gives (fun v => v.distinctKeys)
          (if n.isCollection then fun _ => none else valueHere (fun _ _ => none) n) := by
        intro n
        split
        · exact gives_none
        · exact gives_valueHere (fun _ => gives_none) n
      unfold value
      simp only
      split <;> exact gives_bind (hany _) fun n _ => hhere n
  | succ depth ih =>
      unfold value
      simp only
      split <;> exact gives_bind (hany _) fun n _ => gives_valueHere ih n

/-- The values of texts have keys of their own. -/
theorem distinctKeys_of_read {text : String} {v : Value} (h : Yaml.read text = some v) :
    v.distinctKeys := by
  obtain ⟨tokens, -, h⟩ := Option.bind_eq_some_iff.1 h
  obtain ⟨root, -, h⟩ := Option.bind_eq_some_iff.1 h
  obtain ⟨⟨root, anchors⟩, -, h⟩ := Option.bind_eq_some_iff.1 h
  obtain ⟨⟨w, count⟩, hw, heq⟩ := Option.bind_eq_some_iff.1 h
  cases heq
  exact gives_value _ _ _ _ _ _ hw

end RouteServer.Yaml.Node

namespace RouteServer.Schema

open RouteServer.Net RouteServer.Yaml
open RouteServer.Yaml.Value (Reordered ReorderedEntry SameGiven)

/-! ### Kinds without tables -/

mutual
/-- Whether there is no table in a kind. -/
def Kind.hasNoTable : Kind → Bool
  | .list item => item.hasNoTable
  | .record fields => haveNoTable fields
  | .table _ _ => false
  | _ => true

/-- Whether there is no table in the kinds of some fields. -/
def haveNoTable : List Field → Bool
  | [] => true
  | ⟨_, kind, _⟩ :: fields => kind.hasNoTable && haveNoTable fields
end

theorem haveNoTable_iff {fields : List Field} :
    haveNoTable fields ↔ ∀ f ∈ fields, f.kind.hasNoTable := by
  induction fields with
  | nil => simp [haveNoTable]
  | cons f fields ih =>
      obtain ⟨name, kind, fallback⟩ := f
      simp [haveNoTable, ih]

/-! ### What the walk gives -/

/-- The paths of some violations. -/
abbrev paths (vs : List Violation) : List String := vs.map Violation.path

/-- Two walks give the same normal form, and find something at the same paths, as often. -/
structure SameWalk (a b : Walked) : Prop where
  normal : a.1 = b.1
  paths : (paths a.2).Perm (paths b.2)

theorem SameWalk.refl (a : Walked) : SameWalk a a := ⟨rfl, .refl _⟩

section

variable {parent : Option Value} {v w : Value} {path : String}

/-- What is refused at a place is null, and it is refused there. -/
theorem sameWalk_refuse (path : String) (c d : Cause) : SameWalk (refuse path c) (refuse path d) :=
  ⟨rfl, .refl _⟩

/-- No single value is a collection. -/
theorem walk_of_isCollection (parent : Option Value) (path : String) {k : Kind}
    (hk : k.isSingle = true) (hkept : k.isDiscarded = false) (hv : v.isCollection = true) :
    ∃ cause, k.walk parent v path = refuse path cause := by
  have htext := Value.text?_of_isCollection hv
  have haddress : address? v = none := by rw [address?, htext]; rfl
  cases k with
  | list | record | table => cases hk
  | discarded => cases hkept
  | boolean | string | asn => cases v <;> first | exact ⟨_, rfl⟩ | cases hv
  | natural => exact ⟨_, by rw [Kind.walk, Value.natural?_of_isCollection hv]⟩
  | oneOf | text => exact ⟨_, by rw [Kind.walk, htext]⟩
  | network => exact ⟨_, by rw [Kind.walk, htext]; rfl⟩
  | address | ipv4 | ipv6 => exact ⟨_, by rw [Kind.walk, walkAddress, haddress]⟩

theorem sameWalk_single {k : Kind} (hk : k.isSingle = true) (h : Reordered v w) :
    SameWalk (k.walk parent v path) (k.walk parent w path) := by
  rcases Value.eq_or_isCollection h with rfl | ⟨hv, hw⟩
  · exact .refl _
  cases hkept : k.isDiscarded with
  | false =>
      obtain ⟨c, hc⟩ := walk_of_isCollection parent path hk hkept hv
      obtain ⟨d, hd⟩ := walk_of_isCollection parent path hk hkept hw
      rw [hc, hd]
      exact sameWalk_refuse path c d
  | true =>
      cases k with
      | discarded => exact .refl _
      | _ => cases hkept

/-- Walks that are the same one by one are so together. -/
theorem sameWalk_items {ws us : List Walked} (h : List.Forall₂ SameWalk ws us) :
    ws.map (·.1) = us.map (·.1) ∧ (paths (ws.flatMap (·.2))).Perm (paths (us.flatMap (·.2))) := by
  induction h with
  | nil => exact ⟨rfl, .refl _⟩
  | @cons a b ws us hab _ ih =>
      obtain ⟨hnormal, hpaths⟩ := ih
      refine ⟨by rw [List.map_cons, List.map_cons, hab.normal, hnormal], ?_⟩
      simp only [List.flatMap_cons, paths, List.map_append] at hpaths ⊢
      exact hab.paths.append hpaths

theorem sameWalk_fields {fields : List Field} {walked walked' : Field → Walked}
    (h : ∀ f ∈ fields, SameWalk (walked f) (walked' f)) :
    (fields.map fun f => (f.name, (walked f).1)) = fields.map (fun f => (f.name, (walked' f).1)) ∧
      (paths (fields.flatMap fun f => (walked f).2)).Perm
        (paths (fields.flatMap fun f => (walked' f).2)) := by
  refine ⟨List.map_congr_left fun f hf => by rw [(h f hf).normal], ?_⟩
  simp only [paths, List.map_flatMap]
  exact List.Perm.flatMap_left _ fun f hf => (h f hf).paths

/-- The path at which a key of a section is refused, unless it is the name of a field. -/
def keyPath? (names : List String) (path : String) (key : Value) : Option String :=
  match key.text? with
  | some k => if k ∈ names then none else some (join path k)
  | none => some path

theorem paths_keyViolations (names : List String) (path : String) (es : List (Value × Value)) :
    paths (keyViolations names path es) = es.filterMap fun e => keyPath? names path e.1 := by
  induction es with
  | nil => rfl
  | cons e es ih =>
      obtain ⟨key, v⟩ := e
      rw [List.filterMap_cons, keyViolations, keyPath?, ← ih]
      cases key.text? with
      | none => rfl
      | some k => by_cases hk : k ∈ names <;> simp [hk]

section

variable {es fs gs : List (Value × Value)}

theorem paths_keyViolations_perm (names : List String) (path : String)
    (h : List.Forall₂ ReorderedEntry es fs) (hperm : fs.Perm gs) :
    (paths (keyViolations names path es)).Perm (paths (keyViolations names path gs)) := by
  have hsame : paths (keyViolations names path es) = paths (keyViolations names path fs) := by
    rw [paths_keyViolations, paths_keyViolations]
    clear hperm
    induction h with
    | nil => rfl
    | cons hentry _ ih =>
        rw [List.filterMap_cons, List.filterMap_cons, ih, keyPath?, keyPath?,
          Value.text?_of_reordered hentry.1]
  rw [hsame, paths_keyViolations, paths_keyViolations]
  exact hperm.filterMap _

end

/-- A field is filled with the same. -/
theorem sameWalk_fill {f : Field} {a b : Option Value} (h : SameGiven a b)
    (ih : ∀ v w path, v.distinctKeys → Reordered v w →
      SameWalk (f.kind.walk parent v path) (f.kind.walk parent w path)) :
    SameWalk (f.fill parent a path) (f.fill parent b path) := by
  cases h with
  | none => exact .refl _
  | some hv h => exact ih _ _ _ hv h

/-- **The order of keys does not matter** to the walk of a kind without tables. -/
theorem sameWalk_of_reordered (parent : Option Value) (k : Kind) (hk : k.hasNoTable) :
    ∀ v w path, v.distinctKeys → Reordered v w →
      SameWalk (k.walk parent v path) (k.walk parent w path) := by
  induction k using Kind.induction with
  | single k hsingle => exact fun v w path _ h => sameWalk_single hsingle h
  | table => cases hk
  | list kind ih =>
      rw [Kind.hasNoTable] at hk
      intro v w path hkeys h
      cases v with
      | list xs =>
          obtain ⟨ys, rfl, hys⟩ := Value.exists_of_reordered_list h
          rw [Value.distinctKeys, Value.itemsDistinct_iff] at hkeys
          have hitems : List.Forall₂ SameWalk
              (xs.mapIdx fun i x => kind.walk parent x (item path i))
              (ys.mapIdx fun i y => kind.walk parent y (item path i)) := by
            rw [List.forall₂_iff_get] at hys ⊢
            refine ⟨by simpa using hys.1, fun i hi hi' => ?_⟩
            simp only [List.get_eq_getElem, List.getElem_mapIdx]
            exact ih hk _ _ _ (hkeys _ (List.getElem_mem _)) (hys.2 i _ _)
          obtain ⟨hnormal, hpaths⟩ := sameWalk_items hitems
          exact ⟨congrArg Value.list hnormal, hpaths⟩
      | _ => cases h <;> exact sameWalk_refuse path _ _
  | record fields ih =>
      rw [Kind.hasNoTable, haveNoTable_iff] at hk
      intro v w path hkeys h
      cases v with
      | mapping es =>
          obtain ⟨fs, gs, rfl, hes, hperm⟩ := Value.exists_of_reordered_mapping h
          rw [Value.distinctKeys] at hkeys
          have hfields : ∀ f ∈ kept fields,
              SameWalk (f.walked parent es path) (f.walked parent gs path) := fun f hf => by
            have hf := (List.mem_filter.1 hf).1
            have hgiven : SameGiven (f.given? es) (f.given? gs) :=
              (Value.lookup?_of_reordered hkeys hes hperm f.name).present
            exact sameWalk_fill hgiven (ih f hf (hk f hf))
          obtain ⟨hnormal, hpaths⟩ := sameWalk_fields hfields
          rw [walk_section (v := .mapping es) rfl, walk_section (v := .mapping gs) rfl, hnormal]
          refine ⟨rfl, ?_⟩
          simp only [paths, List.map_append]
          exact (paths_keyViolations_perm _ _ hes hperm).append hpaths
      | list | tagged => cases h <;> exact sameWalk_refuse path _ _
      | _ => cases h; exact .refl _

end

end RouteServer.Schema

namespace RouteServer.Policy

open RouteServer.Schema RouteServer.Yaml
open RouteServer.Yaml.Value (Reordered)

namespace Checked

/-- What a document is loaded as. -/
def Content : Checked → Type
  | general => General
  | bogons => List Bogon
  | clients _ => List Client
  | roas => List Roa

/-- Loads a document. -/
def load (t : Checked) (files : Files.Tree) (s : Source) : Loaded t.Content :=
  match t with
  | general => loadGeneral files s
  | bogons => loadBogons files s
  | clients g => loadClients files s g
  | roas => loadRoas files s

/-- Reads the typed form of a document. -/
def decode (t : Checked) : Value → Decoded t.Content :=
  match t with
  | general => General.ofDocument
  | bogons => Bogon.ofDocument
  | clients _ => Client.ofDocument
  | roas => Roa.ofDocument

theorem load_eq (t : Checked) {files : Files.Tree} {s : Source} {v : Value}
    (hread : s.read files t.kind = .ok v) :
    t.load files s = accept t.kind (Document.checked t).fields (Document.checked t).parent
      t.crossCheck t.decode v := by
  refine Eq.trans ?_ (bind_read hread _)
  cases t <;> rfl

theorem haveNoTable_fields (t : Checked) : haveNoTable (Document.checked t).fields := by
  cases t <;> rfl

end Checked

/-- Two outcomes of loading are the same configuration, or two reports with the same paths, each as
often. -/
inductive SameOutcome {α : Type} (document : String) : Loaded α → Loaded α → Prop
  | accepted (x : α) : SameOutcome document (.ok x) (.ok x)
  | rejected {vs ws : List Violation} (h : (paths vs).Perm (paths ws)) :
    SameOutcome document (.error (.invalid document vs)) (.error (.invalid document ws))

/-- What is added to violations depends on where they are. -/
theorem paths_mergeViolations (crossed : List Violation) {vs ws : List Violation}
    (h : (paths vs).Perm (paths ws)) :
    (paths (mergeViolations vs crossed)).Perm (paths (mergeViolations ws crossed)) := by
  have hfilter : (crossed.filter fun b => !(vs.any fun w => w.path = b.path)) =
      crossed.filter fun b => !(ws.any fun w => w.path = b.path) := by
    refine List.filter_congr fun b _ => ?_
    have hmem : b.path ∈ paths vs ↔ b.path ∈ paths ws := h.mem_iff
    simp only [paths, List.mem_map] at hmem
    rw [Bool.not_inj_iff, Bool.eq_iff_iff]
    simpa using hmem
  simp only [mergeViolations, paths, List.map_append, hfilter]
  exact h.append_right _

theorem sameOutcome_accept {α : Type} {document : DocumentKind} {fields : List Field}
    {parent : Option Value} {check : Value → List Violation} {decode : Value → Decoded α}
    {v w : Value} (hfields : haveNoTable fields) (hkeys : v.distinctKeys) (h : Reordered v w) :
    SameOutcome document.name (accept document fields parent check decode v)
      (accept document fields parent check decode w) := by
  have hwalk := sameWalk_of_reordered parent (.record fields) hfields v w "" hkeys h
  rw [← walk, ← walk] at hwalk
  unfold accept
  generalize walk parent fields v "" = a at hwalk ⊢
  generalize walk parent fields w "" = b at hwalk ⊢
  obtain ⟨normal, vs⟩ := a
  obtain ⟨_, ws⟩ := b
  obtain ⟨rfl, hpaths⟩ := hwalk
  have hmerged := paths_mergeViolations (check normal) hpaths
  simp only
  generalize mergeViolations vs (check normal) = us at hmerged ⊢
  generalize mergeViolations ws (check normal) = us' at hmerged ⊢
  cases us with
  | nil =>
      obtain rfl : us' = [] := by simpa [paths] using hmerged
      simp only
      cases decode normal with
      | ok x => exact .accepted x
      | error fault => exact .rejected (.refl _)
  | cons b bs =>
      cases us' with
      | nil => simp [paths] at hmerged
      | cons c cs => exact .rejected hmerged

/-! ### Documents -/

/-- A source gives a value whose mappings have keys of their own: one that is read always does. -/
def Source.HasDistinctKeys : Source → Prop
  | .file _ => True
  | .value v => v.distinctKeys

theorem distinctKeys_of_source {files : Files.Tree} {document : DocumentKind} {s : Source}
    {v : Value} (hs : s.HasDistinctKeys) (h : s.read files document = .ok v) : v.distinctKeys := by
  cases s with
  | value w =>
      cases h
      exact hs
  | file path =>
      obtain ⟨_, _, h⟩ := Decoded.bind_eq_ok.1 h
      split at h
      case h_1 => cases h
      case h_2 text _ =>
          split at h
          case h_1 u hu =>
              obtain rfl := Except.ok.inj h
              exact Node.distinctKeys_of_read hu
          case h_2 => cases h

/-- **The order of keys does not matter.**  Two documents that are equal up to the order of the keys
of mappings, at any depth, are loaded as the same configuration, or both are refused, with the same
paths. -/
theorem load_reordered (t : Checked) {files files' : Files.Tree} {s s' : Source} {v w : Value}
    (hv : s.read files t.kind = .ok v) (hw : s'.read files' t.kind = .ok w)
    (hs : s.HasDistinctKeys) (h : Reordered v w) :
    SameOutcome t.kind.name (t.load files s) (t.load files' s') := by
  have hkeys := distinctKeys_of_source hs hv
  rw [t.load_eq hv, t.load_eq hw]
  exact sameOutcome_accept t.haveNoTable_fields hkeys h

/-! ### Two keys too many -/

/-- A general configuration with some options. -/
def generalOf (options : List (String × Value)) : Value := .ofFields [("cfg", .ofFields options)]

/-- The options that are required, and two that are not known. -/
def unknownOptions : List (String × Value) :=
  [("rs_as", .nat 64500), ("surplus", .null), ("router_id", .string "192.0.2.1"), ("spare", .null)]

theorem reordered_generalOf {front back : List (String × Value)} (h : front.Perm back) :
    Reordered (generalOf front) (generalOf back) := by
  have hoptions : Reordered (.ofFields front) (.ofFields back) :=
    .mapping (List.forall₂_same.2 fun _ _ => .refl _) (List.forall₂_same.2 fun _ _ => .refl _)
      (h.map _)
  exact @Reordered.mapping [(.string "cfg", .ofFields front)] [(.string "cfg", .ofFields back)] _
    (.cons (.refl _) .nil) (.cons hoptions .nil) (.refl _)

/-- The keys that are not known are reported in their order, which is not the same. -/
theorem load_reordered_unknown :
    let t := Checked.general
    let v := generalOf unknownOptions
    let w := generalOf unknownOptions.reverse
    Reordered v w ∧ SameOutcome "general" (t.load {} (.value v)) (t.load {} (.value w)) ∧
      ∃ vs ws, t.load {} (.value v) = .error (.invalid "general" vs) ∧
        t.load {} (.value w) = .error (.invalid "general" ws) ∧
        paths vs = ["cfg.surplus", "cfg.spare"] ∧ paths ws = ["cfg.spare", "cfg.surplus"] := by
  intro t v w
  have hvw : Reordered v w := reordered_generalOf (List.reverse_perm _).symm
  have hsame : SameOutcome "general" (t.load {} (.value v)) (t.load {} (.value w)) :=
    load_reordered t rfl rfl (show v.distinctKeys from rfl) hvw
  have hrun : (match t.load {} (.value v), t.load {} (.value w) with
      | .error (.invalid _ vs), .error (.invalid _ ws) => decide
        (paths vs = ["cfg.surplus", "cfg.spare"] ∧ paths ws = ["cfg.spare", "cfg.surplus"])
      | _, _ => false) = true := by
    decide +kernel
  refine ⟨hvw, hsame, ?_⟩
  generalize t.load {} (.value v) = a at hsame hrun ⊢
  generalize t.load {} (.value w) = b at hsame hrun ⊢
  cases hsame with
  | accepted x => cases hrun
  | rejected => exact ⟨_, _, rfl, rfl, of_decide_eq_true hrun⟩

end RouteServer.Policy

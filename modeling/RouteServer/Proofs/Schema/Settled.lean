import RouteServer.Proofs.Net.Address
import RouteServer.Proofs.Schema.Conforms

/-!
# Schema — normal forms are walked to themselves

A value of a kind has a normal form (`Kind.Normalizes`).  A value that is a normal form of itself is
settled, and a kind is steady when all its normal forms are: walking them once more finds nothing
and changes nothing (`Kind.Steady.walk_walk`).

**Steadiness is local.**  A list and a table are steady with their items, and a section with its
fields (`Kind.Steady.record`), if only what stands in for a missing field is settled, too: a default
outside the kind of its field would be refused the second time.  A check of texts has to accept what
it gives.  Choices and numbers keep the tag they carry, so they are normal forms of themselves.
-/

namespace RouteServer.Schema

open RouteServer.Net RouteServer.Text RouteServer.Yaml

/-! ### Values and their normal forms -/

/-- A value is of a kind and has a normal form. -/
structure Kind.Normalizes (parent : Option Value) (k : Kind) (v w : Value) : Prop where
  accepts : k.Accepts v
  normal_eq : k.normal parent v = w

/-- A value is of a kind and a normal form of itself. -/
def Kind.Settled (parent : Option Value) (k : Kind) (w : Value) : Prop := k.Normalizes parent w w

/-- The normal forms of a kind are settled. -/
def Kind.Steady (parent : Option Value) (k : Kind) : Prop :=
  ∀ v w, k.Normalizes parent v w → k.Settled parent w

/-- What is given by a value: nothing when it is null. -/
def present? (v : Value) : Option Value := (some v).filter fun v => !v.isNull

/-- A field is in order with what is given for it, and then has a value in the normal form. -/
inductive Field.Normalizes (parent : Option Value) (f : Field) : Option Value → Value → Prop
  | given {v w : Value} (h : f.kind.Normalizes parent v w) : f.Normalizes parent (some v) w
  | built {w : Value} (hbuilt : (f.kind.isRecord && f.fallback.isBuilt) = true)
    (h : f.kind.Normalizes parent .null w) : f.Normalizes parent none w
  | replaced (hbuilt : (f.kind.isRecord && f.fallback.isBuilt) = false)
    (hrequired : f.fallback ≠ .required) : f.Normalizes parent none (f.fallback.content parent)

/-- A field keeps a value that it has in a normal form. -/
def Field.Settled (parent : Option Value) (f : Field) (w : Value) : Prop :=
  f.Normalizes parent (present? w) w

/-- A field keeps what it has in a normal form, unless it is dropped. -/
def Field.Steady (parent : Option Value) (f : Field) : Prop :=
  f.kind.isDiscarded = false → ∀ given w, f.Normalizes parent given w → f.Settled parent w

section

variable {parent : Option Value} {k : Kind} {v w : Value}

/-- The walk gives the normal form of a value of its kind, and finds nothing. -/
theorem normalizes_iff_walk (path : String) :
    k.Normalizes parent v w ↔ k.walk parent v path = (w, []) := by
  constructor
  · rintro ⟨haccepts, rfl⟩
    have hclean := (walk_clean_iff parent k v path).2 haccepts
    exact Prod.ext (walk_fst parent k v path hclean) hclean
  · intro h
    have hclean : (k.walk parent v path).2 = [] := congrArg Prod.snd h
    refine ⟨(walk_clean_iff parent k v path).1 hclean, ?_⟩
    rw [← walk_fst parent k v path hclean, h]

/-- **Walking twice.**  The normal form of a steady kind is walked to itself. -/
theorem Kind.Steady.walk_walk (h : k.Steady parent) {path : String}
    (hclean : (k.walk parent v path).2 = []) :
    k.walk parent (k.walk parent v path).1 path = ((k.walk parent v path).1, []) :=
  (normalizes_iff_walk path).1 (h v _ ((normalizes_iff_walk path).2 (Prod.ext rfl hclean)))

theorem isNull_of_natural? {n : Nat} (h : v.natural? = some n) : v.isNull = false := by
  unfold Value.natural? at h
  unfold Value.isNull
  split at h
  case h_1 hv => rw [hv]
  case h_2 => cases h

theorem isNull_of_text? {s : String} (h : v.text? = some s) : v.isNull = false := by
  unfold Value.text? at h
  unfold Value.isNull
  split at h
  case h_1 hv => rw [hv]
  case h_2 => cases h

/-- A normal form is never null. -/
theorem isNull_normal (hkept : k.isDiscarded = false) (h : k.Accepts v) :
    (k.normal parent v).isNull = false := by
  cases h with
  | boolean | string | list | table | missing | given => rfl
  | natural hv => exact isNull_of_natural? hv
  | oneOf hv => exact isNull_of_text? hv
  | asn hv => simp [Kind.normal, hv, Value.nat, Value.isNull, Value.untagged]
  | address hv | ipv4 hv | ipv6 hv | network hv =>
      simp [Kind.normal, hv, Value.isNull, Value.untagged]
  | text hv hs => simp [Kind.normal, hv, hs, Except.toOption, Value.isNull, Value.untagged]
  | discarded => cases hkept

theorem Kind.Normalizes.isNull_eq_false (h : k.Normalizes parent v w)
    (hkept : k.isDiscarded = false) : w.isNull = false :=
  h.normal_eq ▸ isNull_normal hkept h.accepts

theorem present?_of_isNull (hv : v.isNull = true) : present? v = none :=
  Option.filter_some_neg (by simp [hv])

theorem present?_of_not_isNull (hv : v.isNull = false) : present? v = some v :=
  Option.filter_some_pos (by simp [hv])

/-! ### Fields -/

variable {f : Field} {es : List (Value × Value)}

/-- What is in order among the entries of a section. -/
theorem Field.normalizes_iff (hkept : f.kind.isDiscarded = false) :
    f.Normalizes parent (f.given? es) w ↔ f.Accepts es ∧ f.normal parent es = w := by
  unfold Field.normal
  cases hgiven : f.given? es with
  | some v =>
      rw [Field.accepts_given_iff hkept hgiven]
      constructor
      · rintro ⟨⟨haccepts, hnormal⟩⟩
        exact ⟨haccepts, hnormal⟩
      · rintro ⟨haccepts, hnormal⟩
        exact .given ⟨haccepts, hnormal⟩
  | none =>
      cases hbuilt : f.kind.isRecord && f.fallback.isBuilt with
      | true =>
          rw [Field.accepts_built_iff hgiven hbuilt]
          constructor
          · intro h
            cases h with
            | built _ h => exact ⟨h.accepts, h.normal_eq⟩
            | replaced hnot => cases hbuilt.symm.trans hnot
          · rintro ⟨haccepts, hnormal⟩
            exact .built hbuilt ⟨haccepts, hnormal⟩
      | false =>
          rw [Field.accepts_replaced_iff hkept hgiven hbuilt]
          constructor
          · intro h
            cases h with
            | built hnot => cases hbuilt.symm.trans hnot
            | replaced _ hrequired => exact ⟨hrequired, rfl⟩
          · rintro ⟨hrequired, rfl⟩
            exact .replaced hbuilt hrequired

/-- What is settled for its kind is settled for a field of the kind. -/
theorem Field.settled_of_kind (hkept : f.kind.isDiscarded = false) (h : f.kind.Settled parent w) :
    f.Settled parent w := by
  unfold Field.Settled
  rw [present?_of_not_isNull (h.isNull_eq_false hkept)]
  exact .given h

/-- Null is settled for a field that null stands in for. -/
theorem Field.settled_null (hkind : f.kind.isRecord = false) (hrequired : f.fallback ≠ .required)
    (hcontent : f.fallback.content parent = .null) : f.Settled parent .null := by
  have hreplaced : f.Normalizes parent none (f.fallback.content parent) :=
    .replaced (by simp [hkind]) hrequired
  rw [hcontent] at hreplaced
  exact hreplaced

/-- A value of a settled field that is not null is settled for its kind. -/
theorem Field.Settled.kind (h : f.Settled parent w) (hw : w.isNull = false) :
    f.kind.Settled parent w := by
  unfold Field.Settled at h
  rw [present?_of_not_isNull hw] at h
  cases h with
  | given h => exact h

/-- Null may stand for a field in a normal form. -/
def Field.isNullable (parent : Option Value) (f : Field) : Bool :=
  f.fallback ≠ .required && !(f.kind.isRecord && f.fallback.isBuilt) &&
    (f.fallback.content parent).isNull

/-- A value of a settled field is settled for its kind, where null may not stand for it. -/
theorem Field.Settled.kind_of_not_nullable (h : f.Settled parent w)
    (hkept : f.kind.isDiscarded = false) (hnull : f.isNullable parent = false) :
    f.kind.Settled parent w := by
  cases hw : w.isNull with
  | false => exact h.kind hw
  | true =>
      unfold Field.Settled at h
      rw [present?_of_isNull hw] at h
      cases h with
      | built _ h => cases hw.symm.trans (h.isNull_eq_false hkept)
      | replaced hbuilt hrequired => simp [isNullable, hbuilt, hrequired, hw] at hnull

/-- A field is steady with its kind, if what stands in for it is settled; nothing stands in for a
required field or for a section that is built from its fields. -/
theorem Field.steady_of_kind (h : f.kind.Steady parent)
    (hfallback : f.fallback ≠ .required → (f.kind.isRecord && f.fallback.isBuilt) = false →
      f.Settled parent (f.fallback.content parent)) : f.Steady parent := by
  intro hkept given w hw
  cases hw with
  | given hv => exact Field.settled_of_kind hkept (h _ _ hv)
  | built _ hv => exact Field.settled_of_kind hkept (h _ _ hv)
  | replaced hbuilt hrequired => exact hfallback hrequired hbuilt

theorem Kind.Steady.required {name : String} (h : k.Steady parent) :
    (⟨name, k, .required⟩ : Field).Steady parent :=
  Field.steady_of_kind h fun hnot => absurd rfl hnot

theorem Kind.Steady.orElse {name : String} {fallback : Fallback} (h : k.Steady parent)
    (hfallback : k.Settled parent (fallback.content parent)) :
    (⟨name, k, fallback⟩ : Field).Steady parent := by
  intro hkept
  exact Field.steady_of_kind h (fun _ _ => Field.settled_of_kind hkept hfallback) hkept

/-- A value that may be left out. -/
theorem Kind.Steady.orNull {name : String} (h : k.Steady parent) (hkind : k.isRecord = false) :
    (⟨name, k, .null⟩ : Field).Steady parent :=
  Field.steady_of_kind h fun hrequired _ => Field.settled_null hkind hrequired rfl

theorem Kind.Steady.ofParts {name : String} {inner : List Field}
    (h : (Kind.record inner).Steady parent) : (Field.ofParts name inner).Steady parent :=
  Field.steady_of_kind h fun _ hbuilt => nomatch hbuilt

/-- What is dropped does not matter. -/
theorem steady_dropped {name : String} {fallback : Fallback} :
    (⟨name, .discarded, fallback⟩ : Field).Steady parent := nofun

/-! ### Sections -/

variable {fields : List Field}

/-- What is in order in a section. -/
theorem Kind.Normalizes.exists_entries (hnames : (fields.map Field.name).Nodup)
    (h : (Kind.record fields).Normalizes parent v w) :
    ∃ es, sectionEntries? v = some es ∧
      w = .mapping (named ((kept fields).map fun f => (f.name, f.normal parent es))) ∧
      ∀ f ∈ kept fields, f.Normalizes parent (f.given? es) (f.normal parent es) := by
  obtain ⟨es, hes, haccepts⟩ := exists_sectionEntries h.accepts
  refine ⟨es, hes, h.normal_eq.symm.trans (normal_record hnames hes), fun f hf => ?_⟩
  obtain ⟨hmem, hkind⟩ := List.mem_filter.1 hf
  exact (Field.normalizes_iff (by simpa using hkind)).2 ⟨haccepts f hmem, rfl⟩

/-- **Sections.**  The normal form of a section has what its fields have. -/
theorem normalizes_record (value : Field → Value) (hnames : (fields.map Field.name).Nodup)
    (hv : sectionEntries? v = some es) (hkeys : ∀ e ∈ es, ∃ f ∈ fields, e.1.text? = some f.name)
    (h : ∀ f ∈ kept fields, f.Normalizes parent (f.given? es) (value f)) :
    (Kind.record fields).Normalizes parent v
      (.mapping (named ((kept fields).map fun f => (f.name, value f)))) := by
  have hparts : ∀ f ∈ kept fields, f.Accepts es ∧ f.normal parent es = value f := fun f hf =>
    (Field.normalizes_iff (by simpa using (List.mem_filter.1 hf).2)).1 (h f hf)
  refine ⟨(conforms_iff hv).2 ⟨hkeys, fun f hf => ?_⟩, ?_⟩
  · cases hkind : f.kind.isDiscarded with
    | true => exact Field.accepts_of_discarded hkind
    | false => exact (hparts f (List.mem_filter.2 ⟨hf, by simp [hkind]⟩)).1
  · rw [normal_record hnames hv]
    refine congrArg (fun fs => Value.mapping (named fs)) (List.map_congr_left fun f hf => ?_)
    rw [(hparts f hf).2]

/-- What is given for a field among entries with names of their own. -/
theorem given?_named {fs : List (String × Value)} (hnames : (fs.map (·.1)).Nodup) {v : Value}
    (h : (f.name, v) ∈ fs) : f.given? (named fs) = present? v := by
  rw [Field.given?, lookup?_named hnames h, present?]

/-- All fields of a section keep what they have in a normal form. -/
def SteadyFields (parent : Option Value) (fields : List Field) : Prop :=
  ∀ f ∈ fields, f.Steady parent

theorem steadyFields_nil : SteadyFields parent [] := fun _ hf => by cases hf

theorem SteadyFields.cons (hf : f.Steady parent) (h : SteadyFields parent fields) :
    SteadyFields parent (f :: fields) :=
  List.forall_mem_cons.2 ⟨hf, h⟩

/-- A section is steady with its fields. -/
theorem SteadyFields.record (h : SteadyFields parent fields)
    (hnames : (fields.map Field.name).Nodup) : (Kind.record fields).Steady parent := by
  intro v w hw
  obtain ⟨es, -, rfl, hparts⟩ := hw.exists_entries hnames
  refine normalizes_record _ hnames rfl (fun e he => ?_) fun f hf => ?_
  · obtain ⟨x, hx, rfl⟩ := List.mem_map.1 he
    obtain ⟨f, hf, rfl⟩ := List.mem_map.1 hx
    exact ⟨f, (List.mem_filter.1 hf).1, rfl⟩
  · rw [given?_named (nodup_normals hnames)
      (List.mem_map_of_mem (f := fun f => (f.name, f.normal parent es)) hf)]
    obtain ⟨hmem, hkind⟩ := List.mem_filter.1 hf
    exact h f hmem (by simpa using hkind) _ _ (hparts f hf)

/-- The fields of a settled section are settled. -/
theorem Kind.Settled.getD (hnames : (fields.map Field.name).Nodup)
    (h : (Kind.record fields).Settled parent w) (hf : f ∈ kept fields) :
    f.Settled parent (w.getD f.name) := by
  obtain ⟨es, hes, hw, hparts⟩ := Kind.Normalizes.exists_entries hnames h
  have hmem := List.mem_map_of_mem (f := fun f => (f.name, f.normal parent es)) hf
  have hvalue : w.getD f.name = f.normal parent es := by
    rw [hw]
    exact getD_named (nodup_normals hnames) hmem
  -- the entries are those of the normal form, as the section is one
  have hes' : es = named ((kept fields).map fun f => (f.name, f.normal parent es)) := by
    rw [hw] at hes
    exact (Option.some.inj hes).symm
  have hgiven : f.given? es = present? (f.normal parent es) :=
    (congrArg f.given? hes').trans (given?_named (nodup_normals hnames) hmem)
  have hpart := hparts f hf
  rw [hgiven] at hpart
  rwa [hvalue]

/-- What stands for a field that is never null is settled for its kind. -/
theorem Kind.Settled.field (h : (Kind.record fields).Settled parent w)
    (hnames : (fields.map Field.name).Nodup) (hf : f ∈ fields) (hkept : f.kind.isDiscarded = false)
    (hnull : f.isNullable parent = false) : f.kind.Settled parent (w.getD f.name) :=
  (h.getD hnames (List.mem_filter.2 ⟨hf, by simp [hkept]⟩)).kind_of_not_nullable hkept hnull

/-- Fields are in order with what is written for each of them, and have other values in the normal
form. -/
inductive NormalizesFields (parent : Option Value) :
    List Field → List (String × Value) → List (String × Value) → Prop
  | nil : NormalizesFields parent [] [] []
  | cons {f : Field} {fields : List Field} {v w : Value} {vs ws : List (String × Value)}
    (hkept : f.kind.isDiscarded = false) (h : f.Normalizes parent (present? v) w)
    (hrest : NormalizesFields parent fields vs ws) :
    NormalizesFields parent (f :: fields) ((f.name, v) :: vs) ((f.name, w) :: ws)

namespace NormalizesFields

variable {vs ws : List (String × Value)}

/-- A field for which its normal form is written. -/
theorem keep (hkept : f.kind.isDiscarded = false) (h : f.Settled parent w)
    (hrest : NormalizesFields parent fields vs ws) :
    NormalizesFields parent (f :: fields) ((f.name, w) :: vs) ((f.name, w) :: ws) :=
  .cons hkept h hrest

/-- A field for which a value of its kind in normal form is written. -/
theorem keepKind (hkept : f.kind.isDiscarded = false) (h : f.kind.Settled parent w)
    (hrest : NormalizesFields parent fields vs ws) :
    NormalizesFields parent (f :: fields) ((f.name, w) :: vs) ((f.name, w) :: ws) :=
  keep hkept (Field.settled_of_kind hkept h) hrest

theorem names_eq (h : NormalizesFields parent fields vs ws) :
    vs.map (·.1) = fields.map Field.name ∧ ws.map (·.1) = fields.map Field.name := by
  induction h with
  | nil => exact ⟨rfl, rfl⟩
  | cons _ _ _ ih => exact ⟨congrArg _ ih.1, congrArg _ ih.2⟩

theorem exists_values (h : NormalizesFields parent fields vs ws) : ∀ f ∈ fields,
    f.kind.isDiscarded = false ∧ ∃ v w, (f.name, v) ∈ vs ∧ (f.name, w) ∈ ws ∧
      f.Normalizes parent (present? v) w := by
  induction h with
  | nil => exact nofun
  | cons hkept h _ ih =>
      intro g hg
      rcases List.mem_cons.1 hg with rfl | hg
      · exact ⟨hkept, _, _, List.mem_cons_self, List.mem_cons_self, h⟩
      · obtain ⟨hkept', v, w, hv, hw, h'⟩ := ih g hg
        exact ⟨hkept', v, w, List.mem_cons_of_mem _ hv, List.mem_cons_of_mem _ hw, h'⟩

/-- A section in which every field is written, in the order of the schema. -/
theorem record (h : NormalizesFields parent fields vs ws)
    (hnames : (fields.map Field.name).Nodup) :
    (Kind.record fields).Normalizes parent (.ofFields vs) (.ofFields ws) := by
  have hvs : (vs.map (·.1)).Nodup := h.names_eq.1 ▸ hnames
  have hws : (ws.map (·.1)).Nodup := h.names_eq.2 ▸ hnames
  have hkept : kept fields = fields :=
    List.filter_eq_self.2 fun f hf => by simp [(h.exists_values f hf).1]
  -- the entries of the normal form, each with what stands under its name
  have hentries : (kept fields).map (fun f => (f.name, (Value.ofFields ws).getD f.name)) = ws := by
    have hvalue : ∀ e ∈ ws, (e.1, (Value.ofFields ws).getD e.1) = id e := fun e he =>
      Prod.ext rfl (getD_named hws he)
    have hself := (List.map_congr_left hvalue).trans (List.map_id ws)
    have hnames := congrArg (List.map fun name => (name, (Value.ofFields ws).getD name)) h.names_eq.2
    rw [List.map_map, List.map_map] at hnames
    rw [hkept]
    exact hnames.symm.trans hself
  rw [← hentries]
  refine normalizes_record (fun f => (Value.ofFields ws).getD f.name) hnames rfl (fun e he => ?_)
    fun f hf => ?_
  · obtain ⟨x, hx, rfl⟩ := List.mem_map.1 he
    have hname : x.1 ∈ fields.map Field.name := h.names_eq.1 ▸ List.mem_map_of_mem (f := (·.1)) hx
    obtain ⟨f, hf, hsame⟩ := List.mem_map.1 hname
    exact ⟨f, hf, congrArg some hsame.symm⟩
  · obtain ⟨-, v, w, hv, hw, hpart⟩ := h.exists_values f (List.mem_filter.1 hf).1
    have hgiven : f.given? (named vs) = present? v := given?_named hvs hv
    have hvalue : (Value.ofFields ws).getD f.name = w := getD_named hws hw
    rw [← hgiven] at hpart
    rwa [hvalue]

end NormalizesFields

/-! ### Lists and tables -/

theorem settled_list {xs : List Value} (h : ∀ x ∈ xs, k.Settled parent x) :
    (Kind.list k).Settled parent (.list xs) := by
  refine ⟨.list fun x hx => (h x hx).accepts, ?_⟩
  have hitems : xs.map (k.normal parent) = xs :=
    (List.map_congr_left (g := id) fun x hx => (h x hx).normal_eq).trans (List.map_id xs)
  exact congrArg Value.list hitems

theorem settled_list_nil : (Kind.list k).Settled parent (.list []) :=
  settled_list fun _ hx => by cases hx

/-- The items of a settled list are settled. -/
theorem Kind.Settled.items {xs : List Value} (h : (Kind.list k).Settled parent (.list xs)) :
    ∀ x ∈ xs, k.Settled parent x := by
  intro x hx
  refine ⟨accepts_list_iff.1 h.accepts x hx, ?_⟩
  have hitems : xs.map (k.normal parent) = xs.map id :=
    (Value.list.inj h.normal_eq).trans (List.map_id xs).symm
  exact List.map_inj_left.1 hitems x hx

theorem Kind.Steady.list (h : k.Steady parent) : (Kind.list k).Steady parent := by
  rintro v w ⟨haccepts, rfl⟩
  cases haccepts with
  | @list _ xs hxs =>
      refine settled_list fun x hx => ?_
      obtain ⟨y, hy, rfl⟩ := List.mem_map.1 hx
      exact h y _ ⟨hxs y hy, rfl⟩

/-- A check of texts accepts what it gives. -/
def IsStable (check : TextCheck) : Prop := ∀ s t, check s = .ok t → check t = .ok t

theorem settled_table {check : TextCheck} {fs : List (String × Value)}
    (hnames : (fs.map (·.1)).Nodup) (hkeys : ∀ e ∈ fs, check e.1 = .ok e.1)
    (h : ∀ e ∈ fs, k.Settled parent e.2) :
    (Kind.table check k).Settled parent (.mapping (named fs)) := by
  have hkey : ∀ e ∈ fs, tableKey check (.string e.1) = .ok e.1 := fun e he =>
    tableKey_eq_ok_iff.2 ⟨e.1, rfl, hkeys e he⟩
  constructor
  · refine .table (fun e he => ?_) fun e he => ?_
    · obtain ⟨f, hf, rfl⟩ := List.mem_map.1 he
      exact ⟨f.1, f.1, rfl, hkeys f hf⟩
    · obtain ⟨f, hf, rfl⟩ := List.mem_map.1 he
      exact (h f hf).accepts
  · have hsame : (named fs).filterMap (fun e =>
        (tableKey check e.1).toOption.map fun name => (name, k.normal parent e.2)) = fs := by
      rw [named, List.filterMap_map]
      refine (List.filterMap_congr fun e he => ?_).trans (List.filterMap_some (l := fs))
      simp [hkey e he, Except.toOption, (h e he).normal_eq]
    simp only [Kind.normal, sectionEntries?, Option.getD_some, hsame]
    rw [insertAll_of_nodup hnames (by simp), List.nil_append]

/-- The names of a table are checked again. -/
theorem Kind.Steady.table {check : TextCheck} (hcheck : IsStable check) (h : k.Steady parent) :
    (Kind.table check k).Steady parent := by
  rintro v w ⟨haccepts, rfl⟩
  cases haccepts with
  | @table _ _ es hkeys hes =>
      -- two keys may give one name, and then only the last of the values is there
      obtain ⟨fs, hfs, hnames, hmem⟩ := insertAll_eq_named (es.filterMap fun e =>
        (tableKey check e.1).toOption.map fun name => (name, k.normal parent e.2))
      have horigin : ∀ f ∈ fs, check f.1 = .ok f.1 ∧ k.Settled parent f.2 := by
        intro f hf
        obtain ⟨e, he, hwalked⟩ := List.mem_filterMap.1 (hmem f hf)
        obtain ⟨name, hname, rfl⟩ := Option.map_eq_some_iff.1 hwalked
        obtain ⟨s, t, hs, ht⟩ := hkeys e he
        have hkey : tableKey check e.1 = .ok t := tableKey_eq_ok_iff.2 ⟨s, hs, ht⟩
        rw [hkey] at hname
        obtain rfl : t = name := Option.some.inj hname
        exact ⟨hcheck s t ht, h e.2 _ ⟨hes e he, rfl⟩⟩
      simp only [Kind.normal, sectionEntries?, Option.getD_some, hfs]
      exact settled_table hnames (fun f hf => (horigin f hf).1) fun f hf => (horigin f hf).2

/-! ### Single values -/

theorem settled_boolean (b : Bool) : Kind.boolean.Settled parent (.bool b) := ⟨.boolean b, rfl⟩

theorem settled_string (s : String) : Kind.string.Settled parent (.string s) := ⟨.string s, rfl⟩

theorem settled_natural {least greatest n : Nat} (hleast : least ≤ n) (hgreatest : n ≤ greatest) :
    (Kind.natural least greatest).Settled parent (.nat n) :=
  ⟨.natural rfl hleast hgreatest, rfl⟩

theorem settled_oneOf {choices : List String} {s : String} (h : s ∈ choices) :
    (Kind.oneOf choices).Settled parent (.string s) :=
  ⟨.oneOf rfl h, rfl⟩

theorem asn?_nat {n : Asn} (h : 0 < n.toNat) : asn? (.nat n.toNat) = some n := by
  have hle : n.toNat ≤ maxWord32 := Nat.le_of_lt_succ n.toNat_lt
  simp [asn?, Value.nat, Number.ofNat, Number.natural?, Asn.ofNat?, h, hle]

theorem pos_of_ofNat? {n : Nat} {asn : Asn} (h : Asn.ofNat? n = some asn) : 0 < asn.toNat := by
  unfold Asn.ofNat? at h
  split at h
  case isTrue hn =>
      cases h
      have hmod : n % 2 ^ 32 = n := Nat.mod_eq_of_lt (Nat.lt_succ_of_le hn.2)
      rw [UInt32.toNat_ofNat', hmod]
      exact hn.1
  case isFalse => cases h

theorem pos_of_asn? {n : Asn} (h : asn? v = some n) : 0 < n.toNat := by
  unfold asn? at h
  split at h
  · obtain ⟨m, -, hm⟩ := Option.bind_eq_some_iff.1 h
    exact pos_of_ofNat? hm
  · obtain ⟨m, -, hm⟩ := Option.bind_eq_some_iff.1 h
    exact pos_of_ofNat? hm
  · cases h

theorem settled_asn {n : Asn} (h : 0 < n.toNat) : Kind.asn.Settled parent (.nat n.toNat) :=
  ⟨.asn (asn?_nat h), by simp [Kind.normal, asn?_nat h]⟩

theorem address?_text (a : Address) : address? (.string a.text) = some a := by
  simp [address?, Value.text?, Value.untagged, Address.read_text]

theorem settled_address (a : Address) : Kind.address.Settled parent (.string a.text) :=
  ⟨.address (address?_text a), by simp [Kind.normal, address?_text]⟩

theorem settled_ipv4 (bits : BitVec 32) :
    Kind.ipv4.Settled parent (.string (Address.v4Text bits)) :=
  ⟨.ipv4 (address?_text (.v4 bits)) rfl, by
    simp [Kind.normal, show address? (.string (Address.v4Text bits)) = some (.v4 bits) from
      address?_text (.v4 bits), Address.text]⟩

theorem settled_ipv6 (bits : BitVec 128) :
    Kind.ipv6.Settled parent (.string (Address.v6Text bits)) :=
  ⟨.ipv6 (address?_text (.v6 bits)) rfl, by
    simp [Kind.normal, show address? (.string (Address.v6Text bits)) = some (.v6 bits) from
      address?_text (.v6 bits), Address.text]⟩

theorem settled_text {check : TextCheck} {s : String} (h : check s = .ok s) :
    (Kind.text check).Settled parent (.string s) :=
  ⟨.text rfl h, by simp [Kind.normal, Value.text?, Value.untagged, h, Except.toOption]⟩

/-- Kinds whose values are kept as they are given. -/
theorem steady_of_normal_eq (h : ∀ v, k.normal parent v = v) : k.Steady parent := by
  rintro v w ⟨haccepts, rfl⟩
  rw [h]
  exact ⟨haccepts, h v⟩

theorem steady_boolean : Kind.boolean.Steady parent := steady_of_normal_eq fun _ => rfl

theorem steady_string : Kind.string.Steady parent := steady_of_normal_eq fun _ => rfl

theorem steady_natural (least greatest : Nat) : (Kind.natural least greatest).Steady parent :=
  steady_of_normal_eq fun _ => rfl

theorem steady_oneOf (choices : List String) : (Kind.oneOf choices).Steady parent :=
  steady_of_normal_eq fun _ => rfl

theorem steady_asn : Kind.asn.Steady parent := by
  rintro v w ⟨haccepts, rfl⟩
  cases haccepts with
  | asn hv =>
      simp only [Kind.normal, hv, Option.map_some, Option.getD_some]
      exact settled_asn (pos_of_asn? hv)

theorem steady_address : Kind.address.Steady parent := by
  rintro v w ⟨haccepts, rfl⟩
  cases haccepts with
  | @address _ a hv =>
      simp only [Kind.normal, hv, Option.map_some, Option.getD_some]
      exact settled_address a

theorem steady_ipv4 : Kind.ipv4.Steady parent := by
  rintro v w ⟨haccepts, rfl⟩
  cases haccepts with
  | @ipv4 _ a hv ha =>
      simp only [Kind.normal, hv, Option.map_some, Option.getD_some]
      cases a with
      | v4 bits => exact settled_ipv4 bits
      | v6 => cases ha

theorem steady_ipv6 : Kind.ipv6.Steady parent := by
  rintro v w ⟨haccepts, rfl⟩
  cases haccepts with
  | @ipv6 _ a hv ha =>
      simp only [Kind.normal, hv, Option.map_some, Option.getD_some]
      cases a with
      | v6 bits => exact settled_ipv6 bits
      | v4 => cases ha

theorem steady_text {check : TextCheck} (hcheck : IsStable check) :
    (Kind.text check).Steady parent := by
  rintro v w ⟨haccepts, rfl⟩
  cases haccepts with
  | text hv hs =>
      simp only [Kind.normal, hv, Option.bind_some, hs, Except.toOption, Option.map_some,
        Option.getD_some]
      exact settled_text (hcheck _ _ hs)

end

end RouteServer.Schema

import RouteServer.Schema.Walk

/-!
# Schema — what walking a section gives

The walk of a section builds its normal form entry by entry.  Where the names of the fields are
distinct the result can be said at once (`walk_record`): an entry for every field that is kept, in
the order of the schema, and the violations of the keys followed by those of the fields.  So the
value under a name in the normal form is what walking its field gives (`getD_walk_record`).
-/

namespace RouteServer.Schema

open RouteServer.Yaml

/-- The fields that have a place in the normal form. -/
def kept (fields : List Field) : List Field := fields.filter fun f => !f.kind.isDiscarded

/-- The value that a section has for a field: one that is null counts as missing. -/
def Field.given? (f : Field) (entries : List (Value × Value)) : Option Value :=
  (Value.lookup? f.name entries).filter fun v => !v.isNull

/-- What walking a field gives, with the value that is given for it. -/
def Field.fill (parent : Option Value) (f : Field) (given : Option Value) (path : String) :
    Walked :=
  match given with
  | some v => f.kind.walk parent v path
  | none =>
    if f.kind.isRecord && f.fallback.isBuilt then f.kind.walk parent .null path
    else f.fallback.value parent path

/-- What walking a field of a section gives. -/
def Field.walked (parent : Option Value) (entries : List (Value × Value)) (path : String)
    (f : Field) : Walked :=
  f.fill parent (f.given? entries) (join path f.name)

/-- The entries of a section; one that is missing has none. -/
def sectionEntries? : Value → Option (List (Value × Value))
  | .mapping entries => some entries
  | .null => some []
  | _ => none

theorem same_string (s t : String) : (Value.string s).same (.string t) = (s == t) := by
  simp [Value.same]

theorem insertEntry_of_new {entries : List (Value × Value)} {name : String} {v : Value}
    (h : ∀ e ∈ entries, e.1.same (.string name) = false) :
    Value.insertEntry entries (.string name) v = entries ++ [(.string name, v)] := by
  have hany : entries.any (fun e => e.1.same (.string name)) = false := by
    rw [List.any_eq_false]
    intro e he
    simp [h e he]
  simp [Value.insertEntry, hany]

/-- The entries of a normal form. -/
def entriesOf (walked : Field → Walked) (fields : List Field) : List (Value × Value) :=
  fields.map fun f => (.string f.name, (walked f).1)

/-- One field of a section. -/
theorem walkFields_cons (parent : Option Value) (f : Field) (fields : List Field)
    (entries : List (Value × Value)) (path : String) (out : List (Value × Value)) :
    walkFields parent (f :: fields) entries path out =
      if f.kind.isDiscarded then walkFields parent fields entries path out
      else
        let rest := walkFields parent fields entries path
          (Value.insertEntry out (.string f.name) (f.walked parent entries path).1)
        (rest.1, (f.walked parent entries path).2 ++ rest.2) := by
  cases f
  rw [walkFields]
  rfl

theorem walkFields_eq (parent : Option Value) (entries : List (Value × Value)) (path : String)
    {fields : List Field} : ∀ {out : List (Value × Value)}, (fields.map Field.name).Nodup →
      (∀ f ∈ fields, ∀ e ∈ out, e.1.same (.string f.name) = false) →
      walkFields parent fields entries path out =
        (out ++ entriesOf (Field.walked parent entries path) (kept fields),
          (kept fields).flatMap fun f => (Field.walked parent entries path f).2) := by
  induction fields with
  | nil =>
      intro out _ _
      simp [walkFields, kept, entriesOf]
  | cons f fields ih =>
      intro out hnodup hnew
      rw [List.map_cons, List.nodup_cons] at hnodup
      rw [walkFields_cons]
      cases hk : f.kind.isDiscarded with
      | true =>
          rw [if_pos rfl, ih hnodup.2 fun g hg => hnew g (List.mem_cons_of_mem _ hg)]
          simp [kept, hk]
      | false =>
          -- the entry of the field is new, and the names that follow are others
          have hrest : ∀ g ∈ fields, ∀ e ∈ out ++ [(Value.string f.name, (f.walked parent entries
              path).1)], e.1.same (.string g.name) = false := by
            intro g hg e he
            rcases List.mem_append.1 he with he | he
            · exact hnew g (List.mem_cons_of_mem _ hg) e he
            · rw [List.mem_singleton.1 he, same_string, beq_eq_false_iff_ne]
              intro h
              exact hnodup.1 (h ▸ List.mem_map_of_mem (f := Field.name) hg)
          simp only [insertEntry_of_new (hnew f List.mem_cons_self), ih hnodup.2 hrest]
          simp [kept, hk, entriesOf]

section

variable {parent : Option Value} {fields : List Field} {v : Value} {path : String}
  {entries : List (Value × Value)}

/-- **The walk of a section.** -/
theorem walk_record (hnames : (fields.map Field.name).Nodup) (hv : sectionEntries? v = some entries) :
    (Kind.record fields).walk parent v path =
      (.mapping (entriesOf (Field.walked parent entries path) (kept fields)),
        keyViolations (fields.map Field.name) path entries ++
          (kept fields).flatMap fun f => (Field.walked parent entries path f).2) := by
  unfold sectionEntries? at hv
  split at hv
  · cases hv
    simp [Kind.walk, walkFields_eq parent _ path hnames]
  · cases hv
    simp [Kind.walk, walkFields_eq parent _ path hnames, keyViolations]
  · cases hv

theorem walk_record_of_none (hv : sectionEntries? v = none) :
    (Kind.record fields).walk parent v path = refuse path .notMapping := by
  cases v <;> first | rfl | cases hv

theorem find?_entriesOf {walked : Field → Walked} {f : Field}
    (hnames : (fields.map Field.name).Nodup) (hf : f ∈ fields) :
    (entriesOf walked fields).find? (fun e => e.1.isName f.name) =
      some (.string f.name, (walked f).1) := by
  induction fields with
  | nil => cases hf
  | cons g fields ih =>
      rw [List.map_cons, List.nodup_cons] at hnames
      rw [entriesOf, List.map_cons, List.find?_cons, ← entriesOf]
      rcases List.mem_cons.1 hf with rfl | hf
      · simp [Value.isName]
      · have hne : g.name ≠ f.name := fun h =>
          hnames.1 (h ▸ List.mem_map_of_mem (f := Field.name) hf)
        rw [show (Value.string g.name).isName f.name = false from decide_eq_false hne]
        exact ih hnames.2 hf

theorem nodup_kept (hnames : (fields.map Field.name).Nodup) :
    ((kept fields).map Field.name).Nodup :=
  hnames.sublist (List.filter_sublist.map _)

/-- The value under the name of a field. -/
theorem getD_walk_record (hnames : (fields.map Field.name).Nodup)
    (hv : sectionEntries? v = some entries) {f : Field} (hf : f ∈ kept fields) :
    ((Kind.record fields).walk parent v path).1.getD f.name =
      (f.walked parent entries path).1 := by
  rw [walk_record hnames hv]
  simp only [Value.getD, Value.get?, Value.untagged, Value.lookup?,
    find?_entriesOf (nodup_kept hnames) hf, Option.map_some, Option.getD_some]

/-- Nothing stands in what is refused. -/
theorem getD_walk_of_none (hv : sectionEntries? v = none) (name : String) :
    ((Kind.record fields).walk parent v path).1.getD name = .null := by
  rw [walk_record_of_none hv]
  rfl

/-- What stands under the name of a field: the normal form of its value, or null where the section
is refused. -/
theorem getD_walk (parent : Option Value) (v : Value) (path : String)
    (hnames : (fields.map Field.name).Nodup) {f : Field} (hf : f ∈ kept fields) :
    ((Kind.record fields).walk parent v path).1.getD f.name = .null ∨
      ∃ entries, ((Kind.record fields).walk parent v path).1.getD f.name =
        (f.walked parent entries path).1 := by
  cases hv : sectionEntries? v with
  | none => exact .inl (getD_walk_of_none hv f.name)
  | some entries => exact .inr ⟨entries, getD_walk_record hnames hv hf⟩

end

/-- A section within a section is walked whether it is there or not. -/
theorem walked_ofParts (parent : Option Value) (entries : List (Value × Value)) (path name : String)
    (fields : List Field) :
    (Field.ofParts name fields).walked parent entries path =
      (Kind.record fields).walk parent (((Field.ofParts name fields).given? entries).getD .null)
        (join path name) := by
  unfold Field.walked
  cases (Field.ofParts name fields).given? entries <;> rfl

/-- A text in a normal form has passed its check. -/
theorem walked_text {parent : Option Value} {entries : List (Value × Value)} {path name : String}
    {check : TextCheck} {t : String}
    (h : ((⟨name, .text check, .null⟩ : Field).walked parent entries path).1 = .string t) :
    ∃ s, check s = .ok t := by
  unfold Field.walked Field.fill at h
  split at h
  · simp only [Kind.walk] at h
    split at h
    · split at h
      case h_1 s _ _ t' hcheck => cases h; exact ⟨s, hcheck⟩
      case h_2 => cases h
    · cases h
  · cases h

/-! ### The field at the end of some names -/

/-- Names lead from the fields of a section to a field within the sections under it. -/
inductive At : List Field → List String → Field → Prop
  | here {fields : List Field} {f : Field} (hnames : (fields.map Field.name).Nodup)
      (hf : f ∈ fields) : At fields [f.name] f
  | inside {fields inner : List Field} {name : String} {names : List String} {f : Field}
      (hnames : (fields.map Field.name).Nodup) (hf : .ofParts name inner ∈ fields)
      (h : At inner names f) : At fields (name :: names) f

theorem At.ne_nil {fields : List Field} {names : List String} {f : Field} (h : At fields names f) :
    names ≠ [] := by cases h <;> simp

/-- The value that names lead to, unless something on the way to it is missing or null. -/
def given? (v : Value) (names : List String) : Option Value :=
  (v.follow? names).filter fun v => !v.isNull

/-- The value under some names in a normal form. -/
def descend (v : Value) (names : List String) : Value := names.foldl Value.getD v

theorem items_of_isNull {v : Value} (h : v.isNull = true) : v.items = [] := by
  unfold Value.isNull at h
  split at h
  case h_1 hnull => rw [Value.items, hnull]
  case h_2 => cases h

theorem text?_of_isNull {v : Value} (h : v.isNull = true) : v.text? = none := by
  unfold Value.isNull at h
  split at h
  case h_1 hnull => rw [Value.text?, hnull]
  case h_2 => cases h

theorem given?_of_isNull {v : Value} {names : List String} (hv : v.isNull) (hne : names ≠ []) :
    given? v names = none := by
  cases names with
  | nil => exact absurd rfl hne
  | cons name names =>
      unfold Value.isNull at hv
      split at hv
      case h_1 hnull => simp [given?, Value.follow?, Value.get?, hnull]
      case h_2 => cases hv

theorem given?_single (v : Value) (name : String) :
    given? v [name] = (v.get? name).filter fun v => !v.isNull := by
  unfold given? Value.follow?
  cases v.get? name <;> rfl

/-- What is given within a section that is missing or null is not given. -/
theorem given?_cons (v : Value) (name : String) {names : List String} (hne : names ≠ []) :
    given? v (name :: names) = given? ((given? v [name]).getD .null) names := by
  rw [given?_single]
  cases hw : v.get? name with
  | none =>
      rw [show (none : Option Value).filter _ = none from rfl, Option.getD_none,
        given?_of_isNull rfl hne]
      simp [given?, Value.follow?, hw]
  | some w =>
      have hfollow : given? v (name :: names) = given? w names := by
        simp [given?, Value.follow?, hw]
      rw [hfollow]
      cases hnull : w.isNull with
      | true =>
          rw [Option.filter_some_neg (by simp [hnull]), Option.getD_none,
            given?_of_isNull hnull hne, given?_of_isNull rfl hne]
      | false => rw [Option.filter_some_pos (by simp [hnull]), Option.getD_some]

/-- The walk of a section that finds nothing wrong: it is a mapping, or missing. -/
theorem sectionEntries?_of_walk {parent : Option Value} {fields : List Field} {v : Value}
    {path : String} (h : ((Kind.record fields).walk parent v path).2 = []) :
    ∃ entries, sectionEntries? v = some entries ∧
      ∀ name, given? v [name] = (Value.lookup? name entries).filter fun v => !v.isNull := by
  cases v with
  | mapping es =>
      refine ⟨es, rfl, fun name => ?_⟩
      -- a section that is given is a mapping without a tag
      simp only [given?, Value.follow?, Value.get?, Value.untagged]
      cases Value.lookup? name es <;> rfl
  | null => exact ⟨[], rfl, fun name => rfl⟩
  | _ => cases h

/-- A field of a section in which nothing is wrong is filled with what is given for it. -/
theorem getD_of_walk {parent : Option Value} {fields : List Field} {v : Value} {path : String}
    (hnames : (fields.map Field.name).Nodup)
    (h : ((Kind.record fields).walk parent v path).2 = []) {f : Field} (hf : f ∈ kept fields) :
    ∃ p, ((Kind.record fields).walk parent v path).1.getD f.name =
        (f.fill parent (given? v [f.name]) p).1 ∧
      (f.fill parent (given? v [f.name]) p).2 = [] := by
  obtain ⟨entries, hentries, hgiven⟩ := sectionEntries?_of_walk h
  refine ⟨join path f.name, ?_, ?_⟩
  · rw [getD_walk_record hnames hentries hf, Field.walked, hgiven]
    rfl
  · rw [walk_record hnames hentries] at h
    have hclean := List.flatMap_eq_nil_iff.1 (List.append_eq_nil_iff.1 h).2 f hf
    rw [hgiven]
    exact hclean

/-- A required field of a section in which nothing is wrong is given, and in order. -/
theorem given_of_required {parent : Option Value} {fields : List Field} {name : String} {kind : Kind}
    {v : Value} {path : String} (hnames : (fields.map Field.name).Nodup)
    (hf : ⟨name, kind, .required⟩ ∈ kept fields)
    (hclean : ((Kind.record fields).walk parent v path).2 = []) :
    ∃ w p, given? v [name] = some w ∧
      ((Kind.record fields).walk parent v path).1.getD name = (kind.walk parent w p).1 ∧
      (kind.walk parent w p).2 = [] := by
  obtain ⟨p, hvalue, hfill⟩ := getD_of_walk hnames hclean hf
  cases hgiven : given? v [name] with
  | none =>
      rw [hgiven, Field.fill, if_neg (by simp [Fallback.isBuilt])] at hfill
      cases hfill
  | some w =>
      rw [hgiven] at hvalue hfill
      exact ⟨w, p, rfl, hvalue, hfill⟩

theorem fill_ofParts (parent : Option Value) (name : String) (fields : List Field)
    (given : Option Value) (path : String) :
    (Field.ofParts name fields).fill parent given path =
      (Kind.record fields).walk parent (given.getD .null) path := by
  cases given <;> rfl

/-- **Normal forms, by names.**  When the walk finds nothing wrong, what names lead to in the normal
form is the field there, filled with what the same names lead to in the document. -/
theorem descend_of_walk {parent : Option Value} {fields : List Field} {names : List String}
    {f : Field} (hat : At fields names f) (hkept : f.kind.isDiscarded = false) {v : Value}
    {path : String} (h : ((Kind.record fields).walk parent v path).2 = []) :
    ∃ p, descend ((Kind.record fields).walk parent v path).1 names =
        (f.fill parent (given? v names) p).1 ∧
      (f.fill parent (given? v names) p).2 = [] := by
  induction hat generalizing v path with
  | @here fields f hnames hf =>
      exact getD_of_walk hnames h (List.mem_filter.2 ⟨hf, by simp [hkept]⟩)
  | @inside fields inner name names f hnames hf hat ih =>
      obtain ⟨p, hvalue, hclean⟩ := getD_of_walk hnames h
        (List.mem_filter.2 ⟨hf, by simp [Field.ofParts, Kind.isDiscarded]⟩)
      rw [fill_ofParts] at hvalue hclean
      obtain ⟨q, hinner⟩ := ih hkept hclean
      refine ⟨q, ?_⟩
      rw [given?_cons v name hat.ne_nil]
      rw [← hvalue] at hinner
      exact hinner

end RouteServer.Schema

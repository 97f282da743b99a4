import Mathlib.Data.List.Basic
import RouteServer.Proofs.Schema.Entries

/-!
# Schema — what a schema accepts

When a value is of a kind (`Kind.Accepts`) and what its normal form is (`Kind.normal`), said without
going through it: neither speaks of violations, of paths or of an order in which things are looked
at, and whether a value is of a kind does not depend on the document that it inherits from.

**The walk of a section** (`walk_clean_iff_conforms`) finds nothing exactly in the values that
conform, and then gives their normal form, which has an entry for every field that is kept, in the
order of the schema.  This holds of all schemas and of all values, with tags or without.

A field that is required has to be given, unless it is dropped or stands in a missing section that
something else than its own fields stands in for, and fields of one name share their entry
(`not_always_required`).
-/

namespace RouteServer.Schema

open RouteServer.Net RouteServer.Yaml

/-! ### Induction over kinds -/

/-- Whether a kind has no other kinds in it. -/
def Kind.isSingle : Kind → Bool
  | .list _ | .record _ | .table _ _ => false
  | _ => true

/-- A property holds of all kinds if it holds of the single ones, and of a list, a section or a
table whenever it holds of the kinds in it. -/
theorem Kind.induction {P : Kind → Prop} (single : ∀ k : Kind, k.isSingle = true → P k)
    (list : ∀ item, P item → P (.list item))
    (record : ∀ fields : List Field, (∀ f ∈ fields, P f.kind) → P (.record fields))
    (table : ∀ check item, P item → P (.table check item)) : ∀ k, P k
  | .list item => list item (Kind.induction single list record table item)
  | .record fields => record fields fun f _ => Kind.induction single list record table f.kind
  | .table check item => table check item (Kind.induction single list record table item)
  | .boolean | .natural _ _ | .string | .oneOf _ | .asn | .address | .ipv4 | .ipv6 | .network
  | .text _ | .discarded => single _ rfl
termination_by k => sizeOf k
decreasing_by
  · simp
  · have hf := List.sizeOf_lt_of_mem ‹f ∈ fields›
    cases f
    simp at hf ⊢
    omega
  · simp

/-! ### What is of a kind -/

mutual
/-- A value is of a kind. -/
inductive Kind.Accepts : Kind → Value → Prop
  | boolean (b : Bool) : Kind.Accepts .boolean (.bool b)
  | natural {least greatest n : Nat} {v : Value} (hv : v.natural? = some n) (hleast : least ≤ n)
    (hgreatest : n ≤ greatest) : Kind.Accepts (.natural least greatest) v
  | string (s : String) : Kind.Accepts .string (.string s)
  | oneOf {choices : List String} {v : Value} {s : String} (hv : v.text? = some s)
    (hs : s ∈ choices) : Kind.Accepts (.oneOf choices) v
  | asn {v : Value} {n : Asn} (hv : asn? v = some n) : Kind.Accepts .asn v
  | address {v : Value} {a : Address} (hv : address? v = some a) : Kind.Accepts .address v
  | ipv4 {v : Value} {a : Address} (hv : address? v = some a) (ha : a.family = .v4) :
    Kind.Accepts .ipv4 v
  | ipv6 {v : Value} {a : Address} (hv : address? v = some a) (ha : a.family = .v6) :
    Kind.Accepts .ipv6 v
  | network {v : Value} {n : Network} (hv : v.text?.bind Network.read = some n) :
    Kind.Accepts .network v
  | text {check : TextCheck} {v : Value} {s t : String} (hv : v.text? = some s)
    (hs : check s = .ok t) : Kind.Accepts (.text check) v
  | list {kind : Kind} {xs : List Value} (hxs : ∀ x ∈ xs, Kind.Accepts kind x) :
    Kind.Accepts (.list kind) (.list xs)
  /-- The keys are names that the check accepts, and the values are of the kind. -/
  | table {check : TextCheck} {kind : Kind} {es : List (Value × Value)}
    (hkeys : ∀ e ∈ es, ∃ s t, e.1.text? = some s ∧ check s = .ok t)
    (hes : ∀ e ∈ es, Kind.Accepts kind e.2) : Kind.Accepts (.table check kind) (.mapping es)
  /-- A section that is missing: its fields have to do without. -/
  | missing {fields : List Field} (h : ∀ f ∈ fields, Field.Accepts f []) :
    Kind.Accepts (.record fields) .null
  /-- A section that is given: its keys are names of fields. -/
  | given {fields : List Field} {es : List (Value × Value)}
    (hkeys : ∀ e ∈ es, ∃ f ∈ fields, e.1.text? = some f.name)
    (h : ∀ f ∈ fields, Field.Accepts f es) : Kind.Accepts (.record fields) (.mapping es)
  | discarded (v : Value) : Kind.Accepts .discarded v

/-- The entries of a section are in order as far as a field is concerned. -/
inductive Field.Accepts : Field → List (Value × Value) → Prop
  /-- What is dropped does not matter. -/
  | dropped {f : Field} {es : List (Value × Value)} (h : f.kind = .discarded) : Field.Accepts f es
  | given {f : Field} {es : List (Value × Value)} {v : Value} (hv : f.given? es = some v)
    (h : Kind.Accepts f.kind v) : Field.Accepts f es
  /-- A section that is missing is built from its fields. -/
  | built {f : Field} {es : List (Value × Value)} {fields : List Field}
    (hnone : f.given? es = none) (hkind : f.kind = .record fields) (hbuilt : f.fallback.isBuilt)
    (h : Kind.Accepts (.record fields) .null) : Field.Accepts f es
  /-- Something stands in for what is missing. -/
  | replaced {f : Field} {es : List (Value × Value)} (hnone : f.given? es = none)
    (hrequired : f.fallback ≠ .required)
    (hbuilt : ¬ (f.kind.isRecord = true ∧ f.fallback.isBuilt = true)) : Field.Accepts f es
end

section

variable {v : Value} {least greatest : Nat} {choices : List String} {check : TextCheck}

theorem accepts_natural_iff :
    (Kind.natural least greatest).Accepts v ↔ ∃ n, v.natural? = some n ∧ least ≤ n ∧ n ≤ greatest :=
  ⟨fun | .natural hv hleast hgreatest => ⟨_, hv, hleast, hgreatest⟩,
    fun ⟨_, hv, hleast, hgreatest⟩ => .natural hv hleast hgreatest⟩

theorem accepts_oneOf_iff :
    (Kind.oneOf choices).Accepts v ↔ ∃ s, v.text? = some s ∧ s ∈ choices :=
  ⟨fun | .oneOf hv hs => ⟨_, hv, hs⟩, fun ⟨_, hv, hs⟩ => .oneOf hv hs⟩

theorem accepts_asn_iff : Kind.asn.Accepts v ↔ ∃ n, asn? v = some n :=
  ⟨fun | .asn hv => ⟨_, hv⟩, fun ⟨_, hv⟩ => .asn hv⟩

theorem accepts_address_iff : Kind.address.Accepts v ↔ ∃ a, address? v = some a :=
  ⟨fun | .address hv => ⟨_, hv⟩, fun ⟨_, hv⟩ => .address hv⟩

theorem accepts_ipv4_iff : Kind.ipv4.Accepts v ↔ ∃ a, address? v = some a ∧ a.family = .v4 :=
  ⟨fun | .ipv4 hv ha => ⟨_, hv, ha⟩, fun ⟨_, hv, ha⟩ => .ipv4 hv ha⟩

theorem accepts_ipv6_iff : Kind.ipv6.Accepts v ↔ ∃ a, address? v = some a ∧ a.family = .v6 :=
  ⟨fun | .ipv6 hv ha => ⟨_, hv, ha⟩, fun ⟨_, hv, ha⟩ => .ipv6 hv ha⟩

theorem accepts_network_iff : Kind.network.Accepts v ↔ ∃ n, v.text?.bind Network.read = some n :=
  ⟨fun | .network hv => ⟨_, hv⟩, fun ⟨_, hv⟩ => .network hv⟩

theorem accepts_text_iff :
    (Kind.text check).Accepts v ↔ ∃ s t, v.text? = some s ∧ check s = .ok t :=
  ⟨fun | .text hv hs => ⟨_, _, hv, hs⟩, fun ⟨_, _, hv, hs⟩ => .text hv hs⟩

end

section

variable {f : Field} {es : List (Value × Value)} {v : Value}

theorem Field.accepts_of_discarded (h : f.kind.isDiscarded = true) : f.Accepts es := by
  refine .dropped ?_
  unfold Kind.isDiscarded at h
  split at h
  case h_1 hkind => exact hkind
  case h_2 => cases h

theorem Field.accepts_given_iff (hkind : f.kind.isDiscarded = false) (hv : f.given? es = some v) :
    f.Accepts es ↔ f.kind.Accepts v := by
  refine ⟨fun h => ?_, .given hv⟩
  cases h with
  | dropped h => rw [h] at hkind; cases hkind
  | given hw h => exact Option.some.inj (hw.symm.trans hv) ▸ h
  | built hnone | replaced hnone => cases hnone.symm.trans hv

theorem Field.accepts_built_iff (hnone : f.given? es = none)
    (hbuilt : (f.kind.isRecord && f.fallback.isBuilt) = true) :
    f.Accepts es ↔ f.kind.Accepts .null := by
  obtain ⟨hrecord, hfallback⟩ := Bool.and_eq_true_iff.1 hbuilt
  obtain ⟨fields, hkind⟩ : ∃ fields, f.kind = .record fields := by
    unfold Kind.isRecord at hrecord
    split at hrecord
    case h_1 fields hkind => exact ⟨fields, hkind⟩
    case h_2 => cases hrecord
  refine ⟨fun h => ?_, fun h => .built hnone hkind hfallback (hkind ▸ h)⟩
  cases h with
  | dropped h => cases h.symm.trans hkind
  | given hv => cases hnone.symm.trans hv
  | built _ hkind _ h => exact hkind ▸ h
  | replaced _ _ hnot => exact absurd ⟨hrecord, hfallback⟩ hnot

theorem Field.accepts_replaced_iff (hkind : f.kind.isDiscarded = false) (hnone : f.given? es = none)
    (hbuilt : (f.kind.isRecord && f.fallback.isBuilt) = false) :
    f.Accepts es ↔ f.fallback ≠ .required := by
  rw [← Bool.not_eq_true, Bool.and_eq_true_iff] at hbuilt
  refine ⟨fun h => ?_, fun h => .replaced hnone h hbuilt⟩
  cases h with
  | dropped h => rw [h] at hkind; cases hkind
  | given hv => cases hnone.symm.trans hv
  | built _ hrecord hfallback => exact absurd ⟨by rw [hrecord]; rfl, hfallback⟩ hbuilt
  | replaced _ hrequired => exact hrequired

end

/-- A value conforms to the fields of a section. -/
def Conforms (fields : List Field) (v : Value) : Prop := (Kind.record fields).Accepts v

/-! ### Normal forms -/

/-- What stands in for a value that is missing. -/
def Fallback.content (parent : Option Value) (fallback : Fallback) : Value :=
  (fallback.value parent "").1

mutual
/-- The normal form of a value of a kind. -/
def Kind.normal (parent : Option Value) : Kind → Value → Value
  | .boolean, v | .natural _ _, v | .string, v | .oneOf _, v => v
  | .asn, v => ((asn? v).map fun n => Value.nat n.toNat).getD .null
  | .address, v | .ipv4, v | .ipv6, v => ((address? v).map fun a => .string a.text).getD .null
  | .network, v => ((v.text?.bind Network.read).map fun n => .string n.text).getD .null
  | .text check, v => ((v.text?.bind fun s => (check s).toOption).map Value.string).getD .null
  | .list kind, v => .list (v.items.map fun x => kind.normal parent x)
  | .table check kind, v =>
    .mapping (insertAll [] (named (((sectionEntries? v).getD []).filterMap fun e =>
      (tableKey check e.1).toOption.map fun name => (name, kind.normal parent e.2))))
  | .record fields, v =>
    .mapping (insertAll [] (named (normalFields parent fields ((sectionEntries? v).getD []))))
  | .discarded, _ => .null

/-- What the fields of a section hold in its normal form. -/
def normalFields (parent : Option Value) : List Field → List (Value × Value) → List (String × Value)
  | [], _ => []
  | ⟨name, kind, fallback⟩ :: fields, es =>
    if kind.isDiscarded then normalFields parent fields es
    else
      (name, match (Value.lookup? name es).filter (fun v => !v.isNull) with
        | some v => kind.normal parent v
        | none =>
          if kind.isRecord && fallback.isBuilt then kind.normal parent .null
          else fallback.content parent) :: normalFields parent fields es
end

/-- What a field holds in a normal form: its value in normal form, or what stands in for it. -/
def Field.normal (parent : Option Value) (es : List (Value × Value)) (f : Field) : Value :=
  match f.given? es with
  | some v => f.kind.normal parent v
  | none =>
    if f.kind.isRecord && f.fallback.isBuilt then f.kind.normal parent .null
    else f.fallback.content parent

theorem normalFields_eq (parent : Option Value) (fields : List Field) (es : List (Value × Value)) :
    normalFields parent fields es =
      (kept fields).map fun f => (f.name, f.normal parent es) := by
  induction fields with
  | nil => rfl
  | cons f fields ih =>
      obtain ⟨name, kind, fallback⟩ := f
      cases hk : kind.isDiscarded with
      | true => simp [normalFields, hk, ih, kept]
      | false => simp [normalFields, kept, hk, ih, Field.normal, Field.given?]

theorem fallback_fst (parent : Option Value) (fallback : Fallback) (path : String) :
    (fallback.value parent path).1 = fallback.content parent := by
  cases fallback <;> rfl

theorem fallback_snd (parent : Option Value) (fallback : Fallback) (path : String) :
    (fallback.value parent path).2 = [] ↔ fallback ≠ .required := by
  cases fallback <;> simp [Fallback.value, refuse]

/-! ### The walk of a section and of a table -/

theorem walkFields_eq_insertAll (parent : Option Value) (fields : List Field)
    (es : List (Value × Value)) (path : String) (out : List (Value × Value)) :
    walkFields parent fields es path out =
      (insertAll out (named ((kept fields).map fun f => (f.name, (f.walked parent es path).1))),
        (kept fields).flatMap fun f => (f.walked parent es path).2) := by
  induction fields generalizing out with
  | nil => simp [walkFields, kept, insertAll, named]
  | cons f fields ih =>
      rw [walkFields_cons]
      cases hk : f.kind.isDiscarded with
      | true => simp [kept, hk, ih]
      | false => simp [kept, hk, ih, insertAll, named]

/-- **The walk of a section**, whatever the names of its fields. -/
theorem walk_section {parent : Option Value} {fields : List Field} {v : Value} {path : String}
    {es : List (Value × Value)} (hv : sectionEntries? v = some es) :
    (Kind.record fields).walk parent v path =
      (.mapping (insertAll []
          (named ((kept fields).map fun f => (f.name, (f.walked parent es path).1)))),
        keyViolations (fields.map Field.name) path es ++
          (kept fields).flatMap fun f => (f.walked parent es path).2) := by
  unfold sectionEntries? at hv
  split at hv <;> cases hv <;> simp [Kind.walk, walkFields_eq_insertAll, keyViolations]

theorem keyViolations_eq_nil_iff {names : List String} {path : String}
    {es : List (Value × Value)} :
    keyViolations names path es = [] ↔ ∀ e ∈ es, ∃ k ∈ names, e.1.text? = some k := by
  induction es with
  | nil => simp [keyViolations]
  | cons e es ih =>
      obtain ⟨key, v⟩ := e
      rw [List.forall_mem_cons, ← ih, keyViolations]
      cases hkey : key.text? with
      | none => simp
      | some k => by_cases hk : k ∈ names <;> simp [hk]

/-- What walking an entry of a table finds. -/
def entryViolations (parent : Option Value) (check : TextCheck) (kind : Kind) (path : String)
    (e : Value × Value) : List Violation :=
  match tableKey check e.1 with
  | .ok name => (kind.walk parent e.2 (join path name)).2
  | .error cause => [⟨path, cause⟩]

/-- What walking an entry of a table adds. -/
def entryWalked? (parent : Option Value) (check : TextCheck) (kind : Kind) (path : String)
    (e : Value × Value) : Option (String × Value) :=
  (tableKey check e.1).toOption.map fun name => (name, (kind.walk parent e.2 (join path name)).1)

/-- What has been walked of a table, with one more entry. -/
def entryStep (parent : Option Value) (check : TextCheck) (kind : Kind) (path : String)
    (walked : List (Value × Value) × List Violation) (e : Value × Value) :
    List (Value × Value) × List Violation :=
  match tableKey check e.1 with
  | .ok name =>
    (Value.insertEntry walked.1 (.string name) (kind.walk parent e.2 (join path name)).1,
      walked.2 ++ (kind.walk parent e.2 (join path name)).2)
  | .error cause => (walked.1, walked.2 ++ [⟨path, cause⟩])

theorem foldl_entryStep (parent : Option Value) (check : TextCheck) (kind : Kind) (path : String)
    (es : List (Value × Value)) (walked : List (Value × Value) × List Violation) :
    es.foldl (entryStep parent check kind path) walked =
      (insertAll walked.1 (named (es.filterMap (entryWalked? parent check kind path))),
        walked.2 ++ es.flatMap (entryViolations parent check kind path)) := by
  induction es generalizing walked with
  | nil => simp [insertAll, named]
  | cons e es ih =>
      rw [List.foldl_cons, List.filterMap_cons, List.flatMap_cons, ih]
      cases hkey : tableKey check e.1 with
      | ok name =>
          simp [entryStep, entryWalked?, entryViolations, hkey, insertAll, named, Except.toOption]
      | error cause => simp [entryStep, entryWalked?, entryViolations, hkey, Except.toOption]

/-- **The walk of a table.** -/
theorem walk_table (parent : Option Value) (check : TextCheck) (kind : Kind)
    (es : List (Value × Value)) (path : String) :
    (Kind.table check kind).walk parent (.mapping es) path =
      (.mapping (insertAll [] (named (es.filterMap (entryWalked? parent check kind path)))),
        es.flatMap (entryViolations parent check kind path)) := by
  have hfold : (Kind.table check kind).walk parent (.mapping es) path =
      (.mapping (es.foldl (entryStep parent check kind path) ([], [])).1,
        (es.foldl (entryStep parent check kind path) ([], [])).2) := by
    rw [Kind.walk]
    rfl
  rw [hfold, foldl_entryStep, List.nil_append]

/-! ### What the walk finds -/

section

variable {parent : Option Value} {v : Value} {path : String}

theorem walkAddress_clean_iff {wanted : Expectation} {accept : Address → Bool} :
    (walkAddress wanted accept v path).2 = [] ↔ ∃ a, address? v = some a ∧ accept a = true := by
  unfold walkAddress
  cases address? v with
  | none => simp [refuse]
  | some a => cases h : accept a <;> simp [refuse, h]

theorem walkAddress_fst {wanted : Expectation} {accept : Address → Bool}
    (h : (walkAddress wanted accept v path).2 = []) :
    (walkAddress wanted accept v path).1 =
      ((address? v).map fun a => .string a.text).getD .null := by
  obtain ⟨a, ha, haccept⟩ := walkAddress_clean_iff.1 h
  simp [walkAddress, ha, haccept]

/-- The walk of a single value finds nothing in what is of the kind, and only there. -/
theorem walk_single_clean_iff {k : Kind} (hk : k.isSingle = true) :
    (k.walk parent v path).2 = [] ↔ k.Accepts v := by
  cases k with
  | list | record | table => cases hk
  | boolean =>
      refine ⟨fun h => ?_, fun h => by cases h; rfl⟩
      cases v <;> first | exact .boolean _ | cases h
  | string =>
      refine ⟨fun h => ?_, fun h => by cases h; rfl⟩
      cases v <;> first | exact .string _ | cases h
  | discarded => exact iff_of_true rfl (.discarded v)
  | natural least greatest =>
      rw [accepts_natural_iff, Kind.walk]
      cases v.natural? with
      | none => simp [refuse]
      | some n => by_cases h : least ≤ n ∧ n ≤ greatest <;> simp [h, refuse]
  | oneOf choices =>
      rw [accepts_oneOf_iff, Kind.walk]
      cases v.text? with
      | none => simp [refuse]
      | some s => by_cases h : s ∈ choices <;> simp [h, refuse]
  | asn =>
      rw [accepts_asn_iff, Kind.walk]
      cases asn? v <;> simp [refuse]
  | address =>
      rw [accepts_address_iff, Kind.walk, walkAddress_clean_iff]
      simp
  | ipv4 =>
      rw [accepts_ipv4_iff, Kind.walk, walkAddress_clean_iff]
      simp
  | ipv6 =>
      rw [accepts_ipv6_iff, Kind.walk, walkAddress_clean_iff]
      simp
  | network =>
      rw [accepts_network_iff, Kind.walk]
      cases v.text?.bind Network.read <;> simp [refuse]
  | text check =>
      rw [accepts_text_iff, Kind.walk]
      cases v.text? with
      | none => simp [refuse]
      | some s => cases h : check s <;> simp [h, refuse]

/-- A single value of the kind is given its normal form. -/
theorem walk_single_fst {k : Kind} (hk : k.isSingle = true) (h : (k.walk parent v path).2 = []) :
    (k.walk parent v path).1 = k.normal parent v := by
  cases k with
  | list | record | table => cases hk
  | boolean => cases v <;> first | rfl | cases h
  | string => cases v <;> first | rfl | cases h
  | discarded => rfl
  | natural least greatest =>
      rw [Kind.walk] at h ⊢
      cases hv : v.natural? with
      | none => simp [hv, refuse] at h
      | some n => by_cases hn : least ≤ n ∧ n ≤ greatest <;> simp_all [Kind.normal, refuse]
  | oneOf choices =>
      rw [Kind.walk] at h ⊢
      cases hv : v.text? with
      | none => simp [hv, refuse] at h
      | some s => by_cases hs : s ∈ choices <;> simp_all [Kind.normal, refuse]
  | asn =>
      rw [Kind.walk] at h ⊢
      cases hv : asn? v <;> simp_all [Kind.normal, refuse]
  | address | ipv4 | ipv6 =>
      rw [Kind.walk] at h ⊢
      rw [walkAddress_fst h, Kind.normal]
  | network =>
      rw [Kind.walk] at h ⊢
      cases hv : v.text?.bind Network.read <;> simp_all [Kind.normal, refuse]
  | text check =>
      rw [Kind.walk] at h ⊢
      cases hv : v.text? with
      | none => simp [hv, refuse] at h
      | some s => cases hs : check s <;> simp_all [Kind.normal, refuse, Except.toOption]

end

section

variable {parent : Option Value} {f : Field} {es : List (Value × Value)} {path : String}

/-- The walk of a field finds nothing where the entries are in order for it. -/
theorem walked_clean_iff (hkind : f.kind.isDiscarded = false)
    (ih : ∀ v path, (f.kind.walk parent v path).2 = [] ↔ f.kind.Accepts v) :
    (f.walked parent es path).2 = [] ↔ f.Accepts es := by
  unfold Field.walked Field.fill
  cases hgiven : f.given? es with
  | some v => exact (ih v _).trans (Field.accepts_given_iff hkind hgiven).symm
  | none =>
      cases hbuilt : f.kind.isRecord && f.fallback.isBuilt with
      | true => exact (ih .null _).trans (Field.accepts_built_iff hgiven hbuilt).symm
      | false =>
          exact (fallback_snd parent f.fallback _).trans
            (Field.accepts_replaced_iff hkind hgiven hbuilt).symm

theorem walked_fst (ih : ∀ v path, (f.kind.walk parent v path).2 = [] →
      (f.kind.walk parent v path).1 = f.kind.normal parent v)
    (h : (f.walked parent es path).2 = []) :
    (f.walked parent es path).1 = f.normal parent es := by
  unfold Field.walked Field.fill at h ⊢
  unfold Field.normal
  cases hgiven : f.given? es with
  | some v =>
      rw [hgiven] at h
      exact ih v _ h
  | none =>
      rw [hgiven] at h
      cases hbuilt : f.kind.isRecord && f.fallback.isBuilt with
      | true => exact ih .null _ (by simpa [hbuilt] using h)
      | false => exact fallback_fst parent f.fallback _

end

theorem tableKey_eq_ok_iff {check : TextCheck} {key : Value} {name : String} :
    tableKey check key = .ok name ↔ ∃ s, key.text? = some s ∧ check s = .ok name := by
  unfold tableKey
  cases key.text? with
  | none => simp
  | some s => cases h : check s <;> simp [h, Except.mapError]

/-- The walk of a table finds nothing in an entry with a name for its key and a value of the
kind. -/
theorem entryViolations_eq_nil_iff {parent : Option Value} {check : TextCheck} {kind : Kind}
    {path : String} {e : Value × Value}
    (ih : ∀ v path, (kind.walk parent v path).2 = [] ↔ kind.Accepts v) :
    entryViolations parent check kind path e = [] ↔
      (∃ s t, e.1.text? = some s ∧ check s = .ok t) ∧ kind.Accepts e.2 := by
  have hkey : (∃ s t, e.1.text? = some s ∧ check s = .ok t) ↔ ∃ t, tableKey check e.1 = .ok t := by
    simp only [tableKey_eq_ok_iff]
    exact exists_comm
  rw [hkey, entryViolations]
  cases tableKey check e.1 with
  | ok name => simp [ih]
  | error cause => simp

theorem accepts_table_iff {check : TextCheck} {kind : Kind} {es : List (Value × Value)} :
    (Kind.table check kind).Accepts (.mapping es) ↔
      ∀ e ∈ es, (∃ s t, e.1.text? = some s ∧ check s = .ok t) ∧ kind.Accepts e.2 := by
  refine ⟨fun h => ?_, fun h => .table (fun e he => (h e he).1) fun e he => (h e he).2⟩
  cases h with
  | table hkeys hes => exact fun e he => ⟨hkeys e he, hes e he⟩

theorem conforms_iff {fields : List Field} {v : Value} {es : List (Value × Value)}
    (hv : sectionEntries? v = some es) :
    Conforms fields v ↔ (∀ e ∈ es, ∃ f ∈ fields, e.1.text? = some f.name) ∧
      ∀ f ∈ fields, f.Accepts es := by
  unfold sectionEntries? at hv
  split at hv
  case h_1 =>
      cases hv
      refine ⟨fun h => ?_, fun ⟨hkeys, h⟩ => .given hkeys h⟩
      cases h with
      | given hkeys h => exact ⟨hkeys, h⟩
  case h_2 =>
      cases hv
      refine ⟨fun h => ?_, fun ⟨_, h⟩ => .missing h⟩
      cases h with
      | missing h => exact ⟨fun e he => absurd he List.not_mem_nil, h⟩
  case h_3 => cases hv

theorem not_conforms {fields : List Field} {v : Value} (hv : sectionEntries? v = none) :
    ¬ Conforms fields v := by
  rintro ⟨⟩ <;> cases hv

theorem accepts_list_iff {kind : Kind} {xs : List Value} :
    (Kind.list kind).Accepts (.list xs) ↔ ∀ x ∈ xs, kind.Accepts x := by
  refine ⟨fun h => ?_, .list⟩
  cases h with
  | list hxs => exact hxs

/-- The walk of a list finds what it finds in the items. -/
theorem walk_list_clean_iff {parent : Option Value} {kind : Kind} {xs : List Value}
    {path : String} :
    ((Kind.list kind).walk parent (.list xs) path).2 = [] ↔
      ∀ i (hi : i < xs.length), (kind.walk parent xs[i] (item path i)).2 = [] := by
  simp only [Kind.walk, List.flatMap_eq_nil_iff, List.mem_mapIdx]
  constructor
  · exact fun h i hi => h _ ⟨i, hi, rfl⟩
  · rintro h _ ⟨i, hi, rfl⟩
    exact h i hi

/-- **The walk finds nothing** in the values of a kind, and only there. -/
theorem walk_clean_iff (parent : Option Value) (k : Kind) :
    ∀ v path, (k.walk parent v path).2 = [] ↔ k.Accepts v := by
  induction k using Kind.induction with
  | single k hk => exact fun v path => walk_single_clean_iff hk
  | list kind ih =>
      intro v path
      cases v with
      | list xs =>
          rw [walk_list_clean_iff, accepts_list_iff, List.forall_mem_iff_forall_getElem]
          exact forall_congr' fun i => forall_congr' fun hi => ih _ _
      | _ => exact iff_of_false (by simp [Kind.walk, refuse]) (by rintro ⟨⟩)
  | record fields ih =>
      intro v path
      cases hv : sectionEntries? v with
      | none =>
          rw [walk_record_of_none hv]
          exact iff_of_false (by simp [refuse]) (not_conforms hv)
      | some es =>
          rw [walk_section hv, List.append_eq_nil_iff, keyViolations_eq_nil_iff,
            List.flatMap_eq_nil_iff]
          refine (and_congr ?_ ?_).trans (conforms_iff hv).symm
          · simp only [List.mem_map, exists_exists_and_eq_and]
          · -- a field that is not kept is in order whatever the entries
            constructor
            · intro h f hf
              cases hkind : f.kind.isDiscarded with
              | true => exact Field.accepts_of_discarded hkind
              | false =>
                  have hkept : f ∈ kept fields := List.mem_filter.2 ⟨hf, by simp [hkind]⟩
                  exact (walked_clean_iff hkind (ih f hf)).1 (h f hkept)
            · intro h f hkept
              obtain ⟨hf, hkind⟩ := List.mem_filter.1 hkept
              exact (walked_clean_iff (by simpa using hkind) (ih f hf)).2 (h f hf)
  | table check kind ih =>
      intro v path
      cases v with
      | mapping es =>
          rw [walk_table, List.flatMap_eq_nil_iff, accepts_table_iff]
          exact forall_congr' fun e => forall_congr' fun _ => entryViolations_eq_nil_iff ih
      | _ => exact iff_of_false (by simp [Kind.walk, refuse]) (by rintro ⟨⟩)

/-- **What the walk gives** for a value of a kind is its normal form. -/
theorem walk_fst (parent : Option Value) (k : Kind) :
    ∀ v path, (k.walk parent v path).2 = [] → (k.walk parent v path).1 = k.normal parent v := by
  induction k using Kind.induction with
  | single k hk => exact fun v path h => walk_single_fst hk h
  | list kind ih =>
      intro v path h
      cases v with
      | list xs =>
          have hitems := walk_list_clean_iff.1 h
          simp only [Kind.walk, Kind.normal, Value.items, Value.untagged, Value.list.injEq]
          refine List.ext_getElem (by simp) fun i hi _ => ?_
          simp only [List.getElem_map, List.getElem_mapIdx]
          exact ih _ _ (hitems i (by simpa using hi))
      | _ => simp [Kind.walk, refuse] at h
  | record fields ih =>
      intro v path h
      cases hv : sectionEntries? v with
      | none =>
          rw [walk_record_of_none hv] at h
          cases h
      | some es =>
          rw [walk_section hv] at h ⊢
          have hfields := List.flatMap_eq_nil_iff.1 (List.append_eq_nil_iff.1 h).2
          have hsame : (kept fields).map (fun f => (f.name, (f.walked parent es path).1)) =
              (kept fields).map fun f => (f.name, f.normal parent es) :=
            List.map_congr_left fun f hf => by
              rw [walked_fst (ih f (List.mem_filter.1 hf).1) (hfields f hf)]
          simp only [Kind.normal, hv, Option.getD_some, normalFields_eq, hsame]
  | table check kind ih =>
      intro v path h
      cases v with
      | mapping es =>
          rw [walk_table] at h ⊢
          have hsame : es.filterMap (entryWalked? parent check kind path) =
              es.filterMap fun e =>
                (tableKey check e.1).toOption.map fun name => (name, kind.normal parent e.2) := by
            refine List.filterMap_congr fun e he => ?_
            have hentry := List.flatMap_eq_nil_iff.1 h e he
            unfold entryViolations at hentry
            unfold entryWalked?
            cases hkey : tableKey check e.1 with
            | error cause => rfl
            | ok name =>
                rw [hkey] at hentry
                simp [Except.toOption, ih _ _ hentry]
          simp only [Kind.normal, sectionEntries?, Option.getD_some, hsame]
      | _ => simp [Kind.walk, refuse] at h

/-! ### Normal forms of sections -/

section

variable {parent : Option Value} {fields : List Field} {v : Value} {es : List (Value × Value)}

theorem exists_sectionEntries (h : (Kind.record fields).Accepts v) :
    ∃ es, sectionEntries? v = some es ∧ ∀ f ∈ fields, f.Accepts es := by
  cases h with
  | missing h => exact ⟨[], rfl, h⟩
  | given _ h => exact ⟨_, rfl, h⟩

theorem nodup_normals (hnames : (fields.map Field.name).Nodup) :
    (((kept fields).map fun f => (f.name, f.normal parent es)).map (·.1)).Nodup := by
  rw [List.map_map]
  exact nodup_kept hnames

/-- The normal form of a section whose fields have names of their own. -/
theorem normal_record (hnames : (fields.map Field.name).Nodup) (hv : sectionEntries? v = some es) :
    (Kind.record fields).normal parent v =
      .mapping (named ((kept fields).map fun f => (f.name, f.normal parent es))) := by
  rw [Kind.normal, hv, Option.getD_some, normalFields_eq,
    insertAll_of_nodup (nodup_normals hnames) (by simp)]
  rfl

/-- What stands under the name of a field in a normal form. -/
theorem getD_normal (hnames : (fields.map Field.name).Nodup) (hv : sectionEntries? v = some es)
    {f : Field} (hf : f ∈ kept fields) :
    ((Kind.record fields).normal parent v).getD f.name = f.normal parent es := by
  rw [normal_record hnames hv]
  exact getD_named (nodup_normals hnames)
    (List.mem_map_of_mem (f := fun f => (f.name, f.normal parent es)) hf)

theorem normal_ofParts (parent : Option Value) (es : List (Value × Value)) (name : String)
    (inner : List Field) :
    (Field.ofParts name inner).normal parent es =
      (Kind.record inner).normal parent (((Field.ofParts name inner).given? es).getD .null) := by
  unfold Field.normal
  cases (Field.ofParts name inner).given? es <;> rfl

/-- A field that is built from its fields when it is missing is in order in either case. -/
theorem accepts_ofParts {name : String} {inner : List Field}
    (h : (Field.ofParts name inner).Accepts es) :
    (Kind.record inner).Accepts (((Field.ofParts name inner).given? es).getD .null) := by
  cases hgiven : (Field.ofParts name inner).given? es with
  | some v => exact (Field.accepts_given_iff rfl hgiven).1 h
  | none => exact (Field.accepts_built_iff hgiven rfl).1 h

/-- A required field is given, and in order. -/
theorem given_of_accepts {f : Field} (hkept : f.kind.isDiscarded = false)
    (hrequired : f.fallback = .required) (h : f.Accepts es) :
    ∃ w, f.given? es = some w ∧ f.kind.Accepts w := by
  cases hgiven : f.given? es with
  | some w => exact ⟨w, rfl, (Field.accepts_given_iff hkept hgiven).1 h⟩
  | none =>
      have hbuilt : (f.kind.isRecord && f.fallback.isBuilt) = false := by
        simp [hrequired, Fallback.isBuilt]
      exact absurd hrequired ((Field.accepts_replaced_iff hkept hgiven hbuilt).1 h)

end

section

variable {fields : List Field} {name : String} {kind : Kind} {v : Value} {es : List (Value × Value)}
  {f : Field}

theorem getD_of_sectionEntries (hv : sectionEntries? v = some es) (name : String) :
    v.getD name = (Value.lookup? name es).getD .null := by
  unfold sectionEntries? at hv
  split at hv <;> cases hv <;> rfl

theorem getD_of_given (hv : sectionEntries? v = some es) {w : Value} (hw : f.given? es = some w) :
    v.getD f.name = w := by
  obtain ⟨hlookup, -⟩ := Option.filter_eq_some_iff.1 hw
  rw [getD_of_sectionEntries hv, hlookup, Option.getD_some]

theorem isNull_of_not_given (hv : sectionEntries? v = some es) (hnone : f.given? es = none) :
    (v.getD f.name).isNull = true := by
  rw [getD_of_sectionEntries hv]
  cases hlookup : Value.lookup? f.name es with
  | none => rfl
  | some w =>
      have hnot := Option.filter_eq_none_iff.1 hnone w hlookup
      simpa using hnot

/-- What stands under the name of a field of a section in order, unless the field is a section, too:
a value of its kind, which has its normal form there, or null, and what stands in for it. -/
theorem getD_of_accepts (parent : Option Value) (hnames : (fields.map Field.name).Nodup)
    (hf : f ∈ kept fields) (hrecord : f.kind.isRecord = false) (h : (Kind.record fields).Accepts v) :
    (f.kind.Accepts (v.getD f.name) ∧
      ((Kind.record fields).normal parent v).getD f.name = f.kind.normal parent (v.getD f.name)) ∨
    ((v.getD f.name).isNull = true ∧ f.fallback ≠ .required ∧
      ((Kind.record fields).normal parent v).getD f.name = f.fallback.content parent) := by
  obtain ⟨es, hes, haccepts⟩ := exists_sectionEntries h
  obtain ⟨hmem, hkept⟩ := List.mem_filter.1 hf
  replace hkept : f.kind.isDiscarded = false := by simpa using hkept
  rw [getD_normal hnames hes hf, Field.normal]
  cases hgiven : f.given? es with
  | some w =>
      obtain rfl : v.getD f.name = w := getD_of_given hes hgiven
      exact .inl ⟨(Field.accepts_given_iff hkept hgiven).1 (haccepts f hmem), rfl⟩
  | none =>
      have hbuilt : (f.kind.isRecord && f.fallback.isBuilt) = false := by rw [hrecord, Bool.false_and]
      have hrequired := (Field.accepts_replaced_iff hkept hgiven hbuilt).1 (haccepts f hmem)
      exact .inr ⟨isNull_of_not_given hes hgiven, hrequired, by rw [if_neg (by simp [hbuilt])]⟩

theorem getD_of_required (parent : Option Value) (hnames : (fields.map Field.name).Nodup)
    (hf : ⟨name, kind, .required⟩ ∈ kept fields) (hrecord : kind.isRecord = false)
    (h : (Kind.record fields).Accepts v) :
    kind.Accepts (v.getD name) ∧
      ((Kind.record fields).normal parent v).getD name = kind.normal parent (v.getD name) :=
  (getD_of_accepts parent hnames hf hrecord h).resolve_right fun hnull => hnull.2.1 rfl

/-- A list in a section in order: its items are of its kind, and stand in normal form in its place.
One that may be left out is empty then. -/
theorem items_of_accepts (parent : Option Value) (hnames : (fields.map Field.name).Nodup)
    {fallback : Fallback} (hfallback : fallback = .required ∨ fallback = .emptyList)
    (hf : ⟨name, .list kind, fallback⟩ ∈ kept fields) (h : (Kind.record fields).Accepts v) :
    (∀ x ∈ (v.getD name).items, kind.Accepts x) ∧
      ((Kind.record fields).normal parent v).getD name =
        .list ((v.getD name).items.map (kind.normal parent)) := by
  rcases getD_of_accepts parent hnames hf rfl h with
    ⟨hlist, hvalue⟩ | ⟨hnull, hrequired, hvalue⟩
  · refine ⟨fun x hx => ?_, hvalue⟩
    simp only at hlist
    generalize v.getD name = w at hx hlist
    cases hlist with
    | list hxs => exact hxs x hx
  · obtain rfl := hfallback.resolve_left hrequired
    rw [hvalue, items_of_isNull hnull]
    exact ⟨nofun, rfl⟩

end

/-- **Sections.**  The walk of a section finds nothing exactly in what conforms to its fields.  It
then gives a mapping with an entry for each of the fields that are kept, in the order of the schema,
which holds the given value in normal form or what stands in for it; fields of one name share an
entry, in the place of the first of them and with the value of the last. -/
theorem walk_clean_iff_conforms (parent : Option Value) (fields : List Field) (v : Value)
    (path : String) :
    ((walk parent fields v path).2 = [] ↔ Conforms fields v) ∧
      (Conforms fields v → ∃ es, sectionEntries? v = some es ∧
        (walk parent fields v path).1 = .mapping (insertAll []
          (named ((kept fields).map fun f => (f.name, f.normal parent es)))) ∧
        ((fields.map Field.name).Nodup → (walk parent fields v path).1 =
          .mapping (named ((kept fields).map fun f => (f.name, f.normal parent es))))) := by
  have hclean := walk_clean_iff parent (.record fields) v path
  refine ⟨hclean, fun h => ?_⟩
  cases hv : sectionEntries? v with
  | none => exact absurd h (not_conforms hv)
  | some es =>
      have hnormal := walk_fst parent (.record fields) v path (hclean.2 h)
      refine ⟨es, rfl, ?_, fun hnames => hnormal.trans (normal_record hnames hv)⟩
      rw [Kind.normal, hv, Option.getD_some, normalFields_eq] at hnormal
      exact hnormal

/-- A schema with a section that may be missing, but for a name in it. -/
def portFields : List Field :=
  [⟨"port", .natural 1 65535, .natural 179⟩, .ofParts "peer" [⟨"name", .string, .required⟩],
   ⟨"comment", .discarded, .null⟩]

/-- A value that conforms to it: the port is left to its fallback, and the comment is dropped. -/
def portless : List (Value × Value) :=
  [(.string "comment", .nat 5), (.string "peer", .ofFields [("name", .string "b")])]

theorem walk_clean_iff_conforms_portless :
    Conforms portFields (.mapping portless) ∧
      (walk none portFields (.mapping portless) "").1 = .mapping (named ((kept portFields).map
        fun f => (f.name, f.normal none portless))) ∧
      (walk none portFields .null "").2 ≠ [] ∧ ¬ Conforms portFields .null := by
  have hclean : (walk none portFields (.mapping portless) "").2 = [] :=
    List.isEmpty_iff.1 (by decide +kernel)
  have hmissing : (walk none portFields .null "").2 ≠ [] :=
    mt List.isEmpty_iff.2 (by decide +kernel)
  have hconforms := (walk_clean_iff_conforms none portFields (.mapping portless) "").1.1 hclean
  obtain ⟨es, hes, -, hkept⟩ :=
    (walk_clean_iff_conforms none portFields (.mapping portless) "").2 hconforms
  obtain rfl : portless = es := Option.some.inj hes
  exact ⟨hconforms, hkept (by decide), hmissing,
    mt (walk_clean_iff_conforms none portFields .null "").1.2 hmissing⟩

/-- The walk passes over a required field that is dropped and over the fields of a missing section
that null stands in for; and it gives two fields of one name a single entry. -/
theorem not_always_required :
    (¬ ∀ (fields : List Field) (es : List (Value × Value)) (path : String),
      (walk none fields (.mapping es) path).2 = [] →
        ∀ f ∈ fields, f.fallback = .required → (f.given? es).isSome) ∧
    (¬ ∀ (fields inner : List Field) (name path : String) (fallback : Fallback),
      ⟨name, .record inner, fallback⟩ ∈ fields →
        (walk none fields (.mapping []) path).2 = [] → ∀ f ∈ inner, f.fallback ≠ .required) ∧
    ¬ ∀ (fields : List Field) (es : List (Value × Value)) (path : String),
      (walk none fields (.mapping es) path).2 = [] →
        ∃ out, (walk none fields (.mapping es) path).1 = .mapping out ∧
          out.length = (kept fields).length := by
  refine ⟨fun h => ?_, fun h => ?_, fun h => ?_⟩
  · have hgiven := h [⟨"x", .discarded, .required⟩] [] "" (List.isEmpty_iff.1 (by decide +kernel))
      _ List.mem_cons_self rfl
    cases hgiven
  · exact h [⟨"inner", .record [⟨"name", .string, .required⟩], .null⟩]
      [⟨"name", .string, .required⟩] "inner" "" .null List.mem_cons_self
      (List.isEmpty_iff.1 (by decide +kernel)) _ List.mem_cons_self rfl
  · obtain ⟨out, hout, hlength⟩ := h [⟨"x", .boolean, .null⟩, ⟨"x", .boolean, .null⟩] [] ""
      (List.isEmpty_iff.1 (by decide +kernel))
    cases hout
    revert hlength
    decide +kernel

end RouteServer.Schema

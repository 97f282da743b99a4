import Mathlib.Data.List.Nodup
import RouteServer.Proofs.Schema.Conforms

/-!
# Schema — what a schema ignores

A change to documents is a function on values.  A kind ignores a change (`Kind.Ignores`) when the
walk cannot tell a value from what the change makes of it: the normal form is the same, and so are
the violations.  The walk then says the same about any two values of which the change makes one
(`Kind.Ignores.walk_congr`), and the change is a way to say in what they may differ.

What a section ignores comes from its fields: the entries under the names of fields that are dropped
(`ignores_without`), and changes below the name of a field that ignores them
(`ignores_under`).  This holds of all values, those that are refused included.
-/

namespace RouteServer.Yaml.Value

/-- The value with other entries in its mapping, whatever its tag. -/
def mapEntries (f : List (Value × Value) → List (Value × Value)) : Value → Value
  | .mapping es => .mapping (f es)
  | .tagged tag v => .tagged tag (v.mapEntries f)
  | v => v

/-- The entries but for those under some names. -/
def entriesWithout (names : List String) (es : List (Value × Value)) : List (Value × Value) :=
  es.filter fun e => !e.1.text?.any (· ∈ names)

/-- The entries with the values changed that stand under a name which `p` picks. -/
def entriesUnder (p : String → Bool) (f : Value → Value) (es : List (Value × Value)) :
    List (Value × Value) :=
  es.map fun e => (e.1, if e.1.text?.any p then f e.2 else e.2)

/-- A mapping without what stands under some names. -/
def without (names : List String) : Value → Value := mapEntries (entriesWithout names)

/-- A mapping with a change to what stands under the names that `p` picks. -/
def under (p : String → Bool) (f : Value → Value) : Value → Value := mapEntries (entriesUnder p f)

theorem isNull_mapEntries (f : List (Value × Value) → List (Value × Value)) :
    ∀ v : Value, (v.mapEntries f).isNull = v.isNull
  | .tagged _ v => isNull_mapEntries f v
  | .mapping _ | .null | .bool _ | .number _ | .string _ | .list _ => rfl

theorem lookup?_entriesWithout {names : List String} {name : String} (h : name ∉ names)
    (es : List (Value × Value)) : lookup? name (entriesWithout names es) = lookup? name es := by
  have hkept : ∀ e : Value × Value,
      decide ((!e.1.text?.any (· ∈ names)) = true ∧ e.1.isName name = true) =
        e.1.isName name := by
    intro e
    cases hname : e.1.isName name with
    | false => simp
    | true => simp [Schema.isName_iff.1 hname, text?, untagged, h]
  simp only [lookup?, entriesWithout, List.find?_filter, hkept]

theorem lookup?_entriesUnder (p : String → Bool) (f : Value → Value) (name : String)
    (es : List (Value × Value)) :
    lookup? name (entriesUnder p f es) =
      if p name then (lookup? name es).map f else lookup? name es := by
  induction es with
  | nil => simp [entriesUnder, lookup?]
  | cons e es ih =>
      rw [entriesUnder, List.map_cons, ← entriesUnder, Schema.lookup?_cons, Schema.lookup?_cons, ih]
      cases hname : e.1.isName name with
      | false => rfl
      | true =>
          have htext : e.1.text? = some name := by rw [Schema.isName_iff.1 hname]; rfl
          rw [htext, Option.any_some]
          cases p name <;> rfl

end RouteServer.Yaml.Value

namespace RouteServer.Schema

open RouteServer.Yaml

/-! ### Keys -/

theorem keyViolations_entriesWithout {dropped names : List String} (h : dropped ⊆ names)
    (path : String) (es : List (Value × Value)) :
    keyViolations names path (Value.entriesWithout dropped es) = keyViolations names path es := by
  induction es with
  | nil => rfl
  | cons e es ih =>
      rw [Value.entriesWithout, List.filter_cons, ← Value.entriesWithout]
      split
      case isTrue => simp only [keyViolations, ih]
      case isFalse hdropped =>
          obtain ⟨k, hk, hmem⟩ : ∃ k, e.1.text? = some k ∧ k ∈ dropped := by
            simpa [Option.any_eq_true] using hdropped
          rw [ih, keyViolations, hk]
          simp [h hmem]

theorem keyViolations_entriesUnder (p : String → Bool) (f : Value → Value) (names : List String)
    (path : String) (es : List (Value × Value)) :
    keyViolations names path (Value.entriesUnder p f es) = keyViolations names path es := by
  induction es with
  | nil => rfl
  | cons e es ih =>
      rw [Value.entriesUnder, List.map_cons, ← Value.entriesUnder]
      simp only [keyViolations, ih]

/-! ### What a kind ignores -/

/-- The walk of a kind does not see a change, nor does whoever asks for null. -/
structure Kind.Ignores (k : Kind) (f : Value → Value) : Prop where
  walk_eq : ∀ parent v path, k.walk parent (f v) path = k.walk parent v path
  isNull_eq : ∀ v, (f v).isNull = v.isNull

/-- Values that differ in what is ignored only are walked alike. -/
theorem Kind.Ignores.walk_congr {k : Kind} {f : Value → Value} (h : k.Ignores f) {v w : Value}
    (hvw : f v = f w) (parent : Option Value) (path : String) :
    k.walk parent v path = k.walk parent w path := by
  rw [← h.walk_eq, hvw, h.walk_eq]

section

variable {fields : List Field} {f : Value → Value}

/-- Sections are walked alike when their keys and their fields are. -/
theorem walk_record_congr {parent : Option Value} {path : String} {v w : Value}
    {es fs : List (Value × Value)} (hv : sectionEntries? v = some es)
    (hw : sectionEntries? w = some fs)
    (hkeys : keyViolations (fields.map Field.name) path es =
      keyViolations (fields.map Field.name) path fs)
    (hfields : ∀ g ∈ kept fields, g.walked parent es path = g.walked parent fs path) :
    (Kind.record fields).walk parent v path = (Kind.record fields).walk parent w path := by
  have hvalues : (kept fields).map (fun g => (g.name, (g.walked parent es path).1)) =
      (kept fields).map fun g => (g.name, (g.walked parent fs path).1) :=
    List.map_congr_left fun g hg => by rw [hfields g hg]
  have hviolations : (kept fields).flatMap (fun g => (g.walked parent es path).2) =
      (kept fields).flatMap fun g => (g.walked parent fs path).2 :=
    List.flatMap_congr fun g hg => congrArg Prod.snd (hfields g hg)
  rw [walk_section hv, walk_section hw, hkeys, hvalues, hviolations]

/-- A section ignores a change to its entries that neither its keys nor its fields show. -/
theorem ignores_mapEntries {change : List (Value × Value) → List (Value × Value)}
    (hkeys : ∀ path es, keyViolations (fields.map Field.name) path (change es) =
      keyViolations (fields.map Field.name) path es)
    (hfields : ∀ parent es path, ∀ g ∈ kept fields,
      g.walked parent (change es) path = g.walked parent es path) :
    (Kind.record fields).Ignores (Value.mapEntries change) where
  walk_eq parent v path := by
    cases v with
    | mapping es => exact walk_record_congr rfl rfl (hkeys path es) (hfields parent es path)
    | _ => rfl
  isNull_eq := Value.isNull_mapEntries change

/-- **What is dropped.**  A section ignores what stands under names of fields that it drops. -/
theorem ignores_without {names : List String} (hnames : names ⊆ fields.map Field.name)
    (hdropped : ∀ g ∈ kept fields, g.name ∉ names) :
    (Kind.record fields).Ignores (Value.without names) := by
  refine ignores_mapEntries (keyViolations_entriesWithout hnames) fun parent es path g hg => ?_
  unfold Field.walked Field.given?
  rw [Value.lookup?_entriesWithout (hdropped g hg)]

/-- What is filled in for a field does not show a change that the field ignores. -/
theorem Kind.Ignores.fill_eq {g : Field} (h : g.kind.Ignores f) (parent : Option Value)
    (given : Option Value) (path : String) :
    g.fill parent (given.map f) path = g.fill parent given path := by
  cases given with
  | none => rfl
  | some v => exact h.walk_eq parent v path

/-- **What lies deeper.**  A section ignores a change to what stands under some names if each field
with such a name does. -/
theorem ignores_under {p : String → Bool} (hnull : ∀ v, (f v).isNull = v.isNull)
    (h : ∀ g ∈ kept fields, p g.name → g.kind.Ignores f) :
    (Kind.record fields).Ignores (Value.under p f) := by
  refine ignores_mapEntries (keyViolations_entriesUnder p f _) fun parent es path g hg => ?_
  unfold Field.walked Field.given?
  rw [Value.lookup?_entriesUnder]
  split
  case isTrue hp =>
      -- what is null counts as missing, and it is null before the change or after it alike
      have hnot : (fun v : Value => !v.isNull) ∘ f = fun v => !v.isNull := by
        funext v
        simp only [Function.comp_apply, hnull]
      rw [Option.filter_map, hnot, (h g hg hp).fill_eq]
  case isFalse => rfl

theorem eq_of_name_eq (hnames : (fields.map Field.name).Nodup) {g g' : Field} (hg : g ∈ fields)
    (hg' : g' ∈ fields) (h : g.name = g'.name) : g = g' :=
  List.inj_on_of_nodup_map hnames hg hg' h

/-- A change below a field that ignores it is ignored by the section. -/
theorem ignores_under_field (hnames : (fields.map Field.name).Nodup) {g : Field} (hg : g ∈ fields)
    (h : g.kind.Ignores f) : (Kind.record fields).Ignores (Value.under (· = g.name) f) := by
  refine ignores_under h.isNull_eq fun g' hg' hname => ?_
  rw [eq_of_name_eq hnames (List.mem_filter.1 hg').1 hg (of_decide_eq_true hname)]
  exact h

end

end RouteServer.Schema

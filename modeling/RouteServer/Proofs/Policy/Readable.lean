import RouteServer.Proofs.Net.Address
import RouteServer.Proofs.Policy.Decoded
import RouteServer.Proofs.Schema.Conforms

/-!
# Policy — what can be read of a normal form

A document is described twice, by its schema and by the readers that take its normal form apart.  A
property of normal forms suits a kind (`Kind.Suits`) when it holds of the normal forms of all values
of the kind, but for those with a choice that carries a tag (`Kind.TagsChoice`): the walk sees
through the tag and keeps it, and no choice is read from what has one.

That a reader succeeds is such a property.  It suits a list, a section or a table when the readers
in it suit what is in there, so that a reader is compared with a schema one field at a time.
-/

namespace RouteServer.Schema

open RouteServer.Yaml

/-! ### Choices with a tag -/

/-- A choice that is given carries a tag. -/
inductive Kind.TagsChoice : Kind → Value → Prop
  | here {choices : List String} {tag : String} {v : Value} :
    Kind.TagsChoice (.oneOf choices) (.tagged tag v)
  | item {kind : Kind} {xs : List Value} {x : Value} (hx : x ∈ xs) (h : Kind.TagsChoice kind x) :
    Kind.TagsChoice (.list kind) (.list xs)
  | field {fields : List Field} {v w : Value} {es : List (Value × Value)} {f : Field}
    (hv : sectionEntries? v = some es) (hf : f ∈ fields) (hw : f.given? es = some w)
    (h : Kind.TagsChoice f.kind w) : Kind.TagsChoice (.record fields) v
  | entry {check : TextCheck} {kind : Kind} {es : List (Value × Value)} {e : Value × Value}
    (he : e ∈ es) (h : Kind.TagsChoice kind e.2) : Kind.TagsChoice (.table check kind) (.mapping es)

/-- What is given for a field has a choice that carries a tag. -/
def Field.TagsChoice (f : Field) (es : List (Value × Value)) : Prop :=
  ∃ w, f.given? es = some w ∧ f.kind.TagsChoice w

theorem tagsChoice_list_iff {kind : Kind} {xs : List Value} :
    (Kind.list kind).TagsChoice (.list xs) ↔ ∃ x ∈ xs, kind.TagsChoice x := by
  refine ⟨fun h => ?_, fun ⟨x, hx, h⟩ => .item hx h⟩
  cases h with
  | item hx h => exact ⟨_, hx, h⟩

theorem tagsChoice_record_iff {fields : List Field} {v : Value} {es : List (Value × Value)}
    (hv : sectionEntries? v = some es) :
    (Kind.record fields).TagsChoice v ↔ ∃ f ∈ fields, f.TagsChoice es := by
  refine ⟨fun h => ?_, fun ⟨f, hf, w, hw, h⟩ => .field hv hf hw h⟩
  cases h with
  | field hu hf hw h =>
      obtain rfl := Option.some.inj (hu.symm.trans hv)
      exact ⟨_, hf, _, hw, h⟩

theorem not_tagsChoice_list {kind : Kind} {v : Value} (h : ∀ x, ¬ kind.TagsChoice x) :
    ¬ (Kind.list kind).TagsChoice v := by
  rintro ⟨⟩
  exact h _ ‹_›

theorem not_tagsChoice_record {fields : List Field} {v : Value}
    (h : ∀ f ∈ fields, ∀ w, ¬ f.kind.TagsChoice w) : ¬ (Kind.record fields).TagsChoice v := by
  rintro ⟨⟩
  exact h _ ‹_› _ ‹_›

theorem not_tagsChoice_null {k : Kind} : ¬ k.TagsChoice .null := by
  intro h
  cases h with
  | field hv _ hw =>
      cases hv
      cases hw

section

variable {f : Field} {es : List (Value × Value)}

theorem tagsChoice_given_iff {v : Value} (hv : f.given? es = some v) :
    f.TagsChoice es ↔ f.kind.TagsChoice v := by
  refine ⟨fun ⟨w, hw, h⟩ => ?_, fun h => ⟨v, hv, h⟩⟩
  exact Option.some.inj (hw.symm.trans hv) ▸ h

theorem not_tagsChoice_of_none (hnone : f.given? es = none) : ¬ f.TagsChoice es :=
  fun ⟨_, hw, _⟩ => nomatch hw.symm.trans hnone

end

/-! ### Properties that suit a kind -/

/-- A property holds of the normal form of a value of a kind, unless a choice in it carries a
tag. -/
def Kind.Suits (parent : Option Value) (k : Kind) (P : Value → Prop) : Prop :=
  ∀ v, k.Accepts v → (P (k.normal parent v) ↔ ¬ k.TagsChoice v)

/-- A property holds of what a field has in a normal form, unless a choice in it carries a tag. -/
structure Field.Suits (parent : Option Value) (f : Field) (P : Value → Prop) : Prop where
  kept : f.kind.isDiscarded = false
  suits : ∀ es, f.Accepts es → (P (f.normal parent es) ↔ ¬ f.TagsChoice es)

/-- A property holds of what has the normal forms of some fields under their names, unless a choice
in them carries a tag. -/
def SuitsFields (parent : Option Value) (fields : List Field) (P : Value → Prop) : Prop :=
  ∀ es doc, (∀ f ∈ fields, f.Accepts es) →
    (∀ f ∈ kept fields, doc.getD f.name = f.normal parent es) →
    (P doc ↔ ∀ f ∈ fields, ¬ f.TagsChoice es)

/-- A list whose items have a property. -/
def HasItems (P : Value → Prop) (v : Value) : Prop := ∃ xs, v = .list xs ∧ ∀ x ∈ xs, P x

/-- A mapping whose keys are names and whose values have a property. -/
def HasEntries (P : Value → Prop) (v : Value) : Prop :=
  ∃ es, v = .mapping es ∧ ∀ e ∈ es, (∃ s, e.1 = .string s) ∧ P e.2

section

variable {parent : Option Value} {k : Kind} {P Q : Value → Prop} {fields : List Field}

theorem suits_of_not_tagsChoice (hno : ∀ v, ¬ k.TagsChoice v)
    (h : ∀ v, k.Accepts v → P (k.normal parent v)) : k.Suits parent P :=
  fun v hv => iff_of_true (h v hv) (hno v)

theorem Kind.Suits.congr (h : k.Suits parent P) (hsame : ∀ v, Q v ↔ P v) : k.Suits parent Q :=
  fun v hv => (hsame _).trans (h v hv)

/-- Null may stand in where it is the normal form of nothing. -/
theorem Kind.Suits.orNull (h : k.Suits parent P)
    (hnull : ∀ v, k.Accepts v → k.normal parent v ≠ .null) :
    k.Suits parent fun v => v = .null ∨ P v :=
  fun v hv => (or_iff_right (hnull v hv)).trans (h v hv)

theorem Kind.Suits.list (h : k.Suits parent P) : (Kind.list k).Suits parent (HasItems P) := by
  intro v hv
  cases hv with
  | @list _ xs hxs =>
      have hitems : HasItems P ((Kind.list k).normal parent (.list xs)) ↔
          ∀ x ∈ xs, P (k.normal parent x) := by
        simp [HasItems, Kind.normal, Value.items, Value.untagged]
      rw [hitems, tagsChoice_list_iff]
      simp only [not_exists, not_and]
      exact forall₂_congr fun x hx => h x (hxs x hx)

/-! ### Fields -/

/-- A field is suited with its kind, if what stands in for it has the property, too; nothing stands
in for a required field or for a section that is built from its fields. -/
theorem Field.suits_of_kind {f : Field} (hkept : f.kind.isDiscarded = false)
    (h : f.kind.Suits parent P)
    (hfallback : f.fallback ≠ .required → (f.kind.isRecord && f.fallback.isBuilt) = false →
      P (f.fallback.content parent)) : f.Suits parent P := by
  refine ⟨hkept, fun es hes => ?_⟩
  unfold Field.normal
  cases hgiven : f.given? es with
  | some v =>
      rw [tagsChoice_given_iff hgiven]
      exact h v ((Field.accepts_given_iff hkept hgiven).1 hes)
  | none =>
      refine iff_of_true ?_ (not_tagsChoice_of_none hgiven)
      cases hbuilt : f.kind.isRecord && f.fallback.isBuilt with
      | true =>
          have hnull := (Field.accepts_built_iff hgiven hbuilt).1 hes
          exact (h .null hnull).2 not_tagsChoice_null
      | false =>
          exact hfallback ((Field.accepts_replaced_iff hkept hgiven hbuilt).1 hes) hbuilt

theorem Kind.Suits.required {name : String} (h : k.Suits parent P) (hkept : k.isDiscarded = false) :
    (⟨name, k, .required⟩ : Field).Suits parent P :=
  Field.suits_of_kind hkept h fun hnot => absurd rfl hnot

theorem Kind.Suits.orElse {name : String} {fallback : Fallback} (h : k.Suits parent P)
    (hkept : k.isDiscarded = false) (hfallback : P (fallback.content parent)) :
    (⟨name, k, fallback⟩ : Field).Suits parent P :=
  Field.suits_of_kind hkept h fun _ _ => hfallback

theorem Kind.Suits.ofParts {name : String} {inner : List Field}
    (h : (Kind.record inner).Suits parent P) : (Field.ofParts name inner).Suits parent P :=
  Field.suits_of_kind rfl h fun _ hbuilt => nomatch hbuilt

theorem suitsFields_nil : SuitsFields parent [] fun _ => True :=
  fun _ _ _ _ => iff_of_true trivial fun _ hf => nomatch hf

theorem SuitsFields.cons {f : Field} (hf : f.Suits parent P) (h : SuitsFields parent fields Q) :
    SuitsFields parent (f :: fields) fun doc => P (doc.getD f.name) ∧ Q doc := by
  intro es doc haccepts hvalues
  have hcons : kept (f :: fields) = f :: kept fields := by simp [Schema.kept, hf.kept]
  rw [hcons] at hvalues
  rw [List.forall_mem_cons] at haccepts hvalues ⊢
  refine and_congr ?_ (h es doc haccepts.2 hvalues.2)
  rw [hvalues.1]
  exact hf.suits es haccepts.1

/-- What is dropped is not read. -/
theorem SuitsFields.drop {f : Field} (hf : f.kind = .discarded) (h : SuitsFields parent fields P) :
    SuitsFields parent (f :: fields) P := by
  intro es doc haccepts hvalues
  have hcons : kept (f :: fields) = kept fields := by simp [kept, hf, Kind.isDiscarded]
  rw [hcons] at hvalues
  rw [List.forall_mem_cons] at haccepts ⊢
  have hno : ¬ f.TagsChoice es := by
    rintro ⟨_, _, htags⟩
    rw [hf] at htags
    cases htags
  rw [and_iff_right hno]
  exact h es doc haccepts.2 hvalues

/-! ### Sections and tables -/

/-- A section is suited with its fields. -/
theorem SuitsFields.record (h : SuitsFields parent fields Q)
    (hnames : (fields.map Field.name).Nodup) (hsame : ∀ v, P v ↔ Q v) :
    (Kind.record fields).Suits parent P := by
  intro v hv
  obtain ⟨es, hes, haccepts⟩ := exists_sectionEntries hv
  rw [hsame, h es _ haccepts fun f hf => getD_normal hnames hes hf, tagsChoice_record_iff hes]
  simp only [not_exists, not_and]

/-- A section may be read entry by entry, when all its fields are suited alike. -/
theorem suits_entries (hnames : (fields.map Field.name).Nodup)
    (h : ∀ f ∈ fields, f.Suits parent P) : (Kind.record fields).Suits parent (HasEntries P) := by
  intro v hv
  obtain ⟨es, hes, haccepts⟩ := exists_sectionEntries hv
  have hkept : kept fields = fields := List.filter_eq_self.2 fun f hf => by simp [(h f hf).kept]
  have hentries : HasEntries P ((Kind.record fields).normal parent v) ↔
      ∀ f ∈ fields, P (f.normal parent es) := by
    rw [normal_record hnames hes, hkept]
    simp only [HasEntries, Value.mapping.injEq, exists_eq_left', named, List.forall_mem_map]
    simp
  rw [hentries, tagsChoice_record_iff hes]
  simp only [not_exists, not_and]
  exact forall₂_congr fun f hf => (h f hf).suits es (haccepts f hf)

/-- A table without choices is read entry by entry. -/
theorem Kind.Suits.table {check : TextCheck} (h : k.Suits parent P) (hno : ∀ v, ¬ k.TagsChoice v) :
    (Kind.table check k).Suits parent (HasEntries P) := by
  refine suits_of_not_tagsChoice (fun v hv => ?_) fun v hv => ?_
  · cases hv with
    | entry _ h => exact hno _ h
  · cases hv with
    | @table _ _ es hkeys hes =>
        -- of entries with one name only the last is there, but each of them is in order
        obtain ⟨fs, hfs, -, hmem⟩ := insertAll_eq_named (es.filterMap fun e =>
          (tableKey check e.1).toOption.map fun name => (name, k.normal parent e.2))
        refine ⟨_, congrArg Value.mapping hfs, fun e' he' => ?_⟩
        obtain ⟨f, hf, rfl⟩ := List.mem_map.1 he'
        obtain ⟨e, he, hwalked⟩ := List.mem_filterMap.1 (hmem f hf)
        obtain ⟨name, -, rfl⟩ := Option.map_eq_some_iff.1 hwalked
        exact ⟨⟨name, rfl⟩, (h e.2 (hes e he)).2 (hno e.2)⟩

theorem normal_ne_null {v : Value} (hk : k.isSingle = true) (hkept : k.isDiscarded = false)
    (h : k.Accepts v) : k.normal parent v ≠ .null := by
  cases h with
  | list | table | missing | given => cases hk
  | discarded => cases hkept
  | boolean | string => simp [Kind.normal]
  | natural hv =>
      rintro rfl
      cases hv
  | oneOf hv =>
      rintro rfl
      cases hv
  | asn hv => simp [Kind.normal, hv, Value.nat]
  | address hv | ipv4 hv | ipv6 hv | network hv => simp [Kind.normal, hv]
  | text hv hs => simp [Kind.normal, hv, hs, Except.toOption]

end

end RouteServer.Schema

namespace RouteServer.Policy

open RouteServer.Net RouteServer.Schema RouteServer.Text RouteServer.Yaml

/-! ### Readers -/

/-- A reader gives something for a value. -/
def Reads {α : Type} (read : Value → Decoded α) (v : Value) : Prop := ∃ x, read v = .ok x

theorem exists_bind_eq_ok {ε α β : Type} {x : Except ε α} {f : α → Except ε β} :
    (∃ r, x >>= f = .ok r) ↔ ∃ a, x = .ok a ∧ ∃ r, f a = .ok r := by
  cases x <;> simp [bind, Except.bind]

section

variable {α : Type} {read : Value → Decoded α} {v : Value}

theorem exists_mapM_iff {ε β : Type} {f : β → Except ε α} {xs : List β} :
    (∃ ys, xs.mapM f = .ok ys) ↔ ∀ x ∈ xs, ∃ y, f x = .ok y := by
  induction xs with
  | nil => simp [pure, Except.pure]
  | cons x xs ih =>
      rw [List.mapM_cons, exists_bind_eq_ok, List.forall_mem_cons, ← ih]
      simp [exists_bind_eq_ok, pure, Except.pure]

theorem reads_list_iff : Reads (Decoded.list read) v ↔ HasItems (Reads read) v := by
  unfold Reads HasItems
  cases v with
  | list xs => simp [Decoded.list, exists_mapM_iff]
  | _ => simp [Decoded.list]

theorem reads_dictionary_iff : Reads (Decoded.dictionary read) v ↔ HasEntries (Reads read) v := by
  unfold Reads HasEntries
  cases v with
  | mapping es =>
      simp only [Decoded.dictionary, exists_bind_eq_ok, exists_mapM_iff, Decoded.string_eq_ok,
        Value.mapping.injEq, exists_eq_left', Except.ok.injEq, exists_eq', and_true,
        exists_and_right]
  | _ => simp [Decoded.dictionary]

theorem reads_optional_iff : Reads (Decoded.optional read) v ↔ v = .null ∨ Reads read v := by
  unfold Reads
  cases v with
  | null => simp [Decoded.optional]
  | _ =>
      simp only [Decoded.optional, reduceCtorEq, false_or]
      cases read _ <;> simp [Except.map]

theorem reads_optionValue {f : α → Value} {o : Option α} (h : ∀ x, Reads read (f x)) :
    Reads (Decoded.optional read) (optionValue f o) := by
  rw [reads_optional_iff]
  cases o with
  | none => exact .inl rfl
  | some x => exact .inr (h x)

theorem reads_uint8_iff : Reads Decoded.uint8 v ↔ ∃ n, v.natural? = some n ∧ n < 256 := by
  unfold Reads Decoded.uint8
  simp only [exists_bind_eq_ok, Decoded.natural_eq_ok]
  refine exists_congr fun n => and_congr_right fun _ => ?_
  split <;> simp_all

theorem reads_uint32_iff : Reads Decoded.uint32 v ↔ ∃ n, v.natural? = some n ∧ n < 4294967296 := by
  unfold Reads Decoded.uint32
  simp only [exists_bind_eq_ok, Decoded.natural_eq_ok]
  refine exists_congr fun n => and_congr_right fun _ => ?_
  split <;> simp_all

theorem reads_uint8Value (n : UInt8) : Reads Decoded.uint8 (uint8Value n) :=
  reads_uint8_iff.2 ⟨n.toNat, rfl, n.toNat_lt⟩

theorem reads_uint32Value (n : UInt32) : Reads Decoded.uint32 (uint32Value n) :=
  reads_uint32_iff.2 ⟨n.toNat, rfl, n.toNat_lt⟩

theorem reads_address (a : Address) : Decoded.address (.string a.text) = .ok a := by
  simp [Decoded.address, Decoded.string, Address.read_text, Decoded.require, bind, Except.bind]

theorem reads_choice_string {all : List α} {text : α → String} {s : String}
    (hs : s ∈ all.map text) : Reads (Decoded.choice all text) (.string s) := by
  obtain ⟨x, hx, rfl⟩ := List.mem_map.1 hs
  have hfind : (all.find? fun y => text y == text x).isSome :=
    List.find?_isSome.2 ⟨x, hx, beq_self_eq_true _⟩
  obtain ⟨y, hy⟩ := Option.isSome_iff_exists.1 hfind
  exact ⟨y, by rw [Decoded.choice, Decoded.choice.pick, hy]⟩

theorem not_reads_choice_tagged {all : List α} {text : α → String} {tag : String} :
    ¬ Reads (Decoded.choice all text) (.tagged tag v) := by
  rintro ⟨x, h⟩
  cases Decoded.choice_eq_ok h

end

/-! ### Readers of single values -/

section

variable {parent : Option Value} {least greatest : Nat}

theorem suits_bool : Kind.boolean.Suits parent (Reads Decoded.bool) :=
  suits_of_not_tagsChoice nofun fun _ hv => by
    cases hv with
    | boolean b => exact ⟨b, rfl⟩

theorem suits_string : Kind.string.Suits parent (Reads Decoded.string) :=
  suits_of_not_tagsChoice nofun fun _ hv => by
    cases hv with
    | string s => exact ⟨s, rfl⟩

theorem suits_uint8 (h : greatest < 256) :
    (Kind.natural least greatest).Suits parent (Reads Decoded.uint8) :=
  suits_of_not_tagsChoice nofun fun _ hv => by
    cases hv with
    | natural hn _ hgreatest => exact reads_uint8_iff.2 ⟨_, hn, Nat.lt_of_le_of_lt hgreatest h⟩

theorem suits_uint32 (h : greatest < 4294967296) :
    (Kind.natural least greatest).Suits parent (Reads Decoded.uint32) :=
  suits_of_not_tagsChoice nofun fun _ hv => by
    cases hv with
    | natural hn _ hgreatest => exact reads_uint32_iff.2 ⟨_, hn, Nat.lt_of_le_of_lt hgreatest h⟩

theorem suits_asn : Kind.asn.Suits parent (Reads Decoded.uint32) :=
  suits_of_not_tagsChoice nofun fun _ hv => by
    cases hv with
    | @asn _ n hn =>
        simp only [Kind.normal, hn, Option.map_some, Option.getD_some]
        exact reads_uint32Value n

theorem suits_address : Kind.address.Suits parent (Reads Decoded.address) :=
  suits_of_not_tagsChoice nofun fun _ hv => by
    cases hv with
    | @address _ a ha =>
        simp only [Kind.normal, ha, Option.map_some, Option.getD_some]
        exact ⟨a, reads_address a⟩

theorem suits_ipv4 : Kind.ipv4.Suits parent (Reads Decoded.ipv4) :=
  suits_of_not_tagsChoice nofun fun _ hv => by
    cases hv with
    | @ipv4 _ a ha hfamily =>
        simp only [Kind.normal, ha, Option.map_some, Option.getD_some]
        cases a with
        | v4 bits => exact ⟨bits, by rw [Decoded.ipv4, reads_address]; rfl⟩
        | v6 => cases hfamily

theorem suits_ipv6 : Kind.ipv6.Suits parent (Reads Decoded.ipv6) :=
  suits_of_not_tagsChoice nofun fun _ hv => by
    cases hv with
    | @ipv6 _ a ha hfamily =>
        simp only [Kind.normal, ha, Option.map_some, Option.getD_some]
        cases a with
        | v6 bits => exact ⟨bits, by rw [Decoded.ipv6, reads_address]; rfl⟩
        | v4 => cases hfamily

theorem suits_text {check : TextCheck} : (Kind.text check).Suits parent (Reads Decoded.string) :=
  suits_of_not_tagsChoice nofun fun _ hv => by
    cases hv with
    | @text _ _ s t hs ht =>
        refine ⟨t, ?_⟩
        simp [Kind.normal, hs, ht, Except.toOption, Decoded.string]

/-- A choice is read where it carries no tag. -/
theorem suits_choice {α : Type} {all : List α} {text : α → String} :
    (Kind.oneOf (all.map text)).Suits parent (Reads (Decoded.choice all text)) := by
  intro v hv
  cases hv with
  | @oneOf _ _ s hs hmem =>
      cases v with
      | string =>
          cases hs
          exact iff_of_true (reads_choice_string hmem) nofun
      | tagged => exact iff_of_false not_reads_choice_tagged (not_not_intro .here)
      | _ => cases hs

/-- A value that may be left out. -/
theorem suits_optional {α : Type} {read : Value → Decoded α} {k : Kind} (hk : k.isSingle = true)
    (hkept : k.isDiscarded = false) (h : k.Suits parent (Reads read)) (name : String) :
    (⟨name, k, .null⟩ : Field).Suits parent (Reads (Decoded.optional read)) :=
  ((h.orNull fun _ => normal_ne_null hk hkept).congr fun _ => reads_optional_iff).orElse hkept
    (reads_optional_iff.2 (.inl rfl))

theorem suits_list {α : Type} {read : Value → Decoded α} {k : Kind}
    (h : k.Suits parent (Reads read)) : (Kind.list k).Suits parent (Reads (Decoded.list read)) :=
  h.list.congr fun _ => reads_list_iff

end

end RouteServer.Policy

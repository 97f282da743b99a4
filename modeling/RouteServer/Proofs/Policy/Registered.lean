import RouteServer.Proofs.Policy.Accepted
import RouteServer.Proofs.Policy.Constraints
import RouteServer.Proofs.Schema.Conforms
import RouteServer.Proofs.Text.Split

/-!
# Policy — the sets that are registered for a network

A document lists networks under keys that denote their numbers (`keyNumber?`): `AS`, and a numeral,
which may have a sign or zeros in front.  Every entry of an accepted document is in order, and the
sets found for a number are those of the last entry that denotes it (`asSetsFor_of_entry`).

So an entry is lost where a later one spells the same number in another way
(`not_asSetsFor_entry`).
-/

namespace RouteServer.Policy.AsnInfo

open RouteServer.Net RouteServer.Schema RouteServer.Text RouteServer.Yaml

/-- The AS number that a key denotes. -/
def keyNumber? (key : Value) : Option Asn :=
  key.text?.bind fun s => (afterStart "AS" s).bind fun n =>
    (readNat maxWord32 n.toList).toOption.bind Asn.ofNat?

/-- The sets that are registered: their names, without the blanks around them. -/
def registered (info : Value) : List String :=
  ((given? info ["as_sets"]).getD .null).items.filterMap fun x => x.text?.map trimText

/-- The entries of a document about networks. -/
def entriesIn (doc : Value) : List (Value × Value) :=
  ((given? doc ["asns"]).bind sectionEntries?).getD []

/-! ### Keys -/

theorem name_injective : Function.Injective Asn.name := by
  intro m n h
  have htext : natText m.toNat = natText n.toNat := (String.append_right_inj _).1 h
  exact UInt32.toNat_inj.1 (natText_injective htext)

theorem checkKey_eq_ok_iff {s name : String} :
    checkKey s = .ok name ↔ ∃ n, ((afterStart "AS" s).bind fun n =>
      (readNat maxWord32 n.toList).toOption.bind Asn.ofNat?) = some n ∧ Asn.name n = name := by
  unfold checkKey
  cases afterStart "AS" s with
  | none => simp [checkKey.refused]
  | some t =>
      cases hread : readNat maxWord32 t.toList with
      | error => simp [checkKey.refused, hread, Except.toOption]
      | ok n =>
          have hle := le_of_readNat hread
          have hmod : n % 4294967296 = n := Nat.mod_eq_of_lt (Nat.lt_of_le_of_lt hle (by decide))
          by_cases hpos : 0 < n
          · simp [hread, Except.toOption, Asn.ofNat?, hpos, hle, Asn.name, Asn.text, hmod]
          · simp [hread, Except.toOption, Asn.ofNat?, hpos, checkKey.refused]

/-- A key is taken if it denotes a number, and becomes the name of the network with that number. -/
theorem tableKey_checkKey_iff {key : Value} {name : String} :
    tableKey checkKey key = .ok name ↔ ∃ n, keyNumber? key = some n ∧ Asn.name n = name := by
  rw [tableKey_eq_ok_iff, keyNumber?]
  cases key.text? with
  | none => simp
  | some s => simp [checkKey_eq_ok_iff]

/-! ### What is registered -/

theorem checkName_eq_ok {s t : String} (h : AsSet.checkName s = .ok t) : trimText s = t := by
  unfold AsSet.checkName at h
  simp only at h
  split at h
  case isTrue =>
      cases h
      rfl
  case isFalse => cases h

theorem forall₂_texts {xs : List Value}
    (h : ∀ x ∈ xs, (Kind.text AsSet.checkName).Accepts x) :
    List.Forall₂ (fun v s => Decoded.string v = .ok s)
      (xs.map fun x => (Kind.text AsSet.checkName).normal none x)
      (xs.filterMap fun x => x.text?.map trimText) := by
  induction xs with
  | nil => exact .nil
  | cons x xs ih =>
      rw [List.forall_mem_cons] at h
      cases h.1 with
      | text hs ht =>
          rw [List.map_cons, List.filterMap_cons, hs]
          refine .cons ?_ (ih h.2)
          simp [Kind.normal, hs, ht, Except.toOption, Decoded.string, checkName_eq_ok ht]

/-- What is registered is read of the normal form. -/
theorem ofValue_normal {info : Value} (h : (Kind.record fields).Accepts info) :
    ofValue ((Kind.record fields).normal none info) = .ok ⟨registered info⟩ := by
  let sets : Field := ⟨"as_sets", AsSet.listKind, .emptyList⟩
  have hmem : sets ∈ kept fields := by simp [kept, fields, sets, AsSet.listKind, Kind.isDiscarded]
  have hclean := (walk_clean_iff none (.record fields) info "").2 h
  obtain ⟨es, hes, hgiven⟩ := sectionEntries?_of_walk hclean
  obtain ⟨es', hes', haccepts⟩ := exists_sectionEntries h
  obtain rfl : es' = es := Option.some.inj (hes'.symm.trans hes)
  have hvalue : ((Kind.record fields).normal none info).getD "as_sets" = sets.normal none es' :=
    getD_normal (f := sets) (by decide) hes hmem
  have hgiven' : given? info ["as_sets"] = sets.given? es' := hgiven "as_sets"
  have hsets : Decoded.list Decoded.string (sets.normal none es') = .ok (registered info) := by
    rw [registered, hgiven', Field.normal]
    cases hw : sets.given? es' with
    | none => rfl
    | some w =>
        cases (Field.accepts_given_iff rfl hw).1 (haccepts sets (List.mem_filter.1 hmem).1) with
        | list hxs => exact Decoded.list_eq_ok.2 ⟨_, rfl, forall₂_texts hxs⟩
  rw [ofValue, Decoded.field, hvalue, hsets]
  rfl

/-! ### Documents -/

theorem toOption_tableKey (key : Value) :
    (tableKey checkKey key).toOption = (keyNumber? key).map Asn.name := by
  refine Option.ext fun name => ?_
  rw [Option.map_eq_some_iff, ← tableKey_checkKey_iff]
  cases tableKey checkKey key <;> simp [Except.toOption]

/-- What a table holds under the name of a network: the normal form of the last entry for it. -/
theorem lookup?_normals {es front : List (Value × Value)} {n : Asn} {last : Value × Value}
    (h : LastWith (fun e => keyNumber? e.1) n es front last) :
    Value.lookup? (Asn.name n) (insertAll [] (named (es.filterMap fun e =>
      (tableKey checkKey e.1).toOption.map fun name =>
        (name, (Kind.record fields).normal none e.2)))) =
      some ((Kind.record fields).normal none last.2) := by
  obtain ⟨hlast, back, rfl, hback⟩ := h
  simp only [toOption_tableKey, Option.map_map]
  -- the entries are searched from the back, and those behind the last one have other numbers
  have hskip : back.reverse.find? (fun x => ((keyNumber? x.1).map
      ((fun name => (name, (Kind.record fields).normal none x.2)) ∘ Asn.name)).any
        (·.1 = Asn.name n)) = none := by
    rw [List.find?_eq_none]
    intro x hx hfound
    cases hnumber : keyNumber? x.1 with
    | none => simp [hnumber] at hfound
    | some m =>
        have hname : Asn.name m = Asn.name n := by simpa [hnumber] using hfound
        exact hback x (List.mem_reverse.1 hx) (hnumber.trans (congrArg some (name_injective hname)))
  rw [lookup?_insertAll, ← List.filterMap_reverse, List.find?_filterMap, List.reverse_append,
    List.reverse_cons, List.find?_append, List.find?_append, hskip]
  simp [hlast]

/-- The entries of an accepted document are those of a mapping in which every entry is in order, and
the networks are read of the mapping's normal form. -/
theorem exists_table {v : Value} {asns : Dictionary AsnInfo} (h : acceptAsns v = .ok asns) :
    (Kind.table checkKey (.record fields)).Accepts (.mapping (entriesIn v)) ∧
      Decoded.dictionary ofValue ((Kind.table checkKey (.record fields)).normal none
        (.mapping (entriesIn v))) = .ok asns := by
  obtain ⟨hclean, -, hdecode⟩ := accept_eq_ok.1 h
  let networks : Field := ⟨"asns", .table checkKey (.record fields), .emptyMapping⟩
  have hmem : networks ∈ kept document := by simp [kept, document, networks, Kind.isDiscarded]
  obtain ⟨es, hes, hgiven⟩ := sectionEntries?_of_walk hclean
  obtain ⟨es', hes', haccepts⟩ :=
    exists_sectionEntries ((walk_clean_iff none (.record document) v "").1 hclean)
  obtain rfl : es' = es := Option.some.inj (hes'.symm.trans hes)
  have hgiven' : given? v ["asns"] = networks.given? es' := hgiven "asns"
  have hvalue : (walk none document v "").1.getD "asns" = networks.normal none es' := by
    rw [walk, walk_fst none (.record document) v "" hclean]
    exact getD_normal (f := networks) (by decide) hes hmem
  replace hdecode : Decoded.dictionary ofValue ((walk none document v "").1.getD "asns") =
      .ok asns := hdecode
  rw [hvalue, Field.normal] at hdecode
  rw [entriesIn, hgiven']
  cases hw : networks.given? es' with
  | none =>
      rw [hw] at hdecode
      exact ⟨.table (by simp) (by simp), hdecode⟩
  | some w =>
      rw [hw] at hdecode
      cases (Field.accepts_given_iff rfl hw).1 (haccepts networks (List.mem_filter.1 hmem).1) with
      | table hkeys hvalues => exact ⟨.table hkeys hvalues, hdecode⟩

/-- **Registered sets.**  Every entry of an accepted document denotes a number, and the sets found
for the number are those of the last entry that denotes it; so where no other entry denotes the
number, the sets of the entry itself are found. -/
theorem asSetsFor_of_entry {files : Files.Tree} {s : Source} {doc : Value}
    (hread : s.read files .asns = .ok doc) {asns : Dictionary AsnInfo}
    (h : loadAsns files s = .ok asns) {e : Value × Value} (he : e ∈ entriesIn doc) :
    ∃ n front last, keyNumber? e.1 = some n ∧
      LastWith (fun e => keyNumber? e.1) n (entriesIn doc) front last ∧
      asSetsFor asns n = (some (registered last.2)).filter (!·.isEmpty) ∧
      ((∀ x ∈ entriesIn doc, keyNumber? x.1 = some n → x = e) →
        asSetsFor asns n = (some (registered e.2)).filter (!·.isEmpty)) := by
  replace h : acceptAsns doc = .ok asns := by
    unfold loadAsns at h
    rw [hread] at h
    exact h
  obtain ⟨haccepts, hdecode⟩ := exists_table h
  have hall := accepts_table_iff.1 haccepts
  obtain ⟨⟨t, name, ht, hname⟩, -⟩ := hall e he
  obtain ⟨n, hn, -⟩ := tableKey_checkKey_iff.1 (tableKey_eq_ok_iff.2 ⟨t, ht, hname⟩)
  obtain ⟨front, last, hlast⟩ : ∃ front last,
      LastWith (fun e : Value × Value => keyNumber? e.1) n (entriesIn doc) front last :=
    exists_lastWith he hn
  have hmem : last ∈ entriesIn doc := by
    obtain ⟨-, back, hsplit, -⟩ := hlast
    simp [hsplit]
  have hsets : asSetsFor asns n = (some (registered last.2)).filter (!·.isEmpty) := by
    obtain ⟨fs, hfs, hnames, -⟩ := insertAll_eq_named ((entriesIn doc).filterMap fun e =>
      (tableKey checkKey e.1).toOption.map fun name =>
        (name, (Kind.record fields).normal none e.2))
    have hnormal := lookup?_normals hlast
    rw [Kind.normal, sectionEntries?, Option.getD_some, hfs] at hdecode
    rw [hfs] at hnormal
    have hget : asns.get? (Asn.name n) = some ⟨registered last.2⟩ :=
      (Decoded.get?_dictionary_iff hnames hdecode).2
        ⟨_, mem_of_lookup?_named hnormal, ofValue_normal (hall last hmem).2⟩
    rw [asSetsFor, hget, Option.map_some]
  refine ⟨n, front, last, hn, hlast, hsets, fun honly => ?_⟩
  rw [hsets, honly last hmem hlast.key_eq]

/-! ### Two entries for one network -/

/-- A document with two entries. -/
def pairDocument (first second : String) : Value :=
  .ofFields [("asns", .ofFields
    [(first, .ofFields [("as_sets", .list [.string "AS-A"])]),
     (second, .ofFields [("as_sets", .list [.string " AS-B "])])])]

/-- Two keys for one number are accepted, and only the second entry is kept. -/
theorem exists_loadAsns_pair :
    ∃ asns, loadAsns {} (.value (pairDocument "AS1" "AS01")) = .ok asns ∧
      asSetsFor asns 1 = some ["AS-B"] := by
  have hrun : (loadAsns {} (.value (pairDocument "AS1" "AS01"))).toOption.any fun asns =>
      decide (asSetsFor asns 1 = some ["AS-B"]) := by
    decide +kernel
  cases hload : loadAsns {} (.value (pairDocument "AS1" "AS01")) with
  | error fault =>
      rw [hload] at hrun
      cases hrun
  | ok asns =>
      rw [hload] at hrun
      exact ⟨asns, rfl, of_decide_eq_true hrun⟩

theorem asSetsFor_of_entry_pair :
    ∃ asns, loadAsns {} (.value (pairDocument "AS1" "AS02")) = .ok asns ∧
      asSetsFor asns 1 = some ["AS-A"] := by
  have hrun : (loadAsns {} (.value (pairDocument "AS1" "AS02"))).toOption.isSome := by
    decide +kernel
  cases hload : loadAsns {} (.value (pairDocument "AS1" "AS02")) with
  | error fault =>
      rw [hload] at hrun
      cases hrun
  | ok asns =>
      refine ⟨asns, rfl, ?_⟩
      obtain ⟨n, -, -, hn, -, -, honly⟩ := asSetsFor_of_entry rfl hload
        (show (.string "AS1", .ofFields [("as_sets", .list [.string "AS-A"])]) ∈
          entriesIn (pairDocument "AS1" "AS02") from List.mem_cons_self)
      have hone : keyNumber? (.string "AS1") = some 1 := by decide
      obtain rfl : 1 = n := Option.some.inj (hone.symm.trans hn)
      refine honly fun x hx hnumber => ?_
      rcases List.mem_cons.1 hx with rfl | hx
      · rfl
      · rw [List.mem_singleton.1 hx] at hnumber
        exact absurd hnumber (by decide)

/-- An entry of an accepted document may be lost. -/
theorem not_asSetsFor_entry :
    ¬ ∀ (files : Files.Tree) (s : Source) (doc : Value) (asns : Dictionary AsnInfo)
      (e : Value × Value) (n : Asn), s.read files .asns = .ok doc → loadAsns files s = .ok asns →
        e ∈ entriesIn doc → keyNumber? e.1 = some n →
          asSetsFor asns n = (some (registered e.2)).filter (!·.isEmpty) := by
  intro h
  obtain ⟨asns, hload, hsets⟩ := exists_loadAsns_pair
  have hfound := h {} _ _ asns (.string "AS1", .ofFields [("as_sets", .list [.string "AS-A"])]) 1
    rfl hload List.mem_cons_self (by decide)
  rw [hsets] at hfound
  exact absurd hfound (by decide)

end RouteServer.Policy.AsnInfo

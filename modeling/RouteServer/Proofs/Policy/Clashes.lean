import Mathlib.Data.Finset.Card
import RouteServer.Proofs.Policy.Agreement
import RouteServer.Proofs.Policy.Effective
import RouteServer.Proofs.Policy.Prefixes

/-!
# Policy — clients that clash

What a document of clients of the shape of its schema is refused for (`loadClients_clashes`), said
of the document as it is given: a client has the address of one in front of it, or a range whose
bounds, its own or else the general ones, are out of order.  Each clash is reported once and at its
place; so there are as many of addresses as clients beyond the first with their address
(`Client.countP_clientViolations`).

The place tells the client and what clashes, since the digits of an index end at a bracket
(`item_append_inj`).
-/

namespace RouteServer.Schema

open RouteServer.Yaml

/-- What carries no tag has no choice with one. -/
theorem not_tagsChoice_of_isPlain {k : Kind} {v : Value} (hv : v.isPlain) : ¬ k.TagsChoice v := by
  intro h
  induction h with
  | here => cases hv
  | item hx _ ih => exact ih (Value.isPlain_of_mem hv hx)
  | @field fields v w es f hes _ hw _ ih =>
      obtain ⟨hlookup, -⟩ := Option.filter_eq_some_iff.1 hw
      obtain ⟨e, he, rfl⟩ := Option.map_eq_some_iff.1 hlookup
      have hmem := List.mem_of_find?_eq_some he
      unfold sectionEntries? at hes
      split at hes <;> cases hes
      · exact ih (Value.isPlain_of_entry hv hmem)
      · cases hmem
  | entry he _ ih => exact ih (Value.isPlain_of_entry hv he)

end RouteServer.Schema

namespace RouteServer.Policy

open RouteServer.Net RouteServer.Schema RouteServer.Yaml

namespace Client

/-! ### Places -/

/-- The name of the range of prefix lengths of a family. -/
def rangeName : Family → String
  | .v4 => "ipv4_pref_len"
  | .v6 => "ipv6_pref_len"

/-- The place of the address of a client. -/
def addressPath (i : Nat) : String := item "clients" i ++ ".ip"

/-- The place of a range of prefix lengths of a client. -/
def rangePath (i : Nat) (f : Family) : String :=
  item "clients" i ++ ".cfg.filtering." ++ rangeName f

theorem rangePath_ne_addressPath (i j : Nat) (f : Family) : rangePath i f ≠ addressPath j := by
  intro h
  rw [rangePath, addressPath, String.append_assoc] at h
  exact absurd (item_append_inj h).2 (by cases f <;> decide)

theorem addressPath_inj {i j : Nat} (h : addressPath i = addressPath j) : i = j :=
  (item_append_inj h).1

theorem rangePath_inj {i j : Nat} {f f' : Family} (h : rangePath i f = rangePath j f') :
    i = j ∧ f = f' := by
  rw [rangePath, rangePath, String.append_assoc, String.append_assoc] at h
  obtain ⟨rfl, hname⟩ := item_append_inj h
  refine ⟨rfl, ?_⟩
  cases f <;> cases f' <;> first | rfl | exact absurd hname (by decide)

theorem mem_rangeNames_iff {name : String} :
    name ∈ General.rangeNames ↔ ∃ f, name = rangeName f := by
  constructor
  · intro h
    rcases List.mem_pair.1 h with rfl | rfl
    · exact ⟨.v4, rfl⟩
    · exact ⟨.v6, rfl⟩
  · rintro ⟨f, rfl⟩
    cases f <;> decide

/-! ### What is found -/

/-- A client has the address of one in front of it. -/
def Repeats (xs : List Value) (i : Nat) : Prop :=
  ∃ a, xs[i]?.bind (addressAt "ip") = some a ∧ ∃ j < i, xs[j]?.bind (addressAt "ip") = some a

section

variable {doc : Value} {i : Nat} {f : Family}

theorem split_at {v : Value} {xs : List Value} (h : xs[i]? = some v) :
    (xs.take i).length = i ∧ xs = xs.take i ++ v :: xs.drop (i + 1) := by
  obtain ⟨hlt, rfl⟩ := List.getElem?_eq_some_iff.1 h
  exact ⟨List.length_take_of_le (Nat.le_of_lt hlt), by
    rw [List.getElem_cons_drop, List.take_append_drop]⟩

theorem addressPath_mem_iff :
    addressPath i ∈ (crossCheck doc).map Violation.path ↔
      Repeats (doc.getD "clients").items i := by
  constructor
  · intro h
    obtain ⟨b, hb, hpath⟩ := List.mem_map.1 h
    cases mem_crossCheck.1 hb with
    | @address front back before v w a hsplit hv hlast =>
        obtain rfl := addressPath_inj hpath
        obtain ⟨hkey, between, rfl, -⟩ := hlast
        exact ⟨a, by simp [hsplit, hv], before.length, by simp, by simp [hsplit, hkey]⟩
    | range _ hname =>
        obtain ⟨f, rfl⟩ := mem_rangeNames_iff.1 hname
        exact absurd hpath (rangePath_ne_addressPath _ _ f)
  · rintro ⟨a, hi, j, hj, hja⟩
    obtain ⟨v, hv, hva⟩ := Option.bind_eq_some_iff.1 hi
    obtain ⟨w, hw, hwa⟩ := Option.bind_eq_some_iff.1 hja
    obtain ⟨hlength, hsplit⟩ := split_at hv
    have hmem : w ∈ (doc.getD "clients").items.take i :=
      List.mem_of_getElem? (i := j) (by rw [List.getElem?_take_of_lt hj, hw])
    obtain ⟨first, hbreaks⟩ := breaks_of_same_address hsplit hva hmem hwa
    rw [hlength] at hbreaks
    exact List.mem_map_of_mem (f := Violation.path) (mem_crossCheck.2 hbreaks)

theorem rangePath_mem_iff :
    rangePath i f ∈ (crossCheck doc).map Violation.path ↔
      ∃ v, (doc.getD "clients").items[i]? = some v ∧
        IsReversed (((v.getD "cfg").getD "filtering").getD (rangeName f)) := by
  constructor
  · intro h
    obtain ⟨b, hb, hpath⟩ := List.mem_map.1 h
    cases mem_crossCheck.1 hb with
    | address => exact absurd hpath.symm (rangePath_ne_addressPath _ _ f)
    | @range front back v _ hsplit hname hreversed =>
        obtain ⟨f', rfl⟩ := mem_rangeNames_iff.1 hname
        obtain ⟨rfl, rfl⟩ := rangePath_inj hpath
        exact ⟨v, by simp [hsplit], hreversed⟩
  · rintro ⟨v, hv, hreversed⟩
    obtain ⟨hlength, hsplit⟩ := split_at hv
    have hbreaks := Breaks.range hsplit (mem_rangeNames_iff.2 ⟨f, rfl⟩) hreversed
    rw [hlength] at hbreaks
    exact List.mem_map_of_mem (f := Violation.path) (mem_crossCheck.2 hbreaks)

theorem path_of_mem_crossCheck {b : Violation} (h : b ∈ crossCheck doc) :
    (∃ i, b.path = addressPath i) ∨ ∃ i f, b.path = rangePath i f := by
  cases mem_crossCheck.1 h with
  | address => exact .inl ⟨_, rfl⟩
  | range _ hname =>
      obtain ⟨f, rfl⟩ := mem_rangeNames_iff.1 hname
      exact .inr ⟨_, f, rfl⟩

end

/-! ### Once each -/

/-- The places of a client at which something may be found. -/
def places (i : Nat) : List String := [addressPath i, rangePath i .v4, rangePath i .v6]

theorem nodup_places (i : Nat) : (places i).Nodup := by
  have hranges : rangePath i .v4 ≠ rangePath i .v6 := fun h => nomatch (rangePath_inj h).2
  simp [places, hranges, (rangePath_ne_addressPath i i _).symm]

theorem disjoint_places {i j : Nat} (hne : i ≠ j) : (places i).Disjoint (places j) := by
  have hitem : ∀ k, ∀ p ∈ places k, ∃ s, p = item "clients" k ++ s := by
    intro k p hp
    simp only [places, List.mem_cons, List.not_mem_nil, or_false] at hp
    rcases hp with rfl | rfl | rfl
    · exact ⟨_, rfl⟩
    · exact ⟨_, String.append_assoc ..⟩
    · exact ⟨_, String.append_assoc ..⟩
  intro p hi hj
  obtain ⟨s, rfl⟩ := hitem i p hi
  obtain ⟨t, ht⟩ := hitem j _ hj
  exact hne (item_append_inj ht).1

section

variable {i : Nat} {x : Value} {xs : List Value} {seen : List (Address × Nat)}

/-- At each place of a client one thing is found at most. -/
theorem paths_sublist_places :
    List.Sublist ((addressViolation (item "clients" i) x seen ++
      rangeViolations (item "clients" i) x).map Violation.path) (places i) := by
  have haddress : List.Sublist
      ((addressViolation (item "clients" i) x seen).map Violation.path) [addressPath i] := by
    unfold addressViolation
    split <;> simp [addressPath]
  have hranges : List.Sublist ((rangeViolations (item "clients" i) x).map Violation.path)
      [rangePath i .v4, rangePath i .v6] := by
    simp only [rangeViolations, General.rangeNames, List.filterMap_cons, List.filterMap_nil]
    cases General.isReversed (((x.getD "cfg").getD "filtering").getD "ipv4_pref_len") <;>
      cases General.isReversed (((x.getD "cfg").getD "filtering").getD "ipv6_pref_len") <;>
        simp [rangePath, rangeName]
  rw [List.map_append]
  exact haddress.append hranges

theorem paths_sublist (i : Nat) (xs : List Value) (seen : List (Address × Nat)) :
    List.Sublist ((clientViolations i xs seen).map Violation.path)
      ((List.range' i xs.length).flatMap places) := by
  induction xs generalizing i seen with
  | nil => exact .slnil
  | cons x xs ih =>
      rw [clientViolations, List.map_append, List.length_cons, List.range'_succ,
        List.flatMap_cons]
      exact paths_sublist_places.append (ih _ _)

/-- Nothing is found twice at a place. -/
theorem nodup_paths (doc : Value) : ((crossCheck doc).map Violation.path).Nodup := by
  refine (paths_sublist 0 _ []).nodup (List.nodup_flatMap.2 ⟨fun i _ => nodup_places i, ?_⟩)
  exact (List.nodup_range' ..).imp fun hne => disjoint_places hne

/-! ### How many there are -/

theorem lookup_isSome_iff {a : Address} {seen : List (Address × Nat)} :
    (seen.lookup a).isSome ↔ a ∈ seen.map (·.1) := by
  rw [List.lookup_isSome_iff]
  simp

/-- Some places are not those of ranges, and are those of the addresses of the first clients. -/
structure TellsAddresses (n : Nat) (p : String → Bool) : Prop where
  range : ∀ i f, p (rangePath i f) = false
  address : ∀ i < n, p (addressPath i) = true

section

variable {n : Nat} {p : String → Bool}

theorem countP_rangeViolations (hp : TellsAddresses n p) :
    (rangeViolations (item "clients" i) x).countP (fun b => p b.path) = 0 := by
  rw [List.countP_eq_zero]
  intro b hb
  obtain ⟨name, hname, hb⟩ := List.mem_filterMap.1 hb
  obtain ⟨f, rfl⟩ := mem_rangeNames_iff.1 hname
  obtain ⟨-, hb⟩ := Option.ite_none_right_eq_some.1 hb
  rw [← Option.some.inj hb]
  exact Bool.eq_false_iff.1 (hp.range i f)

theorem countP_addressViolation (hp : TellsAddresses n p) (hi : i < n) {a : Address}
    (ha : addressAt "ip" x = some a) :
    (addressViolation (item "clients" i) x seen).countP (fun b => p b.path) =
      if a ∈ seen.map (·.1) then 1 else 0 := by
  have hhere := hp.address i hi
  rw [addressViolation, ha, Option.bind_some]
  cases hs : seen.lookup a with
  | none =>
      have hnew : a ∉ seen.map (·.1) := by
        rw [← lookup_isSome_iff, hs]
        exact Bool.false_ne_true
      rw [if_neg hnew]
      rfl
  | some first =>
      rw [if_pos (lookup_isSome_iff.1 (Option.isSome_of_eq_some hs))]
      simpa [addressPath] using hhere

/-- Each client has an address that is new or found to be there. -/
theorem countP_clientViolations (hp : TellsAddresses n p) (i : Nat) (xs : List Value)
    (seen : List (Address × Nat)) (hxs : ∀ x ∈ xs, ∃ a, addressAt "ip" x = some a)
    (hn : i + xs.length ≤ n) :
    (clientViolations i xs seen).countP (fun b => p b.path) +
        ((seen.map (·.1)).toFinset ∪ (xs.filterMap (addressAt "ip")).toFinset).card =
      xs.length + (seen.map (·.1)).toFinset.card := by
  induction xs generalizing i seen with
  | nil => simp [clientViolations]
  | cons x xs ih =>
      rw [List.forall_mem_cons] at hxs
      obtain ⟨⟨a, ha⟩, hxs⟩ := hxs
      rw [List.length_cons] at hn
      have hrest := ih (i + 1) ((a, i) :: seen) hxs (by omega)
      rw [clientViolations, List.countP_append, List.countP_append, countP_rangeViolations hp,
        countP_addressViolation hp (by omega) ha, List.filterMap_cons_some ha, List.toFinset_cons,
        Finset.union_insert, ← Finset.insert_union]
      simp only [ha, List.map_cons, List.toFinset_cons, List.length_cons] at hrest ⊢
      split
      case isTrue hseen =>
          rw [Finset.insert_eq_of_mem (List.mem_toFinset.2 hseen)] at hrest ⊢
          omega
      case isFalse hnew =>
          rw [Finset.card_insert_of_notMem (mt List.mem_toFinset.1 hnew : a ∉ _)] at hrest
          omega

end

end

/-! ### Clients as they are given -/

/-- The least length of prefixes that holds for a client: its own, or else the general one. -/
def leastLength (g : General) (x : Value) (f : Family) : Nat :=
  ((given? x ["cfg", "filtering", rangeName f, "min"]).bind Value.natural?).getD
    (g.filtering.lengths f).min.toNat

/-- The greatest length of prefixes that holds for a client: its own, or else the general one. -/
def greatestLength (g : General) (x : Value) (f : Family) : Nat :=
  ((given? x ["cfg", "filtering", rangeName f, "max"]).bind Value.natural?).getD
    (g.filtering.lengths f).max.toNat

/-- What a field for a number holds that may be inherited. -/
theorem natural?_fill_inherit {doc : Value} {name : String} {least greatest : Nat}
    {names : List String} {given : Option Value} {path : String} {n : UInt8}
    (hdoc : doc.follow? names = some (uint8Value n))
    (h : ((⟨name, .natural least greatest, .inherit names⟩ : Field).fill (some doc) given path).2 =
      []) :
    ((⟨name, .natural least greatest, .inherit names⟩ : Field).fill (some doc) given
      path).1.natural? = some ((given.bind Value.natural?).getD n.toNat) := by
  rw [fill_inherit (isOption_natural least greatest) h, Option.bind_some, hdoc]
  cases given with
  | none => rfl
  | some w =>
      obtain ⟨m, hm, -⟩ :=
        accepts_natural_iff.1 ((walk_clean_iff (some doc) (.natural least greatest) w path).1 h)
      simp [hm]

/-- The field of a bound of a range. -/
theorem at_bound (f : Family) (bound : String) (hbound : bound ∈ ["min", "max"]) :
    At fields ["cfg", "filtering", rangeName f, bound]
      ⟨bound, .natural 0 f.width, .inherit ["filtering", rangeName f, bound]⟩ := by
  have hlengths : At (lengthFields (rangeName f) f.width) [bound]
      ⟨bound, .natural 0 f.width, .inherit ["filtering", rangeName f, bound]⟩ := by
    refine .here (f := ⟨bound, .natural 0 f.width, .inherit ["filtering", rangeName f, bound]⟩)
      (by simp [lengthFields, inherited]) ?_
    rcases List.mem_pair.1 hbound with rfl | rfl <;> simp [lengthFields, inherited]
  have hfiltering : .ofParts (rangeName f) (lengthFields (rangeName f) f.width) ∈
      filteringFields := by
    cases f <;> simp [filteringFields, rangeName, Family.width]
  exact at_cfg (.inside (by decide)
    (show .ofParts "filtering" filteringFields ∈ optionFields by simp [optionFields])
    (.inside (by decide) hfiltering hlengths))

theorem follow?_bound (g : General) (f : Family) :
    g.toValue.follow? ["filtering", rangeName f, "min"] =
        some (uint8Value (g.filtering.lengths f).min) ∧
      g.toValue.follow? ["filtering", rangeName f, "max"] =
        some (uint8Value (g.filtering.lengths f).max) := by
  cases f <;> exact ⟨rfl, rfl⟩

section

variable {g : General} {x : Value}

/-- The bounds of a range in a normal form are those that hold for the client. -/
theorem isReversed_normal_iff (h : (Kind.record fields).Accepts x) (f : Family) :
    IsReversed (((((Kind.record fields).normal (some g.toValue) x).getD "cfg").getD
      "filtering").getD (rangeName f)) ↔ greatestLength g x f < leastLength g x f := by
  have hclean := (walk_clean_iff (some g.toValue) (.record fields) x "").2 h
  have hwalked := walk_fst (some g.toValue) (.record fields) x "" hclean
  obtain ⟨p, hmin, hminClean⟩ := descend_of_walk (at_bound f "min" (by simp)) rfl hclean
  obtain ⟨q, hmax, hmaxClean⟩ := descend_of_walk (at_bound f "max" (by simp)) rfl hclean
  have hleast := natural?_fill_inherit (follow?_bound g f).1 hminClean
  have hgreatest := natural?_fill_inherit (follow?_bound g f).2 hmaxClean
  have hdescend : ∀ w bound, descend w ["cfg", "filtering", rangeName f, bound] =
      (((w.getD "cfg").getD "filtering").getD (rangeName f)).getD bound := fun _ _ => rfl
  rw [← hmin, hwalked, hdescend] at hleast
  rw [← hmax, hwalked, hdescend] at hgreatest
  constructor
  · rintro ⟨min, max, hmin', hmax', hlt⟩
    obtain rfl := Option.some.inj (hmin'.symm.trans hleast)
    obtain rfl := Option.some.inj (hmax'.symm.trans hgreatest)
    exact hlt
  · exact fun hlt => ⟨_, _, hleast, hgreatest, hlt⟩

/-- The address of a client stands in its normal form. -/
theorem addressAt_normal (h : (Kind.record fields).Accepts x) :
    ∃ a, addressAt "ip" x = some a ∧
      addressAt "ip" ((Kind.record fields).normal (some g.toValue) x) = some a :=
  address_of_accepts (some g.toValue) (by decide) (by simp [kept, fields, Kind.isDiscarded]) h

end

/-- Some violations are those of clients: of the addresses that clients in front have, and of the
ranges whose bounds are out of order, each at its place and once. -/
structure AreClashes (g : General) (xs : List Value) (vs : List Violation) : Prop where
  nodup : (vs.map Violation.path).Nodup
  address : ∀ i, addressPath i ∈ vs.map Violation.path ↔ Repeats xs i
  range : ∀ i f, rangePath i f ∈ vs.map Violation.path ↔
    ∃ x, xs[i]? = some x ∧ greatestLength g x f < leastLength g x f
  other : ∀ b ∈ vs, (∃ i, b.path = addressPath i) ∨ ∃ i f, b.path = rangePath i f
  /-- There are as many of addresses as clients beyond the first with their address. -/
  count : (vs.filter fun b => b.path ∈ (List.range xs.length).map addressPath).length =
    xs.length - (xs.filterMap (addressAt "ip")).toFinset.card

section

variable {g : General} {v : Value}

theorem areClashes_crossCheck (h : Conforms document v) :
    AreClashes g (v.getD "clients").items
      (crossCheck ((Kind.record document).normal (some g.toValue) v)) := by
  have hlist : ⟨"clients", .list (.record fields), .emptyList⟩ ∈ kept document := by
    simp [kept, document, Kind.isDiscarded]
  obtain ⟨hitems, hnormal⟩ :=
    items_of_accepts (some g.toValue) (by decide) (.inr rfl) hlist h
  generalize (v.getD "clients").items = xs at hitems hnormal ⊢
  have hdoc : (((Kind.record document).normal (some g.toValue) v).getD "clients").items =
      xs.map ((Kind.record fields).normal (some g.toValue)) := by rw [hnormal]; rfl
  have hsame : ∀ i : Nat, (xs.map ((Kind.record fields).normal (some g.toValue)))[i]?.bind
      (addressAt "ip") = xs[i]?.bind (addressAt "ip") := by
    intro i
    rw [List.getElem?_map]
    cases hx : xs[i]? with
    | none => rfl
    | some x =>
        obtain ⟨a, ha, ha'⟩ := addressAt_normal (g := g) (hitems x (List.mem_of_getElem? hx))
        rw [Option.map_some, Option.bind_some, Option.bind_some, ha, ha']
  refine ⟨nodup_paths _, fun i => ?_, fun i f => ?_, fun b => path_of_mem_crossCheck, ?_⟩
  · rw [addressPath_mem_iff, hdoc]
    simp only [Repeats, hsame]
  · simp only [rangePath_mem_iff, hdoc, List.getElem?_map, Option.map_eq_some_iff]
    constructor
    · rintro ⟨_, ⟨x, hx, rfl⟩, hreversed⟩
      have haccepts := hitems x (List.mem_of_getElem? hx)
      exact ⟨x, hx, (isReversed_normal_iff haccepts f).1 hreversed⟩
    · rintro ⟨x, hx, hlt⟩
      have haccepts := hitems x (List.mem_of_getElem? hx)
      exact ⟨_, ⟨x, hx, rfl⟩, (isReversed_normal_iff haccepts f).2 hlt⟩
  · have hplaces : TellsAddresses xs.length
        fun path => decide (path ∈ (List.range xs.length).map addressPath) := by
      refine ⟨fun k f => decide_eq_false fun hmem => ?_, fun k hk =>
        decide_eq_true (List.mem_map_of_mem (List.mem_range.2 hk))⟩
      obtain ⟨j, -, hj⟩ := List.mem_map.1 hmem
      exact rangePath_ne_addressPath k j f hj.symm
    have haddresses : (xs.map ((Kind.record fields).normal (some g.toValue))).filterMap
        (addressAt "ip") = xs.filterMap (addressAt "ip") := by
      rw [List.filterMap_map]
      refine List.filterMap_congr fun x hx => ?_
      obtain ⟨a, ha, ha'⟩ := addressAt_normal (g := g) (hitems x hx)
      rw [Function.comp_apply, ha, ha']
    have hcount := countP_clientViolations hplaces 0
      (xs.map ((Kind.record fields).normal (some g.toValue))) []
      (List.forall_mem_map.2 fun x hx => (addressAt_normal (hitems x hx)).imp fun _ ha => ha.2)
      (by simp)
    rw [haddresses, List.length_map] at hcount
    rw [crossCheck, hdoc, ← List.countP_eq_length_filter]
    simp only [List.map_nil, List.toFinset_nil, Finset.empty_union, Finset.card_empty] at hcount
    omega

end

/-! ### Clients that are loaded -/

theorem addressAt_eq_given? (v : Value) (name : String) :
    addressAt name v = (given? v [name]).bind address? := by
  rw [addressAt, Value.getD, given?_single]
  cases v.get? name with
  | none => rfl
  | some w =>
      cases hnull : w.isNull with
      | false => rw [Option.filter_some_pos (by simp [hnull])]; rfl
      | true =>
          rw [Option.filter_some_neg (by simp [hnull]), Option.getD_some, address?,
            text?_of_isNull hnull]
          rfl

theorem toNat_of_uint8Value {given : Option Value} {m n : UInt8}
    (h : uint8Value m = given.getD (uint8Value n)) :
    (given.bind Value.natural?).getD n.toNat = m.toNat := by
  cases given with
  | none => exact (Option.some.inj (congrArg Value.natural? h)).symm
  | some w =>
      obtain rfl : uint8Value m = w := h
      rfl

section

variable {g : General} {x : Value} {c : Client} {xs : List Value} {cs : List Client}

theorem lengths_of_holds (h : Holds g x c) (f : Family) :
    leastLength g x f = (c.lengths f).min.toNat ∧
      greatestLength g x f = (c.lengths f).max.toNat := by
  cases f with
  | v4 =>
      have hmin := h.inherited _ (List.mem_of_getElem? (i := 5) rfl)
      have hmax := h.inherited _ (List.mem_of_getElem? (i := 6) rfl)
      exact ⟨toNat_of_uint8Value hmin, toNat_of_uint8Value hmax⟩
  | v6 =>
      have hmin := h.inherited _ (List.mem_of_getElem? (i := 7) rfl)
      have hmax := h.inherited _ (List.mem_of_getElem? (i := 8) rfl)
      exact ⟨toNat_of_uint8Value hmin, toNat_of_uint8Value hmax⟩

/-- Clients without clashes have addresses of their own, and ranges in order. -/
theorem sound_of_noClashes (hall : List.Forall₂ (Holds g) xs cs) (h : AreClashes g xs []) :
    (cs.map Client.ip).Nodup ∧ ∀ c ∈ cs, ∀ f, (c.lengths f).min ≤ (c.lengths f).max := by
  constructor
  · have haddress : ∀ i (hi : i < cs.length), xs[i]?.bind (addressAt "ip") = some cs[i].ip := by
      intro i hi
      have hi' : i < xs.length := hall.length_eq ▸ hi
      have hholds := (List.forall₂_iff_get.1 hall).2 i hi' hi
      rw [List.getElem?_eq_getElem hi', Option.bind_some, addressAt_eq_given?]
      exact hholds.ip
    rw [List.nodup_iff_pairwise_ne, List.pairwise_map, List.pairwise_iff_getElem]
    intro i j hi hj hlt hsame
    have hrepeats : Repeats xs j := ⟨_, haddress j hj, i, hlt, hsame ▸ haddress i hi⟩
    exact nomatch (h.address j).2 hrepeats
  · intro c hc f
    obtain ⟨x, hx, hholds⟩ := Decoded.exists_of_forall₂ hall hc
    obtain ⟨i, hi⟩ := List.getElem?_of_mem hx
    obtain ⟨hleast, hgreatest⟩ := lengths_of_holds hholds f
    rw [UInt8.le_iff_toNat_le, ← hleast, ← hgreatest]
    exact Nat.le_of_not_lt fun hlt => nomatch (h.range i f).2 ⟨x, hi, hlt⟩

end

end Client

open Client

/-- **Clashes.**  A document of clients without tags, of the shape of its schema, is refused with
the clashes of its clients and nothing else, and loaded if there are none.  Clients that are loaded
have addresses of their own, and ranges in order. -/
theorem loadClients_clashes {g : General} {files : Files.Tree} {s : Source} {v : Value}
    (hread : s.read files .clients = .ok v) (hplain : v.isPlain)
    (hconforms : Conforms Client.document v) :
    ∃ vs, AreClashes g (v.getD "clients").items vs ∧
      (vs ≠ [] ∧ loadClients files s g = .error (.invalid DocumentKind.clients.name vs) ∨
        vs = [] ∧ ∃ cs, loadClients files s g = .ok cs ∧ (cs.map Client.ip).Nodup ∧
          ∀ c ∈ cs, ∀ f, (c.lengths f).min ≤ (c.lengths f).max) := by
  have hload : loadClients files s g = acceptClients g v := bind_read hread (acceptClients g)
  have hclashes := areClashes_crossCheck (g := g) hconforms
  refine ⟨_, hclashes, ?_⟩
  rw [hload]
  by_cases hnone : crossCheck ((Kind.record document).normal (some g.toValue) v) = []
  · have hno := not_tagsChoice_of_isPlain (k := .record document) hplain
    obtain ⟨cs, hcs⟩ := (exists_accept_iff suits_document hno).2 ⟨hconforms, hnone⟩
    have hall := holds_of_acceptClients hplain hcs
    exact .inr ⟨hnone, cs, hcs, sound_of_noClashes hall (hnone ▸ hclashes)⟩
  · exact .inl ⟨hnone, accept_of_conforms hconforms hnone⟩

/-! ### Three clients -/

/-- Two clients share an address, which they spell differently, and one has a bound above the
general one. -/
def clashingClients : Value :=
  .ofFields [("clients", .list
    [.ofFields [("asn", .nat 64501), ("ip", .string "2001:db8::1")],
     .ofFields [("asn", .nat 64502), ("ip", .string "192.0.2.2"),
       ("cfg", .ofFields [("filtering", .ofFields
         [("ipv4_pref_len", .ofFields [("min", .nat 25)])])])],
     .ofFields [("asn", .nat 64501), ("ip", .string "2001:DB8:0::1")]])]

theorem loadClients_clashes_three :
    ∃ g, acceptGeneral boundedGeneral = .ok g ∧ ∃ vs,
      loadClients {} (.value clashingClients) g = .error (.invalid "clients" vs) ∧
      AreClashes g (clashingClients.getD "clients").items vs ∧
      vs.map Violation.path = [rangePath 1 .v4, addressPath 2] := by
  have hconforms : Conforms Client.document clashingClients :=
    (walk_clean_iff none (.record Client.document) clashingClients "").1
      (List.isEmpty_iff.1 (by decide +kernel))
  have hrun : (acceptGeneral boundedGeneral).toOption.any fun g =>
      match loadClients {} (.value clashingClients) g with
      | .error (.invalid _ vs) => decide (vs.map Violation.path = [rangePath 1 .v4, addressPath 2])
      | _ => false := by
    decide +kernel
  have hread : (Source.value clashingClients).read {} .clients = .ok clashingClients := rfl
  cases hg : acceptGeneral boundedGeneral with
  | error e => rw [hg] at hrun; cases hrun
  | ok g =>
      rw [hg] at hrun
      obtain ⟨vs, hclashes, ⟨-, hload⟩ | ⟨-, cs, hload, -⟩⟩ :=
        loadClients_clashes (g := g) hread (by decide) hconforms
      · simp only [Except.toOption, Option.any_some, hload] at hrun
        exact ⟨g, rfl, vs, hload, hclashes, of_decide_eq_true hrun⟩
      · simp only [Except.toOption, Option.any_some, hload] at hrun
        cases hrun

end RouteServer.Policy

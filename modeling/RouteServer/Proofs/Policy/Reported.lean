import RouteServer.Proofs.Net.Address
import RouteServer.Proofs.Policy.Accepted
import RouteServer.Proofs.Policy.Constraints

/-!
# Policy — what is reported about a document

A document that breaks a constraint between several fields is refused, whatever else is wrong with
it.  The violation is among those that are reported, with two exceptions (`reported_iff`): where the
walk has refused something at a path with the same text, and where it is about the greatest length
of a ROA without a prefix.
-/

namespace RouteServer.Policy

open RouteServer.Files RouteServer.Net RouteServer.Schema RouteServer.Yaml

/-! ### Items in normal forms -/

theorem le_of_walk_natural {least greatest n : Nat} {parent : Option Value} {v : Value}
    {path : String} (h : ((Kind.natural least greatest).walk parent v path).1.natural? = some n) :
    n ≤ greatest := by
  simp only [Kind.walk] at h
  split at h
  case h_1 m hm =>
      split at h
      case isTrue hbounds =>
          obtain rfl : m = n := Option.some.inj (hm.symm.trans h)
          exact hbounds.2
      case isFalse => cases h
  case h_2 => cases h

/-- The items of a list have been walked; nothing is wrong with one of a list in order. -/
theorem exists_walk_of_mem_items {kind : Kind} {parent : Option Value} {v x : Value} {path : String}
    (h : x ∈ ((Kind.list kind).walk parent v path).1.items) :
    ∃ y p, x = (kind.walk parent y p).1 ∧
      (((Kind.list kind).walk parent v path).2 = [] → (kind.walk parent y p).2 = []) := by
  cases v with
  | list ys =>
      simp only [Kind.walk, Value.items, Value.untagged, List.mem_map, List.mem_mapIdx] at h
      obtain ⟨-, ⟨i, hi, rfl⟩, rfl⟩ := h
      refine ⟨_, _, rfl, fun hclean => ?_⟩
      simp only [Kind.walk, List.flatMap_eq_nil_iff, List.mem_mapIdx] at hclean
      exact hclean _ ⟨i, hi, rfl⟩
  | _ => simp [Kind.walk, refuse, Value.items, Value.untagged] at h

/-- The items of a list in a normal form have been walked. -/
theorem exists_walk_of_mem_field {fields : List Field} {name : String} {kind : Kind}
    {fallback : Fallback} (hnames : (fields.map Field.name).Nodup)
    (hf : ⟨name, .list kind, fallback⟩ ∈ kept fields)
    (hempty : ∀ path, (fallback.value none path).1.items = []) {v x : Value} {path : String}
    (h : x ∈ ((walk none fields v path).1.getD name).items) : ∃ y p, x = (kind.walk none y p).1 := by
  rcases getD_walk none v path hnames hf with hnull | ⟨entries, hwalked⟩
  · rw [walk, hnull] at h
    cases h
  · rw [walk, hwalked] at h
    unfold Field.walked Field.fill at h
    split at h
    · obtain ⟨y, p, hx, -⟩ := exists_walk_of_mem_items h
      exact ⟨y, p, hx⟩
    · rw [if_neg (by simp [Kind.isRecord]), hempty] at h
      cases h

/-- The items of a list in a document in which nothing is wrong are in order, too. -/
theorem exists_clean_of_mem_field {fields : List Field} {name : String} {kind : Kind}
    {fallback : Fallback} (hnames : (fields.map Field.name).Nodup)
    (hf : ⟨name, .list kind, fallback⟩ ∈ kept fields)
    (hempty : ∀ path, (fallback.value none path).1.items = []) {v x : Value} {path : String}
    (hclean : (walk none fields v path).2 = [])
    (hx : x ∈ ((walk none fields v path).1.getD name).items) :
    ∃ y p, x = (kind.walk none y p).1 ∧ (kind.walk none y p).2 = [] := by
  obtain ⟨p, hvalue, hfill⟩ := getD_of_walk hnames hclean hf
  rw [walk, hvalue] at hx
  cases hgiven : given? v [name] with
  | none =>
      rw [hgiven, Field.fill, if_neg (by simp [Kind.isRecord]), hempty] at hx
      cases hx
  | some w =>
      rw [hgiven, Field.fill] at hx hfill
      obtain ⟨y, q, rfl, hall⟩ := exists_walk_of_mem_items hx
      exact ⟨y, q, rfl, hall hfill⟩

theorem exists_address_of_walk {v : Value} {path : String}
    (h : (Kind.address.walk none v path).2 = []) :
    ∃ a, address? (Kind.address.walk none v path).1 = some a := by
  simp only [Kind.walk, walkAddress] at h ⊢
  split at h
  case h_1 a _ =>
      rw [if_pos trivial]
      exact ⟨a, Address.read_text a⟩
  case h_2 => cases h

theorem exists_natural_of_walk {least greatest : Nat} {v : Value} {path : String}
    (h : ((Kind.natural least greatest).walk none v path).2 = []) :
    ∃ n, ((Kind.natural least greatest).walk none v path).1.natural? = some n := by
  simp only [Kind.walk] at h ⊢
  split at h
  case h_1 n hn =>
      split at h
      case isTrue hbounds => exact ⟨n, by rw [if_pos hbounds, hn]⟩
      case isFalse => cases h
  case h_2 => cases h

theorem hasShortLengths_of_walk {document fields : List Field} {list : String} {fallback : Fallback}
    (hnames : (document.map Field.name).Nodup)
    (hlist : ⟨list, .list (.record fields), fallback⟩ ∈ kept document)
    (hempty : ∀ path, (fallback.value none path).1.items = [])
    (hfields : (fields.map Field.name).Nodup)
    (hlength : ⟨"length", .natural 0 128, .required⟩ ∈ kept fields) (v : Value) (path : String) :
    HasShortLengths list (walk none document v path).1 := by
  intro x hx n hn
  obtain ⟨y, p, rfl⟩ := exists_walk_of_mem_field hnames hlist hempty hx
  rcases getD_walk none y p hfields hlength with hnull | ⟨entries, hwalked⟩
  · rw [hnull] at hn
    cases hn
  · rw [hwalked] at hn
    unfold Field.walked Field.fill at hn
    split at hn
    · exact Nat.lt_of_le_of_lt (le_of_walk_natural hn) (by decide)
    · cases hn

theorem Bogon.hasShortLengths (v : Value) :
    HasShortLengths "bogons" (walk none Bogon.document v "").1 := by
  have hlist : ⟨"bogons", .list (.record Bogon.fields), .required⟩ ∈ kept Bogon.document := by
    simp [kept, Bogon.document, Kind.isDiscarded]
  have hlength : ⟨"length", .natural 0 128, .required⟩ ∈ kept Bogon.fields := by
    simp [kept, Bogon.fields, Kind.isDiscarded]
  exact hasShortLengths_of_walk (by decide) hlist (fun _ => rfl) (by decide) hlength v ""

theorem Roa.list_mem_kept :
    ⟨"roas", .list (.record Roa.fields), .emptyList⟩ ∈ kept Roa.document := by
  simp [kept, Roa.document, Kind.isDiscarded]

theorem Roa.length_mem_kept : ⟨"length", .natural 0 128, .required⟩ ∈ kept Roa.fields := by
  simp [kept, Roa.fields, Kind.isDiscarded]

theorem Roa.hasShortLengths (v : Value) :
    HasShortLengths "roas" (walk none Roa.document v "").1 :=
  hasShortLengths_of_walk (by decide) list_mem_kept (fun _ => rfl) (by decide) length_mem_kept v ""

/-- A ROA in a document that the walk accepts has an address and a length. -/
theorem Roa.exists_hasPrefix_of_walk {v x : Value} (h : (walk none Roa.document v "").2 = [])
    (hx : x ∈ ((walk none Roa.document v "").1.getD "roas").items) : ∃ a n, HasPrefix x a n := by
  have haddress : ⟨"prefix", .address, .required⟩ ∈ kept Roa.fields := by
    simp [kept, Roa.fields, Kind.isDiscarded]
  obtain ⟨y, p, rfl, hy⟩ := exists_clean_of_mem_field (by decide) list_mem_kept (fun _ => rfl) h hx
  obtain ⟨w, q, -, hw, hwclean⟩ := given_of_required (by decide) haddress hy
  obtain ⟨a, ha⟩ := exists_address_of_walk hwclean
  obtain ⟨u, r, -, hu, huclean⟩ := given_of_required (by decide) length_mem_kept hy
  obtain ⟨n, hn⟩ := exists_natural_of_walk huclean
  exact ⟨a, n, by rw [addressAt, hw, ha], by rw [hu, hn]⟩

/-! ### Documents with constraints -/

/-- A document whose source is read is loaded as its value is accepted. -/
theorem bind_read {α : Type} {files : Tree} {s : Source} {document : DocumentKind} {v : Value}
    (hread : s.read files document = .ok v) (accept : Value → Loaded α) :
    (do accept (← s.read files document)) = accept v := by
  rw [hread]
  rfl

/-- The documents with constraints that span several fields. -/
inductive Checked where
  | general
  | bogons
  /-- The clients of a general configuration. -/
  | clients (g : General)
  | roas

namespace Checked

/-- Why something has not been loaded. -/
def faultOf {α : Type} : Loaded α → Option LoadFault
  | .ok _ => none
  | .error fault => some fault

theorem eq_error_of_faultOf {α : Type} {x : Loaded α} {fault : LoadFault}
    (h : faultOf x = some fault) : x = .error fault := by
  cases x with
  | ok => cases h
  | error => rw [Option.some.inj h]

def kind : Checked → DocumentKind
  | general => .general
  | bogons => .bogons
  | clients _ => .clients
  | roas => .roas

/-- Why a document cannot be loaded. -/
def fault? (t : Checked) (files : Tree) (s : Source) : Option LoadFault :=
  match t with
  | general => faultOf (loadGeneral files s)
  | bogons => faultOf (loadBogons files s)
  | clients g => faultOf (loadClients files s g)
  | roas => faultOf (loadRoas files s)

/-- The normal form of a document, and the violations of its schema. -/
def walked (t : Checked) (v : Value) : Walked :=
  match t with
  | general => walk none General.document v ""
  | bogons => walk none Bogon.document v ""
  | clients g => walk (some g.toValue) Client.document v ""
  | roas => walk none Roa.document v ""

/-- What breaks the constraints in a normal form. -/
def Breaks (t : Checked) (doc : Value) (b : Violation) : Prop :=
  match t with
  | general => General.Breaks doc b
  | bogons => BreaksPrefix "bogons" doc b
  | clients _ => Client.Breaks doc b
  | roas => Roa.Breaks doc b

/-- What is not looked at. -/
def Hides (t : Checked) (doc : Value) (b : Violation) : Prop :=
  match t with
  | roas => Roa.Hides doc b
  | _ => False

def crossCheck : Checked → Value → List Violation
  | general => General.crossCheck
  | bogons => Bogon.crossCheck
  | clients _ => Client.crossCheck
  | roas => Roa.crossCheck

theorem mem_crossCheck (t : Checked) {v : Value} {b : Violation} :
    b ∈ t.crossCheck (t.walked v).1 ↔ t.Breaks (t.walked v).1 b ∧ ¬ t.Hides (t.walked v).1 b := by
  cases t with
  | general => exact General.mem_crossCheck.trans (and_iff_left not_false).symm
  | bogons =>
      exact (Bogon.mem_crossCheck (Bogon.hasShortLengths v)).trans (and_iff_left not_false).symm
  | clients g => exact Client.mem_crossCheck.trans (and_iff_left not_false).symm
  | roas => exact Roa.mem_crossCheck (Roa.hasShortLengths v)

theorem faultOf_accept {α : Type} {document : DocumentKind} {fields : List Field}
    {parent : Option Value} {check : Value → List Violation} {decode : Value → Decoded α}
    {v : Value}
    (h : mergeViolations (walk parent fields v "").2 (check (walk parent fields v "").1) ≠ []) :
    faultOf (accept document fields parent check decode v) =
      some (.invalid document.name
        (mergeViolations (walk parent fields v "").2 (check (walk parent fields v "").1))) := by
  unfold accept
  generalize walk parent fields v "" = w at h ⊢
  obtain ⟨normal, violations⟩ := w
  obtain ⟨b, bs, hbs⟩ := List.exists_cons_of_ne_nil h
  simp only at hbs ⊢
  rw [hbs]
  rfl

variable {t : Checked} {files : Tree} {s : Source} {v : Value}

/-- All that is found is reported. -/
theorem fault?_eq (hread : s.read files t.kind = .ok v)
    (h : mergeViolations (t.walked v).2 (t.crossCheck (t.walked v).1) ≠ []) :
    t.fault? files s = some (.invalid t.kind.name
      (mergeViolations (t.walked v).2 (t.crossCheck (t.walked v).1))) := by
  cases t with
  | general => exact (congrArg faultOf (bind_read hread acceptGeneral)).trans (faultOf_accept h)
  | bogons => exact (congrArg faultOf (bind_read hread acceptBogons)).trans (faultOf_accept h)
  | clients g => exact (congrArg faultOf (bind_read hread (acceptClients g))).trans (faultOf_accept h)
  | roas => exact (congrArg faultOf (bind_read hread acceptRoas)).trans (faultOf_accept h)

/-- A document that breaks a constraint does not go through: a ROA hides something only where its
prefix is wrong, or the walk has refused a part of it. -/
theorem mergeViolations_ne_nil {b : Violation} (hb : t.Breaks (t.walked v).1 b) :
    mergeViolations (t.walked v).2 (t.crossCheck (t.walked v).1) ≠ [] := by
  intro h
  obtain ⟨hclean, hcross⟩ := mergeViolations_eq_nil_iff.1 h
  have hnone : ∀ c, ¬ (t.Breaks (t.walked v).1 c ∧ ¬ t.Hides (t.walked v).1 c) := fun c hc => by
    simpa [hcross] using t.mem_crossCheck.2 hc
  -- nothing has been found, so the violation can only be hidden
  have hhides : t.Hides (t.walked v).1 b := Classical.byContradiction fun hshown =>
    hnone b ⟨hb, hshown⟩
  cases t with
  | roas =>
      obtain ⟨i, x, -, -, hx, hno, -⟩ := hhides
      obtain ⟨a, n, hparts⟩ :=
        Roa.exists_hasPrefix_of_walk hclean (List.mem_of_getElem? hx)
      have hnot : ¬ IsPrefix a n := fun hok => hno ⟨a, n, hparts, hok⟩
      exact hnone _ ⟨.inl (.mk hx hparts hnot), Roa.not_hides_prefix⟩
  | _ => exact hhides

end Checked

/-- **Reporting.**  A document that breaks a constraint is refused with what its schema finds and
more.  The violation is in it unless it is hidden, or the schema finds something at the same path;
then that is reported there. -/
theorem reported_iff (t : Checked) {files : Tree} {s : Source} {v : Value}
    (hread : s.read files t.kind = .ok v) {b : Violation} (hb : t.Breaks (t.walked v).1 b) :
    ∃ reported, t.fault? files s = some (.invalid t.kind.name ((t.walked v).2 ++ reported)) ∧
      (b ∈ reported ↔
        ¬ t.Hides (t.walked v).1 b ∧ ∀ w ∈ (t.walked v).2, w.path ≠ b.path) ∧
      (¬ t.Hides (t.walked v).1 b → ∃ w ∈ (t.walked v).2 ++ reported, w.path = b.path) := by
  have hreported : ∀ {b}, b ∈ (t.crossCheck (t.walked v).1).filter (fun c =>
      !((t.walked v).2.any fun w => w.path = c.path)) ↔
        b ∈ t.crossCheck (t.walked v).1 ∧ ∀ w ∈ (t.walked v).2, w.path ≠ b.path := by
    simp
  refine ⟨_, Checked.fault?_eq hread (Checked.mergeViolations_ne_nil hb), ?_, fun hshown => ?_⟩
  · rw [hreported, Checked.mem_crossCheck, and_iff_right hb]
  -- either it is reported itself, or what has taken its path is
  · by_cases hpath : ∀ w ∈ (t.walked v).2, w.path ≠ b.path
    · exact ⟨b, List.mem_append_right _
        (hreported.2 ⟨t.mem_crossCheck.2 ⟨hb, hshown⟩, hpath⟩), rfl⟩
    · obtain ⟨w, hw, hsame⟩ := by simpa using hpath
      exact ⟨w, List.mem_append_left _ hw, hsame⟩

/-! ### A range and a ROA -/

/-- A range with its bounds out of order, beside an address that is none. -/
def reversedRange : Value :=
  .ofFields [("cfg", .ofFields [("rs_as", .nat 64500), ("router_id", .string "nowhere"),
    ("filtering", .ofFields [("ipv4_pref_len", .ofFields
      [("min", .nat 30), ("max", .nat 20)])])])]

/-- The range is reported beside the address. -/
theorem reported_iff_reversedRange :
    let t := Checked.general
    let b : Violation := ⟨"cfg.filtering." ++ "ipv4_pref_len", .minAboveMax⟩
    (Source.value reversedRange).read {} t.kind = .ok reversedRange ∧
      t.Breaks (t.walked reversedRange).1 b ∧
      ∃ reported, t.fault? {} (.value reversedRange) =
          some (.invalid t.kind.name ((t.walked reversedRange).2 ++ reported)) ∧
        (b ∈ reported ↔ ¬ t.Hides (t.walked reversedRange).1 b ∧
          ∀ w ∈ (t.walked reversedRange).2, w.path ≠ b.path) ∧
        (¬ t.Hides (t.walked reversedRange).1 b →
          ∃ w ∈ (t.walked reversedRange).2 ++ reported, w.path = b.path) := by
  intro t b
  have hb : t.Breaks (t.walked reversedRange).1 b :=
    .range (by decide) ⟨30, 20, by decide +kernel, by decide +kernel, by decide⟩
  exact ⟨rfl, hb, reported_iff t rfl hb⟩

/-- A ROA with a bit set beyond its length, and a greatest length below that. -/
def narrowRoa : Value :=
  .ofFields [("roas", .list [.ofFields [("prefix", .string "10.0.0.1"), ("length", .nat 8),
    ("max_len", .nat 4), ("asn", .nat 1)]])]

/-- Only the bit is reported, though the walk accepts all that is written. -/
theorem not_reported_narrowRoa :
    let t := Checked.roas
    (t.walked narrowRoa).2 = [] ∧ ∃ b vs, t.Breaks (t.walked narrowRoa).1 b ∧
      b.path = "roas[0].max_len" ∧ t.fault? {} (.value narrowRoa) = some (.invalid "roas" vs) ∧
      ∀ w ∈ vs, w.path ≠ b.path := by
  intro t
  have hclean : (t.walked narrowRoa).2 = [] :=
    List.isEmpty_iff.1 (by decide +kernel)
  have hitem : (((t.walked narrowRoa).1.getD "roas").items[0]?).any fun v => decide
      (addressAt "prefix" v = some (.v4 0x0A000001) ∧ (v.getD "length").natural? = some 8 ∧
        (v.getD "max_len").natural? = some 4) := by
    decide +kernel
  obtain ⟨v, hv, hdata⟩ := (Option.any_eq_true _ _).1 hitem
  obtain ⟨haddress, hlength, hmax⟩ := of_decide_eq_true hdata
  have hb : t.Breaks (t.walked narrowRoa).1 ⟨item "roas" 0 ++ ".max_len", .notBetween 8 32⟩ :=
    .inr (Roa.breaksLength_of_hasPrefix hv ⟨haddress, hlength⟩ hmax (.inl (by decide)))
  have hother : (mergeViolations (t.walked narrowRoa).2 (t.crossCheck (t.walked narrowRoa).1)).all
      fun w => decide (w.path ≠ item "roas" 0 ++ ".max_len") := by
    decide +kernel
  refine ⟨hclean, _, _, hb, by decide +kernel,
    Checked.fault?_eq rfl (Checked.mergeViolations_ne_nil hb), fun w hw => ?_⟩
  exact of_decide_eq_true (List.all_eq_true.1 hother w hw)

end RouteServer.Policy

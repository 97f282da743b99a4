import Mathlib.Data.List.Nodup
import RouteServer.Policy.Client
import RouteServer.Proofs.Text.Numeral

/-!
# Policy — the ids of the clients

The id of a client is its network and which of the clients of that network it is (`idOf`).
Numerals have no underscore, so an id says both (`idOf_inj`), and clients that are numbered have
different ids (`nodup_assignIds`).

The client at a place gets the number behind those of its network in front of it
(`getElem?_assignIdsFrom`).  So numbering looks back only, and at networks only: clients that are
added at the end change nothing in front of them (`assignIdsFrom_append`), and the ids that clients
had before do not matter (`assignIdsFrom_assignIdsFrom_append`).
-/

namespace RouteServer.Policy.Client

open RouteServer.Net RouteServer.Text

/-- The id of a client of a network, by its number there. -/
def idOf (asn : Asn) (k : Nat) : String := Asn.name asn ++ "_" ++ natText k

theorem toList_idOf (asn : Asn) (k : Nat) :
    (idOf asn k).toList = 'A' :: 'S' :: (digits asn.toNat ++ '_' :: digits k) := by
  simp [idOf, Asn.name, Asn.text, toList_natText]

/-- An id says which network and which number it is made of. -/
theorem idOf_inj {asn asn' : Asn} {k k' : Nat} :
    idOf asn k = idOf asn' k' ↔ asn = asn' ∧ k = k' := by
  refine ⟨fun h => ?_, fun h => h.1 ▸ h.2 ▸ rfl⟩
  have hlist := congrArg String.toList h
  simp only [toList_idOf, List.cons.injEq, true_and] at hlist
  have hno : ∀ n, '_' ∉ digits n := notMem_digits (by decide)
  obtain ⟨hasn, -, hk⟩ := (List.append_cons_inj_of_notMem (hno _) (hno _)).1 hlist
  exact ⟨UInt32.toNat_inj.1 (digits_injective hasn), digits_injective hk⟩

/-! ### Places -/

/-- A client has the number behind those of its network that stand in front of it or were counted
before. -/
theorem getElem?_assignIdsFrom (earlier : List Asn) (cs : List Client) (i : Nat) :
    (assignIdsFrom earlier cs)[i]? = cs[i]?.map fun c =>
      { c with
        id := idOf c.asn (earlier.count c.asn + (cs.take i).countP (·.asn = c.asn) + 1) } := by
  induction cs generalizing earlier i with
  | nil => rfl
  | cons d cs ih =>
      cases i with
      | zero => rfl
      | succ i =>
          rw [assignIdsFrom, List.getElem?_cons_succ, ih, List.getElem?_cons_succ,
            List.take_succ_cons]
          refine congrFun (congrArg Option.map (funext fun c => ?_)) _
          -- the first client counts among those in front
          have hcount : (d.asn :: earlier).count c.asn + (cs.take i).countP (·.asn = c.asn) =
              earlier.count c.asn + (d :: cs.take i).countP (·.asn = c.asn) := by
            rw [List.count_cons, List.countP_cons]
            simp only [beq_iff_eq, decide_eq_true_eq]
            omega
          rw [hcount]

/-- Numbering changes nothing but ids. -/
theorem exists_of_mem_assignIdsFrom {earlier : List Asn} {cs : List Client} :
    ∀ c ∈ assignIdsFrom earlier cs,
      ∃ d ∈ cs, ∃ k, earlier.count d.asn < k ∧ c = { d with id := idOf d.asn k } := by
  intro c hc
  obtain ⟨i, hi⟩ := List.mem_iff_getElem?.1 hc
  rw [getElem?_assignIdsFrom, Option.map_eq_some_iff] at hi
  obtain ⟨d, hd, rfl⟩ := hi
  exact ⟨d, List.mem_of_getElem? hd, _, by omega, rfl⟩

/-! ### Ids that differ -/

/-- A client that is numbered comes behind those of its network that were counted before. -/
theorem exists_idOf {earlier : List Asn} {cs : List Client} :
    ∀ c ∈ assignIdsFrom earlier cs, ∃ k, earlier.count c.asn < k ∧ c.id = idOf c.asn k := by
  intro c hc
  obtain ⟨d, -, k, hk, rfl⟩ := exists_of_mem_assignIdsFrom c hc
  exact ⟨k, hk, rfl⟩

theorem nodup_assignIdsFrom (earlier : List Asn) (cs : List Client) :
    ((assignIdsFrom earlier cs).map Client.id).Nodup := by
  induction cs generalizing earlier with
  | nil => exact .nil
  | cons d cs ih =>
      rw [assignIdsFrom, List.map_cons, List.nodup_cons]
      refine ⟨fun hmem => ?_, ih _⟩
      obtain ⟨c, hc, hid⟩ := List.mem_map.1 hmem
      -- a later client of the network has a greater number
      obtain ⟨k, hk, hc⟩ := exists_idOf c hc
      obtain ⟨hasn, rfl⟩ := idOf_inj.1 (hc.symm.trans hid)
      rw [hasn, List.count_cons_self] at hk
      exact Nat.lt_irrefl _ hk

/-- **Clients have different ids.** -/
theorem nodup_assignIds (cs : List Client) : ((assignIds cs).map Client.id).Nodup :=
  nodup_assignIdsFrom [] cs

/-! ### Numbering more clients, and numbering again -/

/-- Clients behind others are numbered as if those had been counted before. -/
theorem assignIdsFrom_append (earlier : List Asn) (cs more : List Client) :
    assignIdsFrom earlier (cs ++ more) =
      assignIdsFrom earlier cs ++ assignIdsFrom ((cs.map Client.asn).reverse ++ earlier) more := by
  induction cs generalizing earlier with
  | nil => rfl
  | cons d cs ih => simp [assignIdsFrom, ih]

/-- Clients that have been numbered are numbered as they would have been before. -/
theorem assignIdsFrom_assignIdsFrom_append (earlier counted : List Asn) (cs more : List Client) :
    assignIdsFrom earlier (assignIdsFrom counted cs ++ more) =
      assignIdsFrom earlier (cs ++ more) := by
  induction cs generalizing earlier counted with
  | nil => rfl
  | cons d cs ih => simp [assignIdsFrom, ih]

/-! ### The client with an id -/

/-- Where no id stands twice, an id leads to the client that carries it. -/
theorem withId?_eq_some_iff {cs : List Client} (h : (cs.map Client.id).Nodup) {id : String}
    {c : Client} : withId? cs id = some c ↔ c ∈ cs ∧ c.id = id := by
  constructor
  · intro hfound
    exact ⟨List.mem_of_find?_eq_some hfound, by simpa using List.find?_some hfound⟩
  · rintro ⟨hc, rfl⟩
    have hsome : (withId? cs c.id).isSome := List.find?_isSome.2 ⟨c, hc, decide_eq_true rfl⟩
    obtain ⟨d, hd⟩ := Option.isSome_iff_exists.1 hsome
    have hid : d.id = c.id := by simpa using List.find?_some hd
    rw [hd, List.inj_on_of_nodup_map h (List.mem_of_find?_eq_some hd) hc hid]

theorem withId?_eq_none_iff {cs : List Client} {id : String} :
    withId? cs id = none ↔ id ∉ cs.map Client.id := by
  simp [withId?, List.find?_eq_none]

/-- **Ids.**  The client at a place has the id `AS<asn>_<n>`, where `n` is one more than the number
of clients of its network in front of it, and is otherwise as it was.  No id stands twice, so an id
leads to the client that carries it, and any other text to none.  Clients that are added at the end
change none of the clients in front, and numbering again changes nothing. -/
theorem ids_assignIds (cs : List Client) :
    (∀ i : Nat, (assignIds cs)[i]? = cs[i]?.map fun c =>
      { c with
        id := "AS" ++ natText c.asn.toNat ++ "_" ++
          natText ((cs.take i).countP (·.asn = c.asn) + 1) }) ∧
    ((assignIds cs).map Client.id).Nodup ∧
    (∀ id,
      (∀ c, withId? (assignIds cs) id = some c ↔ c ∈ assignIds cs ∧ c.id = id) ∧
      (withId? (assignIds cs) id = none ↔ id ∉ (assignIds cs).map Client.id)) ∧
    (∀ more, assignIds cs <+: assignIds (cs ++ more) ∧
      assignIds (assignIds cs ++ more) = assignIds (cs ++ more)) ∧
    assignIds (assignIds cs) = assignIds cs := by
  have hnodup := nodup_assignIds cs
  refine ⟨fun i => ?_, hnodup, fun id => ⟨fun c => withId?_eq_some_iff hnodup, withId?_eq_none_iff⟩,
    fun more => ⟨?_, assignIdsFrom_assignIdsFrom_append [] [] cs more⟩, ?_⟩
  · have hplace := getElem?_assignIdsFrom [] cs i
    simp only [List.count_nil, Nat.zero_add] at hplace
    exact hplace
  · exact ⟨_, (assignIdsFrom_append [] cs more).symm⟩
  · have hagain := assignIdsFrom_assignIdsFrom_append [] [] cs []
    rwa [List.append_nil, List.append_nil] at hagain

end RouteServer.Policy.Client

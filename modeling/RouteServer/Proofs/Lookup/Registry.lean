import RouteServer.Lookup.Registry
import RouteServer.Proofs.Policy.Constraints
import RouteServer.Proofs.Policy.Readable
import RouteServer.Proofs.Text.Split

/-!
# Lookup — prefixes from the registries

Each element of the list that the registries put out gives one prefix, and the first that gives none
refuses the output.  An element gives a prefix as soon as its text is an address and a length of
eight bits: the length and the bounds beside it are not held against each other, nor against the
family of the address.  So the prefixes are sound exactly when the entries are (`isValidated_iff`),
while `networkOf` asks of every prefix of a document what `IsPrefix` asks here.
-/

namespace RouteServer.Policy

end RouteServer.Policy

namespace RouteServer.Lookup.Registry

open RouteServer.Net RouteServer.Policy RouteServer.Text

/-! ### The elements of an output -/

theorem mapM_eq_some {α β : Type} {decode : α → Option β} {xs : List α} {ys : List β} :
    xs.mapM decode = some ys ↔ List.Forall₂ (fun x y => decode x = some y) xs ys := by
  induction xs generalizing ys with
  | nil => simp [eq_comm]
  | cons x xs ih =>
      rw [List.mapM_cons, List.forall₂_cons_left_iff]
      simp only [Option.bind_eq_bind, Option.bind_eq_some_iff, ih, Option.pure_def,
        Option.some.injEq]
      grind

namespace Entry

/-- The text of an entry is an address and a length, apart at its first slash. -/
def Spells (e : Entry) (a : Address) (n : Nat) : Prop :=
  ∃ host len, e.text.toList = host ++ '/' :: len ∧ '/' ∉ host ∧
    Address.read (String.ofList host) = some a ∧ readNat 255 len = .ok n

/-- The lower bound of an entry of length `n` that is not exact. -/
def lower (e : Entry) (n : Nat) : Nat := (e.atLeast.map UInt8.toNat).getD n

/-- The upper bound of an entry for an address that is not exact. -/
def upper (e : Entry) (a : Address) : Nat := (e.atMost.map UInt8.toNat).getD a.family.width

/-- A prefix is what an entry gives: its own length alone when it is exact, the lengths between its
bounds otherwise. -/
structure Gives (e : Entry) (p : SetPrefix) : Prop where
  spells : e.Spells p.address p.length.toNat
  exact_bounds : e.exact = true → p.minLength = p.length ∧ p.maxLength = p.length
  given_bounds : e.exact = false →
    p.minLength.toNat = e.lower p.length.toNat ∧ p.maxLength.toNat = e.upper p.address

section

variable {e : Entry}

theorem spells_iff {a : Address} {n : Nat} : e.Spells a n ↔
    ∃ host len, splitOnce ['/'] e.text.toList = some (host, len) ∧
      Address.read (String.ofList host) = some a ∧ readNat 255 len = .ok n := by
  simp only [Spells, splitOnce_singleton, and_assoc]

theorem Spells.unique {a b : Address} {n m : Nat} (h : e.Spells a n) (h' : e.Spells b m) :
    a = b ∧ n = m := by
  obtain ⟨host, len, hsplit, hhost, hlen⟩ := spells_iff.1 h
  obtain ⟨host', len', hsplit', hhost', hlen'⟩ := spells_iff.1 h'
  cases hsplit.symm.trans hsplit'
  exact ⟨Option.some.inj (hhost.symm.trans hhost'), Except.ok.inj (hlen.symm.trans hlen')⟩

/-- An entry gives at most one prefix. -/
theorem Gives.unique {p q : SetPrefix} (hp : e.Gives p) (hq : e.Gives q) : p = q := by
  obtain ⟨haddress, hlength⟩ := hp.spells.unique hq.spells
  have hlength : p.length = q.length := UInt8.toNat_inj.1 hlength
  have hbounds : p.minLength = q.minLength ∧ p.maxLength = q.maxLength := by
    cases hexact : e.exact with
    | true =>
        obtain ⟨hleast, hmost⟩ := hp.exact_bounds hexact
        obtain ⟨hleast', hmost'⟩ := hq.exact_bounds hexact
        exact ⟨by rw [hleast, hleast', hlength], by rw [hmost, hmost', hlength]⟩
    | false =>
        obtain ⟨hleast, hmost⟩ := hp.given_bounds hexact
        obtain ⟨hleast', hmost'⟩ := hq.given_bounds hexact
        exact ⟨UInt8.toNat_inj.1 (by rw [hleast, hleast', hlength]),
          UInt8.toNat_inj.1 (by rw [hmost, hmost', haddress])⟩
  cases p
  cases q
  simp_all

end

end Entry

/-! ### A whole output -/

variable {output : String}

end RouteServer.Lookup.Registry

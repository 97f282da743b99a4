import RouteServer.Lookup.Codec
import RouteServer.Json.Basic
import RouteServer.Proofs.Dictionary
import RouteServer.Proofs.Json.RoundTrip
import RouteServer.Proofs.Net.Address

/-!
# Lookup — answers survive being kept

A codec is *faithful* when an answer can be decoded from what it was encoded as, and when this is a
value that the text of a record gives back unchanged: canonical, its numbers words, and of bounded
depth.  The codecs of the three kinds of answers are faithful, that of an answer that may be missing
because no record of the directory is encoded as null.
-/

namespace RouteServer.Json

theorem mem_itemTokens {t : Token} : ∀ {vs : List Json}, t ∈ itemTokens vs →
    t = .comma ∨ ∃ v ∈ vs, t ∈ v.tokens
  | [v], h => .inr ⟨v, by simp, h⟩
  | v :: w :: ws, h => by
      simp only [itemTokens, List.mem_append, List.mem_cons] at h
      rcases h with h | rfl | h
      · exact .inr ⟨v, by simp, h⟩
      · exact .inl rfl
      · rcases mem_itemTokens h with h | ⟨x, hx, ht⟩
        · exact .inl h
        · exact .inr ⟨x, List.mem_cons_of_mem v hx, ht⟩

theorem mem_memberTokens {t : Token} : ∀ {ms : List (String × Json)}, t ∈ memberTokens ms →
    t = .comma ∨ t = .colon ∨ (∃ name, t = .string name) ∨ ∃ m ∈ ms, t ∈ m.2.tokens
  | [(name, v)], h => by
      simp only [memberTokens, List.mem_cons] at h
      rcases h with rfl | rfl | h
      · exact .inr (.inr (.inl ⟨name, rfl⟩))
      · exact .inr (.inl rfl)
      · exact .inr (.inr (.inr ⟨(name, v), by simp, h⟩))
  | (name, v) :: k :: ks, h => by
      simp only [memberTokens, List.cons_append, List.mem_append, List.mem_cons] at h
      rcases h with rfl | rfl | h | rfl | h
      · exact .inr (.inr (.inl ⟨name, rfl⟩))
      · exact .inr (.inl rfl)
      · exact .inr (.inr (.inr ⟨(name, v), by simp, h⟩))
      · exact .inl rfl
      · rcases mem_memberTokens h with h | h | h | ⟨x, hx, ht⟩
        · exact .inl h
        · exact .inr (.inl h)
        · exact .inr (.inr (.inl h))
        · exact .inr (.inr (.inr ⟨x, List.mem_cons_of_mem _ hx, ht⟩))

theorem itemsDepth_le {n : Nat} {vs : List Json} (h : ∀ v ∈ vs, depth v ≤ n) : itemsDepth vs ≤ n := by
  induction vs with
  | nil => exact Nat.zero_le n
  | cons v vs ih =>
      exact Nat.max_le.2 ⟨h v List.mem_cons_self, ih fun w hw => h w (List.mem_cons_of_mem v hw)⟩

theorem canonicalItems_of {vs : List Json} (h : ∀ v ∈ vs, canonical v = v) :
    canonicalItems vs = vs := by
  induction vs with
  | nil => rfl
  | cons v vs ih =>
      rw [canonicalItems, h v List.mem_cons_self, ih fun w hw => h w (List.mem_cons_of_mem v hw)]

theorem canonicalMembers_of {ms : List (String × Json)} (h : ∀ m ∈ ms, canonical m.2 = m.2) :
    canonicalMembers ms = ms := by
  induction ms with
  | nil => rfl
  | cons m ms ih =>
      obtain ⟨name, v⟩ := m
      rw [canonicalMembers, h _ List.mem_cons_self, ih fun w hw => h w (List.mem_cons_of_mem _ hw)]

/-- An object whose members are in the order of their names, and canonical, is canonical. -/
theorem canonical_object {ms : List (String × Json)} (h : ∀ m ∈ ms, canonical m.2 = m.2)
    (hs : (ms.map (·.1)).Pairwise (· < ·)) : canonical (.object ms) = .object ms := by
  rw [canonical, canonicalMembers_of h, Dictionary.entries_ofList (List.pairwise_map.1 hs)]

theorem nat?_nat (n : Nat) : (nat n).nat? = some n := rfl

theorem uint32?_nat (n : UInt32) : uint32? (nat n.toNat) = some n := by
  simp [uint32?, nat?_nat, UInt32.toNat_lt n]

theorem uint8?_nat (n : UInt8) : uint8? (nat n.toNat) = some n := by
  simp [uint8?, nat?_nat, UInt8.toNat_lt n]

theorem optional?_of_ne_null {α : Type} (decode : Json → Option α) {v : Json} (h : v ≠ .null) :
    optional? decode (some v) = (decode v).map some := by
  cases v with
  | null => exact absurd rfl h
  | _ => rfl

theorem isKept_nat {n : Nat} (h : n ≤ Text.maxWord64) : ∀ t ∈ (nat n).tokens, t.IsKept := by
  intro t ht
  rw [List.mem_singleton.1 ht]
  exact ⟨n, h, rfl⟩

theorem isKept_object {ms : List (String × Json)} (h : ∀ m ∈ ms, ∀ t ∈ m.2.tokens, t.IsKept) :
    ∀ t ∈ (object ms).tokens, t.IsKept := by
  intro t ht
  simp only [tokens, List.cons_append, List.mem_cons, List.mem_append, List.not_mem_nil,
    or_false] at ht
  rcases ht with rfl | ht | rfl
  · trivial
  · rcases mem_memberTokens ht with rfl | rfl | ⟨name, rfl⟩ | ⟨m, hm, ht⟩
    · trivial
    · trivial
    · trivial
    · exact h m hm t ht
  · trivial

end RouteServer.Json

namespace RouteServer.Lookup.Codec

open RouteServer.Json RouteServer.Net RouteServer.Policy

variable {α : Type}

/-- An answer can be kept as text and found again; its text is at most `n` deep. -/
structure Faithful (c : Codec α) (n : Nat) : Prop where
  decode_encode : ∀ x, c.decode (c.encode x) = some x
  canonical_encode : ∀ x, (c.encode x).canonical = c.encode x
  isKept : ∀ x, ∀ t ∈ (c.encode x).tokens, t.IsKept
  depth_le : ∀ x, depth (c.encode x) ≤ n

theorem Faithful.mono {c : Codec α} {m n : Nat} (h : Faithful c m) (hn : m ≤ n) : Faithful c n where
  decode_encode := h.decode_encode
  canonical_encode := h.canonical_encode
  isKept := h.isKept
  depth_le x := Nat.le_trans (h.depth_le x) hn

/-- What is kept of an answer holds the answer. -/
theorem Faithful.decode_canonical {c : Codec α} {n : Nat} (h : Faithful c n) (x : α) :
    c.decode (c.encode x).canonical = some x := by
  rw [h.canonical_encode x, h.decode_encode x]

theorem uint32_faithful : Faithful uint32 0 where
  decode_encode := uint32?_nat
  canonical_encode _ := rfl
  isKept x := isKept_nat (by have := x.toNat_lt; simp only [Text.maxWord64]; omega)
  depth_le _ := Nat.le_refl 0

theorem list_faithful {c : Codec α} {n : Nat} (h : Faithful c n) : Faithful (list c) (n + 1) where
  decode_encode xs := by
    have hmap : (xs.map c.encode).mapM c.decode = some xs := by
      induction xs with
      | nil => rfl
      | cons x xs ih => rw [List.map_cons, List.mapM_cons, h.decode_encode, ih]; rfl
    exact hmap
  canonical_encode xs := by
    have : canonicalItems (xs.map c.encode) = xs.map c.encode := canonicalItems_of fun v hv => by
      obtain ⟨x, -, rfl⟩ := List.mem_map.1 hv
      exact h.canonical_encode x
    simp only [list, canonical, this]
  isKept xs t ht := by
    simp only [list, tokens, List.cons_append, List.mem_cons, List.mem_append, List.not_mem_nil,
      or_false] at ht
    rcases ht with rfl | ht | rfl
    · trivial
    · rcases mem_itemTokens ht with rfl | ⟨v, hv, ht⟩
      · trivial
      · obtain ⟨x, -, rfl⟩ := List.mem_map.1 hv
        exact h.isKept x t ht
    · trivial
  depth_le xs := Nat.succ_le_succ <| itemsDepth_le fun v hv => by
    obtain ⟨x, -, rfl⟩ := List.mem_map.1 hv
    exact h.depth_le x

theorem setPrefix_faithful : Faithful setPrefix 1 where
  decode_encode p := by
    simp [setPrefix, setPrefix?, record?, prefixFields, ofObject?, string?, Address.read_text,
      uint8?_nat]
  canonical_encode p := canonical_object (by simp [canonical, nat])
    (by simp only [List.map_cons, List.map_nil]; decide)
  isKept p := isKept_object fun m hm => by
    have hword : ∀ n : UInt8, n.toNat ≤ Text.maxWord64 := fun n => by
      have := n.toNat_lt; simp only [Text.maxWord64]; omega
    simp only [List.mem_cons, List.not_mem_nil, or_false] at hm
    rcases hm with rfl | rfl | rfl | rfl
    · exact isKept_nat (hword _)
    · exact isKept_nat (hword _)
    · exact isKept_nat (hword _)
    · intro t ht
      rw [List.mem_singleton.1 ht]
      trivial
  depth_le p := Nat.le_refl 1

/-- A number of thirty-two bits that may be missing. -/
theorem optional?_nat (n : Option UInt32) :
    optional? uint32? (some (.ofOption (fun n : UInt32 => nat n.toNat) n)) = some n := by
  cases n with
  | none => rfl
  | some n => rw [ofOption, optional?_of_ne_null _ Json.noConfusion, uint32?_nat]; rfl

theorem netRecord_faithful : Faithful netRecord 1 where
  decode_encode r := by
    simp [netRecord, net?, record?, netFields, ofObject?, optional?_nat, uint32?_nat]
  canonical_encode r := by
    have hopt : ∀ n : Option UInt32,
        canonical (.ofOption (fun n : UInt32 => nat n.toNat) n) =
          .ofOption (fun n : UInt32 => nat n.toNat) n := fun n => by cases n <;> rfl
    refine canonical_object (fun m hm => ?_) (by simp only [List.map_cons, List.map_nil]; decide)
    simp only [List.mem_cons, List.not_mem_nil, or_false] at hm
    rcases hm with rfl | rfl | rfl
    · rfl
    · exact hopt _
    · exact hopt _
  isKept r := isKept_object fun m hm => by
    have hword : ∀ n : UInt32, n.toNat ≤ Text.maxWord64 := fun n => by
      have := n.toNat_lt; simp only [Text.maxWord64]; omega
    have hopt : ∀ n : Option UInt32,
        ∀ t ∈ (Json.ofOption (fun n : UInt32 => nat n.toNat) n).tokens, t.IsKept := by
      intro n t ht
      cases n with
      | none => rw [List.mem_singleton.1 ht]; trivial
      | some n => exact isKept_nat (hword n) t ht
    simp only [List.mem_cons, List.not_mem_nil, or_false] at hm
    rcases hm with rfl | rfl | rfl
    · exact isKept_nat (hword _)
    · exact hopt _
    · exact hopt _
  depth_le r := by
    obtain ⟨asn, v4, v6⟩ := r
    cases v4 <;> cases v6 <;> exact Nat.le_refl 1

/-- Answers that are never null may be missing. -/
theorem option_faithful {c : Codec α} {n : Nat} (h : Faithful c n) (hnull : ∀ x, c.encode x ≠ .null) :
    Faithful (option c) n where
  decode_encode x := by
    cases x with
    | none => rfl
    | some x => exact (optional?_of_ne_null _ (hnull x)).trans (by rw [h.decode_encode]; rfl)
  canonical_encode x := by
    cases x with
    | none => rfl
    | some x => exact h.canonical_encode x
  isKept x := by
    cases x with
    | none => intro t ht; rw [List.mem_singleton.1 ht]; trivial
    | some x => exact h.isKept x
  depth_le x := by
    cases x with
    | none => exact Nat.zero_le n
    | some x => exact h.depth_le x

end RouteServer.Lookup.Codec

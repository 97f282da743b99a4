import RouteServer.Policy.AsSet
import RouteServer.Policy.Community
import RouteServer.Proofs.Policy.Decoded
import RouteServer.Proofs.Text.Numeral
import RouteServer.Proofs.Text.Split

/-!
# Policy — texts with numbers

Encodings of communities, names of networks and their numbers are texts with numbers in them
(`NumberText`).  The documented form of such a text (`NumberText.HasForm`) says how it is put
together and between which bounds its numbers are, and leaves open what a number looks like.

A text is accepted when it has the form with numbers that may have a plus sign in front.  So the
texts of the form with plain decimals are the accepted ones without a plus sign
(`NumberText.accepts_iff_form`), and not all that are accepted
(`NumberText.not_decimal_signed`).
-/

namespace RouteServer.Policy

open RouteServer.Net RouteServer.Schema RouteServer.Text RouteServer.Yaml

/-! ### The documented forms -/

/-- The last part of an encoding: a number, or the macro that stands for the number of a peer. -/
def OrPeer (P : String → Prop) (part : String) : Prop := part = "peer_as" ∨ P part

/-- What the parts of an encoding have to be, where `number` says what a number is between two
bounds. -/
def Community.Encoding.parts (number : Nat → Nat → String → Prop) :
    Community.Encoding → List (String → Prop)
  | .std => [number 0 maxWord16, OrPeer (number 0 maxWord16)]
  | .lrg => [number 0 maxWord32, number 0 maxWord32, OrPeer (number 0 maxWord32)]
  | .ext => [fun type => type = "rt" ∨ type = "ro", number 0 maxWord32,
      OrPeer (number 0 maxWord32)]

/-- The texts of the documents that have numbers in them. -/
inductive NumberText where
  | encoding (kind : Community.Encoding)
  /-- The name of a network, as the key of what it has registered. -/
  | asnKey
  /-- The number of a network. -/
  | asn

namespace NumberText

/-- A text is accepted where one of the kind is wanted. -/
def Accepts : NumberText → String → Prop
  | encoding kind, s => ∃ t, Community.check kind s = .ok t
  | asnKey, s => ∃ t, AsnInfo.checkKey s = .ok t
  | asn, s => ∃ n, asn? (.string s) = some n

/-- A text has the documented form, where `number` says what a number is between two bounds. -/
def HasForm (number : Nat → Nat → String → Prop) : NumberText → String → Prop
  | encoding kind, s =>
    ∃ ps, s = ":".intercalate ps ∧ List.Forall₂ (fun P p => P p) (kind.parts number) ps
  | asnKey, s => ∃ n, s = "AS" ++ n ∧ number 1 maxWord32 n
  | asn, s => ∃ lead n, lead ∈ ["", "AS", "as"] ∧ s = lead ++ n ∧ number 1 maxWord32 n

/-! ### Encodings -/

section Encodings

variable {max : Nat} {part : String} {kind : Community.Encoding} {ps : List String}

theorem isNumber_iff (hmax : max ≤ maxWord64) :
    Community.isNumber max part = true ↔ IsSigned 0 max part := by
  rw [isSigned_iff hmax, Community.isNumber]
  cases readNat maxWord64 part.toList <;> simp [Except.toOption]

theorem checkAsn_eq_ok_iff (hmax : max ≤ maxWord64) :
    Community.checkAsn max part = .ok () ↔ IsSigned 0 max part := by
  rw [← isNumber_iff hmax, Community.checkAsn]
  split <;> simp_all

theorem checkValue_eq_ok_iff (hmax : max ≤ maxWord64) :
    Community.checkValue max part = .ok () ↔ IsSigned 0 max part := by
  rw [← isNumber_iff hmax, Community.checkValue]
  split <;> simp_all

theorem checkLast_eq_ok_iff (hmax : max ≤ maxWord64) :
    Community.checkLast max part = .ok () ↔ OrPeer (IsSigned 0 max) part := by
  rw [OrPeer, ← checkValue_eq_ok_iff hmax, Community.checkLast, Community.peerMacro]
  split <;> simp_all

/-- The parts of an encoding are checked one by one. -/
theorem checkParts_eq_ok_iff : Community.checkParts kind ps = .ok () ↔
    List.Forall₂ (fun P p => P p) (kind.parts IsSigned) ps := by
  have h16 : maxWord16 ≤ maxWord64 := by decide
  have h32 : maxWord32 ≤ maxWord64 := by decide
  unfold Community.checkParts
  split
  case h_1 =>
      simp [Community.Encoding.parts, Decoded.bind_eq_ok, checkAsn_eq_ok_iff h16,
        checkLast_eq_ok_iff h16]
  case h_2 =>
      simp [Community.Encoding.parts, Decoded.bind_eq_ok, checkAsn_eq_ok_iff h32,
        checkValue_eq_ok_iff h32, checkLast_eq_ok_iff h32]
  case h_3 type asn value =>
      by_cases htype : type = "rt" ∨ type = "ro" <;>
        simp [Community.Encoding.parts, Decoded.bind_eq_ok, checkAsn_eq_ok_iff h32,
          checkLast_eq_ok_iff h32, htype]
  case h_4 hstd hlrg hext =>
      -- No form has this number of parts.
      refine iff_of_false nofun fun h => ?_
      cases kind with
      | std =>
          obtain _ | ⟨-, _ | ⟨-, _ | _⟩⟩ := h
          exact hstd _ _ rfl rfl
      | lrg =>
          obtain _ | ⟨-, _ | ⟨-, _ | ⟨-, _ | _⟩⟩⟩ := h
          exact hlrg _ _ _ rfl rfl
      | ext =>
          obtain _ | ⟨-, _ | ⟨-, _ | ⟨-, _ | _⟩⟩⟩ := h
          exact hext _ _ _ rfl rfl

/-- What holds of numbers and of the words of encodings holds of the parts of encodings. -/
theorem forall_of_parts {number : Nat → Nat → String → Prop} {Q : String → Prop}
    (hnumber : ∀ {least greatest part}, number least greatest part → Q part)
    (hwords : ∀ word ∈ ["peer_as", "rt", "ro"], Q word)
    (h : List.Forall₂ (fun P p => P p) (kind.parts number) ps) : ∀ p ∈ ps, Q p := by
  have hlast : ∀ {greatest part}, OrPeer (number 0 greatest) part → Q part := by
    rintro _ _ (rfl | h)
    · exact hwords _ (by simp)
    · exact hnumber h
  have htype : ∀ {part}, part = "rt" ∨ part = "ro" → Q part := by
    rintro _ (rfl | rfl) <;> exact hwords _ (by simp)
  cases kind with
  | std =>
      obtain _ | ⟨hasn, _ | ⟨hvalue, _ | _⟩⟩ := h
      simpa using ⟨hnumber hasn, hlast hvalue⟩
  | lrg =>
      obtain _ | ⟨hasn, _ | ⟨hvalue, _ | ⟨hend, _ | _⟩⟩⟩ := h
      simpa using ⟨hnumber hasn, hnumber hvalue, hlast hend⟩
  | ext =>
      obtain _ | ⟨hkind, _ | ⟨hasn, _ | ⟨hvalue, _ | _⟩⟩⟩ := h
      simpa using ⟨htype hkind, hnumber hasn, hlast hvalue⟩

theorem parts_mono {number number' : Nat → Nat → String → Prop}
    (h : List.Forall₂ (fun P p => P p) (kind.parts number) ps)
    (hmono : ∀ p ∈ ps, ∀ {least greatest}, number least greatest p → number' least greatest p) :
    List.Forall₂ (fun P p => P p) (kind.parts number') ps := by
  cases kind with
  | std =>
      obtain _ | ⟨hasn, _ | ⟨hvalue, _ | _⟩⟩ := h
      exact .cons (hmono _ (by simp) hasn) (.cons (hvalue.imp_right (hmono _ (by simp))) .nil)
  | lrg =>
      obtain _ | ⟨hasn, _ | ⟨hvalue, _ | ⟨hend, _ | _⟩⟩⟩ := h
      exact .cons (hmono _ (by simp) hasn) (.cons (hmono _ (by simp) hvalue)
        (.cons (hend.imp_right (hmono _ (by simp))) .nil))
  | ext =>
      obtain _ | ⟨hkind, _ | ⟨hasn, _ | ⟨hvalue, _ | _⟩⟩⟩ := h
      exact .cons hkind (.cons (hmono _ (by simp) hasn)
        (.cons (hvalue.imp_right (hmono _ (by simp))) .nil))

theorem check_eq_ok_iff {s : String} :
    (∃ t, Community.check kind s = .ok t) ↔ Community.checkParts kind (pieces ':' s) = .ok () := by
  unfold Community.check
  cases Community.checkParts kind (pieces ':' s) <;> simp

theorem accepts_encoding_iff {s : String} :
    (encoding kind).Accepts s ↔ (encoding kind).HasForm IsSigned s := by
  rw [Accepts, check_eq_ok_iff, checkParts_eq_ok_iff, HasForm]
  have hjoin : ∀ ps : List String, s = ":".intercalate ps ↔
      s.toList = [':'].intercalate (ps.map String.toList) := fun ps => by
    rw [← String.toList_inj, String.toList_intercalate]
    rfl
  constructor
  · intro h
    have hne : pieces ':' s ≠ [] := by simp [pieces, splitAt_ne_nil]
    exact ⟨_, (hjoin _).2 ((pieces_eq_iff hne).1 rfl).1, h⟩
  · rintro ⟨ps, hs, h⟩
    have hne : ps ≠ [] := by
      rintro rfl
      cases kind <;> cases h
    have hcolon : ∀ p ∈ ps, ':' ∉ p.toList :=
      forall_of_parts (fun hp => hp.notMem (by decide) (by decide)) (by decide) h
    rwa [(pieces_eq_iff hne).2 ⟨(hjoin ps).1 hs, hcolon⟩]

end Encodings

/-! ### Names and numbers of networks -/

section Networks

variable {s : String}

theorem accepts_asnKey_iff : asnKey.Accepts s ↔ asnKey.HasForm IsSigned s := by
  simp only [Accepts, HasForm, isSigned_iff (Nat.le_refl maxWord32), ← afterStart_eq_some_iff]
  unfold AsnInfo.checkKey
  cases afterStart "AS" s with
  | none => simp [AsnInfo.checkKey.refused]
  | some n =>
      cases hn : readNat maxWord32 n.toList with
      | error => simp [AsnInfo.checkKey.refused, hn]
      | ok k =>
          have hk := le_of_readNat hn
          by_cases hpos : 0 < k <;> simp [AsnInfo.checkKey.refused, hn, hpos, hk] <;> omega

theorem ofNat?_eq_some_iff {k : Nat} : (∃ n, Asn.ofNat? k = some n) ↔ 1 ≤ k ∧ k ≤ maxWord32 := by
  unfold Asn.ofNat?
  split <;> simp_all [Nat.succ_le_iff]

/-- What is left of a text without the lead that the number of a network may have. -/
def withoutLead (cs : List Char) : List Char :=
  ((stripStart ['A', 'S'] cs).orElse fun _ => stripStart ['a', 's'] cs).getD cs

theorem withoutLead_of_lead {lead n : String} (hlead : lead ∈ ["AS", "as"]) :
    withoutLead (lead ++ n).toList = n.toList := by
  rcases List.mem_pair.1 hlead with rfl | rfl <;> simp [withoutLead, stripStart]

/-- No number starts with a lead. -/
theorem withoutLead_of_isSigned {least greatest : Nat} {n : String}
    (hn : IsSigned least greatest n) : withoutLead n.toList = n.toList := by
  have hno : ∀ c cs, c.isDigit = false → c ≠ '+' → stripStart (c :: cs) n.toList = none := by
    intro c cs hdigit hplus
    rw [Option.eq_none_iff_forall_not_mem]
    intro rest hrest
    exact hn.notMem hdigit hplus (stripStart_eq_some_iff.1 hrest ▸ List.mem_cons_self)
  rw [withoutLead, hno 'A' _ (by decide) (by decide), hno 'a' _ (by decide) (by decide)]
  rfl

theorem exists_lead (cs : List Char) :
    ∃ lead ∈ ["", "AS", "as"], cs = lead.toList ++ withoutLead cs := by
  unfold withoutLead
  cases hupper : stripStart ['A', 'S'] cs with
  | some rest => exact ⟨"AS", by simp, stripStart_eq_some_iff.1 hupper⟩
  | none =>
      cases hlower : stripStart ['a', 's'] cs with
      | some rest => exact ⟨"as", by simp, stripStart_eq_some_iff.1 hlower⟩
      | none => exact ⟨"", by simp, rfl⟩

theorem accepts_asn_iff : asn.Accepts s ↔ asn.HasForm IsSigned s := by
  have hread : asn.Accepts s ↔ IsSigned 1 maxWord32 (String.ofList (withoutLead s.toList)) := by
    rw [isSigned_iff (show maxWord32 ≤ maxWord64 by decide), String.toList_ofList]
    show (∃ n, (readNat maxWord64 (withoutLead s.toList)).toOption.bind Asn.ofNat? = some n) ↔ _
    cases readNat maxWord64 (withoutLead s.toList) with
    | error => simp [Except.toOption]
    | ok k => simpa [Except.toOption] using ofNat?_eq_some_iff
  rw [hread, HasForm]
  constructor
  · intro h
    obtain ⟨lead, hlead, hs⟩ := exists_lead s.toList
    exact ⟨lead, _, hlead, by rw [← String.toList_inj]; simpa using hs, h⟩
  · rintro ⟨lead, n, hlead, rfl, hn⟩
    have hleft : withoutLead (lead ++ n).toList = n.toList := by
      rcases List.mem_cons.1 hlead with rfl | hlead
      · rw [String.empty_append, withoutLead_of_isSigned hn]
      · exact withoutLead_of_lead hlead
    rwa [hleft, String.ofList_toList]

end Networks

/-! ### Signs -/

theorem accepts_iff_signed (t : NumberText) (s : String) : t.Accepts s ↔ t.HasForm IsSigned s := by
  cases t with
  | encoding kind => exact accepts_encoding_iff
  | asnKey => exact accepts_asnKey_iff
  | asn => exact accepts_asn_iff

/-- Numbers are plain in a text just when there is no plus sign in it. -/
theorem hasForm_decimal_iff (t : NumberText) (s : String) :
    t.HasForm IsDecimal s ↔ t.HasForm IsSigned s ∧ '+' ∉ s.toList := by
  cases t with
  | encoding kind =>
      have hplus : ∀ ps : List String, '+' ∉ (":".intercalate ps).toList ↔
          ∀ p ∈ ps, '+' ∉ p.toList := fun ps => by
        rw [String.toList_intercalate, show ":".toList = [':'] from rfl,
          mem_intercalate_iff (by decide)]
        simp
      constructor
      · rintro ⟨ps, rfl, h⟩
        refine ⟨⟨ps, rfl, parts_mono h fun p _ _ _ hp => (isDecimal_iff_isSigned.1 hp).1⟩, ?_⟩
        exact (hplus ps).2 (forall_of_parts (fun hp => hp.notMem (by decide)) (by decide) h)
      · rintro ⟨⟨ps, rfl, h⟩, hno⟩
        refine ⟨ps, rfl, parts_mono h fun p hp _ _ hsigned => ?_⟩
        exact isDecimal_iff_isSigned.2 ⟨hsigned, (hplus ps).1 hno p hp⟩
  | asnKey =>
      simp only [HasForm, isDecimal_iff_isSigned]
      constructor
      · rintro ⟨n, rfl, h, hno⟩
        exact ⟨⟨n, rfl, h⟩, by simpa using hno⟩
      · rintro ⟨⟨n, rfl, h⟩, hno⟩
        exact ⟨n, rfl, h, by simpa using hno⟩
  | asn =>
      have hplus : ∀ lead ∈ ["", "AS", "as"], '+' ∉ lead.toList := by decide
      simp only [HasForm, isDecimal_iff_isSigned]
      constructor
      · rintro ⟨lead, n, hlead, rfl, h, hno⟩
        exact ⟨⟨lead, n, hlead, rfl, h⟩, by simpa using ⟨hplus lead hlead, hno⟩⟩
      · rintro ⟨⟨lead, n, hlead, rfl, h⟩, hno⟩
        refine ⟨lead, n, hlead, rfl, h, fun hmem => hno ?_⟩
        simp [hmem]

/-- **Texts with numbers.**  Accepted is what has the documented form with numbers that may have a
plus sign in front; the form with plain decimals is that of the accepted texts without a plus
sign. -/
theorem accepts_iff_form (t : NumberText) (s : String) :
    (t.Accepts s ↔ t.HasForm IsSigned s) ∧
      (t.HasForm IsDecimal s ↔ t.Accepts s ∧ '+' ∉ s.toList) := by
  have haccepts := t.accepts_iff_signed s
  exact ⟨haccepts, by rw [haccepts, hasForm_decimal_iff]⟩

/-- A plus sign in front of a number is accepted. -/
theorem not_decimal_signed :
    ¬ ∀ (t : NumberText) (s : String), t.Accepts s ↔ t.HasForm IsDecimal s := by
  intro h
  have haccepts : (encoding .std).Accepts "+64500:1" := ⟨"+64500:1", by decide⟩
  have hform := (hasForm_decimal_iff _ _).1 ((h _ _).1 haccepts)
  exact absurd hform.2 (by decide)

end NumberText

end RouteServer.Policy

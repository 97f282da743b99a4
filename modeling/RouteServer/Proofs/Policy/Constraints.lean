import RouteServer.Policy.Source
import RouteServer.Proofs.Text.Numeral

/-!
# Policy — constraints that span several fields

What the normal form of a document has to satisfy beside its schema, said without the order in which
a check goes through it: ranges with their bounds in order, a next hop where one is to be put, the
macro for peers exactly where it belongs, texts and addresses used once, lengths that fit.

The checks find what breaks these (`General.mem_crossCheck`, `Client.mem_crossCheck`,
`Bogon.mem_crossCheck`), with one exception: of a ROA without a prefix the greatest length is not
looked at (`Roa.mem_crossCheck`).
-/

namespace RouteServer.Policy

open RouteServer.Net RouteServer.Schema RouteServer.Text RouteServer.Yaml

/-! ### What has been seen in front -/

/-- The last element of a list with a key, with those in front of it. -/
structure LastWith {α κ : Type} (key : α → Option κ) (k : κ) (xs front : List α) (x : α) : Prop where
  key_eq : key x = some k
  split : ∃ back, xs = front ++ x :: back ∧ ∀ y ∈ back, key y ≠ some k

section Scan

variable {α κ β : Type} {key : α → Option κ} {val : Nat → α → β}

theorem lastWith_cons {k : κ} {x y : α} {xs front : List α} :
    LastWith key k (x :: xs) front y ↔
      (∃ rest, front = x :: rest ∧ LastWith key k xs rest y) ∨
        front = [] ∧ y = x ∧ key x = some k ∧ ∀ z ∈ xs, key z ≠ some k := by
  constructor
  · rintro ⟨hkey, back, hsplit, hback⟩
    cases front with
    | nil =>
        obtain ⟨rfl, rfl⟩ := List.cons.inj hsplit
        exact .inr ⟨rfl, rfl, hkey, hback⟩
    | cons z rest =>
        obtain ⟨rfl, rfl⟩ := List.cons.inj hsplit
        exact .inl ⟨rest, rfl, hkey, back, rfl, hback⟩
  · rintro (⟨rest, rfl, hkey, back, rfl, hback⟩ | ⟨rfl, rfl, hkey, hback⟩)
    · exact ⟨hkey, back, rfl, hback⟩
    · exact ⟨hkey, xs, rfl, hback⟩

theorem not_lastWith_nil {k : κ} {front : List α} {x : α} : ¬ LastWith key k [] front x := by
  rintro ⟨-, back, hsplit, -⟩
  simp at hsplit

/-- Where a key is there at all, it is there for the last time. -/
theorem exists_lastWith {k : κ} {x : α} {xs : List α} (hx : x ∈ xs) (hkey : key x = some k) :
    ∃ front y, LastWith key k xs front y := by
  induction xs generalizing x with
  | nil => cases hx
  | cons z xs ih =>
      -- the last one is behind the head if there is another one at all
      by_cases hlater : ∃ y ∈ xs, key y = some k
      · obtain ⟨y, hy, hy'⟩ := hlater
        obtain ⟨front, w, hw⟩ := ih hy hy'
        exact ⟨z :: front, w, lastWith_cons.2 (.inl ⟨front, rfl, hw⟩)⟩
      · have hnone : ∀ y ∈ xs, key y ≠ some k := fun y hy h => hlater ⟨y, hy, h⟩
        rcases List.mem_cons.1 hx with rfl | hx
        · exact ⟨[], x, lastWith_cons.2 (.inr ⟨rfl, rfl, hkey, hnone⟩)⟩
        · exact absurd hkey (hnone x hx)

variable (key val)

/-- What a scan has noted once it has passed the `i`-th element. -/
def note (i : Nat) (x : α) (seen : List (κ × β)) : List (κ × β) :=
  match key x with
  | some k => (k, val i x) :: seen
  | none => seen

/-- What a scan from the `i`-th element on has noted, the last element first. -/
def noted : Nat → List α → List (κ × β) → List (κ × β)
  | _, [], seen => seen
  | i, x :: xs, seen => noted (i + 1) xs (note key val i x seen)

/-- **What a scan finds** it finds at an element, with what has been noted in front of it. -/
theorem mem_scan {γ : Type} (find : Nat → List α → List (κ × β) → List γ)
    (P : Nat → α → List (κ × β) → γ → Prop) (hnil : ∀ i seen, find i [] seen = [])
    (hcons : ∀ i x xs seen c, c ∈ find i (x :: xs) seen ↔
      P i x seen c ∨ c ∈ find (i + 1) xs (note key val i x seen))
    (i : Nat) (xs : List α) (seen : List (κ × β)) (c : γ) :
    c ∈ find i xs seen ↔ ∃ front x back, xs = front ++ x :: back ∧
      P (i + front.length) x (noted key val i front seen) c := by
  induction xs generalizing i seen with
  | nil => simp [hnil]
  | cons x xs ih =>
      have hindex : ∀ n, i + 1 + n = i + (n + 1) := by omega
      -- the accumulator changes along the list, so the induction is for all of them
      rw [hcons, ih]
      constructor
      · rintro (h | ⟨front, y, back, rfl, h⟩)
        · exact ⟨[], x, xs, rfl, h⟩
        · refine ⟨x :: front, y, back, rfl, ?_⟩
          rwa [List.length_cons, ← hindex]
      · rintro ⟨front, y, back, hsplit, h⟩
        cases front with
        | nil =>
            obtain ⟨rfl, rfl⟩ := List.cons.inj hsplit
            exact .inl h
        | cons z front =>
            obtain ⟨rfl, rfl⟩ := List.cons.inj hsplit
            refine .inr ⟨front, y, back, rfl, ?_⟩
            rwa [List.length_cons, ← hindex] at h

variable {key val} [BEq κ] [LawfulBEq κ] {k : κ} {b : β}

theorem lookup_note {i : Nat} {x : α} {seen : List (κ × β)} :
    (note key val i x seen).lookup k = some b ↔
      key x = some k ∧ b = val i x ∨ key x ≠ some k ∧ seen.lookup k = some b := by
  cases hx : key x with
  | none => simp [note, hx]
  | some l =>
      by_cases hl : k = l
      · simp [note, hx, hl, eq_comm]
      · have hne : (k == l) = false := beq_false_of_ne hl
        simp [note, hx, List.lookup_cons, hne, Ne.symm hl]

/-- What is found among the things noted is the last one, or from before. -/
theorem lookup_noted (i : Nat) (xs : List α) (seen : List (κ × β)) :
    (noted key val i xs seen).lookup k = some b ↔
      (∃ front x, LastWith key k xs front x ∧ b = val (i + front.length) x) ∨
        (∀ y ∈ xs, key y ≠ some k) ∧ seen.lookup k = some b := by
  induction xs generalizing i seen with
  | nil => simp [noted, not_lastWith_nil]
  | cons x xs ih =>
      -- the head is the last one with the key only if no other element has it
      have hlast : (∃ front y, LastWith key k (x :: xs) front y ∧ b = val (i + front.length) y) ↔
          (∃ front y, LastWith key k xs front y ∧ b = val (i + 1 + front.length) y) ∨
            key x = some k ∧ (∀ y ∈ xs, key y ≠ some k) ∧ b = val i x := by
        have hindex : ∀ n, i + 1 + n = i + (n + 1) := by omega
        constructor
        · rintro ⟨front, y, h, rfl⟩
          rcases lastWith_cons.1 h with ⟨rest, rfl, hrest⟩ | ⟨rfl, rfl, hkey, hback⟩
          · exact .inl ⟨rest, y, hrest, by rw [hindex, List.length_cons]⟩
          · exact .inr ⟨hkey, hback, rfl⟩
        · rintro (⟨rest, y, h, rfl⟩ | ⟨hkey, hback, rfl⟩)
          · exact ⟨x :: rest, y, lastWith_cons.2 (.inl ⟨rest, rfl, h⟩), by
              rw [hindex, List.length_cons]⟩
          · exact ⟨[], x, lastWith_cons.2 (.inr ⟨rfl, rfl, hkey, hback⟩), rfl⟩
      rw [noted, ih, lookup_note, hlast, List.forall_mem_cons]
      constructor
      · rintro (h | ⟨hxs, ⟨hkey, hb⟩ | ⟨hkey, hseen⟩⟩)
        · exact .inl (.inl h)
        · exact .inl (.inr ⟨hkey, hxs, hb⟩)
        · exact .inr ⟨⟨hkey, hxs⟩, hseen⟩
      · rintro ((h | ⟨hkey, hxs, hb⟩) | ⟨⟨hkey, hxs⟩, hseen⟩)
        · exact .inl h
        · exact .inr ⟨hxs, .inl ⟨hkey, hb⟩⟩
        · exact .inr ⟨hxs, .inr ⟨hkey, hseen⟩⟩

end Scan

/-! ### Ranges -/

/-- The bounds of a range of prefix lengths are out of order. -/
def IsReversed (range : Value) : Prop :=
  ∃ min max, (range.getD "min").natural? = some min ∧ (range.getD "max").natural? = some max ∧
    max < min

theorem isReversed_iff {range : Value} : General.isReversed range = true ↔ IsReversed range := by
  unfold General.isReversed IsReversed
  cases (range.getD "min").natural? <;> cases (range.getD "max").natural? <;> simp

/-! ### The general configuration -/

namespace General

/-- An encoding with its place and the community it belongs to. -/
abbrev Encoded := String × Community.Definition × String

namespace Encoded

/-- The text of an encoding, as it is noted. -/
def key (e : Encoded) : Option String := some e.2.2

/-- The name of its community. -/
def user (_ : Nat) (e : Encoded) : String := e.2.1.name

end Encoded

/-- The encoding of a community in a normal form. -/
def encodingAt (doc : Value) (d : Community.Definition) (kind : Community.Encoding) :
    Option String :=
  ((((doc.getD "cfg").getD "communities").getD d.name).getD kind.name).text?

/-- The place of an encoding. -/
def encodingPath (d : Community.Definition) (kind : Community.Encoding) : String :=
  "cfg.communities." ++ d.name ++ "." ++ kind.name

/-- What is wrong where the macro stands and should not, or the other way round. -/
def macroCause (d : Community.Definition) : Cause :=
  if d.peerAs then .peerMacroRequired else .peerMacroForbidden

theorem mem_encodings {doc : Value} {path text : String} {d : Community.Definition} :
    ((path, d, text) : Encoded) ∈ encodings (doc.getD "cfg") ↔ d ∈ Community.builtin ∧
      ∃ kind, path = encodingPath d kind ∧ encodingAt doc d kind = some text := by
  have hkinds : ∀ kind, kind ∈ [Community.Encoding.std, .ext, .lrg] := by
    intro kind
    cases kind <;> simp
  simp only [encodings, List.mem_flatMap, List.mem_filterMap, Option.map_eq_some_iff]
  constructor
  · rintro ⟨d', hd, kind, -, s, hs, heq⟩
    obtain ⟨rfl, hrest⟩ := Prod.mk.inj heq
    obtain ⟨rfl, rfl⟩ := Prod.mk.inj hrest
    exact ⟨hd, kind, rfl, hs⟩
  · rintro ⟨hd, kind, rfl, htext⟩
    exact ⟨d, hd, kind, hkinds kind, text, htext, rfl⟩

/-- What is wrong between the fields of a general configuration. -/
inductive Breaks (doc : Value) : Violation → Prop
  | range {name : String} (hname : name ∈ rangeNames)
    (h : IsReversed (((doc.getD "cfg").getD "filtering").getD name)) :
    Breaks doc ⟨"cfg.filtering." ++ name, .minAboveMax⟩
  | nextHop {n : String} (hn : n ∈ ["4", "6"])
    (hpolicy : (((doc.getD "cfg").getD "blackhole_filtering").getD ("policy_ipv" ++ n)).text? =
      some BlackholePolicy.rewriteNextHop.text)
    (hnull : (((doc.getD "cfg").getD "blackhole_filtering").getD
      ("rewrite_next_hop_ipv" ++ n)).isNull = true) :
    Breaks doc ⟨"cfg.blackhole_filtering." ++ ("rewrite_next_hop_ipv" ++ n),
      .nextHopRequired ("policy_ipv" ++ n)⟩
  | peerMacro {d : Community.Definition} {kind : Community.Encoding} {text : String}
    (hd : d ∈ Community.builtin) (htext : encodingAt doc d kind = some text)
    (h : Community.namesPeer text ≠ d.peerAs) : Breaks doc ⟨encodingPath d kind, macroCause d⟩
  | used {front back before : List Encoded} {e other : Encoded}
    (hsplit : encodings (doc.getD "cfg") = front ++ e :: back)
    (h : LastWith Encoded.key e.2.2 front before other) :
    Breaks doc ⟨e.1, .communityUsed e.2.2 other.2.1.name⟩

/-- A text that two encodings have is reported at the second one. -/
theorem breaks_of_same_text {doc : Value} {front back : List Encoded} {e other : Encoded}
    (hsplit : encodings (doc.getD "cfg") = front ++ e :: back) (hother : other ∈ front)
    (htext : other.2.2 = e.2.2) :
    ∃ name, Breaks doc ⟨e.1, .communityUsed e.2.2 name⟩ := by
  obtain ⟨before, last, hlast⟩ := exists_lastWith hother
    (show Encoded.key other = some e.2.2 from congrArg some htext)
  exact ⟨_, .used hsplit hlast⟩

/-- What is found at one encoding; `used` holds the texts that have been used, with the communities
that used them. -/
def FoundAt (e : Encoded) (used : List (String × String)) (b : Violation) : Prop :=
  Community.namesPeer e.2.2 ≠ e.2.1.peerAs ∧ b = ⟨e.1, macroCause e.2.1⟩ ∨
  ∃ other, used.lookup e.2.2 = some other ∧ b = ⟨e.1, .communityUsed e.2.2 other⟩

theorem mem_encodingViolations_cons (e : Encoded) (es : List Encoded)
    (used : List (String × String)) (b : Violation) :
    b ∈ encodingViolations (e :: es) used ↔
      FoundAt e used b ∨ b ∈ encodingViolations es ((e.2.2, e.2.1.name) :: used) := by
  obtain ⟨path, d, text⟩ := e
  rw [encodingViolations, FoundAt, macroCause]
  cases Community.namesPeer text <;> cases d.peerAs <;> cases used.lookup text <;>
    simp [or_assoc]

/-- The checks of encodings, one after the other. -/
theorem mem_encodingViolations {es : List Encoded} {b : Violation} :
    b ∈ encodingViolations es [] ↔ ∃ front e back, es = front ++ e :: back ∧
      (Community.namesPeer e.2.2 ≠ e.2.1.peerAs ∧ b = ⟨e.1, macroCause e.2.1⟩ ∨
       ∃ before other, LastWith Encoded.key e.2.2 front before other ∧
         b = ⟨e.1, .communityUsed e.2.2 other.2.1.name⟩) := by
  have hscan := mem_scan Encoded.key Encoded.user (fun _ => encodingViolations) (fun _ => FoundAt)
    (fun _ _ => rfl) (fun _ => mem_encodingViolations_cons) 0 es [] b
  rw [hscan]
  simp only [FoundAt, lookup_noted, List.lookup_nil, and_false, or_false, reduceCtorEq,
    Encoded.user]
  refine exists_congr fun front => exists_congr fun e => exists_congr fun back => and_congr_right
    fun _ => or_congr_right ?_
  constructor
  · rintro ⟨_, ⟨before, other, h, rfl⟩, rfl⟩
    exact ⟨before, other, h, rfl⟩
  · rintro ⟨before, other, h, rfl⟩
    exact ⟨_, ⟨before, other, h, rfl⟩, rfl⟩

/-- **The checks of a general configuration** find just what is wrong between its fields. -/
theorem mem_crossCheck {doc : Value} {b : Violation} : b ∈ crossCheck doc ↔ Breaks doc b := by
  simp only [crossCheck, List.mem_append, rangeViolations, nextHopViolations, List.mem_filterMap,
    mem_encodingViolations, Option.ite_none_right_eq_some, Option.some.injEq, isReversed_iff]
  constructor
  · rintro ((⟨name, hname, h, rfl⟩ | ⟨n, hn, ⟨hpolicy, hnull⟩, rfl⟩) |
      ⟨front, ⟨path, d, text⟩, back, hsplit, ⟨h, rfl⟩ | ⟨before, other, h, rfl⟩⟩)
    · exact .range hname h
    · exact .nextHop hn hpolicy hnull
    · have hmem : ((path, d, text) : Encoded) ∈ encodings (doc.getD "cfg") := by simp [hsplit]
      obtain ⟨hd, kind, rfl, htext⟩ := mem_encodings.1 hmem
      exact .peerMacro hd htext h
    · exact .used hsplit h
  · rintro (⟨hname, h⟩ | ⟨hn, hpolicy, hnull⟩ | @⟨d, kind, text, hd, htext, h⟩ | ⟨hsplit, h⟩)
    · exact .inl (.inl ⟨_, hname, h, rfl⟩)
    · exact .inl (.inr ⟨_, hn, ⟨hpolicy, hnull⟩, rfl⟩)
    · have hmem := mem_encodings.2 ⟨hd, kind, rfl, htext⟩
      obtain ⟨front, back, hsplit⟩ := List.append_of_mem hmem
      exact .inr ⟨front, (encodingPath d kind, d, text), back, hsplit, .inl ⟨h, rfl⟩⟩
    · exact .inr ⟨_, _, _, hsplit, .inr ⟨_, _, h, rfl⟩⟩

end General

/-! ### Clients -/

namespace Client

/-- What is wrong with a client, after those in front of it, or between its own fields. -/
inductive Breaks (doc : Value) : Violation → Prop
  | address {front back before : List Value} {v w : Value} {a : Address}
    (hsplit : (doc.getD "clients").items = front ++ v :: back) (hv : addressAt "ip" v = some a)
    (h : LastWith (addressAt "ip") a front before w) :
    Breaks doc ⟨item "clients" front.length ++ ".ip", .addressUsed a before.length⟩
  | range {front back : List Value} {v : Value} {name : String}
    (hsplit : (doc.getD "clients").items = front ++ v :: back)
    (hname : name ∈ General.rangeNames)
    (h : IsReversed (((v.getD "cfg").getD "filtering").getD name)) :
    Breaks doc ⟨item "clients" front.length ++ ".cfg.filtering." ++ name, .rangeReversed⟩

/-- An address that two clients have is reported at the second one. -/
theorem breaks_of_same_address {doc : Value} {front back : List Value} {v w : Value} {a : Address}
    (hsplit : (doc.getD "clients").items = front ++ v :: back) (hv : addressAt "ip" v = some a)
    (hw : w ∈ front) (hsame : addressAt "ip" w = some a) :
    ∃ first, Breaks doc ⟨item "clients" front.length ++ ".ip", .addressUsed a first⟩ := by
  obtain ⟨before, last, hlast⟩ := exists_lastWith hw hsame
  exact ⟨_, .address hsplit hv hlast⟩

/-- What is found at one client; `seen` holds the addresses in front, with their places. -/
def FoundAt (i : Nat) (v : Value) (seen : List (Address × Nat)) (b : Violation) : Prop :=
  b ∈ addressViolation (item "clients" i) v seen ∨ b ∈ rangeViolations (item "clients" i) v

theorem mem_clientViolations_cons (i : Nat) (v : Value) (vs : List Value)
    (seen : List (Address × Nat)) (b : Violation) :
    b ∈ clientViolations i (v :: vs) seen ↔ FoundAt i v seen b ∨
      b ∈ clientViolations (i + 1) vs (note (addressAt "ip") (fun i _ => i) i v seen) := by
  rw [clientViolations, List.mem_append, List.mem_append, note]
  cases addressAt "ip" v <;> rfl

theorem mem_addressViolation {path : String} {v : Value} {seen : List (Address × Nat)}
    {b : Violation} :
    b ∈ addressViolation path v seen ↔ ∃ a first, addressAt "ip" v = some a ∧
      seen.lookup a = some first ∧ b = ⟨path ++ ".ip", .addressUsed a first⟩ := by
  unfold addressViolation
  cases hv : addressAt "ip" v with
  | none => simp
  | some a => cases hs : seen.lookup a <;> simp [hs]

/-- **The checks of the clients** find just what is wrong with them. -/
theorem mem_crossCheck {doc : Value} {b : Violation} : b ∈ crossCheck doc ↔ Breaks doc b := by
  have hscan := mem_scan (addressAt "ip") (fun i _ => i) clientViolations FoundAt (fun _ _ => rfl)
    mem_clientViolations_cons 0 (doc.getD "clients").items [] b
  rw [crossCheck, hscan]
  simp only [FoundAt, mem_addressViolation, lookup_noted, rangeViolations, List.mem_filterMap,
    Option.ite_none_right_eq_some, Option.some.injEq, isReversed_iff, List.lookup_nil, and_false,
    or_false, reduceCtorEq, Nat.zero_add]
  constructor
  · rintro ⟨front, v, back, hsplit, ⟨a, first, hv, ⟨before, w, h, rfl⟩, rfl⟩ | ⟨name, hname, h, rfl⟩⟩
    · exact .address hsplit hv h
    · exact .range hsplit hname h
  · rintro (⟨hsplit, hv, h⟩ | ⟨hsplit, hname, h⟩)
    · exact ⟨_, _, _, hsplit, .inl ⟨_, _, hv, ⟨_, _, h, rfl⟩, rfl⟩⟩
    · exact ⟨_, _, _, hsplit, .inr ⟨_, hname, h, rfl⟩⟩

end Client

/-! ### Prefixes -/

/-- A length that fits the family of an address, with no bit beyond it set. -/
def IsPrefix (a : Address) (n : Nat) : Prop :=
  n ≤ a.family.width ∧ a.toNat % 2 ^ (a.family.width - n) = 0

/-- Why an address and a length are no prefix. -/
def prefixCause (a : Address) (n : Nat) : Cause :=
  if n ≤ a.family.width then .hostBits a n else .lengthTooLong a n

theorem prefixCause_ne_notBetween {a : Address} {n least greatest : Nat} :
    prefixCause a n ≠ .notBetween least greatest := by
  unfold prefixCause
  split <;> nofun

/-- A place in an item of a list says which item it is. -/
theorem item_append_inj {path s t : String} {i j : Nat}
    (h : item path i ++ s = item path j ++ t) : i = j ∧ s = t := by
  have hclose : ∀ n, ']' ∉ digits n := notMem_digits (by decide)
  have hchars : digits i ++ ']' :: s.toList = digits j ++ ']' :: t.toList := by
    have hall := congrArg String.toList h
    simpa [item, toList_natText] using hall
  have hindex : ∀ n (cs : List Char), (digits n ++ ']' :: cs).takeWhile (· ≠ ']') = digits n := by
    intro n cs
    rw [List.takeWhile_append_of_pos fun c hc => decide_eq_true (ne_of_mem_of_not_mem hc (hclose n))]
    simp
  have hdigits := (hindex i s.toList).symm.trans
    ((congrArg (List.takeWhile (· ≠ ']')) hchars).trans (hindex j t.toList))
  obtain rfl := digits_injective hdigits
  exact ⟨rfl, String.toList_inj.1 (List.cons.inj (List.append_cancel_left hchars)).2⟩

theorem item_injective (path : String) : Function.Injective (item path) := fun _ _ h =>
  (item_append_inj (congrArg (· ++ "") h)).1

theorem networkOf_of_isPrefix {a : Address} {n : Nat} (h : IsPrefix a n) :
    ∃ net, networkOf a n = .ok net := by
  obtain ⟨hlength, hbits⟩ := h
  have hclear : (⟨a, n, hlength⟩ : Network).hasHostBits = false :=
    decide_eq_false fun h => h hbits
  exact ⟨⟨a, n, hlength⟩, by simp [networkOf, Network.ofLength?, hlength, hclear]⟩

theorem networkOf_of_not_isPrefix {a : Address} {n : Nat} (h : ¬ IsPrefix a n) :
    networkOf a n = .error (prefixCause a n) := by
  by_cases hlength : n ≤ a.family.width
  · have hset : (⟨a, n, hlength⟩ : Network).hasHostBits = true :=
      decide_eq_true fun hbits => h ⟨hlength, hbits⟩
    simp [networkOf, Network.ofLength?, prefixCause, hlength, hset]
  · simp [networkOf, Network.ofLength?, prefixCause, hlength]

/-- An item of a list has an address and a length. -/
structure HasPrefix (v : Value) (a : Address) (n : Nat) : Prop where
  address : addressAt "prefix" v = some a
  length : (v.getD "length").natural? = some n

theorem HasPrefix.unique {v : Value} {a b : Address} {n m : Nat} (h : HasPrefix v a n)
    (h' : HasPrefix v b m) :
    a = b ∧ n = m :=
  ⟨Option.some.inj (h.address.symm.trans h'.address),
    Option.some.inj (h.length.symm.trans h'.length)⟩

theorem exists_hasPrefix_iff {v : Value} {a : Address} {n : Nat} (h : HasPrefix v a n)
    {P : Address → Nat → Prop} : (∃ a n, HasPrefix v a n ∧ P a n) ↔ P a n := by
  constructor
  · rintro ⟨a', n', h', hp⟩
    obtain ⟨rfl, rfl⟩ := h'.unique h
    exact hp
  · exact fun hp => ⟨a, n, h, hp⟩

/-- What holds only of an item with an address and a length holds of these. -/
theorem iff_exists_hasPrefix {v : Value} {q : Prop} {P : Address → Nat → Prop}
    (hlength : lengthAt "length" v = (v.getD "length").natural?)
    (hnone : addressAt "prefix" v = none ∨ lengthAt "length" v = none → ¬ q)
    (hsome : ∀ a n, addressAt "prefix" v = some a → lengthAt "length" v = some n → (q ↔ P a n)) :
    q ↔ ∃ a n, HasPrefix v a n ∧ P a n := by
  cases ha : addressAt "prefix" v with
  | none =>
      refine iff_of_false (hnone (.inl ha)) ?_
      rintro ⟨a, n, h, -⟩
      cases ha.symm.trans h.address
  | some a =>
      cases hn : lengthAt "length" v with
      | none =>
          refine iff_of_false (hnone (.inr hn)) ?_
          rintro ⟨a, n, h, -⟩
          cases (hn.symm.trans hlength).trans h.length
      | some n => rw [exists_hasPrefix_iff ⟨ha, hlength.symm.trans hn⟩, hsome a n ha hn]

/-- An item of a list is no prefix. -/
inductive BreaksPrefix (list : String) (doc : Value) : Violation → Prop
  | mk {i : Nat} {v : Value} {a : Address} {n : Nat} (hv : (doc.getD list).items[i]? = some v)
    (hparts : HasPrefix v a n) (h : ¬ IsPrefix a n) :
    BreaksPrefix list doc ⟨item list i, prefixCause a n⟩

theorem mem_itemViolations {list : String} {check : String → Value → List Violation} {doc : Value}
    {b : Violation} :
    b ∈ itemViolations list check doc ↔
      ∃ i v, (doc.getD list).items[i]? = some v ∧ b ∈ check (item list i) v := by
  simp only [itemViolations, List.mem_flatten, List.mem_mapIdx, List.getElem?_eq_some_iff]
  constructor
  · rintro ⟨bs, ⟨i, hi, rfl⟩, hb⟩
    exact ⟨i, _, ⟨hi, rfl⟩, hb⟩
  · rintro ⟨i, v, ⟨hi, rfl⟩, hb⟩
    exact ⟨_, ⟨i, hi, rfl⟩, hb⟩

/-- Lengths of items are numbers of eight bits, as the schema has it. -/
def HasShortLengths (list : String) (doc : Value) : Prop :=
  ∀ v ∈ (doc.getD list).items, ∀ n, (v.getD "length").natural? = some n → n < 256

theorem lengthAt_eq {list : String} {doc : Value} (h : HasShortLengths list doc) {i : Nat} {v : Value}
    (hv : (doc.getD list).items[i]? = some v) :
    lengthAt "length" v = (v.getD "length").natural? := by
  rw [lengthAt]
  cases hn : (v.getD "length").natural? with
  | none => rfl
  | some n => exact Option.filter_some_pos (decide_eq_true (h v (List.mem_of_getElem? hv) n hn))

namespace Bogon

theorem mem_check {path : String} {v : Value} {b : Violation}
    (hlength : lengthAt "length" v = (v.getD "length").natural?) :
    b ∈ check path v ↔ ∃ a n, HasPrefix v a n ∧ ¬ IsPrefix a n ∧ b = ⟨path, prefixCause a n⟩ := by
  refine iff_exists_hasPrefix hlength ?_ fun a n ha hn => ?_
  · rintro (h | h) <;> simp [check, h]
  · by_cases hp : IsPrefix a n
    · obtain ⟨net, hnet⟩ := networkOf_of_isPrefix hp
      simp [check, ha, hn, hnet, hp]
    · simp [check, ha, hn, networkOf_of_not_isPrefix hp, hp]

/-- **The checks of bogons** find just those that are no prefixes. -/
theorem mem_crossCheck {doc : Value} (h : HasShortLengths "bogons" doc) {b : Violation} :
    b ∈ crossCheck doc ↔ BreaksPrefix "bogons" doc b := by
  rw [crossCheck, mem_itemViolations]
  constructor
  · rintro ⟨i, v, hv, hb⟩
    obtain ⟨a, n, hparts, hnot, rfl⟩ := (mem_check (lengthAt_eq h hv)).1 hb
    exact .mk hv hparts hnot
  · rintro ⟨hv, hparts, hnot⟩
    exact ⟨_, _, hv, (mem_check (lengthAt_eq h hv)).2 ⟨_, _, hparts, hnot, rfl⟩⟩

end Bogon

namespace Roa

/-- The greatest length of a ROA is out of bounds: shorter than the length beside it, or too long for
the family of the address.  A bound that does not matter may be that of a value that was refused;
then it can be any. -/
inductive BreaksLength (doc : Value) : Violation → Prop
  | short {i : Nat} {v : Value} {n m : Nat} {f : Family}
    (hv : (doc.getD "roas").items[i]? = some v) (hlength : (v.getD "length").natural? = some n)
    (hmax : (v.getD "max_len").natural? = some m) (h : m < n)
    (hfamily : ∀ a, addressAt "prefix" v = some a → a.family = f) :
    BreaksLength doc ⟨item "roas" i ++ ".max_len", .notBetween n f.width⟩
  | long {i : Nat} {v : Value} {a : Address} {n m : Nat}
    (hv : (doc.getD "roas").items[i]? = some v) (haddress : addressAt "prefix" v = some a)
    (hmax : (v.getD "max_len").natural? = some m) (h : a.family.width < m)
    (hlength : ∀ k, (v.getD "length").natural? = some k → k = n) :
    BreaksLength doc ⟨item "roas" i ++ ".max_len", .notBetween n a.family.width⟩

/-- What is wrong with a ROA. -/
def Breaks (doc : Value) (b : Violation) : Prop := BreaksPrefix "roas" doc b ∨ BreaksLength doc b

/-- The greatest length of a ROA without a prefix: the address or the length has been refused, or the
two are none. -/
def Hides (doc : Value) (b : Violation) : Prop :=
  ∃ i v n w, (doc.getD "roas").items[i]? = some v ∧ (¬ ∃ a k, HasPrefix v a k ∧ IsPrefix a k) ∧
    b = ⟨item "roas" i ++ ".max_len", .notBetween n w⟩

theorem mem_check {path : String} {v : Value} {b : Violation}
    (hlength : lengthAt "length" v = (v.getD "length").natural?) :
    b ∈ check path v ↔ ∃ a n, HasPrefix v a n ∧
      (¬ IsPrefix a n ∧ b = ⟨path, prefixCause a n⟩ ∨
        IsPrefix a n ∧ ∃ m, (v.getD "max_len").natural? = some m ∧
          (m < n ∨ a.family.width < m) ∧
          b = ⟨path ++ ".max_len", .notBetween n a.family.width⟩) := by
  refine iff_exists_hasPrefix hlength ?_ fun a n ha hn => ?_
  · rintro (h | h) <;> simp [check, h]
  · by_cases hp : IsPrefix a n
    · obtain ⟨net, hnet⟩ := networkOf_of_isPrefix hp
      cases hm : (v.getD "max_len").natural? with
      | none => simp [check, ha, hn, hnet, hp, hm]
      | some m =>
          by_cases h : m < n ∨ a.family.width < m <;> simp [check, ha, hn, hnet, hp, hm, h]
    · simp [check, ha, hn, networkOf_of_not_isPrefix hp, hp]

theorem not_hides_prefix {doc : Value} {path : String} {a : Address} {n : Nat} :
    ¬ Hides doc ⟨path, prefixCause a n⟩ := by
  rintro ⟨_, _, _, _, -, -, heq⟩
  exact prefixCause_ne_notBetween (Violation.mk.inj heq).2

/-- What is not hidden stands in a ROA with a prefix. -/
theorem exists_prefix_of_not_hides {doc v : Value} {i n w : Nat}
    (hv : (doc.getD "roas").items[i]? = some v)
    (h : ¬ Hides doc ⟨item "roas" i ++ ".max_len", .notBetween n w⟩) :
    ∃ a k, HasPrefix v a k ∧ IsPrefix a k :=
  Classical.byContradiction fun hnone => h ⟨i, v, n, w, hv, hnone, rfl⟩

theorem breaksLength_of_hasPrefix {doc v : Value} {i m n : Nat} {a : Address}
    (hv : (doc.getD "roas").items[i]? = some v) (hparts : HasPrefix v a n)
    (hmax : (v.getD "max_len").natural? = some m) (h : m < n ∨ a.family.width < m) :
    BreaksLength doc ⟨item "roas" i ++ ".max_len", .notBetween n a.family.width⟩ := by
  obtain ⟨haddress, hlength⟩ := hparts
  rcases h with h | h
  · refine .short hv hlength hmax h fun b hb => ?_
    obtain rfl : a = b := Option.some.inj (haddress.symm.trans hb)
    rfl
  · exact .long hv haddress hmax h fun k hk => Option.some.inj (hk.symm.trans hlength)

/-- **The checks of ROAs** find what is wrong with them, but not the greatest length of one without a
prefix. -/
theorem mem_crossCheck {doc : Value} (h : HasShortLengths "roas" doc) {b : Violation} :
    b ∈ crossCheck doc ↔ Breaks doc b ∧ ¬ Hides doc b := by
  rw [crossCheck, mem_itemViolations]
  constructor
  · rintro ⟨i, v, hv, hb⟩
    obtain ⟨a, n, hparts, ⟨hnot, rfl⟩ | ⟨hok, m, hm, hbounds, rfl⟩⟩ :=
      (mem_check (lengthAt_eq h hv)).1 hb
    · exact ⟨.inl (.mk hv hparts hnot), not_hides_prefix⟩
    · refine ⟨.inr (breaksLength_of_hasPrefix hv hparts hm hbounds), ?_⟩
      rintro ⟨j, w, _, _, hw, hnone, heq⟩
      -- paths of different items are different, so both speak of one ROA
      obtain rfl : i = j :=
        item_injective "roas" ((String.append_left_inj _).1 (Violation.mk.inj heq).1)
      obtain rfl : v = w := Option.some.inj (hv.symm.trans hw)
      exact hnone ⟨a, n, hparts, hok⟩
  · rintro ⟨⟨hv, hparts, hnot⟩ | hlength, hshown⟩
    · exact ⟨_, _, hv, (mem_check (lengthAt_eq h hv)).2
        ⟨_, _, hparts, .inl ⟨hnot, rfl⟩⟩⟩
    -- the bound that does not matter is that of the prefix
    · cases hlength with
      | short hv hn hm hbound hfamily =>
          obtain ⟨a, k, hparts, hok⟩ := exists_prefix_of_not_hides hv hshown
          obtain rfl := hfamily a hparts.address
          obtain rfl := Option.some.inj (hn.symm.trans hparts.length)
          exact ⟨_, _, hv, (mem_check (lengthAt_eq h hv)).2
            ⟨_, _, hparts, .inr ⟨hok, _, hm, .inl hbound, rfl⟩⟩⟩
      | long hv ha hm hbound hlength =>
          obtain ⟨a, k, hparts, hok⟩ := exists_prefix_of_not_hides hv hshown
          obtain rfl := Option.some.inj (ha.symm.trans hparts.address)
          obtain rfl := hlength k hparts.length
          exact ⟨_, _, hv, (mem_check (lengthAt_eq h hv)).2
            ⟨_, _, hparts, .inr ⟨hok, _, hm, .inr hbound, rfl⟩⟩⟩

end Roa

end RouteServer.Policy

import RouteServer.Net.Address
import RouteServer.Proofs.Text.Numeral
import RouteServer.Proofs.Text.Split

/-!
# Net — the canonical text of an address is read back

**Round trip** (`read_text`).  An address is read from its canonical text.

The four octets of an IPv4 address are found again because a numeral has no point in it.  For an
IPv6 address the groups have no colon in them, so the only two colons in a row are those that stand
for the zeros left out, and there are as many of these as groups missing from eight.  No text with
a colon is taken for an IPv4 address.
-/

namespace RouteServer.Net.Address

open RouteServer.Text

/-! ### IPv4 -/

theorem readOctet_digits {n : Nat} (h : n ≤ 255) : readOctet (digits n) = some n := by
  have hr := readDigits_digits_nil h
  have hl : (digits n).length ≤ 3 := length_digits_le (by omega) (by omega)
  rcases Nat.eq_zero_or_pos n with rfl | hn
  · rw [digits_of_lt (by omega)]; rfl
  · have hz := head?_digits hn
    unfold readOctet
    split
    case h_1 he => exact absurd he (digits_ne_nil n)
    case h_2 he => rw [he] at hz; exact absurd rfl hz
    case h_3 he => rw [he] at hz; exact absurd rfl hz
    case h_4 => rw [if_pos hl, hr]; rfl

/-- The numerals of an IPv4 address. -/
def octetDigits (n : Nat) : List (List Char) :=
  [digits (n / 16777216), digits (n / 65536 % 256), digits (n / 256 % 256), digits (n % 256)]

theorem toList_v4Text (bits : BitVec 32) :
    (v4Text bits).toList = ['.'].intercalate (octetDigits bits.toNat) := by
  simp only [v4Text, String.toList_intercalate, List.map_cons, List.map_nil, toList_natText]
  rfl

theorem splitAt_octetDigits (n : Nat) :
    splitAt '.' (['.'].intercalate (octetDigits n)) = octetDigits n := by
  refine splitAt_intercalate (by simp [octetDigits]) fun l hl => ?_
  simp only [octetDigits, List.mem_cons, List.not_mem_nil, or_false] at hl
  rcases hl with rfl | rfl | rfl | rfl <;> exact notMem_digits (by decide) _

theorem readV4_text (bits : BitVec 32) : readV4 (v4Text bits).toList = some bits := by
  have hlt : bits.toNat < 4294967296 := bits.isLt
  have hval : ofOctets (bits.toNat / 16777216) (bits.toNat / 65536 % 256)
      (bits.toNat / 256 % 256) (bits.toNat % 256) = bits.toNat := by
    unfold ofOctets; omega
  unfold readV4
  rw [toList_v4Text, splitAt_octetDigits]
  simp only [octetDigits, readOctet_digits (n := bits.toNat / 16777216) (by omega),
    readOctet_digits (n := bits.toNat / 65536 % 256) (by omega),
    readOctet_digits (n := bits.toNat / 256 % 256) (by omega),
    readOctet_digits (n := bits.toNat % 256) (by omega), Option.bind_eq_bind, Option.bind_some,
    hval, BitVec.ofNat_toNat, BitVec.setWidth_eq]

theorem digit?_of_readDigits {max n m : Nat} {cs : List Char} (h : readDigits max n cs = .ok m) :
    ∀ c ∈ cs, (digit? c).isSome := by
  induction cs generalizing n with
  | nil => simp
  | cons c cs ih =>
      unfold readDigits at h
      split at h
      · cases h
      · rename_i d hd
        split at h
        · intro x hx
          rcases List.mem_cons.1 hx with rfl | hx
          · rw [hd]; rfl
          · exact ih h x hx
        · cases h

theorem digit?_of_readOctet {n : Nat} {cs : List Char} (h : readOctet cs = some n) :
    ∀ c ∈ cs, (digit? c).isSome := by
  unfold readOctet at h
  split at h
  · cases h
  · simp [show (digit? '0').isSome from rfl]
  · cases h
  · split at h
    · cases hr : readDigits 255 0 cs with
      | error e => rw [hr] at h; cases h
      | ok m => exact digit?_of_readDigits hr
    · cases h

theorem mem_of_mem_splitAt {sep c : Char} {cs : List Char} (hc : c ∈ cs) (hne : c ≠ sep) :
    ∃ piece ∈ splitAt sep cs, c ∈ piece := by
  induction cs with
  | nil => cases hc
  | cons x xs ih =>
      by_cases hx : x = sep
      · subst hx
        rcases List.mem_cons.1 hc with rfl | hc
        · exact absurd rfl hne
        · obtain ⟨p, hp, hm⟩ := ih hc
          exact ⟨p, by simp [splitAt, hp], hm⟩
      · obtain ⟨p, r, hp, hs⟩ := splitAt_cons_ne hx xs
        rw [hs]
        rcases List.mem_cons.1 hc with rfl | hc
        · exact ⟨c :: p, by simp, by simp⟩
        · obtain ⟨q, hq, hm⟩ := ih hc
          rw [hp] at hq
          rcases List.mem_cons.1 hq with rfl | hq
          · exact ⟨x :: q, by simp, List.mem_cons_of_mem _ hm⟩
          · exact ⟨q, List.mem_cons_of_mem _ hq, hm⟩

/-- A text with a colon is no IPv4 address. -/
theorem readV4_eq_none {cs : List Char} (h : ':' ∈ cs) : readV4 cs = none := by
  obtain ⟨p, hp, hm⟩ : ∃ p ∈ splitAt '.' cs, ':' ∈ p := mem_of_mem_splitAt h (by decide)
  have hno : readOctet p = none := by
    cases hr : readOctet p with
    | none => rfl
    | some n => exact absurd (digit?_of_readOctet hr _ hm) (by decide)
  unfold readV4
  split
  case h_1 a b c d hs =>
      rw [hs] at hp
      simp only [List.mem_cons, List.not_mem_nil, or_false] at hp
      rcases hp with rfl | rfl | rfl | rfl
      · simp [hno]
      · cases readOctet a <;> simp [hno]
      · cases readOctet a <;> cases readOctet b <;> simp [hno]
      · cases readOctet a <;> cases readOctet b <;> cases readOctet c <;> simp [hno]
  case h_2 => rfl

/-! ### Groups -/

theorem readHex_hexDigits (n : Nat) : readHex 0 (hexDigits n) = some n := by
  have key : ∀ cs, readHex 0 (hexDigits n ++ cs) = readHex n cs := by
    rw [hexDigits_eq_numeral]
    refine numeral_induction
      (P := fun n ds => ∀ cs, readHex 0 (ds ++ cs) = readHex n cs) ?_ ?_ n
    · intro n hn cs
      simp [readHex, hexDigit?_lowerHexDigit n hn]
    · intro n _ ih cs
      have hd := hexDigit?_lowerHexDigit (n % 16) (by omega)
      have hv : 16 * (n / 16) + n % 16 = n := by omega
      rw [List.append_assoc, ih]
      simp [readHex, hd, hv]
  simpa [readHex] using key []

theorem readGroup_hexDigits {g : Nat} (h : g < 65536) : readGroup (hexDigits g) = some g := by
  have hl : (hexDigits g).length ≤ 4 := length_hexDigits_le (by omega) (by omega)
  unfold readGroup
  rw [if_neg (by simp only [hexDigits_ne_nil, false_or]; omega), readHex_hexDigits]

theorem notMem_hexDigits {c : Char} (h : ∀ d < 16, lowerHexDigit d ≠ c) (g : Nat) :
    c ∉ hexDigits g := fun hc =>
  forall_mem_hexDigits (p := fun x => x ≠ c) h g c hc rfl

theorem colon_notMem_hexDigits : ∀ g, ':' ∉ hexDigits g := notMem_hexDigits (by decide)

theorem readV4_hexDigits (g : Nat) : readV4 (hexDigits g) = none := by
  have hp : '.' ∉ hexDigits g := notMem_hexDigits (by decide) g
  unfold readV4
  rw [splitAt_of_notMem hp]

/-- What may be read as the last thirty-two bits is no group. -/
def IsNoGroup (octets : List Char → Option Nat) : Prop := ∀ g, octets (hexDigits g) = none

theorem readGroups_hexDigits {octets : List Char → Option Nat} (ho : IsNoGroup octets) :
    ∀ {gs : List Nat}, (∀ g ∈ gs, g < 65536) → readGroups octets (gs.map hexDigits) = some gs
  | [], _ => rfl
  | [g], h => by simp [readGroups, ho g, readGroup_hexDigits (h g (by simp))]
  | g :: k :: gs, h => by
      have hrest := readGroups_hexDigits ho fun x hx => h x (List.mem_cons_of_mem g hx)
      rw [List.map_cons] at hrest ⊢
      simp only [List.map_cons, readGroups, readGroup_hexDigits (h g (by simp)), hrest,
        Option.bind_eq_bind, Option.bind_some] at hrest ⊢

theorem toList_groupsText (gs : List Nat) :
    (groupsText gs).toList = [':'].intercalate (gs.map hexDigits) := by
  simp only [groupsText, String.toList_intercalate, List.map_map]
  congr 1
  exact List.map_congr_left fun g _ => String.toList_ofList

theorem readSide_groups {octets : List Char → Option Nat} (ho : IsNoGroup octets) {gs : List Nat}
    (h : ∀ g ∈ gs, g < 65536) :
    readSide octets ([':'].intercalate (gs.map hexDigits)) = some gs := by
  cases gs with
  | nil => rfl
  | cons g gs =>
      have hls : ∀ l ∈ (g :: gs).map hexDigits, ':' ∉ l := fun l hl => by
        obtain ⟨k, -, rfl⟩ := List.mem_map.1 hl
        exact colon_notMem_hexDigits k
      have hsplit := splitAt_intercalate (by simp) hls
      have hne : [':'].intercalate ((g :: gs).map hexDigits) ≠ [] := fun he => by
        rw [he] at hsplit
        simp [splitAt, (hexDigits_ne_nil g).symm] at hsplit
      unfold readSide
      rw [if_neg hne, hsplit, readGroups_hexDigits ho h]

/-! ### The run that is left out -/

theorem zeros_of_le_zerosAtStart {gs : List Nat} {k : Nat} (h : k ≤ zerosAtStart gs) :
    gs = List.replicate k 0 ++ gs.drop k := by
  induction gs generalizing k with
  | nil => simp [zerosAtStart] at h; simp [h]
  | cons g gs ih =>
      cases k with
      | zero => rfl
      | succ k =>
          cases g with
          | zero =>
              have := ih (Nat.le_of_succ_le_succ h)
              rw [List.replicate_succ, List.drop_succ_cons, List.cons_append, ← this]
          | succ g => simp [zerosAtStart] at h

/-- The run found lies in the list and holds zeros only. -/
theorem longestRun_le (gs : List Nat) :
    (longestRun gs).2 ≤ zerosAtStart (gs.drop (longestRun gs).1) := by
  have key : ∀ (is : List Nat) (best : Nat × Nat), best.2 ≤ zerosAtStart (gs.drop best.1) →
      (is.foldl (fun best i =>
        let n := zerosAtStart (gs.drop i)
        if best.2 < n then (i, n) else best) best).2 ≤
      zerosAtStart (gs.drop (is.foldl (fun best i =>
        let n := zerosAtStart (gs.drop i)
        if best.2 < n then (i, n) else best) best).1) := by
    intro is
    induction is with
    | nil => exact fun _ h => h
    | cons i is ih =>
        intro best h
        refine ih _ ?_
        by_cases hlt : best.2 < zerosAtStart (gs.drop i)
        · simp only [hlt, if_true]; exact Nat.le_refl _
        · simp only [hlt, if_false]; exact h
  exact key _ (0, 0) (Nat.zero_le _)

theorem eq_around_longestRun (gs : List Nat) :
    gs = gs.take (longestRun gs).1 ++ List.replicate (longestRun gs).2 0 ++
      gs.drop ((longestRun gs).1 + (longestRun gs).2) := by
  have h := zeros_of_le_zerosAtStart (longestRun_le gs)
  rw [List.drop_drop] at h
  rw [List.append_assoc, ← h, List.take_append_drop]

/-! ### IPv6 -/

theorem length_groups (bits : BitVec 128) : (groups bits).length = 8 := by simp [groups]

theorem lt_of_mem_groups {bits : BitVec 128} {g : Nat} (h : g ∈ groups bits) : g < 65536 := by
  obtain ⟨i, -, rfl⟩ := List.mem_map.1 h
  exact Nat.mod_lt _ (by omega)

theorem ofGroups_groups (bits : BitVec 128) : ofGroups (groups bits) = bits := by
  have hlt : bits.toNat < twoTo 128 := bits.isLt
  have step : ∀ k, bits.toNat / twoTo (16 * (k + 1)) * 65536 + bits.toNat / twoTo (16 * k) % 65536 =
      bits.toNat / twoTo (16 * k) := by
    intro k
    have hp : twoTo (16 * (k + 1)) = twoTo (16 * k) * 65536 := by
      simp only [twoTo, Nat.mul_add, Nat.pow_eq, Nat.pow_add]
    rw [hp, ← Nat.div_div_eq_div_mul]
    omega
  have top : 0 * 65536 + bits.toNat / twoTo (16 * 7) % 65536 = bits.toNat / twoTo (16 * 7) := by
    have h7 := step 7
    rwa [show bits.toNat / twoTo (16 * (7 + 1)) = 0 from Nat.div_eq_of_lt hlt] at h7
  have hfold : (groups bits).foldl (fun n g => n * 65536 + g) 0 = bits.toNat / twoTo (16 * 0) := by
    simp only [groups, show List.range 8 = [0, 1, 2, 3, 4, 5, 6, 7] from rfl, List.map_cons,
      List.map_nil, List.foldl_cons, List.foldl_nil]
    rw [top, step 6, step 5, step 4, step 3, step 2, step 1, step 0]
  unfold ofGroups
  rw [hfold]
  simp [twoTo]

/-- Four octets may end an IPv6 address. -/
def octetsOfV4 (cs : List Char) : Option Nat := (readV4 cs).map BitVec.toNat

theorem isNoGroup_octetsOfV4 : IsNoGroup octetsOfV4 := fun g => by
  rw [octetsOfV4, readV4_hexDigits]; rfl

theorem readV6_eq (cs : List Char) : readV6 cs = readV6With octetsOfV4 1 cs := rfl

theorem readV6_groupsText {bits : BitVec 128} :
    readV6 (groupsText (groups bits)).toList = some bits := by
  have hls : ∀ l ∈ (groups bits).map hexDigits, l ≠ [] ∧ ':' ∉ l := fun l hl => by
    obtain ⟨k, -, rfl⟩ := List.mem_map.1 hl
    exact ⟨hexDigits_ne_nil k, colon_notMem_hexDigits k⟩
  have honce := splitOnce_intercalate [] hls
  have hne : (groups bits).map hexDigits ≠ [] := fun h => by
    have := congrArg List.length h
    simp [length_groups] at this
  rw [List.append_nil] at honce
  rw [readV6_eq, readV6With, toList_groupsText, honce,
    splitAt_intercalate hne fun l hl => (hls l hl).2]
  simp [splitOnce, readGroups_hexDigits isNoGroup_octetsOfV4 fun g hg => lt_of_mem_groups hg,
    length_groups, ofGroups_groups]

theorem readV6_shortened {hs ts : List Nat} (hh : ∀ g ∈ hs, g < 65536) (ht : ∀ g ∈ ts, g < 65536)
    (hl : hs.length + 1 + ts.length ≤ 8) :
    readV6 (groupsText hs ++ "::" ++ groupsText ts).toList =
      some (ofGroups (hs ++ List.replicate (8 - hs.length - ts.length) 0 ++ ts)) := by
  have hls : ∀ l ∈ hs.map hexDigits, l ≠ [] ∧ ':' ∉ l := fun l hl => by
    obtain ⟨k, -, rfl⟩ := List.mem_map.1 hl
    exact ⟨hexDigits_ne_nil k, colon_notMem_hexDigits k⟩
  have honce := splitOnce_intercalate (':' :: ':' :: [':'].intercalate (ts.map hexDigits)) hls
  have hchars : (groupsText hs ++ "::" ++ groupsText ts).toList =
      [':'].intercalate (hs.map hexDigits) ++
        ':' :: ':' :: [':'].intercalate (ts.map hexDigits) := by
    simp only [String.toList_append, toList_groupsText, List.append_assoc]
    rfl
  rw [readV6_eq, readV6With, hchars, honce]
  simp only [splitOnce_pair_self, Option.map_some, inFront, List.append_nil]
  rw [readSide_groups (fun _ => rfl) hh, readSide_groups isNoGroup_octetsOfV4 ht]
  simp only [Option.bind_eq_bind, Option.bind_some]
  rw [if_pos ⟨by omega, hl⟩]

theorem readSide_embedded {octets : List Char → Option Nat} {w : List Char} {n : Nat}
    (hw : ':' ∉ w) (ho : octets w = some n) :
    readSide octets (['f', 'f', 'f', 'f'] ++ ':' :: w) =
      some [65535, n / 65536, n % 65536] := by
  have hsplit : splitAt ':' (['f', 'f', 'f', 'f'] ++ ':' :: w) = [['f', 'f', 'f', 'f'], w] := by
    rw [splitAt_append, splitAt_of_notMem hw]; rfl
  have hg : readGroup ['f', 'f', 'f', 'f'] = some 65535 := by decide
  rw [readSide, if_neg (by simp), hsplit, readGroups, hg]
  · simp only [readGroups, ho, Option.bind_eq_bind, Option.bind_some]
  · simp

/-- An address that embeds an IPv4 address ends in it. -/
theorem readV6_embedded {bits : BitVec 128} (h : bits.toNat / twoTo 32 = 0xffff) :
    readV6 ("::ffff:" ++ v4Text (BitVec.ofNat 32 bits.toNat)).toList = some bits := by
  have hchars : ("::ffff:" ++ v4Text (BitVec.ofNat 32 bits.toNat)).toList =
      ':' :: ':' :: (['f', 'f', 'f', 'f'] ++
        ':' :: (v4Text (BitVec.ofNat 32 bits.toNat)).toList) := by
    rw [String.toList_append]; rfl
  have hcolon : ':' ∉ (v4Text (BitVec.ofNat 32 bits.toNat)).toList := fun hm => by
    have := readV4_eq_none hm
    rw [readV4_text] at this
    cases this
  have hocts : octetsOfV4 (v4Text (BitVec.ofNat 32 bits.toNat)).toList =
      some (bits.toNat % 4294967296) := by
    rw [octetsOfV4, readV4_text]; rfl
  have hval : List.foldl (fun n g => n * 65536 + g) 0
      [0, 0, 0, 0, 0, 65535, bits.toNat % 4294967296 / 65536, bits.toNat % 4294967296 % 65536] =
      bits.toNat := by
    simp only [twoTo, Nat.pow_eq] at h
    simp only [List.foldl_cons, List.foldl_nil]
    omega
  have hgroups : ofGroups
      [0, 0, 0, 0, 0, 65535, bits.toNat % 4294967296 / 65536, bits.toNat % 4294967296 % 65536] =
      bits := by
    rw [ofGroups, hval, BitVec.ofNat_toNat, BitVec.setWidth_eq]
  rw [readV6_eq, readV6With, hchars, splitOnce_pair_self]
  simp only [readSide_embedded hcolon hocts, Option.bind_eq_bind]
  exact congrArg some hgroups

theorem v6Text_eq (bits : BitVec 128) :
    v6Text bits =
      if bits.toNat / twoTo 32 = 0xffff then "::ffff:" ++ v4Text (BitVec.ofNat 32 bits.toNat)
      else if (longestRun (groups bits)).2 < 2 then groupsText (groups bits)
      else groupsText ((groups bits).take (longestRun (groups bits)).1) ++ "::" ++
        groupsText ((groups bits).drop
          ((longestRun (groups bits)).1 + (longestRun (groups bits)).2)) := rfl

theorem readV6_text (bits : BitVec 128) : readV6 (v6Text bits).toList = some bits := by
  rw [v6Text_eq]
  split
  case isTrue h => exact readV6_embedded h
  case isFalse =>
      split
      case isTrue => exact readV6_groupsText
      case isFalse hc =>
          have hrun := eq_around_longestRun (groups bits)
          have hlen := congrArg List.length hrun
          simp only [List.length_append, length_groups, List.length_replicate] at hlen
          have hmissing : 8 - ((groups bits).take (longestRun (groups bits)).1).length -
              ((groups bits).drop
                ((longestRun (groups bits)).1 + (longestRun (groups bits)).2)).length =
              (longestRun (groups bits)).2 := by omega
          rw [readV6_shortened (fun g hg => lt_of_mem_groups (List.mem_of_mem_take hg))
            (fun g hg => lt_of_mem_groups (List.mem_of_mem_drop hg)) (by omega), hmissing, ← hrun,
            ofGroups_groups]

theorem colon_mem_groupsText {g k : Nat} {gs : List Nat} :
    ':' ∈ (groupsText (g :: k :: gs)).toList := by
  simp [toList_groupsText, List.intercalate_cons_cons]

theorem colon_mem_v6Text (bits : BitVec 128) : ':' ∈ (v6Text bits).toList := by
  rw [v6Text_eq]
  split
  · rw [String.toList_append]
    exact List.mem_append_left _ (by decide)
  · split
    · exact colon_mem_groupsText
    · rw [String.toList_append, String.toList_append]
      exact List.mem_append_left _ (List.mem_append_right _ (by decide))

/-- **Round trip.**  An address is read from its canonical text. -/
theorem read_text (a : Address) : read a.text = some a := by
  cases a with
  | v4 bits => simp [read, text, readV4_text]
  | v6 bits => simp [read, text, readV4_eq_none (colon_mem_v6Text bits), readV6_text]

/-! ### Characters -/

theorem forall_mem_intercalate {p : Char → Prop} {sep : Char} {ls : List (List Char)}
    (hsep : p sep) (h : ∀ l ∈ ls, ∀ c ∈ l, p c) : ∀ c ∈ [sep].intercalate ls, p c := by
  induction ls with
  | nil => intro c hc; cases hc
  | cons l ls ih =>
      cases ls with
      | nil => simpa using h
      | cons m ls =>
          have hrest := ih fun k hk => h k (List.mem_cons_of_mem _ hk)
          intro c hc
          rw [List.intercalate_cons_cons] at hc
          rcases List.mem_append.1 hc with hc | hc
          · rcases List.mem_append.1 hc with hc | hc
            · exact h l List.mem_cons_self c hc
            · exact List.mem_singleton.1 hc ▸ hsep
          · exact hrest c hc

section

variable {p : Char → Prop} (hdigit : ∀ d < 16, p (lowerHexDigit d))
include hdigit

theorem forall_mem_v4Text (hpoint : p '.') (bits : BitVec 32) : ∀ c ∈ (v4Text bits).toList, p c := by
  rw [toList_v4Text]
  refine forall_mem_intercalate hpoint fun l hl => ?_
  have hdigits : ∀ n, ∀ c ∈ digits n, p c := fun n c hc =>
    forall_mem_digits (fun d hd => by
      have hsame : digitChar d = lowerHexDigit d := by
        revert hd
        revert d
        decide
      rw [hsame]
      exact hdigit d (by omega)) n c hc
  simp only [octetDigits, List.mem_cons, List.not_mem_nil, or_false] at hl
  rcases hl with rfl | rfl | rfl | rfl <;> exact hdigits _

theorem forall_mem_groupsText (hcolon : p ':') (gs : List Nat) : ∀ c ∈ (groupsText gs).toList, p c := by
  rw [toList_groupsText]
  refine forall_mem_intercalate hcolon fun l hl => ?_
  obtain ⟨g, -, rfl⟩ := List.mem_map.1 hl
  exact forall_mem_hexDigits hdigit g

/-- An address is written in hexadecimal digits, points and colons. -/
theorem forall_mem_text (hpoint : p '.') (hcolon : p ':') (a : Address) : ∀ c ∈ a.text.toList, p c := by
  have hgroups := forall_mem_groupsText hdigit hcolon
  have hpair : ∀ c ∈ "::".toList, p c := by simpa using hcolon
  cases a with
  | v4 bits => exact forall_mem_v4Text hdigit hpoint bits
  | v6 bits =>
      rw [text, v6Text_eq]
      split
      · have hlead : ∀ c ∈ "::ffff:".toList, p c := by
          have hf : p 'f' := hdigit 15 (by decide)
          simpa using ⟨hcolon, hf, hcolon⟩
        intro c hc
        rw [String.toList_append] at hc
        rcases List.mem_append.1 hc with hc | hc
        · exact hlead c hc
        · exact forall_mem_v4Text hdigit hpoint _ c hc
      · split
        · exact hgroups _
        · intro c hc
          simp only [String.toList_append, List.mem_append] at hc
          rcases hc with (hc | hc) | hc
          · exact hgroups _ c hc
          · exact hpair c hc
          · exact hgroups _ c hc

end

end RouteServer.Net.Address

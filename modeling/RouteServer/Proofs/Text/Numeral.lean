import Mathlib.Algebra.Group.Nat.Defs
import RouteServer.Text.Numeral

/-!
# Text — a written number is read back

`digits` and `hexDigits` write the shortest numeral of their base (`numeral`).  The readers continue
a numeral as if its value had been read so far (`readDigits_digits`), so a written number can be
followed by anything that does not extend it.  Reading makes writing injective.

What is read as a number is digits alone, or digits after a plus sign (`isSigned_iff`).
-/

namespace RouteServer.Text

/-! ### Numerals of any base -/

/-- `n` in a base of at least two, by the characters of its digits, most significant first. -/
def numeral (base : Nat) (digit : Nat → Char) (n : Nat) : List Char :=
  if n < base + 2 then [digit n]
  else numeral base digit (n / (base + 2)) ++ [digit (n % (base + 2))]
termination_by n
decreasing_by exact Nat.div_lt_self (by omega) (by omega)

section Numeral

variable {base : Nat} {digit : Nat → Char} {n k : Nat}

theorem numeral_of_lt (h : n < base + 2) : numeral base digit n = [digit n] := by
  rw [numeral, if_pos h]

theorem numeral_of_le (h : base + 2 ≤ n) :
    numeral base digit n = numeral base digit (n / (base + 2)) ++ [digit (n % (base + 2))] := by
  rw [numeral, if_neg (by omega)]

/-- A numeral is its only digit, or the numeral of what is in front of its last digit and that. -/
theorem numeral_induction {P : Nat → List Char → Prop} (one : ∀ n < base + 2, P n [digit n])
    (more : ∀ n, base + 2 ≤ n →
      P (n / (base + 2)) (numeral base digit (n / (base + 2))) →
      P n (numeral base digit (n / (base + 2)) ++ [digit (n % (base + 2))])) (n : Nat) :
    P n (numeral base digit n) := by
  induction n using Nat.strongRecOn with
  | ind n ih =>
      by_cases h : n < base + 2
      · rw [numeral_of_lt h]; exact one n h
      · have hlt : n / (base + 2) < n := Nat.div_lt_self (by omega) (by omega)
        rw [numeral_of_le (by omega)]
        exact more n (by omega) (ih _ hlt)

theorem numeral_ne_nil (base : Nat) (digit : Nat → Char) (n : Nat) : numeral base digit n ≠ [] :=
  numeral_induction (P := fun _ cs => cs ≠ []) (fun _ _ => by simp) (fun _ _ _ => by simp) n

/-- A property of all digits is one of all characters of a numeral. -/
theorem forall_mem_numeral {p : Char → Prop} (h : ∀ d < base + 2, p (digit d)) (n : Nat) :
    ∀ c ∈ numeral base digit n, p c := by
  refine numeral_induction (P := fun _ cs => ∀ c ∈ cs, p c) ?_ ?_ n
  · intro n hn c hc
    exact List.mem_singleton.1 hc ▸ h n hn
  · intro n _ ih c hc
    rcases List.mem_append.1 hc with hc | hc
    · exact ih c hc
    · exact List.mem_singleton.1 hc ▸ h _ (Nat.mod_lt _ (by omega))

/-- A number below a power of the base has at most as many digits. -/
theorem length_numeral_le (hk : 0 < k) (h : n < (base + 2) ^ k) :
    (numeral base digit n).length ≤ k := by
  induction k generalizing n with
  | zero => omega
  | succ k ih =>
      by_cases hn : n < base + 2
      · rw [numeral_of_lt hn]; simp
      · have hk : 0 < k := by
          rcases Nat.eq_zero_or_pos k with rfl | hk
          · exact absurd (by simpa using h) hn
          · exact hk
        have hdiv : n / (base + 2) < (base + 2) ^ k :=
          Nat.div_lt_of_lt_mul (by rwa [Nat.pow_succ, Nat.mul_comm] at h)
        rw [numeral_of_le (by omega), List.length_append, List.length_singleton]
        exact Nat.succ_le_succ (ih hk hdiv)

end Numeral

/-! ### Decimal -/

theorem digits_eq_numeral (n : Nat) : digits n = numeral 8 digitChar n := by
  induction n using Nat.strongRecOn with
  | ind n ih =>
      rw [digits, numeral]
      split
      · rfl
      · rw [ih (n / 10) (by omega)]

theorem digits_of_lt {n : Nat} (h : n < 10) : digits n = [digitChar n] := by
  rw [digits, if_pos h]

theorem digits_ne_nil (n : Nat) : digits n ≠ [] := digits_eq_numeral n ▸ numeral_ne_nil _ _ _

theorem forall_mem_digits {p : Char → Prop} (h : ∀ d < 10, p (digitChar d)) (n : Nat) :
    ∀ c ∈ digits n, p c := digits_eq_numeral n ▸ forall_mem_numeral h n

theorem length_digits_le {n k : Nat} (hk : 0 < k) (h : n < 10 ^ k) : (digits n).length ≤ k :=
  digits_eq_numeral n ▸ length_numeral_le hk h

theorem digit?_digitChar : ∀ d < 10, digit? (digitChar d) = some d := by decide

theorem digit?_of_mem_digits {n : Nat} {c : Char} (h : c ∈ digits n) : (digit? c).isSome := by
  refine forall_mem_digits (p := fun c => (digit? c).isSome) (fun d hd => ?_) n c h
  rw [digit?_digitChar d hd]; rfl

theorem notMem_digits {c : Char} (hc : digit? c = none) (n : Nat) : c ∉ digits n := fun h => by
  have := digit?_of_mem_digits h
  rw [hc] at this
  cases this

/-- A numeral in front of other characters is read as its value so far. -/
theorem readDigits_digits {max n : Nat} (h : n ≤ max) (cs : List Char) :
    readDigits max 0 (digits n ++ cs) = readDigits max n cs := by
  rw [digits_eq_numeral]
  revert h cs
  refine numeral_induction
    (P := fun n ds => n ≤ max → ∀ cs, readDigits max 0 (ds ++ cs) = readDigits max n cs) ?_ ?_ n
  · intro n hn h cs
    simp [readDigits, digit?_digitChar n hn, h]
  · intro n hn ih h cs
    have hd := digit?_digitChar (n % 10) (by omega)
    have hv : 10 * (n / 10) + n % 10 = n := by omega
    rw [List.append_assoc, ih (by omega)]
    simp [readDigits, hd, hv, h]

theorem readDigits_digits_nil {max n : Nat} (h : n ≤ max) : readDigits max 0 (digits n) = .ok n := by
  simpa [readDigits] using readDigits_digits h []

theorem digits_injective : Function.Injective digits := by
  intro m n h
  have hm := readDigits_digits_nil (Nat.le_max_left m n)
  rw [h, readDigits_digits_nil (Nat.le_max_right m n)] at hm
  exact (Except.ok.inj hm).symm

theorem natText_injective : Function.Injective natText := fun _ _ h =>
  digits_injective (String.ofList_injective h)

theorem toList_natText (n : Nat) : (natText n).toList = digits n := String.toList_ofList

/-- Only zero is written with a zero in front. -/
theorem head?_digits {n : Nat} (h : 0 < n) : (digits n).head? ≠ some '0' := by
  rw [digits_eq_numeral]
  revert h
  refine numeral_induction (P := fun n ds => 0 < n → ds.head? ≠ some '0') ?_ ?_ n
  · intro n hn h hc
    have hd := digit?_digitChar n hn
    rw [Option.some.inj hc] at hd
    have h0 : 0 = n := Option.some.inj hd
    omega
  · intro n hn ih _
    obtain ⟨c, cs, hc⟩ := List.exists_cons_of_ne_nil (numeral_ne_nil 8 digitChar (n / 10))
    have := ih (by omega)
    rw [hc] at this ⊢
    exact this

theorem digits_snoc {n d : Nat} (hn : 0 < n) (hd : d < 10) :
    digits (10 * n + d) = digits n ++ [digitChar d] := by
  rw [digits, if_neg (by omega), show (10 * n + d) / 10 = n by omega,
    show (10 * n + d) % 10 = d by omega]

theorem digit?_eq_some {c : Char} {d : Nat} (h : digit? c = some d) :
    d < 10 ∧ c = digitChar d := by
  unfold digit? at h
  split at h
  case isFalse => cases h
  case isTrue hc =>
      obtain ⟨hleast, hgreatest⟩ : 48 ≤ c.toNat ∧ c.toNat ≤ 57 := hc
      obtain rfl : c.toNat - 48 = d := Option.some.inj h
      refine ⟨by omega, ?_⟩
      have hback : 48 + (c.toNat - 48) = c.toNat := by omega
      rw [digitChar, show '0'.toNat = 48 from rfl, hback, Char.ofNat_toNat]

/-- A numeral that goes on from a number that is not zero is written as its digits. -/
theorem digits_of_readDigits {max : Nat} {cs : List Char} :
    ∀ {n m : Nat}, 0 < n → readDigits max n cs = .ok m → digits m = digits n ++ cs := by
  induction cs with
  | nil =>
      intro n m _ h
      cases h
      simp
  | cons c cs ih =>
      intro n m hn h
      rw [readDigits] at h
      split at h
      case h_1 => cases h
      case h_2 d hd =>
          split at h
          case isFalse => cases h
          case isTrue =>
              obtain ⟨hlt, rfl⟩ := digit?_eq_some hd
              rw [ih (by omega) h, digits_snoc hn hlt, List.append_assoc]
              rfl

/-- The numeral of a number is read as the number. -/
theorem readNat_digits {max n : Nat} (h : n ≤ max) : readNat max (digits n) = .ok n := by
  have hplus : '+' ∉ digits n := notMem_digits (by decide) n
  unfold readNat
  split
  case h_1 hempty => exact absurd hempty (digits_ne_nil n)
  case h_2 hsign => exact absurd (by simp [hsign]) hplus
  case h_3 hsign => exact absurd (by simp [hsign]) hplus
  case h_4 => exact readDigits_digits_nil h

/-- A numeral has more to it than its digits: a sign, or zeros in front. -/
def IsFilled (cs : List Char) : Prop := ∃ c ds, cs = c :: ds ∧ (c = '+' ∨ c = '0' ∧ ds ≠ [])

/-- **Spellings.**  A number is written as its digits, or with a sign or zeros in front of them. -/
theorem eq_digits_of_readNat {max n : Nat} {cs : List Char} (h : readNat max cs = .ok n) :
    cs = digits n ∨ IsFilled cs := by
  cases cs with
  | nil => cases h
  | cons c cs =>
      by_cases hplus : c = '+'
      · exact .inr ⟨c, cs, rfl, .inl hplus⟩
      · have hread : readDigits max 0 (c :: cs) = .ok n := by
          rw [← h, readNat]
          · nofun
          · exact fun hsame => hplus (List.cons.inj hsame).1
          · exact fun _ hsame => hplus (List.cons.inj hsame).1
        rw [readDigits] at hread
        split at hread
        case h_1 => cases hread
        case h_2 d hd =>
            obtain ⟨hlt, rfl⟩ := digit?_eq_some hd
            split at hread
            case isFalse => cases hread
            case isTrue =>
                rcases Nat.eq_zero_or_pos d with rfl | hpos
                · cases cs with
                  | nil =>
                      cases hread
                      exact .inl (digits_of_lt (by decide)).symm
                  | cons e cs => exact .inr ⟨_, _, rfl, .inr ⟨rfl, by simp⟩⟩
                · have hdigits := digits_of_readDigits (by omega) hread
                  rw [Nat.mul_zero, Nat.zero_add, digits_of_lt hlt] at hdigits
                  exact .inl hdigits.symm

/-! ### Plain decimals -/

theorem digit?_eq_some_iff {c : Char} {d : Nat} :
    digit? c = some d ↔ c.isDigit ∧ c.toNat - '0'.toNat = d := by
  have hdigit : ('0' ≤ c ∧ c ≤ '9') ↔ c.isDigit = true := by
    simp only [Char.isDigit, Bool.and_eq_true, decide_eq_true_eq]
    rfl
  unfold digit?
  simp [hdigit]

theorem le_ofDigitChars (n : Nat) (cs : List Char) : n ≤ Nat.ofDigitChars 10 cs n := by
  induction cs generalizing n with
  | nil => exact Nat.le_refl n
  | cons c cs ih =>
      rw [Nat.ofDigitChars_cons]
      exact Nat.le_trans (by omega) (ih _)

/-- Digits are read from the left, and no value on the way exceeds the last one. -/
theorem readDigits_eq_ok_iff {max n m : Nat} {cs : List Char} (hn : n ≤ max) :
    readDigits max n cs = .ok m ↔
      (∀ c ∈ cs, c.isDigit) ∧ Nat.ofDigitChars 10 cs n = m ∧ m ≤ max := by
  induction cs generalizing n with
  | nil =>
      simp only [readDigits, List.not_mem_nil, false_imp_iff, implies_true, true_and,
        Nat.ofDigitChars_nil, Except.ok.injEq]
      exact ⟨fun h => ⟨h, h ▸ hn⟩, And.left⟩
  | cons c cs ih =>
      rw [readDigits, List.forall_mem_cons, Nat.ofDigitChars_cons]
      cases hd : digit? c with
      | none =>
          refine iff_of_false nofun fun ⟨⟨hc, _⟩, _⟩ => ?_
          rw [digit?_eq_some_iff.2 ⟨hc, rfl⟩] at hd
          cases hd
      | some d =>
          obtain ⟨hc, rfl⟩ := digit?_eq_some_iff.1 hd
          have hle := le_ofDigitChars (10 * n + (c.toNat - '0'.toNat)) cs
          simp only [hc, true_and]
          split
          case isTrue hnext => exact ih hnext
          case isFalse hnext =>
              refine iff_of_false nofun fun ⟨_, hvalue, hm⟩ => ?_
              exact hnext (Nat.le_trans hle (hvalue ▸ hm))

theorem readNat_eq_ok_iff {max n : Nat} {cs : List Char} :
    readNat max cs = .ok n ↔ ∃ ds, (cs = ds ∨ cs = '+' :: ds) ∧ ds ≠ [] ∧
      (∀ c ∈ ds, c.isDigit) ∧ Nat.ofDigitChars 10 ds 0 = n ∧ n ≤ max := by
  have hread : ∀ ds, readDigits max 0 ds = .ok n ↔
      (∀ c ∈ ds, c.isDigit) ∧ Nat.ofDigitChars 10 ds 0 = n ∧ n ≤ max := fun _ =>
    readDigits_eq_ok_iff (Nat.zero_le max)
  unfold readNat
  split
  case h_1 => simp
  case h_2 => simp
  case h_3 ds hne =>
      have hds : ds ≠ [] := fun h => hne (by rw [h])
      rw [hread]
      refine ⟨fun h => ⟨ds, .inr rfl, hds, h⟩, ?_⟩
      rintro ⟨es, rfl | hes, -, h⟩
      · exact absurd (h.1 '+' List.mem_cons_self) (by decide)
      · exact (List.cons.inj hes).2 ▸ h
  case h_4 hnil _ hplus =>
      rw [hread]
      refine ⟨fun h => ⟨cs, .inl rfl, hnil, h⟩, ?_⟩
      rintro ⟨es, rfl | rfl, -, h⟩
      · exact h
      · exact absurd rfl (hplus es)

/-- What is read is within the bound. -/
theorem le_of_readNat {max n : Nat} {cs : List Char} (h : readNat max cs = .ok n) : n ≤ max := by
  obtain ⟨-, -, -, -, -, hle⟩ := readNat_eq_ok_iff.1 h
  exact hle

/-- A plain decimal, at least `least` and at most `greatest`: digits and nothing else. -/
structure IsDecimal (least greatest : Nat) (s : String) : Prop where
  ne_empty : s ≠ ""
  digits : ∀ c ∈ s.toList, c.isDigit
  least_le : least ≤ Nat.ofDigitChars 10 s.toList 0
  le_greatest : Nat.ofDigitChars 10 s.toList 0 ≤ greatest

/-- A plain decimal, or one with a plus sign in front. -/
def IsSigned (least greatest : Nat) (s : String) : Prop :=
  ∃ t, IsDecimal least greatest t ∧ (s = t ∨ s = "+" ++ t)

/-- **What is read as a number** is a plain decimal, or one with a plus sign in front. -/
theorem isSigned_iff {least greatest max : Nat} (hmax : greatest ≤ max) {s : String} :
    IsSigned least greatest s ↔ ∃ n, readNat max s.toList = .ok n ∧ least ≤ n ∧ n ≤ greatest := by
  simp only [readNat_eq_ok_iff]
  constructor
  · rintro ⟨t, ⟨hne, hdigits, hleast, hgreatest⟩, hs⟩
    refine ⟨_, ⟨t.toList, ?_, ?_, hdigits, rfl, Nat.le_trans hgreatest hmax⟩, hleast, hgreatest⟩
    · rcases hs with rfl | rfl <;> simp
    · simpa using hne
  · rintro ⟨n, ⟨ds, hs, hne, hdigits, rfl, -⟩, hleast, hgreatest⟩
    refine ⟨String.ofList ds, ⟨?_, ?_, ?_, ?_⟩, ?_⟩
    · simpa [← String.toList_inj] using hne
    · rwa [String.toList_ofList]
    · rwa [String.toList_ofList]
    · rwa [String.toList_ofList]
    · rcases hs with hs | hs <;> simp [← String.toList_inj, hs]

theorem IsDecimal.notMem {least greatest : Nat} {s : String} (h : IsDecimal least greatest s)
    {c : Char} (hc : c.isDigit = false) : c ∉ s.toList := fun hmem => by
  rw [h.digits c hmem] at hc
  cases hc

theorem IsSigned.notMem {least greatest : Nat} {s : String} (h : IsSigned least greatest s)
    {c : Char} (hc : c.isDigit = false) (hplus : c ≠ '+') : c ∉ s.toList := by
  obtain ⟨t, ht, rfl | rfl⟩ := h
  · exact ht.notMem hc
  · simpa [hplus] using ht.notMem hc

/-- A plus sign is all that a number may have beside its digits. -/
theorem isDecimal_iff_isSigned {least greatest : Nat} {s : String} :
    IsDecimal least greatest s ↔ IsSigned least greatest s ∧ '+' ∉ s.toList := by
  constructor
  · exact fun h => ⟨⟨s, h, .inl rfl⟩, h.notMem (by decide)⟩
  · rintro ⟨⟨t, ht, rfl | rfl⟩, hplus⟩
    · exact ht
    · simp at hplus

/-! ### Base 16 -/

/-- The digit of value `d` in base 16, in lower case. -/
def lowerHexDigit (d : Nat) : Char :=
  if d < 10 then digitChar d else Char.ofNat ('a'.toNat + (d - 10))

theorem hexDigits_eq_numeral (n : Nat) : hexDigits n = numeral 14 lowerHexDigit n := by
  induction n using Nat.strongRecOn with
  | ind n ih =>
      rw [hexDigits, numeral]
      split
      case isTrue h => rw [Nat.mod_eq_of_lt h]; rfl
      case isFalse => rw [ih (n / 16) (by omega)]; rfl

theorem hexDigits_ne_nil (n : Nat) : hexDigits n ≠ [] := hexDigits_eq_numeral n ▸ numeral_ne_nil _ _ _

theorem forall_mem_hexDigits {p : Char → Prop} (h : ∀ d < 16, p (lowerHexDigit d)) (n : Nat) :
    ∀ c ∈ hexDigits n, p c := hexDigits_eq_numeral n ▸ forall_mem_numeral h n

theorem length_hexDigits_le {n k : Nat} (hk : 0 < k) (h : n < 16 ^ k) : (hexDigits n).length ≤ k :=
  hexDigits_eq_numeral n ▸ length_numeral_le hk h

theorem hexDigit?_lowerHexDigit : ∀ d < 16, hexDigit? (lowerHexDigit d) = some d := by decide

end RouteServer.Text

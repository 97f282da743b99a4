import Mathlib.Data.List.TakeDrop
import RouteServer.Json.Token
import RouteServer.Proofs.Text.Numeral

/-!
# Json — a written token is read back

The scanner takes the characters of a token that is written and leaves what follows (`next?_chars`).
Nothing has to follow a mark or a string; a number has to be followed by something that does not
extend it (`Delimited`).  An integer that does not fit a word is read as something else or refused
(`reread`), every other token as itself.
-/

namespace RouteServer.Json.Token

open RouteServer.Text

/-- The text does not start with a character that extends a number. -/
def Delimited (cs : List Char) : Prop := ∀ c ∈ cs.head?, inNumber c = false

/-- The token is no floating-point number. -/
def IsWhole : Token → Prop
  | .number (.float _) => False
  | _ => True

/-- What the scanner makes of a token that is written. -/
def reread : Token → Option Token
  | .number n => (readNumber (chars (.number n))).map .number
  | t => some t

/-! ### Integers -/

theorem takeFitting_digits {n : Nat} (h : n ≤ maxWord64) (cs : List Char) :
    Binary64.takeFitting 0 0 (digits n ++ cs) = Binary64.takeFitting n (digits n).length cs := by
  rw [digits_eq_numeral]
  revert h cs
  refine numeral_induction (P := fun n ds => n ≤ maxWord64 → ∀ cs,
    Binary64.takeFitting 0 0 (ds ++ cs) = Binary64.takeFitting n ds.length cs) ?_ ?_ n
  · intro n hn h cs
    simp [Binary64.takeFitting, digit?_digitChar n hn, h]
  · intro n hn ih h cs
    have hd := digit?_digitChar (n % 10) (by omega)
    have hv : 10 * (n / 10) + n % 10 = n := by omega
    rw [List.append_assoc, ih (by omega)]
    simp [Binary64.takeFitting, hd, hv, h]

theorem digits_length_eq_one {n : Nat} (h : (digits n).head? = some '0') : (digits n).length = 1 := by
  rcases Nat.eq_zero_or_pos n with rfl | hn
  · rw [digits_of_lt (by omega)]; rfl
  · exact absurd h (head?_digits hn)

/-- A word is read back as the integer it is. -/
theorem readNumber_digits {n : Nat} (h : n ≤ maxWord64) :
    readNumber (digits n) = some (.int n) := by
  obtain ⟨c, cs, hc⟩ := List.exists_cons_of_ne_nil (digits_ne_nil n)
  have hminus : c ≠ '-' := by
    rintro rfl
    exact absurd (digit?_of_mem_digits (hc ▸ List.mem_cons_self)) (by decide)
  have htake : Binary64.takeFitting 0 0 (digits n) = (n, (digits n).length, 0, []) := by
    simpa [Binary64.takeFitting] using takeFitting_digits h []
  have hcount : (digits n).length ≠ 0 := fun h0 =>
    digits_ne_nil n (List.length_eq_zero_iff.1 h0)
  have hzero : ¬ (1 < (digits n).length ∧ (digits n).head? = some '0') := fun ⟨h₁, h₂⟩ => by
    rw [digits_length_eq_one h₂] at h₁; omega
  have hfits : Number.fits (n : Int) = true := by
    simp only [Number.fits, Number.leastInteger, Bool.and_eq_true, decide_eq_true_eq]
    have hleast : (-9223372036854775808 : Int) ≤ 0 := by decide
    exact ⟨decide_eq_true (Int.le_trans hleast (Int.natCast_nonneg n)), Int.ofNat_le.2 h⟩
  unfold readNumber
  split
  rename_i negative body heq
  split at heq
  · rename_i ds hds
    exact absurd (List.cons.inj (hc.symm.trans hds)).1 hminus
  · obtain ⟨rfl, rfl⟩ := Prod.mk.inj heq
    simp only [htake]
    rw [if_neg (by simp only [hcount, hzero, or_self, not_false_eq_true])]
    simp [hfits]

theorem inNumber_of_mem_intText {i : Int} {c : Char} (h : c ∈ (intText i).toList) :
    inNumber c = true := by
  have hdigit : ∀ n, c ∈ digits n → inNumber c = true := fun n hc => by
    simp [inNumber, digit?_of_mem_digits hc]
  unfold intText at h
  split at h
  · rw [String.toList_append, toList_natText] at h
    rcases List.mem_append.1 h with h | h
    · rw [List.mem_singleton.1 (show c ∈ ['-'] from h)]; rfl
    · exact hdigit _ h
  · rw [toList_natText] at h
    exact hdigit _ h

theorem intText_ne_nil (i : Int) : (intText i).toList ≠ [] := by
  unfold intText
  split
  · rw [String.toList_append]; simp
  · rw [toList_natText]; exact digits_ne_nil _

theorem span_inNumber {cs rest : List Char} (h : ∀ c ∈ cs, inNumber c = true)
    (hr : Delimited rest) : (cs ++ rest).span inNumber = (cs, rest) := by
  have hrest : rest.takeWhile inNumber = [] ∧ rest.dropWhile inNumber = rest := by
    cases rest with
    | nil => exact ⟨rfl, rfl⟩
    | cons c rest => simp [hr c rfl]
  rw [List.span_eq_takeWhile_dropWhile, List.takeWhile_append_of_pos h,
    List.dropWhile_append_of_pos h, hrest.1, hrest.2, List.append_nil]

/-! ### Strings -/

theorem readUnit_padded : ∀ n < 32, ∀ cs,
    readUnit (List.replicate (4 - (hexDigits n).length) '0' ++ hexDigits n ++ cs) = some (n, cs) := by
  intro n hn cs
  have hzero : hexDigit? '0' = some 0 := rfl
  have hlow := hexDigit?_lowerHexDigit (n % 16) (by omega)
  by_cases h : n < 16
  · have hd := hexDigit?_lowerHexDigit n h
    rw [hexDigits_eq_numeral, numeral_of_lt h]
    simp [readUnit, hzero, hd, List.replicate]
  · have hq : n / 16 = 1 := by omega
    have hone := hexDigit?_lowerHexDigit 1 (by omega)
    rw [hexDigits_eq_numeral, numeral_of_le (by omega), hq, numeral_of_lt (by omega)]
    simp only [readUnit, List.length_cons, List.length_nil, List.replicate,
      List.cons_append, List.nil_append, hzero, hone, hlow, Option.bind_eq_bind, Option.bind_some]
    congr 2
    omega

/-- A control character that is written by its number. -/
theorem readEscaped_padded {c : Char} (h : c.toNat < 32) (cs : List Char) :
    readEscaped (List.replicate (4 - (hexDigits c.toNat).length) '0' ++
      (hexDigits c.toNat ++ cs)) = some (c, cs) := by
  unfold readEscaped
  rw [← List.append_assoc, readUnit_padded c.toNat h]
  simp only [Option.bind_eq_bind, Option.bind_some]
  rw [if_neg (by omega), if_neg (by omega), Char.ofNat_toNat]

/-- A character of a string is read from what is written for it. -/
theorem readString_escaped (c : Char) (fuel : Nat) (done cs : List Char) :
    readString (fuel + 1) done (escaped c ++ cs) = readString fuel (c :: done) cs := by
  unfold escaped
  split
  case h_8 _ h₁ h₂ _ _ _ _ _ =>
      split
      case isTrue h => simp [readString, readEscaped_padded h]
      case isFalse h =>
          have hquote : c ≠ '"' := h₁
          have hslash : c ≠ '\\' := h₂
          simp [readString, hquote, hslash, h]
  all_goals simp [readString, escape?]

theorem readString_flatMap_escaped {s : List Char} {fuel : Nat} (h : s.length < fuel)
    (done rest : List Char) :
    readString fuel done (s.flatMap escaped ++ '"' :: rest) = some (done.reverse ++ s, rest) := by
  induction s generalizing fuel done with
  | nil =>
      cases fuel with
      | zero => simp at h
      | succ fuel => simp [readString]
  | cons c s ih =>
      cases fuel with
      | zero => simp at h
      | succ fuel =>
          have hlen : s.length < fuel := by simpa using h
          rw [List.flatMap_cons, List.append_assoc, readString_escaped, ih hlen]
          simp

theorem length_le_flatMap_escaped (s : List Char) : s.length ≤ (s.flatMap escaped).length := by
  have hpos : ∀ c, 1 ≤ (escaped c).length := fun c => by
    unfold escaped
    split
    case h_8 => split <;> simp
    all_goals simp
  induction s with
  | nil => simp
  | cons c s ih =>
      have := hpos c
      rw [List.flatMap_cons, List.length_append, List.length_cons]
      omega

/-! ### Tokens -/

theorem next?_of_inNumber {c : Char} {cs : List Char} (h : inNumber c = true) :
    next? (c :: cs) = (readNumber ((c :: cs).span inNumber).1).map fun n =>
      (.number n, ((c :: cs).span inNumber).2) := by
  unfold next?
  split
  case h_11 => rfl
  all_goals
    rename_i hc
    cases hc
    exact absurd h (by decide)

/-- **A token that is written is read back.** -/
theorem next?_chars {t : Token} (ht : t.IsWhole) {rest : List Char} (hr : Delimited rest) :
    next? (chars t ++ rest) = t.reread.map fun u => (u, rest) := by
  cases t with
  | openArray | closeArray | openObject | closeObject | comma | colon | null => rfl
  | bool b => cases b <;> rfl
  | string s =>
      have hfuel : s.toList.length < (s.toList.flatMap escaped ++ '"' :: rest).length + 1 := by
        have := length_le_flatMap_escaped s.toList
        simp only [List.length_append, List.length_cons]
        omega
      have hread := readString_flatMap_escaped hfuel [] rest
      simp only [chars, quoted, List.cons_append, List.append_assoc, List.nil_append, next?, hread]
      simp [reread]
  | number n =>
      cases n with
      | float x => exact ht.elim
      | int i =>
          obtain ⟨c, cs, hc⟩ := List.exists_cons_of_ne_nil (intText_ne_nil i)
          have hin : inNumber c = true :=
            inNumber_of_mem_intText (hc ▸ List.mem_cons_self)
          have hspan := span_inNumber (fun c hc => inNumber_of_mem_intText (i := i) hc) hr
          simp only [chars, reread, hc, List.cons_append] at hspan ⊢
          rw [next?_of_inNumber hin, hspan]
          cases readNumber (c :: cs) <;> rfl

end RouteServer.Json.Token

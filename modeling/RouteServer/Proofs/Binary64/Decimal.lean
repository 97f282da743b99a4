import Mathlib.Tactic.Ring
import RouteServer.Binary64.Decimal
import RouteServer.Proofs.Text.Numeral

/-!
# Binary64 — the digits of a number

Whether a quotient reaches a power of ten (`Reaches`) is a comparison of natural numbers, and the
place of the decimal point is the least power that it does not reach (`reaches_place`).  So the
quotient has `n` digits on the grid of `n` digits (`below_bounds`), and on the grid of seventeen one
of its two neighbours is within the numbers that round to it, since the grid is finer than they are
wide (`inside_seventeen`).

**Digits** (`shortest_spec`).  A finite number that is not zero has digits, as many as are counted,
and the first of them is not zero.
-/

namespace RouteServer.Binary64

open RouteServer.Text

/-! ### Powers of ten -/

theorem tenTo_pos (k : Nat) : 0 < tenTo k := Nat.pow_pos (by decide)

theorem tenTo_add (a b : Nat) : tenTo (a + b) = tenTo a * tenTo b := Nat.pow_add 10 a b

theorem lt_tenTo_length (n : Nat) : n < tenTo (digits n).length := by
  rw [digits_eq_numeral]
  refine numeral_induction (P := fun n ds => n < tenTo ds.length) ?_ ?_ n
  · exact fun n hn => hn
  · intro n _ ih
    rw [List.length_append, List.length_singleton, tenTo_add, show tenTo 1 = 10 from rfl]
    omega

theorem tenTo_le_of_length (n : Nat) :
    ∀ k, 0 < n → (digits n).length = k + 1 → tenTo k ≤ n := by
  rw [digits_eq_numeral]
  refine numeral_induction (P := fun n ds => ∀ k, 0 < n → ds.length = k + 1 → tenTo k ≤ n) ?_ ?_ n
  · intro n _ k hn hk
    cases k with
    | zero => exact hn
    | succ k => simp at hk
  · intro n hn ih k _ hk
    rw [List.length_append, List.length_singleton] at hk
    obtain ⟨j, rfl⟩ : ∃ j, k = j + 1 := by
      cases k with
      | zero => exact absurd (List.length_eq_zero_iff.1 (Nat.succ.inj hk)) (numeral_ne_nil _ _ _)
      | succ j => exact ⟨j, rfl⟩
    have := ih j (by omega) (by omega)
    rw [tenTo_add, show tenTo 1 = 10 from rfl]
    omega

theorem length_digits_eq {n k : Nat} (h : tenTo k ≤ n) (h' : n < tenTo (k + 1)) :
    (digits n).length = k + 1 := by
  have hle := length_digits_le (k := k + 1) (by omega) h'
  refine Nat.le_antisymm hle (Nat.lt_of_not_le fun hlt => ?_)
  have hpow : tenTo (digits n).length ≤ tenTo k := Nat.pow_le_pow_right (by decide) hlt
  have := lt_tenTo_length n
  omega

/-! ### The place of the decimal point -/

/-- The quotient is at least a power of ten. -/
def Reaches (num den : Nat) (k : Int) : Prop := den * tenTo k.toNat ≤ num * tenTo (-k).toNat

theorem reaches_iff {num den a b : Nat} {k : Int} (h : (a : Int) - b = k) :
    Reaches num den k ↔ den * tenTo a ≤ num * tenTo b := by
  -- both sides have a power of ten too many
  have hpos := tenTo_pos (-k).toNat
  have hpos' := tenTo_pos b
  have hleft : den * tenTo k.toNat * tenTo b = den * tenTo (k.toNat + b) := by
    rw [tenTo_add]; ring
  have hright : den * tenTo a * tenTo (-k).toNat = den * tenTo (a + (-k).toNat) := by
    rw [tenTo_add]; ring
  have hsame : k.toNat + b = a + (-k).toNat := by omega
  rw [Reaches, ← Nat.mul_le_mul_right_iff hpos', hleft, hsame, ← hright,
    show num * tenTo (-k).toNat * tenTo b = num * tenTo b * tenTo (-k).toNat by ring,
    Nat.mul_le_mul_right_iff hpos]

theorem reaches_of_le {num den a b : Nat} (hn : tenTo a ≤ num) (hd : den ≤ tenTo b) :
    Reaches num den ((a : Int) - b) :=
  (reaches_iff rfl).2 (by
    rw [Nat.mul_comm num]
    exact (Nat.mul_le_mul_right _ hd).trans (Nat.mul_le_mul_left _ hn))

theorem not_reaches_of_lt {num den a b : Nat} (hn : num < tenTo a) (hd : tenTo b ≤ den) :
    ¬ Reaches num den ((a : Int) - b) := by
  rw [reaches_iff rfl, Nat.not_le]
  calc num * tenTo b < tenTo a * tenTo b := Nat.mul_lt_mul_of_pos_right hn (tenTo_pos b)
    _ = tenTo b * tenTo a := Nat.mul_comm ..
    _ ≤ den * tenTo a := Nat.mul_le_mul_right _ hd

/-- The place that the digits are counted from: one beyond the greatest power that is reached. -/
def placeOf (num den : Nat) : Int :=
  let rough : Int := ((digits num).length : Int) - (digits den).length
  let aboveRough := if rough ≥ 0 then num ≥ den * tenTo rough.toNat
    else num * tenTo (-rough).toNat ≥ den
  if aboveRough then rough + 1 else rough

theorem aboveRough_iff {num den : Nat} (k : Int) :
    (if k ≥ 0 then num ≥ den * tenTo k.toNat else num * tenTo (-k).toNat ≥ den) ↔
      Reaches num den k := by
  rw [Reaches]
  by_cases h : k ≥ 0
  · rw [if_pos h, show (-k).toNat = 0 by omega, show tenTo 0 = 1 from rfl, Nat.mul_one]
  · rw [if_neg h, show k.toNat = 0 by omega, show tenTo 0 = 1 from rfl, Nat.mul_one]

theorem reaches_place {num den : Nat} (hn : 0 < num) (hd : 0 < den) :
    Reaches num den (placeOf num den - 1) ∧ ¬ Reaches num den (placeOf num den) := by
  obtain ⟨i, hi⟩ := Nat.exists_eq_succ_of_ne_zero
    (fun h0 => digits_ne_nil num (List.length_eq_zero_iff.1 h0))
  obtain ⟨j, hj⟩ := Nat.exists_eq_succ_of_ne_zero
    (fun h0 => digits_ne_nil den (List.length_eq_zero_iff.1 h0))
  have hi' : (digits num).length = i + 1 := hi
  have hj' : (digits den).length = j + 1 := hj
  have hlow : Reaches num den ((i : Int) - (j + 1 : Nat)) :=
    reaches_of_le (tenTo_le_of_length num i hn hi) (hj' ▸ (lt_tenTo_length den).le)
  have hhigh : ¬ Reaches num den (((i + 1 : Nat) : Int) - j) :=
    not_reaches_of_lt (hi' ▸ lt_tenTo_length num) (tenTo_le_of_length den j hd hj)
  have hrough : ((digits num).length : Int) - (digits den).length = (i : Int) - j := by omega
  unfold placeOf
  simp only
  by_cases h : Reaches num den (((digits num).length : Int) - (digits den).length)
  · rw [if_pos ((aboveRough_iff _).2 h), Int.add_sub_cancel]
    exact ⟨h, by rwa [hrough, show (i : Int) - j + 1 = ((i + 1 : Nat) : Int) - j by omega]⟩
  · rw [if_neg fun ha => h ((aboveRough_iff _).1 ha)]
    exact ⟨by rwa [hrough, show (i : Int) - j - 1 = (i : Int) - (j + 1 : Nat) by omega], h⟩

/-! ### A grid -/

/-- The lower neighbour on the grid of `n` digits has `n` digits. -/
theorem below_bounds {num den n : Nat} {place : Int} (hden : 0 < den)
    (h : Reaches num den (place - 1)) (h' : ¬ Reaches num den place) (hn : 0 < n) :
    let up := tenTo (-(place - n)).toNat
    let unit := den * tenTo (place - n).toNat
    tenTo (n - 1) * unit ≤ num * up ∧ num * up / unit < tenTo n := by
  intro up unit
  have hlow : (((place - n).toNat + (n - 1) : Nat) : Int) - ((-(place - n)).toNat : Nat) =
      place - 1 := by omega
  have hhigh : (((place - n).toNat + n : Nat) : Int) - ((-(place - n)).toNat : Nat) = place := by
    omega
  rw [reaches_iff hlow, tenTo_add] at h
  rw [reaches_iff hhigh, tenTo_add, Nat.not_le] at h'
  have hunit : 0 < unit := Nat.mul_pos hden (tenTo_pos _)
  refine ⟨?_, (Nat.div_lt_iff_lt_mul hunit).2 ?_⟩
  · calc tenTo (n - 1) * unit = den * (tenTo (place - n).toNat * tenTo (n - 1)) := by
          simp only [unit]; ring
      _ ≤ num * up := h
  · calc num * up < den * (tenTo (place - n).toNat * tenTo n) := h'
      _ = tenTo n * unit := by simp only [unit]; ring

/-- There are digits, as many as are counted, and the first of them is not zero. -/
def IsExact (d : Digits) : Prop := 0 < d.value ∧ (digits d.value).length = d.count

theorem isExact_trimmed {k value : Nat} {place : Int} (h : tenTo k ≤ value)
    (h' : value < tenTo (k + 1)) : IsExact (Digits.trimmed value place (k + 1)) := by
  induction k generalizing value with
  | zero =>
      have hvalue : value < 10 := h'
      have hpos : 0 < value := h
      rw [Digits.trimmed, if_neg (by omega)]
      exact ⟨hpos, length_digits_eq h h'⟩
  | succ k ih =>
      have hpos : 0 < value := (tenTo_pos _).trans_le h
      rw [Digits.trimmed]
      split
      · rw [tenTo_add, show tenTo 1 = 10 from rfl] at h h'
        exact ih (by omega) (by omega)
      · exact ⟨hpos, length_digits_eq h h'⟩

theorem isExact_settle {n d : Nat} {place : Int} (hn : 0 < n) (h : tenTo (n - 1) ≤ d)
    (h' : d ≤ tenTo n) : IsExact (shortestOf.settle d n place) := by
  obtain ⟨k, rfl⟩ := Nat.exists_eq_succ_of_ne_zero hn.ne'
  unfold shortestOf.settle
  split
  · exact ⟨Nat.one_pos, congrArg List.length (digits_of_lt (n := 1) (by decide))⟩
  case isFalse hne => exact isExact_trimmed h (Nat.lt_of_le_of_ne h' hne)

/-- A grid that is finer than an interval has one of the neighbours of a number in the interval. -/
theorem neighbour_inside {low num high unit : Nat} (hunit : 0 < unit) (hlow : low < num)
    (hhigh : num < high) (hfine : unit < high - low) :
    (low < num / unit * unit ∧ num / unit * unit < high) ∨
      (low < (num / unit + 1) * unit ∧ (num / unit + 1) * unit < high) := by
  have hbelow : num / unit * unit ≤ num := Nat.div_mul_le_self num unit
  have habove : num < (num / unit + 1) * unit := by
    rw [Nat.mul_comm]
    exact Nat.lt_mul_div_succ num hunit
  have hnext : (num / unit + 1) * unit = num / unit * unit + unit := by ring
  omega

theorem inside_of_strict {low high x : Nat} {closed : Bool} (h : low < x ∧ x < high) :
    (if closed = true then decide (low ≤ x) && decide (x ≤ high)
      else decide (low < x) && decide (x < high)) = true := by
  cases closed <;> simp [h.1, h.2, h.1.le, h.2.le]

section Grids

variable {num den low high : Nat} {closed : Bool} {place : Int}

/-- On the grid of seventeen digits the value has a neighbour that rounds to the number. -/
theorem inside_seventeen (hden : 0 < den) (hr : Reaches num den (place - 1))
    (hr' : ¬ Reaches num den place) (hlow : low < num) (hhigh : num < high)
    (hwide : num < tenTo 16 * (high - low)) :
    let up := tenTo (-(place - (17 : Nat))).toNat
    let unit := den * tenTo (place - (17 : Nat)).toNat
    (low * up < num * up / unit * unit ∧ num * up / unit * unit < high * up) ∨
      (low * up < (num * up / unit + 1) * unit ∧ (num * up / unit + 1) * unit < high * up) := by
  intro up unit
  have hup : 0 < up := tenTo_pos _
  have hunit : 0 < unit := Nat.mul_pos hden (tenTo_pos _)
  have hgrid : tenTo 16 * unit ≤ num * up := (below_bounds hden hr hr' (n := 17) (by decide)).1
  refine neighbour_inside hunit (Nat.mul_lt_mul_of_pos_right hlow hup)
    (Nat.mul_lt_mul_of_pos_right hhigh hup) ?_
  rw [← Nat.sub_mul]
  refine Nat.lt_of_mul_lt_mul_left (a := tenTo 16) ?_
  calc tenTo 16 * unit ≤ num * up := hgrid
    _ < tenTo 16 * (high - low) * up := Nat.mul_lt_mul_of_pos_right hwide hup
    _ = tenTo 16 * ((high - low) * up) := Nat.mul_assoc ..

/-- The grids have a neighbour that rounds to the number, at the latest that of seventeen digits. -/
theorem isExact_go (hden : 0 < den) (hr : Reaches num den (place - 1))
    (hr' : ¬ Reaches num den place) (hlow : low < num) (hhigh : num < high)
    (hwide : num < tenTo 16 * (high - low)) :
    ∀ left n, n + left = 18 → 0 < n → 0 < left →
      IsExact (shortestOf.go num den low high closed place left n) := by
  intro left
  induction left with
  | zero => intro n _ _ h; exact absurd h (Nat.lt_irrefl 0)
  | succ left ih =>
      intro n hsum hn _
      obtain ⟨hleast, hgreatest⟩ := below_bounds hden hr hr' hn
      have hunit : 0 < den * tenTo (place - n).toNat := Nat.mul_pos hden (tenTo_pos _)
      rw [← Nat.le_div_iff_mul_le hunit] at hleast
      have hup : (if place - n < 0 then tenTo (-(place - n)).toNat else 1) =
          tenTo (-(place - n)).toNat := by
        split
        · rfl
        · rw [show (-(place - n)).toNat = 0 by omega]; rfl
      have hscale : (if place - n ≥ 0 then den * tenTo (place - n).toNat else den) =
          den * tenTo (place - n).toNat := by
        split
        · rfl
        · rw [show (place - n).toNat = 0 by omega]; exact (Nat.mul_one den).symm
      unfold shortestOf.go
      simp only [hup, hscale]
      split
      · refine isExact_settle hn ?_ ?_
        · split
          · exact hleast
          · split
            · omega
            · split <;> omega
        · split
          · exact hgreatest.le
          · split
            · exact hgreatest
            · split
              · exact hgreatest.le
              · exact hgreatest
      · exact isExact_settle hn hleast hgreatest.le
      · exact isExact_settle hn (by omega) hgreatest
      case h_4 hbelow habove =>
          by_cases hlast : n = 17
          · subst hlast
            rcases inside_seventeen hden hr hr' hlow hhigh hwide with h | h
            · rw [inside_of_strict h] at hbelow; cases hbelow
            · rw [inside_of_strict h] at habove; cases habove
          · exact ih (n + 1) (by omega) (by omega) (by omega)

end Grids

/-! ### A number -/

theorem shifted_pos (k : Int) : 0 < (shifted 1 1 k).1 ∧ 0 < (shifted 1 1 k).2 := by
  have hpos : ∀ j, 0 < twoTo j := fun j => Nat.pow_pos (by decide)
  unfold shifted
  split
  · exact ⟨by rw [Nat.one_mul]; exact hpos _, Nat.one_pos⟩
  · exact ⟨Nat.one_pos, by rw [Nat.one_mul]; exact hpos _⟩

theorem isExact_shortestOf {m : Nat} (hm : 0 < m) (hlt : m < twoTo 53) (q : Int) :
    IsExact (shortestOf m q) := by
  obtain ⟨hscale, hden⟩ := shifted_pos (q - 2)
  have hnum : 0 < 4 * m * (shifted 1 1 (q - 2)).1 := Nat.mul_pos (by omega) hscale
  obtain ⟨hr, hr'⟩ := reaches_place hnum hden
  have hlt' : m < 9007199254740992 := hlt
  have hwidth : ∀ gap, gap = 1 ∧ m = 4503599627370496 ∨ gap = 2 →
      4 * m < tenTo 16 * (4 * m + 2 - (4 * m - gap)) := by
    intro gap hgap
    rw [show tenTo 16 = 10000000000000000 from rfl]
    omega
  have hgap : ∀ c : Prop, [Decidable c] → (c → m = 4503599627370496) →
      (if c then 1 else 2) = 1 ∧ m = 4503599627370496 ∨ (if c then 1 else 2) = 2 := by
    intro c _ hc
    split
    case isTrue h => exact .inl ⟨rfl, hc h⟩
    case isFalse => exact .inr rfl
  unfold shortestOf
  refine isExact_go hden hr hr' ?_ ?_ ?_ 17 1 rfl (by decide) (by decide)
  · refine Nat.mul_lt_mul_of_pos_right ?_ hscale
    split <;> omega
  · exact Nat.mul_lt_mul_of_pos_right (by omega) hscale
  · rw [← Nat.sub_mul, ← Nat.mul_assoc]
    exact Nat.mul_lt_mul_of_pos_right (hwidth _ (hgap _ fun h => h.1)) hscale

/-- **Digits.**  Zero is written as one digit; every other finite number has digits, as many as are
counted, and the first of them is not zero. -/
theorem shortest_spec {x : Binary64} {d : Digits} (h : x.shortest = some d) :
    d = ⟨0, 1, 1⟩ ∨ IsExact d := by
  obtain ⟨⟨m, q⟩, hm, rfl⟩ := Option.map_eq_some_iff.1 h
  have hlt : m < twoTo 53 := by
    have hfraction : x.fractionField < twoTo 52 := Nat.mod_lt _ (by decide)
    have hhalf : twoTo 53 = twoTo 52 + twoTo 52 := rfl
    unfold magnitude? at hm
    split at hm
    · cases hm
    · split at hm
      · cases hm; omega
      · cases hm; omega
  by_cases h0 : m = 0
  · exact .inl (if_pos h0)
  · exact .inr (by simpa only [if_neg h0] using isExact_shortestOf (Nat.pos_of_ne_zero h0) hlt q)

end RouteServer.Binary64

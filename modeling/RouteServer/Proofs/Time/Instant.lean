import RouteServer.Proofs.Text.Numeral
import RouteServer.Proofs.Time.Date
import RouteServer.Time.Instant

/-!
# Time — a point in time is read back

The text of a point in time that a clock can show (`Instant.IsShown`) is read as this point
(`Instant.read_text`).  Every part of the text is a number with a mark behind it, and the reader
takes off one part after the other.  The time up to a later point is no shorter (`secondsTo_mono`).
-/

namespace RouteServer.Text

theorem length_padded {width n : Nat} (h : (digits n).length ≤ width) :
    (padded width n).length = width := by
  simp only [padded, List.length_append, List.length_replicate]
  omega

theorem digit?_of_mem_padded {width n : Nat} {c : Char} (h : c ∈ padded width n) :
    (digit? c).isSome := by
  rcases List.mem_append.1 h with h | h
  · rw [List.eq_of_mem_replicate h]; rfl
  · exact digit?_of_mem_digits h

theorem padded_ne_nil (width n : Nat) : padded width n ≠ [] := fun h =>
  digits_ne_nil n (List.append_eq_nil_iff.1 h).2

theorem not_isBlank_of_digit {c : Char} (h : (digit? c).isSome) : isBlank c = false := by
  obtain ⟨d, hd⟩ := Option.isSome_iff_exists.1 h
  obtain ⟨hlt, rfl⟩ := digit?_eq_some hd
  revert d
  decide

theorem trimStart_cons {c : Char} (h : isBlank c = false) (cs : List Char) :
    trimStart (c :: cs) = c :: cs := by
  simp [trimStart, h]

end RouteServer.Text

namespace RouteServer.Time.Instant

open RouteServer.Text

/-- A point in time that a clock can show: its day is one of the calendar, and no second has been put
in. -/
structure IsShown (i : Instant) : Prop where
  isValid : (Date.ofNumber (i.seconds.fdiv 86400)).isValid
  nanos_lt : i.nanos < nanosPerSecond

instance (i : Instant) : Decidable i.IsShown :=
  decidable_of_iff ((Date.ofNumber (i.seconds.fdiv 86400)).isValid ∧ i.nanos < nanosPerSecond)
    ⟨fun h => ⟨h.1, h.2⟩, fun h => ⟨h.1, h.2⟩⟩

/-! ### Numbers -/

theorem takeNumber_zeros (zeros width count : Nat) (cs : List Char) :
    takeNumber (zeros + width) 0 count (List.replicate zeros '0' ++ cs) =
      takeNumber width 0 (count + zeros) cs := by
  induction zeros generalizing count with
  | zero => simp
  | succ zeros ih =>
      have hzero : digit? '0' = some 0 := rfl
      rw [show zeros + 1 + width = zeros + width + 1 by omega, List.replicate_succ,
        List.cons_append, takeNumber]
      simp only [hzero]
      rw [ih, show count + 1 + zeros = count + (zeros + 1) by omega]

theorem takeNumber_digits (n width count : Nat) (cs : List Char) :
    takeNumber ((digits n).length + width) 0 count (digits n ++ cs) =
      takeNumber width n (count + (digits n).length) cs := by
  rw [digits_eq_numeral]
  revert width count cs
  refine numeral_induction (P := fun n ds => ∀ width count cs,
    takeNumber (ds.length + width) 0 count (ds ++ cs) = takeNumber width n (count + ds.length) cs)
    ?_ ?_ n
  · intro n hn width count cs
    rw [List.length_singleton, Nat.add_comm 1 width, List.singleton_append, takeNumber]
    simp only [digit?_digitChar n hn, Nat.mul_zero, Nat.zero_add]
  · intro n hn ih width count cs
    rw [List.length_append, List.length_singleton, List.append_assoc, Nat.add_assoc, ih,
      Nat.add_comm 1 width, List.singleton_append, takeNumber]
    simp only [digit?_digitChar (n % 10) (Nat.mod_lt n (by omega))]
    rw [show 10 * (n / 10) + n % 10 = n by omega, Nat.add_assoc]

theorem takeNumber_padded (k n more count : Nat) (cs : List Char) :
    takeNumber ((padded k n).length + more) 0 count (padded k n ++ cs) =
      takeNumber more n (count + (padded k n).length) cs := by
  have hlength : (padded k n).length = (k - (digits n).length) + (digits n).length := by
    simp only [padded, List.length_append, List.length_replicate]
  rw [hlength, padded, List.append_assoc, Nat.add_assoc, takeNumber_zeros, takeNumber_digits,
    Nat.add_assoc]

/-- What follows a number starts with a mark. -/
def Marked (cs : List Char) : Prop := ∃ mark rest, cs = mark :: rest ∧ digit? mark = none

theorem takeNumber_marked {cs : List Char} (h : Marked cs) (width n count : Nat) :
    takeNumber width n count cs = (n, count, cs) := by
  obtain ⟨mark, rest, rfl, hmark⟩ := h
  cases width with
  | zero => rfl
  | succ width => rw [takeNumber, hmark]

/-- A number in front of a mark is read. -/
theorem number?_padded {width k n : Nat} {cs : List Char} (hwidth : (padded k n).length ≤ width)
    (h : Marked cs) : number? width (padded k n ++ cs) = some (n, cs) := by
  obtain ⟨more, rfl⟩ := Nat.exists_eq_add_of_le hwidth
  have hpos := List.length_pos_iff.2 (padded_ne_nil k n)
  rw [number?, takeNumber_padded, takeNumber_marked h]
  obtain ⟨len, hlen⟩ := Nat.exists_eq_succ_of_ne_zero (Nat.ne_of_gt hpos)
  rw [Nat.zero_add, hlen]
  rfl

theorem trimStart_padded (k n : Nat) (cs : List Char) :
    trimStart (padded k n ++ cs) = padded k n ++ cs := by
  obtain ⟨d, ds, hds⟩ := List.exists_cons_of_ne_nil (padded_ne_nil k n)
  have hdigit : (digit? d).isSome := digit?_of_mem_padded (hds ▸ List.mem_cons_self)
  rw [hds, List.cons_append, trimStart_cons (not_isBlank_of_digit hdigit)]

theorem bounded?_padded {low high n : Nat} {cs : List Char} (hlow : low ≤ n) (hhigh : n ≤ high)
    (hn : n < 100) (h : Marked cs) : bounded? low high (padded 2 n ++ cs) = some (n, cs) := by
  have hlength : (padded 2 n).length = 2 :=
    length_padded (length_digits_le (by omega) (by omega))
  rw [bounded?, trimStart_padded, number?_padded (by omega) h]
  exact if_pos ⟨hlow, hhigh⟩

/-! ### The parts of a text -/

theorem year?_yearText (year : Int) {cs : List Char} (h : Marked cs) :
    year? (yearText year ++ cs) = some (year, cs) := by
  unfold yearText
  split
  case isTrue hyear =>
      have hlength : (padded 4 year.natAbs).length = 4 :=
        length_padded (length_digits_le (by omega) (by omega))
      rw [year?, trimStart_padded]
      -- the first character is a digit, so it is no sign
      obtain ⟨d, ds, hds⟩ := List.exists_cons_of_ne_nil (padded_ne_nil 4 year.natAbs)
      have hdigit : (digit? d).isSome := digit?_of_mem_padded (hds ▸ List.mem_cons_self)
      split
      case h_1 heq =>
          rw [hds] at heq
          cases (List.cons.inj heq).1
          exact absurd hdigit (by decide)
      case h_2 heq =>
          rw [hds] at heq
          cases (List.cons.inj heq).1
          exact absurd hdigit (by decide)
      case h_3 =>
          rw [number?_padded (by omega) h, Option.map_some]
          simp only [Int.natAbs_of_nonneg hyear.1]
  case isFalse =>
      by_cases hneg : year < 0
      · rw [if_pos hneg, List.cons_append, year?, trimStart_cons (by decide)]
        simp only
        rw [number?_padded (by simp) h, Option.map_some]
        simp only [Int.ofNat_natAbs_of_nonpos (Int.le_of_lt hneg), Int.neg_neg]
      · rw [if_neg hneg, List.cons_append, year?, trimStart_cons (by decide)]
        simp only
        rw [number?_padded (by simp) h, Option.map_some]
        simp only [Int.natAbs_of_nonneg (Int.not_lt.1 hneg)]

theorem behind?_cons {mark : Char} (h : isBlank mark = false) (cs : List Char) :
    behind? mark (mark :: cs) = some cs := by
  rw [behind?, trimStart_cons h]
  simp only [if_true]

theorem fraction?_fractionText {nanos : Nat} (h : nanos < nanosPerSecond) :
    fraction? (fractionText nanos ++ ['Z']) = some (nanos, ['Z']) := by
  have hmarked : Marked ['Z'] := ⟨'Z', [], rfl, rfl⟩
  have hpart : ∀ k n scale : Nat, (padded k n).length = k → k ≤ 9 → 0 < k →
      scale = tenTo (9 - k) → fraction? ('.' :: padded k n ++ ['Z']) = some (n * scale, ['Z']) := by
    intro k n scale hlength hk hpos hscale
    have htake := takeNumber_padded k n (9 - k) 0 ['Z']
    rw [hlength, show k + (9 - k) = 9 by omega, takeNumber_marked hmarked, Nat.zero_add] at htake
    rw [List.cons_append, fraction?, htake, hscale]
    obtain ⟨k, rfl⟩ := Nat.exists_eq_succ_of_ne_zero (Nat.ne_of_gt hpos)
    rfl
  unfold nanosPerSecond at h
  unfold fractionText
  by_cases hzero : nanos = 0
  · rw [if_pos hzero, hzero]; rfl
  rw [if_neg hzero]
  by_cases hmillis : nanos % 1000000 = 0
  · rw [if_pos hmillis, hpart 3 _ 1000000
      (length_padded (length_digits_le (by omega) (by omega))) (by omega) (by omega) (by decide)]
    congr 2
    omega
  rw [if_neg hmillis]
  by_cases hmicros : nanos % 1000 = 0
  · rw [if_pos hmicros, hpart 6 _ 1000
      (length_padded (length_digits_le (by omega) (by omega))) (by omega) (by omega) (by decide)]
    congr 2
    omega
  rw [if_neg hmicros, hpart 9 _ 1
      (length_padded (length_digits_le (by omega) (by omega))) (by omega) (by omega) (by decide),
    Nat.mul_one]

theorem marked_fractionText (nanos : Nat) (cs : List Char) :
    Marked (fractionText nanos ++ 'Z' :: cs) := by
  unfold fractionText
  split
  · exact ⟨'Z', cs, rfl, rfl⟩
  · split
    · exact ⟨'.', _, rfl, rfl⟩
    · split <;> exact ⟨'.', _, rfl, rfl⟩

/-- **A point in time that a clock can show is read back.** -/
theorem read_text {i : Instant} (h : i.IsShown) : read i.text = some i := by
  obtain ⟨hvalid, hnanos⟩ := h
  have hnumber := Date.number_ofNumber (i.seconds.fdiv 86400)
  obtain ⟨⟨year, month, day⟩, hdate⟩ : ∃ date, Date.ofNumber (i.seconds.fdiv 86400) = date :=
    ⟨_, rfl⟩
  obtain ⟨inDay, hinDay⟩ : ∃ inDay, (i.seconds.fmod 86400).toNat = inDay := ⟨_, rfl⟩
  have hseconds : i.seconds.fdiv 86400 * 86400 + inDay = i.seconds ∧ inDay < 86400 := by
    rw [Int.fmod_eq_emod_of_nonneg _ (by decide)] at hinDay
    rw [Int.fdiv_eq_ediv_of_nonneg _ (by decide)]
    omega
  rw [hdate] at hvalid hnumber
  have hday : 1 ≤ month ∧ month ≤ 12 ∧ 1 ≤ day ∧ day ≤ 31 := by
    simp only [Date.isValid, Bool.and_eq_true, decide_eq_true_eq] at hvalid
    have hle : Date.daysIn year month ≤ 31 := by
      unfold Date.daysIn
      split
      · split <;> omega
      · split <;> omega
    omega
  have hextra : i.nanos / nanosPerSecond = 0 := Nat.div_eq_of_lt hnanos
  have hrest : i.nanos % nanosPerSecond = i.nanos := Nat.mod_eq_of_lt hnanos
  have hmark : ∀ (c : Char) (cs : List Char), digit? c = none → Marked (c :: cs) :=
    fun c cs hc => ⟨c, cs, rfl, hc⟩
  have hcolon : ∀ cs, behind? ':' (':' :: cs) = some cs := behind?_cons (by decide)
  have hdash : ∀ cs, behind? '-' ('-' :: cs) = some cs := behind?_cons (by decide)
  have htext : i.text.toList = yearText year ++ '-' :: (padded 2 month ++ '-' :: (padded 2 day ++
      'T' :: (padded 2 (inDay / 3600) ++ ':' :: (padded 2 (inDay % 3600 / 60) ++
        ':' :: (padded 2 (inDay % 60) ++ (fractionText i.nanos ++ ['Z'])))))) := by
    simp only [text, hdate, hinDay, hextra, hrest, Nat.add_zero, String.toList_ofList,
      List.append_assoc, List.cons_append]
  have hhour : inDay / 3600 ≤ 23 := by omega
  have hminute : inDay % 3600 / 60 ≤ 59 := by omega
  have hsecond : inDay % 60 ≤ 60 := by omega
  have hoffset : offset? (trimStart ['Z']) = some (0, []) := rfl
  have htime : i.seconds.fdiv 86400 * 86400 +
      (((inDay / 3600 : Nat) : Int) * 3600 + ((inDay % 3600 / 60 : Nat) : Int) * 60 +
        ((min (inDay % 60) 59 : Nat) : Int)) - 0 = i.seconds := by omega
  -- the parts of the text are taken off one after the other
  unfold read
  rw [htext]
  refine Option.bind_eq_some_iff.2 ⟨_, year?_yearText year (hmark _ _ (by decide)), ?_⟩
  refine Option.bind_eq_some_iff.2 ⟨_, hdash _, ?_⟩
  refine Option.bind_eq_some_iff.2
    ⟨_, bounded?_padded hday.1 hday.2.1 (by omega) (hmark _ _ (by decide)), ?_⟩
  refine Option.bind_eq_some_iff.2 ⟨_, hdash _, ?_⟩
  refine Option.bind_eq_some_iff.2
    ⟨_, bounded?_padded hday.2.2.1 hday.2.2.2 (by omega) (hmark _ _ (by decide)), ?_⟩
  refine Option.bind_eq_some_iff.2 ⟨_, rfl, ?_⟩
  refine Option.bind_eq_some_iff.2
    ⟨_, bounded?_padded (Nat.zero_le _) hhour (by omega) (hmark _ _ (by decide)), ?_⟩
  refine Option.bind_eq_some_iff.2 ⟨_, hcolon _, ?_⟩
  refine Option.bind_eq_some_iff.2
    ⟨_, bounded?_padded (Nat.zero_le _) hminute (by omega) (hmark _ _ (by decide)), ?_⟩
  refine Option.bind_eq_some_iff.2 ⟨_, hcolon _, ?_⟩
  refine Option.bind_eq_some_iff.2
    ⟨_, bounded?_padded (Nat.zero_le _) hsecond (by omega) (marked_fractionText _ _), ?_⟩
  refine Option.bind_eq_some_iff.2 ⟨_, fraction?_fractionText hnanos, ?_⟩
  refine Option.bind_eq_some_iff.2 ⟨_, hoffset, ?_⟩
  have hlast : inDay % 60 ≠ 60 := by omega
  simp only [hnumber, htime, hdate, if_neg hlast, Nat.add_zero]
  exact if_pos ⟨rfl, hvalid, hvalid⟩

/-! ### The time between two points -/

/-- The nanoseconds since the first of January 1970. -/
def nanoseconds (i : Instant) : Int := i.seconds * nanosPerSecond + i.nanos

theorem secondsTo_mono {a b c : Instant} (h : b.nanoseconds ≤ c.nanoseconds) :
    a.secondsTo b ≤ a.secondsTo c := by
  unfold nanoseconds at h
  refine Int.tdiv_le_tdiv (by decide) ?_
  rw [Int.sub_mul, Int.sub_mul]
  omega

end RouteServer.Time.Instant

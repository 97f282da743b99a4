import RouteServer.Time.Date

/-!
# Time — the days and their numbers

A day of a cycle of four hundred years lies in the year that `ofNumber` puts it in
(`inYear_bounds`): the year found grows with the day, so it is enough to look at the first and the
last day of every year.  Hence the day with a number has this number (`number_ofNumber`).
-/

namespace RouteServer.Time.Date

/-- The days up to a day of a cycle without those that some years have more than others. -/
def evenDays (n : Nat) : Nat := n - n / 1460 + n / 36524 - n / 146096

/-- The year of a cycle in which a day of it lies. -/
def yearInCycle (n : Nat) : Nat := evenDays n / 365

/-- The first day of a year of a cycle. -/
def firstDay (year : Nat) : Nat := 365 * year + year / 4 - year / 100

theorem evenDays_le_succ (n : Nat) : evenDays n ≤ evenDays (n + 1) := by
  -- a day that a century takes back is given back every fourth time only
  have hfour : ∀ k : Nat, k / 146096 = k / 36524 / 4 := fun k => (Nat.div_div_eq_div_mul k 36524 4).symm
  have hyears : (n + 1) / 1460 ≤ n / 1460 + 1 := by omega
  have hcenturies : n / 36524 ≤ (n + 1) / 36524 := by omega
  have htaken : n / 36524 - n / 36524 / 4 ≤ (n + 1) / 36524 - (n + 1) / 36524 / 4 := by omega
  unfold evenDays
  rw [hfour, hfour]
  omega

theorem yearInCycle_mono {m n : Nat} (h : m ≤ n) : yearInCycle m ≤ yearInCycle n := by
  refine Nat.div_le_div_right ?_
  induction h with
  | refl => exact Nat.le_refl _
  | step _ ih => exact Nat.le_trans ih (evenDays_le_succ _)

/-- A year of a cycle starts with its first day, and the day before lies in another. -/
theorem yearInCycle_firstDay : ∀ year < 400,
    yearInCycle (firstDay year) = year ∧ (0 < year → yearInCycle (firstDay year - 1) < year) := by
  decide +kernel

/-- A day lies in its year. -/
theorem inYear_bounds {n : Nat} (h : n < 146097) :
    yearInCycle n < 400 ∧ firstDay (yearInCycle n) ≤ n ∧ n - firstDay (yearInCycle n) ≤ 365 := by
  have hlast : yearInCycle 146096 = 399 := by decide
  have hyear : yearInCycle n < 400 := by
    have := yearInCycle_mono (show n ≤ 146096 by omega)
    omega
  have hstart : firstDay (yearInCycle n) ≤ n := by
    rcases Nat.lt_or_ge n (firstDay (yearInCycle n)) with hlt | hge
    · have hpos : 0 < yearInCycle n := by
        rcases Nat.eq_zero_or_pos (yearInCycle n) with hz | hz
        · rw [hz, show firstDay 0 = 0 from rfl] at hlt
          omega
        · exact hz
      have hmono := yearInCycle_mono (show n ≤ firstDay (yearInCycle n) - 1 by omega)
      have := (yearInCycle_firstDay _ hyear).2 hpos
      omega
    · exact hge
  refine ⟨hyear, hstart, ?_⟩
  rcases Nat.lt_or_ge (yearInCycle n + 1) 400 with hnext | hnext
  · rcases Nat.lt_or_ge n (firstDay (yearInCycle n + 1)) with hlt | hge
    · unfold firstDay at hlt hstart ⊢
      omega
    · have hmono := yearInCycle_mono hge
      rw [(yearInCycle_firstDay _ hnext).1] at hmono
      omega
  · rw [show yearInCycle n = 399 by omega, show firstDay 399 = 145731 from rfl]
    omega

/-- A day from its cycle, its year within this and its place in that; years begin in March. -/
def ofPlace (cycle : Int) (year inYear : Nat) : Date :=
  let month := (5 * inYear + 2) / 153
  let early := month ≥ 10
  { year := cycle * 400 + year + (if early then 1 else 0)
    month := if early then month - 9 else month + 3
    day := inYear - (153 * month + 2) / 5 + 1 }

theorem number_ofPlace (cycle : Int) {year inYear : Nat} (hyear : year < 400)
    (hday : inYear ≤ 365) :
    (ofPlace cycle year inYear).number =
      cycle * daysPerCycle + firstDay year + inYear - epochShift := by
  have hfirst : (firstDay year : Int) = (year : Int) * 365 + (year : Int) / 4 - (year : Int) / 100 := by
    unfold firstDay
    omega
  have hcycle : (cycle * 400 + year).fdiv 400 = cycle := by
    rw [Int.fdiv_eq_ediv_of_nonneg _ (by decide)]
    omega
  have hofCycle : cycle * 400 + year - cycle * 400 = (year : Int) := by omega
  obtain ⟨month, hmonth⟩ : ∃ month, (5 * inYear + 2) / 153 = month := ⟨_, rfl⟩
  have hofYear : (153 * month + 2) / 5 ≤ inYear := by omega
  unfold number ofPlace
  simp only [hmonth]
  by_cases hearly : 10 ≤ month
  · have hshift : cycle * 400 + year + 1 - 1 = cycle * 400 + (year : Int) := by omega
    have hback : (month - 9 + 9) % 12 = month := by omega
    simp only [ge_iff_le, hearly, if_true, show month - 9 ≤ 2 by omega, hshift, hcycle, hback,
      hofCycle, hfirst]
    omega
  · have hback : (month + 3 + 9) % 12 = month := by omega
    simp only [ge_iff_le, hearly, if_false, show ¬ month + 3 ≤ 2 by omega, Int.add_zero, hcycle,
      hback, hofCycle, hfirst]
    omega

theorem ofNumber_eq_ofPlace (n : Int) :
    ofNumber n =
      let cycle := (n + epochShift).fdiv daysPerCycle
      let day := (n + epochShift - cycle * daysPerCycle).toNat
      ofPlace cycle (yearInCycle day) (day - firstDay (yearInCycle day)) := rfl

/-- **The day with a number has this number.** -/
theorem number_ofNumber (n : Int) : (ofNumber n).number = n := by
  obtain ⟨cycle, hcycle⟩ : ∃ cycle, (n + epochShift).fdiv daysPerCycle = cycle := ⟨_, rfl⟩
  obtain ⟨day, hday⟩ : ∃ day, (n + epochShift - cycle * daysPerCycle).toNat = day := ⟨_, rfl⟩
  have hin : n + epochShift - cycle * daysPerCycle = day ∧ day < 146097 := by
    rw [Int.fdiv_eq_ediv_of_nonneg _ (by decide)] at hcycle
    unfold daysPerCycle at hcycle hday ⊢
    omega
  obtain ⟨hyear, hfirst, hlast⟩ := inYear_bounds hin.2
  simp only [ofNumber_eq_ofPlace, hcycle, hday]
  rw [number_ofPlace _ hyear hlast]
  omega

end RouteServer.Time.Date

import ConsensusLedger.Proofs.Calendar

/-!
The calendar is the proleptic Gregorian one: the first day is 1970-01-01, and each day has the date
that comes next by the lengths of the months, where February has a day more in leap years. The years
that are kept begin and end with these days.
-/

namespace ConsensusLedger.Date

/-- Every fourth year, but of the hundredth years only every fourth. -/
def isLeapYear (year : Int) : Bool := year % 4 = 0 && (year % 100 ≠ 0 || year % 400 = 0)

def monthLength (year : Int) (month : Nat) : Nat :=
  if month = 2 then if isLeapYear year then 29 else 28
  else if month ∈ [4, 6, 9, 11] then 30
  else 31

/-- The date of the day after. -/
def next (d : Date) : Date :=
  if d.day < monthLength d.year d.month then { d with day := d.day + 1 }
  else if d.month < 12 then ⟨d.year, d.month + 1, 1⟩
  else ⟨d.year + 1, 1, 1⟩

/-- The number of days of an era until a year of the era is over. The last year is a day longer than
it would be for the years before it alone. -/
def daysThrough (yearOfEra : Nat) : Nat :=
  if yearOfEra = 399 then 146097 else daysBefore (yearOfEra + 1)

theorem lt_daysThrough_yearOfEra {e : Nat} (he : e < 146097) : e < daysThrough (yearOfEra e) := by
  obtain ⟨hyear, hbefore, -⟩ := yearOfEra_spec he
  unfold daysThrough
  split
  · exact he
  · rename_i hlast
    simp only [daysBefore] at *
    generalize hy : yearOfEra e = y at *
    unfold yearOfEra at hy
    have hfours : e / 1460 ≤ (y + 1) / 4 := by omega
    have hcenturies : y / 100 ≤ e / 36524 - e / 146096 := by
      obtain h | h | h | h : y / 100 = 0 ∨ y / 100 = 1 ∨ y / 100 = 2 ∨ y / 100 = 3 := by omega
      all_goals omega
    obtain hcentury | hcentury : (y + 1) % 100 = 0 ∨ (y + 1) / 100 = y / 100 := by omega
    · obtain h | h | h : y = 99 ∨ y = 199 ∨ y = 299 := by omega
      all_goals omega
    · omega

theorem daysBefore_mono {y z : Nat} (h : y ≤ z) : daysBefore y ≤ daysBefore z := by
  induction h with
  | refl => exact Nat.le_refl _
  | step _ ih =>
    refine Nat.le_trans ih ?_
    simp only [daysBefore]
    omega

/-- A day before the end of a year lies in no later year. -/
theorem year_le {e y z : Nat} (hy : y ≤ 399) (hbefore : daysBefore y ≤ e)
    (hthrough : e < daysThrough z) : y ≤ z := by
  refine Nat.le_of_not_lt fun hlater => ?_
  have hnext : daysBefore (z + 1) ≤ daysBefore y := daysBefore_mono hlater
  unfold daysThrough at hthrough
  split at hthrough <;> omega

/-- The year and its day are determined by the number of the day. -/
theorem ofDay_of_marchYear {n era : Int} {year dayOfYear : Nat} (hyear : year ≤ 399)
    (hday : daysBefore year + dayOfYear < daysThrough year)
    (hn : n + 719468 = 146097 * era + (daysBefore year + dayOfYear : Nat)) :
    ofDay n = ofMarchYear (era * 400 + year) dayOfYear := by
  have he : daysBefore year + dayOfYear < 146097 := by
    refine Nat.lt_of_lt_of_le hday ?_
    unfold daysThrough
    split
    · exact Nat.le_refl _
    · refine Nat.le_trans (daysBefore_mono (by omega : year + 1 ≤ 399)) (by decide)
  have hera : (n + 719468) / 146097 = era := by omega
  have hdayOfEra : ((n + 719468) % 146097).toNat = daysBefore year + dayOfYear := by omega
  have hfound : yearOfEra (daysBefore year + dayOfYear) = year := by
    obtain ⟨hle, hbefore, -⟩ := yearOfEra_spec he
    exact Nat.le_antisymm (year_le hle hbefore hday)
      (year_le hyear (Nat.le_add_right _ _) (lt_daysThrough_yearOfEra he))
  have hdate : ofDay n = ofMarchYear ((n + 719468) / 146097 * 400 +
      yearOfEra ((n + 719468) % 146097).toNat) (((n + 719468) % 146097).toNat -
        daysBefore (yearOfEra ((n + 719468) % 146097).toNat)) := rfl
  rw [hdate, hera, hdayOfEra, hfound, Nat.add_sub_cancel_left]

theorem exists_marchYear (n : Int) : ∃ (era : Int) (year dayOfYear : Nat), year ≤ 399 ∧
    daysBefore year + dayOfYear < daysThrough year ∧
      n + 719468 = 146097 * era + (daysBefore year + dayOfYear : Nat) := by
  have he : ((n + 719468) % 146097).toNat < 146097 := by omega
  obtain ⟨hyear, hbefore, -⟩ := yearOfEra_spec he
  refine ⟨(n + 719468) / 146097, yearOfEra ((n + 719468) % 146097).toNat,
    ((n + 719468) % 146097).toNat - daysBefore (yearOfEra ((n + 719468) % 146097).toNat), hyear, ?_⟩
  rw [Nat.add_sub_cancel' hbefore]
  exact ⟨lt_daysThrough_yearOfEra he, by omega⟩

/-- A year that is counted from March ends with the February of the next one. -/
theorem daysThrough_eq {y : Nat} (hy : y ≤ 399) (era : Int) :
    daysThrough y = daysBefore y + 337 + monthLength (era * 400 + y + 1) 2 := by
  simp only [daysThrough, daysBefore, monthLength, if_true, isLeapYear, Bool.and_eq_true,
    Bool.or_eq_true, decide_eq_true_eq]
  split <;> split <;> omega

theorem february_bounds (year : Int) : 28 ≤ monthLength year 2 ∧ monthLength year 2 ≤ 29 := by
  simp only [monthLength, if_true]
  split <;> decide

/-- A month counted from March, as it is counted from January. -/
def ofMarchMonth (month : Nat) : Nat := if month < 10 then month + 3 else month - 9

/-- A month counted from March, other than February, is over when the next one begins. -/
theorem monthLength_ofMarchMonth {month : Nat} (hmonth : month < 11) (year : Int) :
    monthLength year (ofMarchMonth month) =
      (153 * (month + 1) + 2) / 5 - (153 * month + 2) / 5 := by
  have hall : ∀ month < 11, ofMarchMonth month ≠ 2 ∧
      (if ofMarchMonth month ∈ [4, 6, 9, 11] then 30 else 31) =
        (153 * (month + 1) + 2) / 5 - (153 * month + 2) / 5 := by decide
  obtain ⟨hfebruary, hlength⟩ := hall month hmonth
  rw [monthLength, if_neg hfebruary, hlength]

theorem ofMarchYear_eq {year : Int} {day month : Nat} (hmonth : month ≤ 11)
    (h : (5 * day + 2) / 153 = month) :
    ofMarchYear year day = ⟨year + if 10 ≤ month then 1 else 0, ofMarchMonth month,
      day - (153 * month + 2) / 5 + 1⟩ := by
  subst h
  simp only [ofMarchYear, ofMarchMonth, Date.mk.injEq, and_true]
  split <;> split <;> split <;> omega

theorem next_of_lt {d : Date} (h : d.day < monthLength d.year d.month) :
    d.next = ⟨d.year, d.month, d.day + 1⟩ := if_pos h

theorem next_of_eq {d : Date} (h : d.day = monthLength d.year d.month) :
    d.next = if d.month < 12 then ⟨d.year, d.month + 1, 1⟩ else ⟨d.year + 1, 1, 1⟩ :=
  if_neg (by omega)

/-- The next date, within a year that is counted from March. -/
theorem next_ofMarchYear {year : Int} {day : Nat}
    (hday : day + 1 < 337 + monthLength (year + 1) 2) :
    (ofMarchYear year day).next = ofMarchYear year (day + 1) := by
  obtain ⟨-, hfebruary⟩ := february_bounds (year + 1)
  generalize hm : (5 * day + 2) / 153 = month
  have hmonth : month ≤ 11 := by omega
  rw [ofMarchYear_eq hmonth hm]
  obtain hsame | hnew : (5 * (day + 1) + 2) / 153 = month ∨
      (5 * (day + 1) + 2) / 153 = month + 1 := by omega
  · have hlength : day - (153 * month + 2) / 5 + 1 <
        monthLength (year + if 10 ≤ month then 1 else 0) (ofMarchMonth month) := by
      obtain hother | rfl : month < 11 ∨ month = 11 := by omega
      · rw [monthLength_ofMarchMonth hother]
        omega
      · change day - 337 + 1 < monthLength (year + 1) 2
        omega
    rw [next_of_lt hlength, ofMarchYear_eq hmonth hsame, Nat.sub_add_comm (by omega)]
  · have hother : month < 11 := by omega
    have hlength : day - (153 * month + 2) / 5 + 1 =
        monthLength (year + if 10 ≤ month then 1 else 0) (ofMarchMonth month) := by
      rw [monthLength_ofMarchMonth hother]
      omega
    have hfirst : day + 1 - (153 * (month + 1) + 2) / 5 + 1 = 1 := by omega
    have hmonth : month + 1 ≤ 11 := by omega
    rw [next_of_eq hlength, ofMarchYear_eq hmonth hnew, hfirst]
    -- Only December is followed by a month of another year.
    obtain rfl | hsame : month = 9 ∨ month ≠ 9 := by omega
    · simp [ofMarchMonth]
    · have hbefore : ofMarchMonth month < 12 ∧ ofMarchMonth (month + 1) = ofMarchMonth month + 1 := by
        unfold ofMarchMonth
        split <;> split <;> omega
      have hyear : 10 ≤ month + 1 ↔ 10 ≤ month := by omega
      simp [hbefore, hyear]

/-- The next date, at the end of a year that is counted from March. -/
theorem next_ofMarchYear_last {year : Int} {day : Nat}
    (hday : day + 1 = 337 + monthLength (year + 1) 2) :
    (ofMarchYear year day).next = ofMarchYear (year + 1) 0 := by
  obtain ⟨hfebruary, hfebruary'⟩ := february_bounds (year + 1)
  have hmonth : (5 * day + 2) / 153 = 11 := by omega
  have hlength : day - 337 + 1 = monthLength (year + 1) 2 := by omega
  rw [ofMarchYear_eq (Nat.le_refl 11) hmonth, next_of_eq hlength]
  simp [ofMarchYear, ofMarchMonth]

@[simp] theorem ofDay_zero : ofDay 0 = ⟨1970, 1, 1⟩ := by decide

/-- The date of the next day is the next date. -/
theorem ofDay_succ (n : Int) : ofDay (n + 1) = (ofDay n).next := by
  obtain ⟨era, year, day, hyear, hday, hn⟩ := exists_marchYear n
  have hlength := daysThrough_eq hyear era
  rw [ofDay_of_marchYear hyear hday hn]
  by_cases hmore : daysBefore year + (day + 1) < daysThrough year
  · have hn : n + 1 + 719468 = 146097 * era + (daysBefore year + (day + 1) : Nat) := by omega
    rw [ofDay_of_marchYear hyear hmore hn, next_ofMarchYear (by omega)]
  · rw [next_ofMarchYear_last (by omega)]
    by_cases hlast : year = 399
    · subst hlast
      have hera : daysBefore 0 + 0 < daysThrough 0 := by decide
      have hthrough : daysThrough 399 = 146097 := rfl
      have hbefore : daysBefore 0 = 0 := rfl
      have hn : n + 1 + 719468 = 146097 * (era + 1) + (daysBefore 0 + 0 : Nat) := by omega
      rw [ofDay_of_marchYear (by decide) hera hn]
      congr 1
      omega
    · have hthrough : daysThrough year = daysBefore (year + 1) := if_neg hlast
      have hnext : daysBefore (year + 1) + 0 < daysThrough (year + 1) := by
        rw [daysThrough_eq (by omega) era]
        omega
      have hn : n + 1 + 719468 = 146097 * era + (daysBefore (year + 1) + 0 : Nat) := by omega
      rw [ofDay_of_marchYear (by omega) hnext hn]
      congr 1
      omega

/-- The years that are kept begin with −262143-01-01 and end with +262142-12-31. -/
theorem inRange_ofDay_iff {n : Int} :
    (ofDay n).inRange = true ↔ -96465292 ≤ n ∧ n ≤ 95026236 := by
  obtain ⟨era, year, day, hyear, hday, hn⟩ := exists_marchYear n
  have hlength : day < 366 := by
    unfold daysThrough at hday
    simp only [daysBefore] at hday
    split at hday <;> omega
  have hyear' : (ofDay n).year = era * 400 + year + if 306 ≤ day then 1 else 0 := by
    rw [ofDay_of_marchYear hyear hday hn]
    simp only [ofMarchYear]
    split <;> split <;> split <;> omega
  have hdays : n + 719468 = 365 * (era * 400 + year) + (era * 400 + year) / 4 -
      (era * 400 + year) / 100 + (era * 400 + year) / 400 + day := by
    rw [hn, daysBefore]
    omega
  rw [inRange, Bool.and_eq_true, decide_eq_true_eq, decide_eq_true_eq, hyear']
  generalize era * 400 + (year : Int) = y at hdays
  clear hyear' hn hday hyear
  -- The bounds are new years, which lie within the years that are counted from March.
  obtain h | rfl | h | rfl | h : y ≤ -262145 ∨ y = -262144 ∨ (-262143 ≤ y ∧ y ≤ 262141) ∨
      y = 262142 ∨ 262143 ≤ y := by omega
  all_goals split <;> omega

end ConsensusLedger.Date

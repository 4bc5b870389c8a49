import ConsensusLedger.Calendar

/-!
A day has a date of its own, and a time of the calendar has a text of its own. The year can have any
number of digits, so the texts are taken apart from the end, where every part has a fixed width.
-/

namespace ConsensusLedger

namespace Date

/-!
Days from dates. A date is a year that begins in March, the era of 400 years that the year lies in, and
the day of that year; each of them is found again from the date.
-/

/-- The year of an era that a day of the era lies in, both counted from zero. -/
def yearOfEra (dayOfEra : Nat) : Nat :=
  (dayOfEra - dayOfEra / 1460 + dayOfEra / 36524 - dayOfEra / 146096) / 365

/-- The number of days of an era before a year of the era. -/
def daysBefore (yearOfEra : Nat) : Nat := 365 * yearOfEra + yearOfEra / 4 - yearOfEra / 100

/-- The date of a day of a year that is counted from March. -/
def ofMarchYear (year : Int) (dayOfYear : Nat) : Date :=
  let monthFromMarch := (5 * dayOfYear + 2) / 153
  let month := if monthFromMarch < 10 then monthFromMarch + 3 else monthFromMarch - 9
  { year := year + if month ≤ 2 then 1 else 0
    month := month
    day := dayOfYear - (153 * monthFromMarch + 2) / 5 + 1 }

/-- Every fourth year of an era is a day longer, except for the hundredth, two hundredth and three
hundredth; the case of the last day of the era is apart, as the leap day of its last year. -/
theorem yearOfEra_spec {e : Nat} (he : e < 146097) :
    yearOfEra e ≤ 399 ∧ daysBefore (yearOfEra e) ≤ e ∧ e - daysBefore (yearOfEra e) ≤ 365 := by
  simp only [daysBefore]
  generalize hy : yearOfEra e = y
  unfold yearOfEra at hy
  have hfours : y / 4 ≤ e / 1460 := by omega
  have hfours' : e / 1460 ≤ y / 4 + 1 := by omega
  have hcenturies : e / 36524 - e / 146096 ≤ y / 100 := by omega
  have hcenturies' : y / 100 ≤ e / 36524 - e / 146096 := by
    obtain hlast | hlast : e / 146096 = 0 ∨ e = 146096 := by omega
    · obtain h | h | h | h : y / 100 = 0 ∨ y / 100 = 1 ∨ y / 100 = 2 ∨ y / 100 = 3 := by omega
      all_goals omega
    · omega
  refine ⟨by omega, ?_, ?_⟩
  · omega
  · omega

theorem ofDay_eq (n : Int) :
    ∃ (era : Int) (year dayOfYear : Nat), year ≤ 399 ∧ dayOfYear ≤ 365 ∧
      n + 719468 = 146097 * era + (daysBefore year + dayOfYear : Nat) ∧
      ofDay n = ofMarchYear (era * 400 + year) dayOfYear := by
  have he : ((n + 719468) % 146097).toNat < 146097 := by omega
  obtain ⟨hyear, hbefore, hday⟩ := yearOfEra_spec he
  refine ⟨(n + 719468) / 146097, _, _, hyear, hday, ?_, rfl⟩
  rw [Nat.add_sub_cancel' hbefore]
  omega

theorem ofMarchYear_inj {year year' : Int} {day day' : Nat} (hday : day ≤ 365) (hday' : day' ≤ 365)
    (h : ofMarchYear year day = ofMarchYear year' day') : year = year' ∧ day = day' := by
  simp only [ofMarchYear, Date.mk.injEq] at h
  obtain ⟨hyear, hmonth, hrest⟩ := h
  have hmonths : (5 * day + 2) / 153 = (5 * day' + 2) / 153 := by
    split at hmonth <;> split at hmonth <;> omega
  rw [hmonth] at hyear
  exact ⟨by omega, by omega⟩

theorem ofDay_inj {n m : Int} (h : ofDay n = ofDay m) : n = m := by
  obtain ⟨era, year, day, hyear, hday, hn, hdate⟩ := ofDay_eq n
  obtain ⟨era', year', day', hyear', hday', hm, hdate'⟩ := ofDay_eq m
  rw [hdate, hdate'] at h
  obtain ⟨hyears, rfl⟩ := ofMarchYear_inj hday hday' h
  obtain rfl : era = era' := by omega
  obtain rfl : year = year' := by omega
  omega

theorem month_ofDay_lt (n : Int) : (ofDay n).month < 100 := by
  obtain ⟨era, year, day, -, hday, -, hdate⟩ := ofDay_eq n
  rw [hdate]
  simp only [ofMarchYear]
  split <;> omega

theorem day_ofDay_lt (n : Int) : (ofDay n).day < 100 := by
  obtain ⟨era, year, day, -, hday, -, hdate⟩ := ofDay_eq n
  rw [hdate]
  simp only [ofMarchYear]
  omega

/-!
Numbers with leading zeros.
-/

theorem toList_padded (width n : Nat) :
    (padded width n).toList =
      List.replicate (width - (Nat.toDigits 10 n).length) '0' ++ Nat.toDigits 10 n := by
  simp only [padded, Nat.toString_eq_ofList_toDigits, String.toList_append, String.toList_ofList,
    String.length_ofList]

theorem padded_inj {width n m : Nat} (h : (padded width n).toList = (padded width m).toList) :
    n = m := by
  have hvalue (n : Nat) : Nat.ofDigitChars 10 (padded width n).toList 0 = n := by
    rw [toList_padded, Nat.ofDigitChars_append, Nat.ofDigitChars_replicate_zero, Nat.mul_zero,
      Nat.ofDigitChars_ten_toDigits]
  rw [← hvalue n, h, hvalue]

theorem length_padded {width n : Nat} (hwidth : 0 < width) (hn : n < Nat.pow 10 width) :
    (padded width n).toList.length = width := by
  have hdigits := (Nat.length_toDigits_le_iff (by decide : 1 < 10) hwidth).2 hn
  rw [toList_padded, List.length_append, List.length_replicate]
  omega

theorem isDigit_of_mem_padded {width n : Nat} {c : Char} (hc : c ∈ (padded width n).toList) :
    c.isDigit = true := by
  rw [toList_padded] at hc
  rcases List.mem_append.1 hc with hzero | hdigit
  · rw [List.eq_of_mem_replicate hzero]
    rfl
  · exact Nat.isDigit_of_mem_toDigits (by decide) (by decide) hdigit

theorem notMem_padded {width n : Nat} {c : Char} (hc : c.isDigit = false) :
    c ∉ (padded width n).toList := by
  intro hmem
  rw [isDigit_of_mem_padded hmem] at hc
  cases hc

/-- Two numbers of the same fixed width are told apart in whatever texts they stand in front of. -/
theorem padded_append_inj {width n m : Nat} {rest rest' : List Char} (hwidth : 0 < width)
    (hn : n < Nat.pow 10 width) (hm : m < Nat.pow 10 width)
    (h : (padded width n).toList ++ rest = (padded width m).toList ++ rest') :
    n = m ∧ rest = rest' := by
  have hlength := (length_padded hwidth hn).trans (length_padded hwidth hm).symm
  obtain ⟨hnumber, hrest⟩ := List.append_inj h hlength
  exact ⟨padded_inj hnumber, hrest⟩

/-!
Dates and times in text.
-/

/-- The year, with a sign when it is outside 0 to 9999. -/
def yearText (year : Int) : String :=
  if 0 ≤ year ∧ year ≤ 9999 then padded 4 year.toNat
  else (if year < 0 then "-" else "+") ++ padded 4 year.natAbs

theorem toList_yearText (year : Int) :
    (yearText year).toList =
      if 0 ≤ year ∧ year ≤ 9999 then (padded 4 year.toNat).toList
      else (if year < 0 then '-' else '+') :: (padded 4 year.natAbs).toList := by
  unfold yearText
  split
  · rfl
  · split <;> rw [String.toList_append] <;> rfl

theorem yearText_inj {year year' : Int} (h : (yearText year).toList = (yearText year').toList) :
    year = year' := by
  -- A sign is not a digit, so a year with a sign is told from one without.
  have hsigned {n : Nat} {sign : Char} {rest : List Char}
      (hdigits : (padded 4 n).toList = sign :: rest) (hsign : sign.isDigit = false) : False :=
    notMem_padded hsign (hdigits ▸ List.mem_cons_self : sign ∈ (padded 4 n).toList)
  have hsign (year : Int) : (if year < 0 then '-' else '+').isDigit = false := by split <;> rfl
  rw [toList_yearText, toList_yearText] at h
  by_cases hplain : 0 ≤ year ∧ year ≤ 9999 <;> by_cases hplain' : 0 ≤ year' ∧ year' ≤ 9999
  · rw [if_pos hplain, if_pos hplain'] at h
    have hnumber := padded_inj h
    omega
  · rw [if_pos hplain, if_neg hplain'] at h
    exact (hsigned h (hsign year')).elim
  · rw [if_neg hplain, if_pos hplain'] at h
    exact (hsigned h.symm (hsign year)).elim
  · rw [if_neg hplain, if_neg hplain'] at h
    obtain ⟨hsigns, hnumber⟩ := List.cons.inj h
    have hnumber := padded_inj hnumber
    split at hsigns <;> split at hsigns
    · omega
    · cases hsigns
    · cases hsigns
    · omega

theorem toList_text (d : Date) :
    d.text.toList = (yearText d.year).toList ++
      '-' :: ((padded 2 d.month).toList ++ '-' :: (padded 2 d.day).toList) := by
  have htext : d.text =
      yearText d.year ++ "-" ++ padded 2 d.month ++ "-" ++ padded 2 d.day := rfl
  have hdash : "-".toList = ['-'] := rfl
  simp only [htext, String.toList_append, List.append_assoc, hdash, List.cons_append,
    List.nil_append]

/-- Month and day have two digits, as those of every date of a day. -/
theorem text_inj {d d' : Date} (hmonth : d.month < 100) (hmonth' : d'.month < 100)
    (hday : d.day < 100) (hday' : d'.day < 100) (h : d.text.toList = d'.text.toList) : d = d' := by
  have hwidth {n : Nat} (hn : n < 100) := length_padded (by decide : 0 < 2) hn
  rw [toList_text, toList_text] at h
  obtain ⟨hyears, h⟩ := List.append_inj' h (by
    simp only [List.length_cons, List.length_append, hwidth hmonth, hwidth hmonth', hwidth hday,
      hwidth hday'])
  obtain ⟨hmonths, h⟩ := padded_append_inj (by decide) hmonth hmonth' (List.cons.inj h).2
  have hdays := padded_inj (List.cons.inj h).2
  have hyears := yearText_inj hyears
  cases d
  cases d'
  cases hyears
  cases hmonths
  cases hdays
  rfl

end Date

open Date

/-- The time of day from hours to nanoseconds, for a second that is not a leap second. -/
def clockText (second : Int) (nanos : Nat) : List Char :=
  let s := (second % 86400).toNat
  'T' :: ((padded 2 (s / 3600)).toList ++ ':' :: ((padded 2 (s / 60 % 60)).toList ++
    ':' :: ((padded 2 (s % 60)).toList ++ '.' :: ((padded 9 nanos).toList ++ ['Z']))))

theorem length_clockText {second : Int} {nanos : Nat} (hnanos : nanos < 1000000000) :
    (clockText second nanos).length = 20 := by
  have hwidth {n : Nat} (hn : n < 100) := length_padded (by decide : 0 < 2) hn
  have hhour : (second % 86400).toNat / 3600 < 100 := by omega
  have hminute : (second % 86400).toNat / 60 % 60 < 100 := by omega
  have hsecond : (second % 86400).toNat % 60 < 100 := by omega
  simp only [clockText, List.length_cons, List.length_append, List.length_nil, hwidth hhour,
    hwidth hminute, hwidth hsecond, length_padded (by decide : 0 < 9) hnanos]

theorem clockText_inj {second second' : Int} {nanos nanos' : Nat} (hnanos : nanos < 1000000000)
    (hnanos' : nanos' < 1000000000) (h : clockText second nanos = clockText second' nanos') :
    second % 86400 = second' % 86400 ∧ nanos = nanos' := by
  have hpart {n m : Nat} {rest rest' : List Char} {c : Char} (hn : n < 100) (hm : m < 100)
      (h : c :: ((padded 2 n).toList ++ rest) = c :: ((padded 2 m).toList ++ rest')) :=
    padded_append_inj (by decide) hn hm (List.cons.inj h).2
  obtain ⟨hhour, h⟩ := hpart (by omega) (by omega) h
  obtain ⟨hminute, h⟩ := hpart (by omega) (by omega) h
  obtain ⟨hsecond, h⟩ := hpart (by omega) (by omega) h
  obtain ⟨hnanos, -⟩ := padded_append_inj (by decide) hnanos hnanos' (List.cons.inj h).2
  exact ⟨by omega, hnanos⟩

/-- The calendar has a text for a time only when it has the date. -/
theorem dateTime?_eq_some {second : Int} {nanos : Nat} {text : String} (hnanos : nanos < 1000000000)
    (h : dateTime? second nanos = some text) :
    text.toList = (ofDay (second / 86400)).text.toList ++ clockText second nanos := by
  obtain ⟨d, hdate, rfl⟩ := Option.map_eq_some_iff.1 h
  obtain rfl : ofDay (second / 86400) = d := by
    unfold dateOf? at hdate
    simp only [Option.ite_none_right_eq_some] at hdate
    exact Option.some.inj hdate.2
  have hleap : nanos / 1000000000 = 0 := Nat.div_eq_of_lt hnanos
  have htext (s : String) : toString s = s := rfl
  have hclock : "T".toList = ['T'] ∧ ":".toList = [':'] ∧ ".".toList = ['.'] ∧ "Z".toList = ['Z'] :=
    ⟨rfl, rfl, rfl, rfl⟩
  simp only [htext, String.toList_append, hclock, hleap, Nat.add_zero, Nat.mod_eq_of_lt hnanos,
    clockText, List.append_assoc, List.cons_append, List.nil_append]

theorem underscore_notMem_dateTime {second : Int} {nanos : Nat} {text : String}
    (hnanos : nanos < 1000000000) (h : dateTime? second nanos = some text) :
    '_' ∉ text.toList := by
  have hdigits (width n : Nat) : '_' ∉ (padded width n).toList := notMem_padded rfl
  have hyear (year : Int) : '_' ∉ (yearText year).toList := by
    rw [toList_yearText]
    split
    · exact hdigits _ _
    · split <;> simp [hdigits]
  rw [dateTime?_eq_some hnanos h, toList_text]
  simp [clockText, hdigits, hyear]

theorem z_mem_dateTime {second : Int} {nanos : Nat} {text : String} (hnanos : nanos < 1000000000)
    (h : dateTime? second nanos = some text) : 'Z' ∈ text.toList := by
  rw [dateTime?_eq_some hnanos h]
  simp [clockText]

/-- Different times of the calendar have different texts. -/
theorem dateTime?_inj {second second' : Int} {nanos nanos' : Nat} {text : String}
    (hnanos : nanos < 1000000000) (hnanos' : nanos' < 1000000000)
    (h : dateTime? second nanos = some text) (h' : dateTime? second' nanos' = some text) :
    second = second' ∧ nanos = nanos' := by
  have htext := dateTime?_eq_some hnanos h
  rw [dateTime?_eq_some hnanos' h'] at htext
  obtain ⟨hdate, hclock⟩ := List.append_inj' htext
    ((length_clockText hnanos').trans (length_clockText hnanos).symm)
  have hday := ofDay_inj (text_inj (month_ofDay_lt _) (month_ofDay_lt _) (day_ofDay_lt _)
    (day_ofDay_lt _) hdate)
  obtain ⟨hsecond, rfl⟩ := clockText_inj hnanos' hnanos hclock
  exact ⟨by omega, rfl⟩

end ConsensusLedger

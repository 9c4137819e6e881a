import WaitingRoom.Time.Calendar

/-!
# Days and their dates

The calendar repeats every 146097 days. Such an era begins with a March, and so do its
centuries, the spans of four years in them and the years: what is longer than the others of
its kind is longer at its end, by one day. A day of the era is therefore one combination of
century, span, year and day, and the divisions that turn a day's number into a date take it
apart into them.
-/

namespace WaitingRoom.Time

/-- A day of an era, by its century, the span of four years in the century, the year in the
span and the day in the year, all counted from zero. The leap day is the last of its year. -/
structure EraDay where
  century : Int
  span : Int
  year : Int
  day : Int
  century_mem : 0 ≤ century ∧ century ≤ 3
  span_mem : 0 ≤ span ∧ span ≤ 24
  year_mem : 0 ≤ year ∧ year ≤ 3
  day_mem : 0 ≤ day ∧ day ≤ 365
  leapDay : day = 365 → year = 3 ∧ (span ≤ 23 ∨ century = 3)

namespace EraDay

/-- The number of days of the era before this one. -/
def number (e : EraDay) : Int := 36524 * e.century + 1461 * e.span + 365 * e.year + e.day

/-- The number of years of the era before the year of this day. -/
def yearOfEra (e : EraDay) : Int := 100 * e.century + 4 * e.span + e.year

theorem number_mem (e : EraDay) : 0 ≤ e.number ∧ e.number < 146097 := by
  obtain ⟨c, q, k, d, hc, hq, hk, hd, hleap⟩ := e
  simp only [number]
  omega

/-- Every day of an era has its century, span, year and day. -/
theorem exists_number_eq {n : Int} (hfirst : 0 ≤ n) (hlast : n < 146097) :
    ∃ e : EraDay, e.number = n := by
  obtain ⟨c, s, hc⟩ : ∃ c s : Int, 0 ≤ c ∧ c ≤ 3 ∧ n = 36524 * c + s ∧ 0 ≤ s ∧
      s ≤ 36524 ∧ (s = 36524 → c = 3) := by
    by_cases hend : n = 146096
    · exact ⟨3, 36524, by omega⟩
    · exact ⟨n / 36524, n % 36524, by omega⟩
  obtain ⟨q, t, hq⟩ : ∃ q t : Int, 0 ≤ q ∧ q ≤ 24 ∧ s = 1461 * q + t ∧ 0 ≤ t ∧ t ≤ 1460 :=
    ⟨s / 1461, s % 1461, by omega⟩
  by_cases hend : t = 1460
  · exact ⟨⟨c, q, 3, 365, by omega, by omega, by omega, by omega, by omega⟩,
      by simp [number]; omega⟩
  · exact ⟨⟨c, q, t / 365, t % 365, by omega, by omega, by omega, by omega, by omega⟩,
      by simp [number]; omega⟩

/-- The year of the era is found by taking the leap days before it off the days. -/
theorem yearOfEra_eq (e : EraDay) :
    (e.number - e.number / 1460 + e.number / 36524 - e.number / 146096) / 365 =
      e.yearOfEra := by
  obtain ⟨c, q, k, d, hc, hq, hk, hd, hleap⟩ := e
  -- The last day of the era is the only one that the division takes for a fifth century.
  have hcenturies (n : Int) (hn : n = 36524 * c + 1461 * q + 365 * k + d) :
      n / 36524 - n / 146096 = c := by
    have hera : n / 146096 = 0 ∧ n ≤ 146095 ∨ n / 146096 = 1 ∧ n = 146096 := by omega
    have hend : 1461 * q + 365 * k + d ≤ 36523 ∨
        1461 * q + 365 * k + d = 36524 ∧ c = 3 := by omega
    rcases hend with hwithin | ⟨hlast, hfourth⟩
    · have hcentury : n / 36524 = c := by omega
      omega
    · have hcentury : n / 36524 = 4 := by omega
      omega
  -- Late in a span the division by its length without the leap day is one ahead.
  have hspans (n : Int) (hn : n = 36524 * c + 1461 * q + 365 * k + d) :
      n / 1460 = 25 * c + q ∧ 365 * k + d ≤ 1459 ∨
        n / 1460 = 25 * c + q + 1 ∧ 1363 ≤ 365 * k + d := by
    have hsplit : n = 1460 * (25 * c + q) + (24 * c + q + 365 * k + d) := by omega
    omega
  simp only [number, yearOfEra]
  have hcentury := hcenturies _ rfl
  have hspan := hspans _ rfl
  omega

/-- The day of the year is what is left of the days when those of the years before it are
taken off. -/
theorem day_eq (e : EraDay) :
    e.number - (365 * e.yearOfEra + e.yearOfEra / 4 - e.yearOfEra / 100) = e.day := by
  obtain ⟨c, q, k, d, hc, hq, hk, hd, hleap⟩ := e
  simp only [number, yearOfEra]
  omega

end EraDay

namespace Date

/-- Every day is one of an era. -/
theorem exists_day (days : Int) :
    ∃ (era : Int) (e : EraDay), days = era * 146097 + e.number - 719468 := by
  obtain ⟨e, he⟩ := EraDay.exists_number_eq (n := (days + 719468) % 146097) (by omega) (by omega)
  exact ⟨(days + 719468) / 146097, e, by omega⟩

/-- The date of a day of an era. -/
theorem ofDays_eq (era : Int) (e : EraDay) :
    ofDays (era * 146097 + e.number - 719468) =
      let fromMarch := (5 * e.day + 2) / 153
      { year := era * 400 + e.yearOfEra + (if fromMarch < 10 then 0 else 1)
        month := (if fromMarch < 10 then fromMarch + 3 else fromMarch - 9).toNat
        day := (e.day - (153 * fromMarch + 2) / 5 + 1).toNat } := by
  have hn := e.number_mem
  have hd := e.day_mem
  have hera : (era * 146097 + e.number - 719468 + 719468) / 146097 = era := by omega
  have hday : (era * 146097 + e.number - 719468 + 719468) % 146097 = e.number := by omega
  simp only [ofDays, hera, hday, e.yearOfEra_eq, e.day_eq]
  split <;> simp <;> omega

/-- The date of a day is that day's. -/
theorem toDays_ofDays (days : Int) : (ofDays days).toDays = days := by
  obtain ⟨era, e, rfl⟩ := exists_day days
  rw [ofDays_eq, toDays]
  obtain ⟨c, q, k, d, hc, hq, hk, hd, hleap⟩ := e
  simp only [EraDay.number, EraDay.yearOfEra]
  split <;> split <;> omega

/-- A year that ends with a leap day, counted from March, ends in a leap year. -/
theorem isLeapYear_of_leapDay (era : Int) {e : EraDay} (h : e.day = 365) :
    isLeapYear (era * 400 + e.yearOfEra + 1) = true := by
  obtain ⟨c, q, k, d, hc, hq, hk, hd, hleap⟩ := e
  obtain ⟨rfl, hleap⟩ := hleap h
  simp only [isLeapYear, EraDay.yearOfEra, Bool.and_eq_true, Bool.or_eq_true, beq_iff_eq,
    bne_iff_ne]
  omega

/-- Every day's date exists. -/
theorem isValid_ofDays (days : Int) : (ofDays days).isValid = true := by
  obtain ⟨era, e, rfl⟩ := exists_day days
  rw [ofDays_eq, isValid]
  have hd := e.day_mem
  have hleap := isLeapYear_of_leapDay era (e := e)
  generalize e.day = d at *
  generalize hm : (5 * d + 2) / 153 = m
  have hmonths : m = 0 ∨ m = 1 ∨ m = 2 ∨ m = 3 ∨ m = 4 ∨ m = 5 ∨ m = 6 ∨ m = 7 ∨ m = 8 ∨
      m = 9 ∨ m = 10 ∨ m = 11 := by omega
  rcases hmonths with rfl | rfl | rfl | rfl | rfl | rfl | rfl | rfl | rfl | rfl | rfl | rfl <;>
    simp [monthLength]
  -- Only February's length depends on the year.
  all_goals try omega
  by_cases hend : d = 365
  · simp [hleap hend]
    omega
  · have hlength : 28 ≤ if isLeapYear (era * 400 + e.yearOfEra + 1) = true then 29 else 28 := by
      split <;> decide
    omega

/-- The days that instants reach are those of the years that are read. -/
theorem year_mem (days : Int) (hfirst : -96465292 ≤ days) (hlast : days ≤ 95026236) :
    -262143 ≤ (ofDays days).year ∧ (ofDays days).year ≤ 262142 := by
  obtain ⟨era, e, rfl⟩ := exists_day days
  rw [ofDays_eq]
  have hday := e.day_eq
  have hnumber := e.number_mem
  have hwithin := e.day_mem
  have hera : -656 ≤ era ∧ era ≤ 655 := by omega
  dsimp only
  generalize e.number = n at *
  generalize e.yearOfEra = y at *
  generalize e.day = d at *
  obtain rfl : n = 365 * y + y / 4 - y / 100 + d := by omega
  split <;> omega

/-- The month and the day of an existing date have two digits. -/
theorem lt_of_isValid {d : Date} (h : d.isValid = true) : d.month < 100 ∧ d.day < 100 := by
  have hlength : monthLength d.year d.month ≤ 31 := by
    unfold monthLength
    split
    · split <;> decide
    · split <;> decide
  simp only [isValid, Bool.and_eq_true, decide_eq_true_eq] at h
  omega

end Date

end WaitingRoom.Time

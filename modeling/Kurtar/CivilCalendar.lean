import Mathlib.Tactic.IntervalCases
import Mathlib.Tactic.Ring
import Kurtar.IstanbulCalendar

/-!
# Day numbers and civil dates

The two conversions between day numbers and civil dates are inverse on valid
dates. Inside both, a year starts in March, an era has 400 years, and a day of
an era is split into centuries, four-year cycles, years and days.
-/

namespace Kurtar.CivilCalendar

open IstanbulCalendar

theorem isLeapYear_iff (year : ℤ) :
    isLeapYear year = true ↔ (year%4 = 0 ∧ year%100 ≠ 0) ∨ year%400 = 0 := decide_eq_true_iff

/-- Number of days of a month. -/
def daysInMonth (year month : ℤ) : ℤ :=
  if month = 2 then if isLeapYear year then 29 else 28
  else if month = 4 ∨ month = 6 ∨ month = 9 ∨ month = 11 then 30 else 31

/-- A date that the calendar has. -/
structure ValidDate (date : CivilDate) : Prop where
  month : 1 ≤ date.month ∧ date.month ≤ 12
  day : 1 ≤ date.day ∧ date.day ≤ daysInMonth date.year date.month

/-- A day of an era, as century, four-year cycle, year and day of the year.
The 366th day belongs to the last year of a cycle, and to the last cycle only
in the last century. -/
structure EraDay (c q r doy doe : ℤ) : Prop where
  century : 0 ≤ c ∧ c < 4
  cycle : 0 ≤ q ∧ q < 25
  year : 0 ≤ r ∧ r < 4
  day : 0 ≤ doy ∧ doy ≤ 365
  leap : doy = 365 → r = 3 ∧ (q < 24 ∨ c = 3)
  doe_eq : doe = c*36524+q*1461+r*365+doy

variable {c q r doy doe : ℤ}

/-- The year of the era, recovered from the day of the era. -/
theorem EraDay.yearOfEra (h : EraDay c q r doy doe) :
    (doe-doe/1460+doe/36524-doe/146096)/365 = 100*c+4*q+r := by
  obtain ⟨hc, hq, hr, hdoy, hleap, hdoe⟩ := h
  by_cases hlast : c = 3 ∧ q = 24 ∧ r = 3 ∧ doy = 365
  · have hvalue : doe = 146096 := by omega
    rw [hvalue]
    omega
  · have hera : doe/146096 = 0 := by omega
    have hcentury : doe/36524 = c := by omega
    by_cases hcarry : 1460 ≤ 24*c+q+r*365+doy
    · have hcycle : doe/1460 = 25*c+q+1 := by omega
      omega
    · have hcycle : doe/1460 = 25*c+q := by omega
      omega

theorem EraDay.range (h : EraDay c q r doy doe) : 0 ≤ doe ∧ doe < 146097 := by
  obtain ⟨hc, hq, hr, hdoy, hleap, hdoe⟩ := h
  omega

/-- Every day of an era is split so. -/
theorem exists_eraDay (h : 0 ≤ doe ∧ doe < 146097) : ∃ c q r doy, EraDay c q r doy doe := by
  let c := min 3 (doe/36524)
  let inCentury := doe-c*36524
  let q := min 24 (inCentury/1461)
  let inCycle := inCentury-q*1461
  let r := min 3 (inCycle/365)
  have hc : c = min 3 (doe/36524) := rfl
  have hcentury : inCentury = doe-c*36524 := rfl
  have hq : q = min 24 (inCentury/1461) := rfl
  have hcycle : inCycle = inCentury-q*1461 := rfl
  have hr : r = min 3 (inCycle/365) := rfl
  have hboundCentury : 0 ≤ inCentury ∧ inCentury ≤ 36524 ∧ (inCentury = 36524 → c = 3) := by omega
  have hboundCycle : 0 ≤ inCycle ∧ inCycle ≤ 1460 ∧ (inCycle = 1460 → q < 24 ∨ c = 3) := by omega
  refine ⟨c, q, r, inCycle-r*365, ?_, ?_, ?_, ?_, ?_, ?_⟩
  · omega
  · omega
  · omega
  · omega
  · omega
  · omega

/-- The days of a month other than February, counted by the months from March on. -/
theorem daysInMonth_march {month mp : ℤ} (year : ℤ) (hmonth : 1 ≤ month ∧ month ≤ 12)
    (hmp : mp = (month+9)%12) (hfeb : month ≠ 2) :
    daysInMonth year month = (153*(mp+1)+2)/5-(153*mp+2)/5 ∧ mp < 11 := by
  obtain ⟨hlow, hhigh⟩ := hmonth
  rw [daysInMonth, if_neg hfeb]
  interval_cases month
  case «2» => exact absurd rfl hfeb
  all_goals
    norm_num at hmp
    rw [hmp]
    norm_num

theorem daysInMonth_february (year : ℤ) :
    daysInMonth year 2 = if isLeapYear year then 29 else 28 := rfl

/-- A valid date as a day of a year that starts in March. -/
theorem march_day {date : CivilDate} {mp doy : ℤ} (h : ValidDate date)
    (hmp : mp = (date.month+9)%12) (hdoy : doy = (153*mp+2)/5+date.day-1) :
    (0 ≤ doy ∧ doy ≤ 365) ∧ (doy = 365 → date.month = 2 ∧ isLeapYear date.year = true) ∧
      (5*doy+2)/153 = mp := by
  obtain ⟨hmonth, hday, hlast⟩ := h
  by_cases hfeb : date.month = 2
  · have hmp11 : mp = 11 := by omega
    rw [hfeb, daysInMonth_february] at hlast
    cases hl : isLeapYear date.year with
    | true =>
      simp only [hl, if_true] at hlast
      exact ⟨by omega, fun _ => ⟨hfeb, rfl⟩, by omega⟩
    | false =>
      simp only [hl, Bool.false_eq_true, if_false] at hlast
      exact ⟨by omega, fun h365 => by omega, by omega⟩
  · obtain ⟨hdays, hlt⟩ := daysInMonth_march date.year hmonth hmp hfeb
    rw [hdays] at hlast
    exact ⟨by omega, fun h365 => by omega, by omega⟩

/-- The parts of a valid date, counted from March. -/
theorem eraDay_of_valid {date : CivilDate} {y doy : ℤ} (h : ValidDate date)
    (hy : y = if date.month ≤ 2 then date.year-1 else date.year)
    (hdoy : doy = (153*((date.month+9)%12)+2)/5+date.day-1) :
    EraDay (y%400/100) (y%400%100/4) (y%400%4) doy
      (y%400*365+y%400/4-y%400/100+doy) := by
  obtain ⟨hrange, hleap, _⟩ := march_day h rfl hdoy
  refine ⟨by omega, by omega, by omega, hrange, ?_, by omega⟩
  intro h365
  obtain ⟨hfeb, hyear⟩ := hleap h365
  rw [if_pos (by omega)] at hy
  rw [isLeapYear_iff] at hyear
  omega

/-- A valid date is recovered from its day number. -/
theorem civilOfDay_dayOfCivil {date : CivilDate} (h : ValidDate date) :
    civilOfDay (dayOfCivil date) = date := by
  have hmonth := h.month
  obtain ⟨mp, hmp⟩ : ∃ mp, mp = (date.month+9)%12 := ⟨_, rfl⟩
  obtain ⟨doy, hdoy⟩ : ∃ doy, doy = (153*mp+2)/5+date.day-1 := ⟨_, rfl⟩
  obtain ⟨y, hy⟩ : ∃ y, y = if date.month ≤ 2 then date.year-1 else date.year := ⟨_, rfl⟩
  obtain ⟨doe, hdoe⟩ : ∃ doe, doe = y%400*365+y%400/4-y%400/100+doy := ⟨_, rfl⟩
  have hmonths := (march_day h hmp hdoy).2.2
  have hera := eraDay_of_valid h hy (hdoy.trans (by rw [hmp]))
  rw [← hdoe] at hera
  have hrange := hera.range
  have hkey : dayOfCivil date+719468 = y/400*146097+doe := by
    have hday : dayOfCivil date =
      y/400*146097+y%400*365+y%400/4-y%400/100+doy-719468 := by rw [hy, hdoy, hmp]; rfl
    rw [hday, hdoe]
    ring
  have hyoe : (doe-doe/1460+doe/36524-doe/146096)/365 = y%400 := by
    rw [hera.yearOfEra]
    omega
  have hdiv : (y/400*146097+doe)/146097 = y/400 := by omega
  have hmod : (y/400*146097+doe)%146097 = doe := by omega
  have hback : doe-(365*(y%400)+y%400/4-y%400/100) = doy := by omega
  unfold civilOfDay
  dsimp only
  rw [hkey, hdiv, hmod, hyoe, hback, hmonths]
  have hmonth' : (if mp < 10 then mp+3 else mp-9) = date.month := by
    split_ifs <;> omega
  have hyear : y%400+y/400*400+(if date.month ≤ 2 then 1 else 0) = date.year := by
    split_ifs at hy ⊢ <;> omega
  rw [hmonth', hyear, hdoy]
  congr 1
  omega

/-- Every day has a valid date. -/
theorem valid_civilOfDay (key : DateKey) : ValidDate (civilOfDay key) := by
  obtain ⟨era, hera⟩ : ∃ era : ℤ, era = (key+719468)/146097 := ⟨_, rfl⟩
  obtain ⟨doe, hdoe⟩ : ∃ doe : ℤ, doe = (key+719468)%146097 := ⟨_, rfl⟩
  have hrange : 0 ≤ doe ∧ doe < 146097 := by
    rw [hdoe]
    exact ⟨Int.emod_nonneg _ (by decide), Int.emod_lt_of_pos _ (by decide)⟩
  obtain ⟨c, q, r, doy, hday⟩ := exists_eraDay hrange
  have hquarter : (100*c+4*q+r)/4 = 25*c+q := by
    have hr := hday.year
    omega
  have hcentury : (100*c+4*q+r)/100 = c := by
    have hr := hday.year
    have hq := hday.cycle
    omega
  have hback : doe-(365*(100*c+4*q+r)+(100*c+4*q+r)/4-(100*c+4*q+r)/100) = doy := by
    have hsplit := hday.doe_eq
    rw [hquarter, hcentury]
    omega
  obtain ⟨mp, hmp⟩ : ∃ mp, mp = (5*doy+2)/153 := ⟨_, rfl⟩
  obtain ⟨month, hmonth⟩ : ∃ month, month = if mp < 10 then mp+3 else mp-9 := ⟨_, rfl⟩
  obtain ⟨year, hyear⟩ : ∃ year, year = 100*c+4*q+r+era*400+if month ≤ 2 then 1 else 0 := ⟨_, rfl⟩
  have hcivil : civilOfDay key = { year, month, day := doy-(153*mp+2)/5+1 } := by
    unfold civilOfDay
    dsimp only
    rw [← hera, ← hdoe, hday.yearOfEra, hback, ← hmp, ← hmonth, ← hyear]
  obtain ⟨hdoy, hleap⟩ := And.intro hday.day hday.leap
  have hmarch : mp = (month+9)%12 := by split_ifs at hmonth <;> omega
  have hmonths : 1 ≤ month ∧ month ≤ 12 := by split_ifs at hmonth <;> omega
  rw [hcivil]
  refine ⟨hmonths, ?_, ?_⟩
  · change 1 ≤ doy-(153*mp+2)/5+1
    omega
  · change doy-(153*mp+2)/5+1 ≤ daysInMonth year month
    by_cases hfeb : month = 2
    · have hmp11 : mp = 11 := by omega
      rw [if_pos (by omega)] at hyear
      rw [hfeb, daysInMonth_february]
      split_ifs with hlong
      · omega
      · rw [isLeapYear_iff] at hlong
        have hr := hday.year
        have hq := hday.cycle
        omega
    · rw [(daysInMonth_march _ hmonths hmarch hfeb).1]
      omega

/-- Same month and day, a year apart. -/
theorem dayOfCivil_succ_year {year month day a b : ℤ} (ha : a = dayOfCivil ⟨year, month, day⟩)
    (hb : b = dayOfCivil ⟨year+1, month, day⟩) : a+365 ≤ b ∧ b ≤ a+366 := by
  unfold dayOfCivil at ha hb
  dsimp only at ha hb
  by_cases hearly : month ≤ 2
  · rw [if_pos hearly] at ha hb
    omega
  · rw [if_neg hearly] at ha hb
    omega

end Kurtar.CivilCalendar

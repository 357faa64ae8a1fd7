import Mathlib.Data.Int.Basic
import Kurtar.StatusTransitions

/-!
# Istanbul days and membership anniversaries

Instants are milliseconds since the epoch. A calendar day is represented by
its number of days since the epoch, which determines its written date key
and is determined by it; Istanbul is three hours ahead of UTC throughout.
Anniversaries keep the month and day of a date and move its year.
-/

namespace Kurtar.IstanbulCalendar

/-- Milliseconds since the epoch. -/
abbrev Instant := ℤ

/-- Number of a calendar day since the epoch. -/
abbrev DateKey := ℤ

def hourMs : ℤ := 3600000
def dayMs : ℤ := 86400000

/-- The Istanbul calendar day of an instant. -/
def istanbulDateKey (date : Instant) : DateKey := (date+3*hourMs)/dayMs

/-- The UTC midnight that stands for a calendar day in the database. -/
def offerDateToDbDate (offerDate : DateKey) : Instant := offerDate*dayMs

theorem istanbulDateKey_offerDateToDbDate (k : ℤ) :
    istanbulDateKey (offerDateToDbDate k) = k := by
  change (k*86400000+3*3600000)/86400000 = k
  omega

theorem istanbulDateKey_mono {t u : ℤ} (h : t ≤ u) : istanbulDateKey t ≤ istanbulDateKey u := by
  change (t+3*3600000)/86400000 ≤ (u+3*3600000)/86400000
  omega

/-- A date of the proleptic Gregorian calendar. -/
structure CivilDate where
  year : ℤ
  month : ℤ
  day : ℤ
  deriving DecidableEq

def isLeapYear (year : ℤ) : Bool :=
  decide ((year%4=0 ∧ year%100≠0) ∨ year%400=0)

/-- Day number of a civil date; years start in March inside the formula. -/
def dayOfCivil (date : CivilDate) : DateKey :=
  let y := if date.month ≤ 2 then date.year-1 else date.year
  let era := y/400
  let yoe := y%400
  let doy := (153*((date.month+9)%12)+2)/5+date.day-1
  era*146097+yoe*365+yoe/4-yoe/100+doy-719468

/-- Civil date of a day number. -/
def civilOfDay (key : DateKey) : CivilDate :=
  let z := key+719468
  let era := z/146097
  let doe := z%146097
  let yoe := (doe-doe/1460+doe/36524-doe/146096)/365
  let doy := doe-(365*yoe+yoe/4-yoe/100)
  let mp := (5*doy+2)/153
  let month := if mp < 10 then mp+3 else mp-9
  { year := yoe+era*400+if month ≤ 2 then 1 else 0
    month
    day := doy-(153*mp+2)/5+1 }

/-- Decimal digits padded with zeros on the left. -/
def padStart (width : ℕ) (n : ℤ) : String :=
  let digits := (toString n.toNat).toList
  String.ofList (List.replicate (width-digits.length) '0' ++ digits)

/-- The written date key of a day, for years of at most four digits. -/
def dateKeyText (key : DateKey) : String :=
  let civil := civilOfDay key
  s!"{padStart 4 civil.year}-{padStart 2 civil.month}-{padStart 2 civil.day}"

/-- The UTC spelling of an instant, for years of at most four digits. -/
def toISOString (date : Instant) : String :=
  let ms := date%dayMs
  dateKeyText (date/dayMs) ++ "T" ++
    s!"{padStart 2 (ms/hourMs)}:{padStart 2 (ms/60000%60)}:{padStart 2 (ms/1000%60)}." ++
    s!"{padStart 3 (ms%1000)}Z"

/-- The Istanbul day of a date advanced by whole years; a 29 February that
the target year does not have becomes 28 February. -/
def addAnniversaryYears (anchorDate : Instant) (yearsToAdd : ℤ) : Instant :=
  let date := civilOfDay (istanbulDateKey anchorDate)
  let year := date.year+yearsToAdd
  let day := if date.month = 2 ∧ date.day = 29 ∧ isLeapYear year = false then 28 else date.day
  offerDateToDbDate (dayOfCivil { year, month := date.month, day })

example : addAnniversaryYears (offerDateToDbDate (dayOfCivil ⟨2028,2,29⟩)) 1 =
    offerDateToDbDate (dayOfCivil ⟨2029,2,28⟩) := by decide

end Kurtar.IstanbulCalendar

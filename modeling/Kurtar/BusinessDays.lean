import Mathlib.Algebra.Order.Ring.Unbundled.Rat
import Mathlib.Data.Finset.Order
import Kurtar.IstanbulCalendar
import Kurtar.SelectedSteps

/-!
# Business days

Payout due dates count Istanbul business days. The loop steps one calendar
day at a time and counts down on days that are neither weekend nor holiday.
Date keys are day numbers, which the written keys stand for while years have
four digits.
-/

namespace Kurtar.BusinessDays

open IstanbulCalendar SelectedSteps

def ONE_DAY_MS : ℤ := 24*60*60*1000

/-- UTC weekday of an instant: 0 is Sunday. The epoch was a Thursday. -/
def getUTCDay (date : Instant) : ℤ := (date/dayMs+4)%7

/-- Noon UTC of a calendar day. -/
def noonOf (dateKey : DateKey) : Instant := dateKey*dayMs+12*hourMs

def weekdayOf (dateKey : DateKey) : ℤ := getUTCDay (noonOf dateKey)

def nextCalendarDayKey (dateKey : DateKey) : DateKey :=
  istanbulDateKey (noonOf dateKey+ONE_DAY_MS)

def isBusinessDay (dateKey : DateKey) (holidays : Finset DateKey) : Bool :=
  let weekday := weekdayOf dateKey
  if weekday = 0 ∨ weekday = 6 then false else !decide (dateKey ∈ holidays)

/-- The counting loop; none while it has not ended within the fuel. -/
def advance (holidays : Finset DateKey) : ℕ → DateKey → ℕ → Option DateKey
  | _, cursor, 0 => some cursor
  | 0, _, _+1 => none
  | fuel+1, cursor, remaining+1 =>
    let next := nextCalendarDayKey cursor
    advance holidays fuel next (if isBusinessDay next holidays then remaining else remaining+1)

/-- The date `n` business days on, as the UTC midnight of its day. -/
def addBusinessDays (numberText : ℚ → String) (fuel : ℕ) (date : Instant) (n : ℚ)
    (holidays : Finset DateKey) : Option (Except String Instant) :=
  if n.isInt = false ∨ n < 0 then
    some (.error s!"addBusinessDays: n must be a non-negative integer, got {numberText n}")
  else
    (advance holidays fuel (istanbulDateKey date) n.num.toNat).map
      (fun cursor => .ok (offerDateToDbDate cursor))

variable {holidays : Finset DateKey} {d r : ℤ} {n : ℕ}

theorem weekdayOf_eq (k : ℤ) : weekdayOf k = (k+4)%7 := by
  have hday : noonOf k/dayMs = k := by
    change (k*86400000+12*3600000)/86400000 = k
    omega
  rw [weekdayOf, getUTCDay, hday]

/-- 5 January 2026 is a Monday. -/
example : weekdayOf (dayOfCivil ⟨2026,1,5⟩) = 1 := by decide

@[simp]
theorem nextCalendarDayKey_eq (k : ℤ) : nextCalendarDayKey k = k+1 := by
  change (k*86400000+12*3600000+24*60*60*1000+3*3600000)/86400000 = k+1
  omega

/-- Number of business days of `(d, r]`. -/
def businessDaysIn (holidays : Finset DateKey) (d r : DateKey) : ℕ :=
  countIn (isBusinessDay · holidays) d r

/-- Every finite set of holidays leaves business days after any day. -/
theorem exists_businessDay (holidays : Finset DateKey) (k : ℤ) :
    ∃ k', k < k' ∧ isBusinessDay k' holidays = true := by
  obtain ⟨top, htop⟩ := holidays.exists_le
  -- a Monday after both the day and every holiday
  let j := (max k top)/7*7+11
  have hj : j = (max k top)/7*7+11 := rfl
  have hafter : max k top < j ∧ (j+4)%7 = 1 := by omega
  have hfree : j ∉ holidays := fun hmem => by
    have hle : j ≤ top := htop j hmem
    omega
  refine ⟨j, by omega, ?_⟩
  simp [isBusinessDay, weekdayOf_eq, hafter.2, hfree]

/-- Nothing left to count ends the loop at once. -/
theorem advance_zero_eq_some (fuel : ℕ) :
    advance holidays fuel d 0 = some r ↔
      NthAfter (isBusinessDay · holidays) d 0 r ∧ r-d ≤ fuel := by
  have hloop : advance holidays fuel d 0 = some d := by
    cases fuel <;> rfl
  rw [hloop, Option.some.injEq]
  constructor
  · intro h
    rw [← h]
    exact ⟨NthAfter.zero, by omega⟩
  · intro ⟨h, _⟩
    exact NthAfter.zero.unique h

/-- The loop ends at the first day with that many business days, and within
the fuel exactly when the fuel covers the days in between. -/
theorem advance_eq_some (holidays : Finset DateKey) (fuel : ℕ) (cursor : ℤ) (remaining : ℕ) :
    advance holidays fuel cursor remaining = some r ↔
      NthAfter (isBusinessDay · holidays) cursor remaining r ∧ r-cursor ≤ fuel := by
  induction fuel generalizing cursor remaining with
  | zero =>
    cases remaining with
    | zero => exact advance_zero_eq_some 0
    | succ remaining =>
      simp only [advance, false_iff, reduceCtorEq, not_and]
      intro h hle
      have hlater := NthAfter.zero.lt_of_count h (Nat.succ_pos remaining)
      omega
  | succ fuel ih =>
    cases remaining with
    | zero => exact advance_zero_eq_some (fuel+1)
    | succ remaining =>
      simp only [advance, nextCalendarDayKey_eq]
      rw [ih, nthAfter_step]
      constructor
      · intro ⟨h, hle⟩
        exact ⟨h, by omega⟩
      · intro ⟨h, hle⟩
        exact ⟨h, by omega⟩

/-- With a whole, non-negative number of days only the loop decides. -/
theorem addBusinessDays_natCast (numberText : ℚ → String) (fuel : ℕ) (date : Instant) (n : ℕ) :
    addBusinessDays numberText fuel date n holidays =
      (advance holidays fuel (istanbulDateKey date) n).map
        (fun cursor => .ok (offerDateToDbDate cursor)) := by
  have hwhole : ¬((n : ℚ).isInt = false ∨ (n : ℚ) < 0) := by
    simp [Rat.isInt]
  rw [addBusinessDays, if_neg hwhole, Rat.num_natCast, Int.toNat_natCast]

/-- Anything else is refused before the loop. -/
theorem addBusinessDays_error (numberText : ℚ → String) (fuel : ℕ) (date : Instant) {n : ℚ}
    (h : n.isInt = false ∨ n < 0) :
    addBusinessDays numberText fuel date n holidays =
      some (.error s!"addBusinessDays: n must be a non-negative integer, got {numberText n}") :=
  if_pos h

end Kurtar.BusinessDays

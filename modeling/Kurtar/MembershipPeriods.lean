import Mathlib.Data.Int.ConditionallyCompleteOrder
import Kurtar.CivilCalendar
import Kurtar.TimedLedger

/-!
# Membership periods and the anniversary

The first period ends on the first anniversary of the approval. Every renewal
advances the end of the period before it, not the approval date, so what one
renewal has clamped is clamped for good: a merchant approved on a 29 February
is renewed on the 28th in leap years as well. All other merchants stay on
their anniversary, however late their renewals run.
-/

namespace Kurtar.MembershipPeriods

open KeyedTable GuardedRuns IstanbulCalendar CivilCalendar SettlementLedger
open SettlementTransactions SettlementEffects MembershipPass TimedLedger

/-- The Istanbul date of an instant. -/
def dateOf (date : Instant) : CivilDate := civilOfDay (istanbulDateKey date)

/-- Does the instant fall on a 29 February? -/
def OnLeapDay (date : Instant) : Prop := (dateOf date).month = 2 ∧ (dateOf date).day = 29

instance : DecidablePred OnLeapDay := fun date => by
  unfold OnLeapDay
  infer_instance

/-- The day of the month that renewals keep. -/
def renewalDay (anchor : Instant) : ℤ := if OnLeapDay anchor then 28 else (dateOf anchor).day

/-- The date of the `k`th renewal after the first. -/
def renewalCivil (anchor : Instant) (k : ℕ) : CivilDate :=
  ⟨(dateOf anchor).year+k, (dateOf anchor).month, renewalDay anchor⟩

/-- The end of the `k`th period, as renewals reach it. -/
def renewalDate (anchor : Instant) (k : ℕ) : Instant :=
  offerDateToDbDate (dayOfCivil (renewalCivil anchor k))

section Dates

variable (anchor : Instant) (k : ℕ)

theorem onLeapDay_leapYear (h : OnLeapDay anchor) : isLeapYear (dateOf anchor).year = true := by
  have hvalid := (valid_civilOfDay (istanbulDateKey anchor)).day.2
  change (dateOf anchor).day ≤ daysInMonth (dateOf anchor).year (dateOf anchor).month at hvalid
  rw [h.1, h.2, daysInMonth_february] at hvalid
  by_contra hleap
  rw [if_neg hleap] at hvalid
  omega

/-- The day that renewals keep exists in every year. -/
theorem valid_renewalCivil : ValidDate (renewalCivil anchor k) := by
  have hvalid := valid_civilOfDay (istanbulDateKey anchor)
  refine ⟨hvalid.month, ?_⟩
  have hday : 1 ≤ (dateOf anchor).day ∧
    (dateOf anchor).day ≤ daysInMonth (dateOf anchor).year (dateOf anchor).month := hvalid.day
  change 1 ≤ renewalDay anchor ∧
    renewalDay anchor ≤ daysInMonth ((dateOf anchor).year+k) (dateOf anchor).month
  unfold renewalDay
  by_cases hfeb : (dateOf anchor).month = 2
  · rw [hfeb, daysInMonth_february] at hday ⊢
    split_ifs with hleap hyear
    · omega
    · omega
    · split_ifs at hday <;> omega
    · have hne : (dateOf anchor).day ≠ 29 := fun h29 => hleap ⟨hfeb, h29⟩
      split_ifs at hday <;> omega
  · have hnot : ¬ OnLeapDay anchor := fun hleap => hfeb hleap.1
    rw [if_neg hnot]
    unfold daysInMonth at hday ⊢
    rw [if_neg hfeb] at hday ⊢
    exact hday

theorem dateOf_renewalDate : dateOf (renewalDate anchor k) = renewalCivil anchor k := by
  unfold dateOf renewalDate
  rw [istanbulDateKey_offerDateToDbDate, civilOfDay_dayOfCivil (valid_renewalCivil anchor k)]

/-- The anniversary with the clamping of its own year. -/
theorem addAnniversaryYears_eq (n : ℤ) : addAnniversaryYears anchor n =
    offerDateToDbDate (dayOfCivil ⟨(dateOf anchor).year+n, (dateOf anchor).month,
      if (dateOf anchor).month = 2 ∧ (dateOf anchor).day = 29 ∧
        isLeapYear ((dateOf anchor).year+n) = false then 28 else (dateOf anchor).day⟩) := rfl

/-- Away from 29 February, renewals fall on the anniversary. -/
theorem addAnniversaryYears_of_plain (h : ¬ OnLeapDay anchor) :
    addAnniversaryYears anchor k = renewalDate anchor k := by
  have hplain : ¬((dateOf anchor).month = 2 ∧ (dateOf anchor).day = 29 ∧
      isLeapYear ((dateOf anchor).year+k) = false) := fun hleap => h ⟨hleap.1, hleap.2.1⟩
  rw [addAnniversaryYears_eq, if_neg hplain, renewalDate, renewalCivil, renewalDay, if_neg h]

/-- In a common year, a 29 February is renewed on its anniversary. -/
theorem addAnniversaryYears_of_common (h : isLeapYear ((dateOf anchor).year+k) = false) :
    addAnniversaryYears anchor k = renewalDate anchor k := by
  by_cases hleap : OnLeapDay anchor
  · rw [addAnniversaryYears_eq, if_pos ⟨hleap.1, hleap.2, h⟩, renewalDate, renewalCivil,
      renewalDay, if_pos hleap]
  · exact addAnniversaryYears_of_plain anchor k hleap

/-- In a leap year, a 29 February is renewed a day before its anniversary. -/
theorem addAnniversaryYears_of_leap (hleap : OnLeapDay anchor)
    (h : isLeapYear ((dateOf anchor).year+k) = true) :
    addAnniversaryYears anchor k = renewalDate anchor k+dayMs := by
  have hkept : ¬((dateOf anchor).month = 2 ∧ (dateOf anchor).day = 29 ∧
      isLeapYear ((dateOf anchor).year+k) = false) := by
    intro hclamped
    rw [h] at hclamped
    exact absurd hclamped.2.2 (by decide)
  rw [addAnniversaryYears_eq, if_neg hkept, renewalDate, renewalCivil, renewalDay, if_pos hleap,
    hleap.2]
  unfold offerDateToDbDate dayOfCivil
  ring

/-- Every anniversary is the renewal or, in a leap year, the day after it. -/
theorem anniversary_near : renewalDate anchor k ≤ addAnniversaryYears anchor k ∧
    addAnniversaryYears anchor k ≤ renewalDate anchor k+dayMs := by
  have hday : (0 : ℤ) ≤ dayMs := by decide
  by_cases hleap : OnLeapDay anchor
  · cases hyear : isLeapYear ((dateOf anchor).year+k) with
    | true =>
      rw [addAnniversaryYears_of_leap anchor k hleap hyear]
      exact ⟨le_add_of_nonneg_right hday, le_refl _⟩
    | false =>
      rw [addAnniversaryYears_of_common anchor k hyear]
      exact ⟨le_refl _, le_add_of_nonneg_right hday⟩
  · rw [addAnniversaryYears_of_plain anchor k hleap]
    exact ⟨le_refl _, le_add_of_nonneg_right hday⟩

/-- The first anniversary is the first renewal: a year after a leap year is common. -/
theorem addAnniversaryYears_one : addAnniversaryYears anchor 1 = renewalDate anchor 1 := by
  by_cases hleap : OnLeapDay anchor
  · have hyear := onLeapDay_leapYear anchor hleap
    have hnext : isLeapYear ((dateOf anchor).year+(1 : ℕ)) = false := by
      rw [Bool.eq_false_iff]
      intro hnext
      rw [isLeapYear_iff] at hyear hnext
      push_cast at hnext
      omega
    exact addAnniversaryYears_of_common anchor 1 hnext
  · exact addAnniversaryYears_of_plain anchor 1 hleap

/-- A renewal advances the date by a year and clamps nothing more. -/
theorem addAnniversaryYears_renewal :
    addAnniversaryYears (renewalDate anchor k) 1 = renewalDate anchor (k+1) := by
  have hday : ¬((renewalCivil anchor k).month = 2 ∧ (renewalCivil anchor k).day = 29 ∧
      isLeapYear ((renewalCivil anchor k).year+1) = false) := by
    rintro ⟨hfeb, h29, _⟩
    change renewalDay anchor = 29 at h29
    unfold renewalDay at h29
    split_ifs at h29 with hleap
    · omega
    · exact hleap ⟨hfeb, h29⟩
  rw [addAnniversaryYears_eq, dateOf_renewalDate, if_neg hday, renewalDate]
  congr 2
  simp only [renewalCivil, CivilDate.mk.injEq, and_self, and_true]
  push_cast
  ring

/-- Renewals are a common or a leap year apart. -/
theorem renewalDate_succ : renewalDate anchor k+365*dayMs ≤ renewalDate anchor (k+1) := by
  obtain ⟨a, ha⟩ : ∃ a : ℤ, a = dayOfCivil (renewalCivil anchor k) := ⟨_, rfl⟩
  obtain ⟨b, hb⟩ : ∃ b : ℤ, b = dayOfCivil (renewalCivil anchor (k+1)) := ⟨_, rfl⟩
  have hsucc : renewalCivil anchor (k+1) =
      ⟨(dateOf anchor).year+k+1, (dateOf anchor).month, renewalDay anchor⟩ := by
    simp only [renewalCivil, CivilDate.mk.injEq, and_true]
    push_cast
    ring
  have hyear := (dayOfCivil_succ_year ha (hb.trans (by rw [hsucc]))).1
  unfold renewalDate
  rw [← ha, ← hb]
  change a*86400000+365*86400000 ≤ b*86400000
  omega

theorem renewalDate_strictMono : StrictMono (renewalDate anchor) := by
  apply strictMono_nat_of_lt_succ
  intro k
  have hyear := renewalDate_succ anchor k
  exact lt_of_lt_of_le (lt_add_of_pos_right _ (by decide)) hyear

end Dates

section CatchUp

variable {anchor now : Instant} {k : ℕ}

/-- Catching up ends with the period around `now`, however many it skips. The
fuel is enough because a period lasts 365 days at least. -/
theorem catchUpPeriod_renewal {fuel : ℕ} (hstart : renewalDate anchor k ≤ now)
    (hfuel : now < renewalDate anchor k+(fuel+1)*(365*dayMs)) :
    ∃ j, k ≤ j ∧ renewalDate anchor j ≤ now ∧ now < renewalDate anchor (j+1) ∧
      catchUpPeriod fuel (renewalDate anchor k) (renewalDate anchor (k+1)) now =
        (renewalDate anchor j, renewalDate anchor (j+1)) := by
  induction fuel generalizing k with
  | zero =>
    have hyear := renewalDate_succ anchor k
    refine ⟨k, le_refl _, hstart, lt_of_lt_of_le ?_ hyear, rfl⟩
    simpa using hfuel
  | succ fuel ih =>
    by_cases hend : renewalDate anchor (k+1) ≤ now
    · have hyear := renewalDate_succ anchor k
      have hrest : now < renewalDate anchor (k+1)+(fuel+1)*(365*dayMs) := by
        refine lt_of_lt_of_le hfuel ?_
        push_cast
        linarith
      obtain ⟨j, hj, hlow, hhigh, hcatch⟩ := ih hend hrest
      refine ⟨j, by omega, hlow, hhigh, ?_⟩
      rw [catchUpPeriod, if_pos hend, addAnniversaryYears_renewal, hcatch]
    · exact ⟨k, le_refl _, hstart, not_le.mp hend, by rw [catchUpPeriod, if_neg hend]⟩

/-- The fuel of a renewal is enough. -/
theorem renewal_fuel (end' : Instant) (hend : end' ≤ now) :
    now < end'+((((now-end')/(365*dayMs)).toNat+1 : ℕ)+1)*(365*dayMs) := by
  have hyear : (0 : ℤ) < 365*dayMs := by decide
  have hnonneg : 0 ≤ (now-end')/(365*dayMs) := Int.ediv_nonneg (sub_nonneg.mpr hend) hyear.le
  have hlt := Int.lt_ediv_add_one_mul_self (now-end') hyear
  push_cast
  rw [Int.toNat_of_nonneg hnonneg]
  linarith

end CatchUp

/-- A subscription's period, as its creation and its renewals leave it. -/
inductive PeriodKept (clock : Instant) (sub : MembershipSubscription) : Prop
  | first (hstart : sub.currentPeriodStart = sub.anchorDate)
      (hend : sub.currentPeriodEnd = renewalDate sub.anchorDate 1)
  | renewed {k : ℕ} (hk : 1 ≤ k) (hpast : renewalDate sub.anchorDate k ≤ clock)
      (hstart : sub.currentPeriodStart = renewalDate sub.anchorDate k)
      (hend : sub.currentPeriodEnd = renewalDate sub.anchorDate (k+1))

theorem PeriodKept.later {clock clock' : Instant} {sub : MembershipSubscription}
    (h : PeriodKept clock sub) (hle : clock ≤ clock') : PeriodKept clock' sub := by
  cases h with
  | first hstart hend => exact .first hstart hend
  | renewed hk hpast hstart hend => exact .renewed hk (hpast.trans hle) hstart hend

/-- The columns that place a period. -/
structure SamePeriod (sub sub' : MembershipSubscription) : Prop where
  anchor : sub'.anchorDate = sub.anchorDate
  start : sub'.currentPeriodStart = sub.currentPeriodStart
  periodEnd : sub'.currentPeriodEnd = sub.currentPeriodEnd

theorem PeriodKept.same {clock : Instant} {sub sub' : MembershipSubscription}
    (h : PeriodKept clock sub) (hs : SamePeriod sub sub') : PeriodKept clock sub' := by
  obtain ⟨ha, hstart', hend'⟩ := hs
  cases h with
  | first hstart hend =>
    exact .first (by rw [hstart', ha, hstart]) (by rw [hend', ha, hend])
  | renewed hk hpast hstart hend =>
    exact .renewed hk (by rw [ha]; exact hpast) (by rw [hstart', ha, hstart])
      (by rw [hend', ha, hend])

section Transactions

variable {l l' : Ledger} {clock : Instant}

/-- A pass only moves balances. -/
theorem pass_samePeriod {batchId : BatchId} {now : Instant}
    {pendingLines : List SettlementRecompute.PendingSettlementLine} {batch row : Batch}
    {pass : SettlementRecompute.RecomputePass}
    (h : SettlementPass.WrittenPass l batchId now pendingLines clock batch pass l' row) :
    ∀ sub' ∈ l'.subscriptions.rows, ∃ sub ∈ l.subscriptions.rows, SamePeriod sub sub' := by
  intro sub' hsub'
  rw [subscriptions_of_pass h] at hsub'
  unfold subscriptionsAfter at hsub'
  cases hdue : pass.due with
  | none =>
    rw [hdue] at hsub'
    exact ⟨sub', hsub', rfl, rfl, rfl⟩
  | some due =>
    rw [hdue] at hsub'
    obtain ⟨sub, hsub, rfl⟩ := List.mem_map.mp hsub'
    refine ⟨sub, hsub, ?_⟩
    split_ifs
    · exact ⟨rfl, rfl, rfl⟩
    · exact ⟨rfl, rfl, rfl⟩

/-- A new subscription starts its first period. -/
theorem created_kept {merchantId : MerchantId} {approvedAt : Instant}
    (h : createSubscription l merchantId approvedAt = some l') :
    ∀ sub' ∈ l'.subscriptions.rows, sub' ∈ l.subscriptions.rows ∨ PeriodKept clock sub' := by
  intro sub' hsub'
  unfold createSubscription at h
  split at h
  · cases h
  · split at h
    · cases h
    · cases h
      rcases Table.mem_insertNew.mp hsub' with hold | ⟨rfl, _⟩
      · exact Or.inl hold
      · exact Or.inr (.first rfl (addAnniversaryYears_one approvedAt))

/-- A renewal opens the period around its time. -/
theorem renewed_kept {merchantId : MerchantId}
    (hkept : ∀ sub ∈ l.subscriptions.rows, PeriodKept clock sub)
    (h : renewSubscription l merchantId clock = some l') :
    ∀ sub' ∈ l'.subscriptions.rows, PeriodKept clock sub' ∧
      (sub'.merchantId = merchantId → clock < sub'.currentPeriodEnd) := by
  intro sub' hsub'
  unfold renewSubscription at h
  cases hfind : l.subscriptions.find? merchantId with
  | none => simp [hfind] at h
  | some sub =>
    obtain ⟨hmem, hkey⟩ := Table.find?_eq_some.mp hfind
    simp only [hfind] at h
    split at h
    · cases h
    · next hdue =>
      push Not at hdue
      obtain ⟨k, hk, hstart⟩ : ∃ k, 1 ≤ k ∧
          sub.currentPeriodEnd = renewalDate sub.anchorDate k := by
        cases hkept sub hmem with
        | first _ hend => exact ⟨1, le_refl _, hend⟩
        | @renewed k hk _ _ hend => exact ⟨k+1, by omega, hend⟩
      have hfuel := renewal_fuel sub.currentPeriodEnd hdue.1
      rw [hstart] at hfuel hdue
      obtain ⟨j, hj, hlow, hhigh, hcatch⟩ := catchUpPeriod_renewal hdue.1 hfuel
      rw [← addAnniversaryYears_renewal] at hcatch
      rw [hstart, hcatch] at h
      split at h
      · cases h
      · cases h
        have hrep := (replaces_subscription (by exact fun _ => rfl) hfind).mem_iff.mp hsub'
        rcases hrep with hnew | ⟨hold, hother⟩
        · rw [hnew]
          exact ⟨.renewed (hk.trans hj) hlow rfl rfl, fun _ => hhigh⟩
        · exact ⟨hkept sub' hold, fun heq => absurd (heq.trans hkey.symm) hother⟩

/-- Every transaction keeps the periods of all subscriptions. -/
theorem commit_kept {tx : Transaction} (hkept : ∀ sub ∈ l.subscriptions.rows, PeriodKept clock sub)
    (hon : onTime clock tx) (h : commit l tx = some l') :
    ∀ sub ∈ l'.subscriptions.rows, PeriodKept clock sub := by
  cases commit_effect h with
  | unchanged => exact hkept
  | created => exact hkept
  | passed hp =>
    intro sub' hsub'
    obtain ⟨sub, hsub, hsame⟩ := pass_samePeriod hp.toWrittenPass sub' hsub'
    exact (hkept sub hsub).same hsame
  | flipped _ _ hrest =>
    rw [hrest]
    exact hkept
  | @business event at' _ _ =>
    have hclock : at' = clock := hon
    change commitBusiness l at' event = some l' at h
    rw [hclock] at h
    cases event with
    | createForApprovedMerchant merchantId approvedAt =>
      intro sub' hsub'
      exact (created_kept h sub' hsub').elim (hkept sub') id
    | renewOneLocked merchantId => exact fun sub' hsub' => (renewed_kept hkept h sub' hsub').1
    | scheduleFuturePricing p =>
      simp only [commitBusiness] at h
      split_ifs at h
      cases h
      exact hkept
    | addMerchant | editBagFeeOverride | grantExemption =>
      cases h
      exact hkept
    | reserve | redeem | markNoShow | setPayment =>
      simp only [commitBusiness, updateReservation] at h
      split_ifs at h
      cases h
      exact hkept

end Transactions

/-- The periods of all subscriptions, in every reachable state. -/
theorem kept_of_reachable {s : Timed} (h : Reachable step anyStep Initial s) :
    ∀ sub ∈ s.ledger.subscriptions.rows, PeriodKept s.clock sub := by
  induction h with
  | start hi => simp [hi.subscriptions]
  | next _ _ hstep ih =>
    obtain ⟨hclock, hsame | ⟨tx, _, hon, hcommit⟩⟩ := step_eq_some hstep
    · rw [hsame]
      exact fun sub hsub => (ih sub hsub).later hclock
    · exact commit_kept (fun sub hsub => (ih sub hsub).later hclock) hon hcommit

/-- The anniversary that comes next. -/
structure NextAnniversary (anchor now : Instant) (m : ℕ) : Prop where
  pos : 1 ≤ m
  ahead : now < addAnniversaryYears anchor m
  least : ∀ n : ℕ, 1 ≤ n → now < addAnniversaryYears anchor n → m ≤ n

/-- The period ends on the `m`th anniversary and started on the one before it,
the first period on the approval itself. -/
def OnAnniversary (sub : MembershipSubscription) (m : ℕ) : Prop :=
  sub.currentPeriodEnd = addAnniversaryYears sub.anchorDate m ∧
    sub.currentPeriodStart =
      if m = 1 then sub.anchorDate else addAnniversaryYears sub.anchorDate ((m-1 : ℕ) : ℤ)

/-- The merchant was not approved on a 29 February, or is in its first period,
or the period neither starts nor ends in a leap year. -/
def NeverClamped (anchor : Instant) (m : ℕ) : Prop :=
  ¬ OnLeapDay anchor ∨ m = 1 ∨
    isLeapYear ((dateOf anchor).year+((m-1 : ℕ) : ℤ)) = false ∧
      isLeapYear ((dateOf anchor).year+m) = false

section Anniversary

variable {anchor now : Instant} {sub : MembershipSubscription} {k : ℕ}

/-- Anniversaries before a renewal that is past are past. -/
theorem anniversary_past {n : ℕ} (hn : n < k) (hpast : renewalDate anchor k ≤ now) :
    addAnniversaryYears anchor n ≤ now := by
  have hnear := (anniversary_near anchor n).2
  have hyear := renewalDate_succ anchor n
  have hday : (dayMs : ℤ) ≤ 365*dayMs := by decide
  have hmono := (renewalDate_strictMono anchor).monotone (show n+1 ≤ k from hn)
  linarith

/-- An anniversary is its renewal exactly when nothing is clamped that year. -/
theorem anniversary_eq_iff (hleap : OnLeapDay anchor) :
    renewalDate anchor k = addAnniversaryYears anchor k ↔
      isLeapYear ((dateOf anchor).year+k) = false := by
  cases hyear : isLeapYear ((dateOf anchor).year+k) with
  | true =>
    rw [addAnniversaryYears_of_leap anchor k hleap hyear]
    have hday : (0 : ℤ) < dayMs := by decide
    constructor
    · intro heq
      exact absurd heq (ne_of_lt (lt_add_of_pos_right _ hday))
    · intro hfalse
      cases hfalse
  | false => exact ⟨fun _ => rfl, fun _ => (addAnniversaryYears_of_common anchor k hyear).symm⟩

/-- The first period is on the anniversary. -/
theorem first_on_anniversary (hstart : sub.currentPeriodStart = sub.anchorDate)
    (hend : sub.currentPeriodEnd = renewalDate sub.anchorDate 1) (hnow : now < sub.currentPeriodEnd) :
    NextAnniversary sub.anchorDate now 1 ∧ OnAnniversary sub 1 := by
  have hone : sub.currentPeriodEnd = addAnniversaryYears sub.anchorDate 1 := by
    rw [hend, addAnniversaryYears_one]
  refine ⟨⟨le_refl _, ?_, fun n hn _ => hn⟩, ?_, ?_⟩
  · rw [Nat.cast_one, ← hone]
    exact hnow
  · rw [Nat.cast_one]
    exact hone
  · rw [if_pos rfl, hstart]

/-- The next anniversary is the one of the running period, unless its own
clamped renewal has just come. -/
theorem next_of_renewed (hk : 1 ≤ k) (hpast : renewalDate anchor k ≤ now)
    (hnow : now < renewalDate anchor (k+1)) :
    NextAnniversary anchor now (k+1) ∧ addAnniversaryYears anchor k ≤ now ∨
      NextAnniversary anchor now k ∧ now < addAnniversaryYears anchor k := by
  have hahead : now < addAnniversaryYears anchor ((k+1 : ℕ) : ℤ) :=
    lt_of_lt_of_le hnow (anniversary_near anchor (k+1)).1
  rcases le_or_gt (addAnniversaryYears anchor k) now with hgone | hcoming
  · left
    refine ⟨⟨by omega, hahead, ?_⟩, hgone⟩
    intro n _ hn
    by_contra hlt
    rcases Nat.lt_or_eq_of_le (show n ≤ k by omega) with hless | heq
    · exact absurd hn (anniversary_past hless hpast).not_gt
    · rw [heq] at hn
      exact absurd hn hgone.not_gt
  · right
    refine ⟨⟨hk, hcoming, ?_⟩, hcoming⟩
    intro n _ hn
    by_contra hlt
    exact absurd hn (anniversary_past (show n < k by omega) hpast).not_gt

/-- A renewed period is on the anniversary exactly when nothing was clamped. -/
theorem renewed_on_anniversary_iff (hk : 1 ≤ k)
    (hpast : renewalDate sub.anchorDate k ≤ now)
    (hstart : sub.currentPeriodStart = renewalDate sub.anchorDate k)
    (hend : sub.currentPeriodEnd = renewalDate sub.anchorDate (k+1))
    (hnow : now < sub.currentPeriodEnd) :
    ∃ m, NextAnniversary sub.anchorDate now m ∧
      (OnAnniversary sub m ↔ NeverClamped sub.anchorDate m) := by
  rw [hend] at hnow
  rcases next_of_renewed hk hpast hnow with ⟨hnext, _⟩ | ⟨hnext, hcoming⟩
  · refine ⟨k+1, hnext, ?_⟩
    unfold OnAnniversary NeverClamped
    rw [hend, hstart, if_neg (by omega), Nat.add_sub_cancel]
    by_cases hleap : OnLeapDay sub.anchorDate
    · rw [anniversary_eq_iff hleap, anniversary_eq_iff hleap]
      have hone : k+1 ≠ 1 := by omega
      simp only [hleap, not_true, false_or, hone]
      exact and_comm
    · rw [addAnniversaryYears_of_plain _ _ hleap, addAnniversaryYears_of_plain _ _ hleap]
      simp only [hleap, not_false_eq_true, true_or, and_self]
  · -- the clamped renewal came a day before the anniversary of a leap year
    have hleap : OnLeapDay sub.anchorDate := by
      by_contra hplain
      rw [addAnniversaryYears_of_plain _ _ hplain] at hcoming
      exact absurd hcoming hpast.not_gt
    have hyear : isLeapYear ((dateOf sub.anchorDate).year+k) = true := by
      by_contra hcommon
      rw [addAnniversaryYears_of_common _ _ (Bool.not_eq_true _ ▸ hcommon)] at hcoming
      exact absurd hcoming hpast.not_gt
    have hone : k ≠ 1 := by
      intro hk1
      rw [hk1] at hcoming hpast
      rw [Nat.cast_one, addAnniversaryYears_one] at hcoming
      exact absurd hcoming hpast.not_gt
    refine ⟨k, hnext, ?_⟩
    constructor
    · intro hon
      have hlate := hend.symm.trans hon.1
      have hnear := (anniversary_near sub.anchorDate k).2
      have hapart := renewalDate_succ sub.anchorDate k
      have hday : (dayMs : ℤ) < 365*dayMs := by decide
      linarith
    · intro hclamped
      rcases hclamped with hplain | hfirst | hcommon
      · exact absurd hleap hplain
      · exact absurd hfirst hone
      · rw [hyear] at hcommon
        exact absurd hcommon.2 (by decide)

end Anniversary

/-- A running period is on the anniversary exactly when nothing was clamped. -/
theorem kept_on_anniversary_iff {now : Instant} {sub : MembershipSubscription}
    (h : PeriodKept now sub) (hnow : now < sub.currentPeriodEnd) :
    ∃ m, NextAnniversary sub.anchorDate now m ∧
      (OnAnniversary sub m ↔ NeverClamped sub.anchorDate m) := by
  cases h with
  | first hstart hend =>
    obtain ⟨hnext, hon⟩ := first_on_anniversary hstart hend hnow
    exact ⟨1, hnext, fun _ => Or.inr (Or.inl rfl), fun _ => hon⟩
  | renewed hk hpast hstart hend => exact renewed_on_anniversary_iff hk hpast hstart hend hnow

/-- Two running periods of one anchor are the same period, whenever their
renewals ran. -/
theorem kept_unique {now : Instant} {sub sub' : MembershipSubscription} (h : PeriodKept now sub)
    (h' : PeriodKept now sub') (hanchor : sub'.anchorDate = sub.anchorDate)
    (hnow : now < sub.currentPeriodEnd) (hnow' : now < sub'.currentPeriodEnd) :
    SamePeriod sub sub' := by
  have hmono := renewalDate_strictMono sub.anchorDate
  cases h with
  | first hstart hend =>
    cases h' with
    | first hstart' hend' =>
      exact ⟨hanchor, by rw [hstart', hstart, hanchor], by rw [hend', hend, hanchor]⟩
    | renewed hk hpast _ _ =>
      rw [hend] at hnow
      rw [hanchor] at hpast
      exact absurd (hmono.le_iff_le.mpr hk) (lt_of_le_of_lt hpast hnow).not_ge
  | @renewed k hk hpast hstart hend =>
    cases h' with
    | first hstart' hend' =>
      rw [hend', hanchor] at hnow'
      exact absurd (hmono.le_iff_le.mpr hk) (lt_of_le_of_lt hpast hnow').not_ge
    | @renewed j hj hpast' hstart' hend' =>
      rw [hend] at hnow
      rw [hend', hanchor] at hnow'
      rw [hanchor] at hpast'
      have hkj := hmono.lt_iff_lt.mp (lt_of_le_of_lt hpast hnow')
      have hjk := hmono.lt_iff_lt.mp (lt_of_le_of_lt hpast' hnow)
      have heq : j = k := by omega
      exact ⟨hanchor, by rw [hstart', hstart, hanchor, heq], by rw [hend', hend, hanchor, heq]⟩

/-- A renewal run at `now` leaves the subscription in a running period. A
running period is on the anniversary exactly when nothing was clamped, and it
does not depend on when the renewals ran. -/
theorem renewal_on_anniversary_iff (s s' : Timed) :
    (∀ merchantId now, Reachable step anyStep Initial s →
      step s (.transact now (.business (.renewOneLocked merchantId) now)) = some s' →
        s'.clock = now ∧ ∀ sub ∈ s'.ledger.subscriptions.rows, sub.merchantId = merchantId →
          now < sub.currentPeriodEnd) ∧
    (Reachable step anyStep Initial s → ∀ sub ∈ s.ledger.subscriptions.rows,
      s.clock < sub.currentPeriodEnd → ∃ m, NextAnniversary sub.anchorDate s.clock m ∧
        (OnAnniversary sub m ↔ NeverClamped sub.anchorDate m)) ∧
    (Reachable step anyStep Initial s → Reachable step anyStep Initial s' →
      s'.clock = s.clock → ∀ sub ∈ s.ledger.subscriptions.rows,
        ∀ sub' ∈ s'.ledger.subscriptions.rows, sub'.anchorDate = sub.anchorDate →
          s.clock < sub.currentPeriodEnd → s.clock < sub'.currentPeriodEnd →
            SamePeriod sub sub') := by
  refine ⟨?_, ?_, ?_⟩
  · intro merchantId now hs hstep
    simp only [step] at hstep
    split_ifs at hstep with htime
    obtain ⟨l, hl, rfl⟩ := Option.map_eq_some_iff.mp hstep
    refine ⟨rfl, fun sub hsub => (renewed_kept ?_ hl sub hsub).2⟩
    exact fun sub hsub => (kept_of_reachable hs sub hsub).later htime.1
  · intro hs sub hsub hnow
    exact kept_on_anniversary_iff (kept_of_reachable hs sub hsub) hnow
  · intro hs hs' hclock sub hsub sub' hsub' hanchor hnow hnow'
    have hkept' := kept_of_reachable hs' sub' hsub'
    rw [hclock] at hkept'
    exact kept_unique (kept_of_reachable hs sub hsub) hkept' hanchor hnow hnow'

section Sample

/-- One merchant and the seeded price, before the first transaction. -/
def beforeApproval : Timed :=
  ⟨0, { (SettlementService.sampleWorld 2500).ledger with pricing := [⟨2500, 199000, 0⟩] }⟩

theorem beforeApproval_initial : Initial beforeApproval := ⟨rfl, rfl, rfl, rfl, rfl, rfl⟩

/-- Noon of a date. -/
def noon (year month day : ℤ) : Instant := SettlementService.noonOf (dayOfCivil ⟨year, month, day⟩)

/-- Approval at one time, a renewal run at another. -/
def approvedThenRenewed (approvedAt now : Instant) : List TimedAction :=
  [.transact approvedAt (.business (.createForApprovedMerchant 1 approvedAt) approvedAt),
    .transact now (.business (.renewOneLocked 1) now)]

/-- The state after approval and renewal. -/
def renewedState (approvedAt now : Instant) : Timed :=
  after step beforeApproval (approvedThenRenewed approvedAt now)

/-- The merchant's subscription after approval and renewal. -/
def renewedSubscription (approvedAt now : Instant) : Option MembershipSubscription :=
  (renewedState approvedAt now).ledger.subscriptions.find? 1

theorem renewedSubscription_mem {approvedAt now : Instant} {sub : MembershipSubscription}
    (h : renewedSubscription approvedAt now = some sub) :
    sub ∈ (renewedState approvedAt now).ledger.subscriptions.rows :=
  (Table.find?_eq_some.mp h).1

/-- Approved in August 2026 and renewed late, in March 2029. -/
theorem renewal_on_anniversary_sample :
    ∃ sub m, renewedSubscription (noon 2026 8 14) (noon 2029 3 1) = some sub ∧
      NextAnniversary sub.anchorDate (noon 2029 3 1) m ∧ OnAnniversary sub m := by
  have hs : Reachable step anyStep Initial (renewedState (noon 2026 8 14) (noon 2029 3 1)) :=
    reachable_after (.start beforeApproval_initial) (by decide +kernel)
  have hsome : (renewedSubscription (noon 2026 8 14) (noon 2029 3 1)).isSome := by decide +kernel
  obtain ⟨sub, hsub⟩ := Option.isSome_iff_exists.mp hsome
  have hclock : (renewedState (noon 2026 8 14) (noon 2029 3 1)).clock = noon 2029 3 1 := by
    decide +kernel
  have hrow : noon 2029 3 1 < sub.currentPeriodEnd ∧ ¬ OnLeapDay sub.anchorDate := by
    have hall : (renewedSubscription (noon 2026 8 14) (noon 2029 3 1)).all fun sub =>
        decide (noon 2029 3 1 < sub.currentPeriodEnd ∧ ¬ OnLeapDay sub.anchorDate) := by
      decide +kernel
    rw [hsub] at hall
    simpa using hall
  obtain ⟨-, hanniversary, -⟩ := renewal_on_anniversary_iff
    (renewedState (noon 2026 8 14) (noon 2029 3 1)) (renewedState (noon 2026 8 14) (noon 2029 3 1))
  obtain ⟨m, hnext, hiff⟩ := hanniversary hs sub (renewedSubscription_mem hsub)
    (by rw [hclock]; exact hrow.1)
  rw [hclock] at hnext
  exact ⟨sub, m, hsub, hnext, hiff.mpr (Or.inl hrow.2)⟩

/-- Approved on 29 February 2028: the period running in March 2031 ends on
28 February 2032, not on the anniversary. -/
theorem renewal_on_anniversary_counterexample :
    ∃ s, Reachable step anyStep Initial s ∧ ∃ sub ∈ s.ledger.subscriptions.rows,
      s.clock < sub.currentPeriodEnd ∧ ∃ m, NextAnniversary sub.anchorDate s.clock m ∧
        ¬ OnAnniversary sub m := by
  have hs : Reachable step anyStep Initial (renewedState (noon 2028 2 29) (noon 2031 3 1)) :=
    reachable_after (.start beforeApproval_initial) (by decide +kernel)
  have hsome : (renewedSubscription (noon 2028 2 29) (noon 2031 3 1)).isSome := by decide +kernel
  obtain ⟨sub, hsub⟩ := Option.isSome_iff_exists.mp hsome
  have hclock : (renewedState (noon 2028 2 29) (noon 2031 3 1)).clock = noon 2031 3 1 := by
    decide +kernel
  have hrow : sub.anchorDate = noon 2028 2 29 ∧
      sub.currentPeriodEnd = offerDateToDbDate (dayOfCivil ⟨2032, 2, 28⟩) := by
    have hall : (renewedSubscription (noon 2028 2 29) (noon 2031 3 1)).all fun sub =>
        decide (sub.anchorDate = noon 2028 2 29 ∧
          sub.currentPeriodEnd = offerDateToDbDate (dayOfCivil ⟨2032, 2, 28⟩)) := by
      decide +kernel
    rw [hsub] at hall
    simpa using hall
  refine ⟨_, hs, sub, renewedSubscription_mem hsub, ?_, 4, ?_, ?_⟩
  · rw [hclock, hrow.2]
    decide +kernel
  · rw [hclock, hrow.1]
    refine ⟨by decide, by decide +kernel, ?_⟩
    intro n hn hahead
    by_contra hlt
    have hn' : n = 1 ∨ n = 2 ∨ n = 3 := by omega
    rcases hn' with rfl | rfl | rfl
    · exact absurd hahead (by decide +kernel)
    · exact absurd hahead (by decide +kernel)
    · exact absurd hahead (by decide +kernel)
  · intro hon
    have hend := hon.1
    rw [hrow.1, hrow.2] at hend
    exact absurd hend (by decide +kernel)

end Sample

end Kurtar.MembershipPeriods

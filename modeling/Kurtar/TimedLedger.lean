import Kurtar.MembershipDebt

/-!
# The settlement ledger under one clock

Transactions of the ledger committed at the times of a clock that never goes
back. Between two transactions time may pass. A business event happens at the
time of its transaction. Prices are only ever added, each of them for a date
that is still to come.
-/

namespace Kurtar.TimedLedger

open KeyedTable GuardedRuns IstanbulCalendar SettlementLedger SettlementTransactions
open MembershipDebt SettlementEffects

/-- A ledger and the time its clock shows. -/
structure Timed where
  clock : Instant
  ledger : Ledger

inductive TimedAction where
  /-- Time passes. -/
  | wait (now : Instant)
  /-- A transaction commits. -/
  | transact (now : Instant) (tx : Transaction)

/-- A business event reads the clock of its transaction. -/
def onTime (now : Instant) : Transaction → Prop
  | .business _ clock => clock = now
  | _ => True

instance (now : Instant) : DecidablePred (onTime now) := fun tx =>
  match tx with
  | .business _ clock => inferInstanceAs (Decidable (clock = now))
  | .createOrExtend _ _ _ _ | .recompute _ _ _ _ | .approve _ | .hold _ _ | .stampPayout _ _
  | .markSent _ _ _ | .markSettled _ _ _ => isTrue trivial

/-- One step; the clock does not go back. -/
def step (s : Timed) : TimedAction → Option Timed
  | .wait now => if s.clock ≤ now then some ⟨now, s.ledger⟩ else none
  | .transact now tx =>
    if s.clock ≤ now ∧ onTime now tx then (commit s.ledger tx).map fun l => ⟨now, l⟩ else none

/-- Before the first transaction; merchants and prices may exist already. -/
def Initial (s : Timed) : Prop := Empty s.ledger

/-- What comes after a state. -/
abbrev Later (s : Timed) : Timed → Prop := Reachable step anyStep fun t => t = s

theorem step_eq_some {s s' : Timed} {a : TimedAction} (h : step s a = some s') :
    s.clock ≤ s'.clock ∧
      (s'.ledger = s.ledger ∨
        ∃ tx, a = .transact s'.clock tx ∧ onTime s'.clock tx ∧
          commit s.ledger tx = some s'.ledger) := by
  cases a with
  | wait now =>
    simp only [step] at h
    split_ifs at h with hle
    cases h
    exact ⟨hle, Or.inl rfl⟩
  | transact now tx =>
    simp only [step] at h
    split_ifs at h with hle
    obtain ⟨l, hl, rfl⟩ := Option.map_eq_some_iff.mp h
    exact ⟨hle.1, Or.inr ⟨tx, rfl, hle.2, hl⟩⟩

/-- The prices change only by a version for a later date. -/
theorem pricing_commit {l l' : Ledger} {tx : Transaction} (h : commit l tx = some l') :
    l'.pricing = l.pricing ∨
      ∃ p clock, tx = .business (.scheduleFuturePricing p) clock ∧ clock < p.effectiveFrom ∧
        l'.pricing = p :: l.pricing := by
  cases commit_effect h with
  | unchanged => exact Or.inl rfl
  | created => exact Or.inl rfl
  | passed hp => exact Or.inl hp.frame.2.1
  | flipped _ _ hrest =>
    left
    rw [hrest]
  | @business event clock _ _ =>
    change commitBusiness l clock event = some l' at h
    cases event with
    | scheduleFuturePricing p =>
      simp only [commitBusiness] at h
      split_ifs at h with hdate
      cases h
      exact Or.inr ⟨p, clock, rfl, not_le.mp hdate, rfl⟩
    | createForApprovedMerchant | renewOneLocked =>
      simp only [commitBusiness, createSubscription, renewSubscription] at h
      repeat' split at h
      all_goals cases h <;> exact Or.inl rfl
    | addMerchant | editBagFeeOverride | grantExemption =>
      cases h
      exact Or.inl rfl
    | reserve | redeem | markNoShow | setPayment =>
      simp only [commitBusiness, updateReservation] at h
      split_ifs at h
      cases h
      exact Or.inl rfl

/-- As `pricing_commit`, for a step under the clock. -/
theorem pricing_step {s s' : Timed} {a : TimedAction} (h : step s a = some s') :
    s'.ledger.pricing = s.ledger.pricing ∨
      ∃ p, a = .transact s'.clock (.business (.scheduleFuturePricing p) s'.clock) ∧
        s'.clock < p.effectiveFrom ∧ s'.ledger.pricing = p :: s.ledger.pricing := by
  obtain ⟨_, hsame | ⟨tx, ha, hon, hcommit⟩⟩ := step_eq_some h
  · exact Or.inl (by rw [hsame])
  · rcases pricing_commit hcommit with hsame | ⟨p, clock, htx, hdate, hcons⟩
    · exact Or.inl hsame
    · rw [htx] at hon ha
      have hclock : clock = s'.clock := hon
      rw [hclock] at hdate ha
      exact Or.inr ⟨p, ha, hdate, hcons⟩

/-- The versions that are in force by a time that has passed stay the same. -/
theorem past_versions {s s' : Timed} (h : Later s s') :
    s.clock ≤ s'.clock ∧
      ∀ p, p.effectiveFrom ≤ s.clock → (p ∈ s'.ledger.pricing ↔ p ∈ s.ledger.pricing) := by
  induction h with
  | start hs =>
    rw [hs]
    exact ⟨le_refl _, fun _ _ => Iff.rfl⟩
  | next _ _ hstep ih =>
    have hclock := (step_eq_some hstep).1
    refine ⟨ih.1.trans hclock, ?_⟩
    intro p hp
    rcases pricing_step hstep with hsame | ⟨q, _, hdate, hcons⟩
    · rw [hsame]
      exact ih.2 p hp
    · have hne : p ≠ q := by
        intro heq
        rw [heq] at hp
        exact absurd hdate (hp.trans (ih.1.trans hclock)).not_gt
      rw [hcons, List.mem_cons, ← ih.2 p hp]
      exact ⟨fun hmem => hmem.resolve_left hne, Or.inr⟩

end Kurtar.TimedLedger

import Kurtar.MembershipDebt

/-!
# The lifecycle flags of a membership

A pass writes the balance by one formula but the flags only forwards: it
activates a subscription without looking at what it collected, and it never
takes back the mark of a paid period. The flags follow the money exactly as
long as each persisted offset is positive where it activates, and gives
nothing back where the period is marked.
-/

namespace Kurtar.MembershipFlags

open KeyedTable GuardedRuns StatusTransitions IstanbulCalendar SettlementMath SettlementLedger
open SettlementRecompute SettlementTransactions SettlementService SettlementPass
open SettlementEffects MembershipPass

/-- What a recompute hands to `persistOffset`: the resolved due and the applied offset. -/
def persistedOffset (l : Ledger) (batchId : BatchId) (pendingLines : List PendingSettlementLine) :
    Option (MembershipDueForRecompute × ℤ) :=
  match l.batches.find? batchId with
  | none => none
  | some batch =>
    if ¬ batch.Recomputable ∨ batch.payoutAttemptedAt ≠ none then none
    else
      match planPass (insertPendingLines l batchId pendingLines) batch with
      | .ok pass => pass.due.map fun due => (due, pass.result.membershipOffsetCents)
      | .error _ => none

/-- An activating offset is positive, and one over a marked period gives nothing back. -/
def FlagsFollow (due : MembershipDueForRecompute) (appliedOffsetCents : ℤ) : Prop :=
  ((due.exempt || due.foreignPeriod) = false → due.needsActivation = true →
      0 < appliedOffsetCents) ∧
    (due.alreadyMarkedPaid = true →
      due.storedOutstandingCents+due.batchPriorOffsetCents ≤ appliedOffsetCents)

instance (due : MembershipDueForRecompute) (appliedOffsetCents : ℤ) :
    Decidable (FlagsFollow due appliedOffsetCents) := by
  unfold FlagsFollow
  infer_instance

/-- A committed recompute persists only such offsets. -/
def KeepsFlags (l : Ledger) : Transaction → Prop
  | .recompute batchId now pendingLines clock =>
    (commit l (.recompute batchId now pendingLines clock)).isSome →
      ∀ call ∈ persistedOffset l batchId pendingLines, FlagsFollow call.1 call.2
  | _ => True

instance (l : Ledger) : DecidablePred (KeepsFlags l)
  | .recompute batchId now pendingLines clock =>
    inferInstanceAs (Decidable ((commit l (.recompute batchId now pendingLines clock)).isSome →
      ∀ call ∈ persistedOffset l batchId pendingLines, FlagsFollow call.1 call.2))
  | .createOrExtend .. | .approve _ | .hold .. | .stampPayout .. | .markSent ..
  | .markSettled .. | .business .. => instDecidableTrue

/-- A period that is marked as paid owes nothing. -/
def PaidMarksTrue (l : Ledger) : Prop :=
  ∀ sub ∈ l.subscriptions.rows, sub.periodPaidAt ≠ none → sub.outstandingCents = 0

/-- The merchant's subscription went from trial or past due to active. -/
def Activated (l l' : Ledger) (merchantId : MerchantId) : Prop :=
  ∃ sub sub', l.subscriptions.find? merchantId = some sub ∧
    l'.subscriptions.find? merchantId = some sub' ∧
    (sub.status = .trial ∨ sub.status = .pastDue) ∧ sub'.status = .active

/-- A recompute left a positive offset on a batch of the merchant, whose day lies in the
subscription's current period and is not exempt. -/
def Collects (l l' : Ledger) (merchantId : MerchantId) (t : Transaction) : Prop :=
  ∃ batchId now pendingLines clock, t = .recompute batchId now pendingLines clock ∧
    ∃ row sub merchant, l'.batches.find? batchId = some row ∧ row.merchantId = merchantId ∧
      0 < row.membershipOffsetCents ∧ l'.subscriptions.find? merchantId = some sub ∧
      sub.currentPeriodStart ≤ row.periodStart ∧ row.periodStart < sub.currentPeriodEnd ∧
      l.merchants.find? merchantId = some merchant ∧
      ∀ exemptUntil ∈ merchant.membershipExemptUntil, exemptUntil ≤ row.periodStart

section Passes

variable {l l' : Ledger} {batchId : BatchId} {now clock : Instant}
  {pendingLines : List PendingSettlementLine} {batch row : Batch} {pass : RecomputePass}

/-- A committed recompute met a frozen batch, or committed the pass it planned. -/
theorem commit_recompute_cases (h : commit l (.recompute batchId now pendingLines clock) = some l') :
    l' = l ∧ persistedOffset l batchId pendingLines = none ∨
      ∃ batch pass row, CommittedPass l batchId now pendingLines clock batch pass l' row ∧
        persistedOffset l batchId pendingLines =
          pass.due.map fun due => (due, row.membershipOffsetCents) := by
  simp only [commit] at h
  cases hr : recomputeBatch l batchId now pendingLines clock with
  | error e => simp [hr] at h
  | ok result =>
    simp only [hr, Option.some.injEq] at h
    obtain ⟨batch, hfind, ⟨hfrozen, hsame, _⟩ | ⟨pass, hplan, hp⟩⟩ := recomputeBatch_planned hr
    · refine Or.inl ⟨h.symm.trans hsame, ?_⟩
      rw [persistedOffset, hfind]
      exact if_pos hfrozen
    · rw [h] at hp
      refine Or.inr ⟨batch, pass, result.2, hp, ?_⟩
      have hopen : ¬ (¬ batch.Recomputable ∨ batch.payoutAttemptedAt ≠ none) := by
        have hunfrozen := hp.recomputable
        have hunattempted := hp.unattempted
        tauto
      have hoffset := (row_offset hp.toWrittenPass).1
      simp only [persistedOffset, hfind, if_neg hopen, hplan, hoffset]

variable (h : WrittenPass l batchId now pendingLines clock batch pass l' row)

include h

/-- The mark that a pass leaves is true, unless an offset was given back under it. -/
theorem marks_of_pass (hmarks : PaidMarksTrue l)
    (hfollow : ∀ due, pass.due = some due → FlagsFollow due row.membershipOffsetCents) :
    PaidMarksTrue l' := by
  cases hdue : pass.due with
  | none =>
    have htable := (pass_of_none h hdue).2.1
    intro sub hsub
    rw [htable] at hsub
    exact hmarks sub hsub
  | some due =>
    obtain ⟨sub, _, hd, hrep, _⟩ := pass_of_some h hdue
    have hback := (hfollow due hdue).2
    intro s hs hmark
    rcases hrep.mem_iff.mp hs with rfl | ⟨hs, _⟩
    · dsimp only [balanceAfter] at hmark ⊢
      split_ifs at hmark with hnew
      · simp only [Bool.and_eq_true, decide_eq_true_eq] at hnew
        exact hnew.1.2
      · have hmarked : due.alreadyMarkedPaid = true := by
          rw [hd.marked]
          exact Option.isSome_iff_ne_none.mpr hmark
        have hle := hback hmarked
        omega
    · exact hmarks s hs hmark

/-- A pass activates its merchant's subscription only, and only from an own period. -/
theorem activated_by_pass {merchantId : MerchantId} (hact : Activated l l' merchantId) :
    ∃ due, pass.due = some due ∧ row.merchantId = merchantId ∧
      (due.exempt || due.foreignPeriod) = false ∧ due.needsActivation = true := by
  obtain ⟨sub, sub', hsub, hsub', hidle, hactive⟩ := hact
  have hne : sub.status ≠ .active := by
    rcases hidle with hs | hs <;> simp [hs]
  cases hdue : pass.due with
  | none =>
    rw [(pass_of_none h hdue).2.1, hsub] at hsub'
    cases hsub'
    exact absurd hactive hne
  | some due =>
    obtain ⟨owner, hkey, hd, hrep, _⟩ := pass_of_some h hdue
    by_cases hm : merchantId = owner.merchantId
    · have hold := Table.find?_of_mem hrep.mem_old
      have hnew := hrep.find?_self
      rw [← hm] at hold hnew
      cases hold.symm.trans hsub
      cases hnew.symm.trans hsub'
      dsimp only [balanceAfter] at hactive
      split_ifs at hactive with hflip
      · simp only [Bool.and_eq_true, Bool.not_eq_true'] at hflip
        refine ⟨due, rfl, ?_, ?_, hflip.2⟩
        · rw [h.row_columns.1, ← hkey, hm]
        · rw [hflip.1.1, hflip.1.2]
          rfl
      · exact absurd hactive hne
    · rw [hrep.find?_of_ne hm, hsub] at hsub'
      cases hsub'
      exact absurd hactive hne

/-- A positive offset from an own period is collected. -/
theorem collects_of_pass {due : MembershipDueForRecompute} (hdue : pass.due = some due)
    (hown : (due.exempt || due.foreignPeriod) = false) (hpos : 0 < row.membershipOffsetCents) :
    Collects l l' row.merchantId (.recompute batchId now pendingLines clock) := by
  obtain ⟨merchant, hmerchant, _, hlock⟩ := h.planned.bagFee
  obtain ⟨sub, hsub, hd, hexempt⟩ := lockAndResolveDue_eq_some (hlock.symm.trans hdue)
  obtain ⟨owner, hkey, _, hrep, _⟩ := pass_of_some h hdue
  have hbatch := Table.find?_eq_some.mp h.found
  have hsame : owner = sub := by
    have hmem := Table.find?_eq_some.mp hsub
    exact l.subscriptions.eq_of_key_eq hrep.mem_old hmem.1 (hkey.trans hmem.2.symm)
  rw [hsame] at hrep
  rw [Bool.or_eq_false_iff] at hown
  have hperiod := hd.foreign.symm.trans hown.2
  have hwindow := hexempt.symm.trans hown.1
  obtain ⟨hm, _, hstart, _⟩ := h.row_columns
  let after := balanceAfter due row.membershipOffsetCents row.membershipOffsetVatCents clock sub
  refine ⟨batchId, now, pendingLines, clock, rfl, row, after, merchant, ?_, rfl, hpos, ?_, ?_, ?_,
    ?_, ?_⟩
  · rw [← hbatch.2]
    exact h.replaces.find?_self
  · rw [hm, ← (Table.find?_eq_some.mp hsub).2]
    exact hrep.find?_self
  · rw [hstart]
    exact Int.not_lt.mp (not_or.mp (of_decide_eq_false hperiod)).1
  · rw [hstart]
    exact Int.not_le.mp (not_or.mp (of_decide_eq_false hperiod)).2
  · rw [hm]
    exact hmerchant
  · intro exemptUntil huntil
    rw [Option.mem_def.mp huntil] at hwindow
    rw [hstart]
    exact Int.not_lt.mp (of_decide_eq_false hwindow)

end Passes

section Events

variable {l l' : Ledger}

/-- A new subscription is on trial, and marked as paid only if it owes nothing. -/
theorem opened_on_trial {merchantId : MerchantId} {approvedAt : Instant}
    (h : createSubscription l merchantId approvedAt = some l') :
    ∃ sub, l'.subscriptions = l.subscriptions.insertNew sub ∧ sub.status = .trial ∧
      (sub.periodPaidAt ≠ none → sub.outstandingCents = 0) := by
  unfold createSubscription at h
  split at h
  · cases h
  · split at h
    · cases h
    · cases h
      refine ⟨_, rfl, rfl, ?_⟩
      intro hmark
      by_contra hopen
      exact hmark (if_neg hopen)

/-- A renewal activates nothing, and marks as paid only what owes nothing. -/
theorem renewed_flags {merchantId : MerchantId} {clock : Instant}
    (h : renewSubscription l merchantId clock = some l') :
    ∃ sub sub', Table.Replaces l.subscriptions l'.subscriptions sub sub' ∧
      (sub'.status = .pastDue ∨ sub'.status = sub.status) ∧
      (sub'.periodPaidAt ≠ none → sub'.outstandingCents = 0) := by
  unfold renewSubscription at h
  cases hsub : l.subscriptions.find? merchantId with
  | none => simp [hsub] at h
  | some sub =>
    simp only [hsub] at h
    split at h
    · cases h
    · split at h
      · cases h
      · cases h
        refine ⟨sub, _, replaces_subscription (by exact fun _ => rfl) hsub, ?_, ?_⟩
        · dsimp only
          split_ifs
          · exact Or.inl rfl
          · exact Or.inr rfl
        · intro hmark
          by_contra hopen
          exact hmark (if_neg hopen)

/-- A business event leaves the subscriptions alone, creates one, or renews one; a period
opens with a true mark, and nothing but a pass makes a subscription active. -/
theorem subscriptions_of_event {event : BusinessEvent} {clock : Instant}
    (h : commitBusiness l clock event = some l') :
    l'.subscriptions = l.subscriptions ∨
      (∃ sub, l'.subscriptions = l.subscriptions.insertNew sub ∧ sub.status = .trial ∧
        (sub.periodPaidAt ≠ none → sub.outstandingCents = 0)) ∨
      ∃ sub sub', Table.Replaces l.subscriptions l'.subscriptions sub sub' ∧
        (sub'.status = .pastDue ∨ sub'.status = sub.status) ∧
        (sub'.periodPaidAt ≠ none → sub'.outstandingCents = 0) := by
  cases event with
  | createForApprovedMerchant merchantId approvedAt => exact Or.inr (Or.inl (opened_on_trial h))
  | renewOneLocked merchantId => exact Or.inr (Or.inr (renewed_flags h))
  | scheduleFuturePricing | reserve =>
    simp only [commitBusiness] at h
    split_ifs at h
    cases h
    exact Or.inl rfl
  | addMerchant | editBagFeeOverride | grantExemption =>
    cases h
    exact Or.inl rfl
  | redeem | markNoShow | setPayment =>
    simp only [commitBusiness, updateReservation] at h
    split_ifs at h
    cases h
    exact Or.inl rfl

theorem marks_of_event {event : BusinessEvent} {clock : Instant} (hmarks : PaidMarksTrue l)
    (h : commitBusiness l clock event = some l') : PaidMarksTrue l' := by
  rcases subscriptions_of_event h with hsame | ⟨sub, hinsert, _, hopen⟩ | ⟨sub, sub', hrep, _, hopen⟩
  · intro s hs
    rw [hsame] at hs
    exact hmarks s hs
  · intro s hs
    rw [hinsert] at hs
    rcases Table.mem_insertNew.mp hs with hs | ⟨rfl, _⟩
    · exact hmarks s hs
    · exact hopen
  · intro s hs
    rcases hrep.mem_iff.mp hs with rfl | ⟨hs, _⟩
    · exact hopen
    · exact hmarks s hs

/-- No business event activates a subscription. -/
theorem not_activated_by_event {event : BusinessEvent} {clock : Instant} {merchantId : MerchantId}
    (h : commitBusiness l clock event = some l') : ¬ Activated l l' merchantId := by
  rintro ⟨sub, sub', hsub, hsub', hidle, hactive⟩
  have hne : sub.status ≠ .active := by
    rcases hidle with hs | hs <;> simp [hs]
  rcases subscriptions_of_event h with hsame | ⟨fresh, hinsert, _⟩ | ⟨old, new, hrep, hstatus, _⟩
  · rw [hsame, hsub] at hsub'
    cases hsub'
    exact hne hactive
  · rw [hinsert, Table.find?_insertNew_of_some hsub] at hsub'
    cases hsub'
    exact hne hactive
  · by_cases hm : merchantId = old.merchantId
    · have hold := Table.find?_of_mem hrep.mem_old
      have hnew := hrep.find?_self
      rw [← hm] at hold hnew
      cases hold.symm.trans hsub
      cases hnew.symm.trans hsub'
      rcases hstatus with hs | hs
      · rw [hs] at hactive
        cases hactive
      · exact hne (hs.symm.trans hactive)
    · rw [hrep.find?_of_ne hm, hsub] at hsub'
      cases hsub'
      exact hne hactive

end Events

section Commits

variable {l l' : Ledger} {t : Transaction} {merchantId : MerchantId}

/-- Only the commit of a planned pass activates a subscription. -/
theorem activated_by_commit (h : commit l t = some l') (hact : Activated l l' merchantId) :
    ∃ batchId now pendingLines clock batch pass row due,
      t = .recompute batchId now pendingLines clock ∧
      CommittedPass l batchId now pendingLines clock batch pass l' row ∧
      persistedOffset l batchId pendingLines = some (due, row.membershipOffsetCents) ∧
      pass.due = some due ∧ row.merchantId = merchantId ∧
      (due.exempt || due.foreignPeriod) = false ∧ due.needsActivation = true := by
  have hunchanged : l'.subscriptions ≠ l.subscriptions := by
    intro hsame
    obtain ⟨sub, sub', hsub, hsub', hidle, hactive⟩ := hact
    rw [hsame, hsub] at hsub'
    cases hsub'
    rcases hidle with hs | hs <;> simp [hs] at hactive
  cases commit_effect h with
  | unchanged => exact absurd rfl hunchanged
  | created => exact absurd rfl hunchanged
  | flipped _ _ hrest =>
    rw [hrest] at hunchanged
    exact absurd rfl hunchanged
  | @passed batchId now clock pendingLines _ _ _ _ _ =>
    rcases commit_recompute_cases h with ⟨hsame, _⟩ | ⟨batch, pass, row, hp, hcall⟩
    · rw [hsame] at hunchanged
      exact absurd rfl hunchanged
    · obtain ⟨due, hdue, hm, hown, hneeds⟩ := activated_by_pass hp.toWrittenPass hact
      rw [hdue, Option.map_some] at hcall
      exact ⟨batchId, now, pendingLines, clock, batch, pass, row, due, rfl, hp, hcall, hdue, hm,
        hown, hneeds⟩
  | business => exact absurd hact (not_activated_by_event h)

/-- A recompute that keeps the flags activates only where it collects. -/
theorem collects_of_commit (hkeeps : KeepsFlags l t) (h : commit l t = some l')
    (hact : Activated l l' merchantId) : Collects l l' merchantId t := by
  obtain ⟨batchId, now, pendingLines, clock, batch, pass, row, due, rfl, hp, hcall, hdue, hm,
    hown, hneeds⟩ := activated_by_commit h hact
  have hfollow := hkeeps (by rw [h]; rfl) (due, row.membershipOffsetCents) hcall
  rw [← hm]
  exact collects_of_pass hp.toWrittenPass hdue hown (hfollow.1 hown hneeds)

theorem marks_of_commit (hmarks : PaidMarksTrue l) (hkeeps : KeepsFlags l t)
    (h : commit l t = some l') : PaidMarksTrue l' := by
  cases commit_effect h with
  | unchanged => exact hmarks
  | created => exact hmarks
  | flipped _ _ hrest =>
    rw [hrest]
    exact hmarks
  | passed =>
    rcases commit_recompute_cases h with ⟨hsame, _⟩ | ⟨batch, pass, row, hp, hcall⟩
    · rw [hsame]
      exact hmarks
    · apply marks_of_pass hp.toWrittenPass hmarks
      intro due hdue
      rw [hdue, Option.map_some] at hcall
      exact hkeeps (by rw [h]; rfl) (due, row.membershipOffsetCents) hcall
  | business => exact marks_of_event hmarks h

/-- An activation that nothing was collected for. -/
def UnearnedActivation (l l' : Ledger) (t : Transaction) : Prop :=
  ∃ merchantId, Activated l l' merchantId ∧ ¬ Collects l l' merchantId t

/-- A recompute that does not keep the flags breaks one of them at once. -/
theorem broken_by_commit (hnot : ¬ KeepsFlags l t) (h : commit l t = some l') :
    UnearnedActivation l l' t ∨ ¬ PaidMarksTrue l' := by
  cases t with
  | recompute batchId now pendingLines clock =>
    simp only [KeepsFlags, Classical.not_imp, not_forall] at hnot
    obtain ⟨_, call, hcall, hbreaks⟩ := hnot
    rcases commit_recompute_cases h with ⟨_, hnone⟩ | ⟨batch, pass, row, hp, hcalled⟩
    · rw [hnone] at hcall
      cases hcall
    · obtain ⟨due, hdue, rfl⟩ := Option.map_eq_some_iff.mp (hcalled.symm.trans hcall)
      obtain ⟨sub, hkey, hd, hrep, _⟩ := pass_of_some hp.toWrittenPass hdue
      have hself := hrep.find?_self
      rcases not_and_or.mp hbreaks with hidle | hgiven
      · simp only [Classical.not_imp] at hidle
        obtain ⟨hown, hneeds, hzero⟩ := hidle
        refine Or.inl ⟨sub.merchantId, ⟨sub, _, Table.find?_of_mem hrep.mem_old, hself, ?_, ?_⟩, ?_⟩
        · have hinactive := hd.inactive.symm.trans hneeds
          exact of_decide_eq_true hinactive
        · rw [Bool.or_eq_false_iff] at hown
          simp [balanceAfter, hown.1, hown.2, hneeds]
        · rintro ⟨_, _, _, _, he, found, _, _, hfound, _, hpos, _⟩
          cases he
          have hrow := hp.replaces.find?_self
          rw [(Table.find?_eq_some.mp hp.found).2] at hrow
          cases hrow.symm.trans hfound
          exact hzero hpos
      · simp only [Classical.not_imp] at hgiven
        obtain ⟨hmarked, hless⟩ := hgiven
        refine Or.inr fun hmarks => ?_
        have hmark : sub.periodPaidAt ≠ none :=
          Option.isSome_iff_ne_none.mp (hd.marked.symm.trans hmarked)
        have hopen := hmarks _ hrep.mem_new (by simpa [balanceAfter, hmarked] using hmark)
        dsimp only [balanceAfter] at hopen
        omega
  | _ => exact absurd trivial hnot

end Commits

section Runs

variable {w w' : World} {a : Action}

/-- A step that is not allowed commits the recompute that breaks a flag. -/
theorem broken_by_step (hnot : ¬ committing KeepsFlags w a) (h : step w a = some w') :
    ∃ t, transactionOf w a = some t ∧
      (UnearnedActivation w.ledger w'.ledger t ∨ ¬ PaidMarksTrue w'.ledger) := by
  unfold committing at hnot
  push Not at hnot
  obtain ⟨t, ht, hbreaks⟩ := hnot
  refine ⟨t, ht, broken_by_commit hbreaks ?_⟩
  cases t with
  | recompute batchId now pendingLines clock =>
    have hsome := (Classical.not_imp.mp hbreaks).1
    simp only [commit] at hsome ⊢
    cases hr : recomputeBatch w.ledger batchId now pendingLines clock with
    | error e => simp [hr] at hsome
    | ok result => rw [ledger_of_recompute ht hr h]
  | _ => exact absurd trivial hbreaks

theorem marks_of_reachable (h : ServiceReachable (committing KeepsFlags) w) :
    PaidMarksTrue w.ledger := by
  refine h.invariant (I := fun s => PaidMarksTrue s.ledger) ?_ ?_
  · intro w hi sub hsub
    rw [hi.ledger.subscriptions] at hsub
    cases hsub
  · intro s a s' hmarks hkeeps hstep
    rcases step_commits hstep with hsame | ⟨t, ht, hcommit⟩
    · rw [hsame]
      exact hmarks
    · exact marks_of_commit hmarks (hkeeps t ht) hcommit

end Runs

section SampleRuns

/-- A membership of a hundred, sold to the sample merchant. -/
def enrolled : List Action :=
  [.business (.scheduleFuturePricing ⟨100, 10000, noonOf 100⟩) (noonOf 99),
    .business (.createForApprovedMerchant 1 (noonOf 100)) (noonOf 100)]

/-- A sale of the first day is about to be settled. -/
def firstSale : List Action :=
  enrolled ++ sell 1 101 5000 ++ [.runNightlyCycle (noonOf 102) none, proceed (noonOf 102) 1]

/-- A batch clears the balance; a higher bag fee then makes its recompute give back. -/
def givenBack : List Action :=
  enrolled ++ sell 1 101 20000 ++ runNight (noonOf 102) 1
    ++ [.business (.editBagFeeOverride 1 (some 10000)) (noonOf 103), .adminApprove 1 7 (noonOf 103),
      proceed (noonOf 103) 0]

theorem activated_of_status {l l' : Ledger} {merchantId : MerchantId}
    (h : (l.subscriptions.find? merchantId).map (·.status) = some .trial)
    (h' : (l'.subscriptions.find? merchantId).map (·.status) = some .active) :
    Activated l l' merchantId := by
  obtain ⟨sub, hsub, hs⟩ := Option.map_eq_some_iff.mp h
  obtain ⟨sub', hsub', hs'⟩ := Option.map_eq_some_iff.mp h'
  exact ⟨sub, sub', hsub, hsub', Or.inl hs, hs'⟩

end SampleRuns

end Kurtar.MembershipFlags

import Kurtar.ServiceSteps
import Kurtar.SettlementEffects

/-!
# What an approval records and what it freezes

An approval recomputes its batch in one transaction and flips the status in
another, which is guarded on the status alone and records the amounts of the
recompute. Between the two any other recompute of the batch may commit. The
record names the stored amounts as long as none of them changes them.
-/

namespace Kurtar.ApprovedAmounts

open KeyedTable GuardedRuns StatusTransitions IstanbulCalendar SettlementMath SettlementLedger
open SettlementRecompute SettlementTransactions SettlementPass SettlementEffects SettlementService
open ServiceSteps

section Amounts

/-- The amounts of a batch. -/
structure Amounts where
  grossCents : ℤ
  bagFeeCents : ℤ
  bagFeeVatCents : ℤ
  withholdingCents : ℤ
  membershipOffsetCents : ℤ
  membershipOffsetVatCents : ℤ
  refundClawbackCents : ℤ
  netPayoutCents : ℤ
  carriedShortfallCents : ℤ
  carriedExternalDemandCents : ℤ
  inheritedExternalDemandCents : ℤ
  deriving DecidableEq

def amountsOf (b : Batch) : Amounts where
  grossCents := b.grossCents
  bagFeeCents := b.bagFeeCents
  bagFeeVatCents := b.bagFeeVatCents
  withholdingCents := b.withholdingCents
  membershipOffsetCents := b.membershipOffsetCents
  membershipOffsetVatCents := b.membershipOffsetVatCents
  refundClawbackCents := b.refundClawbackCents
  netPayoutCents := b.netPayoutCents
  carriedShortfallCents := b.carriedShortfallCents
  carriedExternalDemandCents := b.carriedExternalDemandCents
  inheritedExternalDemandCents := b.inheritedExternalDemandCents

/-- The stored amounts of a batch. -/
def amountsIn (l : Ledger) (batchId : BatchId) : Option Amounts :=
  (l.batches.find? batchId).map amountsOf

/-- An approval has recomputed its batch and is about to flip it. -/
def Awaiting (w : World) (batchId : BatchId) (recomputed : Batch) : Prop :=
  ∃ adminId fromStatus, Task.approveFlip batchId adminId fromStatus recomputed ∈ w.tasks

/-- Is the task an approval's flip of the batch? -/
def isFlipOf (batchId : BatchId) : Task → Bool
  | .approveFlip id _ _ _ => id = batchId
  | _ => false

/-- No recompute changes the amounts of a batch while an approval is about to flip it. -/
def Undisturbed (w : World) (a : Action) : Prop :=
  match transactionOf w a with
  | some (.recompute batchId now pendingLines clock) =>
    w.tasks.any (isFlipOf batchId) →
      (commit w.ledger (.recompute batchId now pendingLines clock)).all fun l' =>
        amountsIn l' batchId = amountsIn w.ledger batchId
  | _ => True

instance (w : World) : DecidablePred (Undisturbed w) := fun a => by
  unfold Undisturbed
  split <;> infer_instance

/-- Every approval about to flip carries the stored amounts of its batch. -/
def ApprovalsCurrent (w : World) : Prop :=
  ∀ batchId recomputed, Awaiting w batchId recomputed →
    amountsIn w.ledger batchId = some (amountsOf recomputed)

variable {l l' : Ledger} {batchId : BatchId}

theorem amountsIn_of_mem {b : Batch} (hb : b ∈ l.batches.rows) :
    amountsIn l b.id = some (amountsOf b) := by
  rw [amountsIn, Table.find?_of_mem hb]
  rfl

theorem amountsIn_of_replaces {old new : Batch} (h : Table.Replaces l.batches l'.batches old new)
    (hsame : batchId = old.id → amountsOf new = amountsOf old) {amounts : Amounts}
    (hstored : amountsIn l batchId = some amounts) : amountsIn l' batchId = some amounts := by
  obtain ⟨b, hfind, hb⟩ := Option.map_eq_some_iff.mp hstored
  obtain ⟨hmem, hid⟩ := Table.find?_eq_some.mp hfind
  by_cases hk : b.id = old.id
  · have he := l.batches.eq_of_key_eq hmem h.mem_old hk
    have hnew := amountsIn_of_mem h.mem_new
    rw [h.key_new, ← hk, hid] at hnew
    rw [hnew, hsame (hid.symm.trans hk), ← he, hb]
  · have hkept := amountsIn_of_mem (h.mem_of_ne hmem hk)
    rw [hid] at hkept
    rw [hkept, hb]

/-- Only a recompute of a batch changes its amounts. -/
theorem amountsIn_commit {t : Transaction} (h : commit l t = some l') {amounts : Amounts}
    (hstored : amountsIn l batchId = some amounts)
    (hother : ∀ now pendingLines clock, t ≠ .recompute batchId now pendingLines clock) :
    amountsIn l' batchId = some amounts := by
  cases commit_effect h with
  | unchanged => exact hstored
  | created =>
    obtain ⟨b, hfind, hb⟩ := Option.map_eq_some_iff.mp hstored
    rw [amountsIn, Table.find?_insertNew_of_some hfind]
    exact congrArg some hb
  | @passed batchId' now clock pendingLines batch row pass _ hp =>
    refine amountsIn_of_replaces hp.replaces (fun he => ?_) hstored
    have hsame : batchId' = batchId := by rw [he, (Table.find?_eq_some.mp hp.found).2]
    exact absurd rfl (hsame ▸ hother now pendingLines clock)
  | @flipped _ old new _ hflip hrep _ =>
    refine amountsIn_of_replaces hrep (fun _ => ?_) hstored
    rw [hflip.keeps]
    rfl
  | business hframe =>
    rw [amountsIn, hframe.1]
    exact hstored

/-- The row a recompute returns is stored. -/
theorem amountsIn_recompute {now clock : Instant} {pendingLines : List PendingSettlementLine}
    {result : Ledger × Batch} (h : recomputeBatch l batchId now pendingLines clock = .ok result) :
    amountsIn result.1 batchId = some (amountsOf result.2) := by
  obtain ⟨batch, hfind, ⟨_, hl, hrow⟩ | ⟨pass, hp⟩⟩ := recomputeBatch_eq_ok h
  · rw [hl, hrow, amountsIn, hfind]
    rfl
  · have hstored := amountsIn_of_mem hp.replaces.mem_new
    rw [hp.replaces.key_new, (Table.find?_eq_some.mp hfind).2] at hstored
    exact hstored

end Amounts

section Tasks

variable {w w' : World} {input : StepInput}

/-- The flips that a resumed task leaves: old ones, or its own with the amounts it stored. -/
def FlipsKept (w w' : World) : Prop :=
  ∀ batchId recomputed, Awaiting w' batchId recomputed → Awaiting w batchId recomputed ∨
    amountsIn w'.ledger batchId = some (amountsOf recomputed)

theorem flipsKept_of_tasks (h : w'.tasks = w.tasks) : FlipsKept w w' := by
  rintro batchId recomputed ⟨adminId, fromStatus, hmem⟩
  rw [h] at hmem
  exact Or.inl ⟨adminId, fromStatus, hmem⟩

theorem flipsKept_spawn {task : Task} (htask : isFlip task = false)
    (h : w'.tasks = task :: w.tasks) : FlipsKept w w' := by
  rintro batchId recomputed ⟨adminId, fromStatus, hmem⟩
  rw [h] at hmem
  rcases List.mem_cons.mp hmem with he | hmem
  · rw [← he] at htask
    cases htask
  · exact Or.inl ⟨adminId, fromStatus, hmem⟩

/-- Only the recompute of an approval leaves a flip. -/
theorem resumed_flips {task : Task} (h : Resumed w input w' task) : FlipsKept w w' := by
  cases h with
  | ends htasks => exact flipsKept_of_tasks htasks
  | goesOn next hnext htasks => exact flipsKept_spawn hnext htasks
  | cycleEnds htasks => exact flipsKept_of_tasks htasks
  | recomputed hresult hw' =>
    rintro batchId recomputed ⟨adminId, fromStatus, hmem⟩
    rw [hw'] at hmem ⊢
    rcases List.mem_cons.mp hmem with he | hmem
    · cases he
      exact Or.inr (amountsIn_recompute hresult)
    · exact Or.inl ⟨adminId, fromStatus, hmem⟩
  | approved _ hw' =>
    rw [hw']
    exact flipsKept_of_tasks rfl

/-- No step but an approval's own recompute adds a flip. -/
theorem step_flips {a : Action} (h : step w a = some w') : FlipsKept w w' := by
  cases stepped_of_step h with
  | same htasks => exact flipsKept_of_tasks htasks
  | started next hnext htasks => exact flipsKept_spawn hnext htasks
  | held _ htasks => exact flipsKept_of_tasks htasks
  | retried _ next hnext htasks => exact flipsKept_spawn hnext htasks
  | settled _ htasks => exact flipsKept_of_tasks htasks
  | resumed _ hresumed =>
    intro batchId recomputed hawaiting
    rcases resumed_flips hresumed batchId recomputed hawaiting with hold | hnew
    · obtain ⟨adminId, fromStatus, hmem⟩ := hold
      exact Or.inl ⟨adminId, fromStatus, List.mem_of_mem_eraseIdx hmem⟩
    · exact Or.inr hnew

end Tasks

section Runs

variable {w w' : World} {a : Action}

theorem any_flip_of_awaiting {batchId : BatchId} {recomputed : Batch}
    (h : Awaiting w batchId recomputed) : w.tasks.any (isFlipOf batchId) := by
  obtain ⟨adminId, fromStatus, hmem⟩ := h
  exact List.any_eq_true.mpr ⟨_, hmem, by simp [isFlipOf]⟩

theorem approvalsCurrent_step (hs : ApprovalsCurrent w) (hquiet : Undisturbed w a)
    (h : step w a = some w') : ApprovalsCurrent w' := by
  intro batchId recomputed hawaiting
  rcases step_flips h batchId recomputed hawaiting with hold | hnew
  · have hstored := hs batchId recomputed hold
    rcases step_commits h with hsame | ⟨t, ht, hcommit⟩
    · rw [hsame]
      exact hstored
    · by_cases hown : ∃ now pendingLines clock, t = .recompute batchId now pendingLines clock
      · obtain ⟨now, pendingLines, clock, rfl⟩ := hown
        unfold Undisturbed at hquiet
        simp only [ht, hcommit, Option.all_some, decide_eq_true_eq] at hquiet
        rw [hquiet (any_flip_of_awaiting hold)]
        exact hstored
      · exact amountsIn_commit hcommit hstored fun now pendingLines clock he =>
          hown ⟨now, pendingLines, clock, he⟩
  · exact hnew

/-- The record of an approval names the stored payout, and the approved amounts are those of
the recompute the approval itself performed. -/
def FaithfulApproval (w w' : World) : Prop :=
  ∀ adminId batchId fromStatus netPayoutCents merchantId,
    w'.auditLog = .approved adminId batchId fromStatus netPayoutCents merchantId :: w.auditLog →
      ∃ b ∈ w'.ledger.batches.rows, b.id = batchId ∧ b.status = .approved ∧
        b.netPayoutCents = netPayoutCents ∧
        ∃ recomputed, Task.approveFlip batchId adminId fromStatus recomputed ∈ w.tasks ∧
          amountsOf b = amountsOf recomputed

theorem no_record {entry : AuditEntry} {log : List AuditEntry} (h : log = entry :: log) : False :=
  List.cons_ne_self entry log h.symm

/-- Only a flip that matched its batch records an approval. -/
theorem flip_of_record {adminId : AdminId} {batchId : BatchId} {fromStatus : SettlementStatus}
    {netPayoutCents : ℤ} {merchantId : MerchantId} (h : step w a = some w')
    (hlog : w'.auditLog =
      .approved adminId batchId fromStatus netPayoutCents merchantId :: w.auditLog) :
    ∃ recomputed, Task.approveFlip batchId adminId fromStatus recomputed ∈ w.tasks ∧
      recomputed.netPayoutCents = netPayoutCents ∧
      approveBatch w.ledger batchId = some w'.ledger := by
  cases stepped_of_step h with
  | same _ hsame => exact (no_record (hsame.symm.trans hlog)).elim
  | started _ _ _ hsame => exact (no_record (hsame.symm.trans hlog)).elim
  | held _ _ hother => cases hother.symm.trans hlog
  | retried _ _ _ _ hother => cases hother.symm.trans hlog
  | settled _ _ hother => cases hother.symm.trans hlog
  | resumed htask hresumed =>
    cases hresumed with
    | ends _ hsame => exact (no_record (hsame.symm.trans hlog)).elim
    | goesOn _ _ _ hsame => exact (no_record (hsame.symm.trans hlog)).elim
    | cycleEnds _ hother => cases hother.symm.trans hlog
    | recomputed _ hw' =>
      rw [hw'] at hlog
      exact (no_record hlog).elim
    | approved hledger hw' =>
      rw [hw'] at hlog ⊢
      cases hlog
      exact ⟨_, List.mem_of_getElem? htask, rfl, hledger⟩

theorem faithful_of_current (hs : ApprovalsCurrent w) (h : step w a = some w') :
    FaithfulApproval w w' := by
  intro adminId batchId fromStatus netPayoutCents merchantId hlog
  obtain ⟨recomputed, hmem, hnet, hflip⟩ := flip_of_record h hlog
  have hstored := hs batchId recomputed ⟨adminId, fromStatus, hmem⟩
  obtain ⟨b, hid, _, hrep, _⟩ := updateBatch_eq_some hflip
  have hold := amountsIn_of_mem hrep.mem_old
  rw [hid, hstored] at hold
  have hsame : amountsOf recomputed = amountsOf b := Option.some.inj hold
  refine ⟨_, hrep.mem_new, hid, rfl, ?_, recomputed, hmem, hsame.symm⟩
  rw [← hnet]
  exact (congrArg Amounts.netPayoutCents hsame).symm

/-- Approvals are faithful in every run in which no recompute changes the amounts of a batch
whose approval is about to flip it; a step that does leaves an approval with amounts that are
no longer stored. -/
theorem approvals_faithful_when_undisturbed (w : World) (h : ServiceReachable Undisturbed w) :
    (∀ a w', step w a = some w' → FaithfulApproval w w') ∧
      ∀ a w', step w a = some w' → ¬ Undisturbed w a →
        ∃ batchId recomputed, Awaiting w batchId recomputed ∧
          amountsIn w'.ledger batchId ≠ some (amountsOf recomputed) := by
  have hs : ApprovalsCurrent w := by
    refine h.invariant ?_ fun _ _ _ hs hquiet hstep => approvalsCurrent_step hs hquiet hstep
    rintro w hi batchId recomputed ⟨adminId, fromStatus, hmem⟩
    rw [hi.tasks] at hmem
    cases hmem
  refine ⟨fun a w' hstep => faithful_of_current hs hstep, ?_⟩
  intro a w' hstep hnot
  unfold Undisturbed at hnot
  cases ht : transactionOf w a with
  | none => simp [ht] at hnot
  | some t =>
    cases t with
    | recompute batchId now pendingLines clock =>
      simp only [ht, Classical.not_imp] at hnot
      obtain ⟨hany, hchanged⟩ := hnot
      obtain ⟨task, hmem, hflip⟩ := List.any_eq_true.mp hany
      cases task with
      | approveFlip id adminId fromStatus recomputed =>
        have hid : id = batchId := by simpa [isFlipOf] using hflip
        rw [hid] at hmem
        have hawaiting : Awaiting w batchId recomputed := ⟨adminId, fromStatus, hmem⟩
        refine ⟨batchId, recomputed, hawaiting, ?_⟩
        cases hr : recomputeBatch w.ledger batchId now pendingLines clock with
        | error e => simp [commit, hr] at hchanged
        | ok result =>
          simp only [commit, hr, Option.all_some, decide_eq_true_eq] at hchanged
          rw [ledger_of_recompute ht hr hstep, ← hs batchId recomputed hawaiting]
          exact hchanged
      | _ => simp [isFlipOf] at hflip
    | _ => simp [ht] at hnot

end Runs

section SampleRuns

/-- An approval of the first day's batch has recomputed it. -/
def awaitingRun : List Action :=
  sell 1 0 5000 ++ runNight (noonOf 1) 1 ++ [.adminApprove 1 7 (noonOf 2), proceed (noonOf 2) 0]

/-- A late line of the same day is found by a nightly cycle before the flip. -/
def foundRun : List Action :=
  awaitingRun ++ sell 2 0 4000 ++ [.runNightlyCycle (noonOf 2) none, proceed (noonOf 2) 2]

/-- The cycle builds the line in and ends. -/
def disturbedRun : List Action :=
  foundRun ++ [proceed (noonOf 2) 2, proceed (noonOf 2) 0, proceed (noonOf 2) 0]

/-- The flip after the cycle records the amount of a recompute that is no longer stored. -/
theorem approvals_faithful_counterexample :
    ServiceReachable anyStep (sampleState 500 disturbedRun) ∧
      step (sampleState 500 disturbedRun) (proceed 0 0) =
        some (sampleState 500 (disturbedRun ++ [proceed 0 0])) ∧
      (sampleState 500 (disturbedRun ++ [proceed 0 0])).auditLog =
        .approved 7 1 .calculated 4356 1 :: (sampleState 500 disturbedRun).auditLog ∧
      ((sampleState 500 (disturbedRun ++ [proceed 0 0])).batch 1).netPayoutCents = 7722 ∧
      ¬ FaithfulApproval (sampleState 500 disturbedRun)
        (sampleState 500 (disturbedRun ++ [proceed 0 0])) := by
  have hlog : (sampleState 500 (disturbedRun ++ [proceed 0 0])).auditLog =
      .approved 7 1 .calculated 4356 1 :: (sampleState 500 disturbedRun).auditLog := by
    rfl
  refine ⟨sampleState_reachable (by decide +kernel), step_after (by decide +kernel), hlog,
    by decide +kernel, ?_⟩
  intro h
  obtain ⟨b, hb, hid, _, hnet, _⟩ := h 7 1 .calculated 4356 1 hlog
  have hstored : ∀ b ∈ (sampleState 500 (disturbedRun ++ [proceed 0 0])).ledger.batches.rows,
      b.netPayoutCents = 7722 := by decide +kernel
  rw [hstored b hb] at hnet
  cases hnet

theorem approvals_faithful_when_undisturbed_found :
    FaithfulApproval (sampleState 500 foundRun)
        (sampleState 500 (foundRun ++ [.resume 1 ⟨0, 0, .failed⟩])) ∧
      ∃ batchId recomputed, Awaiting (sampleState 500 foundRun) batchId recomputed ∧
        amountsIn (sampleState 500 (foundRun ++ [proceed (noonOf 2) 2])).ledger batchId ≠
          some (amountsOf recomputed) :=
  have h := approvals_faithful_when_undisturbed (sampleState 500 foundRun)
    (sampleState_guarded (by decide +kernel) (by decide +kernel))
  ⟨h.1 (.resume 1 ⟨0, 0, .failed⟩) _ (step_after (by decide +kernel)),
    h.2 (proceed (noonOf 2) 2) _ (step_after (by decide +kernel)) (by decide +kernel)⟩

end SampleRuns

end Kurtar.ApprovedAmounts

import Kurtar.ServiceSteps
import Kurtar.SettlementEffects

/-!
# Manual holds and recomputes

The audit log tells which batches an admin holds: a hold is in force until
the batch is retried. Every recompute rewrites the status and the reason of
its batch from the arithmetic alone, so a hold stands exactly as long as no
recompute of its batch commits.
-/

namespace Kurtar.ManualHolds

open KeyedTable GuardedRuns StatusTransitions IstanbulCalendar SettlementMath SettlementLedger
open SettlementRecompute SettlementTransactions SettlementPass SettlementEffects SettlementService
open ServiceSteps

section Holds

/-- The reason of the hold that is in force for a batch: the newest hold, unless a retry
of the batch came after it. -/
def activeHold (batchId : BatchId) : List AuditEntry → Option String
  | [] => none
  | .held _ id holdReason :: log => if id = batchId then some holdReason else activeHold batchId log
  | .retried _ id _ :: log => if id = batchId then none else activeHold batchId log
  | _ :: log => activeHold batchId log

/-- The batch is stored as held for the given reason, and no payout was attempted. -/
def HeldFor (l : Ledger) (batchId : BatchId) (holdReason : String) : Prop :=
  ∃ b ∈ l.batches.rows, b.id = batchId ∧ b.status = .held ∧ b.holdReason = some holdReason ∧
    b.payoutAttemptedAt = none

/-- A held batch can neither be approved nor paid. -/
structure HoldStands (l : Ledger) (batchId : BatchId) (holdReason : String) : Prop where
  held : HeldFor l batchId holdReason
  notApproved : approveBatch l batchId = none
  notAttempted : ∀ clock, stampPayoutAttempt l batchId clock = none
  notSent : ∀ pspTransferRef clock, markBatchSent l batchId pspTransferRef clock = none

/-- Every manual hold in force stands. -/
def HoldsStand (w : World) : Prop :=
  ∀ batchId holdReason, activeHold batchId w.auditLog = some holdReason →
    HoldStands w.ledger batchId holdReason

/-- No recompute of a manually held batch commits. -/
def LeavesHolds (w : World) (a : Action) : Prop :=
  match transactionOf w a with
  | some (.recompute batchId now pendingLines clock) =>
    (activeHold batchId w.auditLog).isSome →
      (commit w.ledger (.recompute batchId now pendingLines clock)).isNone
  | _ => True

instance (w : World) : DecidablePred (LeavesHolds w) := fun a => by
  unfold LeavesHolds
  exact match transactionOf w a with
    | some (.recompute _ _ _ _) => inferInstance
    | none | some (.createOrExtend ..) | some (.approve _) | some (.hold ..)
    | some (.stampPayout ..) | some (.markSent ..) | some (.markSettled ..)
    | some (.business ..) => instDecidableTrue

variable {l l' : Ledger} {batchId : BatchId} {holdReason : String}

theorem updateBatch_eq_none {guard : Batch → Prop} [DecidablePred guard] {f : Batch → Batch}
    {hf : ∀ b, (f b).id = b.id} (h : ∀ b ∈ l.batches.rows, b.id = batchId → ¬ guard b) :
    updateBatch l batchId guard f hf = none := by
  refine if_neg ?_
  rintro ⟨b, hb, hid, hguard⟩
  exact h b hb hid hguard

theorem holdStands_of_heldFor (h : HeldFor l batchId holdReason) :
    HoldStands l batchId holdReason := by
  have hrow := h
  obtain ⟨b, hb, hid, hstatus, _⟩ := hrow
  have hheld : ∀ c ∈ l.batches.rows, c.id = batchId → c.status = .held := by
    intro c hc hcid
    rw [l.batches.eq_of_key_eq hc hb (hcid.trans hid.symm)]
    exact hstatus
  refine ⟨h, ?_, ?_, ?_⟩
  · refine updateBatch_eq_none fun c hc hcid hguard => ?_
    rw [hheld c hc hcid] at hguard
    exact absurd hguard (by decide)
  · refine fun clock => updateBatch_eq_none fun c hc hcid hguard => ?_
    rw [hheld c hc hcid] at hguard
    cases hguard.1
  · refine fun ref clock => updateBatch_eq_none fun c hc hcid hguard => ?_
    rw [hheld c hc hcid] at hguard
    exact absurd hguard (by decide)

end Holds

section Transactions

variable {l l' : Ledger} {batchId : BatchId} {holdReason : String}

/-- The batch of a committed pass is the one it was called for. -/
theorem batch_id_of_pass {now clock : Instant} {pendingLines : List PendingSettlementLine}
    {batch row : Batch} {pass : RecomputePass}
    (h : CommittedPass l batchId now pendingLines clock batch pass l' row) : batch.id = batchId :=
  (Table.find?_eq_some.mp h.found).2

/-- A transaction that recomputes no held batch keeps it held for its reason. -/
theorem heldFor_commit {t : Transaction} (h : commit l t = some l')
    (hheld : HeldFor l batchId holdReason)
    (hother : ∀ now pendingLines clock, t ≠ .recompute batchId now pendingLines clock) :
    HeldFor l' batchId holdReason := by
  obtain ⟨b, hb, hid, hstatus, hreason⟩ := hheld
  cases commit_effect h with
  | unchanged => exact ⟨b, hb, hid, hstatus, hreason⟩
  | created => exact ⟨b, Table.mem_insertNew.mpr (Or.inl hb), hid, hstatus, hreason⟩
  | @passed batchId' now clock pendingLines batch row pass _ hp =>
    have hne : b.id ≠ batch.id := by
      intro he
      have hsame : batchId' = batchId := by rw [← batch_id_of_pass hp, ← he, hid]
      exact hother now pendingLines clock (by rw [hsame])
    exact ⟨b, hp.replaces.mem_of_ne hb hne, hid, hstatus, hreason⟩
  | @flipped _ old new _ hflip hrep _ =>
    have hne : b.id ≠ old.id := by
      intro he
      have hsame := l.batches.eq_of_key_eq hb hrep.mem_old he
      rw [hsame] at hstatus
      cases hflip <;> simp_all
    exact ⟨b, hrep.mem_of_ne hb hne, hid, hstatus, hreason⟩
  | business hframe =>
    rw [← hframe.1] at hb
    exact ⟨b, hb, hid, hstatus, hreason⟩

/-- A hold stores its reason. -/
theorem heldFor_hold (h : holdBatch l batchId holdReason = some l') :
    HeldFor l' batchId holdReason := by
  obtain ⟨b, hid, hguard, hrep, _⟩ := updateBatch_eq_some h
  exact ⟨_, hrep.mem_new, hid, rfl, rfl, hguard.2⟩

end Transactions

section AuditLog

variable {w w' : World} {input : StepInput}

/-- No resumed task enters or lifts a hold. -/
theorem resumed_activeHold {task : Task} (h : Resumed w input w' task) (id : BatchId) :
    activeHold id w'.auditLog = activeHold id w.auditLog := by
  cases h with
  | ends _ hlog => rw [hlog]
  | goesOn _ _ _ hlog => rw [hlog]
  | cycleEnds _ hlog =>
    rw [hlog]
    rfl
  | recomputed _ hw' =>
    rw [hw']
    rfl
  | approved _ hw' =>
    rw [hw']
    rfl

/-- A step enters a hold together with its audit row, or enters none. -/
theorem step_activeHold {a : Action} (h : step w a = some w') :
    (∃ batchId note adminId, a = .adminHold batchId note adminId ∧
      holdBatch w.ledger batchId (holdReasonOf note) = some w'.ledger ∧
      w'.auditLog = .held adminId batchId (holdReasonOf note) :: w.auditLog) ∨
    ∀ id holdReason, activeHold id w'.auditLog = some holdReason →
      activeHold id w.auditLog = some holdReason := by
  cases stepped_of_step h with
  | held hledger _ hlog => exact Or.inl ⟨_, _, _, rfl, hledger, hlog⟩
  | same _ hlog =>
    rw [hlog]
    exact Or.inr fun _ _ hactive => hactive
  | started _ _ _ hlog =>
    rw [hlog]
    exact Or.inr fun _ _ hactive => hactive
  | retried _ _ _ _ hlog =>
    refine Or.inr fun id holdReason hactive => ?_
    rw [hlog] at hactive
    simp only [activeHold] at hactive
    split_ifs at hactive
    exact hactive
  | settled _ _ hlog =>
    rw [hlog]
    exact Or.inr fun _ _ hactive => hactive
  | resumed _ hresumed =>
    refine Or.inr fun id holdReason hactive => ?_
    have hsame := resumed_activeHold hresumed id
    rw [hsame] at hactive
    exact hactive

end AuditLog

section Runs

variable {w w' : World} {a : Action}

theorem holdsStand_step (hs : HoldsStand w) (hleaves : LeavesHolds w a)
    (h : step w a = some w') : HoldsStand w' := by
  intro id holdReason hactive
  apply holdStands_of_heldFor
  rcases step_activeHold h with ⟨batchId, note, adminId, rfl, hhold, hlog⟩ | hold
  · rw [hlog] at hactive
    simp only [activeHold] at hactive
    by_cases hid : batchId = id
    · rw [if_pos hid] at hactive
      cases hactive
      rw [← hid]
      exact heldFor_hold hhold
    · rw [if_neg hid] at hactive
      have hcommit : commit w.ledger (.hold batchId (holdReasonOf note)) = some w'.ledger := hhold
      exact heldFor_commit hcommit (hs id holdReason hactive).held fun _ _ _ he => by cases he
  · have hheld := (hs id holdReason (hold id holdReason hactive)).held
    rcases step_commits h with hsame | ⟨t, ht, hcommit⟩
    · rw [hsame]
      exact hheld
    · refine heldFor_commit hcommit hheld fun now pendingLines clock he => ?_
      rw [he] at ht hcommit
      unfold LeavesHolds at hleaves
      simp only [ht] at hleaves
      have hnone := hleaves (by rw [hold id holdReason hactive]; rfl)
      rw [hcommit] at hnone
      cases hnone

/-- The reason an automatic hold stores. -/
def automaticReason (carriedShortfallCents : ℤ) : String :=
  s!"Otomatik: net bakiye negatif, {carriedShortfallCents} kuruş sonraki döneme taşındı"

/-- A recompute has taken the hold's place: the batch can be approved again, or it is held
for an automatic reason. -/
def Overwritten (l : Ledger) (batchId : BatchId) : Prop :=
  ∃ b ∈ l.batches.rows, b.id = batchId ∧
    (b.status = .calculated ∧ b.holdReason = none ∨
      b.status = .held ∧ ∃ cents, b.holdReason = some (automaticReason cents))

/-- A recompute of a held batch that commits overwrites the hold. -/
theorem overwritten_of_recompute {batchId : BatchId} {holdReason : String} {now clock : Instant}
    {pendingLines : List PendingSettlementLine} (hheld : HeldFor w.ledger batchId holdReason)
    (ht : transactionOf w a = some (.recompute batchId now pendingLines clock))
    (hsome : (commit w.ledger (.recompute batchId now pendingLines clock)).isSome)
    (h : step w a = some w') : Overwritten w'.ledger batchId := by
  simp only [commit] at hsome
  cases hr : recomputeBatch w.ledger batchId now pendingLines clock with
  | error e => simp [hr] at hsome
  | ok result =>
    rw [ledger_of_recompute ht hr h]
    obtain ⟨b, hb, hid, hstatus, _, hun⟩ := hheld
    obtain ⟨batch, hfind, hcases⟩ := recomputeBatch_eq_ok hr
    obtain ⟨hbatch, hbid⟩ := Table.find?_eq_some.mp hfind
    have he := w.ledger.batches.eq_of_key_eq hbatch hb (hbid.trans hid.symm)
    rcases hcases with ⟨hfrozen, _⟩ | ⟨pass, hp⟩
    · rw [he] at hfrozen
      have hopen : b.Recomputable := Batch.recomputable_iff.mpr (Or.inr hstatus)
      rcases hfrozen with hfrozen | hattempted
      · exact absurd hopen hfrozen
      · exact absurd hun hattempted
    · refine ⟨result.2, hp.replaces.mem_new, hp.replaces.key_new.trans hbid, ?_⟩
      obtain ⟨vat, hrow⟩ := hp.row_eq
      rw [hrow]
      cases hh : pass.result.held with
      | true => exact Or.inr ⟨by simp [passRow, hh], _, by simp [passRow, hh]; rfl⟩
      | false => exact Or.inl ⟨by simp [passRow, hh], by simp [passRow, hh]⟩

/-- Manual holds stand in every run in which no recompute of a held batch commits; the first
one that does overwrites the hold. -/
theorem holds_stand_unless_recomputed (w : World) (h : ServiceReachable LeavesHolds w) :
    HoldsStand w ∧ ∀ a w', step w a = some w' → ¬ LeavesHolds w a →
      ∃ batchId holdReason, activeHold batchId w.auditLog = some holdReason ∧
        Overwritten w'.ledger batchId := by
  have hs : HoldsStand w := by
    refine h.invariant ?_ fun _ _ _ hs hleaves hstep => holdsStand_step hs hleaves hstep
    intro w hi batchId holdReason hactive
    rw [hi.auditLog] at hactive
    cases hactive
  refine ⟨hs, ?_⟩
  intro a w' hstep hnot
  unfold LeavesHolds at hnot
  cases ht : transactionOf w a with
  | none => simp [ht] at hnot
  | some t =>
    cases t with
    | recompute batchId now pendingLines clock =>
      simp only [ht, Classical.not_imp] at hnot
      obtain ⟨hactive, hcommit⟩ := hnot
      obtain ⟨holdReason, hactive⟩ := Option.isSome_iff_exists.mp hactive
      refine ⟨batchId, holdReason, hactive, ?_⟩
      exact overwritten_of_recompute (hs batchId holdReason hactive).held ht
        (by simpa [Option.isSome_iff_ne_none] using hcommit) hstep
    | _ => simp [ht] at hnot

end Runs

section SampleRuns

/-- The admin holds the batch of the first day. -/
def heldRun : List Action :=
  sell 1 0 5000 ++ runNight (noonOf 1) 1 ++ [.adminHold 1 (some "fraud check") 7]

/-- A late line, a nightly cycle and an approval follow. -/
def lateLineRun : List Action :=
  heldRun ++ sell 2 0 4000 ++ runNight (noonOf 2) 2 ++ approve 1 (noonOf 2)

/-- A line of the held batch is found by the next nightly cycle. -/
def foundRun : List Action :=
  heldRun ++ sell 2 0 4000 ++ [.runNightlyCycle (noonOf 2) none, proceed (noonOf 2) 2]

/-- A late line lifts the hold without an admin, and the batch is approved. -/
theorem holds_stand_counterexample :
    ServiceReachable anyStep (sampleState 500 lateLineRun) ∧
      activeHold 1 (sampleState 500 lateLineRun).auditLog = some "fraud check" ∧
      ((sampleState 500 lateLineRun).batch 1).status = .approved ∧
      ¬ HoldsStand (sampleState 500 lateLineRun) := by
  have hactive : activeHold 1 (sampleState 500 lateLineRun).auditLog = some "fraud check" := by
    decide +kernel
  refine ⟨sampleState_reachable (by decide +kernel), hactive, by decide +kernel, ?_⟩
  intro h
  obtain ⟨b, hb, hid, hstatus, _⟩ := (h 1 _ hactive).held
  have hnone : ∀ b ∈ (sampleState 500 lateLineRun).ledger.batches.rows, b.status ≠ .held := by
    decide +kernel
  exact hnone b hb hstatus

theorem holds_stand_unless_recomputed_found :
    HoldsStand (sampleState 500 foundRun) ∧
      ∃ batchId holdReason,
        activeHold batchId (sampleState 500 foundRun).auditLog = some holdReason ∧
          Overwritten (sampleState 500 (foundRun ++ [proceed (noonOf 2) 2])).ledger batchId :=
  have h := holds_stand_unless_recomputed (sampleState 500 foundRun)
    (sampleState_guarded (by decide +kernel) (by decide +kernel))
  ⟨h.1, h.2 (proceed (noonOf 2) 2) _ (step_after (by decide +kernel)) (by decide +kernel)⟩

end SampleRuns

end Kurtar.ManualHolds

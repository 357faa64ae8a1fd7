import Kurtar.SettlementService

/-!
# What a step of the settlement services leaves behind

One inversion for the tasks under way and the audit log. A resumed task ends,
goes on with its next statement, or ends a cycle with its row. Only the
recompute of an approval goes on with a flip, and only a flip that matched its
batch records an approval. Holds and retries write their rows at once.
-/

namespace Kurtar.ServiceSteps

open IstanbulCalendar StatusTransitions SettlementLedger SettlementRecompute SettlementTransactions
open SettlementService

/-- Is the task the flip of an approval? -/
def isFlip : Task → Bool
  | .approveFlip _ _ _ _ => true
  | _ => false

variable {w w' : World} {input : StepInput}

/-- What a resumed task leaves. -/
inductive Resumed (w : World) (input : StepInput) (w' : World) : Task → Prop
  | ends {task : Task} (htasks : w'.tasks = w.tasks) (hlog : w'.auditLog = w.auditLog) :
    Resumed w input w' task
  | goesOn {task : Task} (next : Task) (hnext : isFlip next = false)
      (htasks : w'.tasks = next :: w.tasks) (hlog : w'.auditLog = w.auditLog) :
    Resumed w input w' task
  | cycleEnds {cycle : NightlyCycle} {adminId : AdminId} (htasks : w'.tasks = w.tasks)
      (hlog : w'.auditLog = .nightlyRun adminId (istanbulDateKey cycle.now)
        cycle.touched cycle.failures :: w.auditLog) :
    Resumed w input w' (.nightlySweep cycle [])
  | recomputed {batchId : BatchId} {adminId : AdminId} {fromStatus : SettlementStatus}
      {now : Instant} {result : Ledger × Batch}
      (hresult : recomputeBatch w.ledger batchId now [] input.clock = .ok result)
      (hw' : w' = (w.withLedger result.1).spawn
        (.approveFlip batchId adminId fromStatus result.2)) :
    Resumed w input w' (.approveRecompute batchId adminId fromStatus now)
  | approved {batchId : BatchId} {adminId : AdminId} {fromStatus : SettlementStatus}
      {recomputed : Batch} {ledger : Ledger} (hledger : approveBatch w.ledger batchId = some ledger)
      (hw' : w' = (w.withLedger ledger).log
        (.approved adminId batchId fromStatus recomputed.netPayoutCents recomputed.merchantId)) :
    Resumed w input w' (.approveFlip batchId adminId fromStatus recomputed)

theorem resumed_of_resumeTask {task : Task} (h : resumeTask w task input = some w') :
    Resumed w input w' task := by
  cases task with
  | nightlyGroups cycle =>
    simp only [resumeTask, nightlyGroups] at h
    repeat' split at h
    all_goals cases h <;> exact .goesOn _ rfl rfl rfl
  | nightlyRecompute cycle merchantId batchId pendingLines =>
    simp only [resumeTask, nightlyRecompute] at h
    split at h <;> cases h <;> exact .goesOn _ rfl rfl rfl
  | nightlySweep cycle merchantIds =>
    simp only [resumeTask, nightlySweep] at h
    repeat' split at h
    all_goals cases h
    · exact .cycleEnds rfl rfl
    · exact .ends rfl rfl
    · exact .goesOn _ rfl rfl rfl
    · exact .goesOn _ rfl rfl rfl
  | nightlySweepCreate cycle merchantId merchantIds =>
    simp only [resumeTask, nightlySweepCreate] at h
    split at h <;> cases h
    exact .goesOn _ rfl rfl rfl
  | nightlySweepRecompute cycle merchantId batchId merchantIds =>
    simp only [resumeTask, nightlySweepRecompute] at h
    split at h <;> cases h <;> exact .goesOn _ rfl rfl rfl
  | approveRecompute batchId adminId fromStatus now =>
    simp only [resumeTask, approveRecompute] at h
    split at h
    · rename_i result hresult
      split at h <;> cases h
      · exact .recomputed hresult rfl
      · exact .ends rfl rfl
    · cases h
      exact .ends rfl rfl
  | approveFlip batchId adminId fromStatus recomputed =>
    simp only [resumeTask, approveFlip] at h
    split at h
    · rename_i ledger hledger
      cases h
      exact .approved hledger rfl
    · cases h
      exact .ends rfl rfl
  | retryRecompute batchId now =>
    simp only [resumeTask, retryRecompute] at h
    split at h <;> cases h <;> exact .ends rfl rfl
  | executeOne batchId =>
    simp only [resumeTask, executeOne] at h
    repeat' split at h
    all_goals cases h
    all_goals first
      | exact .ends rfl rfl
      | exact .goesOn _ rfl rfl rfl
  | payoutStamp batch merchantRef =>
    simp only [resumeTask, payoutStamp] at h
    split at h <;> cases h
    · exact .goesOn _ rfl rfl rfl
    · exact .ends rfl rfl
  | payoutCall batch merchantRef =>
    simp only [resumeTask, payoutCall] at h
    split at h <;> cases h
    · exact .goesOn _ rfl rfl rfl
    · exact .ends rfl rfl
    · exact .ends rfl rfl
  | markSent batchId pspTransferRef =>
    simp only [resumeTask, markSent] at h
    repeat' split at h
    all_goals cases h <;> exact .ends rfl rfl

/-- What a step leaves. -/
inductive Stepped (w w' : World) : Action → Prop
  | same {a : Action} (htasks : w'.tasks = w.tasks) (hlog : w'.auditLog = w.auditLog) :
    Stepped w w' a
  | started {a : Action} (next : Task) (hnext : isFlip next = false)
      (htasks : w'.tasks = next :: w.tasks) (hlog : w'.auditLog = w.auditLog) : Stepped w w' a
  | held {batchId : BatchId} {note : Option String} {adminId : AdminId}
      (hledger : holdBatch w.ledger batchId (holdReasonOf note) = some w'.ledger)
      (htasks : w'.tasks = w.tasks)
      (hlog : w'.auditLog = .held adminId batchId (holdReasonOf note) :: w.auditLog) :
    Stepped w w' (.adminHold batchId note adminId)
  | retried {batchId : BatchId} {adminId : AdminId} {now : Instant} (fromStatus : SettlementStatus)
      (next : Task) (hnext : isFlip next = false)
      (htasks : w'.tasks = next :: w.tasks)
      (hlog : w'.auditLog = .retried adminId batchId fromStatus :: w.auditLog) :
    Stepped w w' (.adminRetry batchId adminId now)
  | settled {batchId : BatchId} {reference : Option String} {adminId : AdminId} {now : Instant}
      (cents : ℤ) (htasks : w'.tasks = w.tasks)
      (hlog : w'.auditLog =
        .settled adminId batchId cents (nonEmptyNote reference) :: w.auditLog) :
    Stepped w w' (.adminMarkSettled batchId reference adminId now)
  | resumed {index : ℕ} {input : StepInput} {task : Task} (htask : w.tasks[index]? = some task)
      (hresumed : Resumed { w with tasks := w.tasks.eraseIdx index } input w' task) :
    Stepped w w' (.resume index input)

theorem stepped_of_step {a : Action} (h : step w a = some w') : Stepped w w' a := by
  cases a with
  | runNightlyCycle now startedBy =>
    cases h
    exact .started _ rfl rfl rfl
  | adminApprove batchId adminId now =>
    simp only [step, adminApprove] at h
    repeat' split at h
    all_goals cases h
    exact .started _ rfl rfl rfl
  | adminHold batchId note adminId =>
    simp only [step, adminHold] at h
    split at h
    · rename_i ledger hledger
      cases h
      exact .held hledger rfl rfl
    · repeat' split at h
      all_goals cases h
  | adminRetry batchId adminId now =>
    simp only [step, adminRetry] at h
    repeat' split at h
    all_goals cases h
    · exact .retried _ _ rfl rfl rfl
    · exact .retried _ _ rfl rfl rfl
  | adminMarkSettled batchId reference adminId now =>
    simp only [step, adminMarkSettled] at h
    split at h <;> cases h
    exact .settled _ rfl rfl
  | startPayout batchId =>
    cases h
    exact .started _ rfl rfl rfl
  | resume index input =>
    simp only [step] at h
    split at h
    · rename_i task htask
      exact .resumed htask (resumed_of_resumeTask h)
    · cases h
  | business event clock =>
    simp only [step] at h
    split at h <;> cases h
    exact .same rfl rfl

end Kurtar.ServiceSteps

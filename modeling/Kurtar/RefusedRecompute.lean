import Kurtar.AtomicTransactions
import Kurtar.SettlementService

/-!
# A refused recompute changes nothing

A recompute is refused when its batch is frozen, and when the new numbers
would not honour demand that a frozen successor has collected. The second
refusal comes after the pass has written lines, allocations, claims, the
membership offset and the batch. Here the pass is executed statement by
statement, so that those writes are in the working copy when it throws; the
transaction discards them. The nightly cycle records the refusal and goes on
with the remaining groups and the clawback sweep.
-/

namespace Kurtar.RefusedRecompute

open AtomicTransactions KeyedTable GuardedRuns IstanbulCalendar SettlementMath SettlementLedger
open SettlementRecompute SettlementTransactions SettlementService

section Statements

/-- The batch row, locked; it has to exist. -/
def lockBatch (l : Ledger) (batchId : BatchId) : Except SettlementError Batch :=
  match l.batches.find? batchId with
  | none => .error (.recomputeBatchNotFound batchId)
  | some batch => .ok batch

/-- The statements of a pass over an open batch, in the order of their writes. -/
def passStatements (batch : Batch) (now : Instant) (pendingLines : List PendingSettlementLine)
    (clock : Instant) : Body Ledger SettlementError Batch :=
  (Body.write fun l => insertPendingLines l batch.id pendingLines).andThen fun _ =>
  (Body.read fun l => planPass l batch).andThen fun pass =>
  (Body.write fun l => resetOwnClawbackLedger l batch.id).andThen fun _ =>
  (Body.write fun l => rewriteClaim l batch.id pass).andThen fun _ =>
  (Body.writeReturning fun l => writeOffset l pass clock).andThen fun membershipOffsetVatCents =>
  let updated := passRow batch pass membershipOffsetVatCents now
  let lockedIds := pass.lockedLines.map (·.reservationId)
  (Body.write fun l => writeBatch l updated).andThen fun _ =>
  (Body.write fun l => writeLineFees l pass.result.perLine).andThen fun _ =>
  (Body.write fun l => writeAllocations l batch.id pass.allocation.perCandidate).andThen fun _ =>
  (Body.write fun l => projectLinesFromLedger l lockedIds now).andThen fun _ =>
  (Body.read fun l => assertLedgerIdentity l updated lockedIds).andThen fun _ =>
  (Body.read fun l => assertIrrevocableClaimsHonoured l updated).andThen fun _ =>
  Body.done updated

/-- The statements of a recompute: a frozen batch is returned before any write. -/
def recomputeStatements (batchId : BatchId) (now : Instant)
    (pendingLines : List PendingSettlementLine) (clock : Instant) :
    Body Ledger SettlementError Batch :=
  (Body.read fun l => lockBatch l batchId).andThen fun batch =>
    if ¬ batch.Recomputable ∨ batch.payoutAttemptedAt ≠ none then Body.done batch
    else passStatements batch now pendingLines clock

/-- A recompute as it runs: its statements in one transaction. -/
def recomputeTransaction (batchId : BatchId) (now : Instant)
    (pendingLines : List PendingSettlementLine) (clock : Instant) :
    Body Ledger SettlementError Batch :=
  (recomputeStatements batchId now pendingLines clock).atomically

variable {l : Ledger} {batchId : BatchId} {now clock : Instant}
  {pendingLines : List PendingSettlementLine}

/-- After the plan, the writes are those of `writePass`, then the two checks. -/
theorem passStatements_planned {batch : Batch} {pass : RecomputePass} (now clock : Instant)
    (hplan : planPass (insertPendingLines l batch.id pendingLines) batch = .ok pass) :
    passStatements batch now pendingLines clock l =
      let written := writePass (insertPendingLines l batch.id pendingLines) batch pass now clock
      let lockedIds := pass.lockedLines.map (·.reservationId)
      ((Body.read fun l => assertLedgerIdentity l written.2 lockedIds).andThen fun _ =>
        (Body.read fun l => assertIrrevocableClaimsHonoured l written.2).andThen fun _ =>
          Body.done written.2) written.1 := by
  rw [passStatements, Body.andThen_write, Body.andThen_read_ok (fun l => planPass l batch) _ hplan]
  rfl

/-- Executed as a transaction, the statements compute the recompute of the
model; when they throw, the stored ledger stays. -/
theorem recomputeTransaction_eq :
    recomputeTransaction batchId now pendingLines clock l =
      match recomputeBatch l batchId now pendingLines clock with
      | .ok result => (.ok result.2, result.1)
      | .error e => (.error e, l) := by
  unfold recomputeTransaction recomputeStatements recomputeBatch
  cases hfind : l.batches.find? batchId with
  | none =>
    have hlock : lockBatch l batchId = .error (.recomputeBatchNotFound batchId) := by
      rw [lockBatch, hfind]
    exact Body.atomically_error (Body.andThen_read_error (fun l => lockBatch l batchId) _ hlock)
  | some batch =>
    have hlock : lockBatch l batchId = .ok batch := by rw [lockBatch, hfind]
    have hid : batch.id = batchId := (Table.find?_eq_some.mp hfind).2
    by_cases hfrozen : ¬ batch.Recomputable ∨ batch.payoutAttemptedAt ≠ none
    · simp only [hfrozen, if_true]
      apply Body.atomically_ok
      rw [Body.andThen_read_ok (fun l => lockBatch l batchId) _ hlock, if_pos hfrozen]
      rfl
    · simp only [hfrozen, if_false]
      have hbody : ((Body.read fun l => lockBatch l batchId).andThen fun batch =>
          if ¬ batch.Recomputable ∨ batch.payoutAttemptedAt ≠ none then Body.done batch
          else passStatements batch now pendingLines clock) l =
          passStatements batch now pendingLines clock l := by
        rw [Body.andThen_read_ok (fun l => lockBatch l batchId) _ hlock, if_neg hfrozen]
      unfold recomputeOpenBatch
      cases hplan : planPass (insertPendingLines l batchId pendingLines) batch with
      | error e =>
        have hstop : passStatements batch now pendingLines clock l =
            (.error e, insertPendingLines l batch.id pendingLines) := by
          rw [passStatements, Body.andThen_write]
          exact Body.andThen_read_error (fun l => planPass l batch) _ (by rw [hid]; exact hplan)
        exact Body.atomically_error (hbody.trans hstop)
      | ok pass =>
        have hwrites := passStatements_planned now clock (by rw [hid]; exact hplan)
        rw [hid] at hwrites
        simp only [bind, Except.bind]
        generalize writePass (insertPendingLines l batchId pendingLines) batch pass now clock =
          written at hwrites ⊢
        let checkIdentity := fun l => assertLedgerIdentity l written.2
          (pass.lockedLines.map (·.reservationId))
        let checkClaims := fun l => assertIrrevocableClaimsHonoured l written.2
        cases hidentity : assertLedgerIdentity written.1 written.2
            (pass.lockedLines.map (·.reservationId)) with
        | error e =>
          have hstop := hwrites.trans (Body.andThen_read_error checkIdentity _ hidentity)
          exact Body.atomically_error (hbody.trans hstop)
        | ok u =>
          have hchecked := hwrites.trans (Body.andThen_read_ok checkIdentity _ hidentity)
          cases hclaims : assertIrrevocableClaimsHonoured written.1 written.2 with
          | error e =>
            have hstop := hchecked.trans (Body.andThen_read_error checkClaims _ hclaims)
            exact Body.atomically_error (hbody.trans hstop)
          | ok v =>
            have hend := hchecked.trans (Body.andThen_read_ok checkClaims _ hclaims)
            exact Body.atomically_ok (hbody.trans hend)

end Statements

section Refusals

/-- The batch is outside the open statuses, or its payout was attempted. -/
def Frozen (l : Ledger) (batchId : BatchId) : Prop :=
  ∃ batch, l.batches.find? batchId = some batch ∧
    (¬ batch.Recomputable ∨ batch.payoutAttemptedAt ≠ none)

/-- The new numbers export less than frozen successors have collected. -/
def CollectedBeyond (l : Ledger) (batchId : BatchId) (now : Instant)
    (pendingLines : List PendingSettlementLine) (clock : Instant) : Prop :=
  ∃ exportable collected claimants, recomputeBatch l batchId now pendingLines clock =
    .error (.carriedDemandAlreadyCollected batchId exportable collected claimants)

/-- A recompute that the code refuses. -/
def Refused (l : Ledger) (batchId : BatchId) (now : Instant)
    (pendingLines : List PendingSettlementLine) (clock : Instant) : Prop :=
  Frozen l batchId ∨ CollectedBeyond l batchId now pendingLines clock

variable {l l' : Ledger} {batchId : BatchId} {now clock : Instant}
  {pendingLines : List PendingSettlementLine}

/-- A refused recompute returns the frozen batch or throws. -/
theorem Refused.outcome (h : Refused l batchId now pendingLines clock) :
    (∃ batch, recomputeBatch l batchId now pendingLines clock = .ok (l, batch)) ∨
      ∃ e, recomputeBatch l batchId now pendingLines clock = .error e := by
  rcases h with ⟨batch, hfind, hfrozen⟩ | ⟨x, c, k, herror⟩
  · left
    refine ⟨batch, ?_⟩
    simp only [recomputeBatch, hfind, if_pos hfrozen]
  · exact Or.inr ⟨_, herror⟩

/-- Whatever the pass had written is discarded with the refusal. -/
theorem Refused.stored (h : Refused l batchId now pendingLines clock) :
    (recomputeTransaction batchId now pendingLines clock l).2 = l := by
  rw [recomputeTransaction_eq]
  rcases h.outcome with ⟨batch, hr⟩ | ⟨e, hr⟩ <;> rw [hr]

/-- A procedure whose recompute is refused leaves the ledger. -/
theorem Refused.resumed {w w' : World} {task : Task} {input : StepInput}
    (h : Refused w.ledger batchId now pendingLines input.clock)
    (htx : taskTransaction input task = some (.recompute batchId now pendingLines input.clock))
    (hstep : resumeTask w task input = some w') : w'.ledger = w.ledger := by
  have hcommits := resumeTask_commits hstep
  rw [htx] at hcommits
  rcases hcommits with hsame | ⟨t, ht, hcommit⟩
  · exact hsame
  · cases ht
    rcases h.outcome with ⟨batch, hr⟩ | ⟨e, hr⟩
    · simp only [commit, hr, Option.some.injEq] at hcommit
      exact hcommit.symm
    · simp [commit, hr] at hcommit

/-- As before, except perhaps for one new empty batch. -/
def SameButNewBatch (l l' : Ledger) : Prop :=
  l' = l ∨ ∃ merchantId periodStart id createdAt, l.batches.find? id = none ∧
    l' = { l with
      batches := l.batches.insertNew (newBatch merchantId periodStart id createdAt) }

theorem findOrCreateBatch_same {merchantId : MerchantId} {dayKey : DateKey} {freshId : BatchId}
    (h : findOrCreateBatch l merchantId dayKey freshId clock = some (l', batchId)) :
    SameButNewBatch l l' := by
  simp only [findOrCreateBatch] at h
  cases ho : findOpenBatch l merchantId (offerDateToDbDate dayKey) with
  | some batch =>
    simp only [ho, Option.some.injEq, Prod.mk.injEq] at h
    exact Or.inl h.1.symm
  | none =>
    simp only [ho] at h
    split at h
    · next hfree =>
      simp only [Option.some.injEq, Prod.mk.injEq] at h
      exact Or.inr ⟨_, _, _, _, hfree, h.1.symm⟩
    · cases h

/-- A new batch makes no reservation eligible and none ineligible. -/
theorem SameButNewBatch.scanEligible (h : SameButNewBatch l l') :
    scanEligible l' = scanEligible l := by
  rcases h with rfl | ⟨_, _, _, _, _, rfl⟩
  · rfl
  · rfl

end Refusals

section Cycle

/-- A step of a nightly cycle: the task resumed, and the state it meets. -/
structure CycleMoment where
  world : World
  input : StepInput
  task : Task

/-- The step is taken and leaves the cycle with its next task. -/
def CycleStep (m : CycleMoment) (next : Task) : Prop :=
  ∃ w', resumeTask m.world m.task m.input = some w' ∧ w'.tasks = next :: m.world.tasks

/-- A step that spawns one task goes on with it. -/
theorem CycleStep.of_spawn {m : CycleMoment} {l : Ledger} {next : Task}
    (h : resumeTask m.world m.task m.input = some ((m.world.withLedger l).spawn next)) :
    CycleStep m next := ⟨_, h, rfl⟩

/-- The steps of one cycle. Other requests may have changed everything but the
cycle's own task between two of them. -/
inductive CycleRun : Task → List CycleMoment → Task → Prop
  | stop (task : Task) : CycleRun task [] task
  | step {m : CycleMoment} {next last : Task} {steps : List CycleMoment}
      (hstep : CycleStep m next) (hrest : CycleRun next steps last) :
      CycleRun m.task (m :: steps) last

theorem CycleRun.append {a b c : Task} {steps steps' : List CycleMoment}
    (h : CycleRun a steps b) (h' : CycleRun b steps' c) : CycleRun a (steps ++ steps') c := by
  induction h with
  | stop => exact h'
  | step hstep _ ih => exact .step hstep (ih h')

/-- The states and inputs that the steps meet, one after the other. -/
abbrev Environment := ℕ → World × StepInput

/-- The environment from a later step on. -/
def Environment.from (env : Environment) (n : ℕ) : Environment := fun i => env (n+i)

/-- The steps meet the states of the environment, in order. -/
def Follows (env : Environment) (steps : List CycleMoment) : Prop :=
  ∀ i m, steps[i]? = some m → env i = (m.world, m.input)

theorem Follows.nil (env : Environment) : Follows env [] := by
  intro i m hm
  simp at hm

/-- The first step meets the first state, the others what comes later. -/
theorem Follows.cons {env : Environment} {task : Task} {steps : List CycleMoment}
    (h : Follows (env.from 1) steps) : Follows env (⟨(env 0).1, (env 0).2, task⟩ :: steps) := by
  intro i m hm
  cases i with
  | zero =>
    cases hm
    rfl
  | succ i =>
    have hnext := h i m (by simpa using hm)
    rw [← hnext, Environment.from, Nat.add_comm]

theorem Follows.append {env : Environment} {steps steps' : List CycleMoment}
    (h : Follows env steps) (h' : Follows (env.from steps.length) steps') :
    Follows env (steps ++ steps') := by
  intro i m hm
  by_cases hi : i < steps.length
  · rw [List.getElem?_append_left hi] at hm
    exact h i m hm
  · rw [List.getElem?_append_right (by omega)] at hm
    have hnext := h' _ m hm
    have hindex : steps.length+(i-steps.length) = i := by omega
    rw [Environment.from, hindex] at hnext
    exact hnext

/-- Every identity drawn for a new batch is unused when it is drawn. -/
def FreshIds (env : Environment) : Prop :=
  ∀ i, (env i).1.ledger.batches.find? (env i).2.freshBatchId = none

theorem FreshIds.from {env : Environment} (h : FreshIds env) (n : ℕ) : FreshIds (env.from n) :=
  fun i => h (n+i)

/-- The steps that process the groups: each gets its batch, and its batch is
recomputed with its lines. A group that cannot be priced fails by itself. -/
inductive Builds : List Group → List CycleMoment → Prop
  | none : Builds [] []
  | built {group : Group} {groups : List Group} {m m' : CycleMoment} {cycle cycle' : NightlyCycle}
      {ledger : Ledger} {batchId : BatchId} {pendingLines : List PendingSettlementLine}
      {steps : List CycleMoment} (htask : m.task = .nightlyGroups cycle)
      (hgroups : cycle.groups = group :: groups)
      (hbatch : findOrCreateBatch m.world.ledger group.merchantId group.dayKey
        m.input.freshBatchId m.input.clock = some (ledger, batchId))
      (hprice : computePendingLines ledger group = .ok pendingLines)
      (hrecompute : m'.task = .nightlyRecompute cycle' group.merchantId batchId pendingLines)
      (hrest : Builds groups steps) : Builds (group :: groups) (m :: m' :: steps)
  | unpriced {group : Group} {groups : List Group} {m : CycleMoment} {cycle : NightlyCycle}
      {ledger : Ledger} {batchId : BatchId} {e : SettlementError} {steps : List CycleMoment}
      (htask : m.task = .nightlyGroups cycle) (hgroups : cycle.groups = group :: groups)
      (hbatch : findOrCreateBatch m.world.ledger group.merchantId group.dayKey
        m.input.freshBatchId m.input.clock = some (ledger, batchId))
      (hprice : computePendingLines ledger group = .error e)
      (hrest : Builds groups steps) : Builds (group :: groups) (m :: steps)

/-- The steps that sweep the merchants: each one's open batch, or a new one,
is recomputed. -/
inductive Sweeps : List MerchantId → List CycleMoment → Prop
  | none : Sweeps [] []
  | standing {merchantId : MerchantId} {merchantIds : List MerchantId} {m m' : CycleMoment}
      {cycle cycle' : NightlyCycle} {batchId : BatchId} {steps : List CycleMoment}
      (htask : m.task = .nightlySweep cycle (merchantId :: merchantIds))
      (hrecompute : m'.task = .nightlySweepRecompute cycle' merchantId batchId merchantIds)
      (hrest : Sweeps merchantIds steps) : Sweeps (merchantId :: merchantIds) (m :: m' :: steps)
  | created {merchantId : MerchantId} {merchantIds : List MerchantId} {m m' m'' : CycleMoment}
      {cycle cycle' cycle'' : NightlyCycle} {batchId : BatchId} {steps : List CycleMoment}
      (htask : m.task = .nightlySweep cycle (merchantId :: merchantIds))
      (hcreate : m'.task = .nightlySweepCreate cycle' merchantId merchantIds)
      (hrecompute : m''.task = .nightlySweepRecompute cycle'' merchantId batchId merchantIds)
      (hrest : Sweeps merchantIds steps) :
      Sweeps (merchantId :: merchantIds) (m :: m' :: m'' :: steps)

section Steps

variable (w : World) (input : StepInput) (cycle : NightlyCycle) (merchantId : MerchantId)
  (merchantIds : List MerchantId) (batchId : BatchId) (pendingLines : List PendingSettlementLine)

/-- A fresh identity is enough to find or create a batch. -/
theorem findOrCreateBatch_succeeds {l : Ledger} (dayKey : DateKey) {freshId : BatchId}
    (clock : Instant) (hfree : l.batches.find? freshId = none) :
    ∃ ledger batchId,
      findOrCreateBatch l merchantId dayKey freshId clock = some (ledger, batchId) := by
  simp only [findOrCreateBatch]
  cases findOpenBatch l merchantId (offerDateToDbDate dayKey) with
  | some batch => exact ⟨_, _, rfl⟩
  | none => exact ⟨_, _, if_pos hfree⟩

/-- Refused or not, a recompute leaves the cycle with the groups it had left. -/
theorem recompute_step :
    ∃ cycle', cycle'.groups = cycle.groups ∧
      CycleStep ⟨w, input, .nightlyRecompute cycle merchantId batchId pendingLines⟩
        (.nightlyGroups cycle') := by
  cases hr : recomputeBatch w.ledger batchId cycle.now pendingLines input.clock with
  | ok result =>
    refine ⟨cycle.touch batchId, rfl, .of_spawn (l := result.1) ?_⟩
    simp only [resumeTask, nightlyRecompute, hr]
  | error e =>
    refine ⟨cycle.fail merchantId .batch e, rfl, .of_spawn (l := w.ledger) ?_⟩
    simp only [resumeTask, nightlyRecompute, hr]
    rfl

/-- Refused or not, a sweep's recompute leaves the merchants that were left. -/
theorem sweepRecompute_step :
    ∃ cycle', CycleStep ⟨w, input, .nightlySweepRecompute cycle merchantId batchId merchantIds⟩
      (.nightlySweep cycle' merchantIds) := by
  cases hr : recomputeBatch w.ledger batchId cycle.now [] input.clock with
  | ok result =>
    refine ⟨cycle.touch batchId, .of_spawn (l := result.1) ?_⟩
    simp only [resumeTask, nightlySweepRecompute, hr]
  | error e =>
    refine ⟨cycle.fail merchantId .clawbackSweep e, .of_spawn (l := w.ledger) ?_⟩
    simp only [resumeTask, nightlySweepRecompute, hr]
    rfl

end Steps

/-- In whatever states the steps meet, the cycle gets through its groups. -/
theorem builds_all {groups : List Group} {cycle : NightlyCycle} {env : Environment}
    (hgroups : cycle.groups = groups) (hfresh : FreshIds env) :
    ∃ steps cycle', CycleRun (.nightlyGroups cycle) steps (.nightlyGroups cycle') ∧
      Follows env steps ∧ Builds groups steps ∧ cycle'.groups = [] := by
  induction groups generalizing cycle env with
  | nil => exact ⟨[], cycle, .stop _, .nil env, .none, hgroups⟩
  | cons group groups ih =>
    let m : CycleMoment := ⟨(env 0).1, (env 0).2, .nightlyGroups cycle⟩
    obtain ⟨ledger, batchId, hbatch⟩ := findOrCreateBatch_succeeds group.merchantId group.dayKey
      (env 0).2.clock (hfresh 0)
    let fresh : NightlyCycle :=
      { cycle with
        groups
        merchantsWithFreshLines := group.merchantId :: cycle.merchantsWithFreshLines }
    cases hprice : computePendingLines ledger group with
    | error e =>
      have hstep : CycleStep m (.nightlyGroups (fresh.fail group.merchantId .batch e)) := by
        apply CycleStep.of_spawn (l := ledger)
        simp only [m, resumeTask, nightlyGroups, hgroups, hbatch, hprice]
        rfl
      obtain ⟨steps, cycle', hrun, hfollows, hbuilds, hdone⟩ :=
        ih (rfl : (fresh.fail group.merchantId .batch e).groups = groups) (hfresh.from 1)
      exact ⟨m :: steps, cycle', .step hstep hrun, hfollows.cons,
        .unpriced rfl hgroups hbatch hprice hbuilds, hdone⟩
    | ok pendingLines =>
      have hstep : CycleStep m
          (.nightlyRecompute fresh group.merchantId batchId pendingLines) := by
        apply CycleStep.of_spawn (l := ledger)
        simp only [m, resumeTask, nightlyGroups, hgroups, hbatch, hprice]
        rfl
      obtain ⟨next, hnext, hrecompute⟩ := recompute_step (env.from 1 0).1 (env.from 1 0).2 fresh
        group.merchantId batchId pendingLines
      obtain ⟨steps, cycle', hrun, hfollows, hbuilds, hdone⟩ := ih hnext ((hfresh.from 1).from 1)
      exact ⟨m :: _ :: steps, cycle', .step hstep (.step hrecompute hrun), hfollows.cons.cons,
        .built rfl hgroups hbatch hprice rfl hbuilds, hdone⟩

/-- In whatever states the steps meet, the cycle gets through its sweep. -/
theorem sweeps_all {merchantIds : List MerchantId} (cycle : NightlyCycle) {env : Environment}
    (hfresh : FreshIds env) :
    ∃ steps cycle', CycleRun (.nightlySweep cycle merchantIds) steps (.nightlySweep cycle' []) ∧
      Follows env steps ∧ Sweeps merchantIds steps := by
  induction merchantIds generalizing cycle env with
  | nil => exact ⟨[], cycle, .stop _, .nil env, .none⟩
  | cons merchantId merchantIds ih =>
    let m : CycleMoment := ⟨(env 0).1, (env 0).2, .nightlySweep cycle (merchantId :: merchantIds)⟩
    cases hopen : latestOpenBatch (env 0).1.ledger merchantId with
    | some batch =>
      have hstep : CycleStep m
          (.nightlySweepRecompute cycle merchantId batch.id merchantIds) := by
        apply CycleStep.of_spawn (l := (env 0).1.ledger)
        simp only [m, resumeTask, nightlySweep, hopen]
        rfl
      obtain ⟨next, hrecompute⟩ := sweepRecompute_step (env.from 1 0).1 (env.from 1 0).2 cycle
        merchantId merchantIds batch.id
      obtain ⟨steps, cycle', hrun, hfollows, hsweeps⟩ := ih next ((hfresh.from 1).from 1)
      exact ⟨m :: _ :: steps, cycle', .step hstep (.step hrecompute hrun), hfollows.cons.cons,
        .standing rfl rfl hsweeps⟩
    | none =>
      have hstep : CycleStep m (.nightlySweepCreate cycle merchantId merchantIds) := by
        apply CycleStep.of_spawn (l := (env 0).1.ledger)
        simp only [m, resumeTask, nightlySweep, hopen]
        rfl
      obtain ⟨ledger, batchId, hbatch⟩ := findOrCreateBatch_succeeds merchantId
        (istanbulDateKey cycle.now) (env.from 1 0).2.clock (hfresh.from 1 0)
      have hcreate : CycleStep ⟨(env.from 1 0).1, (env.from 1 0).2,
          .nightlySweepCreate cycle merchantId merchantIds⟩
          (.nightlySweepRecompute cycle merchantId batchId merchantIds) := by
        apply CycleStep.of_spawn (l := ledger)
        simp only [resumeTask, nightlySweepCreate, hbatch]
      obtain ⟨next, hrecompute⟩ := sweepRecompute_step ((env.from 1).from 1 0).1
        ((env.from 1).from 1 0).2 cycle merchantId merchantIds batchId
      obtain ⟨steps, cycle', hrun, hfollows, hsweeps⟩ :=
        ih next (((hfresh.from 1).from 1).from 1)
      exact ⟨m :: _ :: _ :: steps, cycle', .step hstep (.step hcreate (.step hrecompute hrun)),
        hfollows.cons.cons.cons, .created rfl rfl rfl hsweeps⟩

/-- The merchants that a cycle sweeps, as its scan finds them. -/
def sweptMerchants (l : Ledger) (cycle : NightlyCycle) : List MerchantId :=
  (findMerchantsWithPendingClawback l).filter fun m => m ∉ cycle.merchantsWithFreshLines

/-- A whole cycle: every group, the scan, every merchant to sweep. -/
def Completes (env : Environment) (cycle : NightlyCycle) : Prop :=
  ∃ (built swept : List CycleMoment) (scan : CycleMoment) (cycle' ended : NightlyCycle),
    CycleRun (.nightlyGroups cycle) (built ++ scan :: swept) (.nightlySweep ended []) ∧
      Follows env (built ++ scan :: swept) ∧ Builds cycle.groups built ∧
        scan.task = .nightlyGroups cycle' ∧ cycle'.groups = [] ∧
          Sweeps (sweptMerchants scan.world.ledger cycle') swept

/-- Whatever states the steps of a cycle meet, refusing ones included, it
processes every group and the whole sweep. -/
theorem cycle_completes {env : Environment} (hfresh : FreshIds env) (cycle : NightlyCycle) :
    Completes env cycle := by
  obtain ⟨built, cycle', hbuilt, hfollows, hbuilds, hdone⟩ := builds_all (rfl : cycle.groups = cycle.groups) hfresh
  let n := built.length
  let scan : CycleMoment := ⟨(env.from n 0).1, (env.from n 0).2, .nightlyGroups cycle'⟩
  have hscan : CycleStep scan
      (.nightlySweep cycle' (sweptMerchants scan.world.ledger cycle')) := by
    apply CycleStep.of_spawn (l := scan.world.ledger)
    simp only [scan, resumeTask, nightlyGroups, hdone]
    rfl
  obtain ⟨swept, ended, hswept, hfollows', hsweeps⟩ :=
    sweeps_all cycle' ((hfresh.from n).from 1)
  refine ⟨built, swept, scan, cycle', ended, ?_, ?_, hbuilds, rfl, hdone, hsweeps⟩
  · exact hbuilt.append (.step hscan hswept)
  · exact hfollows.append hfollows'.cons

end Cycle

/-- A refused recompute leaves every stored row. What its cycle did before it
is at most one new empty batch, so the reservations are found again; and the
cycle goes on to every other group and to the sweep. -/
theorem refused_recompute_changes_nothing :
    (∀ l batchId now pendingLines clock, Refused l batchId now pendingLines clock →
      (recomputeTransaction batchId now pendingLines clock l).2 = l) ∧
    (∀ w w' task input batchId now pendingLines,
      taskTransaction input task = some (.recompute batchId now pendingLines input.clock) →
        Refused w.ledger batchId now pendingLines input.clock →
          resumeTask w task input = some w' → w'.ledger = w.ledger) ∧
    (∀ l merchantId dayKey freshId clock l' batchId,
      findOrCreateBatch l merchantId dayKey freshId clock = some (l', batchId) →
        SameButNewBatch l l' ∧ scanEligible l' = scanEligible l) ∧
    ∀ env, FreshIds env → ∀ cycle, Completes env cycle := by
  refine ⟨?_, ?_, ?_, ?_⟩
  · intro l batchId now pendingLines clock h
    exact h.stored
  · intro w w' task input batchId now pendingLines htx h hstep
    exact h.resumed htx hstep
  · intro l merchantId dayKey freshId clock l' batchId h
    have hsame := findOrCreateBatch_same h
    exact ⟨hsame, hsame.scanEligible⟩
  · intro env hfresh cycle
    exact cycle_completes hfresh cycle

section Sample

/-- A held batch whose shortfall an approved successor has collected; then a
bag of the held batch's day is collected late. -/
def lateRedemption : World :=
  sampleState 2500 (sell 1 100 1000 ++ runNight (noonOf 101) 1 ++ sell 2 102 20000 ++
    runNight (noonOf 103) 2 ++ approve 2 (noonOf 103) ++ sell 3 100 50000)

/-- The line that the next cycle computes for the late bag. -/
def lateLine : PendingSettlementLine := ⟨3, noonOf 100, 50000, 2500, 500, 470⟩

/-- The batch whose collected demand an outcome refuses to drop. -/
def refusedBatch : Except SettlementError (Ledger × Batch) → Option BatchId
  | .error (.carriedDemandAlreadyCollected batchId _ _ _) => some batchId
  | _ => none

theorem collectedBeyond_of_refusedBatch {l : Ledger} {batchId : BatchId} {now clock : Instant}
    {pendingLines : List PendingSettlementLine}
    (h : refusedBatch (recomputeBatch l batchId now pendingLines clock) = some batchId) :
    CollectedBeyond l batchId now pendingLines clock := by
  unfold CollectedBeyond
  cases hr : recomputeBatch l batchId now pendingLines clock with
  | ok result => simp [hr, refusedBatch] at h
  | error e =>
    cases e with
    | carriedDemandAlreadyCollected b x c k =>
      simp only [hr, refusedBatch, Option.some.injEq] at h
      exact ⟨x, c, k, by rw [h]⟩
    | _ => simp [hr, refusedBatch] at h

theorem lateRedemption_refused :
    Refused lateRedemption.ledger 1 (noonOf 104) [lateLine] (noonOf 104) :=
  Or.inr (collectedBeyond_of_refusedBatch (by decide +kernel))

/-- The late bag's line is written by the pass and gone after the refusal. -/
theorem refused_recompute_changes_nothing_sample :
    ServiceReachable anyStep lateRedemption ∧
      Refused lateRedemption.ledger 1 (noonOf 104) [lateLine] (noonOf 104) ∧
        ((recomputeStatements 1 (noonOf 104) [lateLine] (noonOf 104)
          lateRedemption.ledger).2.lines.find? 3).isSome ∧
        (recomputeTransaction 1 (noonOf 104) [lateLine] (noonOf 104) lateRedemption.ledger).2 =
          lateRedemption.ledger ∧
        Completes (fun _ => (lateRedemption, ⟨noonOf 104, 3, .failed⟩))
          { now := noonOf 104, startedBy := none, groups := scanEligible lateRedemption.ledger } := by
  refine ⟨sampleState_reachable (by decide +kernel), lateRedemption_refused,
    by decide +kernel, ?_, ?_⟩
  · exact refused_recompute_changes_nothing.1 _ _ _ _ _ lateRedemption_refused
  · apply refused_recompute_changes_nothing.2.2.2
    intro i
    have hfree : (lateRedemption.ledger.batches.find? 3).isNone := by decide +kernel
    exact Option.isNone_iff_eq_none.mp hfree

end Sample

end Kurtar.RefusedRecompute

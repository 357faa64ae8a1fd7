import Kurtar.SettlementTransactions
import Kurtar.LockedTransactions

/-!
# Row locks of recomputes and renewals

A recompute statement by statement: it locks its own batch, the membership
subscription, the lines it may claw back, and last the batch it carries demand
over from, which is the newest other batch of the merchant on the first pass
and the pinned one later. A renewal locks the subscription. Run alone, each is
the transaction of the settlement ledger.
-/

namespace Kurtar.RecomputeLocks

open KeyedTable IstanbulCalendar SettlementMath SettlementLedger SettlementRecompute
open SettlementTransactions LockedTransactions

/-- What the transactions lock. A line is named with its time of redemption as
well, which no statement changes. -/
inductive Row where
  | batch (id : BatchId)
  | subscription (merchantId : MerchantId)
  | line (redeemedAt : Instant) (reservationId : ReservationId)
  deriving DecidableEq, Repr

abbrev Tx := Program Ledger Row

section Locks

/-- The lines that the locking read of a pass finds, in its order. -/
def clawbackRows (l : Ledger) (merchantId : MerchantId) (batchId : BatchId) :
    List SettlementLine :=
  (l.lines.rows.filter fun line => lockedForPass l merchantId batchId line).insertionSort
    redeemedBefore

def lockLines (next : Tx) : List SettlementLine → Tx
  | [] => next
  | line :: lines => .acquire (.line line.redeemedAt line.reservationId) .forUpdate
      (lockLines next lines)

/-- Lock the subscription of the merchant, if there is one, and read what is due. -/
def lockSubscription (batch : Batch) (membershipExemptUntil : Option Instant)
    (next : Option MembershipDueForRecompute → Tx) : Tx :=
  let resolve := Program.select fun l =>
    next (lockAndResolveDue l batch.merchantId batch.membershipOffsetCents
      batch.membershipOffsetVatCents batch.periodStart membershipExemptUntil)
  .select fun l =>
    if (l.subscriptions.find? batch.merchantId).isSome then
      .acquire (.subscription batch.merchantId) .forUpdate resolve
    else resolve

/-- Lock the lines in their order. Of those, the ones that still qualify are read. -/
def lockAndResetOwnClawbackLedger (merchantId : MerchantId) (batchId : BatchId)
    (next : List LockedClawbackLine → Tx) : Tx :=
  .select fun l =>
    lockLines
      (.select fun l' => next ((lockedClawbackLines l' merchantId batchId).filter fun c =>
        c.reservationId ∈ (clawbackRows l merchantId batchId).map (·.reservationId)))
      (clawbackRows l merchantId batchId)

/-- Lock the newest other batch of the merchant; it is the source if it is held. -/
def discoverCarriedDemandSource (merchantId : MerchantId) (excludeBatchId : BatchId)
    (next : Option BatchId → Tx) : Tx :=
  .select fun l =>
    match newestOtherBatch l merchantId excludeBatchId with
    | none => next none
    | some mostRecent =>
      .acquire (.batch mostRecent.id) .forUpdate
        (.select fun l =>
          next (((l.batches.find? mostRecent.id).filter fun b => b.status = .held).map (·.id)))

/-- Lock the source, if there is one, and read what the claimant may take over. -/
def resolveSource (claimantBatchId : BatchId) (next : Option BatchId → ℤ → Tx) :
    Option BatchId → Tx
  | none => next none 0
  | some id => .select fun l =>
    if (l.batches.find? id).isSome then
      .acquire (.batch id) .forUpdate
        (.select fun l => next (some id) (resolveCarriedDemandFromSource l id claimantBatchId))
    else next (some id) 0

/-- The source of the pass, discovered or pinned, and what it leaves to take over. -/
def carrySource (batch : Batch) (next : Option BatchId → ℤ → Tx) : Tx :=
  if batch.shortfallResolvedAt = none then
    discoverCarriedDemandSource batch.merchantId batch.id (resolveSource batch.id next)
  else resolveSource batch.id next batch.carriedDemandSourceBatchId

end Locks

section Recompute

/-- The decisions of a pass, from what it has read under its locks. -/
def planFrom (bagFeeCents : ℤ) (lines : List SettlementInputLine)
    (due : Option MembershipDueForRecompute) (lockedLines : List LockedClawbackLine)
    (carriedDemandSourceBatchId : Option BatchId) (carriedFromPrior : ℤ) :
    Except SettlementError RecomputePass := do
  let candidates := clawbackCandidates lockedLines
  let result ← (computeSettlement
    { lines
      bagFeeCents
      membershipDueCents := membershipDueCents due
      priorClawbackCents := totalClawbackDemandCents candidates+carriedFromPrior }).mapError .math
  let allocation ← (allocateClawback result.refundClawbackCents carriedFromPrior
    candidates).mapError .math
  return { bagFeeCents, lines, due, lockedLines, carriedFromPrior, result, allocation
           carriedDemandSourceBatchId }

/-- The writes of a pass, made under its locks, and the two checks before the commit. -/
def writeAndCheck (batch : Batch) (pass : RecomputePass) (now clock : Instant) : Tx :=
  .select fun l =>
    let updated := (writePass l batch pass now clock).2
    .insert (fun l => (writePass l batch pass now clock).1)
      (.select fun l =>
        match assertLedgerIdentity l updated (pass.lockedLines.map (·.reservationId)) with
        | .error _ => .rollback
        | .ok _ =>
          match assertIrrevocableClaimsHonoured l updated with
          | .error _ => .rollback
          | .ok _ => .commit)

/-- A pass over an open batch, whose row is locked. -/
def recomputeOpenBatch (batch : Batch) (now : Instant)
    (pendingLines : List PendingSettlementLine) (clock : Instant) : Tx :=
  .insert (fun l => insertPendingLines l batch.id pendingLines)
    (.select fun l =>
      match findMerchantOrThrow l batch.merchantId with
      | .error _ => .rollback
      | .ok merchant =>
        match l.resolveBagFeeCentsForMerchant merchant batch.periodStart with
        | .error _ => .rollback
        | .ok bagFeeCents =>
          lockSubscription batch merchant.membershipExemptUntil fun due =>
            lockAndResetOwnClawbackLedger batch.merchantId batch.id fun lockedLines =>
              carrySource batch fun source carriedFromPrior =>
                match planFrom bagFeeCents (settlementInputLines l batch.id) due lockedLines source
                    carriedFromPrior with
                | .error _ => .rollback
                | .ok pass => writeAndCheck batch pass now clock)

def recomputeBatch (batchId : BatchId) (now : Instant) (pendingLines : List PendingSettlementLine)
    (clock : Instant) : Tx :=
  .select fun l =>
    if (l.batches.find? batchId).isSome then
      .acquire (.batch batchId) .forUpdate
        (.select fun l =>
          match l.batches.find? batchId with
          | none => .rollback
          | some batch =>
            if ¬ batch.Recomputable ∨ batch.payoutAttemptedAt ≠ none then .commit
            else recomputeOpenBatch batch now pendingLines clock)
    else .rollback

/-- The renewal of one subscription. -/
def renewOneLocked (merchantId : MerchantId) (now : Instant) : Tx :=
  .select fun l =>
    if (l.subscriptions.find? merchantId).isSome then
      .acquire (.subscription merchantId) .forUpdate
        (.select fun l =>
          match renewSubscription l merchantId now with
          | none => .rollback
          | some _ => .insert (fun l => (renewSubscription l merchantId now).getD l) .commit)
    else .rollback

/-- The requests that start a transaction. The nightly cycle, an approval and a
retry recompute in the same way. -/
inductive Request where
  | recompute (batchId : BatchId) (now : Instant) (pendingLines : List PendingSettlementLine)
      (clock : Instant)
  | renew (merchantId : MerchantId) (now : Instant)

def program : Request → Tx
  | .recompute batchId now pendingLines clock => recomputeBatch batchId now pendingLines clock
  | .renew merchantId now => renewOneLocked merchantId now

end Recompute

section Alone

variable {l : Ledger}

theorem lockLines_alone (next : Tx) (lines : List SettlementLine) :
    (lockLines next lines).alone l = next.alone l := by
  induction lines with
  | nil => rfl
  | cons line lines ih => exact ih

theorem lockSubscription_alone (batch : Batch) (membershipExemptUntil : Option Instant)
    (next : Option MembershipDueForRecompute → Tx) :
    (lockSubscription batch membershipExemptUntil next).alone l =
      (next (lockAndResolveDue l batch.merchantId batch.membershipOffsetCents
        batch.membershipOffsetVatCents batch.periodStart membershipExemptUntil)).alone l := by
  simp only [lockSubscription, Program.alone]
  split
  · rfl
  · rfl

/-- Alone, all lines that were locked still qualify. -/
theorem lockClawback_alone (merchantId : MerchantId) (batchId : BatchId)
    (next : List LockedClawbackLine → Tx) :
    (lockAndResetOwnClawbackLedger merchantId batchId next).alone l =
      (next (lockedClawbackLines l merchantId batchId)).alone l := by
  have hall : (lockedClawbackLines l merchantId batchId).filter (fun c =>
      c.reservationId ∈ (clawbackRows l merchantId batchId).map (·.reservationId)) =
      lockedClawbackLines l merchantId batchId := by
    refine List.filter_eq_self.mpr ?_
    intro c hc
    obtain ⟨line, hline, rfl⟩ := List.mem_map.mp hc
    exact decide_eq_true (List.mem_map.mpr ⟨line, hline, rfl⟩)
  simp only [lockAndResetOwnClawbackLedger, Program.alone, lockLines_alone]
  rw [hall]

theorem discover_alone (merchantId : MerchantId) (excludeBatchId : BatchId)
    (next : Option BatchId → Tx) :
    (discoverCarriedDemandSource merchantId excludeBatchId next).alone l =
      (next (SettlementRecompute.discoverCarriedDemandSource l merchantId excludeBatchId)).alone
        l := by
  simp only [discoverCarriedDemandSource, SettlementRecompute.discoverCarriedDemandSource,
    Program.alone]
  cases hnewest : newestOtherBatch l merchantId excludeBatchId with
  | none => rfl
  | some mostRecent =>
    have hmem : mostRecent ∈ l.batches.rows :=
      (List.mem_filter.mp (mem_of_greatest hnewest)).1
    simp only [Program.alone, Table.find?_of_mem hmem, Option.filter_some, decide_eq_true_eq]
    split
    · rfl
    · rfl

theorem resolveSource_alone (claimantBatchId : BatchId) (next : Option BatchId → ℤ → Tx)
    (source : Option BatchId) :
    (resolveSource claimantBatchId next source).alone l =
      (next source (match source with
        | some id => resolveCarriedDemandFromSource l id claimantBatchId
        | none => 0)).alone l := by
  cases source with
  | none => rfl
  | some id =>
    simp only [resolveSource, Program.alone]
    split
    · rfl
    · rename_i hnone
      have hfind : l.batches.find? id = none := by simpa using hnone
      simp only [resolveCarriedDemandFromSource, hfind]

theorem carrySource_alone (batch : Batch) (next : Option BatchId → ℤ → Tx) :
    (carrySource batch next).alone l =
      (next (passSource l batch) (passCarried l batch)).alone l := by
  unfold carrySource passCarried passSource
  split_ifs with hfirst
  · rw [discover_alone]
    exact resolveSource_alone _ _ _
  · exact resolveSource_alone _ _ _

theorem planPass_eq (batch : Batch) :
    planPass l batch = (do
      let merchant ← findMerchantOrThrow l batch.merchantId
      let bagFeeCents ← l.resolveBagFeeCentsForMerchant merchant batch.periodStart
      planFrom bagFeeCents (settlementInputLines l batch.id)
        (lockAndResolveDue l batch.merchantId batch.membershipOffsetCents
          batch.membershipOffsetVatCents batch.periodStart merchant.membershipExemptUntil)
        (lockedClawbackLines l batch.merchantId batch.id) (passSource l batch)
        (passCarried l batch)) := rfl

theorem writeAndCheck_alone (batch : Batch) (pass : RecomputePass) (now clock : Instant) :
    (writeAndCheck batch pass now clock).alone l =
      (Except.toOption (do
        let (written, updated) := writePass l batch pass now clock
        assertLedgerIdentity written updated (pass.lockedLines.map (·.reservationId))
        assertIrrevocableClaimsHonoured written updated
        return (written, updated))).map Prod.fst := by
  simp only [writeAndCheck, Program.alone]
  generalize writePass l batch pass now clock = written
  cases hidentity : assertLedgerIdentity written.1 written.2
      (pass.lockedLines.map (·.reservationId)) with
  | error e => rfl
  | ok _ =>
    cases hclaims : assertIrrevocableClaimsHonoured written.1 written.2 with
    | error e =>
      simp only [bind, Except.bind]
      rfl
    | ok _ =>
      simp only [bind, Except.bind]
      rfl

theorem recomputeOpenBatch_alone (batch : Batch) (now : Instant)
    (pendingLines : List PendingSettlementLine) (clock : Instant) :
    (recomputeOpenBatch batch now pendingLines clock).alone l =
      ((SettlementRecompute.recomputeOpenBatch (insertPendingLines l batch.id pendingLines) batch
        now clock).toOption.map Prod.fst) := by
  simp only [recomputeOpenBatch, SettlementRecompute.recomputeOpenBatch, Program.alone, planPass_eq]
  generalize insertPendingLines l batch.id pendingLines = inserted
  cases hmerchant : findMerchantOrThrow inserted batch.merchantId with
  | error e => rfl
  | ok merchant =>
    simp only [bind, Except.bind]
    cases hfee : inserted.resolveBagFeeCentsForMerchant merchant batch.periodStart with
    | error e => rfl
    | ok bagFeeCents =>
      simp only [lockSubscription_alone, lockClawback_alone, carrySource_alone]
      cases hplan : planFrom bagFeeCents (settlementInputLines inserted batch.id)
          (lockAndResolveDue inserted batch.merchantId batch.membershipOffsetCents
            batch.membershipOffsetVatCents batch.periodStart merchant.membershipExemptUntil)
          (lockedClawbackLines inserted batch.merchantId batch.id) (passSource inserted batch)
          (passCarried inserted batch) with
      | error e => rfl
      | ok pass => exact writeAndCheck_alone batch pass now clock

/-- Alone, the statements of a recompute commit what the transaction of the
settlement ledger computes. -/
theorem recomputeBatch_alone (batchId : BatchId) (now : Instant)
    (pendingLines : List PendingSettlementLine) (clock : Instant) :
    (recomputeBatch batchId now pendingLines clock).alone l =
      ((SettlementRecompute.recomputeBatch l batchId now pendingLines clock).toOption.map
        Prod.fst) := by
  simp only [recomputeBatch, SettlementRecompute.recomputeBatch, Program.alone]
  cases hfind : l.batches.find? batchId with
  | none => rfl
  | some batch =>
    have hid : batch.id = batchId := (Table.find?_eq_some.mp hfind).2
    simp only [Option.isSome_some, if_true, Program.alone, hfind]
    split_ifs with hfrozen
    · rfl
    · rw [recomputeOpenBatch_alone, hid]

theorem renewOneLocked_alone (merchantId : MerchantId) (now : Instant) :
    (renewOneLocked merchantId now).alone l = renewSubscription l merchantId now := by
  simp only [renewOneLocked, Program.alone]
  cases hfind : l.subscriptions.find? merchantId with
  | none => simp only [Option.isSome_none, renewSubscription, hfind]; rfl
  | some sub =>
    simp only [Option.isSome_some, if_true, Program.alone]
    cases hrenew : renewSubscription l merchantId now with
    | none => rfl
    | some renewed => simp only [Program.alone, hrenew, Option.getD_some]

/-- The transaction of the settlement ledger that a request stands for. -/
def Request.transaction : Request → SettlementTransactions.Transaction
  | .recompute batchId now pendingLines clock => .recompute batchId now pendingLines clock
  | .renew merchantId now => .business (.renewOneLocked merchantId) now

/-- A request that runs alone commits as that transaction does. -/
theorem program_alone (request : Request) :
    (program request).alone l = commit l request.transaction := by
  cases request with
  | recompute batchId now pendingLines clock =>
    change (recomputeBatch batchId now pendingLines clock).alone l =
      commit l (.recompute batchId now pendingLines clock)
    rw [recomputeBatch_alone, commit]
    cases SettlementRecompute.recomputeBatch l batchId now pendingLines clock with
    | error e => rfl
    | ok result => rfl
  | renew merchantId now => exact renewOneLocked_alone merchantId now

end Alone

end Kurtar.RecomputeLocks

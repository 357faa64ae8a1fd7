import Mathlib.Data.List.Sort
import Mathlib.Data.Prod.Lex
import Kurtar.SettlementLedger

/-!
# Recomputing a settlement batch

A recompute derives an open batch anew from its lines, the fee in force, the
membership balance, the refunded lines whose demand is not recovered and the
demand of the pinned predecessor. The pass first erases what the batch itself
owns in the clawback and claim ledgers, so that everything it reads belongs
to other batches. It then writes the totals, the claim, the allocations and
the projected lines, and refuses to commit when the rows it wrote disagree or
when a frozen successor has collected more than the batch still exports.
-/

namespace Kurtar.SettlementRecompute

open KeyedTable StatusTransitions IstanbulCalendar SettlementMath SettlementLedger

/-- A computed line that is not stored yet. -/
structure PendingSettlementLine where
  reservationId : ReservationId
  redeemedAt : Instant
  grossCents : ℤ
  bagFeeCents : ℤ
  bagFeeVatCents : ℤ
  withholdingCents : ℤ
  deriving DecidableEq

/-- Store pending lines under a batch; a reservation that has a line keeps it. -/
def insertPendingLines (l : Ledger) (batchId : BatchId)
    (pendingLines : List PendingSettlementLine) : Ledger :=
  let rows := pendingLines.map fun pl =>
    ({ reservationId := pl.reservationId
       batchId
       redeemedAt := pl.redeemedAt
       grossCents := pl.grossCents
       bagFeeCents := pl.bagFeeCents
       bagFeeVatCents := pl.bagFeeVatCents
       withholdingCents := pl.withholdingCents } : SettlementLine)
  { l with lines := l.lines.insertMany rows }

/-- The batch's lines with the quantities of their reservations. -/
def settlementInputLines (l : Ledger) (batchId : BatchId) : List SettlementInputLine :=
  (l.lines.rows.filter fun line => line.batchId = batchId).filterMap fun line =>
    (l.reservations.find? line.reservationId).map fun reservation =>
      { reservationId := line.reservationId
        grossCents := line.grossCents
        qty := reservation.qty }

/-- A settled line the pass is responsible for. -/
abbrev LockedClawbackLine := ClawbackCandidate

/-- Does the batch hold an allocation against the line? -/
def holdsAllocation (l : Ledger) (batchId : BatchId) (line : SettlementLine) : Prop :=
  ∃ a ∈ l.allocations.rows, a.reservationId = line.reservationId ∧ a.batchId = batchId

instance (l : Ledger) (batchId : BatchId) (line : SettlementLine) :
    Decidable (holdsAllocation l batchId line) := by
  unfold holdsAllocation
  infer_instance

/-- Is the line paid out, refunded and not marked as recovered? -/
def awaitsClawback (l : Ledger) (status : SettlementStatus) (line : SettlementLine) : Prop :=
  line.clawbackAppliedAt = none ∧ paidOut status ∧
    ∃ r, l.reservations.find? line.reservationId = some r ∧ r.refundClaimed

instance (l : Ledger) (status : SettlementStatus) (line : SettlementLine) :
    Decidable (awaitsClawback l status line) := by
  unfold awaitsClawback
  have : Decidable (∃ r, l.reservations.find? line.reservationId = some r ∧ r.refundClaimed) :=
    match h : l.reservations.find? line.reservationId with
    | none => isFalse (by simp)
    | some r => decidable_of_iff r.refundClaimed (by simp)
  infer_instance

/-- The rows locked for a pass of `batchId`: lines of the merchant it holds
an allocation against, and lines that await recovery. -/
def lockedForPass (l : Ledger) (merchantId : MerchantId) (batchId : BatchId)
    (line : SettlementLine) : Prop :=
  ∃ sb ∈ l.batches.rows, sb.id = line.batchId ∧ sb.merchantId = merchantId ∧
    (holdsAllocation l batchId line ∨ awaitsClawback l sb.status line)

instance (l : Ledger) (merchantId : MerchantId) (batchId : BatchId) (line : SettlementLine) :
    Decidable (lockedForPass l merchantId batchId line) := by
  unfold lockedForPass
  infer_instance

/-- Oldest redemption first, ties by reservation. -/
def redeemedBefore (a b : SettlementLine) : Prop :=
  toLex (a.redeemedAt, a.reservationId) ≤ toLex (b.redeemedAt, b.reservationId)

instance : DecidableRel redeemedBefore := fun a b => by
  unfold redeemedBefore
  infer_instance

/-- Erase the batch's own allocations. -/
def resetOwnClawbackLedger (l : Ledger) (batchId : BatchId) : Ledger :=
  { l with allocations := l.allocations.deleteMany fun a => a.batchId = batchId }

/-- The locked lines with their demand and what other batches recovered of it. -/
def lockedClawbackLines (l : Ledger) (merchantId : MerchantId) (batchId : BatchId) :
    List LockedClawbackLine :=
  let rows := (l.lines.rows.filter fun line => lockedForPass l merchantId batchId line).insertionSort
    redeemedBefore
  rows.map fun line =>
    { reservationId := line.reservationId
      fullDemandCents := fullClawbackDemandCents line
      otherBatchesRecoveredCents :=
        (resetOwnClawbackLedger l batchId).allocatedToLine line.reservationId }

/-- The merchant's most recently created batch other than the given one. -/
def newestOtherBatch (l : Ledger) (merchantId : MerchantId) (excludeBatchId : BatchId) :
    Option Batch :=
  greatest (fun a b : Batch => toLex (a.createdAt, a.id) < toLex (b.createdAt, b.id))
    (l.batches.rows.filter fun b => b.merchantId = merchantId ∧ b.id ≠ excludeBatchId)

/-- The predecessor a first pass pins: the newest other batch, if it is held. -/
def discoverCarriedDemandSource (l : Ledger) (merchantId : MerchantId)
    (excludeBatchId : BatchId) : Option BatchId :=
  match newestOtherBatch l merchantId excludeBatchId with
  | some mostRecent => if mostRecent.status = .held then some mostRecent.id else none
  | none => none

/-- What the claimant may take over from its source, net of other claims. -/
def resolveCarriedDemandFromSource (l : Ledger) (sourceBatchId claimantBatchId : BatchId) : ℤ :=
  match l.batches.find? sourceBatchId with
  | none => 0
  | some source =>
    let exportable := exportableCarriedDemandCents source
    if exportable ≤ 0 then 0
    else
      let alreadyTaken := l.claims.sumOn
        (fun c => c.sourceBatchId = sourceBatchId ∧ c.claimantBatchId ≠ claimantBatchId)
        (·.amountCents)
      max 0 (exportable-alreadyTaken)

/-- What one pass has read and decided. -/
structure RecomputePass where
  bagFeeCents : ℤ
  lines : List SettlementInputLine
  due : Option MembershipDueForRecompute
  lockedLines : List LockedClawbackLine
  carriedDemandSourceBatchId : Option BatchId
  carriedFromPrior : ℤ
  result : ComputeSettlementResult
  allocation : ClawbackAllocationResult

/-- The locked lines with something left to recover. -/
def clawbackCandidates (lockedLines : List LockedClawbackLine) : List ClawbackCandidate :=
  lockedLines.filter fun c => c.fullDemandCents-c.otherBatchesRecoveredCents > 0

/-- The due amount a pass may offset; nothing without a subscription. -/
def membershipDueCents (due : Option MembershipDueForRecompute) : ℤ :=
  (due.map (·.dueCents)).getD 0

/-- The pinned predecessor, discovered on the first pass. -/
def passSource (l : Ledger) (batch : Batch) : Option BatchId :=
  if batch.shortfallResolvedAt = none then
    discoverCarriedDemandSource l batch.merchantId batch.id
  else batch.carriedDemandSourceBatchId

/-- The demand taken over from the predecessor in this pass. -/
def passCarried (l : Ledger) (batch : Batch) : ℤ :=
  match passSource l batch with
  | some source => resolveCarriedDemandFromSource l source batch.id
  | none => 0

/-- The merchant of a batch, which has to exist. -/
def findMerchantOrThrow (l : Ledger) (merchantId : MerchantId) : Except SettlementError Merchant :=
  match l.merchants.find? merchantId with
  | some merchant => .ok merchant
  | none => .error (.merchantNotFound merchantId)

/-- The reads and decisions of a pass, up to the allocation. -/
def planPass (l : Ledger) (batch : Batch) : Except SettlementError RecomputePass := do
  let merchant ← findMerchantOrThrow l batch.merchantId
  let bagFeeCents ← l.resolveBagFeeCentsForMerchant merchant batch.periodStart
  let lines := settlementInputLines l batch.id
  let due := lockAndResolveDue l batch.merchantId batch.membershipOffsetCents
    batch.membershipOffsetVatCents batch.periodStart merchant.membershipExemptUntil
  let lockedLines := lockedClawbackLines l batch.merchantId batch.id
  let candidates := clawbackCandidates lockedLines
  let carriedFromPrior := passCarried l batch
  let result ← (computeSettlement
    { lines
      bagFeeCents
      membershipDueCents := membershipDueCents due
      priorClawbackCents := totalClawbackDemandCents candidates+carriedFromPrior }).mapError .math
  let allocation ← (allocateClawback result.refundClawbackCents carriedFromPrior
    candidates).mapError .math
  return { bagFeeCents, lines, due, lockedLines, carriedFromPrior, result, allocation
           carriedDemandSourceBatchId := passSource l batch }

/-- Replace the batch's claim by the one of this pass. -/
def rewriteClaim (l : Ledger) (batchId : BatchId) (pass : RecomputePass) : Ledger :=
  let cleared := l.claims.deleteMany fun c => c.claimantBatchId = batchId
  match pass.carriedDemandSourceBatchId with
  | some source =>
    if pass.carriedFromPrior > 0 then
      { l with claims := cleared.insertNew ⟨batchId, source, pass.carriedFromPrior⟩ }
    else { l with claims := cleared }
  | none => { l with claims := cleared }

/-- Settle the membership offset of the pass; also return its VAT share. -/
def writeOffset (l : Ledger) (pass : RecomputePass) (clock : Instant) : Ledger × ℤ :=
  match pass.due with
  | some due =>
    persistOffset l due due.dueCents due.dueVatCents pass.result.membershipOffsetCents clock
  | none => (l, 0)

/-- The row a pass stores for its batch. -/
def passRow (batch : Batch) (pass : RecomputePass) (offsetVatCents : ℤ) (now : Instant) : Batch :=
  { batch with
    grossCents := pass.result.grossCents
    bagFeeCents := pass.result.bagFeeCents
    bagFeeVatCents := pass.result.bagFeeVatCents
    withholdingCents := pass.result.withholdingCents
    membershipOffsetCents := pass.result.membershipOffsetCents
    membershipOffsetVatCents := offsetVatCents
    refundClawbackCents := pass.result.refundClawbackCents
    netPayoutCents := pass.result.netPayoutCents
    carriedShortfallCents := pass.result.carriedShortfallCents
    carriedExternalDemandCents := pass.carriedFromPrior-pass.allocation.externalAbsorbedCents
    inheritedExternalDemandCents := pass.carriedFromPrior
    carriedDemandSourceBatchId :=
      if batch.shortfallResolvedAt = none then pass.carriedDemandSourceBatchId
      else batch.carriedDemandSourceBatchId
    shortfallResolvedAt := some (batch.shortfallResolvedAt.getD now)
    status := if pass.result.held then .held else .calculated
    holdReason :=
      if pass.result.held then
        some s!"Otomatik: net bakiye negatif, {pass.result.carriedShortfallCents} kuruş sonraki döneme taşındı"
      else none }

/-- Store a batch row under its key. -/
def writeBatch (l : Ledger) (row : Batch) : Ledger :=
  { l with
    batches := l.batches.updateMany (fun b => b.id = row.id) (fun b => { row with id := b.id })
      fun _ => rfl }

/-- Rewrite the charges of the lines listed in the result. -/
def writeLineFees (l : Ledger) (perLine : List SettlementLineResult) : Ledger :=
  { l with
    lines := l.lines.updateMany (fun line => ∃ pl ∈ perLine, pl.reservationId = line.reservationId)
      (fun line =>
        match perLine.find? fun pl => pl.reservationId = line.reservationId with
        | some pl =>
          { line with
            bagFeeCents := pl.bagFeeCents
            bagFeeVatCents := pl.bagFeeVatCents
            withholdingCents := pl.withholdingCents }
        | none => line)
      fun line => by split <;> rfl }

/-- Store the entries that received something. -/
def writeAllocations (l : Ledger) (batchId : BatchId)
    (perCandidate : List ClawbackAllocationLine) : Ledger :=
  let funded := perCandidate.filter fun a => a.absorbedCents > 0
  { l with
    allocations := l.allocations.insertMany
      (funded.map fun a => ⟨batchId, a.reservationId, a.absorbedCents⟩) }

/-- Rewrite the recovery columns of the listed lines from the allocations. -/
def projectLinesFromLedger (l : Ledger) (reservationIds : List ReservationId) (now : Instant) :
    Ledger :=
  { l with
    lines := l.lines.updateMany (fun line => line.reservationId ∈ reservationIds)
      (fun line =>
        let total := l.allocatedToLine line.reservationId
        let fullDemandCents := fullClawbackDemandCents line
        { line with
          clawbackCents := total
          clawbackBatchId :=
            ((l.allocations.rows.filter fun a => a.reservationId = line.reservationId).map
              (·.batchId)).max?
          clawbackAppliedAt :=
            if fullDemandCents > 0 ∧ total ≥ fullDemandCents then
              some (line.clawbackAppliedAt.getD now)
            else none })
      fun _ => rfl }

/-- All writes of a pass, in order; also return the stored batch row. -/
def writePass (l : Ledger) (batch : Batch) (pass : RecomputePass) (now clock : Instant) :
    Ledger × Batch :=
  let claimed := rewriteClaim (resetOwnClawbackLedger l batch.id) batch.id pass
  let offset := writeOffset claimed pass clock
  let updated := passRow batch pass offset.2 now
  let stored := writeLineFees (writeBatch offset.1 updated) pass.result.perLine
  let allocated := writeAllocations stored batch.id pass.allocation.perCandidate
  (projectLinesFromLedger allocated (pass.lockedLines.map (·.reservationId)) now, updated)

/-- Succeed only when the condition holds. -/
def ensure (condition : Prop) [Decidable condition] (error : SettlementError) :
    Except SettlementError Unit :=
  if condition then .ok () else .error error

/-- A stored line agrees with its allocations and is not over-recovered. -/
def assertLine (l : Ledger) (line : SettlementLine) : Except SettlementError Unit := do
  let total := l.allocatedToLine line.reservationId
  ensure (line.clawbackCents = total)
    (.ledgerDivergence (.lineDiffersFromAllocations line.reservationId line.clawbackCents total))
  ensure (total ≤ fullClawbackDemandCents line)
    (.ledgerDivergence
      (.lineOverRecovered line.reservationId total (fullClawbackDemandCents line)))

/-- Compare the written rows of the batch and of the lines it touched. -/
def assertLedgerIdentity (l : Ledger) (batch : Batch)
    (responsibleReservationIds : List ReservationId) : Except SettlementError Unit := do
  let mine := l.allocations.rows.filter fun a => a.batchId = batch.id
  let claimedCents := ((l.claims.find? batch.id).map (·.amountCents)).getD 0
  ensure (batch.inheritedExternalDemandCents = claimedCents)
    (.ledgerDivergence (.inheritedDiffersFromClaim batch.id batch.inheritedExternalDemandCents
      claimedCents))
  ensure (0 ≤ batch.carriedExternalDemandCents ∧
      batch.carriedExternalDemandCents ≤ batch.inheritedExternalDemandCents)
    (.ledgerDivergence (.carriedOutsideInherited batch.id batch.carriedExternalDemandCents
      batch.inheritedExternalDemandCents))
  let externalAbsorbed := batch.inheritedExternalDemandCents-batch.carriedExternalDemandCents
  ensure (l.allocatedByBatch batch.id+externalAbsorbed = batch.refundClawbackCents)
    (.ledgerDivergence (.clawbackDiffersFromLedger batch.id batch.refundClawbackCents
      externalAbsorbed (l.allocatedByBatch batch.id)))
  let touched := responsibleReservationIds ++ mine.map (·.reservationId)
  (l.lines.rows.filter fun line => line.reservationId ∈ touched).forM (assertLine l)

/-- The claims on a batch whose claimants can no longer recompute. -/
def irrevocableClaims (l : Ledger) (batchId : BatchId) :
    List (CarriedDemandClaim × SettlementStatus) :=
  (l.claims.rows.filter fun c => c.sourceBatchId = batchId).filterMap fun c =>
    match l.batches.find? c.claimantBatchId with
    | some claimant => if claimant.Recomputable then none else some (c, claimant.status)
    | none => none

/-- A batch has to go on exporting what frozen claimants have collected from it. -/
def assertIrrevocableClaimsHonoured (l : Ledger) (batch : Batch) : Except SettlementError Unit :=
  let irrevocable := irrevocableClaims l batch.id
  if irrevocable = [] then .ok ()
  else
    let collected := (irrevocable.map fun c => c.1.amountCents).sum
    let exportable := exportableCarriedDemandCents batch
    ensure (collected ≤ exportable)
      (.carriedDemandAlreadyCollected batch.id exportable collected
        (irrevocable.map fun c => (c.1.claimantBatchId, c.2, c.1.amountCents)))

/-- A pass over an open batch whose pending lines are stored. -/
def recomputeOpenBatch (l : Ledger) (batch : Batch) (now clock : Instant) :
    Except SettlementError (Ledger × Batch) := do
  let pass ← planPass l batch
  let (written, updated) := writePass l batch pass now clock
  assertLedgerIdentity written updated (pass.lockedLines.map (·.reservationId))
  assertIrrevocableClaimsHonoured written updated
  return (written, updated)

/-- The single write path of a batch's totals, as one transaction. A batch
that is frozen or whose payout was attempted is returned as it is, and the
pending lines are not stored. -/
def recomputeBatch (l : Ledger) (batchId : BatchId) (now : Instant)
    (pendingLines : List PendingSettlementLine) (clock : Instant) :
    Except SettlementError (Ledger × Batch) :=
  match l.batches.find? batchId with
  | none => .error (.recomputeBatchNotFound batchId)
  | some batch =>
    if ¬ batch.Recomputable ∨ batch.payoutAttemptedAt ≠ none then .ok (l, batch)
    else recomputeOpenBatch (insertPendingLines l batchId pendingLines) batch now clock

end Kurtar.SettlementRecompute

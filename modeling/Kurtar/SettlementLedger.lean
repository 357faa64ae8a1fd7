import Kurtar.SettlementMath

/-!
# The settlement ledger

The stored rows of settlement: batches, lines, clawback allocations, carried
demand claims, membership subscriptions and the merchant, pricing and
reservation rows the batch builder reads. Two reads with a rule of their own
live here as well: which platform price is in force, and how much of the
membership balance a batch may offset.
-/

namespace Kurtar.SettlementLedger

open KeyedTable StatusTransitions IstanbulCalendar SettlementMath

abbrev BatchId := ℕ
abbrev MerchantId := ℕ

/-- A settlement batch: the totals of one merchant's day. -/
structure Batch where
  id : BatchId
  merchantId : MerchantId
  /-- UTC midnight of the Istanbul day the batch covers. -/
  periodStart : Instant
  periodEnd : Instant
  status : SettlementStatus
  createdAt : Instant
  grossCents : ℤ := 0
  bagFeeCents : ℤ := 0
  bagFeeVatCents : ℤ := 0
  withholdingCents : ℤ := 0
  membershipOffsetCents : ℤ := 0
  membershipOffsetVatCents : ℤ := 0
  refundClawbackCents : ℤ := 0
  netPayoutCents : ℤ := 0
  carriedShortfallCents : ℤ := 0
  /-- Inherited external demand that is not yet absorbed. -/
  carriedExternalDemandCents : ℤ := 0
  /-- Projection of the batch's carried demand claim. -/
  inheritedExternalDemandCents : ℤ := 0
  /-- The pinned predecessor, written once. -/
  carriedDemandSourceBatchId : Option BatchId := none
  /-- When the first pass pinned the predecessor. -/
  shortfallResolvedAt : Option Instant := none
  payoutAttemptedAt : Option Instant := none
  holdReason : Option String := none
  pspTransferRef : Option String := none
  sentAt : Option Instant := none
  settledAt : Option Instant := none
  settlementReference : Option String := none

/-- A reservation's place in a batch. -/
structure SettlementLine where
  reservationId : ReservationId
  batchId : BatchId
  /-- When the bag was earned. -/
  redeemedAt : Instant
  grossCents : ℤ
  bagFeeCents : ℤ
  bagFeeVatCents : ℤ
  withholdingCents : ℤ
  /-- Sum of the allocations against the line. -/
  clawbackCents : ℤ := 0
  /-- When the line became fully recovered. -/
  clawbackAppliedAt : Option Instant := none
  clawbackBatchId : Option BatchId := none

/-- What one batch withholds against one settled line. -/
structure ClawbackAllocation where
  batchId : BatchId
  reservationId : ReservationId
  amountCents : ℤ

/-- Primary key of an allocation. -/
def ClawbackAllocation.key (a : ClawbackAllocation) : BatchId × ReservationId :=
  (a.batchId, a.reservationId)

/-- What one batch has taken over from its pinned predecessor. -/
structure CarriedDemandClaim where
  claimantBatchId : BatchId
  sourceBatchId : BatchId
  amountCents : ℤ

inductive MembershipStatus where
  | trial | active | pastDue | cancelled
  deriving DecidableEq

/-- A merchant's membership; amounts include VAT, which is also kept apart. -/
structure MembershipSubscription where
  merchantId : MerchantId
  anchorDate : Instant
  currentPeriodStart : Instant
  currentPeriodEnd : Instant
  priceCents : ℤ
  vatCents : ℤ
  status : MembershipStatus
  outstandingCents : ℤ
  outstandingVatCents : ℤ
  periodPaidAt : Option Instant
  writtenOffCents : ℤ := 0
  writtenOffVatCents : ℤ := 0

/-- The merchant columns that settlement reads. -/
structure Merchant where
  id : MerchantId
  iban : String
  pspSubMerchantKey : Option String
  bagFeeCentsOverride : Option ℤ
  membershipExemptUntil : Option Instant

/-- One version of the platform's prices. -/
structure PlatformPricing where
  bagFeeCents : ℤ
  membershipAnnualCents : ℤ
  effectiveFrom : Instant

/-- A reservation joined with its offer, store and payment, as settlement reads it. -/
structure Reservation where
  id : ReservationId
  merchantId : MerchantId
  status : ReservationStatus
  redeemedAt : Option Instant
  pickupEndAt : Instant
  totalCents : ℤ
  qty : ℤ
  paymentStatus : PaymentStatus
  /-- Statuses of the refunds of its payment. -/
  refunds : List RefundStatus

/-- All rows that the settlement services read or write. -/
structure Ledger where
  batches : Table Batch.id
  lines : Table SettlementLine.reservationId
  allocations : Table ClawbackAllocation.key
  claims : Table CarriedDemandClaim.claimantBatchId
  subscriptions : Table MembershipSubscription.merchantId
  merchants : Table Merchant.id
  pricing : List PlatformPricing
  reservations : Table Reservation.id

/-- The five ways in which stored rows can disagree. -/
inductive LedgerDivergence where
  | inheritedDiffersFromClaim (batchId : BatchId) (inherited claimed : ℤ)
  | carriedOutsideInherited (batchId : BatchId) (carried inherited : ℤ)
  | clawbackDiffersFromLedger (batchId : BatchId) (recorded external allocated : ℤ)
  | lineDiffersFromAllocations (reservationId : ReservationId) (stored total : ℤ)
  | lineOverRecovered (reservationId : ReservationId) (total fullDemand : ℤ)
  deriving DecidableEq

/-- Failures of the settlement services. -/
inductive SettlementError where
  | recomputeBatchNotFound (batchId : BatchId)
  | merchantNotFound (merchantId : MerchantId)
  | noPlatformPricing (asOf : Instant)
  | math (error : MathError)
  | ledgerDivergence (divergence : LedgerDivergence)
  | carriedDemandAlreadyCollected (batchId : BatchId) (exportable collected : ℤ)
      (claimants : List (BatchId × SettlementStatus × ℤ))
  | batchNotFound
  | notApprovable (message : String)
  | payoutAlreadyAttempted
  | notHoldable (status : SettlementStatus)
  | notRetryable (status : SettlementStatus)
  | notSettleable (status : SettlementStatus)

def LedgerDivergence.message : LedgerDivergence → String
  | .inheritedDiffersFromClaim b i c =>
    s!"SETTLEMENT_LEDGER_DIVERGENCE: batch {b} stores inheritedExternalDemandCents={i} but its carried-demand claim records {c}"
  | .carriedOutsideInherited b c i =>
    s!"SETTLEMENT_LEDGER_DIVERGENCE: batch {b} has carriedExternalDemandCents={c} outside [0, {i}]"
  | .clawbackDiffersFromLedger b r e a =>
    s!"SETTLEMENT_LEDGER_DIVERGENCE: batch {b} recorded refundClawbackCents={r} but its ledger accounts for {e} (external) + {a} (lines) = {a+e}"
  | .lineDiffersFromAllocations r s t =>
    s!"SETTLEMENT_LEDGER_DIVERGENCE: line {r} stores clawbackCents={s} but its allocations sum to {t}"
  | .lineOverRecovered r t f =>
    s!"SETTLEMENT_LEDGER_DIVERGENCE: line {r} has been over-recovered — allocations sum to {t} against a full demand of {f}"

/-- The error code sent to an operator; plain errors have none. -/
def SettlementError.errorCode : SettlementError → Option String
  | .recomputeBatchNotFound _ | .merchantNotFound _ | .noPlatformPricing _ | .math _
  | .ledgerDivergence _ => none
  | .carriedDemandAlreadyCollected _ _ _ _ => some "SETTLEMENT_CARRIED_DEMAND_ALREADY_COLLECTED"
  | .batchNotFound => some "SETTLEMENT_BATCH_NOT_FOUND"
  | .notApprovable _ => some "SETTLEMENT_NOT_APPROVABLE"
  | .payoutAlreadyAttempted => some "SETTLEMENT_PAYOUT_ALREADY_ATTEMPTED"
  | .notHoldable _ => some "SETTLEMENT_NOT_HOLDABLE"
  | .notRetryable _ => some "SETTLEMENT_NOT_RETRYABLE"
  | .notSettleable _ => some "SETTLEMENT_NOT_SETTLEABLE"

/-- The text of a failure. -/
def SettlementError.message : SettlementError → String
  | .recomputeBatchNotFound b => s!"recomputeBatch: batch {b} not found"
  | .merchantNotFound _ => "No Merchant found"
  | .noPlatformPricing asOf =>
    s!"No PlatformPricing row is effective on or before {toISOString asOf} — seed migration missing or reverted?"
  | .math e => e.message
  | .ledgerDivergence d => d.message
  | .carriedDemandAlreadyCollected b e c claimants =>
    let listed := ", ".intercalate (claimants.map fun k => s!"{k.1} ({k.2.1.text}, {k.2.2})")
    s!"SETTLEMENT_CARRIED_DEMAND_ALREADY_COLLECTED: batch {b} would export only {e} kuruş after this recompute, but {listed} already withheld {c} kuruş of its demand from a payout that can no longer be recomputed. Refusing to commit — the difference is owed back to the merchant and needs manual reconciliation, not a silent re-derivation."
  | .batchNotFound => "Settlement batch not found."
  | .notApprovable m => m
  | .payoutAlreadyAttempted =>
    "A payout has already been attempted for this batch — its amount is frozen and it can no longer be held. Needs manual reconciliation, not a hold/retry."
  | .notHoldable s => s!"Batch is {s.text}, which cannot be held."
  | .notRetryable s => s!"Batch is {s.text}; nothing to retry."
  | .notSettleable s => s!"Batch is {s.text}; only a SENT batch can be confirmed as settled."

/-- May a pass still rewrite this batch? -/
def Batch.Recomputable (b : Batch) : Prop := b.status ∈ recomputableSettlementStatuses

instance (b : Batch) : Decidable b.Recomputable := by
  unfold Batch.Recomputable
  infer_instance

theorem Batch.recomputable_iff {b : Batch} :
    b.Recomputable ↔ b.status = .calculated ∨ b.status = .held := by
  simp [Batch.Recomputable, recomputableSettlementStatuses]

/-- A line's full clawback demand: everything paid out for it. -/
def fullClawbackDemandCents (line : SettlementLine) : ℤ :=
  max 0 (line.grossCents-line.bagFeeCents-line.bagFeeVatCents-line.withholdingCents)

/-- The fee deficit of a batch as stored. -/
def ownFeeDeficitCents (b : Batch) : ℤ :=
  max 0 (-(b.grossCents-b.bagFeeCents-b.bagFeeVatCents-b.withholdingCents
    -b.membershipOffsetCents))

theorem ownFeeDeficitCents_nonneg (b : Batch) : 0 ≤ ownFeeDeficitCents b := le_max_left _ _

/-- What a successor may take over from a batch; only a held batch exports. -/
def exportableCarriedDemandCents (b : Batch) : ℤ :=
  if b.status ≠ .held then 0 else ownFeeDeficitCents b+b.carriedExternalDemandCents

/-- Is the payout of the line's batch under way or confirmed? -/
def paidOut (status : SettlementStatus) : Prop := status = .sent ∨ status = .settled

instance (status : SettlementStatus) : Decidable (paidOut status) := by
  unfold paidOut
  infer_instance

/-- Has the reservation's payment a refund that is done or on its way? -/
def Reservation.refundClaimed (r : Reservation) : Prop :=
  RefundStatus.done ∈ r.refunds ∨ RefundStatus.sent ∈ r.refunds

instance (r : Reservation) : Decidable r.refundClaimed := by
  unfold Reservation.refundClaimed
  infer_instance

namespace Ledger

variable (l : Ledger)

/-- Sum of the allocations against a line. -/
def allocatedToLine (r : ReservationId) : ℤ :=
  l.allocations.sumOn (fun a => a.reservationId = r) (·.amountCents)

/-- Sum of the allocations a batch owns. -/
def allocatedByBatch (b : BatchId) : ℤ :=
  l.allocations.sumOn (fun a => a.batchId = b) (·.amountCents)

/-- Sum of the claims on a batch. -/
def claimedFrom (b : BatchId) : ℤ :=
  l.claims.sumOn (fun c => c.sourceBatchId = b) (·.amountCents)

/-- The price in force: the latest one effective on or before the date. -/
def resolvePlatformPricing (asOf : Instant) : Except SettlementError PlatformPricing :=
  match greatest (fun p q : PlatformPricing => p.effectiveFrom < q.effectiveFrom)
      (l.pricing.filter fun p => p.effectiveFrom ≤ asOf) with
  | some pricing => .ok pricing
  | none => .error (.noPlatformPricing asOf)

/-- The merchant's override, or else the platform price in force. -/
def resolveBagFeeCentsForMerchant (merchant : Merchant) (asOf : Instant) :
    Except SettlementError ℤ :=
  match merchant.bagFeeCentsOverride with
  | some fee => .ok fee
  | none => (l.resolvePlatformPricing asOf).map (·.bagFeeCents)

end Ledger

/-- The membership balance as one recompute sees it. -/
structure MembershipDueForRecompute where
  merchantId : MerchantId
  dueCents : ℤ
  dueVatCents : ℤ
  alreadyMarkedPaid : Bool
  needsActivation : Bool
  exempt : Bool
  foreignPeriod : Bool
  storedOutstandingCents : ℤ
  storedOutstandingVatCents : ℤ
  batchPriorOffsetCents : ℤ
  batchPriorOffsetVatCents : ℤ

/-- The balance with the batch's own earlier offset added back; an exempt
merchant or a batch of another period may only restore what it offset. -/
def lockAndResolveDue (l : Ledger) (merchantId : MerchantId)
    (batchPriorOffsetCents batchPriorOffsetVatCents : ℤ) (periodDate : Instant)
    (membershipExemptUntil : Option Instant) : Option MembershipDueForRecompute :=
  (l.subscriptions.find? merchantId).map fun sub =>
    let exempt := membershipExemptUntil.any fun t => decide (periodDate < t)
    let foreignPeriod :=
      decide (periodDate < sub.currentPeriodStart ∨ periodDate ≥ sub.currentPeriodEnd)
    let restoreOnly := exempt || foreignPeriod
    { merchantId := sub.merchantId
      dueCents :=
        if restoreOnly then batchPriorOffsetCents else sub.outstandingCents+batchPriorOffsetCents
      dueVatCents :=
        if restoreOnly then batchPriorOffsetVatCents
        else sub.outstandingVatCents+batchPriorOffsetVatCents
      alreadyMarkedPaid := sub.periodPaidAt.isSome
      needsActivation := decide (sub.status = .trial ∨ sub.status = .pastDue)
      exempt
      foreignPeriod
      storedOutstandingCents := sub.outstandingCents
      storedOutstandingVatCents := sub.outstandingVatCents
      batchPriorOffsetCents
      batchPriorOffsetVatCents }

/-- The VAT share of an offset, never more than the offset or the VAT due. -/
def splitMembershipOffsetVat (dueCentsBase dueVatCentsBase appliedOffsetCents : ℤ) : ℤ :=
  if appliedOffsetCents ≤ 0 ∨ dueCentsBase ≤ 0 then 0
  else if appliedOffsetCents ≥ dueCentsBase then dueVatCentsBase
  else
    let proportional := applyRateCents appliedOffsetCents dueVatCentsBase dueCentsBase
    min (min proportional dueVatCentsBase) appliedOffsetCents

/-- Write the balance left after the offset; also return the offset's VAT. -/
def persistOffset (l : Ledger) (due : MembershipDueForRecompute)
    (dueCentsBase dueVatCentsBase appliedOffsetCents : ℤ) (now : Instant) : Ledger × ℤ :=
  let appliedOffsetVatCents :=
    splitMembershipOffsetVat dueCentsBase dueVatCentsBase appliedOffsetCents
  let newOutstanding :=
    max 0 (due.storedOutstandingCents+due.batchPriorOffsetCents-appliedOffsetCents)
  let newOutstandingVat :=
    max 0 (due.storedOutstandingVatCents+due.batchPriorOffsetVatCents-appliedOffsetVatCents)
  let ownPeriod := !due.exempt && !due.foreignPeriod
  let subscriptions := l.subscriptions.updateMany (fun sub => sub.merchantId = due.merchantId)
    (fun sub =>
      { sub with
        outstandingCents := newOutstanding
        outstandingVatCents := newOutstandingVat
        periodPaidAt :=
          if ownPeriod && newOutstanding = 0 && !due.alreadyMarkedPaid then some now
          else sub.periodPaidAt
        status := if ownPeriod && due.needsActivation then .active else sub.status })
    fun _ => rfl
  ({ l with subscriptions }, appliedOffsetVatCents)

end Kurtar.SettlementLedger

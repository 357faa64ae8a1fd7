import Kurtar.SettlementRecompute

/-!
# Committed transactions of the settlement ledger

Every change of the settlement rows is one of the transactions listed here:
finding or creating a batch, a recompute, the guarded status changes of
approval, hold, payout and confirmation, and the business events that other
services commit (prices, exemptions, memberships, reservations, refunds).
`commit` is the ledger's step function; a transaction whose guard matches no
row, or that fails, does not commit.
-/

namespace Kurtar.SettlementTransactions

open KeyedTable GuardedRuns StatusTransitions IstanbulCalendar SettlementMath SettlementLedger
open SettlementRecompute

/-- Changes committed by the services around settlement. -/
inductive BusinessEvent where
  | addMerchant (merchant : Merchant)
  | editBagFeeOverride (merchantId : MerchantId) (bagFeeCentsOverride : Option ℤ)
  | grantExemption (merchantId : MerchantId) (membershipExemptUntil : Option Instant)
  | scheduleFuturePricing (pricing : PlatformPricing)
  | createForApprovedMerchant (merchantId : MerchantId) (approvedAt : Instant)
  | renewOneLocked (merchantId : MerchantId)
  | reserve (reservation : Reservation)
  | redeem (reservationId : ReservationId)
  | markNoShow (reservationId : ReservationId)
  | setPayment (reservationId : ReservationId) (status : PaymentStatus)
      (refunds : List RefundStatus)

/-- One committed transaction. -/
inductive Transaction where
  | createOrExtend (merchantId : MerchantId) (dayKey : DateKey) (freshId : BatchId)
      (clock : Instant)
  | recompute (batchId : BatchId) (now : Instant) (pendingLines : List PendingSettlementLine)
      (clock : Instant)
  | approve (batchId : BatchId)
  | hold (batchId : BatchId) (holdReason : String)
  | stampPayout (batchId : BatchId) (clock : Instant)
  | markSent (batchId : BatchId) (pspTransferRef : String) (clock : Instant)
  | markSettled (batchId : BatchId) (settlementReference : Option String) (now : Instant)
  | business (event : BusinessEvent) (clock : Instant)

/-- The open batch of a merchant's day. -/
def findOpenBatch (l : Ledger) (merchantId : MerchantId) (periodStart : Instant) : Option Batch :=
  l.batches.rows.find? fun b =>
    b.merchantId = merchantId ∧ b.periodStart = periodStart ∧ b.Recomputable

/-- The row of a batch that was just created. -/
def newBatch (merchantId : MerchantId) (periodStart : Instant) (id : BatchId)
    (createdAt : Instant) : Batch :=
  { id, merchantId, periodStart, createdAt
    periodEnd := periodStart+24*60*60*1000
    status := .calculated }

/-- Find the open batch of the day or create an empty one. -/
def findOrCreateBatch (l : Ledger) (merchantId : MerchantId) (dayKey : DateKey)
    (freshId : BatchId) (clock : Instant) : Option (Ledger × BatchId) :=
  let periodStart := offerDateToDbDate dayKey
  match findOpenBatch l merchantId periodStart with
  | some batch => some (l, batch.id)
  | none =>
    if l.batches.find? freshId = none then
      let batch := newBatch merchantId periodStart freshId clock
      some ({ l with batches := l.batches.insertNew batch }, freshId)
    else none

/-- Guarded update of one batch; nothing is committed when the guard fails. -/
def updateBatch (l : Ledger) (batchId : BatchId) (guard : Batch → Prop) [DecidablePred guard]
    (f : Batch → Batch) (hf : ∀ b, (f b).id = b.id) : Option Ledger :=
  if ∃ b ∈ l.batches.rows, b.id = batchId ∧ guard b then
    some { l with batches := l.batches.updateMany (fun b => b.id = batchId ∧ guard b) f hf }
  else none

/-- Approval: the flip is guarded on the status alone. -/
def approveBatch (l : Ledger) (batchId : BatchId) : Option Ledger :=
  updateBatch l batchId (fun b => b.status ∈ allowedSettlementFrom .approved)
    (fun b => { b with status := .approved }) fun _ => rfl

/-- A hold is refused once a payout was attempted. -/
def holdBatch (l : Ledger) (batchId : BatchId) (holdReason : String) : Option Ledger :=
  updateBatch l batchId
    (fun b => b.status ∈ allowedSettlementFrom .held ∧ b.payoutAttemptedAt = none)
    (fun b => { b with status := .held, holdReason := some holdReason }) fun _ => rfl

/-- The stamp that freezes the amount before the provider is asked. -/
def stampPayoutAttempt (l : Ledger) (batchId : BatchId) (clock : Instant) : Option Ledger :=
  updateBatch l batchId (fun b => b.status = .approved ∧ b.payoutAttemptedAt = none)
    (fun b => { b with payoutAttemptedAt := some clock }) fun _ => rfl

def markBatchSent (l : Ledger) (batchId : BatchId) (pspTransferRef : String) (clock : Instant) :
    Option Ledger :=
  updateBatch l batchId (fun b => b.status ∈ allowedSettlementFrom .sent)
    (fun b => { b with
      status := .sent, pspTransferRef := some pspTransferRef, sentAt := some clock }) fun _ => rfl

def markBatchSettled (l : Ledger) (batchId : BatchId) (settlementReference : Option String)
    (now : Instant) : Option Ledger :=
  updateBatch l batchId (fun b => b.status ∈ allowedSettlementFrom .settled)
    (fun b => { b with
      status := .settled, settledAt := some now, settlementReference }) fun _ => rfl

/-- VAT on the annual membership price. -/
def computeMembershipVatCents (priceCents : ℤ) : ℤ := applyRateCents priceCents 20 100

/-- Price and VAT of a period; an exempt period is free. -/
def membershipPrice (l : Ledger) (exempt : Bool) (asOf : Instant) :
    Except SettlementError (ℤ × ℤ) :=
  if exempt then .ok (0, 0)
  else (l.resolvePlatformPricing asOf).map fun pricing =>
    (pricing.membershipAnnualCents, computeMembershipVatCents pricing.membershipAnnualCents)

/-- Is the date before the end of the merchant's exemption? -/
def exemptAt (merchant : Option Merchant) (date : Instant) : Bool :=
  ((merchant.bind (·.membershipExemptUntil)).any fun t => decide (date < t))

/-- First membership of an approved merchant; a second one is not created. -/
def createSubscription (l : Ledger) (merchantId : MerchantId) (approvedAt : Instant) :
    Option Ledger :=
  match l.merchants.find? merchantId with
  | none => none
  | some merchant =>
    match membershipPrice l (exemptAt (some merchant) approvedAt) approvedAt with
    | .error _ => none
    | .ok (priceCents, vatCents) =>
      let totalDueCents := priceCents+vatCents
      some { l with
        subscriptions := l.subscriptions.insertNew
          { merchantId
            anchorDate := approvedAt
            currentPeriodStart := approvedAt
            currentPeriodEnd := addAnniversaryYears approvedAt 1
            priceCents
            vatCents
            status := .trial
            outstandingCents := totalDueCents
            outstandingVatCents := vatCents
            periodPaidAt := if totalDueCents = 0 then some approvedAt else none } }

/-- Advance a period year by year until it ends after `now`. -/
def catchUpPeriod : ℕ → Instant → Instant → Instant → Instant × Instant
  | 0, periodStart, periodEnd, _ => (periodStart, periodEnd)
  | fuel+1, periodStart, periodEnd, now =>
    if periodEnd ≤ now then
      catchUpPeriod fuel periodEnd (addAnniversaryYears periodEnd 1) now
    else (periodStart, periodEnd)

/-- Statuses whose membership is renewed. -/
def renewable (status : MembershipStatus) : Prop :=
  status = .trial ∨ status = .active ∨ status = .pastDue

instance (status : MembershipStatus) : Decidable (renewable status) := by
  unfold renewable
  infer_instance

/-- Renewal of an ended period: the unpaid balance is written off and the
period that contains `now` is opened. -/
def renewSubscription (l : Ledger) (merchantId : MerchantId) (now : Instant) : Option Ledger :=
  match l.subscriptions.find? merchantId with
  | none => none
  | some sub =>
    if sub.currentPeriodEnd > now ∨ ¬ renewable sub.status then none
    else
      let first := addAnniversaryYears sub.currentPeriodEnd 1
      let fuel := ((now-sub.currentPeriodEnd)/(365*dayMs)).toNat+1
      let period := catchUpPeriod fuel sub.currentPeriodEnd first now
      match membershipPrice l (exemptAt (l.merchants.find? merchantId) period.1) period.1 with
      | .error _ => none
      | .ok (priceCents, vatCents) =>
        let totalDueCents := priceCents+vatCents
        let writeOffCents := sub.outstandingCents
        let writeOffVatCents := sub.outstandingVatCents
        let writesOff : Bool := decide (writeOffCents > 0)
        some { l with
          subscriptions := l.subscriptions.updateMany (fun s => s.merchantId = merchantId)
            (fun s =>
              { s with
                currentPeriodStart := period.1
                currentPeriodEnd := period.2
                priceCents
                vatCents
                outstandingCents := totalDueCents
                outstandingVatCents := vatCents
                periodPaidAt := if totalDueCents = 0 then some period.1 else none
                writtenOffCents := s.writtenOffCents+if writesOff then writeOffCents else 0
                writtenOffVatCents :=
                  s.writtenOffVatCents+if writesOff then writeOffVatCents else 0
                status := if writesOff then .pastDue else s.status })
            fun _ => rfl }

/-- Guarded update of one reservation row. -/
def updateReservation (l : Ledger) (reservationId : ReservationId) (guard : Reservation → Prop)
    [DecidablePred guard] (f : Reservation → Reservation) (hf : ∀ r, (f r).id = r.id) :
    Option Ledger :=
  if ∃ r ∈ l.reservations.rows, r.id = reservationId ∧ guard r then
    some { l with
      reservations := l.reservations.updateMany (fun r => r.id = reservationId ∧ guard r) f hf }
  else none

/-- The effect of a business event. -/
def commitBusiness (l : Ledger) (clock : Instant) : BusinessEvent → Option Ledger
  | .addMerchant merchant => some { l with merchants := l.merchants.insertNew merchant }
  | .editBagFeeOverride merchantId bagFeeCentsOverride =>
    some { l with
      merchants := l.merchants.updateMany (fun m => m.id = merchantId)
        (fun m => { m with bagFeeCentsOverride }) fun _ => rfl }
  | .grantExemption merchantId membershipExemptUntil =>
    some { l with
      merchants := l.merchants.updateMany (fun m => m.id = merchantId)
        (fun m => { m with membershipExemptUntil }) fun _ => rfl }
  | .scheduleFuturePricing pricing =>
    if pricing.effectiveFrom ≤ clock then none else some { l with pricing := pricing :: l.pricing }
  | .createForApprovedMerchant merchantId approvedAt => createSubscription l merchantId approvedAt
  | .renewOneLocked merchantId => renewSubscription l merchantId clock
  | .reserve reservation =>
    if reservation.status = .confirmed ∧ reservation.redeemedAt = none ∧
        reservation.paymentStatus = .paid ∧ reservation.refunds = [] ∧
        0 < reservation.qty ∧ 0 ≤ reservation.totalCents then
      some { l with reservations := l.reservations.insertNew reservation }
    else none
  | .redeem reservationId =>
    updateReservation l reservationId (fun r => r.status = .confirmed)
      (fun r => { r with status := .redeemed, redeemedAt := some clock }) fun _ => rfl
  | .markNoShow reservationId =>
    updateReservation l reservationId (fun r => r.status = .confirmed)
      (fun r => { r with status := .noShow }) fun _ => rfl
  | .setPayment reservationId status refunds =>
    updateReservation l reservationId (fun _ => True)
      (fun r => { r with paymentStatus := status, refunds }) fun _ => rfl

/-- The ledger's step function. -/
def commit (l : Ledger) : Transaction → Option Ledger
  | .createOrExtend merchantId dayKey freshId clock =>
    (findOrCreateBatch l merchantId dayKey freshId clock).map Prod.fst
  | .recompute batchId now pendingLines clock =>
    match recomputeBatch l batchId now pendingLines clock with
    | .ok result => some result.1
    | .error _ => none
  | .approve batchId => approveBatch l batchId
  | .hold batchId holdReason => holdBatch l batchId holdReason
  | .stampPayout batchId clock => stampPayoutAttempt l batchId clock
  | .markSent batchId pspTransferRef clock => markBatchSent l batchId pspTransferRef clock
  | .markSettled batchId settlementReference now =>
    markBatchSettled l batchId settlementReference now
  | .business event clock => commitBusiness l clock event

/-- A ledger before its first transaction; merchants and prices may exist already. -/
structure Empty (l : Ledger) : Prop where
  batches : l.batches = Table.empty
  lines : l.lines = Table.empty
  allocations : l.allocations = Table.empty
  claims : l.claims = Table.empty
  subscriptions : l.subscriptions = Table.empty
  reservations : l.reservations = Table.empty

/-- The ledgers reached by transactions that satisfy a condition. -/
abbrev LedgerReachable (ok : Ledger → Transaction → Prop) : Ledger → Prop :=
  Reachable commit ok Empty

end Kurtar.SettlementTransactions

import Mathlib.Data.List.Sort
import Kurtar.Marketplace

/-!
# Transactions of reservations and payments

Each function is one database transaction of the reservation or payment
service, or one of its guarded statements, as a function of the stored rows.
A transaction that throws leaves no state behind.
-/

namespace Kurtar.ReservationTransactions

open KeyedTable StatusTransitions IstanbulCalendar Marketplace

/-- Refusals of the reservation endpoints. -/
inductive ReservationError where
  | offerNotFound
  | offerUnavailable
  | reservationNotFound
  | notOwner
  | notCancellable
  | notYours (redeemer : Redeemer)
  | notRedeemable (status : ReservationStatus)
  | pickupNotStarted (pickupStartAt pickupEndAt : Instant)
  | pickupWindowPassed (pickupStartAt pickupEndAt : Instant)
  | notRefundable
  | paymentProviderUnavailable
  /-- A reservation without payment, against the data invariant. -/
  | paymentMissing (reservationId : ReservationId)
  /-- A unique index refused an insert for the last time. -/
  | uniqueViolation

/-- Body of a refusal. -/
structure ErrorResponse where
  statusCode : ℕ
  errorCode : String
  message : String
  pickupWindow : Option (String × String) := none
  deriving DecidableEq

/-- The refusal of a redeem by the status of the reservation. -/
def redeemRejectionByStatus : ReservationStatus → String × String
  | .pendingPayment =>
    ("RESERVATION_PAYMENT_INCOMPLETE", "This reservation's payment has not completed yet.")
  | .confirmed =>
    ("RESERVATION_NOT_REDEEMABLE", "This reservation cannot be redeemed right now.")
  | .redeemed =>
    ("RESERVATION_ALREADY_REDEEMED", "This reservation has already been redeemed.")
  | .cancelledByUser =>
    ("RESERVATION_CANCELLED_BY_USER", "This reservation was cancelled by the customer.")
  | .cancelledByMerchant =>
    ("RESERVATION_CANCELLED_BY_MERCHANT",
      "The merchant cancelled this offer, so the reservation was cancelled and refunded.")
  | .noShow => ("RESERVATION_NO_SHOW", "This reservation was marked as not collected.")
  | .expired => ("RESERVATION_EXPIRED", "This reservation expired before it was collected.")

def ReservationError.response : ReservationError → ErrorResponse
  | .offerNotFound => ⟨404, "OFFER_NOT_FOUND", "This offer does not exist.", none⟩
  | .offerUnavailable => ⟨409, "OFFER_UNAVAILABLE", "This offer is no longer available.", none⟩
  | .reservationNotFound => ⟨404, "RESERVATION_NOT_FOUND", "Reservation not found.", none⟩
  | .notOwner => ⟨403, "FORBIDDEN", "This reservation does not belong to you.", none⟩
  | .notCancellable =>
    ⟨409, "RESERVATION_NOT_CANCELLABLE", "This reservation can no longer be cancelled.", none⟩
  | .notYours (.consumer _) =>
    ⟨403, "RESERVATION_NOT_YOURS", "This reservation does not belong to you.", none⟩
  | .notYours (.merchant _ _) =>
    ⟨403, "RESERVATION_NOT_YOURS", "This reservation does not belong to your store.", none⟩
  | .notRedeemable status =>
    ⟨409, (redeemRejectionByStatus status).1, (redeemRejectionByStatus status).2, none⟩
  | .pickupNotStarted pickupStartAt pickupEndAt =>
    ⟨409, "RESERVATION_PICKUP_NOT_STARTED",
      "The pickup window for this reservation has not started yet.",
      some (toISOString pickupStartAt, toISOString pickupEndAt)⟩
  | .pickupWindowPassed pickupStartAt pickupEndAt =>
    ⟨409, "RESERVATION_PICKUP_WINDOW_PASSED",
      "The pickup window for this reservation has already closed.",
      some (toISOString pickupStartAt, toISOString pickupEndAt)⟩
  | .notRefundable =>
    ⟨409, "RESERVATION_NOT_REFUNDABLE", "This reservation cannot be refunded right now.", none⟩
  | .paymentProviderUnavailable =>
    ⟨503, "PAYMENT_PROVIDER_UNAVAILABLE",
      "Could not start payment for this reservation. Please try again.", none⟩
  | .paymentMissing reservationId =>
    ⟨500, "", s!"Reservation {reservationId} has no Payment row (data invariant violated)", none⟩
  | .uniqueViolation => ⟨500, "", "Unique constraint failed", none⟩

section Create

def cancelDeadlineBeforePickupMs : ℤ := 2*hourMs
def maxCodeAttempts : ℕ := 5

/-- Quantities the endpoint accepts. -/
def validReservationQty (qty : ℤ) : Prop := 1 ≤ qty ∧ qty ≤ 5

instance : DecidablePred validReservationQty := fun qty => by
  unfold validReservationQty
  infer_instance

/-- A call of the create endpoint with the identities generated for its rows. -/
structure CreateCall where
  userId : UserId
  offerId : OfferId
  qty : ℤ
  now : Instant
  reservationId : ReservationId
  merchantOid : MerchantOid

/-- What a committed creation hands to the payment step. -/
structure CommittedReservation where
  reservationId : ReservationId
  code : Code
  offerId : OfferId
  qty : ℤ
  totalCents : ℤ
  merchantOid : MerchantOid
  deriving DecidableEq

/-- Why one attempt of a creation rolled back. -/
inductive AttemptFailure where
  | codeTaken
  | refused (error : ReservationError)

/-- An offer joined with its template. -/
def offerWithTemplate (m : Market) (offerId : OfferId) : Option (Offer × BagTemplate) :=
  (m.offers.find? offerId).bind fun offer =>
    (m.bagTemplates.find? offer.bagTemplateId).map fun bagTemplate => (offer, bagTemplate)

def newReservation (call : CreateCall) (code : Code) (offer : Offer) (bagTemplate : BagTemplate) :
    Reservation :=
  { id := call.reservationId
    code
    userId := call.userId
    offerId := call.offerId
    storeId := offer.storeId
    qty := call.qty
    unitPriceCents := bagTemplate.priceCents
    totalCents := bagTemplate.priceCents*call.qty
    cancelDeadlineAt := offer.pickupStartAt-cancelDeadlineBeforePickupMs
    createdAt := call.now }

def newPayment (call : CreateCall) (reservation : Reservation) : Payment :=
  { reservationId := reservation.id
    merchantOid := call.merchantOid
    amountCents := reservation.totalCents
    createdAt := call.now }

/-- Are the generated identities of the call in use? -/
def identityTaken (m : Market) (call : CreateCall) : Prop :=
  (∃ r ∈ m.reservations.rows, r.id = call.reservationId) ∨
    ∃ p ∈ m.payments.rows, p.reservationId = call.reservationId ∨ p.merchantOid = call.merchantOid

instance (m : Market) (call : CreateCall) : Decidable (identityTaken m call) := by
  unfold identityTaken
  infer_instance

/-- One attempt: claim the stock, then store the reservation and its payment. -/
def createReservation (m : Market) (call : CreateCall) (code : Code) :
    Except AttemptFailure (Market × CommittedReservation) :=
  match offerWithTemplate m call.offerId with
  | none => .error (.refused .offerNotFound)
  | some (offer, bagTemplate) =>
    match claim m call.offerId call.qty with
    | none => .error (.refused .offerUnavailable)
    | some claimed =>
      if ∃ r ∈ m.reservations.rows, r.code = code then .error .codeTaken
      else if identityTaken m call then .error (.refused .uniqueViolation)
      else
        let reservation := newReservation call code offer bagTemplate
        .ok ({ claimed with
            reservations := m.reservations.insertNew reservation
            payments := m.payments.insertNew (newPayment call reservation) },
          { reservationId := call.reservationId
            code
            offerId := call.offerId
            qty := call.qty
            totalCents := reservation.totalCents
            merchantOid := call.merchantOid })

/-- Retry the whole transaction with the next code while codes collide. -/
def createReservationWithRetry (m : Market) (call : CreateCall) :
    List Code → Except ReservationError (Market × CommittedReservation)
  | [] => .error .uniqueViolation
  | code :: codes =>
    match createReservation m call code with
    | .error .codeTaken => createReservationWithRetry m call codes
    | .error (.refused e) => .error e
    | .ok result => .ok result

end Create

section Payments

def markFailed (p : Payment) : Payment := { p with status := .failed }
def markExpired (r : Reservation) : Reservation := { r with status := .expired }

theorem markFailed_reservationId (p : Payment) :
    (markFailed p).reservationId = p.reservationId := rfl

theorem markExpired_id (r : Reservation) : (markExpired r).id = r.id := rfl

/-- Undo a committed creation whose payment could not be started. -/
def compensateFailedIntent (m : Market) (committed : CommittedReservation) : Market :=
  match m.paymentOf committed.merchantOid with
  | none => m
  | some payment =>
    match m.updatePayment payment.reservationId (fun p => p.status = .intent) markFailed
        fun _ => rfl with
    | none => m
    | some failed =>
      match failed.updateReservation committed.reservationId
          (fun r => r.status ∈ allowedReservationFrom .expired) markExpired fun _ => rfl with
      | none => failed
      | some expired => release expired committed.offerId committed.qty

/-- Outcome the provider reports for a charge. -/
inductive EventStatus where
  | success | failed
  deriving DecidableEq

/-- A verified delivery of the payment provider, or its imitation by the sweeper. -/
structure ProviderEvent where
  merchantOid : MerchantOid
  status : EventStatus
  totalCents : ℤ
  externalEventId : EventId
  deriving DecidableEq

inductive SettleOutcome where
  | confirmed | expired | amountMismatchQuarantined | duplicate | unknownMerchantOid
  | alreadyTerminal | chargedAfterFailed | orphanedSuccess
  deriving DecidableEq

/-- A payment joined with its reservation and offer. -/
def paymentWithReservation (m : Market) (merchantOid : MerchantOid) :
    Option (Payment × Reservation × Offer) :=
  (m.paymentOf merchantOid).bind fun payment =>
    (m.reservations.find? payment.reservationId).bind fun reservation =>
      (m.offers.find? reservation.offerId).map fun offer => (payment, reservation, offer)

/-- Give up on a payment; the stock follows only if the reservation did. -/
def expireAndRelease (m : Market) (payment : Payment) (reservation : Reservation)
    (outcome : SettleOutcome) : Market × SettleOutcome :=
  match m.updatePayment payment.reservationId (fun p => liveIntent p.status) markFailed
      fun _ => rfl with
  | none => (m, .alreadyTerminal)
  | some failed =>
    match failed.updateReservation payment.reservationId
        (fun r => r.status ∈ allowedReservationFrom .expired) markExpired fun _ => rfl with
    | none => (failed, outcome)
    | some expired => (release expired reservation.offerId reservation.qty, outcome)

def markPaid (clock : Instant) (p : Payment) : Payment :=
  { p with status := .paid, paidAt := some clock }

def markConfirmed (r : Reservation) : Reservation := { r with status := .confirmed }

def confirmedEvent (reservation : Reservation) (offer : Offer) : OutboxEvent :=
  .reservationConfirmed reservation.id reservation.userId reservation.storeId reservation.offerId
    reservation.code offer.pickupStartAt offer.pickupEndAt

def settleSuccess (m : Market) (payment : Payment) (reservation : Reservation) (offer : Offer)
    (clock : Instant) : Market × SettleOutcome :=
  match m.updatePayment payment.reservationId (fun p => liveIntent p.status) (markPaid clock)
      fun _ => rfl with
  | none =>
    if ∃ p ∈ m.payments.rows, p.reservationId = payment.reservationId ∧ p.status = .failed then
      (m, .chargedAfterFailed)
    else (m, .alreadyTerminal)
  | some paid =>
    match paid.updateReservation payment.reservationId
        (fun r => r.status ∈ allowedReservationFrom .confirmed) markConfirmed fun _ => rfl with
    | none => (m, .orphanedSuccess)
    | some confirmed => (confirmed.publish (confirmedEvent reservation offer), .confirmed)

/-- The settling transaction of an event that was not seen before. -/
def settle (m : Market) (event : ProviderEvent) (clock : Instant) : Market × SettleOutcome :=
  match paymentWithReservation m event.merchantOid with
  | none => (m, .unknownMerchantOid)
  | some (payment, reservation, offer) =>
    match event.status with
    | .success =>
      if event.totalCents = payment.amountCents then
        settleSuccess m payment reservation offer clock
      else expireAndRelease m payment reservation .amountMismatchQuarantined
    | .failed => expireAndRelease m payment reservation .expired

end Payments

section Cancel

/-- A refund to request from the provider, with the status it may end. -/
structure RefundCall where
  reservationId : ReservationId
  merchantOid : MerchantOid
  amountCents : ℤ
  reason : RefundReason
  requestedByType : RefundRequester
  fromStatus : PaymentStatus := .paid
  deriving DecidableEq

/-- End a payment that the provider may still settle; a missing one is ignored. -/
def failLiveIntent (m : Market) (reservationId : ReservationId) : Market :=
  (m.updatePayment reservationId (fun p => liveIntent p.status) markFailed fun _ => rfl).getD m

def markCancelledByUser (r : Reservation) : Reservation := { r with status := .cancelledByUser }

/-- Try the given statuses in order; the one that matched is returned. -/
def cancelFromFirst (m : Market) (reservationId : ReservationId) (now : Instant) :
    List ReservationStatus → Option (Market × ReservationStatus)
  | [] => none
  | fromStatus :: rest =>
    match m.updateReservation reservationId
        (fun r => r.status = fromStatus ∧ r.cancelDeadlineAt > now) markCancelledByUser
        fun _ => rfl with
    | some cancelled => some (cancelled, fromStatus)
    | none => cancelFromFirst m reservationId now rest

/-- The cancelling transaction, with the status the reservation had. -/
def cancelReservation (m : Market) (reservation : Reservation) (now : Instant) :
    Option (Market × ReservationStatus) :=
  (cancelFromFirst (failLiveIntent m reservation.id) reservation.id now
      (allowedReservationFrom .cancelledByUser)).map fun (cancelled, matchedFrom) =>
    (release cancelled reservation.offerId reservation.qty, matchedFrom)

/-- Consumer cancel up to its commit, with the refund that is then due. -/
def cancel (m : Market) (userId : UserId) (reservationId : ReservationId) (now : Instant) :
    Except ReservationError (Market × Option RefundCall) :=
  match m.reservations.find? reservationId with
  | none => .error .reservationNotFound
  | some reservation =>
    if reservation.userId ≠ userId then .error .notOwner
    else
      match m.payments.find? reservationId with
      | none => .error (.paymentMissing reservationId)
      | some payment =>
        match cancelReservation m reservation now with
        | none => .error .notCancellable
        | some (cancelled, matchedFrom) =>
          .ok (cancelled,
            if matchedFrom = .confirmed then
              some
                { reservationId
                  merchantOid := payment.merchantOid
                  amountCents := payment.amountCents
                  reason := .userCancel
                  requestedByType := .consumer }
            else none)

end Cancel

section Refunds

def refundRow (call : RefundCall) (pspRefundId : Option String) (status : RefundStatus) : Refund :=
  { reservationId := call.reservationId
    amountCents := call.amountCents
    reason := call.reason
    pspRefundId
    status
    requestedByType := call.requestedByType }

def storeRefund (m : Market) (refund : Refund) : Market :=
  { m with refunds := refund :: m.refunds }

def markRefunded (p : Payment) : Payment := { p with status := .refunded }

/-- Move the payment out of the status the refund may end; a miss is ignored. -/
def moveRefunded (m : Market) (call : RefundCall) : Market :=
  (m.updatePayment call.reservationId (fun p => p.status = call.fromStatus) markRefunded
    fun _ => rfl).getD m

/-- The bookkeeping transaction after the provider refunded. -/
def recordRefund (m : Market) (call : RefundCall) (refundRef : String) : Market :=
  moveRefunded (storeRefund m (refundRow call (some refundRef) .done)) call

def markRefundPending (p : Payment) : Payment := { p with status := .refundPending }
def unmarkRefundPending (p : Payment) : Payment := { p with status := .paid }

/-- Claim the payment of a collected or missed reservation for a refund. -/
def claimRefund (m : Market) (reservationId : ReservationId) :
    Except ReservationError (Market × RefundCall) :=
  match m.reservations.find? reservationId with
  | none => .error .reservationNotFound
  | some reservation =>
    match m.payments.find? reservationId with
    | none => .error (.paymentMissing reservationId)
    | some payment =>
      if reservation.status ≠ .redeemed ∧ reservation.status ≠ .noShow then .error .notRefundable
      else
        match m.updatePayment reservationId (fun p => p.status = .paid) markRefundPending
            fun _ => rfl with
        | none => .error .notRefundable
        | some claimed =>
          .ok (claimed,
            { reservationId
              merchantOid := payment.merchantOid
              amountCents := payment.amountCents
              reason := .complaint
              requestedByType := .admin
              fromStatus := .refundPending })

/-- Give the claim back after the provider refused. -/
def releaseRefundClaim (m : Market) (reservationId : ReservationId) : Market :=
  (m.updatePayment reservationId (fun p => p.status = .refundPending) unmarkRefundPending
    fun _ => rfl).getD m

end Refunds

section Pickup

def ratingInviteDelayMs : ℤ := 2*hourMs
def noShowGraceMs : ℤ := hourMs
def noShowBatchLimit : ℕ := 500

/-- A reservation as a redeem call read it, with its offer and template. -/
structure RedeemRead where
  reservation : Reservation
  offer : Offer
  bagTemplate : BagTemplate

/-- Does the reservation belong to the caller? -/
def redeemAuthorized (m : Market) (redeemer : Redeemer) (reservation : Reservation) : Prop :=
  match redeemer with
  | .consumer userId => reservation.userId = userId
  | .merchant _ merchantId =>
    ∃ s ∈ m.stores.rows, s.id = reservation.storeId ∧ s.merchantId = merchantId

instance (m : Market) (redeemer : Redeemer) (reservation : Reservation) :
    Decidable (redeemAuthorized m redeemer reservation) := by
  unfold redeemAuthorized
  cases redeemer <;> infer_instance

/-- The checks of a redeem call; a replay has nothing left to do. -/
def checkRedeem (m : Market) (redeemer : Redeemer) (reservationId : ReservationId)
    (now : Instant) : Except ReservationError (Option RedeemRead) :=
  match m.reservations.find? reservationId with
  | none => .error .reservationNotFound
  | some reservation =>
    match offerWithTemplate m reservation.offerId with
    | none => .error .reservationNotFound
    | some (offer, bagTemplate) =>
      if ¬ redeemAuthorized m redeemer reservation then .error (.notYours redeemer)
      else if reservation.status = .redeemed then .ok none
      else if reservation.status ∉ allowedReservationFrom .redeemed then
        .error (.notRedeemable reservation.status)
      else if now < offer.pickupStartAt then
        .error (.pickupNotStarted offer.pickupStartAt offer.pickupEndAt)
      else if now > offer.pickupEndAt then
        .error (.pickupWindowPassed offer.pickupStartAt offer.pickupEndAt)
      else .ok (some { reservation, offer, bagTemplate })

def markRedeemed (redeemer : Redeemer) (attemptedAt : Instant) (r : Reservation) : Reservation :=
  { r with status := .redeemed, redeemedAt := some attemptedAt, redeemedBy := some redeemer }

/-- The events of a redeem: the rating invite and the impact entry. -/
def publishRedeemed (m : Market) (read : RedeemRead) (attemptedAt : Instant) : Market :=
  (m.publish (.reservationRedeemed read.reservation.id read.reservation.userId
      read.reservation.storeId (attemptedAt+ratingInviteDelayMs))).publish
    (.reservationRedeemedImpact read.reservation.id read.reservation.userId
      read.reservation.storeId read.reservation.qty read.reservation.totalCents
      read.bagTemplate.originalValueCentsMin read.bagTemplate.originalValueCentsMax)

/-- The redeeming transaction, with the time it reports. -/
def redeem (m : Market) (redeemer : Redeemer) (read : RedeemRead) (attemptedAt : Instant) :
    Except ReservationError (Market × Option Instant) :=
  match m.updateReservation read.reservation.id
      (fun r => r.status ∈ allowedReservationFrom .redeemed) (markRedeemed redeemer attemptedAt)
      fun _ => rfl with
  | none =>
    match m.reservations.find? read.reservation.id with
    | none => .error .reservationNotFound
    | some current =>
      if current.status = .redeemed then .ok (m, current.redeemedAt)
      else .error (.notRedeemable current.status)
  | some redeemed =>
    match redeemed.updateOffer read.reservation.offerId (fun _ => True)
        (redeemRow read.reservation.qty) fun _ => rfl with
    | none => .error .offerNotFound
    | some counted => .ok (publishRedeemed counted read attemptedAt, some attemptedAt)

/-- Is the reservation confirmed, its window closed longer than the grace period ago? -/
def missedPickup (m : Market) (now : Instant) (r : Reservation) : Prop :=
  r.status ∈ allowedReservationFrom .noShow ∧
    ∃ o ∈ m.offers.rows, o.id = r.offerId ∧ o.pickupEndAt < now-noShowGraceMs

instance (m : Market) (now : Instant) : DecidablePred (missedPickup m now) := fun r => by
  unfold missedPickup
  infer_instance

/-- The oldest reservations that one sweep takes. -/
def uncollected (m : Market) (now : Instant) : List ReservationId :=
  (((m.reservations.rows.filter fun r => missedPickup m now r).insertionSort
    fun a b => a.createdAt ≤ b.createdAt).take noShowBatchLimit).map (·.id)

def markedNoShow (r : Reservation) : Reservation := { r with status := .noShow }

def markNoShow (m : Market) (reservationId : ReservationId) : Option Market :=
  m.updateReservation reservationId (fun r => r.status ∈ allowedReservationFrom .noShow)
    markedNoShow fun _ => rfl

end Pickup

end Kurtar.ReservationTransactions

import Kurtar.ReservationTransactions

/-!
# Offers from draft to cancellation

The guarded status changes of an offer, and its cancellation: one long
transaction that locks the offer row, reads the live reservations, and then
ends their payments and reservations one statement at a time. Its own writes
stay in its record until it commits, since no other transaction sees them.
-/

namespace Kurtar.OfferLifecycle

open KeyedTable StatusTransitions IstanbulCalendar Marketplace ReservationTransactions

/-- Refusals of the offer endpoints. -/
inductive OfferError where
  | offerNotFound
  | bagTemplateNotFound
  | notStoreOwner
  | bagTemplateInactive
  | windowStartNotBeforeEnd
  | windowNotFuture
  | windowNotSameDay (offerDate startDay endDay : DateKey)
  | dateAlreadyExists
  | pickupWindowPassed
  | notPublishable (status : OfferStatus)
  | scheduleNotFuture
  | notSchedulable
  | notCloseable
  | notCancellable (status : OfferStatus)

def OfferError.response : OfferError → ErrorResponse
  | .offerNotFound => ⟨404, "OFFER_NOT_FOUND", "Offer not found.", none⟩
  | .bagTemplateNotFound => ⟨404, "BAG_TEMPLATE_NOT_FOUND", "Bag template not found.", none⟩
  | .notStoreOwner => ⟨403, "FORBIDDEN", "This store does not belong to you.", none⟩
  | .bagTemplateInactive =>
    ⟨409, "BAG_TEMPLATE_INACTIVE",
      "This bag template has been deactivated and can no longer be used for new offers.", none⟩
  | .windowStartNotBeforeEnd =>
    ⟨400, "OFFER_WINDOW_START_NOT_BEFORE_END", "pickupStartAt must be before pickupEndAt.", none⟩
  | .windowNotFuture =>
    ⟨400, "OFFER_WINDOW_NOT_FUTURE", "pickupStartAt must be in the future.", none⟩
  | .windowNotSameDay offerDate startDay endDay =>
    ⟨400, "OFFER_WINDOW_NOT_SAME_DAY",
      s!"pickupStartAt/pickupEndAt must fall on offerDate ({dateKeyText offerDate}) in " ++
        s!"Europe/Istanbul local time (got {dateKeyText startDay}..{dateKeyText endDay}).", none⟩
  | .dateAlreadyExists =>
    ⟨409, "OFFER_DATE_ALREADY_EXISTS",
      "An offer for this bag template already exists on this date.", none⟩
  | .pickupWindowPassed =>
    ⟨409, "OFFER_PICKUP_WINDOW_PASSED", "This offer's pickup window has already passed.", none⟩
  | .notPublishable status =>
    ⟨409, "OFFER_NOT_PUBLISHABLE", s!"Offer is in {status.text}, which cannot be published.", none⟩
  | .scheduleNotFuture =>
    ⟨400, "OFFER_SCHEDULE_NOT_FUTURE", "publishAt must be in the future.", none⟩
  | .notSchedulable =>
    ⟨409, "OFFER_NOT_SCHEDULABLE", "Offer cannot be scheduled from its current status.", none⟩
  | .notCloseable =>
    ⟨409, "OFFER_NOT_CLOSEABLE", "Offer cannot be closed from its current status.", none⟩
  | .notCancellable status =>
    ⟨409, "OFFER_NOT_CANCELLABLE", s!"Offer is in {status.text}, which cannot be cancelled.", none⟩

section StatusChanges

def ownsStore (m : Market) (merchantId : MerchantId) (storeId : StoreId) : Prop :=
  ∃ s ∈ m.stores.rows, s.id = storeId ∧ s.merchantId = merchantId

instance (m : Market) (merchantId : MerchantId) (storeId : StoreId) :
    Decidable (ownsStore m merchantId storeId) := by
  unfold ownsStore
  infer_instance

def assertOwnedOffer (m : Market) (merchantId : MerchantId) (offerId : OfferId) :
    Except OfferError Offer :=
  match m.offers.find? offerId with
  | none => .error .offerNotFound
  | some offer => if ownsStore m merchantId offer.storeId then .ok offer else .error .notStoreOwner

/-- Body of the create endpoint. -/
structure CreateOfferDto where
  bagTemplateId : BagTemplateId
  offerDate : DateKey
  qtyTotal : ℤ
  pickupStartAt : Instant
  pickupEndAt : Instant

/-- Quantities the endpoint accepts. -/
def validOfferQty (qtyTotal : ℤ) : Prop := 1 ≤ qtyTotal ∧ qtyTotal ≤ 100

instance : DecidablePred validOfferQty := fun qtyTotal => by
  unfold validOfferQty
  infer_instance

/-- The window is nonempty, in the future, and on one Istanbul day. -/
def validateOfferWindow (dto : CreateOfferDto) (now : Instant) : Except OfferError Unit :=
  if dto.pickupStartAt ≥ dto.pickupEndAt then .error .windowStartNotBeforeEnd
  else if dto.pickupStartAt ≤ now then .error .windowNotFuture
  else
    let startDay := istanbulDateKey dto.pickupStartAt
    let endDay := istanbulDateKey dto.pickupEndAt
    if startDay ≠ dto.offerDate ∨ endDay ≠ dto.offerDate then
      .error (.windowNotSameDay dto.offerDate startDay endDay)
    else .ok ()

def newOffer (dto : CreateOfferDto) (bagTemplate : BagTemplate) (freshId : OfferId) : Offer :=
  { id := freshId
    bagTemplateId := dto.bagTemplateId
    storeId := bagTemplate.storeId
    offerDate := dto.offerDate
    qtyTotal := dto.qtyTotal
    pickupStartAt := dto.pickupStartAt
    pickupEndAt := dto.pickupEndAt }

def createOffer (m : Market) (merchantId : MerchantId) (dto : CreateOfferDto) (freshId : OfferId)
    (now : Instant) : Except OfferError Market :=
  match m.bagTemplates.find? dto.bagTemplateId with
  | none => .error .bagTemplateNotFound
  | some bagTemplate =>
    if ¬ ownsStore m merchantId bagTemplate.storeId then .error .notStoreOwner
    else if bagTemplate.active = false then .error .bagTemplateInactive
    else
      match validateOfferWindow dto now with
      | .error e => .error e
      | .ok () =>
        if ∃ o ∈ m.offers.rows, o.id = freshId ∨
            o.bagTemplateId = dto.bagTemplateId ∧ o.offerDate = dto.offerDate then
          .error .dateAlreadyExists
        else .ok { m with offers := m.offers.insertNew (newOffer dto bagTemplate freshId) }

def markPublished (now : Instant) (o : Offer) : Offer :=
  { o with status := .published, publishedAt := some now }

/-- Publish an offer whose window is not over. -/
def publishOffer (m : Market) (offerId : OfferId) (now : Instant) : Except OfferError Market :=
  match m.updateOffer offerId
      (fun o => o.status ∈ allowedOfferFrom .published ∧ o.pickupEndAt > now) (markPublished now)
      fun _ => rfl with
  | none =>
    match m.offers.find? offerId with
    | none => .error .offerNotFound
    | some current =>
      if current.pickupEndAt ≤ now then .error .pickupWindowPassed
      else .error (.notPublishable current.status)
  | some published =>
    match published.offers.find? offerId with
    | none => .error .offerNotFound
    | some offer =>
      .ok (published.publish (.offerPublished offerId offer.storeId offer.bagTemplateId now))

def publish (m : Market) (merchantId : MerchantId) (offerId : OfferId) (now : Instant) :
    Except OfferError Market :=
  match assertOwnedOffer m merchantId offerId with
  | .error e => .error e
  | .ok _ => publishOffer m offerId now

/-- Scheduled offers whose time has come. -/
def dueScheduled (m : Market) (now : Instant) : List OfferId :=
  (m.offers.rows.filter fun o =>
    decide (o.status = .scheduled) && o.publishAt.any fun publishAt => publishAt ≤ now).map (·.id)

def markCancelled (o : Offer) : Offer := { o with status := .cancelled }

/-- Cancel an offer that expired before it was published, without fan-out. -/
def terminalizeExpiredScheduled (m : Market) (offerId : OfferId) : Option Market :=
  m.updateOffer offerId (fun o => o.status ∈ allowedOfferFrom .cancelled) markCancelled
    fun _ => rfl

def markScheduled (publishAt : Instant) (o : Offer) : Offer :=
  { o with status := .scheduled, publishAt := some publishAt }

def schedule (m : Market) (merchantId : MerchantId) (offerId : OfferId) (publishAt now : Instant) :
    Except OfferError Market :=
  match assertOwnedOffer m merchantId offerId with
  | .error e => .error e
  | .ok _ =>
    if publishAt ≤ now then .error .scheduleNotFuture
    else
      match m.updateOffer offerId (fun o => o.status ∈ allowedOfferFrom .scheduled)
          (markScheduled publishAt) fun _ => rfl with
      | none => .error .notSchedulable
      | some scheduled => .ok scheduled

def markClosed (o : Offer) : Offer := { o with status := .closed }

def close (m : Market) (merchantId : MerchantId) (offerId : OfferId) : Except OfferError Market :=
  match assertOwnedOffer m merchantId offerId with
  | .error e => .error e
  | .ok _ =>
    match m.updateOffer offerId (fun o => o.status ∈ allowedOfferFrom .closed) markClosed
        fun _ => rfl with
    | none => .error .notCloseable
    | some closed => .ok closed

/-- The merchant's offers that a suspension has to cancel. -/
def cancellableOffers (m : Market) (merchantId : MerchantId) : List OfferId :=
  (m.offers.rows.filter fun o =>
    o.status ∈ allowedOfferFrom .cancelled ∧ ownsStore m merchantId o.storeId).map (·.id)

end StatusChanges

section Cancellation

/-- A cancelled reservation whose payment has to be refunded. -/
structure RefundItem where
  reservationId : ReservationId
  merchantOid : MerchantOid
  amountCents : ℤ
  deriving DecidableEq

/-- The refund calls of a cancelled offer. -/
def refundMany (items : List RefundItem) (reason : OfferCancelReason) : List RefundCall :=
  items.map fun item =>
    { reservationId := item.reservationId
      merchantOid := item.merchantOid
      amountCents := item.amountCents
      reason := reason.refundReason
      requestedByType := match reason with
        | .admin => .admin
        | .merchantCancel => .merchant }

/-- A live reservation as the fan-out read it, with its payment. -/
abbrev Candidate := Reservation × Option Payment

/-- The next statement of the fan-out. -/
inductive FanOutPhase where
  /-- Read the live reservations. -/
  | readCandidates
  /-- End the payment of the first candidate, or commit when none is left. -/
  | failIntent (candidates : List Candidate)
  /-- Move the reservation of a candidate whose payment was handled. -/
  | moveReservation (reservation : Reservation) (payment : Payment) (rest : List Candidate)

/-- An offer cancellation between its first statement and its commit. The
rows it has written are locked, and its versions of them are kept here. -/
structure OfferCancellation where
  /-- The locked offer row with the writes of this transaction. -/
  offer : Offer
  reason : OfferCancelReason
  auditActorId : Option AdminId
  phase : FanOutPhase := .readCandidates
  /-- Reservations whose payments were ended. -/
  failed : List ReservationId := []
  /-- Reservations that were expired, as they were before. -/
  expired : List Reservation := []
  /-- Reservations that were cancelled, as they were before. -/
  cancelled : List Reservation := []
  toRefund : List RefundItem := []
  /-- Offers that a suspension goes on with afterwards. -/
  next : List OfferId := []

/-- The first statements: the offer becomes cancelled and its row is locked. -/
def beginCancellation (m : Market) (offerId : OfferId) (reason : OfferCancelReason)
    (auditActorId : Option AdminId) (next : List OfferId) :
    Except OfferError OfferCancellation :=
  match m.offers.find? offerId with
  | none => .error .offerNotFound
  | some offer =>
    if offer.status ∈ allowedOfferFrom .cancelled then
      .ok { offer := markCancelled offer, reason, auditActorId, next }
    else .error (.notCancellable offer.status)

/-- The live reservations of an offer with their payments. -/
def candidatesOf (m : Market) (offerId : OfferId) : List Candidate :=
  (m.reservations.rows.filter fun r => r.offerId = offerId ∧ liveReservation r.status).map fun r =>
    (r, m.payments.find? r.id)

def markCancelledByMerchant (r : Reservation) : Reservation :=
  { r with status := .cancelledByMerchant }

/-- Release on the transaction's own version of the offer. -/
def releaseOwn (qty : ℤ) (o : Offer) : Offer := if o.qtyReserved ≥ qty then releaseRow qty o else o

/-- The current row of a reservation if its status is one of those listed. -/
def reservationIn (m : Market) (id : ReservationId) (from_ : List ReservationStatus) :
    Option Reservation :=
  (m.reservations.find? id).filter fun r => r.status ∈ from_

def hasLiveIntent (m : Market) (id : ReservationId) : Prop :=
  ∃ p ∈ m.payments.rows, p.reservationId = id ∧ liveIntent p.status

instance (m : Market) (id : ReservationId) : Decidable (hasLiveIntent m id) := by
  unfold hasLiveIntent
  infer_instance

namespace OfferCancellation

variable (tx : OfferCancellation)

/-- Expire the reservation of a candidate that was read as unpaid. -/
def expireCandidate (m : Market) (reservation : Reservation) : OfferCancellation :=
  match reservationIn m reservation.id (allowedReservationFrom .expired) with
  | none => tx
  | some current =>
    { tx with
      expired := current :: tx.expired
      offer := releaseOwn reservation.qty tx.offer }

/-- Cancel the reservation of a candidate that was read as paid. -/
def cancelCandidate (m : Market) (reservation : Reservation) (payment : Payment) :
    OfferCancellation :=
  match reservationIn m reservation.id (allowedReservationFrom .cancelledByMerchant) with
  | none => tx
  | some current =>
    { tx with
      cancelled := current :: tx.cancelled
      offer := releaseOwn reservation.qty tx.offer
      toRefund := tx.toRefund ++
        [{ reservationId := reservation.id
           merchantOid := payment.merchantOid
           amountCents := payment.amountCents }] }

/-- The next statement of the fan-out; none when all candidates are handled. -/
def advance (m : Market) : Option OfferCancellation :=
  match tx.phase with
  | .readCandidates => some { tx with phase := .failIntent (candidatesOf m tx.offer.id) }
  | .failIntent [] => none
  | .failIntent ((_, none) :: rest) => some { tx with phase := .failIntent rest }
  | .failIntent ((reservation, some payment) :: rest) =>
    some
      { tx with
        failed := if hasLiveIntent m reservation.id then reservation.id :: tx.failed else tx.failed
        phase := .moveReservation reservation payment rest }
  | .moveReservation reservation payment rest =>
    let moved := if reservation.status = .pendingPayment then tx.expireCandidate m reservation
      else tx.cancelCandidate m reservation payment
    some { moved with phase := .failIntent rest }

def ownWrite (o : Offer) : Offer :=
  { o with status := tx.offer.status, qtyReserved := tx.offer.qtyReserved }

/-- The events of a committed cancellation: one to the consumers, one to the merchant. -/
def events : List OutboxEvent :=
  [.offerCancelled tx.offer.id tx.offer.storeId (tx.toRefund.map (·.reservationId)),
    .offerCancelledMerchantEmail tx.offer.id tx.offer.storeId tx.expired.length
      tx.toRefund.length tx.reason]

/-- The commit: all writes of the transaction become visible. -/
def commit (m : Market) : Market :=
  { m with
    offers := m.offers.updateMany (fun o => o.id = tx.offer.id) tx.ownWrite fun _ => rfl
    payments := m.payments.updateMany (fun p => p.reservationId ∈ tx.failed) markFailed
      markFailed_reservationId
    reservations :=
      (m.reservations.updateMany (fun r => r.id ∈ tx.expired.map (·.id)) markExpired
        markExpired_id).updateMany (fun r => r.id ∈ tx.cancelled.map (·.id))
        markCancelledByMerchant fun _ => rfl
    outbox := tx.events ++ m.outbox
    auditLog := match tx.auditActorId with
      | some actorId => { actorId, offerId := tx.offer.id, reason := tx.reason } :: m.auditLog
      | none => m.auditLog }

/-- Does a change of the stored rows touch a row that the transaction has locked? -/
def changesLocked (m m' : Market) : Prop :=
  m'.offers.find? tx.offer.id ≠ m.offers.find? tx.offer.id ∨
    (∃ id ∈ tx.failed, m'.payments.find? id ≠ m.payments.find? id) ∨
      ∃ r ∈ tx.expired ++ tx.cancelled, m'.reservations.find? r.id ≠ m.reservations.find? r.id

instance (m m' : Market) : Decidable (tx.changesLocked m m') := by
  unfold changesLocked
  infer_instance

end OfferCancellation

end Cancellation

end Kurtar.OfferLifecycle

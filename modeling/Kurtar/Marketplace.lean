import Kurtar.IstanbulCalendar

/-!
# Offers, reservations and payments

The stored rows of the reservation side and the two statements that move an
offer's stock. A payment row is stored under its reservation, of which it is
the only payment; its order reference `merchantOid` is unique as well. The
guarded updates return no state when no row matched, as the row count of the
statement would tell.
-/

namespace Kurtar.Marketplace

open KeyedTable StatusTransitions IstanbulCalendar

abbrev UserId := ℕ
abbrev MerchantId := ℕ
abbrev MerchantUserId := ℕ
abbrev AdminId := ℕ
abbrev StoreId := ℕ
abbrev BagTemplateId := ℕ
abbrev OfferId := ℕ
abbrev ReservationId := ℕ
abbrev MerchantOid := ℕ
abbrev EventId := ℕ

/-- Pickup code shown at the counter. -/
abbrev Code := ℕ

structure Merchant where
  id : MerchantId
  verificationStatus : MerchantVerificationStatus
  deriving DecidableEq

structure Store where
  id : StoreId
  merchantId : MerchantId
  active : Bool
  deriving DecidableEq

structure BagTemplate where
  id : BagTemplateId
  storeId : StoreId
  priceCents : ℤ
  originalValueCentsMin : ℤ
  originalValueCentsMax : ℤ
  active : Bool
  deriving DecidableEq

/-- One day's offer of a bag template. -/
structure Offer where
  id : OfferId
  bagTemplateId : BagTemplateId
  storeId : StoreId
  offerDate : DateKey
  qtyTotal : ℤ
  qtyReserved : ℤ := 0
  qtyRedeemed : ℤ := 0
  pickupStartAt : Instant
  pickupEndAt : Instant
  status : OfferStatus := .draft
  publishAt : Option Instant := none
  publishedAt : Option Instant := none
  deriving DecidableEq

/-- Who swiped a reservation at the counter. -/
inductive Redeemer where
  | consumer (userId : UserId)
  | merchant (merchantUserId : MerchantUserId) (merchantId : MerchantId)
  deriving DecidableEq

structure Reservation where
  id : ReservationId
  code : Code
  userId : UserId
  offerId : OfferId
  storeId : StoreId
  qty : ℤ
  unitPriceCents : ℤ
  totalCents : ℤ
  status : ReservationStatus := .pendingPayment
  cancelDeadlineAt : Instant
  redeemedAt : Option Instant := none
  redeemedBy : Option Redeemer := none
  createdAt : Instant
  deriving DecidableEq

structure Payment where
  reservationId : ReservationId
  merchantOid : MerchantOid
  amountCents : ℤ
  status : PaymentStatus := .intent
  paidAt : Option Instant := none
  createdAt : Instant
  deriving DecidableEq

inductive RefundReason where
  | userCancel | merchantCancel | complaint | admin
  deriving DecidableEq

inductive RefundRequester where
  | consumer | merchant | admin
  deriving DecidableEq

/-- The reasons for which a whole offer is cancelled. -/
inductive OfferCancelReason where
  | merchantCancel | admin
  deriving DecidableEq

def OfferCancelReason.refundReason : OfferCancelReason → RefundReason
  | .merchantCancel => .merchantCancel
  | .admin => .admin

structure Refund where
  reservationId : ReservationId
  amountCents : ℤ
  reason : RefundReason
  pspRefundId : Option String
  status : RefundStatus
  requestedByType : RefundRequester

/-- Events queued for the outbox worker. -/
inductive OutboxEvent where
  | reservationConfirmed (reservationId : ReservationId) (userId : UserId) (storeId : StoreId)
      (offerId : OfferId) (code : Code) (pickupStartAt pickupEndAt : Instant)
  | reservationRedeemed (reservationId : ReservationId) (userId : UserId) (storeId : StoreId)
      (scheduledFor : Instant)
  | reservationRedeemedImpact (reservationId : ReservationId) (userId : UserId)
      (storeId : StoreId) (qty totalCents originalValueCentsMin originalValueCentsMax : ℤ)
  | offerPublished (offerId : OfferId) (storeId : StoreId) (bagTemplateId : BagTemplateId)
      (publishedAt : Instant)
  | offerCancelled (offerId : OfferId) (storeId : StoreId) (reservationIds : List ReservationId)
  | offerCancelledMerchantEmail (offerId : OfferId) (storeId : StoreId)
      (expiredCount cancelledCount : ℕ) (reason : OfferCancelReason)

/-- Rows of the audit log written when an admin cancels an offer. -/
structure AuditEntry where
  actorId : AdminId
  offerId : OfferId
  reason : OfferCancelReason

/-- The stored rows. -/
structure Market where
  merchants : Table Merchant.id
  stores : Table Store.id
  bagTemplates : Table BagTemplate.id
  offers : Table Offer.id
  reservations : Table Reservation.id
  payments : Table Payment.reservationId
  refunds : List Refund
  /-- Identities of the provider events already taken in. -/
  webhookEvents : List EventId
  outbox : List OutboxEvent
  auditLog : List AuditEntry

section StatusSets

/-- Reservations that hold stock of their offer. -/
def holdsStock (s : ReservationStatus) : Prop :=
  s = .pendingPayment ∨ s = .confirmed ∨ s = .redeemed ∨ s = .noShow

instance : DecidablePred holdsStock := fun s => by
  unfold holdsStock
  infer_instance

/-- Reservations that still wait for their pickup. -/
def liveReservation (s : ReservationStatus) : Prop := s = .pendingPayment ∨ s = .confirmed

instance : DecidablePred liveReservation := fun s => by
  unfold liveReservation
  infer_instance

/-- Payments that the provider may still settle. -/
def liveIntent (s : PaymentStatus) : Prop := s = .intent ∨ s = .processing

instance : DecidablePred liveIntent := fun s => by
  unfold liveIntent
  infer_instance

theorem holdsStock_of_live {s : ReservationStatus} (h : liveReservation s) : holdsStock s := by
  rcases h with rfl | rfl
  · exact Or.inl rfl
  · exact Or.inr (Or.inl rfl)

end StatusSets

namespace Market

variable (m : Market)

/-- Guarded update of one offer. -/
def updateOffer (id : OfferId) (guard : Offer → Prop) [DecidablePred guard] (f : Offer → Offer)
    (hf : ∀ o, (f o).id = o.id) : Option Market :=
  (m.offers.updateOne id guard f hf).map fun offers => { m with offers }

/-- Guarded update of one reservation. -/
def updateReservation (id : ReservationId) (guard : Reservation → Prop) [DecidablePred guard]
    (f : Reservation → Reservation) (hf : ∀ r, (f r).id = r.id) : Option Market :=
  (m.reservations.updateOne id guard f hf).map fun reservations => { m with reservations }

/-- Guarded update of the payment of one reservation. -/
def updatePayment (id : ReservationId) (guard : Payment → Prop) [DecidablePred guard]
    (f : Payment → Payment) (hf : ∀ p, (f p).reservationId = p.reservationId) : Option Market :=
  (m.payments.updateOne id guard f hf).map fun payments => { m with payments }

def publish (event : OutboxEvent) : Market := { m with outbox := event :: m.outbox }

/-- The payment of an order reference. -/
def paymentOf (merchantOid : MerchantOid) : Option Payment :=
  m.payments.rows.find? fun p => decide (p.merchantOid = merchantOid)

theorem paymentOf_mem {m : Market} {oid : MerchantOid} {p : Payment} (h : m.paymentOf oid = some p) :
    p ∈ m.payments.rows ∧ p.merchantOid = oid := by
  have hk := List.find?_some h
  exact ⟨List.mem_of_find?_eq_some h, by simpa using hk⟩

variable {m} {m' : Market}

theorem updateOffer_eq_some {id : OfferId} {guard : Offer → Prop} [DecidablePred guard]
    {f : Offer → Offer} {hf : ∀ o, (f o).id = o.id} (h : m.updateOffer id guard f hf = some m') :
    ∃ o offers, o.id = id ∧ guard o ∧ Table.Replaces m.offers offers o (f o) ∧
      m' = { m with offers } := by
  obtain ⟨offers, ht, rfl⟩ := Option.map_eq_some_iff.mp h
  obtain ⟨o, hid, hg, hrep⟩ := Table.updateOne_eq_some ht
  exact ⟨o, offers, hid, hg, hrep, rfl⟩

theorem updateReservation_eq_some {id : ReservationId} {guard : Reservation → Prop}
    [DecidablePred guard] {f : Reservation → Reservation} {hf : ∀ r, (f r).id = r.id}
    (h : m.updateReservation id guard f hf = some m') :
    ∃ r reservations, r.id = id ∧ guard r ∧ Table.Replaces m.reservations reservations r (f r) ∧
      m' = { m with reservations } := by
  obtain ⟨reservations, ht, rfl⟩ := Option.map_eq_some_iff.mp h
  obtain ⟨r, hid, hg, hrep⟩ := Table.updateOne_eq_some ht
  exact ⟨r, reservations, hid, hg, hrep, rfl⟩

theorem updateReservation_eq_none {id : ReservationId} {guard : Reservation → Prop}
    [DecidablePred guard] (f : Reservation → Reservation) (hf : ∀ r, (f r).id = r.id) :
    m.updateReservation id guard f hf = none ↔
      ∀ r ∈ m.reservations.rows, r.id = id → ¬ guard r := by
  rw [updateReservation, Option.map_eq_none_iff, Table.updateOne_eq_none]

theorem updatePayment_eq_some {id : ReservationId} {guard : Payment → Prop}
    [DecidablePred guard] {f : Payment → Payment}
    {hf : ∀ p, (f p).reservationId = p.reservationId}
    (h : m.updatePayment id guard f hf = some m') :
    ∃ p payments, p.reservationId = id ∧ guard p ∧ Table.Replaces m.payments payments p (f p) ∧
      m' = { m with payments } := by
  obtain ⟨payments, ht, rfl⟩ := Option.map_eq_some_iff.mp h
  obtain ⟨p, hid, hg, hrep⟩ := Table.updateOne_eq_some ht
  exact ⟨p, payments, hid, hg, hrep, rfl⟩

theorem updatePayment_eq_none {id : ReservationId} {guard : Payment → Prop}
    [DecidablePred guard] (f : Payment → Payment)
    (hf : ∀ p, (f p).reservationId = p.reservationId) :
    m.updatePayment id guard f hf = none ↔
      ∀ p ∈ m.payments.rows, p.reservationId = id → ¬ guard p := by
  rw [updatePayment, Option.map_eq_none_iff, Table.updateOne_eq_none]

end Market

section OfferStock

/-- Is the store owned by a merchant that is approved right now? -/
def merchantApproved (m : Market) (storeId : StoreId) : Prop :=
  ∃ s ∈ m.stores.rows, s.id = storeId ∧
    ∃ me ∈ m.merchants.rows, me.id = s.merchantId ∧ me.verificationStatus = .approved

instance (m : Market) (storeId : StoreId) : Decidable (merchantApproved m storeId) := by
  unfold merchantApproved
  infer_instance

/-- The condition of the claim statement on an offer row. -/
def claimable (m : Market) (qty : ℤ) (o : Offer) : Prop :=
  o.status = .published ∧ o.qtyReserved+qty ≤ o.qtyTotal ∧ merchantApproved m o.storeId

instance (m : Market) (qty : ℤ) : DecidablePred (claimable m qty) := fun o => by
  unfold claimable
  infer_instance

def claimRow (qty : ℤ) (o : Offer) : Offer :=
  { o with
    qtyReserved := o.qtyReserved+qty
    status := if o.qtyReserved+qty = o.qtyTotal then .soldOut else o.status }

/-- Take stock of a published offer; none when the statement matched no row. -/
def claim (m : Market) (offerId : OfferId) (qty : ℤ) : Option Market :=
  m.updateOffer offerId (claimable m qty) (claimRow qty) fun _ => rfl

def releaseRow (qty : ℤ) (o : Offer) : Offer :=
  { o with
    qtyReserved := o.qtyReserved-qty
    status := if o.status = .soldOut ∧ o.qtyReserved-qty < o.qtyTotal then .published
              else o.status }

/-- Give stock back. Every caller ignores whether a row matched. -/
def releaseStock (offers : Table Offer.id) (offerId : OfferId) (qty : ℤ) : Table Offer.id :=
  (offers.updateOne offerId (fun o => o.qtyReserved ≥ qty) (releaseRow qty) fun _ => rfl).getD
    offers

def release (m : Market) (offerId : OfferId) (qty : ℤ) : Market :=
  { m with offers := releaseStock m.offers offerId qty }

/-- Count collected bags. -/
def redeemRow (qty : ℤ) (o : Offer) : Offer := { o with qtyRedeemed := o.qtyRedeemed+qty }

end OfferStock

/-- The predicate under which discovery shows an offer as bookable. -/
def buildLiveOfferConditions (now : Instant) (d : Offer) (s : Store) (bt : BagTemplate)
    (me : Merchant) : Prop :=
  d.status = .published ∧ d.qtyReserved < d.qtyTotal ∧ d.pickupEndAt > now ∧ s.active = true ∧
    bt.active = true ∧ me.verificationStatus = .approved

instance (now : Instant) (d : Offer) (s : Store) (bt : BagTemplate) (me : Merchant) :
    Decidable (buildLiveOfferConditions now d s bt me) := by
  unfold buildLiveOfferConditions
  infer_instance

/-- Does discovery show the offer, joined with its store, template and merchant? -/
def shownLive (m : Market) (now : Instant) (d : Offer) : Prop :=
  ∃ s ∈ m.stores.rows, s.id = d.storeId ∧
    ∃ bt ∈ m.bagTemplates.rows, bt.id = d.bagTemplateId ∧
      ∃ me ∈ m.merchants.rows, me.id = s.merchantId ∧ buildLiveOfferConditions now d s bt me

instance (m : Market) (now : Instant) (d : Offer) : Decidable (shownLive m now d) := by
  unfold shownLive
  infer_instance

end Kurtar.Marketplace

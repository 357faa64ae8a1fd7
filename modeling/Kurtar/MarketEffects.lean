import Kurtar.MarketService

/-!
# What each transaction does to offers, reservations and payments

One inversion for the reservation side. In a consistent market a committed
transaction stores a new pending reservation, moves one reservation together
with its payment and the stock of its offer, changes the status of one offer,
stores a new offer, commits an offer cancellation, or stays away from all
three tables. `Move` lists the joint moves of a reservation and its payment.
-/

namespace Kurtar.MarketEffects

open KeyedTable GuardedRuns StatusTransitions IstanbulCalendar Marketplace ReservationTransactions
open OfferLifecycle MarketService

section Consistency

/-- The payment statuses that go with a reservation status. -/
def jointly : ReservationStatus → PaymentStatus → Prop
  | .pendingPayment, p => liveIntent p
  | .confirmed, p => p = .paid
  | .expired, p => p = .failed
  | .redeemed, p => p = .paid ∨ p = .refundPending ∨ p = .refunded
  | .noShow, p => p = .paid ∨ p = .refundPending ∨ p = .refunded
  | .cancelledByUser, p => p = .failed ∨ p = .paid ∨ p = .refunded
  | .cancelledByMerchant, p => p = .paid ∨ p = .refunded

/-- The books of one offer agree with its reservations. -/
structure OfferStocked (reservations : Table Reservation.id) (o : Offer) : Prop where
  total_pos : 0 < o.qtyTotal
  reserved_le : o.qtyReserved ≤ o.qtyTotal
  reserved_eq : o.qtyReserved =
    reservations.sumOn (fun r => r.offerId = o.id ∧ holdsStock r.status) (·.qty)
  redeemed_eq : o.qtyRedeemed =
    reservations.sumOn (fun r => r.offerId = o.id ∧ r.status = .redeemed) (·.qty)
  soldOut_full : o.status = .soldOut → o.qtyReserved = o.qtyTotal
  published_room : o.status = .published → o.qtyReserved < o.qtyTotal
  unpublished_empty : o.status = .draft ∨ o.status = .scheduled → o.qtyReserved = 0

/-- Offers, reservations and payments agree with one another. -/
structure Consistent (m : Market) : Prop where
  has_payment : ∀ r ∈ m.reservations.rows, ∃ p ∈ m.payments.rows,
    p.reservationId = r.id ∧ jointly r.status p.status
  has_reservation : ∀ p ∈ m.payments.rows, ∃ r ∈ m.reservations.rows, r.id = p.reservationId
  oid_unique : ∀ p ∈ m.payments.rows, ∀ q ∈ m.payments.rows, p.merchantOid = q.merchantOid → p = q
  has_offer : ∀ r ∈ m.reservations.rows, ∃ o ∈ m.offers.rows, o.id = r.offerId
  qty_pos : ∀ r ∈ m.reservations.rows, 0 < r.qty
  stocked : ∀ o ∈ m.offers.rows, OfferStocked m.reservations o

variable {m m' : Market} {r r' : Reservation} {p p' : Payment}

namespace Consistent

variable (hc : Consistent m)

include hc

theorem jointly_of (hr : r ∈ m.reservations.rows) (hp : p ∈ m.payments.rows)
    (hid : p.reservationId = r.id) : jointly r.status p.status := by
  obtain ⟨q, hq, hqid, hj⟩ := hc.has_payment r hr
  rw [m.payments.eq_of_key_eq hp hq (hid.trans hqid.symm)]
  exact hj

/-- A reservation that holds stock is within what its offer has reserved. -/
theorem qty_le_reserved {o : Offer} (ho : o ∈ m.offers.rows) (hr : r ∈ m.reservations.rows)
    (hid : o.id = r.offerId) (hholds : holdsStock r.status) : r.qty ≤ o.qtyReserved := by
  rw [(hc.stocked o ho).reserved_eq]
  exact Table.le_sumOn (f := fun s : Reservation => s.qty)
    (fun s hs _ => le_of_lt (hc.qty_pos s hs)) hr ⟨hid.symm, hholds⟩

theorem pending_of_liveIntent (hr : r ∈ m.reservations.rows) (hp : p ∈ m.payments.rows)
    (hid : p.reservationId = r.id) (hlive : liveIntent p.status) : r.status = .pendingPayment := by
  have hj := hc.jointly_of hr hp hid
  unfold liveIntent at hlive
  cases hs : r.status <;> simp only [hs, jointly] at hj
  · rfl
  all_goals rcases hlive with hl | hl <;> simp [hl] at hj

theorem liveIntent_of_pending (hr : r ∈ m.reservations.rows) (hp : p ∈ m.payments.rows)
    (hid : p.reservationId = r.id) (hs : r.status = .pendingPayment) : liveIntent p.status := by
  have hj := hc.jointly_of hr hp hid
  simpa [hs, jointly] using hj

end Consistent

end Consistency

section Moves

/-- The joint moves of a reservation and its payment. -/
inductive Move : Reservation → Payment → Reservation → Payment → Prop
  | confirmed {r : Reservation} {p : Payment} {clock : Instant} (hr : r.status = .pendingPayment)
      (hp : liveIntent p.status) : Move r p (markConfirmed r) (markPaid clock p)
  | expired {r : Reservation} {p : Payment} (hr : r.status = .pendingPayment)
      (hp : liveIntent p.status) : Move r p (markExpired r) (markFailed p)
  | withdrawn {r : Reservation} {p : Payment} (hr : r.status = .pendingPayment)
      (hp : liveIntent p.status) : Move r p (markCancelledByUser r) (markFailed p)
  | cancelled {r : Reservation} {p : Payment} (hr : r.status = .confirmed)
      (hp : p.status = .paid) : Move r p (markCancelledByUser r) p
  | redeemed {r : Reservation} {p : Payment} {redeemer : Redeemer} {attemptedAt : Instant}
      (hr : r.status = .confirmed) (hp : p.status = .paid) :
      Move r p (markRedeemed redeemer attemptedAt r) p
  | missed {r : Reservation} {p : Payment} (hr : r.status = .confirmed) (hp : p.status = .paid) :
      Move r p (markedNoShow r) p
  | refundClaimed {r : Reservation} {p : Payment} (hr : r.status = .redeemed ∨ r.status = .noShow)
      (hp : p.status = .paid) : Move r p r (markRefundPending p)
  | refundReleased {r : Reservation} {p : Payment} (hp : p.status = .refundPending) :
      Move r p r (unmarkRefundPending p)
  | refunded {r : Reservation} {p : Payment} (hr : ¬ liveReservation r.status)
      (hp : p.status = .paid ∨ p.status = .refundPending) : Move r p r (markRefunded p)

/-- How the stock of an offer follows a move of one of its reservations. -/
inductive StockMove (offers offers' : Table Offer.id) (r r' : Reservation) : Prop
  | released {o : Offer} (ho : o.id = r.offerId) (hle : r.qty ≤ o.qtyReserved)
      (hfrom : liveReservation r.status) (hto : ¬ holdsStock r'.status)
      (hrep : Table.Replaces offers offers' o (releaseRow r.qty o))
  | counted {o : Offer} (ho : o.id = r.offerId) (hfrom : r.status = .confirmed)
      (hto : r'.status = .redeemed) (hrep : Table.Replaces offers offers' o (redeemRow r.qty o))
  | kept (hoffers : offers' = offers) (hholds : holdsStock r.status ↔ holdsStock r'.status)
      (hredeemed : r.status = .redeemed ↔ r'.status = .redeemed)

/-- The guarded status changes of an offer outside of its fan-out. -/
inductive OfferMove : Offer → Offer → Prop
  | published {o : Offer} {now : Instant} (h : o.status = .draft ∨ o.status = .scheduled)
      (hwindow : o.pickupEndAt > now) : OfferMove o (markPublished now o)
  | scheduled {o : Offer} {publishAt : Instant} (h : o.status = .draft) :
      OfferMove o (markScheduled publishAt o)
  | closed {o : Offer} (h : o.status = .published ∨ o.status = .soldOut) :
      OfferMove o (markClosed o)
  | terminalized {o : Offer} (h : o.status ∈ allowedOfferFrom .cancelled) :
      OfferMove o (markCancelled o)

variable {r r' : Reservation} {p p' : Payment}

theorem Move.jointly (h : Move r p r' p') (hj : jointly r.status p.status) :
    Kurtar.MarketEffects.jointly r'.status p'.status := by
  cases h with
  | confirmed _ _ => rfl
  | expired _ _ => rfl
  | withdrawn _ _ => exact Or.inl rfl
  | cancelled _ hp => exact Or.inr (Or.inl hp)
  | redeemed _ hp => exact Or.inl hp
  | missed _ hp => exact Or.inl hp
  | refundClaimed hr _ =>
    rcases hr with hr | hr <;> simp [hr, Kurtar.MarketEffects.jointly, markRefundPending]
  | refundReleased hp =>
    cases hs : r.status <;>
      simp_all [Kurtar.MarketEffects.jointly, unmarkRefundPending, liveIntent]
  | refunded hr hp =>
    cases hs : r.status <;>
      simp_all [Kurtar.MarketEffects.jointly, markRefunded, liveIntent, liveReservation]

/-- A move keeps what identifies the reservation and its quantity. -/
theorem Move.keeps_reservation (h : Move r p r' p') :
    r'.id = r.id ∧ r'.offerId = r.offerId ∧ r'.qty = r.qty ∧ r'.createdAt = r.createdAt := by
  cases h <;> exact ⟨rfl, rfl, rfl, rfl⟩

/-- A move keeps what identifies the payment and its amount. -/
theorem Move.keeps_payment (h : Move r p r' p') :
    p'.reservationId = p.reservationId ∧ p'.merchantOid = p.merchantOid ∧
      p'.amountCents = p.amountCents := by
  cases h <;> exact ⟨rfl, rfl, rfl⟩

/-- A reservation never becomes pending or live again. -/
theorem Move.status_falls (h : Move r p r' p') :
    (r'.status = .pendingPayment → r.status = .pendingPayment) ∧
      (liveReservation r'.status → liveReservation r.status) := by
  cases h <;> simp_all [markConfirmed, markExpired, markCancelledByUser, markRedeemed,
    markedNoShow, liveReservation]

/-- A payment never becomes live again. -/
theorem Move.intent_falls (h : Move r p r' p') (hlive : liveIntent p'.status) :
    liveIntent p.status := by
  cases h <;> simp_all [markPaid, markFailed, markRefundPending, unmarkRefundPending,
    markRefunded, liveIntent]

/-- The columns of an offer that no transaction writes. -/
def SameOffer (o o' : Offer) : Prop :=
  o'.id = o.id ∧ o'.storeId = o.storeId ∧ o'.bagTemplateId = o.bagTemplateId ∧
    o'.pickupStartAt = o.pickupStartAt ∧ o'.pickupEndAt = o.pickupEndAt

/-- The stock statements keep the offers and do not cancel any. -/
theorem StockMove.offers_kept {offers offers' : Table Offer.id} (h : StockMove offers offers' r r')
    {o : Offer} (ho : o ∈ offers.rows) :
    ∃ o' ∈ offers'.rows, SameOffer o o' ∧ (o'.status = .cancelled ↔ o.status = .cancelled) := by
  cases h with
  | released _ _ _ _ hrep =>
    obtain ⟨o', ho', _, rfl | ⟨rfl, rfl⟩⟩ := hrep.exists_new ho
    · exact ⟨o', ho', ⟨rfl, rfl, rfl, rfl, rfl⟩, Iff.rfl⟩
    · refine ⟨_, ho', ⟨rfl, rfl, rfl, rfl, rfl⟩, ?_⟩
      simp only [releaseRow]
      split_ifs with hsold
      · simp [hsold.1]
      · rfl
  | counted _ _ _ hrep =>
    obtain ⟨o', ho', _, rfl | ⟨rfl, rfl⟩⟩ := hrep.exists_new ho
    · exact ⟨o', ho', ⟨rfl, rfl, rfl, rfl, rfl⟩, Iff.rfl⟩
    · exact ⟨_, ho', ⟨rfl, rfl, rfl, rfl, rfl⟩, Iff.rfl⟩
  | kept hoffers _ _ =>
    rw [hoffers]
    exact ⟨o, ho, ⟨rfl, rfl, rfl, rfl, rfl⟩, Iff.rfl⟩

theorem OfferMove.keeps {o o' : Offer} (h : OfferMove o o') :
    o'.id = o.id ∧ o'.qtyTotal = o.qtyTotal ∧ o'.qtyReserved = o.qtyReserved ∧
      o'.qtyRedeemed = o.qtyRedeemed ∧ o'.pickupEndAt = o.pickupEndAt := by
  cases h <;> exact ⟨rfl, rfl, rfl, rfl, rfl⟩

end Moves

section OpenTransactions

/-- The reservation that a fan-out is about to move. -/
def FanOutPhase.current : FanOutPhase → List ReservationId
  | .moveReservation reservation _ _ => [reservation.id]
  | _ => []

/-- The candidates that are not handled yet. -/
def FanOutPhase.remaining : FanOutPhase → List Candidate
  | .readCandidates => []
  | .failIntent candidates => candidates
  | .moveReservation reservation payment rest => (reservation, some payment) :: rest

/-- The reservations a cancellation has written, as they were before. -/
def taken (tx : OfferCancellation) : List Reservation := tx.expired ++ tx.cancelled

/-- A candidate still describes its stored reservation and payment. -/
def CandidateOf (m : Market) (offerId : OfferId) (candidate : Candidate) : Prop :=
  (∃ r ∈ m.reservations.rows, r.id = candidate.1.id ∧ r.offerId = offerId ∧
    r.qty = candidate.1.qty ∧
    (candidate.1.status ≠ .pendingPayment → r.status ≠ .pendingPayment)) ∧
    ∃ read, candidate.2 = some read ∧ ∃ p ∈ m.payments.rows, p.reservationId = candidate.1.id ∧
      p.merchantOid = read.merchantOid ∧ p.amountCents = read.amountCents

/-- The record of an open cancellation agrees with the stored rows. -/
structure CancellationSound (m : Market) (tx : OfferCancellation) : Prop where
  offer_row : ∃ o ∈ m.offers.rows, o.status ∈ allowedOfferFrom .cancelled ∧
    tx.offer = { o with
      status := .cancelled
      qtyReserved := o.qtyReserved-((taken tx).map (·.qty)).sum }
  expired_rows : ∀ r ∈ tx.expired, r ∈ m.reservations.rows ∧ r.offerId = tx.offer.id ∧
    r.status = .pendingPayment ∧ r.id ∈ tx.failed
  cancelled_rows : ∀ r ∈ tx.cancelled, r ∈ m.reservations.rows ∧ r.offerId = tx.offer.id ∧
    r.status = .confirmed
  failed_rows : ∀ id ∈ tx.failed, (∃ p ∈ m.payments.rows, p.reservationId = id ∧
    liveIntent p.status) ∧ id ∈ FanOutPhase.current tx.phase ++ tx.expired.map (·.id)
  current_failed : ∀ id ∈ FanOutPhase.current tx.phase, hasLiveIntent m id → id ∈ tx.failed
  candidates : ∀ candidate ∈ FanOutPhase.remaining tx.phase, CandidateOf m tx.offer.id candidate
  nodup : ((FanOutPhase.remaining tx.phase).map (·.1.id) ++ (taken tx).map (·.id)).Nodup
  untaken : tx.phase = .readCandidates → taken tx = []
  refund_rows : ∀ item ∈ tx.toRefund, ∃ r ∈ tx.cancelled, r.id = item.reservationId
  refunds_due : ∀ r ∈ tx.cancelled, ∃ p ∈ m.payments.rows, p.reservationId = r.id ∧
    { reservationId := r.id, merchantOid := p.merchantOid, amountCents := p.amountCents } ∈
      tx.toRefund

section CancellationRows

variable {m : Market} {tx : OfferCancellation}

namespace CancellationSound

variable (hs : CancellationSound m tx)

include hs

theorem taken_nodup : ((taken tx).map (·.id)).Nodup := (List.nodup_append.mp hs.nodup).2.1

theorem taken_rows {r : Reservation} (hr : r ∈ taken tx) :
    r ∈ m.reservations.rows ∧ r.offerId = tx.offer.id ∧ liveReservation r.status := by
  rcases List.mem_append.mp hr with hr | hr
  · obtain ⟨hmem, hoffer, hstatus, _⟩ := hs.expired_rows r hr
    exact ⟨hmem, hoffer, Or.inl hstatus⟩
  · obtain ⟨hmem, hoffer, hstatus⟩ := hs.cancelled_rows r hr
    exact ⟨hmem, hoffer, Or.inr hstatus⟩

/-- A stored row whose identity was taken is the row that was taken. -/
theorem taken_of_id {r : Reservation} (hr : r ∈ m.reservations.rows)
    (hid : r.id ∈ (taken tx).map (·.id)) : r ∈ taken tx := by
  obtain ⟨s, hsmem, hsid⟩ := List.mem_map.mp hid
  rw [← m.reservations.eq_of_key_eq (hs.taken_rows hsmem).1 hr hsid]
  exact hsmem

theorem expired_of_id {r : Reservation} (hr : r ∈ m.reservations.rows)
    (hid : r.id ∈ tx.expired.map (·.id)) : r ∈ tx.expired := by
  obtain ⟨s, hsmem, hsid⟩ := List.mem_map.mp hid
  rw [← m.reservations.eq_of_key_eq (hs.expired_rows s hsmem).1 hr hsid]
  exact hsmem

theorem cancelled_of_id {r : Reservation} (hr : r ∈ m.reservations.rows)
    (hid : r.id ∈ tx.cancelled.map (·.id)) : r ∈ tx.cancelled := by
  obtain ⟨s, hsmem, hsid⟩ := List.mem_map.mp hid
  rw [← m.reservations.eq_of_key_eq (hs.cancelled_rows s hsmem).1 hr hsid]
  exact hsmem

end CancellationSound

end CancellationRows

end OpenTransactions

/-- What brought a transaction about, where its effect depends on it. -/
inductive Cause where
  | created (offerId : OfferId) (now : Instant)
  | terminalized (offerId : OfferId)
  | cancelled (tx : OfferCancellation)
  | other

/-- The effect of a committed transaction. -/
inductive Effect (m : Market) : Cause → Market → Prop
  | idle {c : Cause} {m' : Market} (hoffers : m'.offers = m.offers)
      (hreservations : m'.reservations = m.reservations) (hpayments : m'.payments = m.payments) :
    Effect m c m'
  | created {m' : Market} {o : Offer} {r : Reservation} {p : Payment}
      (hclaimable : claimable m r.qty o) (ho : o.id = r.offerId) (hqty : 0 < r.qty)
      (hstatus : r.status = .pendingPayment) (hintent : p.status = .intent)
      (hid : p.reservationId = r.id) (hfresh : ∀ s ∈ m.reservations.rows, s.id ≠ r.id)
      (hfreshPayment : ∀ q ∈ m.payments.rows,
        q.reservationId ≠ p.reservationId ∧ q.merchantOid ≠ p.merchantOid)
      (hoffers : Table.Replaces m.offers m'.offers o (claimRow r.qty o))
      (hreservations : m'.reservations = m.reservations.insertNew r)
      (hpayments : m'.payments = m.payments.insertNew p) :
    Effect m (.created r.offerId r.createdAt) m'
  | moved {c : Cause} {m' : Market} {r r' : Reservation} {p p' : Payment} (hmove : Move r p r' p')
      (hid : p.reservationId = r.id) (hstock : StockMove m.offers m'.offers r r')
      (hreservations : Table.Replaces m.reservations m'.reservations r r')
      (hpayments : Table.Replaces m.payments m'.payments p p') : Effect m c m'
  | offerMoved {c : Cause} {m' : Market} {o o' : Offer} (hmove : OfferMove o o')
      (hcause : o'.status = .cancelled → c = .terminalized o.id)
      (hoffers : Table.Replaces m.offers m'.offers o o')
      (hreservations : m'.reservations = m.reservations) (hpayments : m'.payments = m.payments) :
    Effect m c m'
  | offerCreated {c : Cause} {m' : Market} {o : Offer} (htotal : 0 < o.qtyTotal)
      (hempty : o.qtyReserved = 0 ∧ o.qtyRedeemed = 0) (hstatus : o.status = .draft)
      (hfresh : ∀ s ∈ m.offers.rows, s.id ≠ o.id)
      (hoffers : m'.offers = m.offers.insertNew o)
      (hreservations : m'.reservations = m.reservations) (hpayments : m'.payments = m.payments) :
    Effect m c m'
  | cancelled {tx : OfferCancellation} (hsound : CancellationSound m tx)
      (hdone : tx.phase = .failIntent []) : Effect m (.cancelled tx) (tx.commit m)

section Statements

variable {c : Cause} {m m' : Market} {r r' : Reservation} {p p' : Payment}

theorem stockMove_release (hc : Consistent m) (hr : r ∈ m.reservations.rows)
    (hlive : liveReservation r.status) (hto : ¬ holdsStock r'.status) :
    StockMove m.offers (releaseStock m.offers r.offerId r.qty) r r' := by
  obtain ⟨o, ho, hid⟩ := hc.has_offer r hr
  have hle := hc.qty_le_reserved ho hr hid (holdsStock_of_live hlive)
  obtain ⟨offers, hrel⟩ := Table.updateOne_of_mem (p := fun o : Offer => o.qtyReserved ≥ r.qty)
    (releaseRow r.qty) (fun _ => rfl) ho hid hle
  obtain ⟨o', hid', _, hrep⟩ := Table.updateOne_eq_some hrel
  have he : o' = o := m.offers.eq_of_key_eq hrep.mem_old ho (hid'.trans hid.symm)
  rw [he] at hrep
  rw [releaseStock, hrel, Option.getD_some]
  exact .released hid hle hlive hto hrep

/-- A move of a payment alone. -/
theorem effect_of_payment (hr : r ∈ m.reservations.rows) (hid : p.reservationId = r.id)
    (hmove : Move r p r p') (hpayments : Table.Replaces m.payments m'.payments p p')
    (hoffers : m'.offers = m.offers) (hreservations : m'.reservations = m.reservations) :
    Effect m c m' := by
  refine .moved hmove hid (.kept hoffers Iff.rfl Iff.rfl) ?_ hpayments
  rw [hreservations]
  exact Table.replaces_self hr

/-- Ending a live payment expires its reservation and releases the stock. -/
theorem expire_effect (hc : Consistent m) {payments : Table Payment.reservationId}
    (hrep : Table.Replaces m.payments payments p (markFailed p)) (hlive : liveIntent p.status) :
    ∃ r reservations, r ∈ m.reservations.rows ∧ r.id = p.reservationId ∧
      { m with payments }.updateReservation p.reservationId
        (fun r => r.status ∈ allowedReservationFrom .expired) markExpired (fun _ => rfl) =
          some { m with payments, reservations } ∧
      Effect m c (release { m with payments, reservations } r.offerId r.qty) := by
  obtain ⟨r, hr, hid⟩ := hc.has_reservation p hrep.mem_old
  have hs := hc.pending_of_liveIntent hr hrep.mem_old hid.symm hlive
  have hallowed : r.status ∈ allowedReservationFrom .expired := by
    rw [hs, allowedReservationFrom_expired]
    exact List.mem_singleton.mpr rfl
  obtain ⟨reservations, hu⟩ := Table.updateOne_of_mem
    (p := fun r : Reservation => r.status ∈ allowedReservationFrom .expired) markExpired
    (fun _ => rfl) hr hid hallowed
  refine ⟨r, reservations, hr, hid, by simp only [Market.updateReservation, hu, Option.map_some],
    ?_⟩
  obtain ⟨r', hid', _, hrr⟩ := Table.updateOne_eq_some hu
  have he : r' = r := m.reservations.eq_of_key_eq hrr.mem_old hr (hid'.trans hid.symm)
  rw [he] at hrr
  exact .moved (.expired hs hlive) hid.symm
    (stockMove_release hc hr (Or.inl hs) (by decide : ¬ holdsStock .expired)) hrr hrep

end Statements

section Transactions

variable {c : Cause} {m m' : Market}

/-- A committed creation that waits for its payment to be started. -/
def CommittedSound (m : Market) (committed : CommittedReservation) : Prop :=
  (∃ r ∈ m.reservations.rows, r.id = committed.reservationId ∧ r.offerId = committed.offerId ∧
    r.qty = committed.qty) ∧
    ∃ p ∈ m.payments.rows, p.reservationId = committed.reservationId ∧
      p.merchantOid = committed.merchantOid

/-- A refund under way is of a reservation that waits for no pickup. -/
def RefundSound (m : Market) (call : RefundCall) : Prop :=
  (call.fromStatus = .paid ∨ call.fromStatus = .refundPending) ∧
    ∃ r ∈ m.reservations.rows, r.id = call.reservationId ∧ ¬ liveReservation r.status

/-- A reservation as a redeem call read it. -/
def ReadSound (m : Market) (read : RedeemRead) : Prop :=
  ∃ r ∈ m.reservations.rows, r.id = read.reservation.id ∧ r.offerId = read.reservation.offerId ∧
    r.qty = read.reservation.qty

theorem createReservation_effect {call : CreateCall} {code : Code} {committed : CommittedReservation}
    (hqty : 0 < call.qty) (h : createReservation m call code = .ok (m', committed)) :
    Effect m (.created call.offerId call.now) m' ∧ CommittedSound m' committed := by
  unfold createReservation at h
  cases hread : offerWithTemplate m call.offerId with
  | none => simp [hread] at h
  | some read =>
    obtain ⟨offer, bagTemplate⟩ := read
    cases hclaim : claim m call.offerId call.qty with
    | none => simp [hread, hclaim] at h
    | some claimed =>
      simp only [hread, hclaim] at h
      split_ifs at h with hcode htaken
      cases h
      obtain ⟨o, offers, hid, hclaimable, hrep, rfl⟩ := Market.updateOffer_eq_some hclaim
      obtain ⟨hfresh, hfreshPayment⟩ := not_or.mp htaken
      push Not at hfresh hfreshPayment
      constructor
      · exact .created (r := newReservation call code offer bagTemplate)
          (p := newPayment call (newReservation call code offer bagTemplate)) hclaimable hid hqty
          rfl rfl rfl hfresh hfreshPayment hrep rfl rfl
      · constructor
        · exact ⟨_, Table.mem_insertNew.mpr (Or.inr ⟨rfl, hfresh⟩), rfl, rfl, rfl⟩
        · exact ⟨_, Table.mem_insertNew.mpr (Or.inr ⟨rfl, fun q hq => (hfreshPayment q hq).1⟩),
            rfl, rfl⟩

theorem createReservationWithRetry_effect {call : CreateCall} {codes : List Code}
    {committed : CommittedReservation} (hqty : 0 < call.qty)
    (h : createReservationWithRetry m call codes = .ok (m', committed)) :
    Effect m (.created call.offerId call.now) m' ∧ CommittedSound m' committed := by
  induction codes with
  | nil => simp [createReservationWithRetry] at h
  | cons code codes ih =>
    unfold createReservationWithRetry at h
    cases hattempt : createReservation m call code with
    | ok result =>
      simp only [hattempt] at h
      cases h
      exact createReservation_effect hqty hattempt
    | error e =>
      cases e with
      | codeTaken => exact ih (by simpa [hattempt] using h)
      | refused e => simp [hattempt] at h

theorem compensateFailedIntent_effect (hc : Consistent m) {committed : CommittedReservation}
    (hs : CommittedSound m committed) : Effect m c (compensateFailedIntent m committed) := by
  obtain ⟨⟨r, hr, hid, hoffer, hqty⟩, p, hp, hpid, hoid⟩ := hs
  unfold compensateFailedIntent
  split
  · exact .idle rfl rfl rfl
  · rename_i payment hpayment
    obtain ⟨hmem, hmoid⟩ := Market.paymentOf_mem hpayment
    have hpe : payment = p := hc.oid_unique _ hmem _ hp (hmoid.trans hoid.symm)
    split
    · exact .idle rfl rfl rfl
    · rename_i failed hfailed
      obtain ⟨q, payments, hqid, hintent, hrep, rfl⟩ := Market.updatePayment_eq_some hfailed
      have hqe : q = p := m.payments.eq_of_key_eq hrep.mem_old hp (by rw [hqid, hpe])
      obtain ⟨s, reservations, hsr, hsid, hu, heffect⟩ := expire_effect hc hrep (Or.inl hintent)
      have hse : s = r := m.reservations.eq_of_key_eq hsr hr
        (by rw [hsid, hqe, hpid, hid])
      rw [hqe, hpid] at hu
      rw [hu]
      rw [hse, hoffer, hqty] at heffect
      exact heffect

theorem failLiveIntent_of_live {p : Payment} (hp : p ∈ m.payments.rows)
    (hlive : liveIntent p.status) :
    ∃ payments, failLiveIntent m p.reservationId = { m with payments } ∧
      Table.Replaces m.payments payments p (markFailed p) := by
  obtain ⟨payments, hu⟩ := Table.updateOne_of_mem (p := fun q : Payment => liveIntent q.status)
    markFailed (fun _ => rfl) hp rfl hlive
  obtain ⟨q, hqid, _, hrep⟩ := Table.updateOne_eq_some hu
  have he : q = p := m.payments.eq_of_key_eq hrep.mem_old hp hqid
  rw [he] at hrep
  refine ⟨payments, ?_, hrep⟩
  simp only [failLiveIntent, Market.updatePayment, hu, Option.map_some, Option.getD_some]

theorem failLiveIntent_of_not {id : ReservationId}
    (h : ∀ p ∈ m.payments.rows, p.reservationId = id → ¬ liveIntent p.status) :
    failLiveIntent m id = m := by
  have hnone := (Market.updatePayment_eq_none markFailed fun _ => rfl).mpr h
  rw [failLiveIntent, hnone, Option.getD_none]

theorem cancelFromFirst_eq_some {id : ReservationId} {now : Instant}
    {sources : List ReservationStatus} {source : ReservationStatus}
    (h : cancelFromFirst m id now sources = some (m', source)) :
    ∃ r reservations, source ∈ sources ∧ r.id = id ∧ r.status = source ∧
      Table.Replaces m.reservations reservations r (markCancelledByUser r) ∧
      m' = { m with reservations } := by
  induction sources with
  | nil => simp [cancelFromFirst] at h
  | cons first rest ih =>
    unfold cancelFromFirst at h
    split at h
    · rename_i cancelled hu
      cases h
      obtain ⟨r, reservations, hid, ⟨hs, _⟩, hrep, hm⟩ := Market.updateReservation_eq_some hu
      exact ⟨r, reservations, List.mem_cons_self, hid, hs, hrep, hm⟩
    · obtain ⟨r, reservations, hmem, hid, hs, hrep, hm⟩ := ih h
      exact ⟨r, reservations, List.mem_cons_of_mem first hmem, hid, hs, hrep, hm⟩

/-- The cancelling transaction moves a pending or a confirmed reservation. -/
theorem cancelReservation_effect (hc : Consistent m) {reservation : Reservation} {now : Instant}
    {matchedFrom : ReservationStatus} (hr : reservation ∈ m.reservations.rows)
    (h : cancelReservation m reservation now = some (m', matchedFrom)) :
    Effect m c m' ∧ markCancelledByUser reservation ∈ m'.reservations.rows := by
  obtain ⟨p, hp, hpid, hj⟩ := hc.has_payment reservation hr
  unfold cancelReservation at h
  obtain ⟨⟨cancelled, source⟩, hfirst, hm⟩ := Option.map_eq_some_iff.mp h
  cases hm
  obtain ⟨r, reservations, hsource, hid, hs, hrep, rfl⟩ := cancelFromFirst_eq_some hfirst
  have hto : ¬ holdsStock .cancelledByUser := by decide
  by_cases hlive : liveIntent p.status
  · obtain ⟨payments, hfail, hrepp⟩ := failLiveIntent_of_live hp hlive
    rw [hpid] at hfail
    rw [hfail] at hrep ⊢
    have he : r = reservation := m.reservations.eq_of_key_eq hrep.mem_old hr hid
    rw [he] at hrep
    have hpending := hc.pending_of_liveIntent hr hp hpid hlive
    constructor
    · exact .moved (.withdrawn hpending hlive) hpid
        (stockMove_release hc hr (Or.inl hpending) hto) hrep hrepp
    · exact hrep.mem_new
  · have hfail : failLiveIntent m reservation.id = m := by
      apply failLiveIntent_of_not
      intro q hq hqid
      rw [m.payments.eq_of_key_eq hq hp (hqid.trans hpid.symm)]
      exact hlive
    rw [hfail] at hrep ⊢
    have he : r = reservation := m.reservations.eq_of_key_eq hrep.mem_old hr hid
    rw [he] at hrep hs
    have hconfirmed : reservation.status = .confirmed := by
      rw [allowedReservationFrom_cancelledByUser, List.mem_pair, ← hs] at hsource
      rcases hsource with hpending | hconfirmed
      · exact absurd (hc.liveIntent_of_pending hr hp hpid hpending) hlive
      · exact hconfirmed
    rw [hconfirmed] at hj
    constructor
    · exact .moved (.cancelled hconfirmed hj) hpid
        (stockMove_release hc hr (Or.inr hconfirmed) hto) hrep (Table.replaces_self hp)
    · exact hrep.mem_new

theorem cancel_effect (hc : Consistent m) {userId : UserId} {id : ReservationId} {now : Instant}
    {call : Option RefundCall} (h : cancel m userId id now = .ok (m', call)) :
    Effect m c m' ∧ ∀ due, call = some due → RefundSound m' due := by
  unfold cancel at h
  cases hf : m.reservations.find? id with
  | none => simp [hf] at h
  | some reservation =>
    obtain ⟨hr, hid⟩ := Table.find?_eq_some.mp hf
    cases hp : m.payments.find? id with
    | none =>
      simp only [hf, hp] at h
      split_ifs at h
    | some payment =>
      cases hx : cancelReservation m reservation now with
      | none =>
        simp only [hf, hp, hx] at h
        split_ifs at h
      | some result =>
        obtain ⟨cancelled, matchedFrom⟩ := result
        simp only [hf, hp, hx] at h
        split at h
        · cases h
        · cases h
          obtain ⟨heffect, hmem⟩ := cancelReservation_effect hc hr hx
          refine ⟨heffect, ?_⟩
          intro due hcall
          split_ifs at hcall
          cases hcall
          exact ⟨Or.inl rfl, _, hmem, hid, (by decide : ¬ liveReservation .cancelledByUser)⟩

theorem paymentWithReservation_eq_some {oid : MerchantOid} {payment : Payment}
    {reservation : Reservation} {offer : Offer}
    (h : paymentWithReservation m oid = some (payment, reservation, offer)) :
    payment ∈ m.payments.rows ∧ reservation ∈ m.reservations.rows ∧
      reservation.id = payment.reservationId := by
  unfold paymentWithReservation at h
  obtain ⟨q, hq, h⟩ := Option.bind_eq_some_iff.mp h
  obtain ⟨s, hs, h⟩ := Option.bind_eq_some_iff.mp h
  obtain ⟨o, _, h⟩ := Option.map_eq_some_iff.mp h
  cases h
  obtain ⟨hmem, hid⟩ := Table.find?_eq_some.mp hs
  exact ⟨(Market.paymentOf_mem hq).1, hmem, hid⟩

theorem expireAndRelease_effect (hc : Consistent m) {payment : Payment} {reservation : Reservation}
    {outcome : SettleOutcome} (hr : reservation ∈ m.reservations.rows) (hid : reservation.id = payment.reservationId)
    (ho : outcome ≠ .orphanedSuccess) :
    Effect m c (expireAndRelease m payment reservation outcome).1 ∧
      (expireAndRelease m payment reservation outcome).2 ≠ .orphanedSuccess := by
  unfold expireAndRelease
  split
  · exact ⟨.idle rfl rfl rfl, by simp⟩
  · rename_i failed hfailed
    obtain ⟨q, payments, hqid, hlive, hrep, rfl⟩ := Market.updatePayment_eq_some hfailed
    obtain ⟨s, reservations, hsr, hsid, hu, heffect⟩ := expire_effect hc hrep hlive
    have hse : s = reservation :=
      m.reservations.eq_of_key_eq hsr hr (by rw [hsid, hqid, hid])
    rw [hqid] at hu
    rw [hu]
    rw [hse] at heffect
    exact ⟨heffect, ho⟩

theorem settleSuccess_effect (hc : Consistent m) {payment : Payment} {reservation : Reservation}
    {offer : Offer} {clock : Instant} (hp : payment ∈ m.payments.rows)
    (hr : reservation ∈ m.reservations.rows) (hid : reservation.id = payment.reservationId) :
    Effect m c (settleSuccess m payment reservation offer clock).1 ∧
      (settleSuccess m payment reservation offer clock).2 ≠ .orphanedSuccess := by
  unfold settleSuccess
  split
  · split_ifs
    · exact ⟨.idle rfl rfl rfl, by simp⟩
    · exact ⟨.idle rfl rfl rfl, by simp⟩
  · rename_i paid hpaid
    obtain ⟨q, payments, hqid, hlive, hrep, rfl⟩ := Market.updatePayment_eq_some hpaid
    have hqe : q = payment := m.payments.eq_of_key_eq hrep.mem_old hp hqid
    rw [hqe] at hrep hlive
    have hs := hc.pending_of_liveIntent hr hp hid.symm hlive
    split
    · rename_i hnone
      have hmiss := (Market.updateReservation_eq_none markConfirmed fun _ => rfl).mp hnone
        reservation hr hid
      rw [hs, allowedReservationFrom_confirmed] at hmiss
      exact absurd (List.mem_singleton.mpr rfl) hmiss
    · rename_i confirmed hconfirmed
      obtain ⟨s, reservations, hsid, _, hrr, rfl⟩ := Market.updateReservation_eq_some hconfirmed
      have hse : s = reservation :=
        m.reservations.eq_of_key_eq hrr.mem_old hr (hsid.trans hid.symm)
      rw [hse] at hrr
      refine ⟨.moved (.confirmed hs hlive) hid.symm (.kept rfl ?_ ?_) hrr hrep, by simp⟩
      · simp [hs, markConfirmed, holdsStock]
      · simp [hs, markConfirmed]

/-- Settling never finds a payment to claim without a reservation to confirm. -/
theorem settle_effect (hc : Consistent m) (event : ProviderEvent) (clock : Instant) :
    Effect m c (settle m event clock).1 ∧ (settle m event clock).2 ≠ .orphanedSuccess := by
  unfold settle
  split
  · exact ⟨.idle rfl rfl rfl, by simp⟩
  · rename_i payment reservation offer hread
    obtain ⟨hp, hr, hid⟩ := paymentWithReservation_eq_some hread
    split
    · split_ifs
      · exact settleSuccess_effect hc hp hr hid
      · exact expireAndRelease_effect hc hr hid (by decide)
    · exact expireAndRelease_effect hc hr hid (by decide)

theorem redeem_effect (hc : Consistent m) {redeemer : Redeemer} {read : RedeemRead}
    {attemptedAt : Instant} {redeemedAt : Option Instant} (hs : ReadSound m read)
    (h : redeem m redeemer read attemptedAt = .ok (m', redeemedAt)) : Effect m c m' := by
  obtain ⟨r, hr, hid, hoffer, hqty⟩ := hs
  unfold redeem at h
  split at h
  · split at h
    · cases h
    · split_ifs at h
      cases h
      exact .idle rfl rfl rfl
  · rename_i redeemed hredeemed
    obtain ⟨s, reservations, hsid, hfrom, hrr, rfl⟩ := Market.updateReservation_eq_some hredeemed
    have hse : s = r := m.reservations.eq_of_key_eq hrr.mem_old hr (hsid.trans hid.symm)
    rw [hse] at hrr hfrom
    rw [allowedReservationFrom_redeemed, List.mem_singleton] at hfrom
    split at h
    · cases h
    · rename_i counted hcounted
      cases h
      obtain ⟨o, offers, hoid, _, hro, rfl⟩ := Market.updateOffer_eq_some hcounted
      obtain ⟨p, hp, hpid, hj⟩ := hc.has_payment r hr
      rw [hfrom] at hj
      rw [← hqty] at hro
      exact .moved (.redeemed hfrom hj) hpid
        (.counted (hoid.trans hoffer.symm) hfrom rfl hro) hrr (Table.replaces_self hp)

theorem markNoShow_effect (hc : Consistent m) {id : ReservationId}
    (h : markNoShow m id = some m') : Effect m c m' := by
  obtain ⟨r, reservations, _, hfrom, hrep, rfl⟩ := Market.updateReservation_eq_some h
  rw [allowedReservationFrom_noShow, List.mem_singleton] at hfrom
  obtain ⟨p, hp, hpid, hj⟩ := hc.has_payment r hrep.mem_old
  rw [hfrom] at hj
  refine .moved (.missed hfrom hj) hpid (.kept rfl ?_ ?_) hrep (Table.replaces_self hp)
  · simp [hfrom, markedNoShow, holdsStock]
  · simp [hfrom, markedNoShow]

theorem claimRefund_effect {id : ReservationId} {call : RefundCall}
    (h : claimRefund m id = .ok (m', call)) : Effect m c m' ∧ RefundSound m' call := by
  unfold claimRefund at h
  split at h
  · cases h
  · rename_i reservation hf
    obtain ⟨hr, hid⟩ := Table.find?_eq_some.mp hf
    split at h
    · cases h
    · split_ifs at h with hstatus
      split at h
      · cases h
      · rename_i claimed hclaimed
        cases h
        obtain ⟨p, payments, hpid, hpaid, hrep, rfl⟩ := Market.updatePayment_eq_some hclaimed
        have hcollected : reservation.status = .redeemed ∨ reservation.status = .noShow := by
          tauto
        constructor
        · exact effect_of_payment hr (hpid.trans hid.symm) (.refundClaimed hcollected hpaid) hrep
            rfl rfl
        · refine ⟨Or.inr rfl, reservation, hr, hid, ?_⟩
          rcases hcollected with hs | hs <;> rw [hs] <;> decide

theorem moveRefunded_effect {call : RefundCall} (hs : RefundSound m call)
    (refunds : List Refund) :
    Effect m c (ReservationTransactions.moveRefunded { m with refunds } call) := by
  obtain ⟨hfrom, r, hr, hid, hlive⟩ := hs
  unfold ReservationTransactions.moveRefunded
  cases hu : { m with refunds }.updatePayment call.reservationId
      (fun p => p.status = call.fromStatus) markRefunded (fun _ => rfl) with
  | none => exact .idle rfl rfl rfl
  | some moved =>
    obtain ⟨p, payments, hpid, hstatus, hrep, rfl⟩ := Market.updatePayment_eq_some hu
    rw [← hstatus] at hfrom
    exact effect_of_payment hr (hpid.trans hid.symm) (.refunded hlive hfrom) hrep rfl rfl

theorem releaseRefundClaim_effect (hc : Consistent m) (id : ReservationId) :
    Effect m c (ReservationTransactions.releaseRefundClaim m id) := by
  unfold ReservationTransactions.releaseRefundClaim
  cases hu : m.updatePayment id (fun p => p.status = .refundPending) unmarkRefundPending
      (fun _ => rfl) with
  | none => exact .idle rfl rfl rfl
  | some moved =>
    obtain ⟨p, payments, _, hstatus, hrep, rfl⟩ := Market.updatePayment_eq_some hu
    obtain ⟨r, hr, hid⟩ := hc.has_reservation p hrep.mem_old
    exact effect_of_payment hr hid.symm (.refundReleased hstatus) hrep rfl rfl

theorem publishOffer_effect {id : OfferId} {now : Instant} (h : publishOffer m id now = .ok m') :
    Effect m c m' := by
  unfold publishOffer at h
  split at h
  · split at h
    · cases h
    · split_ifs at h
  · rename_i published hpublished
    obtain ⟨o, offers, _, ⟨hs, hwindow⟩, hrep, rfl⟩ := Market.updateOffer_eq_some hpublished
    rw [allowedOfferFrom_published, List.mem_pair] at hs
    split at h
    · cases h
    · cases h
      exact .offerMoved (.published hs hwindow) (fun h => by cases h) hrep rfl rfl

theorem publish_effect {merchantId : MerchantId} {id : OfferId} {now : Instant}
    (h : OfferLifecycle.publish m merchantId id now = .ok m') : Effect m c m' := by
  unfold OfferLifecycle.publish at h
  split at h
  · cases h
  · exact publishOffer_effect h

theorem schedule_effect {merchantId : MerchantId} {id : OfferId} {publishAt now : Instant}
    (h : OfferLifecycle.schedule m merchantId id publishAt now = .ok m') : Effect m c m' := by
  unfold OfferLifecycle.schedule at h
  split at h
  · cases h
  · split_ifs at h
    split at h
    · cases h
    · rename_i scheduled hscheduled
      cases h
      obtain ⟨o, offers, _, hs, hrep, rfl⟩ := Market.updateOffer_eq_some hscheduled
      rw [allowedOfferFrom_scheduled, List.mem_singleton] at hs
      exact .offerMoved (.scheduled hs) (fun h => by cases h) hrep rfl rfl

theorem close_effect {merchantId : MerchantId} {id : OfferId}
    (h : OfferLifecycle.close m merchantId id = .ok m') : Effect m c m' := by
  unfold OfferLifecycle.close at h
  split at h
  · cases h
  · split at h
    · cases h
    · rename_i closed hclosed
      cases h
      obtain ⟨o, offers, _, hs, hrep, rfl⟩ := Market.updateOffer_eq_some hclosed
      rw [allowedOfferFrom_closed, List.mem_pair] at hs
      exact .offerMoved (.closed hs) (fun h => by cases h) hrep rfl rfl

theorem terminalize_effect {id : OfferId} (h : terminalizeExpiredScheduled m id = some m') :
    Effect m (.terminalized id) m' := by
  obtain ⟨o, offers, hid, hs, hrep, rfl⟩ := Market.updateOffer_eq_some h
  exact .offerMoved (.terminalized hs) (fun _ => by rw [hid]) hrep rfl rfl

theorem createOffer_effect {merchantId : MerchantId} {dto : CreateOfferDto} {freshId : OfferId}
    {now : Instant} (hqty : 0 < dto.qtyTotal)
    (h : createOffer m merchantId dto freshId now = .ok m') : Effect m c m' := by
  unfold createOffer at h
  split at h
  · cases h
  · rename_i bagTemplate _
    split_ifs at h with _ _ htaken
    · split at h <;> cases h
    · split at h
      · cases h
      · cases h
        push Not at htaken
        exact .offerCreated (o := newOffer dto bagTemplate freshId) hqty ⟨rfl, rfl⟩ rfl
          (fun s hs => (htaken s hs).1) rfl rfl rfl

theorem verifyMerchant_effect {merchantId : MerchantId} {target : MerchantVerificationStatus}
    (h : verifyMerchant m merchantId target = some m') : Effect m c m' := by
  obtain ⟨merchants, _, rfl⟩ := Option.map_eq_some_iff.mp h
  exact .idle rfl rfl rfl

theorem catalogueChange_effect {event : CatalogueEvent} (h : catalogueChange m event = some m') :
    Effect m c m' := by
  cases event with
  | verifyMerchant merchantId target =>
    simp only [catalogueChange] at h
    split_ifs at h
    exact verifyMerchant_effect h
  | setStoreActive storeId active =>
    obtain ⟨stores, _, rfl⟩ := Option.map_eq_some_iff.mp h
    exact .idle rfl rfl rfl
  | editBagTemplate bagTemplateId priceCents active =>
    obtain ⟨bagTemplates, _, rfl⟩ := Option.map_eq_some_iff.mp h
    exact .idle rfl rfl rfl
  | _ =>
    cases h
    exact .idle rfl rfl rfl

end Transactions

end Kurtar.MarketEffects

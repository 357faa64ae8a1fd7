import Kurtar.LockedTransactions
import Kurtar.OfferLifecycle

/-!
# Row locks of the reservation side

The transactions on offers, reservations and payments, statement by statement
under the row locks of the database. All but one lock the payment first, then
the reservation, then the offer. The cancellation of an offer locks the offer
before it goes through the payments and reservations.
-/

namespace Kurtar.ReservationLocks

open GuardedRuns KeyedTable StatusTransitions IstanbulCalendar Marketplace
open LockedTransactions
open ReservationTransactions hiding createReservation compensateFailedIntent settle settleSuccess
  expireAndRelease cancel failLiveIntent redeem
open OfferLifecycle (Candidate RefundItem candidatesOf markCancelled markCancelledByMerchant)

/-- What the transactions lock. The rows of a reservation are named with its
offer as well, which no statement changes. -/
inductive Row where
  | payment (offerId : OfferId) (reservationId : ReservationId)
  | reservation (offerId : OfferId) (reservationId : ReservationId)
  | offer (id : OfferId)
  /-- The entry of a pickup code in its unique index. -/
  | code (code : Code)
  deriving DecidableEq, Repr

abbrev Tx := Program Market Row

section Keys

theorem key_markFailed (p : Payment) : (markFailed p).reservationId = p.reservationId := rfl

theorem key_markPaid (clock : Instant) (p : Payment) :
    (markPaid clock p).reservationId = p.reservationId := rfl

theorem key_markExpired (r : Reservation) : (markExpired r).id = r.id := rfl

theorem key_markCancelledByUser (r : Reservation) : (markCancelledByUser r).id = r.id := rfl

theorem key_markCancelledByMerchant (r : Reservation) : (markCancelledByMerchant r).id = r.id := rfl

theorem key_markConfirmed (r : Reservation) : (markConfirmed r).id = r.id := rfl

theorem key_markRedeemed (redeemer : Redeemer) (attemptedAt : Instant) (r : Reservation) :
    (markRedeemed redeemer attemptedAt r).id = r.id := rfl

theorem key_releaseRow (qty : ℤ) (o : Offer) : (releaseRow qty o).id = o.id := rfl

theorem key_redeemRow (qty : ℤ) (o : Offer) : (redeemRow qty o).id = o.id := rfl

theorem key_markCancelled (o : Offer) : (markCancelled o).id = o.id := rfl

end Keys

section Statements

/-- A guarded update of one row. -/
def attempt (row : Row) (change : Market → Option Market) (next : Bool → Tx) : Tx :=
  .update row .noKeyUpdate (fun m => (change m).isSome) (fun m => (change m).getD m) next

/-- End a payment that the provider may still settle. -/
def failLiveIntent (offerId : OfferId) (reservationId : ReservationId) (next : Bool → Tx) : Tx :=
  attempt (.payment offerId reservationId)
    (fun m => m.updatePayment reservationId (fun p => liveIntent p.status) markFailed
      key_markFailed)
    next

def expireReservation (offerId : OfferId) (reservationId : ReservationId) (next : Bool → Tx) :
    Tx :=
  attempt (.reservation offerId reservationId)
    (fun m => m.updateReservation reservationId
      (fun r => r.status ∈ allowedReservationFrom .expired) markExpired key_markExpired)
    next

/-- Give stock back, whether or not a row matches. -/
def releaseOffer (offerId : OfferId) (qty : ℤ) (next : Tx) : Tx :=
  attempt (.offer offerId)
    (fun m => m.updateOffer offerId (fun o => o.qtyReserved ≥ qty) (releaseRow qty)
      (key_releaseRow qty))
    fun _ => next

/-- Count collected bags. -/
def countRedeemed (offerId : OfferId) (qty : ℤ) (next : Bool → Tx) : Tx :=
  attempt (.offer offerId)
    (fun m => m.updateOffer offerId (fun _ => True) (redeemRow qty) (key_redeemRow qty)) next

end Statements

section Programs

/-- One attempt of a creation. A code that is taken ends it; the next attempt
is a transaction of its own. -/
def createReservation (call : CreateCall) (code : Code) : Tx :=
  .select fun m =>
    match offerWithTemplate m call.offerId with
    | none => .rollback
    | some (offer, bagTemplate) =>
      attempt (.offer call.offerId) (fun m => claim m call.offerId call.qty) fun claimed =>
        if claimed then
          .acquire (.code code) .forUpdate
            (.select fun m =>
              if (∃ r ∈ m.reservations.rows, r.code = code) ∨ identityTaken m call then .rollback
              else
                let reservation := newReservation call code offer bagTemplate
                .insert (fun m => { m with reservations := m.reservations.insertNew reservation })
                  (.insert
                    (fun m => { m with
                      payments := m.payments.insertNew (newPayment call reservation) })
                    .commit))
        else .rollback

def compensateFailedIntent (committed : CommittedReservation) : Tx :=
  attempt (.payment committed.offerId committed.reservationId)
    (fun m => (m.paymentOf committed.merchantOid).bind fun payment =>
      m.updatePayment payment.reservationId (fun p => p.status = .intent) markFailed
        key_markFailed)
    fun failed =>
      if failed then
        expireReservation committed.offerId committed.reservationId fun expired =>
          if expired then releaseOffer committed.offerId committed.qty .commit else .commit
      else .commit

/-- Try the given statuses in order, then give the stock back. -/
def cancelFromFirst (reservation : Reservation) (now : Instant) : List ReservationStatus → Tx
  | [] => .rollback
  | fromStatus :: rest =>
    attempt (.reservation reservation.offerId reservation.id)
      (fun m => m.updateReservation reservation.id
        (fun r => r.status = fromStatus ∧ r.cancelDeadlineAt > now) markCancelledByUser
        key_markCancelledByUser)
      fun matched =>
        if matched then releaseOffer reservation.offerId reservation.qty .commit
        else cancelFromFirst reservation now rest

/-- The cancelling transaction of a consumer, with the reads before it. -/
def cancel (userId : UserId) (reservationId : ReservationId) (now : Instant) : Tx :=
  .select fun m =>
    match m.reservations.find? reservationId with
    | none => .rollback
    | some reservation =>
      if reservation.userId ≠ userId then .rollback
      else
        match m.payments.find? reservation.id with
        | none => .rollback
        | some _ =>
          failLiveIntent reservation.offerId reservation.id fun _ =>
            cancelFromFirst reservation now (allowedReservationFrom .cancelledByUser)

/-- Give up on a payment; the stock follows only if the reservation did. -/
def expireAndRelease (reservation : Reservation) : Tx :=
  failLiveIntent reservation.offerId reservation.id fun failed =>
    if failed then
      expireReservation reservation.offerId reservation.id fun expired =>
        if expired then releaseOffer reservation.offerId reservation.qty .commit else .commit
    else .commit

def settleSuccess (reservation : Reservation) (offer : Offer) (clock : Instant) : Tx :=
  attempt (.payment reservation.offerId reservation.id)
    (fun m => m.updatePayment reservation.id (fun p => liveIntent p.status) (markPaid clock)
      (key_markPaid clock))
    fun paid =>
      if paid then
        attempt (.reservation reservation.offerId reservation.id)
          (fun m => m.updateReservation reservation.id
            (fun r => r.status ∈ allowedReservationFrom .confirmed) markConfirmed key_markConfirmed)
          fun confirmed =>
            if confirmed then .insert (fun m => m.publish (confirmedEvent reservation offer)) .commit
            else .rollback
      else .select fun _ => .commit

/-- The settling transaction of a provider event, or of the imitation by which
the sweeper lets an unpaid reservation expire. -/
def settle (event : ProviderEvent) (clock : Instant) : Tx :=
  .select fun m =>
    match paymentWithReservation m event.merchantOid with
    | none => .commit
    | some (payment, reservation, offer) =>
      match event.status with
      | .success =>
        if event.totalCents = payment.amountCents then settleSuccess reservation offer clock
        else expireAndRelease reservation
      | .failed => expireAndRelease reservation

/-- The redeeming transaction, with the checks before it. -/
def redeem (redeemer : Redeemer) (reservationId : ReservationId) (now attemptedAt : Instant) :
    Tx :=
  .select fun m =>
    match checkRedeem m redeemer reservationId now with
    | .error _ => .rollback
    | .ok none => .commit
    | .ok (some read) =>
      attempt (.reservation read.reservation.offerId read.reservation.id)
        (fun m => m.updateReservation read.reservation.id
          (fun r => r.status ∈ allowedReservationFrom .redeemed) (markRedeemed redeemer attemptedAt)
          (key_markRedeemed redeemer attemptedAt))
        fun redeemed =>
          if redeemed then
            countRedeemed read.reservation.offerId read.reservation.qty fun counted =>
              if counted then .insert (fun m => publishRedeemed m read attemptedAt) .commit
              else .rollback
          else .select fun _ => .commit

/-- One update of the no-show sweep, which is a transaction of its own. -/
def sweepNoShow (reservationId : ReservationId) : Tx :=
  .select fun m =>
    match m.reservations.find? reservationId with
    | none => .commit
    | some reservation =>
      attempt (.reservation reservation.offerId reservation.id)
        (fun m => markNoShow m reservation.id) fun _ => .commit

/-- Move the reservation of a candidate; only if it moved, its stock goes back. -/
def moveCandidate (offerId : OfferId) (reservation : Reservation)
    (change : Market → Option Market) (moved missed : Tx) : Tx :=
  attempt (.reservation offerId reservation.id) change fun updated =>
    if updated then releaseOffer offerId reservation.qty moved else missed

/-- Go through the live reservations of an offer that is cancelled. -/
def cancelAllForOffer (offerId : OfferId) (done : ℕ → List RefundItem → Tx) :
    List Candidate → ℕ → List RefundItem → Tx
  | [], expiredCount, toRefund => done expiredCount toRefund
  | (_, none) :: rest, expiredCount, toRefund =>
    cancelAllForOffer offerId done rest expiredCount toRefund
  | (reservation, some payment) :: rest, expiredCount, toRefund =>
    failLiveIntent offerId reservation.id fun _ =>
      if reservation.status = .pendingPayment then
        moveCandidate offerId reservation
          (fun m => m.updateReservation reservation.id
            (fun r => r.status ∈ allowedReservationFrom .expired) markExpired key_markExpired)
          (cancelAllForOffer offerId done rest (expiredCount+1) toRefund)
          (cancelAllForOffer offerId done rest expiredCount toRefund)
      else
        moveCandidate offerId reservation
          (fun m => m.updateReservation reservation.id
            (fun r => r.status ∈ allowedReservationFrom .cancelledByMerchant)
            markCancelledByMerchant key_markCancelledByMerchant)
          (cancelAllForOffer offerId done rest expiredCount
            (toRefund ++
              [{ reservationId := reservation.id
                 merchantOid := payment.merchantOid
                 amountCents := payment.amountCents }]))
          (cancelAllForOffer offerId done rest expiredCount toRefund)

/-- The events and the audit entry of a cancelled offer. -/
def publishCancelled (offer : Offer) (reason : OfferCancelReason) (auditActorId : Option AdminId)
    (expiredCount : ℕ) (toRefund : List RefundItem) : Tx :=
  .insert
    (fun m => m.publish
      (.offerCancelled offer.id offer.storeId (toRefund.map (·.reservationId))))
    (.insert
      (fun m => m.publish
        (.offerCancelledMerchantEmail offer.id offer.storeId expiredCount toRefund.length reason))
      (match auditActorId with
      | none => .commit
      | some actorId =>
        .insert
          (fun m => { m with auditLog := { actorId, offerId := offer.id, reason } :: m.auditLog })
          .commit))

/-- The cancellation of an offer: its own row first, then those of its reservations. -/
def cancelOne (offerId : OfferId) (reason : OfferCancelReason) (auditActorId : Option AdminId) :
    Tx :=
  .select fun m =>
    match m.offers.find? offerId with
    | none => .rollback
    | some offer =>
      attempt (.offer offerId)
        (fun m => m.updateOffer offerId
          (fun o => o.status ∈ allowedOfferFrom .cancelled) markCancelled key_markCancelled)
        fun cancelled =>
          if cancelled then
            .select fun m => cancelAllForOffer offerId (publishCancelled offer reason auditActorId)
              (candidatesOf m offerId) 0 []
          else .rollback

/-- The requests that start a transaction. -/
inductive Request where
  | createReservation (call : CreateCall) (code : Code)
  | compensateFailedIntent (committed : CommittedReservation)
  | cancel (userId : UserId) (reservationId : ReservationId) (now : Instant)
  | settle (event : ProviderEvent) (clock : Instant)
  | redeem (redeemer : Redeemer) (reservationId : ReservationId) (now attemptedAt : Instant)
  | sweepNoShow (reservationId : ReservationId)
  | cancelOne (offerId : OfferId) (reason : OfferCancelReason) (auditActorId : Option AdminId)

def program : Request → Tx
  | .createReservation call code => createReservation call code
  | .compensateFailedIntent committed => compensateFailedIntent committed
  | .cancel userId reservationId now => cancel userId reservationId now
  | .settle event clock => settle event clock
  | .redeem redeemer reservationId now attemptedAt => redeem redeemer reservationId now attemptedAt
  | .sweepNoShow reservationId => sweepNoShow reservationId
  | .cancelOne offerId reason auditActorId => cancelOne offerId reason auditActorId

end Programs

section Alone

variable {m : Market}

theorem attempt_alone (row : Row) (change : Market → Option Market) (next : Bool → Tx) :
    (attempt row change next).alone m =
      match change m with
      | some m' => (next true).alone m'
      | none => (next false).alone m := by
  simp only [attempt, Program.alone]
  cases change m with
  | none => rfl
  | some m' => rfl

theorem releaseOffer_alone (offerId : OfferId) (qty : ℤ) (next : Tx) :
    (releaseOffer offerId qty next).alone m = next.alone (release m offerId qty) := by
  rw [releaseOffer, attempt_alone]
  unfold Market.updateOffer release releaseStock
  cases m.offers.updateOne offerId (fun o => o.qtyReserved ≥ qty) (releaseRow qty) fun _ => rfl with
  | none => rfl
  | some offers => rfl

/-- Alone, each program commits what the transaction of the service does. -/
theorem compensateFailedIntent_alone (committed : CommittedReservation) :
    (compensateFailedIntent committed).alone m =
      some (ReservationTransactions.compensateFailedIntent m committed) := by
  rw [compensateFailedIntent, attempt_alone, ReservationTransactions.compensateFailedIntent]
  cases m.paymentOf committed.merchantOid with
  | none => rfl
  | some payment =>
    simp only [Option.bind_some]
    cases m.updatePayment payment.reservationId (fun p => p.status = .intent) markFailed
        fun _ => rfl with
    | none => rfl
    | some failed =>
      simp only [if_true, expireReservation, attempt_alone]
      cases failed.updateReservation committed.reservationId
          (fun r => r.status ∈ allowedReservationFrom .expired) markExpired fun _ => rfl with
      | none => rfl
      | some expired =>
        simp only [releaseOffer_alone]
        rfl

theorem cancelFromFirst_alone (r : Reservation) (now : Instant)
    (statuses : List ReservationStatus) :
    (cancelFromFirst r now statuses).alone m =
      (ReservationTransactions.cancelFromFirst m r.id now statuses).map fun result =>
        release result.1 r.offerId r.qty := by
  induction statuses with
  | nil => rfl
  | cons fromStatus rest ih =>
    rw [cancelFromFirst, attempt_alone, ReservationTransactions.cancelFromFirst]
    cases m.updateReservation r.id (fun r => r.status = fromStatus ∧ r.cancelDeadlineAt > now)
        markCancelledByUser fun _ => rfl with
    | none => exact ih
    | some cancelled =>
      simp only [if_true, releaseOffer_alone]
      rfl

theorem cancelReservation_alone (r : Reservation) (now : Instant) :
    (failLiveIntent r.offerId r.id fun _ =>
      cancelFromFirst r now (allowedReservationFrom .cancelledByUser)).alone m =
      (cancelReservation m r now).map Prod.fst := by
  rw [failLiveIntent, attempt_alone, cancelReservation, ReservationTransactions.failLiveIntent]
  cases m.updatePayment r.id (fun p => liveIntent p.status) markFailed fun _ => rfl with
  | none =>
    simp only [cancelFromFirst_alone, Option.getD_none, Option.map_map]
    rfl
  | some failed =>
    simp only [cancelFromFirst_alone, Option.getD_some, Option.map_map]
    rfl

theorem cancel_alone (userId : UserId) (reservationId : ReservationId) (now : Instant) :
    (cancel userId reservationId now).alone m =
      (ReservationTransactions.cancel m userId reservationId now).toOption.map Prod.fst := by
  rw [cancel, ReservationTransactions.cancel]
  simp only [Program.alone]
  cases hfind : m.reservations.find? reservationId with
  | none => rfl
  | some r =>
    have hid : r.id = reservationId := (Table.find?_eq_some.mp hfind).2
    dsimp only
    split_ifs with howner
    · rfl
    · cases hpayment : m.payments.find? reservationId with
      | none =>
        rw [← hid] at hpayment
        simp only [hpayment]
        rfl
      | some payment =>
        rw [← hid] at hpayment
        simp only [hpayment, cancelReservation_alone]
        cases cancelReservation m r now with
        | none => rfl
        | some cancelled => rfl

theorem expireAndRelease_alone (payment : Payment) (r : Reservation) (outcome : SettleOutcome)
    (hpayment : payment.reservationId = r.id) :
    (expireAndRelease r).alone m =
      some (ReservationTransactions.expireAndRelease m payment r outcome).1 := by
  rw [expireAndRelease, failLiveIntent, attempt_alone, ReservationTransactions.expireAndRelease,
    hpayment]
  cases m.updatePayment r.id (fun p => liveIntent p.status) markFailed fun _ => rfl with
  | none => rfl
  | some failed =>
    simp only [if_true, expireReservation, attempt_alone]
    cases failed.updateReservation r.id (fun r => r.status ∈ allowedReservationFrom .expired)
        markExpired fun _ => rfl with
    | none => rfl
    | some expired =>
      simp only [releaseOffer_alone]
      rfl

/-- A settlement that finds no reservation to confirm rolls back. -/
theorem settleSuccess_alone (payment : Payment) (r : Reservation) (offer : Offer)
    (clock : Instant) (hpayment : payment.reservationId = r.id) :
    ((settleSuccess r offer clock).alone m).getD m =
      (ReservationTransactions.settleSuccess m payment r offer clock).1 := by
  rw [settleSuccess, attempt_alone, ReservationTransactions.settleSuccess, hpayment]
  cases m.updatePayment r.id (fun p => liveIntent p.status) (markPaid clock) fun _ => rfl with
  | none =>
    change m = _
    dsimp only
    split_ifs with hfailed
    · rfl
    · rfl
  | some paid =>
    simp only [if_true, attempt_alone]
    cases paid.updateReservation r.id (fun r => r.status ∈ allowedReservationFrom .confirmed)
        markConfirmed fun _ => rfl with
    | none => rfl
    | some confirmed => rfl

theorem settle_alone (event : ProviderEvent) (clock : Instant) :
    ((settle event clock).alone m).getD m = (ReservationTransactions.settle m event clock).1 := by
  rw [settle, ReservationTransactions.settle]
  simp only [Program.alone]
  cases hfind : paymentWithReservation m event.merchantOid with
  | none => rfl
  | some found =>
    obtain ⟨payment, r, offer⟩ := found
    have hpayment : payment.reservationId = r.id := by
      obtain ⟨p, _, hrest⟩ := Option.bind_eq_some_iff.mp hfind
      obtain ⟨found, hreservation, hmap⟩ := Option.bind_eq_some_iff.mp hrest
      obtain ⟨o, _, heq⟩ := Option.map_eq_some_iff.mp hmap
      cases heq
      exact (Table.find?_eq_some.mp hreservation).2.symm
    cases hstatus : event.status with
    | failed =>
      dsimp only
      rw [expireAndRelease_alone payment r .expired hpayment]
      rfl
    | success =>
      dsimp only
      split_ifs with hamount
      · exact settleSuccess_alone payment r offer clock hpayment
      · rw [expireAndRelease_alone payment r .amountMismatchQuarantined hpayment]
        rfl

theorem redeem_alone (redeemer : Redeemer) (reservationId : ReservationId)
    (now attemptedAt : Instant) {read : RedeemRead}
    (hread : checkRedeem m redeemer reservationId now = .ok (some read)) :
    ((redeem redeemer reservationId now attemptedAt).alone m).getD m =
      match ReservationTransactions.redeem m redeemer read attemptedAt with
      | .ok result => result.1
      | .error _ => m := by
  rw [redeem, ReservationTransactions.redeem]
  simp only [Program.alone, hread, attempt_alone]
  cases m.updateReservation read.reservation.id
      (fun r => r.status ∈ allowedReservationFrom .redeemed) (markRedeemed redeemer attemptedAt)
      fun _ => rfl with
  | none =>
    cases m.reservations.find? read.reservation.id with
    | none => rfl
    | some current =>
      change m = _
      dsimp only
      split_ifs with hredeemed
      · rfl
      · rfl
  | some redeemed =>
    simp only [if_true, countRedeemed, attempt_alone]
    cases redeemed.updateOffer read.reservation.offerId (fun _ => True)
        (redeemRow read.reservation.qty) fun _ => rfl with
    | none => rfl
    | some counted => rfl

theorem sweepNoShow_alone (reservationId : ReservationId) :
    ((sweepNoShow reservationId).alone m).getD m = (markNoShow m reservationId).getD m := by
  rw [sweepNoShow]
  simp only [Program.alone]
  cases hfind : m.reservations.find? reservationId with
  | none =>
    have hmissed : markNoShow m reservationId = none := by
      refine (Market.updateReservation_eq_none _ _).mpr ?_
      intro r hr hid
      exact absurd hid (Table.find?_eq_none.mp hfind r hr)
    rw [hmissed]
    rfl
  | some r =>
    have hid : r.id = reservationId := (Table.find?_eq_some.mp hfind).2
    dsimp only
    rw [attempt_alone, hid]
    cases markNoShow m reservationId with
    | none => rfl
    | some marked => rfl

theorem createReservation_alone (call : CreateCall) (code : Code) :
    (createReservation call code).alone m =
      (ReservationTransactions.createReservation m call code).toOption.map Prod.fst := by
  rw [createReservation, ReservationTransactions.createReservation]
  simp only [Program.alone]
  cases offerWithTemplate m call.offerId with
  | none => rfl
  | some found =>
    obtain ⟨offer, bagTemplate⟩ := found
    simp only [attempt_alone]
    cases hclaim : claim m call.offerId call.qty with
    | none => rfl
    | some claimed =>
      obtain ⟨_, offers, _, _, _, rfl⟩ := Market.updateOffer_eq_some hclaim
      have hidentity : identityTaken { m with offers } call ↔ identityTaken m call := Iff.rfl
      simp only [if_true, Program.alone, hidentity]
      by_cases hcode : ∃ r ∈ m.reservations.rows, r.code = code
      · rw [if_pos (.inl hcode), if_pos hcode]
        rfl
      · by_cases htaken : identityTaken m call
        · rw [if_pos (.inr htaken), if_neg hcode, if_pos htaken]
          rfl
        · have hfree : ¬ ((∃ r ∈ m.reservations.rows, r.code = code) ∨ identityTaken m call) := by
            rintro (hcode' | htaken')
            · exact hcode hcode'
            · exact htaken htaken'
          rw [if_neg hfree, if_neg hcode, if_neg htaken]
          rfl

end Alone

end Kurtar.ReservationLocks

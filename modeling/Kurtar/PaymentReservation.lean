import Kurtar.StockConservation

/-!
# Payments and reservations move together

The joint states of a reservation and its payment, read off the invariant of
the market. Since no payment is open without a pending reservation, a
settlement that claims a payment always finds a reservation to confirm.
-/

namespace Kurtar.PaymentReservation

open KeyedTable GuardedRuns StatusTransitions IstanbulCalendar Marketplace ReservationTransactions
open OfferLifecycle MarketService MarketEffects MarketInvariant

/-- The payment statuses that each reservation status admits. -/
structure PaymentFollows (r : ReservationStatus) (p : PaymentStatus) : Prop where
  pendingPayment : r = .pendingPayment → p = .intent ∨ p = .processing
  confirmed : r = .confirmed → p = .paid
  expired : r = .expired → p = .failed
  collected : r = .redeemed ∨ r = .noShow → p = .paid ∨ p = .refundPending ∨ p = .refunded
  cancelledByUser : r = .cancelledByUser → p = .failed ∨ p = .paid ∨ p = .refunded
  cancelledByMerchant : r = .cancelledByMerchant → p = .paid ∨ p = .refunded

theorem paymentFollows_of_jointly {r : ReservationStatus} {p : PaymentStatus} (h : jointly r p) :
    PaymentFollows r p := by
  refine ⟨?_, ?_, ?_, ?_, ?_, ?_⟩
  · rintro rfl
    exact h
  · rintro rfl
    exact h
  · rintro rfl
    exact h
  · rintro (rfl | rfl)
    · exact h
    · exact h
  · rintro rfl
    exact h
  · rintro rfl
    exact h

/-- In every reachable state each reservation has a payment whose status follows
that of the reservation, and no event would be settled without its reservation. -/
theorem payments_follow_reservations {w : World} (h : MarketReachable anyStep w) :
    (∀ r ∈ w.market.reservations.rows,
      (∃ p ∈ w.market.payments.rows, p.reservationId = r.id) ∧
      ∀ p ∈ w.market.payments.rows, p.reservationId = r.id → PaymentFollows r.status p.status) ∧
    ∀ event clock, (settle w.market event clock).2 ≠ .orphanedSuccess := by
  have hc := (sound_of_reachable h).consistent
  constructor
  · intro r hr
    constructor
    · obtain ⟨p, hp, hid, _⟩ := hc.has_payment r hr
      exact ⟨p, hp, hid⟩
    · intro p hp hid
      exact paymentFollows_of_jointly (hc.jointly_of hr hp hid)
  · intro event clock
    exact (settle_effect (c := .other) hc event clock).2

/-- The first customer pays, cancels and is refunded; the second cancels while the
payment is open, and the provider reports a success too late. -/
def refundedAndLate : List Action :=
  openOffer 3 ++ book 1 1 0 ++ pay 1 5000 0 ++ book 2 1 0 ++ [.cancel 2 2 hourMs] ++
    pay 2 5000 (2*hourMs) ++
    [.cancel 1 1 (2*hourMs), .resume 0 { clock := 2*hourMs, refundReply := .answered "refund" },
      proceed (2*hourMs)]

theorem payments_follow_reservations_refundedAndLate :
    ∃ w, MarketReachable anyStep w ∧ ∃ r ∈ w.market.reservations.rows,
      ∃ p ∈ w.market.payments.rows, p.reservationId = r.id ∧ r.status = .cancelledByUser ∧
        p.status = .refunded ∧ PaymentFollows r.status p.status ∧
        (settle w.market ⟨2, .success, 5000, 7⟩ (3*hourMs)).2 ≠ .orphanedSuccess := by
  have hw : MarketReachable anyStep (sampleState refundedAndLate) :=
    sampleState_reachable (by decide +kernel)
  have hr : ((sampleState refundedAndLate).market.reservations.find? 1).map (·.status) =
      some .cancelledByUser := by decide +kernel
  have hp : ((sampleState refundedAndLate).market.payments.find? 1).map (·.status) =
      some .refunded := by decide +kernel
  obtain ⟨r, hr, hrs⟩ := Option.map_eq_some_iff.mp hr
  obtain ⟨p, hp, hps⟩ := Option.map_eq_some_iff.mp hp
  obtain ⟨hr, hrid⟩ := Table.find?_eq_some.mp hr
  obtain ⟨hp, hpid⟩ := Table.find?_eq_some.mp hp
  obtain ⟨hfollows, hsettle⟩ := payments_follow_reservations hw
  have hid : p.reservationId = r.id := hpid.trans hrid.symm
  exact ⟨_, hw, r, hr, p, hp, hid, hrs, hps, (hfollows r hr).2 p hp hid, hsettle _ _⟩

end Kurtar.PaymentReservation

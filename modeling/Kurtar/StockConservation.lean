import Kurtar.MarketInvariant

/-!
# Offer stock is conserved

The books of every offer, read off the invariant of the market: what it has
reserved is what its reservations hold, within its total, and its status
tells whether room is left.
-/

namespace Kurtar.StockConservation

open KeyedTable GuardedRuns StatusTransitions IstanbulCalendar Marketplace ReservationTransactions
open OfferLifecycle MarketService MarketEffects MarketInvariant

/-- What the stock columns of an offer have to say. -/
structure StockConserved (reservations : Table Reservation.id) (o : Offer) : Prop where
  nonneg : 0 ≤ o.qtyReserved
  bounded : o.qtyReserved ≤ o.qtyTotal
  reserved : o.qtyReserved = reservations.sumOn (fun r => r.offerId = o.id ∧
    (r.status = .pendingPayment ∨ r.status = .confirmed ∨ r.status = .redeemed ∨
      r.status = .noShow)) (·.qty)
  redeemed : o.qtyRedeemed =
    reservations.sumOn (fun r => r.offerId = o.id ∧ r.status = .redeemed) (·.qty)
  soldOut : o.status = .soldOut → o.qtyReserved = o.qtyTotal
  published : o.status = .published → o.qtyReserved < o.qtyTotal

/-- Balanced books conserve the stock. -/
theorem conserved_of_consistent {m : Market} (hc : Consistent m) {o : Offer}
    (ho : o ∈ m.offers.rows) : StockConserved m.reservations o := by
  have h := hc.stocked o ho
  refine ⟨?_, h.reserved_le, h.reserved_eq, h.redeemed_eq, h.soldOut_full, h.published_room⟩
  rw [h.reserved_eq]
  exact Table.sumOn_nonneg fun r hr _ => le_of_lt (hc.qty_pos r hr)

/-- In every reachable state the stock of every offer is conserved. -/
theorem stock_conserved {w : World} (h : MarketReachable anyStep w) :
    ∀ o ∈ w.market.offers.rows, StockConserved w.market.reservations o :=
  fun _ ho => conserved_of_consistent (sound_of_reachable h).consistent ho

/-- Three bags: one is collected, one is given back, two more are reserved at the end. -/
def soldOutAgain : List Action :=
  openOffer 3 ++ book 1 1 0 ++ pay 1 5000 0 ++ book 2 2 0 ++ [.cancel 2 2 hourMs] ++
    [.redeem (.consumer 1) 1 (11*hourMs), proceed (11*hourMs)] ++ book 3 2 (11*hourMs)

theorem stock_conserved_soldOutAgain :
    ∃ w, MarketReachable anyStep w ∧ ∃ o ∈ w.market.offers.rows, o.status = .soldOut ∧
      o.qtyReserved = 3 ∧ o.qtyRedeemed = 1 ∧ StockConserved w.market.reservations o := by
  have hw : MarketReachable anyStep (sampleState soldOutAgain) :=
    sampleState_reachable (by decide +kernel)
  have hrow : ((sampleState soldOutAgain).market.offers.find? 1).map
      (fun o => (o.status, o.qtyReserved, o.qtyRedeemed)) = some (.soldOut, 3, 1) := by
    decide +kernel
  obtain ⟨o, ho, hcolumns⟩ := Option.map_eq_some_iff.mp hrow
  simp only [Prod.mk.injEq] at hcolumns
  obtain ⟨hstatus, hreserved, hredeemed⟩ := hcolumns
  exact ⟨_, hw, o, (Table.find?_eq_some.mp ho).1, hstatus, hreserved, hredeemed,
    stock_conserved hw o (Table.find?_eq_some.mp ho).1⟩

end Kurtar.StockConservation

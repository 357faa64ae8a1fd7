import Kurtar.MarketEffects

/-!
# The market stays consistent

Every effect keeps the books of the offers balanced and the payments in step
with their reservations. The proofs follow `Effect` case by case; a moved
reservation changes the sums of its own offer only, and a committed
cancellation changes them by what it has released.
-/

namespace Kurtar.MarketConsistency

open KeyedTable GuardedRuns StatusTransitions IstanbulCalendar Marketplace ReservationTransactions
open OfferLifecycle MarketService MarketEffects

section Books

variable {m m' : Market} {reservations' : Table Reservation.id}

/-- The books of an offer depend on two sums over the reservations. -/
theorem OfferStocked.of_sums {rs rs' : Table Reservation.id} {o : Offer} (h : OfferStocked rs o)
    (hreserved : rs'.sumOn (fun r => r.offerId = o.id ∧ holdsStock r.status) (·.qty) =
      rs.sumOn (fun r => r.offerId = o.id ∧ holdsStock r.status) (·.qty))
    (hredeemed : rs'.sumOn (fun r => r.offerId = o.id ∧ r.status = .redeemed) (·.qty) =
      rs.sumOn (fun r => r.offerId = o.id ∧ r.status = .redeemed) (·.qty)) :
    OfferStocked rs' o where
  total_pos := h.total_pos
  reserved_le := h.reserved_le
  reserved_eq := h.reserved_eq.trans hreserved.symm
  redeemed_eq := h.redeemed_eq.trans hredeemed.symm
  soldOut_full := h.soldOut_full
  published_room := h.published_room
  unpublished_empty := h.unpublished_empty

/-- A sum over one offer's reservations after one of them moved. -/
theorem sum_moved {r r' : Reservation} {rs rs' : Table Reservation.id}
    (hrep : Table.Replaces rs rs' r r') (hoffer : r'.offerId = r.offerId) (hqty : r'.qty = r.qty)
    (q : ReservationStatus → Prop) [DecidablePred q] (offerId : OfferId) :
    rs'.sumOn (fun s => s.offerId = offerId ∧ q s.status) (·.qty) =
      rs.sumOn (fun s => s.offerId = offerId ∧ q s.status) (·.qty)
        +(if r.offerId = offerId ∧ q r'.status then r.qty else 0)
        -(if r.offerId = offerId ∧ q r.status then r.qty else 0) := by
  rw [hrep.sumOn_eq, hoffer, hqty]

theorem stocked_released {r : Reservation} {o : Offer} {rs rs' : Table Reservation.id}
    (h : OfferStocked rs o) (hpos : 0 < r.qty) (hle : r.qty ≤ o.qtyReserved)
    (hreserved : rs'.sumOn (fun s => s.offerId = o.id ∧ holdsStock s.status) (·.qty) =
      rs.sumOn (fun s => s.offerId = o.id ∧ holdsStock s.status) (·.qty)-r.qty)
    (hredeemed : rs'.sumOn (fun s => s.offerId = o.id ∧ s.status = .redeemed) (·.qty) =
      rs.sumOn (fun s => s.offerId = o.id ∧ s.status = .redeemed) (·.qty)) :
    OfferStocked rs' (releaseRow r.qty o) where
  total_pos := h.total_pos
  reserved_le := by
    have hbound := h.reserved_le
    change o.qtyReserved-r.qty ≤ o.qtyTotal
    omega
  reserved_eq := by
    change o.qtyReserved-r.qty = _
    rw [h.reserved_eq]
    exact hreserved.symm
  redeemed_eq := h.redeemed_eq.trans hredeemed.symm
  soldOut_full := by
    have hbound := h.reserved_le
    intro hs
    simp only [releaseRow] at hs ⊢
    split_ifs at hs with hsold
    exact absurd ⟨hs, by omega⟩ hsold
  published_room := by
    intro hs
    simp only [releaseRow] at hs ⊢
    split_ifs at hs with hsold
    · exact hsold.2
    · have hroom := h.published_room hs
      omega
  unpublished_empty := by
    intro hs
    simp only [releaseRow] at hs ⊢
    split_ifs at hs with hsold
    · simp at hs
    · have hempty := h.unpublished_empty hs
      omega

theorem stocked_claimed {r : Reservation} {o : Offer} {rs rs' : Table Reservation.id}
    (h : OfferStocked rs o) (hclaimable : claimable m r.qty o)
    (hreserved : rs'.sumOn (fun s => s.offerId = o.id ∧ holdsStock s.status) (·.qty) =
      rs.sumOn (fun s => s.offerId = o.id ∧ holdsStock s.status) (·.qty)+r.qty)
    (hredeemed : rs'.sumOn (fun s => s.offerId = o.id ∧ s.status = .redeemed) (·.qty) =
      rs.sumOn (fun s => s.offerId = o.id ∧ s.status = .redeemed) (·.qty)) :
    OfferStocked rs' (claimRow r.qty o) where
  total_pos := h.total_pos
  reserved_le := hclaimable.2.1
  reserved_eq := by
    change o.qtyReserved+r.qty = _
    rw [h.reserved_eq]
    exact hreserved.symm
  redeemed_eq := h.redeemed_eq.trans hredeemed.symm
  soldOut_full := by
    intro hs
    simp only [claimRow] at hs ⊢
    split_ifs at hs with hfull
    · exact hfull
    · rw [hclaimable.1] at hs
      cases hs
  published_room := by
    have hbound := hclaimable.2.1
    intro hs
    simp only [claimRow] at hs ⊢
    split_ifs at hs with hfull
    omega
  unpublished_empty := by
    intro hs
    simp only [claimRow] at hs
    split_ifs at hs with hfull
    · simp at hs
    · rw [hclaimable.1] at hs
      simp at hs

theorem stocked_offerMoved {o o' : Offer} {rs : Table Reservation.id} (h : OfferStocked rs o)
    (hmove : OfferMove o o') : OfferStocked rs o' := by
  obtain ⟨hid, htotal, hreserved, hredeemed, _⟩ := hmove.keeps
  have hpos := h.total_pos
  refine ⟨by rw [htotal]; exact hpos, by rw [htotal, hreserved]; exact h.reserved_le,
    by rw [hreserved, hid]; exact h.reserved_eq, by rw [hredeemed, hid]; exact h.redeemed_eq,
    ?_, ?_, ?_⟩
  all_goals
    cases hmove with
    | published hs _ =>
      have hempty := h.unpublished_empty hs
      simp only [markPublished] at *
      simp [hempty, hpos]
    | scheduled hs =>
      have hempty := h.unpublished_empty (Or.inl hs)
      simp [markScheduled, hempty]
    | closed _ => simp [markClosed]
    | terminalized _ => simp [markCancelled]

/-- The books of every offer after a reservation moved. -/
theorem stocked_moved {offers' : Table Offer.id} {r r' : Reservation} {p p' : Payment}
    (hc : Consistent m) (hmove : Move r p r' p') (hstock : StockMove m.offers offers' r r')
    (hrep : Table.Replaces m.reservations reservations' r r') :
    ∀ o ∈ offers'.rows, OfferStocked reservations' o := by
  obtain ⟨_, hoffer, hqty, _⟩ := hmove.keeps_reservation
  have hpos := hc.qty_pos r hrep.mem_old
  have hreserved := sum_moved hrep hoffer hqty holdsStock
  have hredeemed := sum_moved hrep hoffer hqty fun s => s = .redeemed
  have hother : ∀ o ∈ m.offers.rows, o.id ≠ r.offerId → OfferStocked reservations' o := by
    intro o ho hne
    refine OfferStocked.of_sums (hc.stocked o ho) ?_ ?_
    · simpa [hne.symm] using hreserved o.id
    · simpa [hne.symm] using hredeemed o.id
  cases hstock with
  | released ho hle hfrom hto hrepo =>
    intro o' ho'
    rcases hrepo.mem_iff.mp ho' with rfl | ⟨hmem, hne⟩
    · have hnot : r.status ≠ .redeemed := by
        rcases hfrom with hs | hs <;> simp [hs]
      have hnot' : r'.status ≠ .redeemed := by
        intro hs
        exact hto (by simp [hs, holdsStock])
      refine stocked_released (hc.stocked _ hrepo.mem_old) hpos hle ?_ ?_
      · rw [hreserved]
        simp [ho, hto, holdsStock_of_live hfrom]
      · rw [hredeemed]
        simp [hnot, hnot']
    · exact hother o' hmem (by rwa [← ho])
  | @counted o ho hfrom hto hrepo =>
    intro o' ho'
    rcases hrepo.mem_iff.mp ho' with rfl | ⟨hmem, hne⟩
    · have h := hc.stocked _ hrepo.mem_old
      refine ⟨h.total_pos, h.reserved_le, ?_, ?_, h.soldOut_full, h.published_room,
        h.unpublished_empty⟩
      · have hholds : holdsStock .confirmed ∧ holdsStock .redeemed := by decide
        have hsame := hreserved o.id
        rw [hfrom, hto] at hsame
        simp only [hholds, and_true, add_sub_cancel_right] at hsame
        exact h.reserved_eq.trans hsame.symm
      · rw [hredeemed]
        simpa [hfrom, hto, ho, redeemRow] using h.redeemed_eq
    · exact hother o' hmem (by rwa [← ho])
  | kept hoffers hholds hred =>
    rw [hoffers]
    intro o ho
    refine OfferStocked.of_sums (hc.stocked o ho) ?_ ?_
    · rw [hreserved]
      simp [hholds]
    · rw [hredeemed]
      simp [hred]

/-- The books of every offer after stock was claimed for a new reservation. -/
theorem stocked_created {offers' : Table Offer.id} {r : Reservation} {o : Offer}
    (hc : Consistent m) (hclaimable : claimable m r.qty o) (hid : o.id = r.offerId)
    (hstatus : r.status = .pendingPayment) (hfresh : ∀ s ∈ m.reservations.rows, s.id ≠ r.id)
    (hoffers : Table.Replaces m.offers offers' o (claimRow r.qty o)) :
    ∀ o' ∈ offers'.rows, OfferStocked (m.reservations.insertNew r) o' := by
  intro o' ho'
  rcases hoffers.mem_iff.mp ho' with rfl | ⟨hmem, hne⟩
  · refine stocked_claimed (hc.stocked o hoffers.mem_old) hclaimable ?_ ?_
    · rw [Table.sumOn_insertNew hfresh]
      simp [hid, hstatus, holdsStock]
    · rw [Table.sumOn_insertNew hfresh]
      simp [hstatus]
  · have hne' : r.offerId ≠ o'.id := by
      rw [← hid]
      exact fun h => hne h.symm
    refine OfferStocked.of_sums (hc.stocked o' hmem) ?_ ?_
    · rw [Table.sumOn_insertNew hfresh]
      simp [hne']
    · rw [Table.sumOn_insertNew hfresh]
      simp [hne']

end Books

section Preservation

variable {m m' : Market}

theorem consistent_moved {r r' : Reservation} {p p' : Payment} (hc : Consistent m)
    (hmove : Move r p r' p') (hid : p.reservationId = r.id)
    (hstock : StockMove m.offers m'.offers r r')
    (hreservations : Table.Replaces m.reservations m'.reservations r r')
    (hpayments : Table.Replaces m.payments m'.payments p p') : Consistent m' := by
  obtain ⟨hrid, hroffer, hrqty, _⟩ := hmove.keeps_reservation
  obtain ⟨hpid, hpoid, _⟩ := hmove.keeps_payment
  refine ⟨?_, ?_, ?_, ?_, ?_, stocked_moved hc hmove hstock hreservations⟩
  · intro s hs
    rcases hreservations.mem_iff.mp hs with rfl | ⟨hs, hne⟩
    · refine ⟨p', hpayments.mem_new, ?_, hmove.jointly
        (hc.jointly_of hreservations.mem_old hpayments.mem_old hid)⟩
      rw [hpid, hid, hrid]
    · obtain ⟨q, hq, hqid, hj⟩ := hc.has_payment s hs
      refine ⟨q, hpayments.mem_of_ne hq ?_, hqid, hj⟩
      rw [hqid, hid]
      exact hne
  · intro q hq
    rcases hpayments.mem_iff.mp hq with rfl | ⟨hq, hne⟩
    · exact ⟨r', hreservations.mem_new, by rw [hrid, hpid, hid]⟩
    · obtain ⟨s, hs, hsid⟩ := hc.has_reservation q hq
      refine ⟨s, hreservations.mem_of_ne hs ?_, hsid⟩
      rw [hsid, ← hid]
      exact hne
  · intro q hq q₂ hq₂ hoid
    rcases hpayments.mem_iff.mp hq with rfl | ⟨hq, hne⟩
    · rcases hpayments.mem_iff.mp hq₂ with rfl | ⟨hq₂, hne₂⟩
      · rfl
      · rw [hpoid] at hoid
        exact absurd (congrArg _ (hc.oid_unique _ hpayments.mem_old _ hq₂ hoid).symm) hne₂
    · rcases hpayments.mem_iff.mp hq₂ with rfl | ⟨hq₂, hne₂⟩
      · rw [hpoid] at hoid
        exact absurd (congrArg _ (hc.oid_unique _ hq _ hpayments.mem_old hoid)) hne
      · exact hc.oid_unique q hq q₂ hq₂ hoid
  · intro s hs
    rcases hreservations.mem_iff.mp hs with rfl | ⟨hs, _⟩
    · obtain ⟨o, ho, hoid⟩ := hc.has_offer r hreservations.mem_old
      obtain ⟨o', ho', hsame, _⟩ := hstock.offers_kept ho
      exact ⟨o', ho', by rw [hsame.1, hoid, hroffer]⟩
    · obtain ⟨o, ho, hoid⟩ := hc.has_offer s hs
      obtain ⟨o', ho', hsame, _⟩ := hstock.offers_kept ho
      exact ⟨o', ho', hsame.1.trans hoid⟩
  · intro s hs
    rcases hreservations.mem_iff.mp hs with rfl | ⟨hs, _⟩
    · rw [hrqty]
      exact hc.qty_pos r hreservations.mem_old
    · exact hc.qty_pos s hs

theorem consistent_created {o : Offer} {r : Reservation} {p : Payment} (hc : Consistent m)
    (hclaimable : claimable m r.qty o) (ho : o.id = r.offerId) (hqty : 0 < r.qty)
    (hstatus : r.status = .pendingPayment) (hintent : p.status = .intent)
    (hid : p.reservationId = r.id) (hfresh : ∀ s ∈ m.reservations.rows, s.id ≠ r.id)
    (hfreshPayment : ∀ q ∈ m.payments.rows,
      q.reservationId ≠ p.reservationId ∧ q.merchantOid ≠ p.merchantOid)
    (hoffers : Table.Replaces m.offers m'.offers o (claimRow r.qty o))
    (hreservations : m'.reservations = m.reservations.insertNew r)
    (hpayments : m'.payments = m.payments.insertNew p) : Consistent m' := by
  have hmem : ∀ s, s ∈ m'.reservations.rows ↔ s ∈ m.reservations.rows ∨ s = r := by
    intro s
    rw [hreservations, Table.mem_insertNew]
    exact or_congr_right ⟨And.left, fun h => ⟨h, hfresh⟩⟩
  have hmemp : ∀ q, q ∈ m'.payments.rows ↔ q ∈ m.payments.rows ∨ q = p := by
    intro q
    rw [hpayments, Table.mem_insertNew]
    exact or_congr_right ⟨And.left, fun h => ⟨h, fun s hs => (hfreshPayment s hs).1⟩⟩
  refine ⟨?_, ?_, ?_, ?_, ?_, ?_⟩
  · intro s hs
    rcases (hmem s).mp hs with hs | rfl
    · obtain ⟨q, hq, hqid, hj⟩ := hc.has_payment s hs
      exact ⟨q, (hmemp q).mpr (Or.inl hq), hqid, hj⟩
    · refine ⟨p, (hmemp p).mpr (Or.inr rfl), hid, ?_⟩
      rw [hstatus, hintent]
      exact Or.inl rfl
  · intro q hq
    rcases (hmemp q).mp hq with hq | rfl
    · obtain ⟨s, hs, hsid⟩ := hc.has_reservation q hq
      exact ⟨s, (hmem s).mpr (Or.inl hs), hsid⟩
    · exact ⟨r, (hmem r).mpr (Or.inr rfl), hid.symm⟩
  · intro q hq q₂ hq₂ hoid
    rcases (hmemp q).mp hq with hq | rfl
    · rcases (hmemp q₂).mp hq₂ with hq₂ | rfl
      · exact hc.oid_unique q hq q₂ hq₂ hoid
      · exact absurd hoid (hfreshPayment q hq).2
    · rcases (hmemp q₂).mp hq₂ with hq₂ | rfl
      · exact absurd hoid.symm (hfreshPayment q₂ hq₂).2
      · rfl
  · intro s hs
    rcases (hmem s).mp hs with hs | rfl
    · obtain ⟨o₁, ho₁, hoid⟩ := hc.has_offer s hs
      obtain ⟨o', ho', hk, _⟩ := hoffers.exists_new ho₁
      exact ⟨o', ho', hk.trans hoid⟩
    · exact ⟨_, hoffers.mem_new, ho⟩
  · intro s hs
    rcases (hmem s).mp hs with hs | rfl
    · exact hc.qty_pos s hs
    · exact hqty
  · rw [hreservations]
    exact stocked_created hc hclaimable ho hstatus hfresh hoffers

theorem consistent_offerMoved {o o' : Offer} (hc : Consistent m) (hmove : OfferMove o o')
    (hoffers : Table.Replaces m.offers m'.offers o o')
    (hreservations : m'.reservations = m.reservations) (hpayments : m'.payments = m.payments) :
    Consistent m' := by
  refine ⟨?_, ?_, ?_, ?_, ?_, ?_⟩
  · rw [hreservations, hpayments]
    exact hc.has_payment
  · rw [hreservations, hpayments]
    exact hc.has_reservation
  · rw [hpayments]
    exact hc.oid_unique
  · rw [hreservations]
    intro s hs
    obtain ⟨o₁, ho₁, hoid⟩ := hc.has_offer s hs
    obtain ⟨o₂, ho₂, hk, _⟩ := hoffers.exists_new ho₁
    exact ⟨o₂, ho₂, hk.trans hoid⟩
  · rw [hreservations]
    exact hc.qty_pos
  · rw [hreservations]
    intro o₂ ho₂
    rcases hoffers.mem_iff.mp ho₂ with rfl | ⟨ho₂, _⟩
    · exact stocked_offerMoved (hc.stocked o hoffers.mem_old) hmove
    · exact hc.stocked o₂ ho₂

theorem consistent_offerCreated {o : Offer} (hc : Consistent m) (htotal : 0 < o.qtyTotal)
    (hempty : o.qtyReserved = 0 ∧ o.qtyRedeemed = 0) (hstatus : o.status = .draft)
    (hfresh : ∀ s ∈ m.offers.rows, s.id ≠ o.id) (hoffers : m'.offers = m.offers.insertNew o)
    (hreservations : m'.reservations = m.reservations) (hpayments : m'.payments = m.payments) :
    Consistent m' := by
  have hmem : ∀ s, s ∈ m'.offers.rows ↔ s ∈ m.offers.rows ∨ s = o := by
    intro s
    rw [hoffers, Table.mem_insertNew]
    exact or_congr_right ⟨And.left, fun h => ⟨h, hfresh⟩⟩
  have hnone : ∀ r ∈ m.reservations.rows, r.offerId ≠ o.id := by
    intro r hr hid
    obtain ⟨o₁, ho₁, hoid⟩ := hc.has_offer r hr
    exact hfresh o₁ ho₁ (hoid.trans hid)
  refine ⟨?_, ?_, ?_, ?_, ?_, ?_⟩
  · rw [hreservations, hpayments]
    exact hc.has_payment
  · rw [hreservations, hpayments]
    exact hc.has_reservation
  · rw [hpayments]
    exact hc.oid_unique
  · rw [hreservations]
    intro s hs
    obtain ⟨o₁, ho₁, hoid⟩ := hc.has_offer s hs
    exact ⟨o₁, (hmem o₁).mpr (Or.inl ho₁), hoid⟩
  · rw [hreservations]
    exact hc.qty_pos
  · rw [hreservations]
    intro s hs
    rcases (hmem s).mp hs with hs | rfl
    · exact hc.stocked s hs
    · refine ⟨htotal, by omega, ?_, ?_, by simp [hstatus], by simp [hstatus], fun _ => hempty.1⟩
      · rw [hempty.1, Table.sumOn_eq_zero fun r hr h => hnone r hr h.1]
      · rw [hempty.2, Table.sumOn_eq_zero fun r hr h => hnone r hr h.1]

end Preservation

section CommittedCancellation

variable {m : Market} {tx : OfferCancellation}

/-- A reservation after the cancellation's writes. -/
def afterReservation (tx : OfferCancellation) (r : Reservation) : Reservation :=
  let s := if r.id ∈ tx.expired.map (·.id) then markExpired r else r
  if s.id ∈ tx.cancelled.map (·.id) then markCancelledByMerchant s else s

/-- A payment after the cancellation's writes. -/
def afterPayment (tx : OfferCancellation) (p : Payment) : Payment :=
  if p.reservationId ∈ tx.failed then markFailed p else p

theorem rows_commit (m : Market) (tx : OfferCancellation) :
    (tx.commit m).reservations.rows = m.reservations.rows.map (afterReservation tx) := by
  change (m.reservations.rows.map _).map _ = _
  rw [List.map_map]
  rfl

theorem mem_commit_reservations {s : Reservation} :
    s ∈ (tx.commit m).reservations.rows ↔
      ∃ r ∈ m.reservations.rows, afterReservation tx r = s := by
  rw [rows_commit]
  exact List.mem_map

theorem mem_commit_payments {q : Payment} :
    q ∈ (tx.commit m).payments.rows ↔ ∃ p ∈ m.payments.rows, afterPayment tx p = q :=
  List.mem_map

theorem afterReservation_keeps (tx : OfferCancellation) (r : Reservation) :
    (afterReservation tx r).id = r.id ∧ (afterReservation tx r).offerId = r.offerId ∧
      (afterReservation tx r).qty = r.qty ∧ (afterReservation tx r).createdAt = r.createdAt := by
  unfold afterReservation
  by_cases he : r.id ∈ tx.expired.map (·.id)
  · simp only [if_pos he]
    split_ifs <;> exact ⟨rfl, rfl, rfl, rfl⟩
  · simp only [if_neg he]
    split_ifs <;> exact ⟨rfl, rfl, rfl, rfl⟩

theorem afterPayment_keeps (tx : OfferCancellation) (p : Payment) :
    (afterPayment tx p).reservationId = p.reservationId ∧
      (afterPayment tx p).merchantOid = p.merchantOid ∧
      (afterPayment tx p).amountCents = p.amountCents := by
  unfold afterPayment
  split_ifs <;> exact ⟨rfl, rfl, rfl⟩

variable (hs : CancellationSound m tx)

include hs

theorem afterReservation_cases {r : Reservation} (hr : r ∈ m.reservations.rows) :
    r ∈ tx.expired ∧ afterReservation tx r = markExpired r ∨
      r ∈ tx.cancelled ∧ afterReservation tx r = markCancelledByMerchant r ∨
      r ∉ taken tx ∧ afterReservation tx r = r := by
  unfold afterReservation
  by_cases he : r.id ∈ tx.expired.map (·.id)
  · have hmem := hs.expired_of_id hr he
    have hnot : r.id ∉ tx.cancelled.map (·.id) := by
      intro hid
      have hconfirmed := (hs.cancelled_rows r (hs.cancelled_of_id hr hid)).2.2
      have hpending := (hs.expired_rows r hmem).2.2.1
      rw [hpending] at hconfirmed
      cases hconfirmed
    refine Or.inl ⟨hmem, ?_⟩
    simp only [if_pos he]
    exact if_neg hnot
  · by_cases hcan : r.id ∈ tx.cancelled.map (·.id)
    · refine Or.inr (Or.inl ⟨hs.cancelled_of_id hr hcan, ?_⟩)
      simp only [if_neg he, if_pos hcan]
    · refine Or.inr (Or.inr ⟨?_, ?_⟩)
      · intro htaken
        rcases List.mem_append.mp htaken with h | h
        · exact he (List.mem_map.mpr ⟨r, h, rfl⟩)
        · exact hcan (List.mem_map.mpr ⟨r, h, rfl⟩)
      · simp only [if_neg he, if_neg hcan]

/-- When all candidates are handled, exactly the expired reservations lost their payment. -/
theorem failed_iff_expired (hdone : tx.phase = .failIntent []) {r : Reservation}
    (hr : r ∈ m.reservations.rows) : r.id ∈ tx.failed ↔ r ∈ tx.expired := by
  constructor
  · intro hfailed
    have hin := (hs.failed_rows r.id hfailed).2
    rw [hdone] at hin
    exact hs.expired_of_id hr hin
  · intro hexpired
    exact (hs.expired_rows r hexpired).2.2.2

/-- A sum over one offer's reservations leaves out those that were taken. -/
theorem sum_commit (q : ReservationStatus → Prop) [DecidablePred q] (hexpired : ¬ q .expired)
    (hcancelled : ¬ q .cancelledByMerchant) (offerId : OfferId) :
    (tx.commit m).reservations.sumOn (fun r => r.offerId = offerId ∧ q r.status) (·.qty) =
      m.reservations.sumOn (fun r => (r.offerId = offerId ∧ q r.status) ∧
        ¬ r.id ∈ (taken tx).map (·.id)) (·.qty) := by
  rw [Table.sumOn, Table.sumOn, rows_commit, List.map_map]
  congr 1
  apply List.map_congr_left
  intro r hr
  have hin : r ∈ taken tx → r.id ∈ (taken tx).map (·.id) := fun h => List.mem_map.mpr ⟨r, h, rfl⟩
  rw [Function.comp_apply]
  rcases afterReservation_cases hs hr with ⟨h, he⟩ | ⟨h, he⟩ | ⟨h, he⟩
  · have hid := hin (List.mem_append_left _ h)
    simp [he, markExpired, hexpired, hid]
  · have hid := hin (List.mem_append_right _ h)
    simp [he, markCancelledByMerchant, hcancelled, hid]
  · have hid : r.id ∉ (taken tx).map (·.id) := fun hid => h (hs.taken_of_id hr hid)
    simp only [he, hid, not_false_iff, and_true]

/-- The taken reservations are part of what their offer has reserved. -/
theorem sum_taken : m.reservations.sumOn (fun r => r.offerId = tx.offer.id ∧ holdsStock r.status)
    (·.qty) = ((taken tx).map (·.qty)).sum+m.reservations.sumOn
      (fun r => (r.offerId = tx.offer.id ∧ holdsStock r.status) ∧
        ¬ r.id ∈ (taken tx).map (·.id)) (·.qty) := by
  rw [m.reservations.sumOn_split _ (fun r => r.id ∈ (taken tx).map (·.id)) (·.qty),
    m.reservations.sumOn_members _ (·.qty) hs.taken_nodup]
  intro r hr
  obtain ⟨hmem, hoffer, hlive⟩ := hs.taken_rows hr
  exact ⟨hmem, hoffer, holdsStock_of_live hlive⟩

/-- The books of every offer after a cancellation committed. -/
theorem stocked_cancelled (hc : Consistent m) :
    ∀ o ∈ (tx.commit m).offers.rows, OfferStocked (tx.commit m).reservations o := by
  have hreserved := sum_commit hs holdsStock (by decide) (by decide)
  have hredeemed := sum_commit hs (fun s => s = .redeemed) (by decide) (by decide)
  have hkept : ∀ offerId, m.reservations.sumOn (fun r => (r.offerId = offerId ∧
      r.status = .redeemed) ∧ ¬ r.id ∈ (taken tx).map (·.id)) (·.qty) =
      m.reservations.sumOn (fun r => r.offerId = offerId ∧ r.status = .redeemed) (·.qty) := by
    intro offerId
    apply Table.sumOn_congr rfl
    intro r hr
    by_cases hid : r.id ∈ (taken tx).map (·.id)
    · have hlive := (hs.taken_rows (hs.taken_of_id hr hid)).2.2
      have hnot : r.status ≠ .redeemed := by
        rcases hlive with h | h <;> simp [h]
      simp [hnot]
    · simp only [hid, not_false_iff, and_true]
  obtain ⟨o, ho, _, htx⟩ := hs.offer_row
  intro o' ho'
  obtain ⟨o₁, ho₁, rfl⟩ := List.mem_map.mp ho'
  have h := hc.stocked o₁ ho₁
  by_cases hid : o₁.id = tx.offer.id
  · have he : o₁ = o := m.offers.eq_of_key_eq ho₁ ho (by rw [hid, htx])
    have hsum := sum_taken hs
    have hnonneg : 0 ≤ ((taken tx).map (·.qty)).sum := by
      apply List.sum_nonneg
      intro x hx
      obtain ⟨r, hr, rfl⟩ := List.mem_map.mp hx
      exact le_of_lt (hc.qty_pos r (hs.taken_rows hr).1)
    have hqty : tx.offer.qtyReserved = o₁.qtyReserved-((taken tx).map (·.qty)).sum := by
      rw [htx, he]
    have hstatus : tx.offer.status = .cancelled := by
      rw [htx]
    rw [if_pos hid]
    have hle := h.reserved_le
    have heq := h.reserved_eq
    refine ⟨h.total_pos, ?_, ?_, ?_, ?_, ?_, ?_⟩
    · change tx.offer.qtyReserved ≤ o₁.qtyTotal
      omega
    · change tx.offer.qtyReserved = (tx.commit m).reservations.sumOn
        (fun r => r.offerId = o₁.id ∧ holdsStock r.status) (·.qty)
      rw [hreserved, hid, hqty]
      rw [hid] at heq
      omega
    · change o₁.qtyRedeemed = (tx.commit m).reservations.sumOn
        (fun r => r.offerId = o₁.id ∧ r.status = .redeemed) (·.qty)
      rw [hredeemed, hkept]
      exact h.redeemed_eq
    all_goals simp [OfferCancellation.ownWrite, hstatus]
  · rw [if_neg hid]
    refine OfferStocked.of_sums h ?_ ?_
    · rw [hreserved]
      apply Table.sumOn_congr rfl
      intro r hr
      by_cases htaken : r.id ∈ (taken tx).map (·.id)
      · have hoffer := (hs.taken_rows (hs.taken_of_id hr htaken)).2.1
        have hne : r.offerId ≠ o₁.id := by
          rw [hoffer]
          exact fun h => hid h.symm
        simp [hne]
      · simp only [htaken, not_false_iff, and_true]
    · rw [hredeemed, hkept]

theorem consistent_cancelled (hc : Consistent m) (hdone : tx.phase = .failIntent []) :
    Consistent (tx.commit m) := by
  have hpayment : ∀ r ∈ m.reservations.rows, ∀ p ∈ m.payments.rows, p.reservationId = r.id →
      jointly (afterReservation tx r).status (afterPayment tx p).status := by
    intro r hr p hp hid
    have hj := hc.jointly_of hr hp hid
    have hfailed := failed_iff_expired hs hdone hr
    unfold afterPayment
    rw [hid]
    rcases afterReservation_cases hs hr with ⟨h, he⟩ | ⟨h, he⟩ | ⟨h, he⟩
    · rw [he, if_pos (hfailed.mpr h)]
      rfl
    · have hconfirmed := (hs.cancelled_rows r h).2.2
      have hnot : r ∉ tx.expired := by
        intro hexpired
        rw [(hs.expired_rows r hexpired).2.2.1] at hconfirmed
        cases hconfirmed
      rw [hconfirmed] at hj
      rw [he, if_neg fun h => hnot (hfailed.mp h)]
      exact Or.inl hj
    · rw [he, if_neg fun hf => h (List.mem_append_left _ (hfailed.mp hf))]
      exact hj
  refine ⟨?_, ?_, ?_, ?_, ?_, stocked_cancelled hs hc⟩
  · intro s hmem
    obtain ⟨r, hr, rfl⟩ := mem_commit_reservations.mp hmem
    obtain ⟨p, hp, hid, _⟩ := hc.has_payment r hr
    refine ⟨afterPayment tx p, mem_commit_payments.mpr ⟨p, hp, rfl⟩, ?_, hpayment r hr p hp hid⟩
    rw [(afterPayment_keeps tx p).1, (afterReservation_keeps tx r).1, hid]
  · intro q hmem
    obtain ⟨p, hp, rfl⟩ := mem_commit_payments.mp hmem
    obtain ⟨r, hr, hid⟩ := hc.has_reservation p hp
    refine ⟨afterReservation tx r, mem_commit_reservations.mpr ⟨r, hr, rfl⟩, ?_⟩
    rw [(afterPayment_keeps tx p).1, (afterReservation_keeps tx r).1, hid]
  · intro q hmem q₂ hmem₂ hoid
    obtain ⟨p, hp, rfl⟩ := mem_commit_payments.mp hmem
    obtain ⟨p₂, hp₂, rfl⟩ := mem_commit_payments.mp hmem₂
    rw [(afterPayment_keeps tx p).2.1, (afterPayment_keeps tx p₂).2.1] at hoid
    rw [hc.oid_unique p hp p₂ hp₂ hoid]
  · intro s hmem
    obtain ⟨r, hr, rfl⟩ := mem_commit_reservations.mp hmem
    obtain ⟨o, ho, hid⟩ := hc.has_offer r hr
    refine ⟨_, List.mem_map.mpr ⟨o, ho, rfl⟩, ?_⟩
    rw [(afterReservation_keeps tx r).2.1, ← hid]
    split_ifs <;> rfl
  · intro s hmem
    obtain ⟨r, hr, rfl⟩ := mem_commit_reservations.mp hmem
    rw [(afterReservation_keeps tx r).2.2.1]
    exact hc.qty_pos r hr

end CommittedCancellation

/-- Every effect leaves the market consistent. -/
theorem effect_consistent {c : Cause} {m m' : Market} (hc : Consistent m) (h : Effect m c m') :
    Consistent m' := by
  cases h with
  | idle hoffers hreservations hpayments =>
    obtain ⟨h₁, h₂, h₃, h₄, h₅, h₆⟩ := hc
    refine ⟨?_, ?_, ?_, ?_, ?_, ?_⟩
    all_goals simp only [hoffers, hreservations, hpayments]
    all_goals assumption
  | created hclaimable ho hqty hstatus hintent hid hfresh hfreshPayment hoffers hreservations
      hpayments =>
    exact consistent_created hc hclaimable ho hqty hstatus hintent hid hfresh hfreshPayment hoffers
      hreservations hpayments
  | moved hmove hid hstock hreservations hpayments =>
    exact consistent_moved hc hmove hid hstock hreservations hpayments
  | offerMoved hmove _ hoffers hreservations hpayments =>
    exact consistent_offerMoved hc hmove hoffers hreservations hpayments
  | offerCreated htotal hempty hstatus hfresh hoffers hreservations hpayments =>
    exact consistent_offerCreated hc htotal hempty hstatus hfresh hoffers hreservations hpayments
  | cancelled hsound hdone => exact consistent_cancelled hsound hc hdone

end Kurtar.MarketConsistency

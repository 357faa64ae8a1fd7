import Kurtar.PaymentReservation

/-!
# Cancelled offers and their live reservations

While a fan-out is open, every live reservation of its offer is still to be
handled or already taken: no new one can be created, since the offer row is
locked. A candidate that was read as unpaid and is confirmed before its turn
escapes this account, and so do the reservations of an offer that was
published after all when it is terminalized. In runs that meet neither case a
cancelled offer has no live reservation left.
-/

namespace Kurtar.CancelledOffers

open KeyedTable GuardedRuns StatusTransitions IstanbulCalendar Marketplace ReservationTransactions
open OfferLifecycle MarketService MarketEffects MarketConsistency MarketProcedures MarketInvariant

section Conditions

/-- The reservation to be moved was not paid since it was read as unpaid. -/
def StillUnpaid (m : Market) (tx : OfferCancellation) : Prop :=
  match tx.phase with
  | .moveReservation reservation _ _ => reservation.status = .pendingPayment →
      ∀ r ∈ m.reservations.rows, r.id = reservation.id → r.status ≠ .confirmed
  | _ => True

instance (m : Market) (tx : OfferCancellation) : Decidable (StillUnpaid m tx) := by
  unfold StillUnpaid
  split <;> infer_instance

/-- The offer has no live reservation. -/
def NoneLive (m : Market) (offerId : OfferId) : Prop :=
  ∀ r ∈ m.reservations.rows, r.offerId = offerId → ¬ liveReservation r.status

instance (m : Market) (offerId : OfferId) : Decidable (NoneLive m offerId) := by
  unfold NoneLive
  infer_instance

/-- The steps that go wrong are not taken: no fan-out meets a reservation that was
paid after it was read, and no offer is terminalized that has live reservations. -/
def Unraced (w : World) : Action → Prop
  | .advanceCancellation index =>
    match w.openCancellations[index]? with
    | some tx => StillUnpaid w.market tx
    | none => True
  | .resume index _ =>
    match w.tasks[index]? with
    | some (.terminalize offerId _) => NoneLive w.market offerId
    | _ => True
  | _ => True

instance (w : World) (a : Action) : Decidable (Unraced w a) :=
  match a with
  | .advanceCancellation index =>
    match hopen : w.openCancellations[index]? with
    | some tx => decidable_of_iff (StillUnpaid w.market tx) (by simp only [Unraced, hopen])
    | none => isTrue (by simp only [Unraced, hopen])
  | .resume index _ =>
    match htask : w.tasks[index]? with
    | some (.terminalize offerId _) =>
      decidable_of_iff (NoneLive w.market offerId) (by simp only [Unraced, htask])
    | none | some (.createIntent _) | some (.settleEvent ..) | some (.sweepOne _)
    | some (.redeemWrite ..) | some (.sweepNoShow _) | some (.publishDue _)
    | some (.killSwitch _) | some (.cancelNext _) | some (.refund ..)
    | some (.recordRefund ..) | some (.recordSent ..) | some (.moveRefunded ..)
    | some (.releaseRefundClaim _) => isTrue (by simp only [Unraced, htask])
  | .create .. | .webhook _ | .sweepStaleIntents _ | .cancel .. | .redeem .. | .sweepNoShows _
  | .refundRedeemed _ | .createOffer .. | .publish .. | .schedule .. | .close ..
  | .publishDueScheduled _ | .cancelOffer .. | .adminCancel .. | .adminSuspend _ | .catalogue _
  | .rollbackCancellation _ => isTrue trivial

end Conditions

section Coverage

variable {c : Cause} {m m' : Market} {tx tx' : OfferCancellation}

/-- Every live reservation of the offer is still to be handled or was taken. -/
def Covered (m : Market) (tx : OfferCancellation) : Prop :=
  tx.phase ≠ .readCandidates → ∀ r ∈ m.reservations.rows, r.offerId = tx.offer.id →
    liveReservation r.status → r.id ∈ (FanOutPhase.remaining tx.phase).map (·.1.id) ∨ r ∈ taken tx

/-- A creation changes the row of its offer. -/
theorem claimRow_ne {qty : ℤ} (hqty : 0 < qty) (o : Offer) : claimRow qty o ≠ o := by
  intro h
  have hreserved := congrArg Offer.qtyReserved h
  change o.qtyReserved+qty = o.qtyReserved at hreserved
  omega

/-- Other transactions keep an open cancellation covered. -/
theorem covered_kept (h : Effect m c m') (hlocked : ¬ tx.changesLocked m m')
    (hcov : Covered m tx) : Covered m' tx := by
  unfold OfferCancellation.changesLocked at hlocked
  push Not at hlocked
  obtain ⟨hoffer, _, hreservations⟩ := hlocked
  intro hphase r' hr' hid hlive
  rcases reservation_origin h hr' with ⟨r, hr, hsucc⟩ | ⟨_, hqty, o, ho, _, hrep⟩
  · have hrid : r.offerId = tx.offer.id := hsucc.offerId.symm.trans hid
    rcases hcov hphase r hr hrid (hsucc.live_falls hlive) with hin | htaken
    · rw [← hsucc.same_id] at hin
      exact Or.inl hin
    · have hfind := hreservations r htaken
      rw [Table.find?_of_mem hr] at hfind
      have he := m'.reservations.eq_of_key_eq (Table.find?_eq_some.mp hfind).1 hr'
        hsucc.same_id.symm
      rw [← he]
      exact Or.inr htaken
  · have hnew := hrep.find?_self
    rw [ho, hid, hoffer, ← hid, ← ho, Table.find?_of_mem hrep.mem_old] at hnew
    exact absurd (Option.some.inj hnew).symm (claimRow_ne hqty o)

section CurrentCandidate

variable {reservation : Reservation} {payment : Payment} {rest : List Candidate}

/-- Handling a candidate keeps the cover if its reservation was taken when live. -/
theorem covered_next (hcov : Covered m tx)
    (hphase : tx.phase = .moveReservation reservation payment rest)
    (hrest : tx'.phase = .failIntent rest) (hoffer : tx'.offer.id = tx.offer.id)
    (htaken : ∀ r ∈ taken tx, r ∈ taken tx')
    (hcurrent : ∀ r ∈ m.reservations.rows, r.id = reservation.id → liveReservation r.status →
      r ∈ taken tx') : Covered m tx' := by
  intro _ r hr hid hlive
  have hold := hcov (by rw [hphase]; simp) r hr (hid.trans hoffer) hlive
  rw [hphase] at hold
  rcases hold with hin | hin
  · rcases List.mem_cons.mp hin with hcur | hin
    · exact Or.inr (hcurrent r hr hcur hlive)
    · rw [hrest]
      exact Or.inl hin
  · exact Or.inr (htaken r hin)

theorem covered_expire (hcov : Covered m tx)
    (hphase : tx.phase = .moveReservation reservation payment rest)
    (hunpaid : ∀ r ∈ m.reservations.rows, r.id = reservation.id → r.status ≠ .confirmed) :
    Covered m { tx.expireCandidate m reservation with phase := .failIntent rest } := by
  have hpending : ∀ r ∈ m.reservations.rows, r.id = reservation.id → liveReservation r.status →
      r.status ∈ allowedReservationFrom .expired := by
    intro r hr hid hlive
    rw [allowedReservationFrom_expired, List.mem_singleton]
    exact hlive.resolve_right (hunpaid r hr hid)
  unfold OfferCancellation.expireCandidate
  split
  · rename_i hnone
    refine covered_next hcov hphase rfl rfl (fun _ h => h) fun r hr hid hlive => ?_
    exact absurd (hpending r hr hid hlive) (reservationIn_eq_none hnone hr hid)
  · rename_i current hsome
    obtain ⟨hcur, hcid, _⟩ := reservationIn_eq_some hsome
    refine covered_next hcov hphase rfl (releaseOwn_id _ _) (fun _ h => ?_) fun r hr hid _ => ?_
    · exact List.mem_cons_of_mem _ h
    · rw [m.reservations.eq_of_key_eq hr hcur (hid.trans hcid.symm)]
      exact List.mem_cons_self

theorem covered_cancel (hs : CancellationSound m tx) (hcov : Covered m tx)
    (hphase : tx.phase = .moveReservation reservation payment rest)
    (hread : reservation.status ≠ .pendingPayment) :
    Covered m { tx.cancelCandidate m reservation payment with phase := .failIntent rest } := by
  obtain ⟨row, hrow, hrid, _, _, hpending, _⟩ := current_row hs hphase
  have hconfirmed : ∀ r ∈ m.reservations.rows, r.id = reservation.id → liveReservation r.status →
      r.status ∈ allowedReservationFrom .cancelledByMerchant := by
    intro r hr hid hlive
    rw [allowedReservationFrom_cancelledByMerchant, List.mem_singleton]
    have he := m.reservations.eq_of_key_eq hr hrow (hid.trans hrid.symm)
    rw [he] at hlive ⊢
    exact hlive.resolve_left (hpending hread)
  unfold OfferCancellation.cancelCandidate
  split
  · rename_i hnone
    refine covered_next hcov hphase rfl rfl (fun _ h => h) fun r hr hid hlive => ?_
    exact absurd (hconfirmed r hr hid hlive) (reservationIn_eq_none hnone hr hid)
  · rename_i current hsome
    obtain ⟨hcur, hcid, _⟩ := reservationIn_eq_some hsome
    refine covered_next hcov hphase rfl (releaseOwn_id _ _) (fun r h => ?_) fun r hr hid _ => ?_
    · rcases List.mem_append.mp h with h | h
      · exact List.mem_append_left _ h
      · exact List.mem_append_right _ (List.mem_cons_of_mem _ h)
    · rw [m.reservations.eq_of_key_eq hr hcur (hid.trans hcid.symm)]
      exact List.mem_append_right _ List.mem_cons_self

end CurrentCandidate

/-- The statements of a fan-out keep it covered if they find what was read. -/
theorem covered_advance (hs : CancellationSound m tx) (hcov : Covered m tx)
    (hunpaid : StillUnpaid m tx) (h : tx.advance m = some tx') : Covered m tx' := by
  unfold OfferCancellation.advance at h
  split at h
  · rename_i hphase
    cases h
    intro _ r hr hid hlive
    refine Or.inl (List.mem_map.mpr ⟨(r, m.payments.find? r.id), ?_, rfl⟩)
    exact List.mem_map.mpr ⟨r, List.mem_filter.mpr ⟨hr, decide_eq_true ⟨hid, hlive⟩⟩, rfl⟩
  · cases h
  · rename_i reservation rest hphase
    obtain ⟨_, read, hread, _⟩ := hs.candidates (reservation, none)
      (by rw [hphase]; exact List.mem_cons_self)
    cases hread
  · rename_i reservation payment rest hphase
    cases h
    intro _ r hr hid hlive
    have hold := hcov (by rw [hphase]; simp) r hr hid hlive
    rw [hphase] at hold
    exact hold
  · rename_i reservation payment rest hphase
    cases h
    by_cases hread : reservation.status = .pendingPayment
    · simp only [if_pos hread]
      apply covered_expire hcov hphase
      simp only [StillUnpaid, hphase] at hunpaid
      exact hunpaid hread
    · simp only [if_neg hread]
      exact covered_cancel hs hcov hphase hread

end Coverage

section Clearance

variable {c : Cause} {m m' : Market}

/-- A cancelled offer was cancelled before, or the cause of the transaction tells how
it came about. -/
theorem cancelled_origin (h : Effect m c m') {o' : Offer} (ho' : o' ∈ m'.offers.rows)
    (hs : o'.status = .cancelled) :
    (∃ o ∈ m.offers.rows, o.id = o'.id ∧ o.status = .cancelled) ∨ c = .terminalized o'.id ∨
      ∃ tx, c = .cancelled tx ∧ tx.offer.id = o'.id ∧ CancellationSound m tx ∧
        tx.phase = .failIntent [] ∧ m' = tx.commit m := by
  cases h with
  | idle hoffers _ _ =>
    rw [hoffers] at ho'
    exact Or.inl ⟨o', ho', rfl, hs⟩
  | created hclaimable _ _ _ _ _ _ _ hoffers _ _ =>
    obtain ⟨o, ho, hk, rfl | ⟨rfl, rfl⟩⟩ := hoffers.exists_old ho'
    · exact Or.inl ⟨o', ho, rfl, hs⟩
    · simp only [claimRow] at hs
      split_ifs at hs
      rw [hclaimable.1] at hs
      cases hs
  | moved _ _ hstock _ _ =>
    left
    cases hstock with
    | released _ _ _ _ hrep =>
      obtain ⟨o, ho, hk, rfl | ⟨rfl, rfl⟩⟩ := hrep.exists_old ho'
      · exact ⟨o', ho, rfl, hs⟩
      · refine ⟨o, ho, hk.symm, ?_⟩
        simp only [releaseRow] at hs
        split_ifs at hs
        exact hs
    | counted _ _ _ hrep =>
      obtain ⟨o, ho, hk, rfl | ⟨rfl, rfl⟩⟩ := hrep.exists_old ho'
      · exact ⟨o', ho, rfl, hs⟩
      · exact ⟨o, ho, hk.symm, hs⟩
    | kept hoffers _ _ =>
      rw [hoffers] at ho'
      exact ⟨o', ho', rfl, hs⟩
  | offerMoved hmove hcause hoffers _ _ =>
    obtain ⟨o, ho, hk, rfl | ⟨rfl, rfl⟩⟩ := hoffers.exists_old ho'
    · exact Or.inl ⟨o', ho, rfl, hs⟩
    · rw [hk]
      exact Or.inr (Or.inl (hcause hs))
  | offerCreated _ _ hstatus _ hoffers _ _ =>
    rw [hoffers] at ho'
    rcases Table.mem_insertNew.mp ho' with ho | ⟨rfl, _⟩
    · exact Or.inl ⟨o', ho, rfl, hs⟩
    · rw [hstatus] at hs
      cases hs
  | @cancelled tx hsound hdone =>
    obtain ⟨o, ho, rfl⟩ := List.mem_map.mp ho'
    by_cases hid : o.id = tx.offer.id
    · refine Or.inr (Or.inr ⟨tx, rfl, ?_, hsound, hdone, rfl⟩)
      rw [if_pos hid]
      exact hid.symm
    · rw [if_neg hid] at hs ⊢
      exact Or.inl ⟨o, ho, rfl, hs⟩

/-- A covered fan-out that is done leaves no live reservation behind. -/
theorem noneLive_commit {tx : OfferCancellation} (hs : CancellationSound m tx)
    (hdone : tx.phase = .failIntent []) (hcov : Covered m tx) :
    NoneLive (tx.commit m) tx.offer.id := by
  intro r' hr' hid hlive
  obtain ⟨r, hr, rfl⟩ := mem_commit_reservations.mp hr'
  have hoffer : r.offerId = tx.offer.id := (afterReservation_keeps tx r).2.1.symm.trans hid
  have htaken := hcov (by rw [hdone]; simp) r hr hoffer ((succeeds_commit tx r).live_falls hlive)
  rw [hdone] at htaken
  rcases htaken with hin | htaken
  · cases hin
  · rcases afterReservation_cases hs hr with ⟨_, he⟩ | ⟨_, he⟩ | ⟨hnot, _⟩
    · rw [he] at hlive
      exact (by decide : ¬ liveReservation .expired) hlive
    · rw [he] at hlive
      exact (by decide : ¬ liveReservation .cancelledByMerchant) hlive
    · exact hnot htaken

/-- Cancelled offers stay without live reservations, and become so. -/
theorem noneLive_kept (h : Effect m c m')
    (hclear : ∀ o ∈ m.offers.rows, o.status = .cancelled → NoneLive m o.id)
    (hterm : ∀ offerId, c = .terminalized offerId → NoneLive m offerId)
    (hcov : ∀ tx, c = .cancelled tx → Covered m tx) :
    ∀ o ∈ m'.offers.rows, o.status = .cancelled → NoneLive m' o.id := by
  intro o' ho' hs r' hr' hid hlive
  rcases cancelled_origin h ho' hs with ⟨o, ho, hoid, hos⟩ | hc | ⟨tx, hc, htx, hsound, hdone, rfl⟩
  · rcases reservation_origin h hr' with ⟨r, hr, hsucc⟩ | ⟨_, _, o₁, ho₁, hclaimable, hrep⟩
    · refine hclear o ho hos r hr ?_ (hsucc.live_falls hlive)
      rw [← hsucc.offerId, hid, hoid]
    · have he := m.offers.eq_of_key_eq hrep.mem_old ho (by rw [ho₁, hid, hoid])
      rw [he] at hclaimable
      rw [hclaimable.1] at hos
      cases hos
  · rcases reservation_origin h hr' with ⟨r, hr, hsucc⟩ | ⟨hcreated, _⟩
    · exact hterm _ hc r hr (hsucc.offerId.symm.trans hid) (hsucc.live_falls hlive)
    · rw [hc] at hcreated
      cases hcreated
  · exact noneLive_commit hsound hdone (hcov tx hc) r' hr' (hid.trans htx.symm) hlive

end Clearance

section Runs

/-- Cancelled offers have no live reservation, and open fan-outs are covered. -/
structure CancellationsClear (w : World) : Prop where
  cancelled : ∀ o ∈ w.market.offers.rows, o.status = .cancelled → NoneLive w.market o.id
  covered : ∀ tx ∈ w.openCancellations, Covered w.market tx

theorem causeOf_terminalized {w : World} {a : Action} {offerId : OfferId}
    (h : causeOf w a = .terminalized offerId) (hok : Unraced w a) : NoneLive w.market offerId := by
  cases a with
  | resume index input =>
    simp only [causeOf] at h
    simp only [Unraced] at hok
    split at h
    · rename_i hget
      cases h
      simpa only [hget] using hok
    · cases h
  | advanceCancellation index =>
    simp only [causeOf] at h
    split at h <;> cases h
  | _ => cases h

theorem causeOf_cancelled {w : World} {a : Action} {tx : OfferCancellation}
    (h : causeOf w a = .cancelled tx) (hok : Unraced w a) :
    tx ∈ w.openCancellations ∧ StillUnpaid w.market tx := by
  obtain ⟨index, rfl, hget⟩ := mem_of_causeOf h
  exact ⟨List.mem_of_getElem? hget, by simpa only [Unraced, hget] using hok⟩

theorem clear_step {w w' : World} {a : Action} (hw : WorldSound w) (hclear : CancellationsClear w)
    (hok : Unraced w a) (h : step w a = some w') : CancellationsClear w' := by
  obtain ⟨_, heffect, hcontinues⟩ := step_steps hw h
  constructor
  · refine noneLive_kept heffect hclear.cancelled ?_ ?_
    · intro offerId hc
      exact causeOf_terminalized hc hok
    · intro tx hc
      exact hclear.covered tx (causeOf_cancelled hc hok).1
  · intro tx hmem
    rcases hcontinues tx hmem with ⟨hold, hlocked⟩ | hphase | ⟨before, hc, hadvance, hm⟩
    · exact covered_kept heffect hlocked (hclear.covered tx hold)
    · exact fun hne => absurd hphase hne
    · obtain ⟨hbefore, hunpaid⟩ := causeOf_cancelled hc hok
      rw [hm]
      exact covered_advance (hw.cancellations before hbefore) (hclear.covered before hbefore)
        hunpaid hadvance

theorem clear_of_reachable {w : World} (h : MarketReachable Unraced w) : CancellationsClear w := by
  refine h.invariant_of (J := WorldSound) (fun _ => sound_of_reachable) ?_ ?_
  · intro w hi
    constructor
    · simp [hi.offers]
    · simp [hi.openCancellations]
  · intro w a w' hw _ hclear hok ht
    exact clear_step hw hclear hok ht

/-- A refund of the payment is among those that the refund step has to request. -/
def HandedToRefund (w : World) (p : Payment) : Prop :=
  ∃ call rest next, Task.refund call rest next ∈ w.tasks ∧ ∃ due ∈ call :: rest,
    due.reservationId = p.reservationId ∧ due.merchantOid = p.merchantOid ∧
      due.amountCents = p.amountCents

theorem handed_continueRefunds (w : World) {calls : List RefundCall} (next : List OfferId)
    {p : Payment} (h : ∃ due ∈ calls, due.reservationId = p.reservationId ∧
      due.merchantOid = p.merchantOid ∧ due.amountCents = p.amountCents) :
    HandedToRefund (w.continueRefunds calls next) p := by
  cases calls with
  | nil =>
    obtain ⟨due, hdue, _⟩ := h
    cases hdue
  | cons call rest => exact ⟨call, rest, next, List.mem_cons_self, h⟩

/-- When a fan-out commits, the reservations of the offer that are paid then are
handed to the refund step. -/
theorem paid_handed_over {w w' : World} {index : ℕ} {tx : OfferCancellation} (hw : WorldSound w)
    (hclear : CancellationsClear w) (hget : w.openCancellations[index]? = some tx)
    (hdone : tx.advance w.market = none) (h : step w (.advanceCancellation index) = some w')
    {r : Reservation} (hr : r ∈ w.market.reservations.rows) (hid : r.offerId = tx.offer.id)
    (hstatus : r.status = .confirmed) :
    ∃ p ∈ w.market.payments.rows, p.reservationId = r.id ∧ p.status = .paid ∧
      HandedToRefund w' p := by
  have hmem := List.mem_of_getElem? hget
  have hs := hw.cancellations tx hmem
  have hphase := advance_eq_none hdone
  have hlive := hclear.covered tx hmem (by rw [hphase]; simp) r hr hid (Or.inr hstatus)
  rw [hphase] at hlive
  have htaken := hlive.resolve_left fun hin => by cases hin
  have hcancelled : r ∈ tx.cancelled := by
    rcases List.mem_append.mp htaken with hexpired | hcancelled
    · rw [(hs.expired_rows r hexpired).2.2.1] at hstatus
      cases hstatus
    · exact hcancelled
  obtain ⟨p, hp, hpid, hitem⟩ := hs.refunds_due r hcancelled
  have hpaid := hw.consistent.jointly_of hr hp hpid
  rw [hstatus] at hpaid
  refine ⟨p, hp, hpid, hpaid, ?_⟩
  obtain ⟨tx₂, hget₂, hcases⟩ := advanceCancellation_cases h
  rw [hget] at hget₂
  cases hget₂
  rcases hcases with ⟨tx', hadvance, _⟩ | ⟨_, w₁, _, rfl⟩
  · rw [hdone] at hadvance
    cases hadvance
  · apply handed_continueRefunds
    exact ⟨_, List.mem_map.mpr ⟨_, hitem, rfl⟩, hpid.symm, rfl, rfl⟩

end Runs

/-- In every run whose steps are not raced: a cancelled offer has no reservation that
is pending or confirmed, and when a cancellation commits, every confirmed reservation
of its offer was paid and is handed to the refund step. -/
theorem cancelled_offers_cleared {w : World} (h : MarketReachable Unraced w) :
    (∀ o ∈ w.market.offers.rows, o.status = .cancelled → ∀ r ∈ w.market.reservations.rows,
      r.offerId = o.id → r.status ≠ .pendingPayment ∧ r.status ≠ .confirmed) ∧
    ∀ index tx w', w.openCancellations[index]? = some tx → tx.advance w.market = none →
      step w (.advanceCancellation index) = some w' → ∀ r ∈ w.market.reservations.rows,
        r.offerId = tx.offer.id → r.status = .confirmed → ∃ p ∈ w.market.payments.rows,
          p.reservationId = r.id ∧ p.status = .paid ∧ HandedToRefund w' p := by
  have hclear := clear_of_reachable h
  constructor
  · intro o ho hs r hr hid
    exact not_or.mp (hclear.cancelled o ho hs r hr hid)
  · intro index tx w' hget hdone hstep r hr hid hs
    exact paid_handed_over (sound_of_reachable h) hclear hget hdone hstep hr hid hs

/-- An offer with a paid and an unpaid reservation is cancelled, up to the commit. -/
def cancelledInOneGo : List Action :=
  openOffer 3 ++ book 1 1 0 ++ pay 1 5000 0 ++ book 2 1 0 ++ [.cancelOffer 1 1] ++
    List.replicate 5 (.advanceCancellation 0)

theorem cancelled_offers_cleared_cancelledInOneGo :
    ∃ w w', MarketReachable Unraced w' ∧ step w (.advanceCancellation 0) = some w' ∧
      (∃ r ∈ w.market.reservations.rows, r.status = .confirmed ∧
        ∃ p ∈ w.market.payments.rows, p.reservationId = r.id ∧ HandedToRefund w' p) ∧
      ∃ o ∈ w'.market.offers.rows, o.status = .cancelled ∧
        ∀ r ∈ w'.market.reservations.rows, r.offerId = o.id → r.status ≠ .confirmed := by
  have hw : MarketReachable Unraced (sampleState cancelledInOneGo) :=
    sampleState_guarded (by decide +kernel) (by decide +kernel)
  have hnext : (step (sampleState cancelledInOneGo) (.advanceCancellation 0)).any (fun w =>
      decide (∃ o ∈ w.market.offers.rows, o.status = .cancelled)) = true := by decide +kernel
  obtain ⟨w', hstep, hany⟩ := (Option.any_eq_true ..).mp hnext
  obtain ⟨o, ho, hos⟩ := of_decide_eq_true hany
  have hw' : MarketReachable Unraced w' := hw.next (by decide +kernel) hstep
  have hopen : (sampleState cancelledInOneGo).openCancellations[0]?.any (fun tx =>
      (tx.advance (sampleState cancelledInOneGo).market).isNone &&
        decide (∃ r ∈ (sampleState cancelledInOneGo).market.reservations.rows,
          r.offerId = tx.offer.id ∧ r.status = .confirmed)) = true := by decide +kernel
  obtain ⟨tx, hget, hready⟩ := (Option.any_eq_true ..).mp hopen
  obtain ⟨hdone, hpaid⟩ := (Bool.and_eq_true ..).mp hready
  obtain ⟨r, hr, hid, hrs⟩ := of_decide_eq_true hpaid
  obtain ⟨p, hp, hpid, _, hhanded⟩ := (cancelled_offers_cleared hw).2 0 tx w' hget
    (Option.isNone_iff_eq_none.mp hdone) hstep r hr hid hrs
  refine ⟨_, w', hw', hstep, ⟨r, hr, hrs, p, hp, hpid, hhanded⟩, o, ho, hos, ?_⟩
  intro s hs hsid
  exact ((cancelled_offers_cleared hw').1 o ho hos s hs hsid).2

/-- The fan-out has read an unpaid reservation that is paid before its turn. -/
def paidDuringFanOut : List Action :=
  openOffer 3 ++ book 1 1 0 ++ [.cancelOffer 1 1, .advanceCancellation 0] ++ pay 1 5000 0 ++
    List.replicate 3 (.advanceCancellation 0)

/-- A sweep has listed a scheduled offer that its merchant publishes; after a sale
the sweep gets to it when its window is over. -/
def publishedDuringSweep : List Action :=
  let lastMinute := 20*hourMs-60000
  [createSampleOffer 3, .schedule 1 1 lastMinute 0, .publishDueScheduled lastMinute,
      .publish 1 1 lastMinute] ++
    book 1 1 lastMinute ++ pay 1 5000 lastMinute ++ [proceed (20*hourMs), proceed (20*hourMs)]

/-- A paid reservation is left on a cancelled offer and nobody is going to refund it. -/
def PaidOnCancelled (w : World) : Prop :=
  w.tasks.isEmpty ∧ w.openCancellations.isEmpty ∧ w.providerRefunds = [] ∧
    ∃ o ∈ w.market.offers.rows, o.status = .cancelled ∧ ∃ r ∈ w.market.reservations.rows,
      r.offerId = o.id ∧ r.status = .confirmed

instance : DecidablePred PaidOnCancelled := fun w => by
  unfold PaidOnCancelled
  infer_instance

theorem paidDuringFanOut_left :
    (MarketReachable anyStep (sampleState paidDuringFanOut) ∧
      PaidOnCancelled (sampleState paidDuringFanOut)) ∧
    MarketReachable anyStep (sampleState publishedDuringSweep) ∧
      PaidOnCancelled (sampleState publishedDuringSweep) := by
  constructor
  · exact ⟨sampleState_reachable (by decide +kernel), by decide +kernel⟩
  · exact ⟨sampleState_reachable (by decide +kernel), by decide +kernel⟩

end Kurtar.CancelledOffers

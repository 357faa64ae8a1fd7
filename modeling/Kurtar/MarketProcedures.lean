import Kurtar.MarketConsistency

/-!
# Procedures stay in step with the stored rows

What a task or an open cancellation has read stays true of the rows that
other transactions may have moved meanwhile: a row keeps its identity and
never becomes live again, and a locked row is not touched. Together with the
consistency of the rows this is the invariant of every run.
-/

namespace Kurtar.MarketProcedures

open KeyedTable GuardedRuns StatusTransitions IstanbulCalendar Marketplace ReservationTransactions
open OfferLifecycle MarketService MarketEffects MarketConsistency

section Succession

/-- A reservation row and a later version of it. -/
structure Succeeds (r r' : Reservation) : Prop where
  same_id : r'.id = r.id
  offerId : r'.offerId = r.offerId
  qty : r'.qty = r.qty
  createdAt : r'.createdAt = r.createdAt
  pending_falls : r'.status = .pendingPayment → r.status = .pendingPayment
  live_falls : liveReservation r'.status → liveReservation r.status

theorem Succeeds.refl (r : Reservation) : Succeeds r r := ⟨rfl, rfl, rfl, rfl, id, id⟩

/-- A payment row and a later version of it. -/
structure PaymentSucceeds (p p' : Payment) : Prop where
  reservationId : p'.reservationId = p.reservationId
  merchantOid : p'.merchantOid = p.merchantOid
  amountCents : p'.amountCents = p.amountCents
  live_falls : liveIntent p'.status → liveIntent p.status

theorem PaymentSucceeds.refl (p : Payment) : PaymentSucceeds p p := ⟨rfl, rfl, rfl, id⟩

variable {c : Cause} {m m' : Market}

theorem succeeds_move {r r' : Reservation} {p p' : Payment} (h : Move r p r' p') :
    Succeeds r r' := by
  obtain ⟨hid, hoffer, hqty, hcreated⟩ := h.keeps_reservation
  exact ⟨hid, hoffer, hqty, hcreated, h.status_falls.1, h.status_falls.2⟩

theorem paymentSucceeds_move {r r' : Reservation} {p p' : Payment} (h : Move r p r' p') :
    PaymentSucceeds p p' := by
  obtain ⟨hid, hoid, hamount⟩ := h.keeps_payment
  exact ⟨hid, hoid, hamount, h.intent_falls⟩

theorem succeeds_commit (tx : OfferCancellation) (r : Reservation) :
    Succeeds r (afterReservation tx r) := by
  obtain ⟨hid, hoffer, hqty, hcreated⟩ := afterReservation_keeps tx r
  refine ⟨hid, hoffer, hqty, hcreated, ?_, ?_⟩
  · unfold afterReservation
    by_cases he : r.id ∈ tx.expired.map (·.id)
    · simp only [if_pos he]
      split_ifs <;> simp [markExpired, markCancelledByMerchant]
    · simp only [if_neg he]
      split_ifs <;> simp [markCancelledByMerchant]
  · unfold afterReservation
    by_cases he : r.id ∈ tx.expired.map (·.id)
    · simp only [if_pos he]
      split_ifs <;> simp [markExpired, markCancelledByMerchant, liveReservation]
    · simp only [if_neg he]
      split_ifs <;> simp [markCancelledByMerchant, liveReservation]

theorem paymentSucceeds_commit (tx : OfferCancellation) (p : Payment) :
    PaymentSucceeds p (afterPayment tx p) := by
  obtain ⟨hid, hoid, hamount⟩ := afterPayment_keeps tx p
  refine ⟨hid, hoid, hamount, ?_⟩
  unfold afterPayment
  split_ifs
  · simp [markFailed, liveIntent]
  · exact id

/-- Every reservation has a later version. -/
theorem reservation_kept (h : Effect m c m') {r : Reservation} (hr : r ∈ m.reservations.rows) :
    ∃ r' ∈ m'.reservations.rows, Succeeds r r' := by
  cases h with
  | idle _ hreservations _ =>
    rw [hreservations]
    exact ⟨r, hr, .refl r⟩
  | created _ _ _ _ _ _ _ _ _ hreservations _ =>
    rw [hreservations]
    exact ⟨r, Table.mem_insertNew.mpr (Or.inl hr), .refl r⟩
  | moved hmove _ _ hreservations _ =>
    obtain ⟨s, hs, _, rfl | ⟨rfl, rfl⟩⟩ := hreservations.exists_new hr
    · exact ⟨s, hs, .refl s⟩
    · exact ⟨s, hs, succeeds_move hmove⟩
  | offerMoved _ _ _ hreservations _ =>
    rw [hreservations]
    exact ⟨r, hr, .refl r⟩
  | offerCreated _ _ _ _ _ hreservations _ =>
    rw [hreservations]
    exact ⟨r, hr, .refl r⟩
  | cancelled _ _ => exact ⟨_, mem_commit_reservations.mpr ⟨r, hr, rfl⟩, succeeds_commit _ r⟩

/-- Every reservation has an earlier version, or its creation has just claimed the stock. -/
theorem reservation_origin (h : Effect m c m') {r' : Reservation}
    (hr : r' ∈ m'.reservations.rows) :
    (∃ r ∈ m.reservations.rows, Succeeds r r') ∨
      c = .created r'.offerId r'.createdAt ∧ 0 < r'.qty ∧ ∃ o, o.id = r'.offerId ∧
        claimable m r'.qty o ∧ Table.Replaces m.offers m'.offers o (claimRow r'.qty o) := by
  cases h with
  | idle _ hreservations _ =>
    rw [hreservations] at hr
    exact Or.inl ⟨r', hr, .refl r'⟩
  | created hclaimable ho hqty _ _ _ _ _ hoffers hreservations _ =>
    rw [hreservations] at hr
    rcases Table.mem_insertNew.mp hr with hr | ⟨rfl, _⟩
    · exact Or.inl ⟨r', hr, .refl r'⟩
    · exact Or.inr ⟨rfl, hqty, _, ho, hclaimable, hoffers⟩
  | moved hmove _ _ hreservations _ =>
    obtain ⟨r, hr, _, rfl | ⟨rfl, rfl⟩⟩ := hreservations.exists_old hr
    · exact Or.inl ⟨r', hr, .refl r'⟩
    · exact Or.inl ⟨r, hr, succeeds_move hmove⟩
  | offerMoved _ _ _ hreservations _ =>
    rw [hreservations] at hr
    exact Or.inl ⟨r', hr, .refl r'⟩
  | offerCreated _ _ _ _ _ hreservations _ =>
    rw [hreservations] at hr
    exact Or.inl ⟨r', hr, .refl r'⟩
  | cancelled _ _ =>
    obtain ⟨r, hmem, rfl⟩ := mem_commit_reservations.mp hr
    exact Or.inl ⟨r, hmem, succeeds_commit _ r⟩

/-- Every payment has a later version. -/
theorem payment_kept (h : Effect m c m') {p : Payment} (hp : p ∈ m.payments.rows) :
    ∃ p' ∈ m'.payments.rows, PaymentSucceeds p p' := by
  cases h with
  | idle _ _ hpayments =>
    rw [hpayments]
    exact ⟨p, hp, .refl p⟩
  | created _ _ _ _ _ _ _ _ _ _ hpayments =>
    rw [hpayments]
    exact ⟨p, Table.mem_insertNew.mpr (Or.inl hp), .refl p⟩
  | moved hmove _ _ _ hpayments =>
    obtain ⟨q, hq, _, rfl | ⟨rfl, rfl⟩⟩ := hpayments.exists_new hp
    · exact ⟨q, hq, .refl q⟩
    · exact ⟨q, hq, paymentSucceeds_move hmove⟩
  | offerMoved _ _ _ _ hpayments =>
    rw [hpayments]
    exact ⟨p, hp, .refl p⟩
  | offerCreated _ _ _ _ _ _ hpayments =>
    rw [hpayments]
    exact ⟨p, hp, .refl p⟩
  | cancelled _ _ => exact ⟨_, mem_commit_payments.mpr ⟨p, hp, rfl⟩, paymentSucceeds_commit _ p⟩

end Succession

section Tasks

/-- The rest of a procedure agrees with the stored rows. -/
def TaskSound (m : Market) : Task → Prop
  | .createIntent committed => CommittedSound m committed
  | .redeemWrite _ read => ReadSound m read
  | .refund call rest _ => ∀ due ∈ call :: rest, RefundSound m due
  | .recordRefund call _ rest _ => ∀ due ∈ call :: rest, RefundSound m due
  | .recordSent call _ rest _ => ∀ due ∈ call :: rest, RefundSound m due
  | .moveRefunded call rest _ => ∀ due ∈ call :: rest, RefundSound m due
  | _ => True

variable {c : Cause} {m m' : Market}

theorem refundSound_kept (h : Effect m c m') {due : RefundCall} (hs : RefundSound m due) :
    RefundSound m' due := by
  obtain ⟨hfrom, r, hr, hid, hlive⟩ := hs
  obtain ⟨r', hr', hsucc⟩ := reservation_kept h hr
  exact ⟨hfrom, r', hr', hsucc.same_id.trans hid, fun hl => hlive (hsucc.live_falls hl)⟩

theorem taskSound_kept (h : Effect m c m') {task : Task} (hs : TaskSound m task) :
    TaskSound m' task := by
  cases task with
  | createIntent committed =>
    obtain ⟨⟨r, hr, hid, hoffer, hqty⟩, p, hp, hpid, hoid⟩ := hs
    obtain ⟨r', hr', hsucc⟩ := reservation_kept h hr
    obtain ⟨p', hp', hpsucc⟩ := payment_kept h hp
    exact ⟨⟨r', hr', hsucc.same_id.trans hid, hsucc.offerId.trans hoffer, hsucc.qty.trans hqty⟩,
      p', hp', hpsucc.reservationId.trans hpid, hpsucc.merchantOid.trans hoid⟩
  | redeemWrite redeemer read =>
    obtain ⟨r, hr, hid, hoffer, hqty⟩ := hs
    obtain ⟨r', hr', hsucc⟩ := reservation_kept h hr
    exact ⟨r', hr', hsucc.same_id.trans hid, hsucc.offerId.trans hoffer, hsucc.qty.trans hqty⟩
  | refund call rest next => exact fun due hdue => refundSound_kept h (hs due hdue)
  | recordRefund call refundRef rest next => exact fun due hdue => refundSound_kept h (hs due hdue)
  | recordSent call refundRef rest next => exact fun due hdue => refundSound_kept h (hs due hdue)
  | moveRefunded call rest next => exact fun due hdue => refundSound_kept h (hs due hdue)
  | _ => trivial

end Tasks

section OpenTransactions

variable {c : Cause} {m m' : Market} {tx tx' : OfferCancellation}

/-- The reservation at hand is one of the remaining candidates. -/
theorem mem_remaining_of_current {phase : FanOutPhase} {id : ReservationId}
    (h : id ∈ FanOutPhase.current phase) :
    ∃ candidate ∈ FanOutPhase.remaining phase, candidate.1.id = id := by
  cases phase with
  | moveReservation reservation payment rest =>
    exact ⟨_, List.mem_cons_self, (List.mem_singleton.mp h).symm⟩
  | readCandidates => cases h
  | failIntent candidates => cases h

/-- A candidate's payment that is live was live before. -/
theorem hasLiveIntent_falls (h : Effect m c m') {offerId : OfferId} {candidate : Candidate}
    (hcandidate : CandidateOf m offerId candidate) (hlive : hasLiveIntent m' candidate.1.id) :
    hasLiveIntent m candidate.1.id := by
  obtain ⟨_, _, _, p, hp, hpid, _⟩ := hcandidate
  obtain ⟨p', hp', hsucc⟩ := payment_kept h hp
  obtain ⟨q, hq, hqid, hqlive⟩ := hlive
  have he : q = p' := m'.payments.eq_of_key_eq hq hp' (by rw [hqid, hsucc.reservationId, hpid])
  rw [he] at hqlive
  exact ⟨p, hp, hpid, hsucc.live_falls hqlive⟩

theorem candidateOf_kept (h : Effect m c m') {offerId : OfferId} {candidate : Candidate}
    (hcandidate : CandidateOf m offerId candidate) : CandidateOf m' offerId candidate := by
  obtain ⟨⟨r, hr, hid, hoffer, hqty, hpending⟩, read, hread, p, hp, hpid, hoid, hamount⟩ := hcandidate
  obtain ⟨r', hr', hsucc⟩ := reservation_kept h hr
  obtain ⟨p', hp', hpsucc⟩ := payment_kept h hp
  refine ⟨⟨r', hr', hsucc.same_id.trans hid, hsucc.offerId.trans hoffer, hsucc.qty.trans hqty, ?_⟩,
    read, hread, p', hp', hpsucc.reservationId.trans hpid, hpsucc.merchantOid.trans hoid,
    hpsucc.amountCents.trans hamount⟩
  intro hne hs'
  exact hpending hne (hsucc.pending_falls hs')

/-- An open cancellation stays sound while nobody touches the rows it has locked. -/
theorem cancellationSound_kept (h : Effect m c m')
    (hlocked : ¬ tx.changesLocked m m') (hs : CancellationSound m tx) :
    CancellationSound m' tx := by
  unfold OfferCancellation.changesLocked at hlocked
  push Not at hlocked
  obtain ⟨hoffer, hpayments, hreservations⟩ := hlocked
  have hrow : ∀ r ∈ tx.expired ++ tx.cancelled, r ∈ m.reservations.rows →
      r ∈ m'.reservations.rows := by
    intro r hin hr
    have hfind := hreservations r hin
    rw [Table.find?_of_mem hr] at hfind
    exact (Table.find?_eq_some.mp hfind).1
  have hpayment : ∀ id ∈ tx.failed, ∀ p ∈ m.payments.rows, p.reservationId = id →
      p ∈ m'.payments.rows := by
    intro id hin p hp hid
    have hfind := hpayments id hin
    rw [← hid, Table.find?_of_mem hp] at hfind
    exact (Table.find?_eq_some.mp hfind).1
  constructor
  · obtain ⟨o, ho, hstatus, htx⟩ := hs.offer_row
    have hid : tx.offer.id = o.id := by rw [htx]
    rw [hid, Table.find?_of_mem ho] at hoffer
    exact ⟨o, (Table.find?_eq_some.mp hoffer).1, hstatus, htx⟩
  · intro r hr
    obtain ⟨hmem, hrest⟩ := hs.expired_rows r hr
    exact ⟨hrow r (List.mem_append_left _ hr) hmem, hrest⟩
  · intro r hr
    obtain ⟨hmem, hrest⟩ := hs.cancelled_rows r hr
    exact ⟨hrow r (List.mem_append_right _ hr) hmem, hrest⟩
  · intro id hid
    obtain ⟨⟨p, hp, hpid, hlive⟩, hin⟩ := hs.failed_rows id hid
    exact ⟨⟨p, hpayment id hid p hp hpid, hpid, hlive⟩, hin⟩
  · intro id hid hlive
    obtain ⟨candidate, hmem, hcid⟩ := mem_remaining_of_current hid
    rw [← hcid] at hlive hid ⊢
    exact hs.current_failed _ hid (hasLiveIntent_falls h (hs.candidates candidate hmem) hlive)
  · intro candidate hmem
    exact candidateOf_kept h (hs.candidates candidate hmem)
  · exact hs.nodup
  · exact hs.untaken
  · exact hs.refund_rows
  · intro r hr
    obtain ⟨p, hp, hpid, hitem⟩ := hs.refunds_due r hr
    obtain ⟨p', hp', hsucc⟩ := payment_kept h hp
    refine ⟨p', hp', hsucc.reservationId.trans hpid, ?_⟩
    rw [hsucc.merchantOid, hsucc.amountCents]
    exact hitem

/-- The offer as a beginning cancellation writes it. -/
theorem cancellationSound_begin {offerId : OfferId} {reason : OfferCancelReason}
    {auditActorId : Option AdminId} {next : List OfferId}
    (h : beginCancellation m offerId reason auditActorId next = .ok tx) :
    CancellationSound m tx := by
  unfold beginCancellation at h
  split at h
  · cases h
  · rename_i offer hf
    split_ifs at h with hstatus
    cases h
    refine ⟨⟨offer, (Table.find?_eq_some.mp hf).1, hstatus, ?_⟩, ?_, ?_, ?_, ?_, ?_, ?_, ?_, ?_, ?_⟩
    · simp [taken, markCancelled]
    all_goals simp [taken, FanOutPhase.current, FanOutPhase.remaining]

theorem beginCancellation_phase {offerId : OfferId} {reason : OfferCancelReason}
    {auditActorId : Option AdminId} {next : List OfferId}
    (h : beginCancellation m offerId reason auditActorId next = .ok tx) :
    tx.phase = .readCandidates := by
  unfold beginCancellation at h
  split at h
  · cases h
  · split_ifs at h
    cases h
    rfl

theorem candidateOf_read (hc : Consistent m) {offerId : OfferId} {candidate : Candidate}
    (h : candidate ∈ candidatesOf m offerId) : CandidateOf m offerId candidate := by
  obtain ⟨r, hr, rfl⟩ := List.mem_map.mp h
  obtain ⟨hr, hsel⟩ := List.mem_filter.mp hr
  obtain ⟨hoffer, _⟩ := of_decide_eq_true hsel
  obtain ⟨p, hp, hpid, _⟩ := hc.has_payment r hr
  refine ⟨⟨r, hr, rfl, hoffer, rfl, fun h => h⟩, p, ?_, p, hp, hpid, rfl, rfl⟩
  rw [← hpid]
  exact Table.find?_of_mem hp

theorem candidatesOf_nodup (m : Market) (offerId : OfferId) :
    ((candidatesOf m offerId).map (·.1.id)).Nodup := by
  unfold candidatesOf
  rw [List.map_map]
  exact (List.filter_sublist.map _).nodup m.reservations.keys_nodup

/-- The release of an own offer row always matches. -/
theorem releaseOwn_taken (hc : Consistent m) (hs : CancellationSound m tx) {r : Reservation}
    (hr : r ∈ m.reservations.rows) (hoffer : r.offerId = tx.offer.id)
    (hlive : liveReservation r.status) (hnew : r.id ∉ (taken tx).map (·.id)) :
    ∃ o ∈ m.offers.rows, o.status ∈ allowedOfferFrom .cancelled ∧
      releaseOwn r.qty tx.offer = { o with
        status := .cancelled
        qtyReserved := o.qtyReserved-(r.qty+((taken tx).map (·.qty)).sum) } := by
  obtain ⟨o, ho, hstatus, htx⟩ := hs.offer_row
  refine ⟨o, ho, hstatus, ?_⟩
  have hreserved := (hc.stocked o ho).reserved_eq
  have hsum := sum_taken hs
  have hid : tx.offer.id = o.id := by rw [htx]
  have hle := Table.le_sumOn (t := m.reservations) (r := r) (f := fun s : Reservation => s.qty)
    (p := fun s => (s.offerId = tx.offer.id ∧ holdsStock s.status) ∧
      ¬ s.id ∈ (taken tx).map (·.id))
    (fun s hs _ => le_of_lt (hc.qty_pos s hs)) hr ⟨⟨hoffer, holdsStock_of_live hlive⟩, hnew⟩
  rw [← hid] at hreserved
  have hroom : r.qty ≤ o.qtyReserved-((taken tx).map (·.qty)).sum := by omega
  have hqty : tx.offer.qtyReserved = o.qtyReserved-((taken tx).map (·.qty)).sum := by rw [htx]
  rw [releaseOwn, if_pos (by rw [hqty]; exact hroom), htx]
  simp only [releaseRow, reduceCtorEq, false_and, if_false, sub_sub, add_comm]

theorem reservationIn_eq_some {id : ReservationId} {sources : List ReservationStatus}
    {r : Reservation} (h : reservationIn m id sources = some r) :
    r ∈ m.reservations.rows ∧ r.id = id ∧ r.status ∈ sources := by
  obtain ⟨hf, hs⟩ := Option.filter_eq_some_iff.mp h
  obtain ⟨hr, hid⟩ := Table.find?_eq_some.mp hf
  exact ⟨hr, hid, of_decide_eq_true hs⟩

theorem reservationIn_eq_none {id : ReservationId} {sources : List ReservationStatus}
    {r : Reservation} (h : reservationIn m id sources = none) (hr : r ∈ m.reservations.rows)
    (hid : r.id = id) : r.status ∉ sources := by
  intro hs
  rw [reservationIn, ← hid, Table.find?_of_mem hr] at h
  simp [Option.filter, hs] at h

section Advance

variable {reservation : Reservation} {payment : Payment} {rest : List Candidate}

theorem releaseOwn_id (qty : ℤ) (o : Offer) : (releaseOwn qty o).id = o.id := by
  unfold releaseOwn
  split_ifs <;> rfl

/-- The stored row of the candidate that is about to be moved. -/
theorem current_row (hs : CancellationSound m tx)
    (hphase : tx.phase = .moveReservation reservation payment rest) :
    ∃ r ∈ m.reservations.rows, r.id = reservation.id ∧ r.offerId = tx.offer.id ∧
      r.qty = reservation.qty ∧
      (reservation.status ≠ .pendingPayment → r.status ≠ .pendingPayment) ∧
      r.id ∉ (taken tx).map (·.id) ∧
      ∃ p ∈ m.payments.rows, p.reservationId = r.id ∧ p.merchantOid = payment.merchantOid ∧
        p.amountCents = payment.amountCents := by
  have hnodup := hs.nodup
  have hcandidates := hs.candidates
  rw [hphase] at hnodup hcandidates
  obtain ⟨⟨r, hr, hid, hoffer, hqty, hpending⟩, read, hread, p, hp, hpid, hoid, hamount⟩ :=
    hcandidates _ List.mem_cons_self
  cases hread
  refine ⟨r, hr, hid, hoffer, hqty, hpending, ?_, p, hp, hpid.trans hid.symm, hoid, hamount⟩
  intro htaken
  have hdisjoint := (List.nodup_append.mp hnodup).2.2
  exact hdisjoint reservation.id List.mem_cons_self r.id htaken hid.symm

/-- The current reservation is pending exactly when this transaction has ended its payment. -/
theorem current_failed_iff (hc : Consistent m) (hs : CancellationSound m tx)
    (hphase : tx.phase = .moveReservation reservation payment rest) {r : Reservation}
    (hr : r ∈ m.reservations.rows) (hid : r.id = reservation.id) :
    reservation.id ∈ tx.failed ↔ r.status = .pendingPayment := by
  constructor
  · intro hfailed
    obtain ⟨p, hp, hpid, hlive⟩ := (hs.failed_rows _ hfailed).1
    exact hc.pending_of_liveIntent hr hp (hpid.trans hid.symm) hlive
  · intro hpending
    obtain ⟨p, hp, hpid, _⟩ := hc.has_payment r hr
    apply hs.current_failed
    · rw [hphase]
      exact List.mem_singleton.mpr rfl
    · exact ⟨p, hp, hpid.trans hid, hc.liveIntent_of_pending hr hp hpid hpending⟩

/-- Leaving a candidate whose payment this transaction has not ended. -/
theorem cancellationSound_skip (hs : CancellationSound m tx)
    (hphase : tx.phase = .moveReservation reservation payment rest)
    (hnot : reservation.id ∉ tx.failed) :
    CancellationSound m { tx with phase := .failIntent rest } := by
  have hnodup := hs.nodup
  have hcandidates := hs.candidates
  rw [hphase] at hnodup hcandidates
  refine ⟨hs.offer_row, hs.expired_rows, hs.cancelled_rows, ?_, ?_, ?_, ?_, ?_, hs.refund_rows,
    hs.refunds_due⟩
  · intro id hid
    obtain ⟨hlive, hin⟩ := hs.failed_rows id hid
    refine ⟨hlive, ?_⟩
    rw [hphase] at hin
    rcases List.mem_cons.mp hin with rfl | hin
    · exact absurd hid hnot
    · exact hin
  · intro id hid
    cases hid
  · intro candidate hmem
    exact hcandidates candidate (List.mem_cons_of_mem _ hmem)
  · exact (List.nodup_cons.mp hnodup).2
  · intro h
    cases h

theorem cancellationSound_expire (hc : Consistent m) (hs : CancellationSound m tx)
    (hphase : tx.phase = .moveReservation reservation payment rest) :
    CancellationSound m { tx.expireCandidate m reservation with phase := .failIntent rest } := by
  obtain ⟨r, hr, hid, hoffer, hqty, _, hnew, _⟩ := current_row hs hphase
  have hfailed := current_failed_iff hc hs hphase hr hid
  unfold OfferCancellation.expireCandidate
  split
  · rename_i hnone
    apply cancellationSound_skip hs hphase
    intro hin
    apply reservationIn_eq_none hnone hr hid
    rw [hfailed.mp hin, allowedReservationFrom_expired]
    exact List.mem_singleton.mpr rfl
  · rename_i current hsome
    obtain ⟨hcur, hcid, hstatus⟩ := reservationIn_eq_some hsome
    have he : current = r := m.reservations.eq_of_key_eq hcur hr (hcid.trans hid.symm)
    rw [allowedReservationFrom_expired, List.mem_singleton] at hstatus
    rw [he] at hstatus ⊢
    have hnodup := hs.nodup
    have hcandidates := hs.candidates
    rw [hphase] at hnodup hcandidates
    refine ⟨?_, ?_, ?_, ?_, ?_, ?_, ?_, ?_, hs.refund_rows, hs.refunds_due⟩
    · rw [← hqty]
      exact releaseOwn_taken hc hs hr hoffer (Or.inl hstatus) hnew
    · intro s hs'
      rcases List.mem_cons.mp hs' with rfl | hs'
      · refine ⟨hr, hoffer.trans (releaseOwn_id _ _).symm, hstatus, ?_⟩
        rw [hid]
        exact hfailed.mpr hstatus
      · obtain ⟨h₁, h₂, h₃, h₄⟩ := hs.expired_rows s hs'
        exact ⟨h₁, h₂.trans (releaseOwn_id _ _).symm, h₃, h₄⟩
    · intro s hs'
      obtain ⟨h₁, h₂, h₃⟩ := hs.cancelled_rows s hs'
      exact ⟨h₁, h₂.trans (releaseOwn_id _ _).symm, h₃⟩
    · intro id hin
      obtain ⟨hlive, hmem⟩ := hs.failed_rows id hin
      refine ⟨hlive, ?_⟩
      rw [hphase] at hmem
      rcases List.mem_cons.mp hmem with rfl | hmem
      · exact List.mem_map.mpr ⟨r, List.mem_cons_self, hid⟩
      · exact List.mem_cons_of_mem _ hmem
    · intro id hin
      cases hin
    · intro candidate hmem
      change CandidateOf m (releaseOwn reservation.qty tx.offer).id candidate
      rw [releaseOwn_id]
      exact hcandidates candidate (List.mem_cons_of_mem _ hmem)
    · change (rest.map (·.1.id) ++ r.id :: (taken tx).map (·.id)).Nodup
      rw [hid]
      exact List.nodup_middle.mpr hnodup
    · intro h
      cases h

theorem cancellationSound_cancel (hc : Consistent m) (hs : CancellationSound m tx)
    (hphase : tx.phase = .moveReservation reservation payment rest)
    (hread : reservation.status ≠ .pendingPayment) :
    CancellationSound m
      { tx.cancelCandidate m reservation payment with phase := .failIntent rest } := by
  obtain ⟨r, hr, hid, hoffer, hqty, hpending, hnew, p, hp, hpid, hoid, hamount⟩ :=
    current_row hs hphase
  have hfailed := current_failed_iff hc hs hphase hr hid
  have hnot : reservation.id ∉ tx.failed := fun hin => hpending hread (hfailed.mp hin)
  unfold OfferCancellation.cancelCandidate
  split
  · exact cancellationSound_skip hs hphase hnot
  · rename_i current hsome
    obtain ⟨hcur, hcid, hstatus⟩ := reservationIn_eq_some hsome
    have he : current = r := m.reservations.eq_of_key_eq hcur hr (hcid.trans hid.symm)
    rw [allowedReservationFrom_cancelledByMerchant, List.mem_singleton] at hstatus
    rw [he] at hstatus ⊢
    have hskip := cancellationSound_skip hs hphase hnot
    have hnodup := hs.nodup
    rw [hphase] at hnodup
    have htaken : (r.id :: (taken tx).map (·.id)).Perm
        ((tx.expired ++ r :: tx.cancelled).map (·.id)) := by
      have hmiddle : (r :: taken tx).Perm (tx.expired ++ r :: tx.cancelled) :=
        List.perm_middle.symm
      exact hmiddle.map (·.id)
    refine ⟨?_, ?_, ?_, hskip.failed_rows, hskip.current_failed, ?_, ?_, ?_, ?_, ?_⟩
    · obtain ⟨o, ho, hallowed, heq⟩ := releaseOwn_taken hc hs hr hoffer (Or.inr hstatus) hnew
      refine ⟨o, ho, hallowed, ?_⟩
      have hsum : ((tx.expired ++ r :: tx.cancelled).map (·.qty)).sum =
          r.qty+((taken tx).map (·.qty)).sum := by
        simp only [taken, List.map_append, List.map_cons, List.sum_append, List.sum_cons]
        omega
      change releaseOwn reservation.qty tx.offer = { o with
        status := .cancelled
        qtyReserved := o.qtyReserved-((tx.expired ++ r :: tx.cancelled).map (·.qty)).sum }
      rw [hsum, ← hqty]
      exact heq
    · intro s hs'
      obtain ⟨h₁, h₂, h₃⟩ := hs.expired_rows s hs'
      exact ⟨h₁, h₂.trans (releaseOwn_id _ _).symm, h₃⟩
    · intro s hs'
      rcases List.mem_cons.mp hs' with rfl | hs'
      · exact ⟨hr, hoffer.trans (releaseOwn_id _ _).symm, hstatus⟩
      · obtain ⟨h₁, h₂, h₃⟩ := hs.cancelled_rows s hs'
        exact ⟨h₁, h₂.trans (releaseOwn_id _ _).symm, h₃⟩
    · intro candidate hmem
      change CandidateOf m (releaseOwn reservation.qty tx.offer).id candidate
      rw [releaseOwn_id]
      exact hskip.candidates candidate hmem
    · change (rest.map (·.1.id) ++ (tx.expired ++ r :: tx.cancelled).map (·.id)).Nodup
      have hperm := List.Perm.append_left (rest.map (·.1.id)) htaken
      refine hperm.nodup_iff.mp ?_
      rw [hid]
      exact List.nodup_middle.mpr hnodup
    · intro h
      cases h
    · intro item hitem
      rcases List.mem_append.mp hitem with hitem | hitem
      · obtain ⟨s, hs', hsid⟩ := hs.refund_rows item hitem
        exact ⟨s, List.mem_cons_of_mem _ hs', hsid⟩
      · rw [List.mem_singleton.mp hitem]
        exact ⟨r, List.mem_cons_self, hid⟩
    · intro s hs'
      rcases List.mem_cons.mp hs' with rfl | hs'
      · refine ⟨p, hp, hpid, List.mem_append_right _ (List.mem_singleton.mpr ?_)⟩
        rw [hid, hoid, hamount]
      · obtain ⟨q, hq, hqid, hitem⟩ := hs.refunds_due s hs'
        exact ⟨q, hq, hqid, List.mem_append_left _ hitem⟩

/-- Reading the candidates, before anything else was done. -/
theorem cancellationSound_read (hc : Consistent m) (hs : CancellationSound m tx)
    (hphase : tx.phase = .readCandidates) :
    CancellationSound m { tx with phase := .failIntent (candidatesOf m tx.offer.id) } := by
  have htaken := hs.untaken hphase
  have hnone : tx.failed = [] := by
    rw [List.eq_nil_iff_forall_not_mem]
    intro id hid
    have hin := (hs.failed_rows id hid).2
    rw [hphase] at hin
    obtain ⟨r, hr, _⟩ := List.mem_map.mp hin
    have hmem : r ∈ taken tx := List.mem_append_left _ hr
    rw [htaken] at hmem
    cases hmem
  refine ⟨hs.offer_row, hs.expired_rows, hs.cancelled_rows, ?_, ?_, ?_, ?_, ?_, hs.refund_rows,
    hs.refunds_due⟩
  · intro id hid
    rw [hnone] at hid
    cases hid
  · intro id hid
    cases hid
  · intro candidate hmem
    exact candidateOf_read hc hmem
  · change ((candidatesOf m tx.offer.id).map (·.1.id) ++ (taken tx).map (·.id)).Nodup
    rw [htaken, List.map_nil, List.append_nil]
    exact candidatesOf_nodup m tx.offer.id
  · intro h
    cases h

/-- Ending the open payment of the next candidate, if it has one. -/
theorem cancellationSound_fail (hs : CancellationSound m tx)
    (hphase : tx.phase = .failIntent ((reservation, some payment) :: rest)) :
    CancellationSound m
      { tx with
        failed := if hasLiveIntent m reservation.id then reservation.id :: tx.failed else tx.failed
        phase := .moveReservation reservation payment rest } := by
  have hnodup := hs.nodup
  have hcandidates := hs.candidates
  rw [hphase] at hnodup hcandidates
  have hold : ∀ id ∈ tx.failed, (∃ p ∈ m.payments.rows, p.reservationId = id ∧
      liveIntent p.status) ∧ id ∈ [reservation.id] ++ tx.expired.map (·.id) := by
    intro id hid
    obtain ⟨hlive, hin⟩ := hs.failed_rows id hid
    rw [hphase] at hin
    exact ⟨hlive, List.mem_cons_of_mem _ hin⟩
  refine ⟨hs.offer_row, ?_, hs.cancelled_rows, ?_, ?_, hcandidates, hnodup, ?_, hs.refund_rows,
    hs.refunds_due⟩
  · intro r hr
    obtain ⟨hmem, hoffer, hstatus, hfailed⟩ := hs.expired_rows r hr
    refine ⟨hmem, hoffer, hstatus, ?_⟩
    split_ifs
    · exact List.mem_cons_of_mem _ hfailed
    · exact hfailed
  · intro id hid
    change id ∈ (if hasLiveIntent m reservation.id then reservation.id :: tx.failed
      else tx.failed) at hid
    split_ifs at hid with hlive
    · rcases List.mem_cons.mp hid with rfl | hid
      · exact ⟨hlive, List.mem_cons_self⟩
      · exact hold id hid
    · exact hold id hid
  · intro id hid hlive
    rw [List.mem_singleton.mp hid] at hlive ⊢
    change reservation.id ∈ (if hasLiveIntent m reservation.id then
      reservation.id :: tx.failed else tx.failed)
    rw [if_pos hlive]
    exact List.mem_cons_self
  · intro h
    cases h

/-- Each statement of the fan-out keeps its record sound. -/
theorem cancellationSound_advance (hc : Consistent m) (hs : CancellationSound m tx)
    (h : tx.advance m = some tx') : CancellationSound m tx' := by
  unfold OfferCancellation.advance at h
  split at h
  case h_1 hphase =>
    cases h
    exact cancellationSound_read hc hs hphase
  case h_2 => cases h
  case h_3 reservation rest hphase =>
    -- every candidate was read with its payment
    obtain ⟨_, read, hread, _⟩ := hs.candidates (reservation, none)
      (by rw [hphase]; exact List.mem_cons_self)
    cases hread
  case h_4 hphase =>
    cases h
    exact cancellationSound_fail hs hphase
  case h_5 reservation payment rest hphase =>
    cases h
    by_cases hread : reservation.status = .pendingPayment
    · simp only [if_pos hread]
      exact cancellationSound_expire hc hs hphase
    · simp only [if_neg hread]
      exact cancellationSound_cancel hc hs hphase hread

end Advance

end OpenTransactions

end Kurtar.MarketProcedures

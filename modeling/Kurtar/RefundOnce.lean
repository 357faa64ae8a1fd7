import Kurtar.RefundFrame

/-!
# Payments are refunded at most once and in full

The books of refunds balance in every run in which an error of the provider
means that no money moved. Most steps only pass the books on; a cancel, a
claim, a committed fan-out and the statements of a refund change them.
-/

namespace Kurtar.RefundOnce

open KeyedTable GuardedRuns StatusTransitions IstanbulCalendar Marketplace ReservationTransactions
open OfferLifecycle MarketService MarketEffects MarketConsistency MarketProcedures MarketInvariant
open RefundBooks RefundFrame

section Invariant

/-- The calls a cancellation will make are those of the reservations it has cancelled. -/
def ItemsMatch (tx : OfferCancellation) : Prop :=
  tx.toRefund.map (·.reservationId) = (tx.cancelled.map (·.id)).reverse

/-- The books of refunds balance, and open cancellations prepare one call for each
reservation they cancel. -/
structure RefundsBalanced (w : World) : Prop where
  books : Balanced w.market (worksOf w) w.providerRefunds
  items : ∀ tx ∈ w.openCancellations, ItemsMatch tx

variable {m : Market} {w w' : World} {tx tx' : OfferCancellation}

theorem itemsMatch_begun (hs : CancellationSound m tx) (hphase : tx.phase = .readCandidates) :
    ItemsMatch tx := by
  have htaken := hs.untaken hphase
  have hcancelled : tx.cancelled = [] := (List.append_eq_nil_iff.mp htaken).2
  have hitems : tx.toRefund = [] := by
    apply List.eq_nil_iff_forall_not_mem.mpr
    intro item hitem
    obtain ⟨r, hr, _⟩ := hs.refund_rows item hitem
    rw [hcancelled] at hr
    cases hr
  rw [ItemsMatch, hcancelled, hitems]
  rfl

theorem itemsMatch_cancelCandidate (h : ItemsMatch tx) (reservation : Reservation)
    (payment : Payment) : ItemsMatch (tx.cancelCandidate m reservation payment) := by
  unfold OfferCancellation.cancelCandidate
  split
  · exact h
  · rename_i current hread
    have hid : current.id = reservation.id :=
      (Table.find?_eq_some.mp (Option.filter_eq_some_iff.mp hread).1).2
    unfold ItemsMatch at h ⊢
    simp [h, hid]

theorem itemsMatch_expireCandidate (h : ItemsMatch tx) (reservation : Reservation) :
    ItemsMatch (tx.expireCandidate m reservation) := by
  unfold OfferCancellation.expireCandidate
  split
  · exact h
  · exact h

theorem itemsMatch_advance (h : ItemsMatch tx) (hadvance : tx.advance m = some tx') :
    ItemsMatch tx' := by
  unfold OfferCancellation.advance at hadvance
  split at hadvance
  · cases hadvance
    exact h
  · cases hadvance
  · cases hadvance
    exact h
  · cases hadvance
    exact h
  · cases hadvance
    split_ifs
    · exact itemsMatch_expireCandidate h _
    · exact itemsMatch_cancelCandidate h _ _

theorem itemsMatch_step (hi : ∀ tx ∈ w.openCancellations, ItemsMatch tx)
    {a : Action} (h : Steps w w' (causeOf w a)) :
    ∀ tx ∈ w'.openCancellations, ItemsMatch tx := by
  intro tx hmem
  rcases h.continues tx hmem with ⟨hold, _⟩ | hphase | ⟨before, hcause, hadvance, _⟩
  · exact hi tx hold
  · exact itemsMatch_begun (h.sound.cancellations tx hmem) hphase
  · obtain ⟨index, _, hget⟩ := mem_of_causeOf hcause
    exact itemsMatch_advance (hi before (List.mem_of_getElem? hget)) hadvance

end Invariant

section RefundSteps

variable {w w' : World} {call : RefundCall} {rest : List RefundCall} {next : List OfferId}
  {input : StepInput}

/-- The books of a world whose next work is to be done by the resumed task. -/
abbrev Pending (w : World) (works : List RefundWork) : Prop :=
  Balanced w.market (works ++ worksOf w) w.providerRefunds

abbrev Books (w : World) : Prop := Balanced w.market (worksOf w) w.providerRefunds

theorem books_continueRefunds (hb : Pending w (rest.map .due)) :
    Books (w.continueRefunds rest next) := by
  have hmarket := continueRefunds_market w rest next
  have haccepted : (w.continueRefunds rest next).providerRefunds = w.providerRefunds := by
    cases rest with
    | nil =>
      change (w.spawnSome .cancelNext next).providerRefunds = w.providerRefunds
      unfold World.spawnSome
      split_ifs <;> rfl
    | cons call rest => rfl
  rw [Books, hmarket, haccepted, worksOf_continueRefunds]
  exact hb

theorem books_refundRefused (hb : Pending w (.due call :: rest.map .due)) :
    Books (refundRefused w call rest next input) := by
  have hstored : Pending (if input.databaseFails then w
      else { w with market := storeRefund w.market (refundRow call none .failed) })
        (.due call :: rest.map .due) := by
    split_ifs
    · exact hb
    · exact hb.congr rfl rfl
  by_cases hfrom : call.fromStatus = .refundPending
  · simp only [refundRefused, if_pos hfrom]
    apply Balanced.fewer (Balanced.refuse hstored)
    exact ((List.sublist_append_right _ _).cons_cons _).subperm
  · simp only [refundRefused, if_neg hfrom]
    apply books_continueRefunds
    exact Balanced.fewer hstored (List.sublist_cons_self _ _).subperm

theorem books_refund (hc : Consistent w.market) (hb : Pending w (.due call :: rest.map .due))
    (hreply : input.refundReply ≠ .answerLost)
    (h : refund w call rest next input = some w') : Books w' := by
  unfold refund at h
  split at h
  · cases h
    exact Balanced.accept hb hc
  · rename_i hlost
    exact absurd hlost hreply
  · cases h
    exact books_refundRefused hb

theorem books_recordRefund {refundRef : String} (hc : Consistent w.market)
    (hs : RefundSound w.market call) (hb : Pending w (.accepted call :: rest.map .due))
    (h : recordRefund w call refundRef rest next input = some w') : Books w' := by
  unfold MarketService.recordRefund at h
  split_ifs at h
  · cases h
    exact hb
  · obtain ⟨w₁, hcommit, rfl⟩ := Option.map_eq_some_iff.mp h
    obtain ⟨rfl, _⟩ := commit_eq_some hcommit
    apply books_continueRefunds
    exact Balanced.moveRefunded hb hc hs _

theorem books_recordSent {refundRef : String} (hb : Pending w (.accepted call :: rest.map .due))
    (h : recordSent w call refundRef rest next input = some w') : Books w' := by
  cases h
  split_ifs
  · exact hb
  · exact hb.congr rfl rfl

theorem books_moveRefunded (hc : Consistent w.market) (hs : RefundSound w.market call)
    (hb : Pending w (.accepted call :: rest.map .due))
    (h : moveRefunded w call rest next input = some w') : Books w' := by
  unfold MarketService.moveRefunded at h
  split_ifs at h
  · cases h
    apply books_continueRefunds
    exact Balanced.fewer hb (List.sublist_cons_self _ _).subperm
  · obtain ⟨w₁, hcommit, rfl⟩ := Option.map_eq_some_iff.mp h
    obtain ⟨rfl, _⟩ := commit_eq_some hcommit
    apply books_continueRefunds
    exact Balanced.moveRefunded hb hc hs w.market.refunds

theorem books_releaseRefundClaim {id : ReservationId} (hc : Consistent w.market)
    (hb : Pending w [.refused id]) (h : releaseRefundClaim w id input = some w') : Books w' := by
  unfold MarketService.releaseRefundClaim at h
  split_ifs at h
  · cases h
    exact Balanced.fewer hb (List.sublist_cons_self _ _).subperm
  · obtain ⟨rfl, _⟩ := commit_eq_some h
    exact Balanced.release hb hc

end RefundSteps

section NewRefunds

variable {c : Cause} {m m' : Market} {w w' : World} {call : RefundCall}

theorem keepsRefunds_cancelReservation {reservation : Reservation} {now : Instant}
    {matchedFrom : ReservationStatus}
    (h : cancelReservation m reservation now = some (m', matchedFrom)) :
    KeepsRefunds m m' ∧ (matchedFrom = .confirmed → ∃ r ∈ m.reservations.rows,
      r.id = reservation.id ∧ r.status = .confirmed ∧
        markCancelledByUser r ∈ m'.reservations.rows) := by
  unfold cancelReservation at h
  obtain ⟨⟨cancelled, source⟩, hfirst, hm⟩ := Option.map_eq_some_iff.mp h
  cases hm
  obtain ⟨r, reservations, _, hid, hs, hrep, rfl⟩ := cancelFromFirst_eq_some hfirst
  have hreservations : (failLiveIntent m reservation.id).reservations = m.reservations := by
    unfold failLiveIntent
    cases hu : m.updatePayment reservation.id (fun p => liveIntent p.status) markFailed
        (fun _ => rfl) with
    | none => rfl
    | some failed =>
      obtain ⟨p, payments, _, _, _, rfl⟩ := Market.updatePayment_eq_some hu
      rfl
  constructor
  · exact keepsRefunds_failLiveIntent m reservation.id
  · intro hconfirmed
    rw [hreservations] at hrep
    exact ⟨r, hrep.mem_old, hid, hs.trans hconfirmed, hrep.mem_new⟩

/-- A consumer cancel asks for the refund of a confirmed reservation only. -/
theorem cancel_due {userId : UserId} {id : ReservationId} {now : Instant}
    {due : Option RefundCall} (h : cancel m userId id now = .ok (m', due)) :
    KeepsRefunds m m' ∧ ∀ call, due = some call → ∃ r ∈ m.reservations.rows,
      r.status = .confirmed ∧ markCancelledByUser r ∈ m'.reservations.rows ∧
        ∃ p ∈ m.payments.rows, p.reservationId = r.id ∧ Describes call p := by
  unfold cancel at h
  split at h
  · cases h
  · rename_i reservation hf
    obtain ⟨_, hid⟩ := Table.find?_eq_some.mp hf
    split_ifs at h
    split at h
    · cases h
    · rename_i payment hp
      obtain ⟨hpay, hpid⟩ := Table.find?_eq_some.mp hp
      split at h
      · cases h
      · rename_i cancelled matchedFrom hx
        cases h
        obtain ⟨hkeeps, hrow⟩ := keepsRefunds_cancelReservation hx
        refine ⟨hkeeps, ?_⟩
        intro call hcall
        split_ifs at hcall with hconfirmed
        cases hcall
        obtain ⟨r, hr, hrid, hs, hnew⟩ := hrow hconfirmed
        exact ⟨r, hr, hs, hnew, payment, hpay, by rw [hpid, hrid, hid], hpid, rfl, rfl⟩

/-- A claim is made on the paid payment of a collected or missed reservation. -/
theorem claimRefund_due {id : ReservationId} (h : claimRefund m id = .ok (m', call)) :
    KeepsRefunds m m' ∧ m'.reservations = m.reservations ∧ ∃ r ∈ m.reservations.rows,
      (r.status = .redeemed ∨ r.status = .noShow) ∧ ∃ p ∈ m.payments.rows,
        p.reservationId = r.id ∧ p.status = .paid ∧ markRefundPending p ∈ m'.payments.rows ∧
          Describes call (markRefundPending p) := by
  unfold claimRefund at h
  split at h
  · cases h
  · rename_i reservation hf
    obtain ⟨hr, hid⟩ := Table.find?_eq_some.mp hf
    split at h
    · cases h
    · rename_i payment hp
      obtain ⟨hpay, hpid⟩ := Table.find?_eq_some.mp hp
      split_ifs at h with hstatus
      split at h
      · cases h
      · rename_i claimed hclaimed
        cases h
        obtain ⟨p, payments, hclaimedId, hpaid, hrep, rfl⟩ :=
          Market.updatePayment_eq_some hclaimed
        have he : p = payment :=
          m.payments.eq_of_key_eq hrep.mem_old hpay (hclaimedId.trans hpid.symm)
        have hcollected : reservation.status = .redeemed ∨ reservation.status = .noShow := by
          tauto
        refine ⟨?_, rfl, reservation, hr, hcollected, p, hrep.mem_old,
          hclaimedId.trans hid.symm, hpaid, hrep.mem_new, hclaimedId, ?_, ?_⟩
        · apply keepsRefunds_of_replaces hrep
          rintro (hs | hs) <;> cases hs
        · rw [he]
          rfl
        · rw [he]
          rfl

theorem not_refundable_confirmed {p : PaymentStatus} (h : jointly .confirmed p) :
    ¬ refundable .confirmed p := by
  have hpaid : p = .paid := h
  simp [refundable, hpaid]

theorem books_cancelEntry (hw : WorldSound w) (hb : Books w) {userId : UserId}
    {id : ReservationId} {now : Instant} (h : cancelEntry w userId id now = some w') :
    Books w' := by
  unfold cancelEntry at h
  split at h
  · cases h
  · rename_i m hcancel
    obtain ⟨rfl, _⟩ := commit_eq_some h
    have heffect := (cancel_effect (c := .other) hw.consistent hcancel).1
    exact balanced_of_keeps hb hw.consistent heffect (cancel_due hcancel).1
  · rename_i m call hcancel
    obtain ⟨w₁, hcommit, rfl⟩ := Option.map_eq_some_iff.mp h
    obtain ⟨rfl, _⟩ := commit_eq_some hcommit
    have hc := hw.consistent
    have heffect := (cancel_effect (c := .other) hc hcancel).1
    obtain ⟨hkeeps, hdue⟩ := cancel_due hcancel
    obtain ⟨r, hr, hs, hnew, p, hp, hid, hcall⟩ := hdue call rfl
    have hj := hc.jointly_of hr hp hid
    rw [hs] at hj
    have hzero := hb.none_yet r hr p hp hid (by rw [hs]; exact not_refundable_confirmed hj)
    obtain ⟨p', hp', hsucc⟩ := payment_kept heffect hp
    refine (balanced_of_keeps hb hc heffect hkeeps).add_due hnew hp'
      (hsucc.reservationId.trans hid) (Or.inl rfl) ?_ ?_
    · exact ⟨hsucc.reservationId.trans hcall.1, hsucc.merchantOid.trans hcall.2.1,
        hsucc.amountCents.trans hcall.2.2⟩
    · rw [refundCount_congr hsucc.reservationId hsucc.merchantOid]
      exact hzero

theorem books_refundRedeemedEntry (hw : WorldSound w) (hb : Books w) {id : ReservationId}
    (h : refundRedeemedEntry w id = some w') : Books w' := by
  unfold refundRedeemedEntry at h
  split at h
  · cases h
  · rename_i m call hclaim
    obtain ⟨w₁, hcommit, rfl⟩ := Option.map_eq_some_iff.mp h
    obtain ⟨rfl, _⟩ := commit_eq_some hcommit
    have heffect := (claimRefund_effect (c := .other) hclaim).1
    obtain ⟨hkeeps, hreservations, r, hr, hs, p, hp, hid, hpaid, hnew, hcall⟩ :=
      claimRefund_due hclaim
    have hzero := hb.none_yet r hr p hp hid (by
      rcases hs with hs | hs <;> simp [refundable, hs, hpaid])
    have hr' : r ∈ m.reservations.rows := by
      rw [hreservations]
      exact hr
    exact (balanced_of_keeps hb hw.consistent heffect hkeeps).add_due hr' hnew hid
      (Or.inr (Or.inr (Or.inl rfl))) hcall hzero

theorem keepsRefunds_cancellation (m : Market) (tx : OfferCancellation) :
    KeepsRefunds m (tx.commit m) := by
  intro p' hp' hstatus
  obtain ⟨p, hp, rfl⟩ := mem_commit_payments.mp hp'
  unfold afterPayment at hstatus ⊢
  split_ifs at hstatus ⊢
  · rcases hstatus with hs | hs <;> cases hs
  · exact Or.inl hp

/-- A committed cancellation asks for the refund of each reservation it has cancelled. -/
theorem books_cancellation {works : List RefundWork} {accepted : List (MerchantOid × ℤ)}
    {tx : OfferCancellation} (hc : Consistent m) (hs : CancellationSound m tx)
    (hdone : tx.phase = .failIntent []) (hi : ItemsMatch tx) (hb : Balanced m works accepted) :
    Balanced (tx.commit m) ((refundMany tx.toRefund tx.reason).map .due ++ works) accepted := by
  have heffect : Effect m (.cancelled tx) (tx.commit m) := .cancelled hs hdone
  have hids : (refundMany tx.toRefund tx.reason).map (·.reservationId) =
      (tx.cancelled.map (·.id)).reverse := by
    rw [← hi]
    exact List.map_map
  have hnodup : (tx.cancelled.map (·.id)).Nodup := by
    have htaken := hs.taken_nodup
    rw [taken, List.map_append] at htaken
    exact (List.nodup_append.mp htaken).2.1
  refine (balanced_of_keeps hb hc heffect (keepsRefunds_cancellation m tx)).add_dues ?_ ?_
  · rw [hids]
    exact List.nodup_reverse.mpr hnodup
  · intro call hcall
    obtain ⟨item, hitem, rfl⟩ := List.mem_map.mp hcall
    obtain ⟨r, hr, hid⟩ := hs.refund_rows item hitem
    obtain ⟨p, hp, hpid, hdue⟩ := hs.refunds_due r hr
    obtain ⟨hmem, _, hconfirmed⟩ := hs.cancelled_rows r hr
    have hitems : (tx.toRefund.map (·.reservationId)).Nodup := by
      rw [hi]
      exact List.nodup_reverse.mpr hnodup
    have he := List.inj_on_of_nodup_map hitems hitem hdue hid.symm
    have hj := hc.jointly_of hmem hp hpid
    rw [hconfirmed] at hj
    have hzero := hb.none_yet r hmem p hp hpid
      (by rw [hconfirmed]; exact not_refundable_confirmed hj)
    obtain ⟨p', hp', hsucc⟩ := payment_kept heffect hp
    refine ⟨_, mem_commit_reservations.mpr ⟨r, hmem, rfl⟩, p', hp', ?_, ?_, ?_, ?_⟩
    · rw [(afterReservation_keeps tx r).1]
      exact hsucc.reservationId.trans hpid
    · rcases afterReservation_cases hs hmem with ⟨h, _⟩ | ⟨_, hafter⟩ | ⟨h, _⟩
      · rw [(hs.expired_rows r h).2.2.1] at hconfirmed
        cases hconfirmed
      · rw [hafter]
        exact Or.inr (Or.inl rfl)
      · exact absurd (List.mem_append_right _ hr) h
    · rw [he]
      exact ⟨hsucc.reservationId.trans hpid, hsucc.merchantOid, hsucc.amountCents⟩
    · rw [refundCount_congr hsucc.reservationId hsucc.merchantOid]
      exact hzero

theorem books_advanceCancellation (hw : WorldSound w) (hr : RefundsBalanced w) {index : ℕ}
    (h : advanceCancellation w index = some w') : Books w' := by
  obtain ⟨tx, hget, hcases⟩ := advanceCancellation_cases h
  have hmem := List.mem_of_getElem? hget
  rcases hcases with ⟨tx', _, rfl⟩ | ⟨hadvance, w₁, hcommit, rfl⟩
  · exact hr.books
  · obtain ⟨rfl, _⟩ := commit_eq_some hcommit
    apply books_continueRefunds
    exact books_cancellation hw.consistent (hw.cancellations tx hmem) (advance_eq_none hadvance)
      (hr.items tx hmem) hr.books

end NewRefunds

section Runs

variable {w w' : World}

/-- Did the provider move money although the caller sees an error? -/
def hidesTransfer : RefundReply → Bool
  | .answerLost => true
  | _ => false

/-- A refund call that reports an error moved no money. -/
def ErrorMovedNothing (_ : World) : Action → Prop
  | .resume _ input => hidesTransfer input.refundReply = false
  | _ => True

instance (w : World) (a : Action) : Decidable (ErrorMovedNothing w a) := by
  unfold ErrorMovedNothing
  cases a <;> infer_instance

/-- Resuming a task keeps the books. -/
theorem books_resume (hw : WorldSound w) (hr : RefundsBalanced w) {index : ℕ} {input : StepInput}
    (hreply : hidesTransfer input.refundReply = false)
    (h : step w (.resume index input) = some w')
    (hs : Steps w w' (causeOf w (.resume index input))) : Books w' := by
  simp only [step] at h
  split at h
  · cases h
  · rename_i task hget
    have htask := hw.tasks task (List.mem_of_getElem? hget)
    have hb : Pending { w with tasks := w.tasks.eraseIdx index } (workOf task) :=
      Balanced.fewer hr.books (worksOf_resume hget).symm.subperm
    have hpass : workOf task = [] → Neutral { w with tasks := w.tasks.eraseIdx index } w' →
        Books w' := by
      intro hnone hneutral
      rw [hnone] at hb
      rw [Books, hneutral.works, hneutral.accepted]
      exact balanced_of_keeps hb hw.consistent hs.effect hneutral.keeps
    have hdue : ∀ call rest, (∀ due ∈ call :: rest, RefundSound w.market due) →
        RefundSound w.market call := fun call rest hall => hall call List.mem_cons_self
    cases task with
    | createIntent committed => exact hpass rfl (createIntent_neutral h)
    | settleEvent event swept => exact hpass rfl (settleEvent_neutral h)
    | sweepOne stale => exact hpass rfl (sweepOne_neutral h)
    | redeemWrite redeemer read => exact hpass rfl (redeemWrite_neutral h)
    | sweepNoShow uncollected => exact hpass rfl (sweepNoShow_neutral h)
    | publishDue due => exact hpass rfl (publishDue_neutral h)
    | terminalize offerId due => exact hpass rfl (terminalize_neutral h)
    | killSwitch merchantId =>
      cases h
      exact hpass rfl ((Neutral.refl _).spawnSome (fun _ => rfl) _)
    | cancelNext offerIds => exact hpass rfl (cancelNext_neutral h)
    | refund call rest next =>
      refine books_refund (w := { w with tasks := w.tasks.eraseIdx index }) hw.consistent hb ?_ h
      intro hlost
      rw [hlost] at hreply
      cases hreply
    | recordRefund call refundRef rest next =>
      exact books_recordRefund (w := { w with tasks := w.tasks.eraseIdx index }) hw.consistent
        (hdue call rest htask) hb h
    | recordSent call refundRef rest next => exact books_recordSent hb h
    | moveRefunded call rest next =>
      exact books_moveRefunded (w := { w with tasks := w.tasks.eraseIdx index }) hw.consistent
        (hdue call rest htask) hb h
    | releaseRefundClaim id =>
      exact books_releaseRefundClaim (w := { w with tasks := w.tasks.eraseIdx index })
        hw.consistent hb h

theorem refundsBalanced_step (hw : WorldSound w) (hr : RefundsBalanced w) {a : Action}
    (hok : ErrorMovedNothing w a) (h : step w a = some w') : RefundsBalanced w' := by
  have hs := step_steps hw h
  refine ⟨?_, itemsMatch_step hr.items hs⟩
  have hpass : Neutral w w' → Books w' := fun hneutral => hneutral.balanced hw hs hr.books
  cases a with
  | create call codes => exact hpass (createEntry_neutral h)
  | webhook event =>
    cases h
    exact hpass (neutral_takeIn w event [])
  | sweepStaleIntents now =>
    cases h
    exact hpass ((Neutral.refl w).spawnSome (fun _ => rfl) _)
  | cancel userId id now => exact books_cancelEntry hw hr.books h
  | redeem redeemer id now => exact hpass (redeemEntry_neutral h)
  | sweepNoShows now =>
    cases h
    exact hpass ((Neutral.refl w).spawnSome (fun _ => rfl) _)
  | refundRedeemed id => exact books_refundRedeemedEntry hw hr.books h
  | createOffer merchantId dto freshId now => exact hpass (createOfferEntry_neutral h)
  | publish merchantId offerId now =>
    exact hpass (offerEntry_neutral (fun _ hm => payments_publish hm) h)
  | schedule merchantId offerId publishAt now =>
    exact hpass (offerEntry_neutral (fun _ hm => payments_schedule hm) h)
  | close merchantId offerId =>
    exact hpass (offerEntry_neutral (fun _ hm => payments_close hm) h)
  | publishDueScheduled now =>
    cases h
    exact hpass ((Neutral.refl w).spawnSome (fun _ => rfl) _)
  | cancelOffer merchantId offerId => exact hpass (cancelOfferEntry_neutral h)
  | adminCancel adminId offerId => exact hpass (adminCancelEntry_neutral h)
  | adminSuspend merchantId => exact hpass (adminSuspendEntry_neutral h)
  | catalogue event => exact hpass (catalogueEntry_neutral h)
  | advanceCancellation index => exact books_advanceCancellation hw hr h
  | rollbackCancellation index =>
    simp only [step, rollbackCancellation] at h
    split at h
    · cases h
    · cases h
      have hclosed : Neutral w { w with openCancellations := w.openCancellations.eraseIdx index } :=
        ⟨keepsRefunds_of_same rfl, rfl, rfl⟩
      exact hpass (hclosed.spawnSome (fun _ => rfl) _)
  | resume index input => exact books_resume hw hr hok h hs

theorem refundsBalanced_initial (h : Initial w) : RefundsBalanced w := by
  have hworks : worksOf w = [] := by
    rw [worksOf, h.tasks]
    rfl
  constructor
  · rw [hworks, h.providerRefunds]
    refine ⟨?_, ?_, ?_, ?_, ?_, ?_, ?_⟩
    all_goals simp [h.payments]
  · simp [h.openCancellations]

/-- In every run the books of refunds balance. -/
theorem refundsBalanced_of_reachable (h : MarketReachable ErrorMovedNothing w) :
    RefundsBalanced w := by
  refine h.invariant_of (J := WorldSound) (fun _ hs => sound_of_reachable hs)
    (fun _ hi => refundsBalanced_initial hi) ?_
  intro s a s' hs _ hr hok ht
  exact refundsBalanced_step hs hr hok ht

/-- What the provider has paid back for a payment. -/
structure RefundedOnce (accepted : List (MerchantOid × ℤ)) (p : Payment) : Prop where
  at_most_once : (accepted.filter fun entry => entry.1 = p.merchantOid).length ≤ 1
  in_full : ∀ entry ∈ accepted, entry.1 = p.merchantOid → entry.2 = p.amountCents
  only_if_accepted : p.status = .refunded → (p.merchantOid, p.amountCents) ∈ accepted

/-- In every run the provider accepts at most one refund of each payment, of its whole
amount, no refund of anything else, and no payment is refunded without it. -/
theorem payments_refunded_once (h : MarketReachable ErrorMovedNothing w) :
    (∀ p ∈ w.market.payments.rows, RefundedOnce w.providerRefunds p) ∧
      ∀ entry ∈ w.providerRefunds, ∃ p ∈ w.market.payments.rows,
        (p.merchantOid, p.amountCents) = entry := by
  have hb := (refundsBalanced_of_reachable h).books
  have hc := (sound_of_reachable h).consistent
  refine ⟨?_, hb.rows⟩
  intro p hp
  refine ⟨?_, ?_, hb.recorded p hp⟩
  · have honce := hb.once p hp
    rw [refundCount, List.countP_eq_length_filter (p := fun entry : MerchantOid × ℤ => _)] at honce
    omega
  · intro entry hentry hoid
    obtain ⟨q, hq, rfl⟩ := hb.rows entry hentry
    rw [hc.oid_unique p hp q hq hoid.symm]

/-- A collected bag is complained about: the provider refuses the first refund, its claim
is given back, and the second is accepted and recorded. -/
def complaintRetried : List Action :=
  openOffer 3 ++ book 1 1 0 ++ pay 1 5000 0 ++
    [.redeem (.consumer 1) 1 (11*hourMs), proceed (11*hourMs), .refundRedeemed 1,
      proceed (12*hourMs), proceed (12*hourMs), .refundRedeemed 1,
      .resume 0 { clock := 13*hourMs, refundReply := .answered "refund" }, proceed (13*hourMs)]

theorem payments_refunded_once_complaintRetried :
    ∃ w, MarketReachable ErrorMovedNothing w ∧ w.providerRefunds = [(1, 5000)] ∧
      ∃ p ∈ w.market.payments.rows, p.status = .refunded ∧ RefundedOnce w.providerRefunds p := by
  have hw : MarketReachable ErrorMovedNothing (sampleState complaintRetried) :=
    sampleState_guarded (by decide +kernel) (by decide +kernel)
  have hp : ((sampleState complaintRetried).market.payments.find? 1).map (·.status) =
      some .refunded := by decide +kernel
  obtain ⟨p, hp, hps⟩ := Option.map_eq_some_iff.mp hp
  obtain ⟨hp, _⟩ := Table.find?_eq_some.mp hp
  exact ⟨_, hw, by decide +kernel, p, hp, hps, (payments_refunded_once hw).1 p hp⟩

end Runs

end Kurtar.RefundOnce

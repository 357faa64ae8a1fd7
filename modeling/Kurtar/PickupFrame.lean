import Kurtar.MarketInvariant

/-!
# Steps that leave collected bags alone

Only the redeeming transaction makes a reservation redeemed, and only the
create endpoint adds an offer. Every other step keeps the collected
reservations as they are, the day and the window of every offer, and the
impact events that were published.
-/

namespace Kurtar.PickupFrame

open KeyedTable GuardedRuns StatusTransitions IstanbulCalendar Marketplace ReservationTransactions
open OfferLifecycle MarketService MarketEffects MarketConsistency MarketProcedures MarketInvariant

section Frame

/-- The day and the window of an offer stay. -/
structure SameWindow (o o' : Offer) : Prop where
  same_id : o'.id = o.id
  offerDate : o'.offerDate = o.offerDate
  pickupStartAt : o'.pickupStartAt = o.pickupStartAt
  pickupEndAt : o'.pickupEndAt = o.pickupEndAt

theorem SameWindow.refl (o : Offer) : SameWindow o o := ⟨rfl, rfl, rfl, rfl⟩

theorem SameWindow.trans {o o' o'' : Offer} (h : SameWindow o o') (h' : SameWindow o' o'') :
    SameWindow o o'' :=
  ⟨h'.same_id.trans h.same_id, h'.offerDate.trans h.offerDate,
    h'.pickupStartAt.trans h.pickupStartAt, h'.pickupEndAt.trans h.pickupEndAt⟩

/-- What was reserved, by whom and for how much stays. -/
structure SameBag (r r' : Reservation) : Prop where
  same_id : r'.id = r.id
  userId : r'.userId = r.userId
  offerId : r'.offerId = r.offerId
  storeId : r'.storeId = r.storeId
  qty : r'.qty = r.qty
  totalCents : r'.totalCents = r.totalCents

theorem SameBag.refl (r : Reservation) : SameBag r r := ⟨rfl, rfl, rfl, rfl, rfl, rfl⟩

theorem SameBag.trans {r r' r'' : Reservation} (h : SameBag r r') (h' : SameBag r' r'') :
    SameBag r r'' :=
  ⟨h'.same_id.trans h.same_id, h'.userId.trans h.userId, h'.offerId.trans h.offerId,
    h'.storeId.trans h.storeId, h'.qty.trans h.qty, h'.totalCents.trans h.totalCents⟩

def isImpact : OutboxEvent → Bool
  | .reservationRedeemedImpact _ _ _ _ _ _ _ => true
  | _ => false

/-- The impact events that were published, the newest first. -/
def impactEvents (m : Market) : List OutboxEvent := m.outbox.filter isImpact

/-- Offers keep their windows, collected reservations and impact events stay. -/
structure Framed (m m' : Market) : Prop where
  offers_kept : ∀ o ∈ m.offers.rows, ∃ o' ∈ m'.offers.rows, SameWindow o o'
  offers_old : ∀ o' ∈ m'.offers.rows, ∃ o ∈ m.offers.rows, SameWindow o o'
  bags_kept : ∀ r ∈ m.reservations.rows, ∃ r' ∈ m'.reservations.rows, SameBag r r'
  collected : ∀ r, r.status = .redeemed → (r ∈ m'.reservations.rows ↔ r ∈ m.reservations.rows)
  impact : impactEvents m' = impactEvents m

variable {m m' m'' : Market}

theorem framed_of_same (hoffers : m'.offers = m.offers)
    (hreservations : m'.reservations = m.reservations) (himpact : impactEvents m' = impactEvents m) :
    Framed m m' := by
  constructor
  · rw [hoffers]
    exact fun o ho => ⟨o, ho, .refl o⟩
  · rw [hoffers]
    exact fun o ho => ⟨o, ho, .refl o⟩
  · rw [hreservations]
    exact fun r hr => ⟨r, hr, .refl r⟩
  · rw [hreservations]
    exact fun r _ => Iff.rfl
  · exact himpact

theorem Framed.refl (m : Market) : Framed m m := framed_of_same rfl rfl rfl

theorem Framed.trans (h : Framed m m') (h' : Framed m' m'') : Framed m m'' := by
  constructor
  · intro o ho
    obtain ⟨o', ho', hsame⟩ := h.offers_kept o ho
    obtain ⟨o'', ho'', hsame'⟩ := h'.offers_kept o' ho'
    exact ⟨o'', ho'', hsame.trans hsame'⟩
  · intro o'' ho''
    obtain ⟨o', ho', hsame'⟩ := h'.offers_old o'' ho''
    obtain ⟨o, ho, hsame⟩ := h.offers_old o' ho'
    exact ⟨o, ho, hsame.trans hsame'⟩
  · intro r hr
    obtain ⟨r', hr', hsame⟩ := h.bags_kept r hr
    obtain ⟨r'', hr'', hsame'⟩ := h'.bags_kept r' hr'
    exact ⟨r'', hr'', hsame.trans hsame'⟩
  · exact fun r hs => (h'.collected r hs).trans (h.collected r hs)
  · exact h'.impact.trans h.impact

/-- Exchanging one offer for a version with the same window keeps all windows. -/
theorem windows_of_replaces {t t' : Table Offer.id} {o o' : Offer} (h : Table.Replaces t t' o o')
    (hsame : SameWindow o o') :
    (∀ s ∈ t.rows, ∃ s' ∈ t'.rows, SameWindow s s') ∧
      ∀ s' ∈ t'.rows, ∃ s ∈ t.rows, SameWindow s s' := by
  constructor
  · intro s hs
    obtain ⟨s', hs', _, rfl | ⟨rfl, rfl⟩⟩ := h.exists_new hs
    · exact ⟨s', hs', .refl s'⟩
    · exact ⟨s', hs', hsame⟩
  · intro s' hs'
    obtain ⟨s, hs, _, rfl | ⟨rfl, rfl⟩⟩ := h.exists_old hs'
    · exact ⟨s', hs, .refl s'⟩
    · exact ⟨s, hs, hsame⟩

theorem framed_of_offer {o o' : Offer} (h : Table.Replaces m.offers m'.offers o o')
    (hsame : SameWindow o o') (hreservations : m'.reservations = m.reservations)
    (himpact : impactEvents m' = impactEvents m) : Framed m m' := by
  constructor
  · exact (windows_of_replaces h hsame).1
  · exact (windows_of_replaces h hsame).2
  · rw [hreservations]
    exact fun r hr => ⟨r, hr, .refl r⟩
  · rw [hreservations]
    exact fun r _ => Iff.rfl
  · exact himpact

theorem bags_of_replaces {t t' : Table Reservation.id} {r r' : Reservation}
    (h : Table.Replaces t t' r r') (hsame : SameBag r r') :
    ∀ s ∈ t.rows, ∃ s' ∈ t'.rows, SameBag s s' := by
  intro s hs
  obtain ⟨s', hs', _, rfl | ⟨rfl, rfl⟩⟩ := h.exists_new hs
  · exact ⟨s', hs', .refl s'⟩
  · exact ⟨s', hs', hsame⟩

/-- Exchanging one reservation that is collected neither before nor after. -/
theorem framed_of_reservation {r r' : Reservation}
    (h : Table.Replaces m.reservations m'.reservations r r') (hsame : SameBag r r')
    (hbefore : r.status ≠ .redeemed) (hafter : r'.status ≠ .redeemed)
    (hoffers : m'.offers = m.offers) (himpact : impactEvents m' = impactEvents m) :
    Framed m m' := by
  constructor
  · rw [hoffers]
    exact fun o ho => ⟨o, ho, .refl o⟩
  · rw [hoffers]
    exact fun o ho => ⟨o, ho, .refl o⟩
  · exact bags_of_replaces h hsame
  · intro s hs
    constructor
    · intro hs'
      rcases h.mem_iff.mp hs' with rfl | ⟨hmem, _⟩
      · exact absurd hs hafter
      · exact hmem
    · intro hmem
      refine h.mem_iff.mpr (Or.inr ⟨hmem, ?_⟩)
      intro hid
      rw [m.reservations.eq_of_key_eq hmem h.mem_old hid] at hs
      exact hbefore hs
  · exact himpact

end Frame

section Transactions

variable {m m' : Market}

theorem framed_updateOffer {id : OfferId} {guard : Offer → Prop} [DecidablePred guard]
    {f : Offer → Offer} {hf : ∀ o, (f o).id = o.id} (h : m.updateOffer id guard f hf = some m')
    (hsame : ∀ o, SameWindow o (f o)) : Framed m m' := by
  obtain ⟨o, offers, _, _, hrep, rfl⟩ := Market.updateOffer_eq_some h
  exact framed_of_offer hrep (hsame o) rfl rfl

theorem framed_updatePayment {id : ReservationId} {guard : Payment → Prop} [DecidablePred guard]
    {f : Payment → Payment} {hf : ∀ p, (f p).reservationId = p.reservationId}
    (h : m.updatePayment id guard f hf = some m') : Framed m m' := by
  obtain ⟨p, payments, _, _, _, rfl⟩ := Market.updatePayment_eq_some h
  exact framed_of_same rfl rfl rfl

/-- A payment update that may match nothing. -/
theorem framed_tryPayment (m : Market) (id : ReservationId) (guard : Payment → Prop)
    [DecidablePred guard] (f : Payment → Payment) (hf : ∀ p, (f p).reservationId = p.reservationId) :
    Framed m ((m.updatePayment id guard f hf).getD m) := by
  cases hu : m.updatePayment id guard f hf with
  | none => exact .refl m
  | some updated => exact framed_updatePayment hu

/-- A status change between statuses that are not redeemed. -/
theorem framed_updateReservation {id : ReservationId} {guard : Reservation → Prop}
    [DecidablePred guard] {f : Reservation → Reservation} {hf : ∀ r, (f r).id = r.id}
    (h : m.updateReservation id guard f hf = some m') (hsame : ∀ r, SameBag r (f r))
    (hbefore : ∀ r, guard r → r.status ≠ .redeemed) (hafter : ∀ r, (f r).status ≠ .redeemed) :
    Framed m m' := by
  obtain ⟨r, reservations, _, hguard, hrep, rfl⟩ := Market.updateReservation_eq_some h
  exact framed_of_reservation hrep (hsame r) (hbefore r hguard) (hafter r) rfl rfl

/-- A status change out of listed statuses, none of them redeemed. -/
theorem framed_changeStatus {id : ReservationId} {statuses : List ReservationStatus}
    {f : Reservation → Reservation} {hf : ∀ r, (f r).id = r.id}
    (h : m.updateReservation id (fun r => r.status ∈ statuses) f hf = some m')
    (hstatuses : .redeemed ∉ statuses) (hsame : ∀ r, SameBag r (f r))
    (hafter : ∀ r, (f r).status ≠ .redeemed) : Framed m m' := by
  refine framed_updateReservation h hsame ?_ hafter
  intro r hfrom hs
  rw [hs] at hfrom
  exact hstatuses hfrom

theorem framed_release (m : Market) (offerId : OfferId) (qty : ℤ) :
    Framed m (release m offerId qty) := by
  unfold release releaseStock
  cases hu : m.offers.updateOne offerId (fun o => o.qtyReserved ≥ qty) (releaseRow qty)
      (fun _ => rfl) with
  | none => exact framed_of_same rfl rfl rfl
  | some offers =>
    obtain ⟨o, _, _, hrep⟩ := Table.updateOne_eq_some hu
    exact framed_of_offer hrep ⟨rfl, rfl, rfl, rfl⟩ rfl rfl

theorem framed_publish {event : OutboxEvent} (h : isImpact event = false) :
    Framed m (m.publish event) := by
  refine framed_of_same rfl rfl ?_
  simp [impactEvents, Market.publish, h]

theorem framed_expire {id : ReservationId} {hf : ∀ r, (markExpired r).id = r.id}
    (h : m.updateReservation id (fun r => r.status ∈ allowedReservationFrom .expired) markExpired
      hf = some m') : Framed m m' := by
  refine framed_changeStatus h (by decide) (fun r => ⟨rfl, rfl, rfl, rfl, rfl, rfl⟩) ?_
  intro r hs
  cases hs

theorem framed_createReservation {call : CreateCall} {codes : List Code}
    {committed : CommittedReservation}
    (h : createReservationWithRetry m call codes = .ok (m', committed)) : Framed m m' := by
  induction codes with
  | nil => simp [createReservationWithRetry] at h
  | cons code codes ih =>
    unfold createReservationWithRetry at h
    cases hattempt : createReservation m call code with
    | error e =>
      cases e with
      | codeTaken => exact ih (by simpa [hattempt] using h)
      | refused e => simp [hattempt] at h
    | ok result =>
      simp only [hattempt] at h
      cases h
      unfold createReservation at hattempt
      split at hattempt
      · cases hattempt
      · split at hattempt
        · cases hattempt
        · rename_i offer bagTemplate _ _ claimed hclaim
          split_ifs at hattempt
          cases hattempt
          have hclaimed : Framed m claimed :=
            framed_updateOffer hclaim fun o => ⟨rfl, rfl, rfl, rfl⟩
          obtain ⟨o, offers, _, _, _, rfl⟩ := Market.updateOffer_eq_some hclaim
          refine ⟨hclaimed.offers_kept, hclaimed.offers_old, ?_, ?_, hclaimed.impact⟩
          · exact fun r hr => ⟨r, Table.mem_insertNew.mpr (Or.inl hr), .refl r⟩
          · intro r hs
            constructor
            · intro hr
              rcases Table.mem_insertNew.mp hr with hr | ⟨rfl, _⟩
              · exact hr
              · cases hs
            · exact fun hr => Table.mem_insertNew.mpr (Or.inl hr)

theorem framed_compensate (m : Market) (committed : CommittedReservation) :
    Framed m (compensateFailedIntent m committed) := by
  unfold compensateFailedIntent
  split
  · exact .refl m
  · split
    · exact .refl m
    · rename_i failed hfailed
      have hframed := framed_updatePayment hfailed
      split
      · exact hframed
      · rename_i expired hexpired
        exact (hframed.trans (framed_expire hexpired)).trans (framed_release _ _ _)

theorem framed_expireAndRelease (m : Market) (payment : Payment) (reservation : Reservation)
    (outcome : SettleOutcome) : Framed m (expireAndRelease m payment reservation outcome).1 := by
  unfold expireAndRelease
  split
  · exact .refl m
  · rename_i failed hfailed
    have hframed := framed_updatePayment hfailed
    split
    · exact hframed
    · rename_i expired hexpired
      exact (hframed.trans (framed_expire hexpired)).trans (framed_release _ _ _)

theorem framed_settle (m : Market) (event : ProviderEvent) (clock : Instant) :
    Framed m (settle m event clock).1 := by
  unfold settle
  split
  · exact .refl m
  · split
    · split_ifs
      · unfold settleSuccess
        split
        · split_ifs <;> exact .refl m
        · rename_i paid hpaid
          split
          · exact .refl m
          · rename_i confirmed hconfirmed
            refine ((framed_updatePayment hpaid).trans ?_).trans (framed_publish rfl)
            refine framed_changeStatus hconfirmed (by decide)
              (fun r => ⟨rfl, rfl, rfl, rfl, rfl, rfl⟩) ?_
            intro r hs
            cases hs
      · exact framed_expireAndRelease m _ _ _
    · exact framed_expireAndRelease m _ _ _

theorem framed_failLiveIntent (m : Market) (id : ReservationId) :
    Framed m (failLiveIntent m id) := framed_tryPayment m id _ _ _

theorem framed_cancelFromFirst {id : ReservationId} {now : Instant}
    {statuses : List ReservationStatus} (hstatuses : .redeemed ∉ statuses)
    {matchedFrom : ReservationStatus}
    (h : cancelFromFirst m id now statuses = some (m', matchedFrom)) : Framed m m' := by
  induction statuses with
  | nil => cases h
  | cons fromStatus rest ih =>
    unfold cancelFromFirst at h
    split at h
    · rename_i cancelled hcancelled
      cases h
      refine framed_updateReservation hcancelled (fun r => ⟨rfl, rfl, rfl, rfl, rfl, rfl⟩) ?_ ?_
      · intro r hguard hs
        exact hstatuses (List.mem_cons.mpr (Or.inl (hs.symm.trans hguard.1)))
      · intro r hs
        cases hs
    · exact ih (fun hmem => hstatuses (List.mem_cons_of_mem _ hmem)) h

theorem framed_cancel {userId : UserId} {id : ReservationId} {now : Instant}
    {call : Option RefundCall} (h : cancel m userId id now = .ok (m', call)) : Framed m m' := by
  unfold cancel at h
  split at h
  · cases h
  · split_ifs at h
    split at h
    · cases h
    · split at h
      · cases h
      · rename_i cancelled matchedFrom hcancel
        cases h
        obtain ⟨⟨moved, fromStatus⟩, hmoved, he⟩ := Option.map_eq_some_iff.mp hcancel
        cases he
        exact ((framed_failLiveIntent m _).trans (framed_cancelFromFirst (by decide) hmoved)).trans
          (framed_release _ _ _)

theorem framed_markNoShow {id : ReservationId} (h : markNoShow m id = some m') : Framed m m' := by
  refine framed_changeStatus h (by decide) (fun r => ⟨rfl, rfl, rfl, rfl, rfl, rfl⟩) ?_
  intro r hs
  cases hs

theorem framed_claimRefund {id : ReservationId} {call : RefundCall}
    (h : claimRefund m id = .ok (m', call)) : Framed m m' := by
  unfold claimRefund at h
  split at h
  · cases h
  · split at h
    · cases h
    · split_ifs at h
      split at h
      · cases h
      · rename_i claimed hclaimed
        cases h
        exact framed_updatePayment hclaimed

theorem framed_storeRefund (m : Market) (refund : Refund) : Framed m (storeRefund m refund) :=
  framed_of_same rfl rfl rfl

theorem framed_moveRefunded (m : Market) (call : RefundCall) :
    Framed m (ReservationTransactions.moveRefunded m call) :=
  framed_tryPayment m call.reservationId _ _ _

theorem framed_releaseRefundClaim (m : Market) (id : ReservationId) :
    Framed m (ReservationTransactions.releaseRefundClaim m id) := framed_tryPayment m id _ _ _

theorem framed_publishOffer {id : OfferId} {now : Instant} (h : publishOffer m id now = .ok m') :
    Framed m m' := by
  unfold publishOffer at h
  split at h
  · split at h
    · cases h
    · split_ifs at h
  · rename_i published hpublished
    split at h
    · cases h
    · cases h
      exact (framed_updateOffer hpublished fun o => ⟨rfl, rfl, rfl, rfl⟩).trans (framed_publish rfl)

theorem framed_publishEndpoint {merchantId : MerchantId} {id : OfferId} {now : Instant}
    (h : OfferLifecycle.publish m merchantId id now = .ok m') : Framed m m' := by
  unfold OfferLifecycle.publish at h
  split at h
  · cases h
  · exact framed_publishOffer h

theorem framed_schedule {merchantId : MerchantId} {id : OfferId} {publishAt now : Instant}
    (h : OfferLifecycle.schedule m merchantId id publishAt now = .ok m') : Framed m m' := by
  unfold OfferLifecycle.schedule at h
  split at h
  · cases h
  · split_ifs at h
    split at h
    · cases h
    · rename_i scheduled hscheduled
      cases h
      exact framed_updateOffer hscheduled fun o => ⟨rfl, rfl, rfl, rfl⟩

theorem framed_close {merchantId : MerchantId} {id : OfferId}
    (h : OfferLifecycle.close m merchantId id = .ok m') : Framed m m' := by
  unfold OfferLifecycle.close at h
  split at h
  · cases h
  · split at h
    · cases h
    · rename_i closed hclosed
      cases h
      exact framed_updateOffer hclosed fun o => ⟨rfl, rfl, rfl, rfl⟩

theorem framed_terminalize {id : OfferId} (h : terminalizeExpiredScheduled m id = some m') :
    Framed m m' :=
  framed_updateOffer h fun _ => ⟨rfl, rfl, rfl, rfl⟩

theorem framed_verifyMerchant {merchantId : MerchantId} {target : MerchantVerificationStatus}
    (h : verifyMerchant m merchantId target = some m') : Framed m m' := by
  obtain ⟨merchants, _, rfl⟩ := Option.map_eq_some_iff.mp h
  exact framed_of_same rfl rfl rfl

theorem framed_catalogueChange {event : CatalogueEvent} (h : catalogueChange m event = some m') :
    Framed m m' := by
  cases event with
  | verifyMerchant merchantId target =>
    simp only [catalogueChange] at h
    split_ifs at h
    exact framed_verifyMerchant h
  | setStoreActive storeId active =>
    obtain ⟨stores, _, rfl⟩ := Option.map_eq_some_iff.mp h
    exact framed_of_same rfl rfl rfl
  | editBagTemplate bagTemplateId priceCents active =>
    obtain ⟨templates, _, rfl⟩ := Option.map_eq_some_iff.mp h
    exact framed_of_same rfl rfl rfl
  | _ =>
    cases h
    exact framed_of_same rfl rfl rfl

/-- The rows a sound cancellation writes are live, so none of them is collected. -/
theorem framed_commit {tx : OfferCancellation} (hs : CancellationSound m tx) :
    Framed m (tx.commit m) := by
  have hbag : ∀ r, SameBag r (afterReservation tx r) := by
    intro r
    unfold afterReservation
    split_ifs <;> dsimp only <;> split_ifs <;> exact ⟨rfl, rfl, rfl, rfl, rfl, rfl⟩
  constructor
  · intro o ho
    refine ⟨_, List.mem_map.mpr ⟨o, ho, rfl⟩, ?_⟩
    split_ifs <;> exact ⟨rfl, rfl, rfl, rfl⟩
  · intro o' ho'
    obtain ⟨o, ho, rfl⟩ := List.mem_map.mp ho'
    refine ⟨o, ho, ?_⟩
    split_ifs <;> exact ⟨rfl, rfl, rfl, rfl⟩
  · exact fun r hr => ⟨_, mem_commit_reservations.mpr ⟨r, hr, rfl⟩, hbag r⟩
  · intro s hstatus
    constructor
    · intro hmem
      obtain ⟨r, hr, rfl⟩ := mem_commit_reservations.mp hmem
      rcases afterReservation_cases hs hr with ⟨_, he⟩ | ⟨_, he⟩ | ⟨_, he⟩
      · rw [he] at hstatus
        cases hstatus
      · rw [he] at hstatus
        cases hstatus
      · rw [he]
        exact hr
    · intro hmem
      refine mem_commit_reservations.mpr ⟨s, hmem, ?_⟩
      rcases afterReservation_cases hs hmem with ⟨htaken, _⟩ | ⟨htaken, _⟩ | ⟨_, he⟩
      · rw [(hs.expired_rows s htaken).2.2.1] at hstatus
        cases hstatus
      · rw [(hs.cancelled_rows s htaken).2.2] at hstatus
        cases hstatus
      · exact he
  · rfl

end Transactions

section Quiet

/-- Is the task a redeeming transaction? -/
def isRedeemWrite : Task → Bool
  | .redeemWrite _ _ => true
  | _ => false

/-- A redeem call that has passed its checks is under way. -/
def Redeeming (w : World) (redeemer : Redeemer) (read : RedeemRead) : Prop :=
  Task.redeemWrite redeemer read ∈ w.tasks

/-- The rows are framed and no redeem call is added. -/
structure Quiet (w w' : World) : Prop where
  framed : Framed w.market w'.market
  redeems : ∀ redeemer read, Redeeming w' redeemer read → Redeeming w redeemer read

variable {w w₁ w' : World} {m : Market}

theorem Quiet.refl (w : World) : Quiet w w := ⟨.refl _, fun _ _ h => h⟩

theorem Quiet.spawn (h : Quiet w w₁) {task : Task} (htask : isRedeemWrite task = false) :
    Quiet w (w₁.spawn task) := by
  refine ⟨h.framed, ?_⟩
  intro redeemer read hmem
  rcases List.mem_cons.mp hmem with he | hmem
  · rw [← he] at htask
    cases htask
  · exact h.redeems redeemer read hmem

theorem Quiet.spawnSome (h : Quiet w w₁) {α : Type} {task : List α → Task}
    (htask : ∀ items, isRedeemWrite (task items) = false) (items : List α) :
    Quiet w (w₁.spawnSome task items) := by
  unfold World.spawnSome
  split_ifs
  · exact h
  · exact h.spawn (htask items)

theorem Quiet.continueRefunds (h : Quiet w w₁) (rest : List RefundCall) (next : List OfferId) :
    Quiet w (w₁.continueRefunds rest next) := by
  unfold World.continueRefunds
  split
  · exact h.spawn rfl
  · exact h.spawnSome (fun _ => rfl) next

theorem quiet_commit (hframed : Framed w.market m) (h : w.commit m = some w') : Quiet w w' := by
  obtain ⟨rfl, _⟩ := commit_eq_some h
  exact ⟨hframed, fun _ _ hmem => hmem⟩

theorem quiet_takeIn (w : World) (event : ProviderEvent) (swept : List (MerchantOid × ℤ)) :
    Quiet w (w.takeIn event swept) := by
  unfold World.takeIn
  split_ifs
  · exact (Quiet.refl w).spawnSome (fun _ => rfl) swept
  · have hlogged : Quiet w { w with
        market :=
          { w.market with webhookEvents := event.externalEventId :: w.market.webhookEvents } } :=
      ⟨framed_of_same rfl rfl rfl, fun _ _ hmem => hmem⟩
    exact hlogged.spawn rfl

theorem quiet_openCancellation {tx : OfferCancellation} (h : w.openCancellation tx = some w') :
    Quiet w w' := by
  unfold World.openCancellation at h
  split_ifs at h
  cases h
  exact ⟨.refl _, fun _ _ hmem => hmem⟩

/-- A step of a world from which a task was taken. -/
theorem Quiet.of_part {w₀ : World} (h : Quiet w₀ w') (hm : w₀.market = w.market)
    (htasks : ∀ task ∈ w₀.tasks, task ∈ w.tasks) : Quiet w w' := by
  refine ⟨?_, fun redeemer read hmem => htasks _ (h.redeems redeemer read hmem)⟩
  rw [← hm]
  exact h.framed

end Quiet

section Steps

/-- What a redeem call read when its checks passed at an instant. -/
structure CheckedRead (m : Market) (now : Instant) (read : RedeemRead) : Prop where
  reservation : read.reservation ∈ m.reservations.rows
  offer : read.offer ∈ m.offers.rows
  offer_id : read.offer.id = read.reservation.offerId
  started : read.offer.pickupStartAt ≤ now
  notOver : now ≤ read.offer.pickupEndAt

theorem checkedRead_of_check {m : Market} {redeemer : Redeemer} {id : ReservationId}
    {now : Instant} {read : RedeemRead} (h : checkRedeem m redeemer id now = .ok (some read)) :
    CheckedRead m now read := by
  unfold checkRedeem at h
  cases hf : m.reservations.find? id with
  | none => simp [hf] at h
  | some reservation =>
    cases hjoin : offerWithTemplate m reservation.offerId with
    | none => simp [hf, hjoin] at h
    | some joined =>
      obtain ⟨offer, bagTemplate⟩ := joined
      simp only [hf, hjoin] at h
      split_ifs at h with _ _ _ hstart hend
      · cases h
      · cases h
        push Not at hstart hend
        obtain ⟨row, hrow, hbind⟩ := Option.bind_eq_some_iff.mp hjoin
        obtain ⟨template, _, he⟩ := Option.map_eq_some_iff.mp hbind
        cases he
        obtain ⟨ho, hid⟩ := Table.find?_eq_some.mp hrow
        exact ⟨(Table.find?_eq_some.mp hf).1, ho, hid, hstart, hend⟩

/-- What one step means for collected bags. -/
inductive PickupStep (w : World) : Action → World → Prop
  | quiet {a : Action} {w' : World} (h : Quiet w w') : PickupStep w a w'
  | checked {redeemer : Redeemer} {id : ReservationId} {now : Instant} {read : RedeemRead}
      (hcheck : checkRedeem w.market redeemer id now = .ok (some read)) :
      PickupStep w (.redeem redeemer id now) (w.spawn (.redeemWrite redeemer read))
  | offerCreated {merchantId : MerchantId} {dto : CreateOfferDto} {freshId : OfferId}
      {now : Instant} {bagTemplate : BagTemplate} {w' : World}
      (hwindow : validateOfferWindow dto now = .ok ())
      (hfresh : ∀ o ∈ w.market.offers.rows, o.id ≠ freshId)
      (hmarket : w'.market =
        { w.market with
          offers := w.market.offers.insertNew (newOffer dto bagTemplate freshId) })
      (htasks : w'.tasks = w.tasks) : PickupStep w (.createOffer merchantId dto freshId now) w'
  | redeemed {index : ℕ} {input : StepInput} {redeemer : Redeemer} {read : RedeemRead}
      {r : Reservation} {o : Offer} {w' : World}
      (htask : w.tasks[index]? = some (.redeemWrite redeemer read))
      (hid : r.id = read.reservation.id) (hstatus : r.status = .confirmed)
      (hreservations : Table.Replaces w.market.reservations w'.market.reservations r
        (markRedeemed redeemer input.clock r))
      (hoffer : o.id = read.reservation.offerId)
      (hoffers : Table.Replaces w.market.offers w'.market.offers o
        (redeemRow read.reservation.qty o))
      (houtbox : w'.market.outbox = (publishRedeemed w.market read input.clock).outbox)
      (htasks : w'.tasks = w.tasks.eraseIdx index) : PickupStep w (.resume index input) w'

variable {w w' : World} {input : StepInput}

theorem createEntry_quiet {call : CreateCall} {codes : List Code}
    (h : createEntry w call codes = some w') : Quiet w w' := by
  unfold createEntry at h
  split_ifs at h
  split at h
  · cases h
  · rename_i m committed hcreate
    obtain ⟨w₁, hcommit, rfl⟩ := Option.map_eq_some_iff.mp h
    exact (quiet_commit (framed_createReservation hcreate) hcommit).spawn rfl

theorem cancelEntry_quiet {userId : UserId} {id : ReservationId} {now : Instant}
    (h : cancelEntry w userId id now = some w') : Quiet w w' := by
  unfold cancelEntry at h
  split at h
  · cases h
  · rename_i m hcancel
    exact quiet_commit (framed_cancel hcancel) h
  · rename_i m call hcancel
    obtain ⟨w₁, hcommit, rfl⟩ := Option.map_eq_some_iff.mp h
    exact (quiet_commit (framed_cancel hcancel) hcommit).spawn rfl

theorem redeemEntry_pickup {redeemer : Redeemer} {id : ReservationId} {now : Instant}
    (h : redeemEntry w redeemer id now = some w') :
    PickupStep w (.redeem redeemer id now) w' := by
  unfold redeemEntry at h
  split at h
  · cases h
  · cases h
    exact .quiet (.refl w)
  · rename_i read hcheck
    cases h
    exact .checked hcheck

theorem refundRedeemedEntry_quiet {id : ReservationId}
    (h : refundRedeemedEntry w id = some w') : Quiet w w' := by
  unfold refundRedeemedEntry at h
  split at h
  · cases h
  · rename_i m call hclaim
    obtain ⟨w₁, hcommit, rfl⟩ := Option.map_eq_some_iff.mp h
    exact (quiet_commit (framed_claimRefund hclaim) hcommit).spawn rfl

theorem createOfferEntry_pickup {merchantId : MerchantId} {dto : CreateOfferDto}
    {freshId : OfferId} {now : Instant}
    (h : createOfferEntry w merchantId dto freshId now = some w') :
    PickupStep w (.createOffer merchantId dto freshId now) w' := by
  unfold createOfferEntry at h
  split_ifs at h
  split at h
  · cases h
  · rename_i m hcreate
    obtain ⟨rfl, _⟩ := commit_eq_some h
    unfold createOffer at hcreate
    split at hcreate
    · cases hcreate
    · rename_i bagTemplate _
      split_ifs at hcreate with _ _ htaken
      · split at hcreate <;> cases hcreate
      · split at hcreate
        · cases hcreate
        · rename_i hwindow
          cases hcreate
          exact .offerCreated hwindow (fun o ho he => htaken ⟨o, ho, Or.inl he⟩) rfl rfl

theorem offerEntry_quiet {outcome : Except OfferError Market}
    (hframed : ∀ m, outcome = .ok m → Framed w.market m) (h : offerEntry w outcome = some w') :
    Quiet w w' := by
  unfold offerEntry at h
  split at h
  · cases h
  · exact quiet_commit (hframed _ rfl) h

theorem cancelOfferEntry_quiet {merchantId : MerchantId} {offerId : OfferId}
    (h : cancelOfferEntry w merchantId offerId = some w') : Quiet w w' := by
  unfold cancelOfferEntry at h
  split at h
  · cases h
  · split at h
    · cases h
    · exact quiet_openCancellation h

theorem adminCancelEntry_quiet {adminId : AdminId} {offerId : OfferId}
    (h : adminCancelEntry w adminId offerId = some w') : Quiet w w' := by
  unfold adminCancelEntry at h
  split at h
  · cases h
  · exact quiet_openCancellation h

theorem adminSuspendEntry_quiet {merchantId : MerchantId}
    (h : adminSuspendEntry w merchantId = some w') : Quiet w w' := by
  unfold adminSuspendEntry at h
  split at h
  · cases h
  · rename_i m hverify
    obtain ⟨w₁, hcommit, rfl⟩ := Option.map_eq_some_iff.mp h
    exact (quiet_commit (framed_verifyMerchant hverify) hcommit).spawn rfl

theorem catalogueEntry_quiet {event : CatalogueEvent} (h : catalogueEntry w event = some w') :
    Quiet w w' := by
  unfold catalogueEntry at h
  split at h
  · cases h
  · rename_i m hchange
    exact quiet_commit (framed_catalogueChange hchange) h

theorem sweepOne_quiet {stale : List (MerchantOid × ℤ)} (h : sweepOne w stale input = some w') :
    Quiet w w' := by
  unfold sweepOne at h
  split at h
  · cases h
    exact .refl w
  · split at h <;> cases h
    · exact (Quiet.refl w).spawnSome (fun _ => rfl) _
    · exact quiet_takeIn w _ _
    · exact quiet_takeIn w _ _

/-- A redeeming transaction takes effect exactly when its reservation is still confirmed. -/
theorem redeemWrite_cases {redeemer : Redeemer} {read : RedeemRead}
    (hoffer : ∃ o ∈ w.market.offers.rows, o.id = read.reservation.offerId)
    (h : redeemWrite w redeemer read input = some w') :
    (w' = w ∧ ∀ r ∈ w.market.reservations.rows, r.id = read.reservation.id →
      r.status ≠ .confirmed) ∨
    ∃ r o, r.id = read.reservation.id ∧ r.status = .confirmed ∧
      Table.Replaces w.market.reservations w'.market.reservations r
        (markRedeemed redeemer input.clock r) ∧
      o.id = read.reservation.offerId ∧
      Table.Replaces w.market.offers w'.market.offers o (redeemRow read.reservation.qty o) ∧
      w'.market.outbox = (publishRedeemed w.market read input.clock).outbox ∧
      w'.tasks = w.tasks := by
  unfold redeemWrite at h
  unfold redeem at h
  cases hupdate : w.market.updateReservation read.reservation.id
      (fun r => r.status ∈ allowedReservationFrom .redeemed) (markRedeemed redeemer input.clock)
      (fun _ => rfl) with
  | none =>
    have hnone := (Market.updateReservation_eq_none _ _).mp hupdate
    have hnot : ∀ r ∈ w.market.reservations.rows, r.id = read.reservation.id →
        r.status ≠ .confirmed := by
      intro r hr hid hs
      apply hnone r hr hid
      rw [allowedReservationFrom_redeemed, List.mem_singleton]
      exact hs
    simp only [hupdate] at h
    split at h
    · cases h
      exact Or.inl ⟨rfl, hnot⟩
    · rename_i m redeemedAt hok
      split at hok
      · cases hok
      · split_ifs at hok
        cases hok
        obtain ⟨rfl, _⟩ := commit_eq_some h
        exact Or.inl ⟨rfl, hnot⟩
  | some redeemed =>
    obtain ⟨r, reservations, hid, hfrom, hrep, rfl⟩ := Market.updateReservation_eq_some hupdate
    obtain ⟨o, ho, hoid⟩ := hoffer
    obtain ⟨offers, hcount⟩ := Table.updateOne_of_mem (p := fun _ : Offer => True)
      (redeemRow read.reservation.qty) (fun _ => rfl) ho hoid trivial
    obtain ⟨o', hoid', _, hoffers⟩ := Table.updateOne_eq_some hcount
    simp only [hupdate, Market.updateOffer, hcount, Option.map_some] at h
    obtain ⟨rfl, _⟩ := commit_eq_some h
    rw [allowedReservationFrom_redeemed, List.mem_singleton] at hfrom
    exact Or.inr ⟨r, o', hid, hfrom, hrep, hoid', hoffers, rfl, rfl⟩

theorem sweepNoShow_quiet {uncollected : List ReservationId}
    (h : sweepNoShow w uncollected = some w') : Quiet w w' := by
  unfold sweepNoShow at h
  split at h
  · cases h
    exact .refl w
  · split at h
    · cases h
      exact (Quiet.refl w).spawnSome (fun _ => rfl) _
    · rename_i m hmark
      obtain ⟨w₁, hcommit, rfl⟩ := Option.map_eq_some_iff.mp h
      exact (quiet_commit (framed_markNoShow hmark) hcommit).spawnSome
        (fun _ => rfl) _

theorem publishDue_quiet {due : List OfferId} (h : publishDue w due input = some w') :
    Quiet w w' := by
  unfold publishDue at h
  split at h
  · cases h
    exact .refl w
  · split at h
    · rename_i m hpublish
      obtain ⟨w₁, hcommit, rfl⟩ := Option.map_eq_some_iff.mp h
      exact (quiet_commit (framed_publishOffer hpublish) hcommit).spawnSome
        (fun _ => rfl) _
    · cases h
      exact (Quiet.refl w).spawn rfl
    · cases h
      exact (Quiet.refl w).spawnSome (fun _ => rfl) _

theorem terminalize_quiet {offerId : OfferId} {due : List OfferId}
    (h : terminalize w offerId due = some w') : Quiet w w' := by
  unfold terminalize at h
  split at h
  · cases h
    exact (Quiet.refl w).spawnSome (fun _ => rfl) _
  · rename_i m hterm
    obtain ⟨w₁, hcommit, rfl⟩ := Option.map_eq_some_iff.mp h
    exact (quiet_commit (framed_terminalize hterm) hcommit).spawnSome
      (fun _ => rfl) _

theorem cancelNext_quiet {offerIds : List OfferId} (h : cancelNext w offerIds = some w') :
    Quiet w w' := by
  unfold cancelNext at h
  split at h
  · cases h
    exact .refl w
  · split at h
    · cases h
      exact (Quiet.refl w).spawnSome (fun _ => rfl) _
    · exact quiet_openCancellation h

theorem refundRefused_quiet (w : World) (call : RefundCall) (rest : List RefundCall)
    (next : List OfferId) (input : StepInput) :
    Quiet w (refundRefused w call rest next input) := by
  have hstored : Quiet w (if input.databaseFails then w
      else { w with market := storeRefund w.market (refundRow call none .failed) }) := by
    split_ifs
    · exact .refl w
    · exact ⟨framed_storeRefund _ _, fun _ _ hmem => hmem⟩
  by_cases hpending : call.fromStatus = .refundPending
  · simp only [refundRefused, if_pos hpending]
    exact hstored.spawn rfl
  · simp only [refundRefused, if_neg hpending]
    exact hstored.continueRefunds rest next

theorem refund_quiet {call : RefundCall} {rest : List RefundCall} {next : List OfferId}
    (h : refund w call rest next input = some w') : Quiet w w' := by
  have haccepted : Quiet w { w with
      providerRefunds := (call.merchantOid, call.amountCents) :: w.providerRefunds } :=
    ⟨.refl _, fun _ _ hmem => hmem⟩
  unfold refund at h
  split at h <;> cases h
  · exact haccepted.spawn rfl
  · exact (refundRefused_quiet _ call rest next input).of_part rfl fun _ hmem => hmem
  · exact refundRefused_quiet w call rest next input

theorem recordRefund_quiet {call : RefundCall} {refundRef : String} {rest : List RefundCall}
    {next : List OfferId} (h : recordRefund w call refundRef rest next input = some w') :
    Quiet w w' := by
  unfold MarketService.recordRefund at h
  split_ifs at h
  · cases h
    exact (Quiet.refl w).spawn rfl
  · obtain ⟨w₁, hcommit, rfl⟩ := Option.map_eq_some_iff.mp h
    exact (quiet_commit ((framed_storeRefund _ _).trans (framed_moveRefunded _ _))
      hcommit).continueRefunds rest next

theorem recordSent_quiet {call : RefundCall} {refundRef : String} {rest : List RefundCall}
    {next : List OfferId} (h : recordSent w call refundRef rest next input = some w') :
    Quiet w w' := by
  cases h
  split_ifs
  · exact (Quiet.refl w).spawn rfl
  · have hstored : Quiet w { w with
        market := storeRefund w.market (refundRow call (some refundRef) .sent) } :=
      ⟨framed_storeRefund _ _, fun _ _ hmem => hmem⟩
    exact hstored.spawn rfl

theorem moveRefunded_quiet {call : RefundCall} {rest : List RefundCall} {next : List OfferId}
    (h : moveRefunded w call rest next input = some w') : Quiet w w' := by
  unfold MarketService.moveRefunded at h
  split_ifs at h
  · cases h
    exact (Quiet.refl w).continueRefunds rest next
  · obtain ⟨w₁, hcommit, rfl⟩ := Option.map_eq_some_iff.mp h
    exact (quiet_commit (framed_moveRefunded _ _) hcommit).continueRefunds rest next

theorem releaseRefundClaim_quiet {id : ReservationId}
    (h : releaseRefundClaim w id input = some w') : Quiet w w' := by
  unfold MarketService.releaseRefundClaim at h
  split_ifs at h
  · cases h
    exact .refl w
  · exact quiet_commit (framed_releaseRefundClaim _ _) h

theorem advanceCancellation_quiet (hw : WorldSound w) {index : ℕ}
    (h : advanceCancellation w index = some w') : Quiet w w' := by
  obtain ⟨tx, hget, ⟨tx', _, rfl⟩ | ⟨_, w₁, hcommit, rfl⟩⟩ := advanceCancellation_cases h
  · exact ⟨.refl _, fun _ _ hmem => hmem⟩
  · have hs := hw.cancellations tx (List.mem_of_getElem? hget)
    have hclosed : Quiet { w with
        openCancellations := w.openCancellations.eraseIdx index } w₁ :=
      quiet_commit (framed_commit hs) hcommit
    have hstep : Quiet w w₁ := hclosed.of_part rfl fun _ hmem => hmem
    exact hstep.continueRefunds _ _

theorem rollbackCancellation_quiet {index : ℕ} (h : rollbackCancellation w index = some w') :
    Quiet w w' := by
  unfold rollbackCancellation at h
  split at h
  · cases h
  · cases h
    have hclosed : Quiet w { w with openCancellations := w.openCancellations.eraseIdx index } :=
      ⟨.refl _, fun _ _ hmem => hmem⟩
    exact hclosed.spawnSome (fun _ => rfl) _

/-- The offer of a reservation that a redeem call has read is stored. -/
theorem offer_of_read (hw : WorldSound w) {redeemer : Redeemer} {read : RedeemRead}
    (hmem : Redeeming w redeemer read) :
    ∃ o ∈ w.market.offers.rows, o.id = read.reservation.offerId := by
  have hsound : ReadSound w.market read := hw.tasks _ hmem
  obtain ⟨r, hr, _, hoffer, _⟩ := hsound
  obtain ⟨o, ho, hoid⟩ := hw.consistent.has_offer r hr
  exact ⟨o, ho, hoid.trans hoffer⟩

/-- A resumed task leaves collected bags alone, unless it is a redeeming transaction. -/
theorem resume_pickup {index : ℕ} (hw : WorldSound w)
    (h : step w (.resume index input) = some w') : PickupStep w (.resume index input) w' := by
  simp only [step] at h
  cases ht : w.tasks[index]? with
  | none => simp [ht] at h
  | some task =>
    simp only [ht] at h
    have hpart : ∀ t ∈ w.tasks.eraseIdx index, t ∈ w.tasks := fun t hmem =>
      List.mem_of_mem_eraseIdx hmem
    cases task with
    | redeemWrite redeemer read =>
      have hcases := redeemWrite_cases (w := { w with tasks := w.tasks.eraseIdx index })
        (offer_of_read hw (List.mem_of_getElem? ht)) h
      rcases hcases with
        ⟨rfl, _⟩ | ⟨r, o, hid, hs, hreservations, hoffer, hoffers, houtbox, htasks⟩
      · exact .quiet ((Quiet.refl _).of_part rfl hpart)
      · exact .redeemed ht hid hs hreservations hoffer hoffers houtbox htasks
    | createIntent committed =>
      unfold resumeTask MarketService.createIntent at h
      split_ifs at h
      · cases h
        exact .quiet ((Quiet.refl _).of_part rfl hpart)
      · exact .quiet ((quiet_commit (framed_compensate _ _) h).of_part rfl hpart)
    | settleEvent event swept =>
      obtain ⟨w₁, hcommit, rfl⟩ := Option.map_eq_some_iff.mp h
      exact .quiet (((quiet_commit (framed_settle _ _ _) hcommit).spawnSome
        (fun _ => rfl) _).of_part rfl hpart)
    | sweepOne stale => exact .quiet ((sweepOne_quiet h).of_part rfl hpart)
    | sweepNoShow uncollected => exact .quiet ((sweepNoShow_quiet h).of_part rfl hpart)
    | publishDue due => exact .quiet ((publishDue_quiet h).of_part rfl hpart)
    | terminalize offerId due => exact .quiet ((terminalize_quiet h).of_part rfl hpart)
    | killSwitch merchantId =>
      cases h
      exact .quiet (((Quiet.refl _).spawnSome (fun _ => rfl) _).of_part rfl hpart)
    | cancelNext offerIds => exact .quiet ((cancelNext_quiet h).of_part rfl hpart)
    | refund call rest next => exact .quiet ((refund_quiet h).of_part rfl hpart)
    | recordRefund call refundRef rest next =>
      exact .quiet ((recordRefund_quiet h).of_part rfl hpart)
    | recordSent call refundRef rest next => exact .quiet ((recordSent_quiet h).of_part rfl hpart)
    | moveRefunded call rest next => exact .quiet ((moveRefunded_quiet h).of_part rfl hpart)
    | releaseRefundClaim id => exact .quiet ((releaseRefundClaim_quiet h).of_part rfl hpart)

/-- What one step of a sound world means for collected bags. -/
theorem step_pickup {a : Action} (hw : WorldSound w) (h : step w a = some w') :
    PickupStep w a w' := by
  cases a with
  | create call codes => exact .quiet (createEntry_quiet h)
  | webhook event =>
    cases h
    exact .quiet (quiet_takeIn w event [])
  | sweepStaleIntents now =>
    cases h
    exact .quiet ((Quiet.refl w).spawnSome (fun _ => rfl) _)
  | cancel userId id now => exact .quiet (cancelEntry_quiet h)
  | redeem redeemer id now => exact redeemEntry_pickup h
  | sweepNoShows now =>
    cases h
    exact .quiet ((Quiet.refl w).spawnSome (fun _ => rfl) _)
  | refundRedeemed id => exact .quiet (refundRedeemedEntry_quiet h)
  | createOffer merchantId dto freshId now => exact createOfferEntry_pickup h
  | publish merchantId offerId now =>
    exact .quiet (offerEntry_quiet (fun _ hm => framed_publishEndpoint hm) h)
  | schedule merchantId offerId publishAt now =>
    exact .quiet (offerEntry_quiet (fun _ hm => framed_schedule hm) h)
  | close merchantId offerId => exact .quiet (offerEntry_quiet (fun _ hm => framed_close hm) h)
  | publishDueScheduled now =>
    cases h
    exact .quiet ((Quiet.refl w).spawnSome (fun _ => rfl) _)
  | cancelOffer merchantId offerId => exact .quiet (cancelOfferEntry_quiet h)
  | adminCancel adminId offerId => exact .quiet (adminCancelEntry_quiet h)
  | adminSuspend merchantId => exact .quiet (adminSuspendEntry_quiet h)
  | catalogue event => exact .quiet (catalogueEntry_quiet h)
  | advanceCancellation index => exact .quiet (advanceCancellation_quiet hw h)
  | rollbackCancellation index => exact .quiet (rollbackCancellation_quiet h)
  | resume index input => exact resume_pickup hw h

/-- No step takes an offer away or moves its window. -/
theorem PickupStep.offers_kept {a : Action} (h : PickupStep w a w') :
    ∀ o ∈ w.market.offers.rows, ∃ o' ∈ w'.market.offers.rows, SameWindow o o' := by
  cases h with
  | quiet hquiet => exact hquiet.framed.offers_kept
  | checked _ => exact fun o ho => ⟨o, ho, .refl o⟩
  | offerCreated _ _ hmarket _ =>
    rw [hmarket]
    exact fun o ho => ⟨o, Table.mem_insertNew.mpr (Or.inl ho), .refl o⟩
  | redeemed _ _ _ _ _ hoffers _ _ => exact (windows_of_replaces hoffers ⟨rfl, rfl, rfl, rfl⟩).1

end Steps

end Kurtar.PickupFrame

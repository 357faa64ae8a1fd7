import Kurtar.RefundBooks

/-!
# Steps that leave refunds alone

The refund work of the procedures under way, and the steps that pass it on as
it is: no payment becomes refunded or leaves a claim, no call is added, and
the provider accepts nothing. These are all steps but a cancel, a claim, a
committed fan-out and the statements of a refund.
-/

namespace Kurtar.RefundFrame

open KeyedTable GuardedRuns StatusTransitions IstanbulCalendar Marketplace ReservationTransactions
open OfferLifecycle MarketService MarketEffects MarketConsistency MarketProcedures MarketInvariant
open RefundBooks

section Work

def workOf : Task → List RefundWork
  | .refund call rest _ => .due call :: rest.map .due
  | .recordRefund call _ rest _ => .accepted call :: rest.map .due
  | .recordSent call _ rest _ => .accepted call :: rest.map .due
  | .moveRefunded call rest _ => .accepted call :: rest.map .due
  | .releaseRefundClaim reservationId => [.refused reservationId]
  | _ => []

/-- The refund work of all procedures under way. -/
def worksOf (w : World) : List RefundWork := w.tasks.flatMap workOf

@[simp] theorem worksOf_spawn (w : World) (task : Task) :
    worksOf (w.spawn task) = workOf task ++ worksOf w := rfl

theorem worksOf_spawnSome {α : Type} (w : World) {task : List α → Task}
    (htask : ∀ items, workOf (task items) = []) (items : List α) :
    worksOf (w.spawnSome task items) = worksOf w := by
  unfold World.spawnSome
  split_ifs
  · rfl
  · rw [worksOf_spawn, htask, List.nil_append]

theorem worksOf_continueRefunds (w : World) (rest : List RefundCall) (next : List OfferId) :
    worksOf (w.continueRefunds rest next) = rest.map .due ++ worksOf w := by
  cases rest with
  | nil => exact worksOf_spawnSome w (fun _ => rfl) next
  | cons call rest => rfl

/-- Resuming a task takes its work out. -/
theorem worksOf_resume {w : World} {index : ℕ} {task : Task} (h : w.tasks[index]? = some task) :
    (worksOf w).Perm (workOf task ++ worksOf { w with tasks := w.tasks.eraseIdx index }) := by
  obtain ⟨hlt, hget⟩ := List.getElem?_eq_some_iff.mp h
  have hperm := (List.getElem_cons_eraseIdx_perm hlt).flatMap_right workOf
  rw [hget, List.flatMap_cons] at hperm
  exact hperm.symm

end Work

section Neutral

/-- Payments neither become refunded nor leave a claim. -/
def KeepsRefunds (m m' : Market) : Prop :=
  ∀ p' ∈ m'.payments.rows, p'.status = .refunded ∨ p'.status = .paid →
    p' ∈ m.payments.rows ∨ ∃ p ∈ m.payments.rows, p.reservationId = p'.reservationId ∧
      liveIntent p.status ∧ p'.status = .paid

variable {m m' : Market} {w w₁ w' : World}

theorem keepsRefunds_of_same (h : m'.payments = m.payments) : KeepsRefunds m m' := by
  intro p' hp' _
  rw [h] at hp'
  exact Or.inl hp'

theorem keepsRefunds_of_replaces {p p' : Payment} (h : Table.Replaces m.payments m'.payments p p')
    (hp' : p'.status = .refunded ∨ p'.status = .paid → liveIntent p.status ∧ p'.status = .paid) :
    KeepsRefunds m m' := by
  intro q' hq' hstatus
  rcases h.mem_iff.mp hq' with rfl | ⟨hq', _⟩
  · exact Or.inr ⟨p, h.mem_old, h.key_new.symm, hp' hstatus⟩
  · exact Or.inl hq'

theorem keepsRefunds_of_live {p p' : Payment} (h : Table.Replaces m.payments m'.payments p p')
    (hlive : liveIntent p.status) (hp' : p'.status ≠ .refunded) : KeepsRefunds m m' :=
  keepsRefunds_of_replaces h fun hstatus => ⟨hlive, hstatus.resolve_left hp'⟩

/-- An effect that keeps the refunds keeps their books. -/
theorem balanced_of_keeps {c : Cause} {works : List RefundWork} {accepted : List (MerchantOid × ℤ)}
    (hb : Balanced m works accepted) (hc : Consistent m) (h : Effect m c m')
    (hkeeps : KeepsRefunds m m') : Balanced m' works accepted := by
  refine hb.effect hc h ?_ ?_
  · intro p' hp' hrefunded
    rcases hkeeps p' hp' (Or.inl hrefunded) with hold | ⟨_, _, _, _, hpaid⟩
    · exact hb.recorded p' hold hrefunded
    · rw [hrefunded] at hpaid
      cases hpaid
  · intro p hp p' hp' hid hpending hpaid
    rcases hkeeps p' hp' (Or.inr hpaid) with hold | ⟨q, hq, hqid, hlive, _⟩
    · rw [m.payments.eq_of_key_eq hold hp hid, hpending] at hpaid
      cases hpaid
    · rw [m.payments.eq_of_key_eq hq hp (hqid.trans hid), hpending] at hlive
      rcases hlive with h | h <;> cases h

/-- A step that passes the books of refunds on. -/
structure Neutral (w w' : World) : Prop where
  keeps : KeepsRefunds w.market w'.market
  works : worksOf w' = worksOf w
  accepted : w'.providerRefunds = w.providerRefunds

theorem Neutral.refl (w : World) : Neutral w w := ⟨keepsRefunds_of_same rfl, rfl, rfl⟩

theorem Neutral.balanced (hw : WorldSound w) (h : Neutral w w') {c : Cause} (hs : Steps w w' c)
    (hb : Balanced w.market (worksOf w) w.providerRefunds) :
    Balanced w'.market (worksOf w') w'.providerRefunds := by
  rw [h.works, h.accepted]
  exact balanced_of_keeps hb hw.consistent hs.effect h.keeps

theorem Neutral.spawn (h : Neutral w w₁) {task : Task} (htask : workOf task = []) :
    Neutral w (w₁.spawn task) := by
  refine ⟨h.keeps, ?_, h.accepted⟩
  rw [worksOf_spawn, htask]
  exact h.works

theorem Neutral.spawnSome (h : Neutral w w₁) {α : Type} {task : List α → Task}
    (htask : ∀ items, workOf (task items) = []) (items : List α) :
    Neutral w (w₁.spawnSome task items) := by
  unfold World.spawnSome
  split_ifs
  · exact h
  · exact h.spawn (htask items)

theorem neutral_commit (hkeeps : KeepsRefunds w.market m) (h : w.commit m = some w') :
    Neutral w w' := by
  obtain ⟨rfl, _⟩ := commit_eq_some h
  exact ⟨hkeeps, rfl, rfl⟩

theorem neutral_commit_same (h : w.commit m = some w') (hsame : m.payments = w.market.payments) :
    Neutral w w' :=
  neutral_commit (keepsRefunds_of_same hsame) h

theorem neutral_takeIn (w : World) (event : ProviderEvent) (swept : List (MerchantOid × ℤ)) :
    Neutral w (w.takeIn event swept) := by
  unfold World.takeIn
  split_ifs
  · exact (Neutral.refl w).spawnSome (fun _ => rfl) swept
  · exact ⟨keepsRefunds_of_same rfl, rfl, rfl⟩

theorem neutral_openCancellation {tx : OfferCancellation} (h : w.openCancellation tx = some w') :
    Neutral w w' := by
  unfold World.openCancellation at h
  split_ifs at h
  cases h
  exact ⟨keepsRefunds_of_same rfl, rfl, rfl⟩

end Neutral

section Transactions

variable {m m' : Market}

theorem keepsRefunds_createReservation {call : CreateCall} {codes : List Code}
    {committed : CommittedReservation}
    (h : createReservationWithRetry m call codes = .ok (m', committed)) : KeepsRefunds m m' := by
  induction codes with
  | nil => simp [createReservationWithRetry] at h
  | cons code codes ih =>
    unfold createReservationWithRetry at h
    cases hattempt : createReservation m call code with
    | error e =>
      cases e with
      | codeTaken => exact ih (by simpa [hattempt] using h)
      | refused e => simp [hattempt] at h
    | ok result =>
      simp only [hattempt] at h
      cases h
      unfold createReservation at hattempt
      split at hattempt
      · cases hattempt
      · split at hattempt
        · cases hattempt
        · split_ifs at hattempt
          cases hattempt
          intro p' hp' hstatus
          rcases Table.mem_insertNew.mp hp' with hp' | ⟨rfl, _⟩
          · exact Or.inl hp'
          · rcases hstatus with hs | hs <;> cases hs

theorem keepsRefunds_compensate (m : Market) (committed : CommittedReservation) :
    KeepsRefunds m (compensateFailedIntent m committed) := by
  unfold compensateFailedIntent
  split
  · exact keepsRefunds_of_same rfl
  · split
    · exact keepsRefunds_of_same rfl
    · rename_i failed hfailed
      obtain ⟨p, payments, _, hintent, hrep, rfl⟩ := Market.updatePayment_eq_some hfailed
      split
      · exact keepsRefunds_of_live hrep (Or.inl hintent) (by simp [markFailed])
      · rename_i expired hexpired
        obtain ⟨r, reservations, _, _, _, rfl⟩ := Market.updateReservation_eq_some hexpired
        exact keepsRefunds_of_live hrep (Or.inl hintent) (by simp [markFailed])

theorem keepsRefunds_expireAndRelease (m : Market) (payment : Payment) (reservation : Reservation)
    (outcome : SettleOutcome) :
    KeepsRefunds m (expireAndRelease m payment reservation outcome).1 := by
  unfold expireAndRelease
  split
  · exact keepsRefunds_of_same rfl
  · rename_i failed hfailed
    obtain ⟨p, payments, _, hlive, hrep, rfl⟩ := Market.updatePayment_eq_some hfailed
    split
    · exact keepsRefunds_of_live hrep hlive (by simp [markFailed])
    · rename_i expired hexpired
      obtain ⟨r, reservations, _, _, _, rfl⟩ := Market.updateReservation_eq_some hexpired
      exact keepsRefunds_of_live hrep hlive (by simp [markFailed])

theorem keepsRefunds_settle (m : Market) (event : ProviderEvent) (clock : Instant) :
    KeepsRefunds m (settle m event clock).1 := by
  unfold settle
  split
  · exact keepsRefunds_of_same rfl
  · split
    · split_ifs
      · unfold settleSuccess
        split
        · split_ifs <;> exact keepsRefunds_of_same rfl
        · rename_i paid hpaid
          obtain ⟨p, payments, _, hlive, hrep, rfl⟩ := Market.updatePayment_eq_some hpaid
          split
          · exact keepsRefunds_of_same rfl
          · rename_i confirmed hconfirmed
            obtain ⟨r, reservations, _, _, _, rfl⟩ := Market.updateReservation_eq_some hconfirmed
            exact keepsRefunds_of_live hrep hlive (by simp [markPaid])
      · exact keepsRefunds_expireAndRelease m _ _ _
    · exact keepsRefunds_expireAndRelease m _ _ _

theorem keepsRefunds_failLiveIntent (m : Market) (id : ReservationId) :
    KeepsRefunds m (failLiveIntent m id) := by
  unfold failLiveIntent
  cases hu : m.updatePayment id (fun p => liveIntent p.status) markFailed (fun _ => rfl) with
  | none => exact keepsRefunds_of_same rfl
  | some failed =>
    obtain ⟨p, payments, _, hlive, hrep, rfl⟩ := Market.updatePayment_eq_some hu
    exact keepsRefunds_of_live hrep hlive (by simp [markFailed])

theorem payments_redeem {redeemer : Redeemer} {read : RedeemRead} {attemptedAt : Instant}
    {redeemedAt : Option Instant} (h : redeem m redeemer read attemptedAt = .ok (m', redeemedAt)) :
    m'.payments = m.payments := by
  unfold redeem at h
  split at h
  · split at h
    · cases h
    · split_ifs at h
      cases h
      rfl
  · rename_i redeemed hredeemed
    obtain ⟨r, reservations, _, _, _, rfl⟩ := Market.updateReservation_eq_some hredeemed
    split at h
    · cases h
    · rename_i counted hcounted
      obtain ⟨o, offers, _, _, _, rfl⟩ := Market.updateOffer_eq_some hcounted
      cases h
      rfl

theorem payments_publishOffer {id : OfferId} {now : Instant} (h : publishOffer m id now = .ok m') :
    m'.payments = m.payments := by
  unfold publishOffer at h
  split at h
  · split at h
    · cases h
    · split_ifs at h
  · rename_i published hpublished
    obtain ⟨o, offers, _, _, _, rfl⟩ := Market.updateOffer_eq_some hpublished
    split at h
    · cases h
    · cases h
      rfl

theorem payments_publish {merchantId : MerchantId} {id : OfferId} {now : Instant}
    (h : OfferLifecycle.publish m merchantId id now = .ok m') : m'.payments = m.payments := by
  unfold OfferLifecycle.publish at h
  split at h
  · cases h
  · exact payments_publishOffer h

theorem payments_schedule {merchantId : MerchantId} {id : OfferId} {publishAt now : Instant}
    (h : OfferLifecycle.schedule m merchantId id publishAt now = .ok m') :
    m'.payments = m.payments := by
  unfold OfferLifecycle.schedule at h
  split at h
  · cases h
  · split_ifs at h
    split at h
    · cases h
    · rename_i scheduled hscheduled
      obtain ⟨o, offers, _, _, _, rfl⟩ := Market.updateOffer_eq_some hscheduled
      cases h
      rfl

theorem payments_close {merchantId : MerchantId} {id : OfferId}
    (h : OfferLifecycle.close m merchantId id = .ok m') : m'.payments = m.payments := by
  unfold OfferLifecycle.close at h
  split at h
  · cases h
  · split at h
    · cases h
    · rename_i closed hclosed
      obtain ⟨o, offers, _, _, _, rfl⟩ := Market.updateOffer_eq_some hclosed
      cases h
      rfl

theorem payments_createOffer {merchantId : MerchantId} {dto : CreateOfferDto} {freshId : OfferId}
    {now : Instant} (h : createOffer m merchantId dto freshId now = .ok m') :
    m'.payments = m.payments := by
  unfold createOffer at h
  split at h
  · cases h
  · split_ifs at h
    · split at h <;> cases h
    · split at h
      · cases h
      · cases h
        rfl

theorem payments_catalogueChange {event : CatalogueEvent} (h : catalogueChange m event = some m') :
    m'.payments = m.payments := by
  cases event with
  | verifyMerchant merchantId target =>
    simp only [catalogueChange] at h
    split_ifs at h
    obtain ⟨merchants, _, rfl⟩ := Option.map_eq_some_iff.mp h
    rfl
  | setStoreActive storeId active =>
    obtain ⟨stores, _, rfl⟩ := Option.map_eq_some_iff.mp h
    rfl
  | editBagTemplate bagTemplateId priceCents active =>
    obtain ⟨bagTemplates, _, rfl⟩ := Option.map_eq_some_iff.mp h
    rfl
  | _ =>
    cases h
    rfl

end Transactions

section NeutralSteps

variable {w w' : World} {input : StepInput}

theorem createIntent_neutral {committed : CommittedReservation}
    (h : createIntent w committed input = some w') : Neutral w w' := by
  unfold createIntent at h
  split_ifs at h
  · cases h
    exact .refl w
  · exact neutral_commit (keepsRefunds_compensate w.market committed) h

theorem settleEvent_neutral {event : ProviderEvent} {swept : List (MerchantOid × ℤ)}
    (h : settleEvent w event swept input = some w') : Neutral w w' := by
  obtain ⟨w₁, hcommit, rfl⟩ := Option.map_eq_some_iff.mp h
  have hkeeps := keepsRefunds_settle w.market event input.clock
  exact (neutral_commit hkeeps hcommit).spawnSome (fun _ => rfl) swept

theorem sweepOne_neutral {stale : List (MerchantOid × ℤ)} (h : sweepOne w stale input = some w') :
    Neutral w w' := by
  unfold sweepOne at h
  split at h
  · cases h
    exact .refl w
  · split at h <;> cases h
    · exact (Neutral.refl w).spawnSome (fun _ => rfl) _
    · exact neutral_takeIn w _ _
    · exact neutral_takeIn w _ _

theorem redeemWrite_neutral {redeemer : Redeemer} {read : RedeemRead}
    (h : redeemWrite w redeemer read input = some w') : Neutral w w' := by
  unfold redeemWrite at h
  split at h
  · cases h
    exact .refl w
  · rename_i m redeemedAt hredeem
    exact neutral_commit_same h (payments_redeem hredeem)

theorem sweepNoShow_neutral {uncollected : List ReservationId}
    (h : sweepNoShow w uncollected = some w') : Neutral w w' := by
  unfold sweepNoShow at h
  split at h
  · cases h
    exact .refl w
  · split at h
    · cases h
      exact (Neutral.refl w).spawnSome (fun _ => rfl) _
    · rename_i m hmark
      obtain ⟨w₁, hcommit, rfl⟩ := Option.map_eq_some_iff.mp h
      obtain ⟨r, reservations, _, _, _, rfl⟩ := Market.updateReservation_eq_some hmark
      exact (neutral_commit_same hcommit rfl).spawnSome (fun _ => rfl) _

theorem publishDue_neutral {due : List OfferId} (h : publishDue w due input = some w') :
    Neutral w w' := by
  unfold publishDue at h
  split at h
  · cases h
    exact .refl w
  · split at h
    · rename_i m hpublish
      obtain ⟨w₁, hcommit, rfl⟩ := Option.map_eq_some_iff.mp h
      have hsame := payments_publishOffer hpublish
      exact (neutral_commit_same hcommit hsame).spawnSome (fun _ => rfl) _
    · cases h
      exact (Neutral.refl w).spawn rfl
    · cases h
      exact (Neutral.refl w).spawnSome (fun _ => rfl) _

theorem terminalize_neutral {offerId : OfferId} {due : List OfferId}
    (h : terminalize w offerId due = some w') : Neutral w w' := by
  unfold terminalize at h
  split at h
  · cases h
    exact (Neutral.refl w).spawnSome (fun _ => rfl) due
  · rename_i m hterminal
    obtain ⟨w₁, hcommit, rfl⟩ := Option.map_eq_some_iff.mp h
    obtain ⟨o, offers, _, _, _, rfl⟩ := Market.updateOffer_eq_some hterminal
    exact (neutral_commit_same hcommit rfl).spawnSome (fun _ => rfl) due

theorem cancelNext_neutral {offerIds : List OfferId} (h : cancelNext w offerIds = some w') :
    Neutral w w' := by
  unfold cancelNext at h
  split at h
  · cases h
    exact .refl w
  · split at h
    · cases h
      exact (Neutral.refl w).spawnSome (fun _ => rfl) _
    · exact neutral_openCancellation h

theorem createEntry_neutral {call : CreateCall} {codes : List Code}
    (h : createEntry w call codes = some w') : Neutral w w' := by
  unfold createEntry at h
  split_ifs at h
  split at h
  · cases h
  · rename_i m committed hcreate
    obtain ⟨w₁, hcommit, rfl⟩ := Option.map_eq_some_iff.mp h
    exact (neutral_commit (keepsRefunds_createReservation hcreate) hcommit).spawn rfl

theorem redeemEntry_neutral {redeemer : Redeemer} {id : ReservationId} {now : Instant}
    (h : redeemEntry w redeemer id now = some w') : Neutral w w' := by
  unfold redeemEntry at h
  split at h
  · cases h
  · cases h
    exact .refl w
  · cases h
    exact (Neutral.refl w).spawn rfl

theorem offerEntry_neutral {outcome : Except OfferError Market}
    (hsame : ∀ m, outcome = .ok m → m.payments = w.market.payments)
    (h : offerEntry w outcome = some w') : Neutral w w' := by
  unfold offerEntry at h
  split at h
  · cases h
  · exact neutral_commit_same h (hsame _ rfl)

theorem createOfferEntry_neutral {merchantId : MerchantId} {dto : CreateOfferDto}
    {freshId : OfferId} {now : Instant}
    (h : createOfferEntry w merchantId dto freshId now = some w') : Neutral w w' := by
  unfold createOfferEntry at h
  split_ifs at h
  split at h
  · cases h
  · rename_i m hcreate
    exact neutral_commit_same h (payments_createOffer hcreate)

theorem cancelOfferEntry_neutral {merchantId : MerchantId} {offerId : OfferId}
    (h : cancelOfferEntry w merchantId offerId = some w') : Neutral w w' := by
  unfold cancelOfferEntry at h
  split at h
  · cases h
  · split at h
    · cases h
    · exact neutral_openCancellation h

theorem adminCancelEntry_neutral {adminId : AdminId} {offerId : OfferId}
    (h : adminCancelEntry w adminId offerId = some w') : Neutral w w' := by
  unfold adminCancelEntry at h
  split at h
  · cases h
  · exact neutral_openCancellation h

theorem adminSuspendEntry_neutral {merchantId : MerchantId}
    (h : adminSuspendEntry w merchantId = some w') : Neutral w w' := by
  unfold adminSuspendEntry at h
  split at h
  · cases h
  · rename_i m hverify
    obtain ⟨w₁, hcommit, rfl⟩ := Option.map_eq_some_iff.mp h
    obtain ⟨merchants, _, rfl⟩ := Option.map_eq_some_iff.mp hverify
    exact (neutral_commit_same hcommit rfl).spawn rfl

theorem catalogueEntry_neutral {event : CatalogueEvent} (h : catalogueEntry w event = some w') :
    Neutral w w' := by
  unfold catalogueEntry at h
  split at h
  · cases h
  · rename_i m hchange
    exact neutral_commit_same h (payments_catalogueChange hchange)

end NeutralSteps

end Kurtar.RefundFrame

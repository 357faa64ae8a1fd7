import Kurtar.MarketProcedures

/-!
# The invariant of every run

A step of the reservation side commits at most one transaction, whose effect
is known from `MarketEffects`, and leaves tasks and open cancellations that
agree with the rows. One induction over runs follows.
-/

namespace Kurtar.MarketInvariant

open KeyedTable GuardedRuns StatusTransitions IstanbulCalendar Marketplace ReservationTransactions
open OfferLifecycle MarketService MarketEffects MarketConsistency MarketProcedures

/-- Rows, tasks and open cancellations agree with one another. -/
structure WorldSound (w : World) : Prop where
  consistent : Consistent w.market
  tasks : ∀ task ∈ w.tasks, TaskSound w.market task
  cancellations : ∀ tx ∈ w.openCancellations, CancellationSound w.market tx

/-- What an action brings about. -/
def causeOf (w : World) : Action → Cause
  | .create call _ => .created call.offerId call.now
  | .resume index _ =>
    match w.tasks[index]? with
    | some (.terminalize offerId _) => .terminalized offerId
    | _ => .other
  | .advanceCancellation index =>
    match w.openCancellations[index]? with
    | some tx => .cancelled tx
    | none => .other
  | _ => .other

/-- Only an open cancellation is committed. -/
theorem mem_of_causeOf {w : World} {a : Action} {tx : OfferCancellation}
    (h : causeOf w a = .cancelled tx) :
    ∃ index, a = .advanceCancellation index ∧ w.openCancellations[index]? = some tx := by
  cases a with
  | resume index input =>
    simp only [causeOf] at h
    split at h <;> cases h
  | advanceCancellation index =>
    simp only [causeOf] at h
    split at h
    · rename_i hget
      cases h
      exact ⟨index, rfl, hget⟩
    · cases h
  | _ => cases h

/-- Where an open cancellation comes from: it was open before and its locked rows
stayed, it has just begun, or it has run its next statement. -/
def Continues (w : World) (c : Cause) (m' : Market) (tx : OfferCancellation) : Prop :=
  tx ∈ w.openCancellations ∧ ¬ tx.changesLocked w.market m' ∨ tx.phase = .readCandidates ∨
    ∃ before, c = .cancelled before ∧ before.advance w.market = some tx ∧ m' = w.market

/-- A sound result whose rows come from one effect. -/
structure Steps (w w' : World) (c : Cause) : Prop where
  sound : WorldSound w'
  effect : Effect w.market c w'.market
  continues : ∀ tx ∈ w'.openCancellations, Continues w c w'.market tx

section Building

variable {c : Cause} {w w₁ w' : World} {m : Market}

theorem sound_spawn (hw : WorldSound w) {task : Task} (ht : TaskSound w.market task) :
    WorldSound (w.spawn task) where
  consistent := hw.consistent
  tasks := by
    intro t hmem
    rcases List.mem_cons.mp hmem with rfl | hmem
    · exact ht
    · exact hw.tasks t hmem
  cancellations := hw.cancellations

theorem sound_spawnSome (hw : WorldSound w) {α : Type} {task : List α → Task} {items : List α}
    (ht : TaskSound w.market (task items)) : WorldSound (w.spawnSome task items) := by
  unfold World.spawnSome
  split_ifs
  · exact hw
  · exact sound_spawn hw ht

@[simp] theorem spawnSome_market {α : Type} (w : World) (task : List α → Task) (items : List α) :
    (w.spawnSome task items).market = w.market := by
  unfold World.spawnSome
  split_ifs <;> rfl

@[simp] theorem spawnSome_openCancellations {α : Type} (w : World) (task : List α → Task)
    (items : List α) : (w.spawnSome task items).openCancellations = w.openCancellations := by
  unfold World.spawnSome
  split_ifs <;> rfl

theorem sound_continueRefunds (hw : WorldSound w) {rest : List RefundCall} {next : List OfferId}
    (hr : ∀ due ∈ rest, RefundSound w.market due) : WorldSound (w.continueRefunds rest next) := by
  unfold World.continueRefunds
  split
  · exact sound_spawn hw hr
  · exact sound_spawnSome hw trivial

@[simp] theorem continueRefunds_market (w : World) (rest : List RefundCall) (next : List OfferId) :
    (w.continueRefunds rest next).market = w.market := by
  unfold World.continueRefunds
  split
  · rfl
  · exact spawnSome_market w .cancelNext next

@[simp] theorem continueRefunds_openCancellations (w : World) (rest : List RefundCall)
    (next : List OfferId) : (w.continueRefunds rest next).openCancellations = w.openCancellations := by
  unfold World.continueRefunds
  split
  · rfl
  · exact spawnSome_openCancellations w .cancelNext next

theorem not_changesLocked {m m' : Market} {tx : OfferCancellation} (hoffers : m'.offers = m.offers)
    (hreservations : m'.reservations = m.reservations) (hpayments : m'.payments = m.payments) :
    ¬ tx.changesLocked m m' := by
  simp [OfferCancellation.changesLocked, hoffers, hreservations, hpayments]

/-- Rows other than offers, reservations and payments do not matter. -/
theorem sound_of_same (hw : WorldSound w) (hoffers : m.offers = w.market.offers)
    (hreservations : m.reservations = w.market.reservations)
    (hpayments : m.payments = w.market.payments) : WorldSound { w with market := m } := by
  have heffect : Effect w.market .other m := .idle hoffers hreservations hpayments
  refine ⟨effect_consistent hw.consistent heffect, ?_, ?_⟩
  · intro task hmem
    exact taskSound_kept heffect (hw.tasks task hmem)
  · intro tx hmem
    exact cancellationSound_kept heffect (not_changesLocked hoffers hreservations hpayments)
      (hw.cancellations tx hmem)

theorem commit_eq_some (h : w.commit m = some w') :
    w' = { w with market := m } ∧
      ∀ tx ∈ w.openCancellations, ¬ tx.changesLocked w.market m := by
  unfold World.commit at h
  split_ifs at h with hlocked
  cases h
  push Not at hlocked
  exact ⟨rfl, hlocked⟩

/-- Committing the rows of an effect. -/
theorem steps_commit (hw : WorldSound w) (heffect : Effect w.market c m)
    (h : w.commit m = some w') : Steps w w' c ∧ w'.market = m := by
  obtain ⟨rfl, hlocked⟩ := commit_eq_some h
  refine ⟨⟨⟨effect_consistent hw.consistent heffect, ?_, ?_⟩, heffect, ?_⟩, rfl⟩
  · intro task hmem
    exact taskSound_kept heffect (hw.tasks task hmem)
  · intro tx hmem
    exact cancellationSound_kept heffect (hlocked tx hmem) (hw.cancellations tx hmem)
  · intro tx hmem
    exact Or.inl ⟨hmem, hlocked tx hmem⟩

/-- A result that leaves the three tables alone and opens no cancellation. -/
theorem steps_same (h : WorldSound w') (hoffers : w'.market.offers = w.market.offers)
    (hreservations : w'.market.reservations = w.market.reservations)
    (hpayments : w'.market.payments = w.market.payments)
    (hopen : ∀ tx ∈ w'.openCancellations, tx ∈ w.openCancellations) : Steps w w' c where
  sound := h
  effect := .idle hoffers hreservations hpayments
  continues := fun tx hmem =>
    Or.inl ⟨hopen tx hmem, not_changesLocked hoffers hreservations hpayments⟩

theorem steps_idle (h : WorldSound w') (hm : w'.market = w.market)
    (hopen : w'.openCancellations = w.openCancellations) : Steps w w' c :=
  steps_same h (by rw [hm]) (by rw [hm]) (by rw [hm]) fun _ hmem => by rwa [← hopen]

/-- A step of a world with fewer tasks or open cancellations and the same rows. -/
theorem Steps.of_part {w₀ : World} (h : Steps w₀ w' c) (hm : w₀.market = w.market)
    (hopen : ∀ tx ∈ w₀.openCancellations, tx ∈ w.openCancellations) : Steps w w' c := by
  refine ⟨h.sound, by rw [← hm]; exact h.effect, ?_⟩
  intro tx hmem
  have hcontinues := h.continues tx hmem
  unfold Continues at hcontinues ⊢
  rw [hm] at hcontinues
  exact hcontinues.imp_left fun hold => ⟨hopen tx hold.1, hold.2⟩

theorem Steps.spawn (h : Steps w w₁ c) {task : Task} (ht : TaskSound w₁.market task) :
    Steps w (w₁.spawn task) c :=
  ⟨sound_spawn h.sound ht, h.effect, h.continues⟩

theorem Steps.spawnSome (h : Steps w w₁ c) {α : Type} {task : List α → Task} {items : List α}
    (ht : TaskSound w₁.market (task items)) : Steps w (w₁.spawnSome task items) c := by
  refine ⟨sound_spawnSome h.sound ht, ?_, ?_⟩
  · rw [spawnSome_market]
    exact h.effect
  · rw [spawnSome_market, spawnSome_openCancellations]
    exact h.continues

theorem Steps.continueRefunds (h : Steps w w₁ c) {rest : List RefundCall} {next : List OfferId}
    (hr : ∀ due ∈ rest, RefundSound w₁.market due) : Steps w (w₁.continueRefunds rest next) c := by
  refine ⟨sound_continueRefunds h.sound hr, ?_, ?_⟩
  · rw [continueRefunds_market]
    exact h.effect
  · rw [continueRefunds_market, continueRefunds_openCancellations]
    exact h.continues

theorem steps_takeIn (hw : WorldSound w) (event : ProviderEvent) (swept : List (MerchantOid × ℤ)) :
    Steps w (w.takeIn event swept) c := by
  unfold World.takeIn
  split_ifs
  · exact (steps_idle hw rfl rfl).spawnSome trivial
  · have hlogged := sound_of_same (m := { w.market with
      webhookEvents := event.externalEventId :: w.market.webhookEvents }) hw rfl rfl rfl
    exact steps_same (sound_spawn hlogged trivial) rfl rfl rfl fun _ hmem => hmem

theorem steps_openCancellation (hw : WorldSound w) {tx : OfferCancellation}
    {offerId : OfferId} {reason : OfferCancelReason} {auditActorId : Option AdminId}
    {next : List OfferId}
    (ht : beginCancellation w.market offerId reason auditActorId next = .ok tx)
    (h : w.openCancellation tx = some w') : Steps w w' c := by
  unfold World.openCancellation at h
  split_ifs at h
  cases h
  refine ⟨⟨hw.consistent, hw.tasks, ?_⟩, .idle rfl rfl rfl, ?_⟩
  · intro other hmem
    rcases List.mem_cons.mp hmem with rfl | hmem
    · exact cancellationSound_begin ht
    · exact hw.cancellations other hmem
  · intro other hmem
    rcases List.mem_cons.mp hmem with rfl | hmem
    · exact Or.inr (Or.inl (beginCancellation_phase ht))
    · exact Or.inl ⟨hmem, not_changesLocked rfl rfl rfl⟩

end Building

section Tasks

variable {c : Cause} {w w' : World} {input : StepInput}

theorem createIntent_steps (hw : WorldSound w) {committed : CommittedReservation}
    (ht : CommittedSound w.market committed) (h : createIntent w committed input = some w') :
    Steps w w' c := by
  unfold createIntent at h
  split_ifs at h
  · cases h
    exact steps_idle hw rfl rfl
  · exact (steps_commit hw (compensateFailedIntent_effect hw.consistent ht) h).1

theorem settleEvent_steps (hw : WorldSound w) {event : ProviderEvent}
    {swept : List (MerchantOid × ℤ)} (h : settleEvent w event swept input = some w') :
    Steps w w' c := by
  obtain ⟨w₁, hcommit, rfl⟩ := Option.map_eq_some_iff.mp h
  exact (steps_commit hw (settle_effect hw.consistent event input.clock).1 hcommit).1.spawnSome
    trivial

theorem sweepOne_steps (hw : WorldSound w) {stale : List (MerchantOid × ℤ)}
    (h : sweepOne w stale input = some w') : Steps w w' c := by
  unfold sweepOne at h
  split at h
  · cases h
    exact steps_idle hw rfl rfl
  · split at h <;> cases h
    · exact (steps_idle hw rfl rfl).spawnSome trivial
    · exact steps_takeIn hw _ _
    · exact steps_takeIn hw _ _

theorem redeemWrite_steps (hw : WorldSound w) {redeemer : Redeemer} {read : RedeemRead}
    (ht : ReadSound w.market read) (h : redeemWrite w redeemer read input = some w') :
    Steps w w' c := by
  unfold redeemWrite at h
  split at h
  · cases h
    exact steps_idle hw rfl rfl
  · rename_i m redeemedAt hredeem
    exact (steps_commit hw (redeem_effect hw.consistent ht hredeem) h).1

theorem sweepNoShow_steps (hw : WorldSound w) {uncollected : List ReservationId}
    (h : sweepNoShow w uncollected = some w') : Steps w w' c := by
  unfold sweepNoShow at h
  split at h
  · cases h
    exact steps_idle hw rfl rfl
  · split at h
    · cases h
      exact (steps_idle hw rfl rfl).spawnSome trivial
    · rename_i m hmark
      obtain ⟨w₁, hcommit, rfl⟩ := Option.map_eq_some_iff.mp h
      exact (steps_commit hw (markNoShow_effect hw.consistent hmark) hcommit).1.spawnSome trivial

theorem publishDue_steps (hw : WorldSound w) {due : List OfferId}
    (h : publishDue w due input = some w') : Steps w w' c := by
  unfold publishDue at h
  split at h
  · cases h
    exact steps_idle hw rfl rfl
  · split at h
    · rename_i m hpublish
      obtain ⟨w₁, hcommit, rfl⟩ := Option.map_eq_some_iff.mp h
      exact (steps_commit hw (publishOffer_effect hpublish) hcommit).1.spawnSome trivial
    · cases h
      exact (steps_idle hw rfl rfl).spawn trivial
    · cases h
      exact (steps_idle hw rfl rfl).spawnSome trivial

theorem terminalize_steps (hw : WorldSound w) {offerId : OfferId} {due : List OfferId}
    (h : terminalize w offerId due = some w') : Steps w w' (.terminalized offerId) := by
  unfold terminalize at h
  split at h
  · cases h
    exact (steps_idle hw rfl rfl).spawnSome trivial
  · rename_i m hterm
    obtain ⟨w₁, hcommit, rfl⟩ := Option.map_eq_some_iff.mp h
    exact (steps_commit hw (terminalize_effect hterm) hcommit).1.spawnSome trivial

theorem cancelNext_steps (hw : WorldSound w) {offerIds : List OfferId}
    (h : cancelNext w offerIds = some w') : Steps w w' c := by
  unfold cancelNext at h
  split at h
  · cases h
    exact steps_idle hw rfl rfl
  · split at h
    · cases h
      exact (steps_idle hw rfl rfl).spawnSome trivial
    · rename_i tx hbegin
      exact steps_openCancellation hw hbegin h

theorem refundRefused_steps (hw : WorldSound w) {call : RefundCall} {rest : List RefundCall}
    {next : List OfferId} (ht : ∀ due ∈ call :: rest, RefundSound w.market due) :
    Steps w (refundRefused w call rest next input) c := by
  have hstored : Steps w (if input.databaseFails then w
      else { w with market := storeRefund w.market (refundRow call none .failed) }) c ∧
      ∀ due ∈ rest, RefundSound (if input.databaseFails then w
        else { w with market := storeRefund w.market (refundRow call none .failed) }).market
          due := by
    have hrest : ∀ due ∈ rest, RefundSound w.market due :=
      fun due hdue => ht due (List.mem_cons_of_mem _ hdue)
    split_ifs
    · exact ⟨steps_idle hw rfl rfl, hrest⟩
    · exact ⟨steps_same (sound_of_same hw rfl rfl rfl) rfl rfl rfl fun _ hmem => hmem, hrest⟩
  by_cases hpending : call.fromStatus = .refundPending
  · simp only [refundRefused, if_pos hpending]
    exact hstored.1.spawn trivial
  · simp only [refundRefused, if_neg hpending]
    exact hstored.1.continueRefunds hstored.2

theorem refund_steps (hw : WorldSound w) {call : RefundCall} {rest : List RefundCall}
    {next : List OfferId} (ht : ∀ due ∈ call :: rest, RefundSound w.market due)
    (h : refund w call rest next input = some w') : Steps w w' c := by
  have haccepted : WorldSound { w with
      providerRefunds := (call.merchantOid, call.amountCents) :: w.providerRefunds } :=
    ⟨hw.consistent, hw.tasks, hw.cancellations⟩
  unfold refund at h
  split at h <;> cases h
  · have hstep : Steps w { w with
        providerRefunds := (call.merchantOid, call.amountCents) :: w.providerRefunds } c :=
      (steps_idle haccepted rfl rfl).of_part rfl fun _ hmem => hmem
    apply hstep.spawn
    exact ht
  · exact (refundRefused_steps haccepted ht).of_part rfl fun _ hmem => hmem
  · exact refundRefused_steps hw ht

theorem recordRefund_steps (hw : WorldSound w) {call : RefundCall} {refundRef : String}
    {rest : List RefundCall} {next : List OfferId}
    (ht : ∀ due ∈ call :: rest, RefundSound w.market due)
    (h : recordRefund w call refundRef rest next input = some w') : Steps w w' c := by
  unfold MarketService.recordRefund at h
  split_ifs at h
  · cases h
    exact (steps_idle hw rfl rfl).spawn ht
  · obtain ⟨w₁, hcommit, rfl⟩ := Option.map_eq_some_iff.mp h
    have heffect := moveRefunded_effect (c := c) (ht call List.mem_cons_self)
      (refundRow call (some refundRef) .done :: w.market.refunds)
    obtain ⟨hsteps, hm⟩ := steps_commit hw heffect hcommit
    refine hsteps.continueRefunds fun due hdue => ?_
    exact refundSound_kept hsteps.effect (ht due (List.mem_cons_of_mem _ hdue))

theorem recordSent_steps (hw : WorldSound w) {call : RefundCall} {refundRef : String}
    {rest : List RefundCall} {next : List OfferId}
    (ht : ∀ due ∈ call :: rest, RefundSound w.market due)
    (h : recordSent w call refundRef rest next input = some w') : Steps w w' c := by
  cases h
  split_ifs
  · exact (steps_idle hw rfl rfl).spawn ht
  · have hstored := sound_of_same hw (m := storeRefund w.market
      (refundRow call (some refundRef) .sent)) rfl rfl rfl
    have hstep : Steps w { w with
        market := storeRefund w.market (refundRow call (some refundRef) .sent) } c :=
      steps_same hstored rfl rfl rfl fun _ hmem => hmem
    apply hstep.spawn
    exact ht

theorem moveRefunded_steps (hw : WorldSound w) {call : RefundCall} {rest : List RefundCall}
    {next : List OfferId} (ht : ∀ due ∈ call :: rest, RefundSound w.market due)
    (h : moveRefunded w call rest next input = some w') : Steps w w' c := by
  have hrest : ∀ due ∈ rest, RefundSound w.market due :=
    fun due hdue => ht due (List.mem_cons_of_mem _ hdue)
  unfold MarketService.moveRefunded at h
  split_ifs at h
  · cases h
    exact (steps_idle hw rfl rfl).continueRefunds hrest
  · obtain ⟨w₁, hcommit, rfl⟩ := Option.map_eq_some_iff.mp h
    have heffect := moveRefunded_effect (c := c) (ht call List.mem_cons_self)
      w.market.refunds
    obtain ⟨hsteps, _⟩ := steps_commit hw heffect hcommit
    exact hsteps.continueRefunds fun due hdue => refundSound_kept hsteps.effect (hrest due hdue)

theorem releaseRefundClaim_steps (hw : WorldSound w) {id : ReservationId}
    (h : releaseRefundClaim w id input = some w') : Steps w w' c := by
  unfold MarketService.releaseRefundClaim at h
  split_ifs at h
  · cases h
    exact steps_idle hw rfl rfl
  · exact (steps_commit hw (releaseRefundClaim_effect hw.consistent id) h).1

end Tasks

section Entries

variable {c : Cause} {w w' : World}

theorem createEntry_steps (hw : WorldSound w) {call : CreateCall} {codes : List Code}
    (h : createEntry w call codes = some w') : Steps w w' (.created call.offerId call.now) := by
  unfold createEntry at h
  split_ifs at h with hqty
  split at h
  · cases h
  · rename_i m committed hcreate
    obtain ⟨w₁, hcommit, rfl⟩ := Option.map_eq_some_iff.mp h
    have hpos : 0 < call.qty := by
      have hmin := hqty.1
      omega
    obtain ⟨heffect, hsound⟩ := createReservationWithRetry_effect hpos hcreate
    obtain ⟨hsteps, hm⟩ := steps_commit hw heffect hcommit
    apply hsteps.spawn
    rw [hm]
    exact hsound

theorem cancelEntry_steps (hw : WorldSound w) {userId : UserId} {id : ReservationId}
    {now : Instant} (h : cancelEntry w userId id now = some w') : Steps w w' c := by
  unfold cancelEntry at h
  split at h
  · cases h
  · rename_i m hcancel
    exact (steps_commit hw (cancel_effect hw.consistent hcancel).1 h).1
  · rename_i m call hcancel
    obtain ⟨w₁, hcommit, rfl⟩ := Option.map_eq_some_iff.mp h
    obtain ⟨heffect, hsound⟩ := cancel_effect (c := c) hw.consistent hcancel
    obtain ⟨hsteps, hm⟩ := steps_commit hw heffect hcommit
    apply hsteps.spawn
    intro due hdue
    rw [List.mem_singleton.mp hdue, hm]
    exact hsound call rfl

theorem redeemEntry_steps (hw : WorldSound w) {redeemer : Redeemer} {id : ReservationId}
    {now : Instant} (h : redeemEntry w redeemer id now = some w') : Steps w w' c := by
  unfold redeemEntry at h
  split at h
  · cases h
  · cases h
    exact steps_idle hw rfl rfl
  · rename_i read hcheck
    cases h
    apply (steps_idle hw rfl rfl).spawn
    unfold checkRedeem at hcheck
    cases hf : w.market.reservations.find? id with
    | none => simp [hf] at hcheck
    | some reservation =>
      cases ho : offerWithTemplate w.market reservation.offerId with
      | none => simp [hf, ho] at hcheck
      | some joined =>
        obtain ⟨offer, bagTemplate⟩ := joined
        simp only [hf, ho] at hcheck
        split_ifs at hcheck
        · cases hcheck
        · cases hcheck
          exact ⟨reservation, (Table.find?_eq_some.mp hf).1, rfl, rfl, rfl⟩

theorem refundRedeemedEntry_steps (hw : WorldSound w) {id : ReservationId}
    (h : refundRedeemedEntry w id = some w') : Steps w w' c := by
  unfold refundRedeemedEntry at h
  split at h
  · cases h
  · rename_i m call hclaim
    obtain ⟨w₁, hcommit, rfl⟩ := Option.map_eq_some_iff.mp h
    obtain ⟨heffect, hsound⟩ := claimRefund_effect (c := c) hclaim
    obtain ⟨hsteps, hm⟩ := steps_commit hw heffect hcommit
    apply hsteps.spawn
    intro due hdue
    rw [List.mem_singleton.mp hdue, hm]
    exact hsound

theorem createOfferEntry_steps (hw : WorldSound w) {merchantId : MerchantId} {dto : CreateOfferDto}
    {freshId : OfferId} {now : Instant}
    (h : createOfferEntry w merchantId dto freshId now = some w') : Steps w w' c := by
  unfold createOfferEntry at h
  split_ifs at h with hqty
  split at h
  · cases h
  · rename_i m hcreate
    have hpos : 0 < dto.qtyTotal := by
      have hmin := hqty.1
      omega
    exact (steps_commit hw (createOffer_effect hpos hcreate) h).1

theorem offerEntry_steps (hw : WorldSound w) {outcome : Except OfferError Market}
    (heffect : ∀ m, outcome = .ok m → Effect w.market c m) (h : offerEntry w outcome = some w') :
    Steps w w' c := by
  unfold offerEntry at h
  split at h
  · cases h
  · exact (steps_commit hw (heffect _ rfl) h).1

theorem cancelOfferEntry_steps (hw : WorldSound w) {merchantId : MerchantId} {offerId : OfferId}
    (h : cancelOfferEntry w merchantId offerId = some w') : Steps w w' c := by
  unfold cancelOfferEntry at h
  split at h
  · cases h
  · split at h
    · cases h
    · rename_i tx hbegin
      exact steps_openCancellation hw hbegin h

theorem adminCancelEntry_steps (hw : WorldSound w) {adminId : AdminId} {offerId : OfferId}
    (h : adminCancelEntry w adminId offerId = some w') : Steps w w' c := by
  unfold adminCancelEntry at h
  split at h
  · cases h
  · rename_i tx hbegin
    exact steps_openCancellation hw hbegin h

theorem adminSuspendEntry_steps (hw : WorldSound w) {merchantId : MerchantId}
    (h : adminSuspendEntry w merchantId = some w') : Steps w w' c := by
  unfold adminSuspendEntry at h
  split at h
  · cases h
  · rename_i m hverify
    obtain ⟨w₁, hcommit, rfl⟩ := Option.map_eq_some_iff.mp h
    exact (steps_commit hw (verifyMerchant_effect hverify) hcommit).1.spawn trivial

theorem catalogueEntry_steps (hw : WorldSound w) {event : CatalogueEvent}
    (h : catalogueEntry w event = some w') : Steps w w' c := by
  unfold catalogueEntry at h
  split at h
  · cases h
  · rename_i m hchange
    exact (steps_commit hw (catalogueChange_effect hchange) h).1

end Entries

section Cancellations

variable {c : Cause} {w w' : World} {tx : OfferCancellation} {index : ℕ}

theorem sound_closed (hw : WorldSound w) (index : ℕ) :
    WorldSound { w with openCancellations := w.openCancellations.eraseIdx index } where
  consistent := hw.consistent
  tasks := hw.tasks
  cancellations := fun tx hmem => hw.cancellations tx (List.mem_of_mem_eraseIdx hmem)

theorem advance_eq_none {m : Market} (h : tx.advance m = none) : tx.phase = .failIntent [] := by
  unfold OfferCancellation.advance at h
  split at h
  · cases h
  · assumption
  · cases h
  · cases h
  · cases h

/-- The refunds that follow a committed cancellation are of reservations it ended. -/
theorem refundMany_sound (hs : CancellationSound w.market tx) (reason : OfferCancelReason) :
    ∀ due ∈ refundMany tx.toRefund reason, RefundSound (tx.commit w.market) due := by
  intro due hdue
  obtain ⟨item, hitem, rfl⟩ := List.mem_map.mp hdue
  obtain ⟨r, hr, hid⟩ := hs.refund_rows item hitem
  obtain ⟨hmem, _, hstatus⟩ := hs.cancelled_rows r hr
  refine ⟨Or.inl rfl, _, mem_commit_reservations.mpr ⟨r, hmem, rfl⟩, ?_, ?_⟩
  · rw [(afterReservation_keeps tx r).1]
    exact hid
  · rcases afterReservation_cases hs hmem with ⟨h, _⟩ | ⟨_, he⟩ | ⟨h, _⟩
    · rw [(hs.expired_rows r h).2.2.1] at hstatus
      cases hstatus
    · rw [he]
      exact (by decide : ¬ liveReservation .cancelledByMerchant)
    · exact absurd (List.mem_append_right _ hr) h

/-- An open cancellation runs its next statement, or commits. -/
theorem advanceCancellation_cases (h : advanceCancellation w index = some w') :
    ∃ tx, w.openCancellations[index]? = some tx ∧
      ((∃ tx', tx.advance w.market = some tx' ∧
        w' = { w with openCancellations := tx' :: w.openCancellations.eraseIdx index }) ∨
      tx.advance w.market = none ∧ ∃ w₁,
        World.commit { w with openCancellations := w.openCancellations.eraseIdx index }
          (tx.commit w.market) = some w₁ ∧
        w' = w₁.continueRefunds (refundMany tx.toRefund tx.reason) tx.next) := by
  unfold advanceCancellation at h
  split at h
  · cases h
  · rename_i tx hget
    refine ⟨tx, hget, ?_⟩
    split at h
    · rename_i tx' hadvance
      cases h
      exact Or.inl ⟨tx', hadvance, rfl⟩
    · rename_i hadvance
      obtain ⟨w₁, hcommit, rfl⟩ := Option.map_eq_some_iff.mp h
      exact Or.inr ⟨hadvance, w₁, hcommit, rfl⟩

theorem advanceCancellation_steps (hw : WorldSound w)
    (h : advanceCancellation w index = some w') :
    Steps w w' (causeOf w (.advanceCancellation index)) := by
  obtain ⟨tx, hget, hcases⟩ := advanceCancellation_cases h
  have hs := hw.cancellations tx (List.mem_of_getElem? hget)
  have hclosed := sound_closed hw index
  rcases hcases with ⟨tx', hadvance, rfl⟩ | ⟨hadvance, w₁, hcommit, rfl⟩
  · refine ⟨⟨hw.consistent, hw.tasks, ?_⟩, .idle rfl rfl rfl, ?_⟩
    · intro other hmem
      rcases List.mem_cons.mp hmem with rfl | hmem
      · exact cancellationSound_advance hw.consistent hs hadvance
      · exact hclosed.cancellations other hmem
    · intro other hmem
      rcases List.mem_cons.mp hmem with rfl | hmem
      · refine Or.inr (Or.inr ⟨tx, ?_, hadvance, rfl⟩)
        simp only [causeOf, hget]
      · exact Or.inl ⟨List.mem_of_mem_eraseIdx hmem, not_changesLocked rfl rfl rfl⟩
  · simp only [causeOf, hget]
    have heffect : Effect w.market (.cancelled tx) (tx.commit w.market) :=
      .cancelled hs (advance_eq_none hadvance)
    obtain ⟨hsteps, hm⟩ := steps_commit hclosed heffect hcommit
    have hstep : Steps w w₁ (.cancelled tx) :=
      hsteps.of_part rfl fun _ hmem => List.mem_of_mem_eraseIdx hmem
    apply hstep.continueRefunds
    rw [hm]
    exact refundMany_sound hs tx.reason

theorem rollbackCancellation_steps (hw : WorldSound w)
    (h : rollbackCancellation w index = some w') : Steps w w' c := by
  unfold rollbackCancellation at h
  split at h
  · cases h
  · cases h
    have hstep : Steps w { w with openCancellations := w.openCancellations.eraseIdx index } c :=
      steps_same (sound_closed hw index) rfl rfl rfl fun _ hmem => List.mem_of_mem_eraseIdx hmem
    exact hstep.spawnSome trivial

end Cancellations

/-- What one step does: its effect on the rows, and sound procedures afterwards. -/
theorem step_steps {w w' : World} {a : Action} (hw : WorldSound w) (h : step w a = some w') :
    Steps w w' (causeOf w a) := by
  cases a with
  | create call codes => exact createEntry_steps hw h
  | webhook event =>
    cases h
    exact steps_takeIn hw event []
  | sweepStaleIntents now =>
    cases h
    exact (steps_idle hw rfl rfl).spawnSome trivial
  | cancel userId id now => exact cancelEntry_steps hw h
  | redeem redeemer id now => exact redeemEntry_steps hw h
  | sweepNoShows now =>
    cases h
    exact (steps_idle hw rfl rfl).spawnSome trivial
  | refundRedeemed id => exact refundRedeemedEntry_steps hw h
  | createOffer merchantId dto freshId now => exact createOfferEntry_steps hw h
  | publish merchantId offerId now =>
    exact offerEntry_steps hw (fun _ hm => publish_effect hm) h
  | schedule merchantId offerId publishAt now =>
    exact offerEntry_steps hw (fun _ hm => schedule_effect hm) h
  | close merchantId offerId => exact offerEntry_steps hw (fun _ hm => close_effect hm) h
  | publishDueScheduled now =>
    cases h
    exact (steps_idle hw rfl rfl).spawnSome trivial
  | cancelOffer merchantId offerId => exact cancelOfferEntry_steps hw h
  | adminCancel adminId offerId => exact adminCancelEntry_steps hw h
  | adminSuspend merchantId => exact adminSuspendEntry_steps hw h
  | catalogue event => exact catalogueEntry_steps hw h
  | advanceCancellation index => exact advanceCancellation_steps hw h
  | rollbackCancellation index => exact rollbackCancellation_steps hw h
  | resume index input =>
    simp only [step] at h
    cases ht : w.tasks[index]? with
    | none => simp [ht] at h
    | some task =>
      simp only [ht] at h
      have htask := hw.tasks task (List.mem_of_getElem? ht)
      have hrest : WorldSound { w with tasks := w.tasks.eraseIdx index } :=
        ⟨hw.consistent, fun t hmem => hw.tasks t (List.mem_of_mem_eraseIdx hmem),
          hw.cancellations⟩
      suffices hsteps : Steps { w with tasks := w.tasks.eraseIdx index } w'
          (causeOf w (.resume index input)) from hsteps.of_part rfl fun _ hmem => hmem
      simp only [causeOf, ht]
      cases task with
      | createIntent committed => exact createIntent_steps hrest htask h
      | settleEvent event swept => exact settleEvent_steps hrest h
      | sweepOne stale => exact sweepOne_steps hrest h
      | redeemWrite redeemer read => exact redeemWrite_steps hrest htask h
      | sweepNoShow uncollected => exact sweepNoShow_steps hrest h
      | publishDue due => exact publishDue_steps hrest h
      | terminalize offerId due => exact terminalize_steps hrest h
      | killSwitch merchantId =>
        cases h
        exact (steps_idle hrest rfl rfl).spawnSome trivial
      | cancelNext offerIds => exact cancelNext_steps hrest h
      | refund call rest next => exact refund_steps hrest htask h
      | recordRefund call refundRef rest next => exact recordRefund_steps hrest htask h
      | recordSent call refundRef rest next => exact recordSent_steps hrest htask h
      | moveRefunded call rest next => exact moveRefunded_steps hrest htask h
      | releaseRefundClaim id => exact releaseRefundClaim_steps hrest h

theorem sound_initial {w : World} (h : Initial w) : WorldSound w := by
  refine ⟨⟨?_, ?_, ?_, ?_, ?_, ?_⟩, ?_, ?_⟩
  · simp [h.reservations]
  · simp [h.payments]
  · simp [h.payments]
  · simp [h.reservations]
  · simp [h.reservations]
  · simp [h.offers]
  · simp [h.tasks]
  · simp [h.openCancellations]

/-- The invariant holds in every reachable state. -/
theorem sound_of_reachable {ok : World → Action → Prop} {w : World}
    (h : MarketReachable ok w) : WorldSound w :=
  h.invariant (fun _ hi => sound_initial hi) fun _ _ _ hs _ ht => (step_steps hs ht).sound

end Kurtar.MarketInvariant

import Kurtar.OfferLifecycle

/-!
# The reservation side as interleaved procedures

Endpoints, webhooks and sweeps run as procedures of several statements and
transactions that others may come between. A task holds the rest of a
procedure; a crash is a task that is never resumed. An offer cancellation
keeps its transaction open over several statements: what would change a row
it has locked waits until it commits or rolls back.
-/

namespace Kurtar.MarketService

open KeyedTable GuardedRuns StatusTransitions IstanbulCalendar Marketplace ReservationTransactions
open OfferLifecycle

/-- The rest of a started procedure. -/
inductive Task where
  /-- Ask the provider to start the payment of a committed creation. -/
  | createIntent (committed : CommittedReservation)
  /-- Settle a logged event; a sweep goes on with its other payments. -/
  | settleEvent (event : ProviderEvent) (swept : List (MerchantOid × ℤ))
  /-- Ask the provider about the next stale payment. -/
  | sweepOne (stale : List (MerchantOid × ℤ))
  | redeemWrite (redeemer : Redeemer) (read : RedeemRead)
  | sweepNoShow (uncollected : List ReservationId)
  | publishDue (due : List OfferId)
  | terminalize (offerId : OfferId) (due : List OfferId)
  /-- List the offers of a suspended merchant. -/
  | killSwitch (merchantId : MerchantId)
  /-- Cancel the next offer of a suspended merchant. -/
  | cancelNext (offerIds : List OfferId)
  /-- Ask the provider for the next refund. -/
  | refund (call : RefundCall) (rest : List RefundCall) (next : List OfferId)
  | recordRefund (call : RefundCall) (refundRef : String) (rest : List RefundCall)
      (next : List OfferId)
  /-- Store what the bookkeeping transaction failed to store. -/
  | recordSent (call : RefundCall) (refundRef : String) (rest : List RefundCall)
      (next : List OfferId)
  | moveRefunded (call : RefundCall) (rest : List RefundCall) (next : List OfferId)
  | releaseRefundClaim (reservationId : ReservationId)

/-- Stored rows, procedures and open transactions under way, and the provider's record. -/
structure World where
  market : Market
  tasks : List Task
  openCancellations : List OfferCancellation
  /-- Refunds the provider accepted. -/
  providerRefunds : List (MerchantOid × ℤ)

/-- What the provider says about a charge. -/
inductive ChargeStatus where
  | unreachable
  | paid (paidAmountCents : Option ℤ)
  | pending
  | failed

/-- How a refund request ends. -/
inductive RefundReply where
  /-- The provider accepted and its answer arrived. -/
  | answered (refundRef : String)
  /-- The provider accepted but the answer was lost. -/
  | answerLost
  | failed

/-- What the outside supplies to one resumed step. -/
structure StepInput where
  clock : Instant
  intentCreated : Bool := true
  chargeStatus : ChargeStatus := .pending
  externalEventId : EventId := 0
  refundReply : RefundReply := .failed
  databaseFails : Bool := false

/-- Changes of merchants, stores and templates. -/
inductive CatalogueEvent where
  | addMerchant (merchant : Merchant)
  | addStore (store : Store)
  | addBagTemplate (bagTemplate : BagTemplate)
  | verifyMerchant (merchantId : MerchantId) (target : MerchantVerificationStatus)
  | setStoreActive (storeId : StoreId) (active : Bool)
  | editBagTemplate (bagTemplateId : BagTemplateId) (priceCents : ℤ) (active : Bool)

/-- Everything that can happen next. -/
inductive Action where
  | create (call : CreateCall) (codes : List Code)
  | webhook (event : ProviderEvent)
  | sweepStaleIntents (now : Instant)
  | cancel (userId : UserId) (reservationId : ReservationId) (now : Instant)
  | redeem (redeemer : Redeemer) (reservationId : ReservationId) (now : Instant)
  | sweepNoShows (now : Instant)
  | refundRedeemed (reservationId : ReservationId)
  | createOffer (merchantId : MerchantId) (dto : CreateOfferDto) (freshId : OfferId)
      (now : Instant)
  | publish (merchantId : MerchantId) (offerId : OfferId) (now : Instant)
  | schedule (merchantId : MerchantId) (offerId : OfferId) (publishAt now : Instant)
  | close (merchantId : MerchantId) (offerId : OfferId)
  | publishDueScheduled (now : Instant)
  | cancelOffer (merchantId : MerchantId) (offerId : OfferId)
  | adminCancel (adminId : AdminId) (offerId : OfferId)
  | adminSuspend (merchantId : MerchantId)
  | catalogue (event : CatalogueEvent)
  | resume (index : ℕ) (input : StepInput)
  /-- The next statement of an open cancellation, or its commit. -/
  | advanceCancellation (index : ℕ)
  | rollbackCancellation (index : ℕ)

namespace World

variable (w : World)

/-- Leave the rest of a procedure to be resumed. -/
def spawn (task : Task) : World := { w with tasks := task :: w.tasks }

/-- Go on with a list of work if there is any. -/
def spawnSome {α : Type} (task : List α → Task) (items : List α) : World :=
  if items.isEmpty then w else w.spawn (task items)

/-- Commit new rows unless they touch a row that an open cancellation has locked. -/
def commit (m : Market) : Option World :=
  if ∃ tx ∈ w.openCancellations, tx.changesLocked w.market m then none
  else some { w with market := m }

/-- Go on after a refund: with the next one, or with the next offer. -/
def continueRefunds (rest : List RefundCall) (next : List OfferId) : World :=
  match rest with
  | call :: rest => w.spawn (.refund call rest next)
  | [] => w.spawnSome .cancelNext next

/-- Take in a provider event, which is logged once. -/
def takeIn (event : ProviderEvent) (swept : List (MerchantOid × ℤ)) : World :=
  if event.externalEventId ∈ w.market.webhookEvents then w.spawnSome .sweepOne swept
  else
    { w with
      market :=
        { w.market with webhookEvents := event.externalEventId :: w.market.webhookEvents }
      tasks := .settleEvent event swept :: w.tasks }

/-- Open a cancellation unless another one holds the offer. -/
def openCancellation (tx : OfferCancellation) : Option World :=
  if ∃ other ∈ w.openCancellations, other.offer.id = tx.offer.id then none
  else some { w with openCancellations := tx :: w.openCancellations }

end World

section Entries

/-- Create a reservation and leave its payment to be started. -/
def createEntry (w : World) (call : CreateCall) (codes : List Code) : Option World :=
  if validReservationQty call.qty then
    match createReservationWithRetry w.market call (codes.take maxCodeAttempts) with
    | .error _ => none
    | .ok (m, committed) => (w.commit m).map fun w => w.spawn (.createIntent committed)
  else none

def staleAfterMs : ℤ := 600000

/-- Payments that stayed open for too long. -/
def staleIntents (m : Market) (now : Instant) : List (MerchantOid × ℤ) :=
  (m.payments.rows.filter fun p => liveIntent p.status ∧ p.createdAt < now-staleAfterMs).map
    fun p => (p.merchantOid, p.amountCents)

def cancelEntry (w : World) (userId : UserId) (reservationId : ReservationId) (now : Instant) :
    Option World :=
  match cancel w.market userId reservationId now with
  | .error _ => none
  | .ok (m, none) => w.commit m
  | .ok (m, some call) => (w.commit m).map fun w => w.spawn (.refund call [] [])

def redeemEntry (w : World) (redeemer : Redeemer) (reservationId : ReservationId)
    (now : Instant) : Option World :=
  match checkRedeem w.market redeemer reservationId now with
  | .error _ => none
  | .ok none => some w
  | .ok (some read) => some (w.spawn (.redeemWrite redeemer read))

def refundRedeemedEntry (w : World) (reservationId : ReservationId) : Option World :=
  match claimRefund w.market reservationId with
  | .error _ => none
  | .ok (m, call) => (w.commit m).map fun w => w.spawn (.refund call [] [])

def createOfferEntry (w : World) (merchantId : MerchantId) (dto : CreateOfferDto)
    (freshId : OfferId) (now : Instant) : Option World :=
  if validOfferQty dto.qtyTotal then
    match createOffer w.market merchantId dto freshId now with
    | .error _ => none
    | .ok m => w.commit m
  else none

/-- Commit the outcome of an offer endpoint. -/
def offerEntry (w : World) (outcome : Except OfferError Market) : Option World :=
  match outcome with
  | .error _ => none
  | .ok m => w.commit m

def cancelOfferEntry (w : World) (merchantId : MerchantId) (offerId : OfferId) : Option World :=
  match assertOwnedOffer w.market merchantId offerId with
  | .error _ => none
  | .ok offer =>
    match beginCancellation w.market offer.id .merchantCancel none [] with
    | .error _ => none
    | .ok tx => w.openCancellation tx

def adminCancelEntry (w : World) (adminId : AdminId) (offerId : OfferId) : Option World :=
  match beginCancellation w.market offerId .admin (some adminId) [] with
  | .error _ => none
  | .ok tx => w.openCancellation tx

def verifyMerchant (m : Market) (merchantId : MerchantId) (target : MerchantVerificationStatus) :
    Option Market :=
  (m.merchants.updateOne merchantId
    (fun me => me.verificationStatus ∈ allowedMerchantVerificationFrom target)
    (fun me => { me with verificationStatus := target }) fun _ => rfl).map fun merchants =>
    { m with merchants }

/-- Suspend a merchant and leave its offers to be cancelled. -/
def adminSuspendEntry (w : World) (merchantId : MerchantId) : Option World :=
  match verifyMerchant w.market merchantId .suspended with
  | none => none
  | some m => (w.commit m).map fun w => w.spawn (.killSwitch merchantId)

def catalogueChange (m : Market) : CatalogueEvent → Option Market
  | .addMerchant merchant => some { m with merchants := m.merchants.insertNew merchant }
  | .addStore store => some { m with stores := m.stores.insertNew store }
  | .addBagTemplate bagTemplate =>
    some { m with bagTemplates := m.bagTemplates.insertNew bagTemplate }
  | .verifyMerchant merchantId target =>
    if target = .suspended then none else verifyMerchant m merchantId target
  | .setStoreActive storeId active =>
    (m.stores.updateOne storeId (fun _ => True) (fun s => { s with active }) fun _ => rfl).map
      fun stores => { m with stores }
  | .editBagTemplate bagTemplateId priceCents active =>
    (m.bagTemplates.updateOne bagTemplateId (fun _ => True)
      (fun bt => { bt with priceCents, active }) fun _ => rfl).map
      fun bagTemplates => { m with bagTemplates }

def catalogueEntry (w : World) (event : CatalogueEvent) : Option World :=
  match catalogueChange w.market event with
  | none => none
  | some m => w.commit m

end Entries

section Tasks

def createIntent (w : World) (committed : CommittedReservation) (input : StepInput) :
    Option World :=
  if input.intentCreated then some w else w.commit (compensateFailedIntent w.market committed)

def settleEvent (w : World) (event : ProviderEvent) (swept : List (MerchantOid × ℤ))
    (input : StepInput) : Option World :=
  (w.commit (settle w.market event input.clock).1).map fun w => w.spawnSome .sweepOne swept

/-- Imitate a provider event for a stale payment. -/
def sweepOne (w : World) (stale : List (MerchantOid × ℤ)) (input : StepInput) : Option World :=
  match stale with
  | [] => some w
  | (merchantOid, fallbackAmountCents) :: rest =>
    match input.chargeStatus with
    | .unreachable => some (w.spawnSome .sweepOne rest)
    | .paid paidAmountCents =>
      some (w.takeIn
        { merchantOid, status := .success
          totalCents := paidAmountCents.getD fallbackAmountCents
          externalEventId := input.externalEventId } rest)
    | _ =>
      some (w.takeIn
        { merchantOid, status := .failed
          totalCents := fallbackAmountCents
          externalEventId := input.externalEventId } rest)

def redeemWrite (w : World) (redeemer : Redeemer) (read : RedeemRead) (input : StepInput) :
    Option World :=
  match redeem w.market redeemer read input.clock with
  | .error _ => some w
  | .ok (m, _) => w.commit m

def sweepNoShow (w : World) (uncollected : List ReservationId) : Option World :=
  match uncollected with
  | [] => some w
  | id :: rest =>
    match markNoShow w.market id with
    | none => some (w.spawnSome .sweepNoShow rest)
    | some m => (w.commit m).map fun w => w.spawnSome .sweepNoShow rest

/-- Publish the next due offer; an expired one is left to be cancelled. -/
def publishDue (w : World) (due : List OfferId) (input : StepInput) : Option World :=
  match due with
  | [] => some w
  | id :: rest =>
    match publishOffer w.market id input.clock with
    | .ok m => (w.commit m).map fun w => w.spawnSome .publishDue rest
    | .error .pickupWindowPassed => some (w.spawn (.terminalize id rest))
    | .error _ => some (w.spawnSome .publishDue rest)

def terminalize (w : World) (offerId : OfferId) (due : List OfferId) : Option World :=
  match terminalizeExpiredScheduled w.market offerId with
  | none => some (w.spawnSome .publishDue due)
  | some m => (w.commit m).map fun w => w.spawnSome .publishDue due

def cancelNext (w : World) (offerIds : List OfferId) : Option World :=
  match offerIds with
  | [] => some w
  | id :: rest =>
    match beginCancellation w.market id .admin none rest with
    | .error _ => some (w.spawnSome .cancelNext rest)
    | .ok tx => w.openCancellation tx

/-- After a refused refund: store its row, and give a claim back. -/
def refundRefused (w : World) (call : RefundCall) (rest : List RefundCall) (next : List OfferId)
    (input : StepInput) : World :=
  let stored := if input.databaseFails then w
    else { w with market := storeRefund w.market (refundRow call none .failed) }
  if call.fromStatus = .refundPending then stored.spawn (.releaseRefundClaim call.reservationId)
  else stored.continueRefunds rest next

def refund (w : World) (call : RefundCall) (rest : List RefundCall) (next : List OfferId)
    (input : StepInput) : Option World :=
  let accepted :=
    { w with providerRefunds := (call.merchantOid, call.amountCents) :: w.providerRefunds }
  match input.refundReply with
  | .answered refundRef => some (accepted.spawn (.recordRefund call refundRef rest next))
  | .answerLost => some (refundRefused accepted call rest next input)
  | .failed => some (refundRefused w call rest next input)

def recordRefund (w : World) (call : RefundCall) (refundRef : String) (rest : List RefundCall)
    (next : List OfferId) (input : StepInput) : Option World :=
  if input.databaseFails then some (w.spawn (.recordSent call refundRef rest next))
  else
    (w.commit (ReservationTransactions.recordRefund w.market call refundRef)).map
      fun w => w.continueRefunds rest next

def recordSent (w : World) (call : RefundCall) (refundRef : String) (rest : List RefundCall)
    (next : List OfferId) (input : StepInput) : Option World :=
  let stored := if input.databaseFails then w
    else { w with market := storeRefund w.market (refundRow call (some refundRef) .sent) }
  some (stored.spawn (.moveRefunded call rest next))

def moveRefunded (w : World) (call : RefundCall) (rest : List RefundCall) (next : List OfferId)
    (input : StepInput) : Option World :=
  if input.databaseFails then some (w.continueRefunds rest next)
  else
    (w.commit (ReservationTransactions.moveRefunded w.market call)).map
      fun w => w.continueRefunds rest next

def releaseRefundClaim (w : World) (reservationId : ReservationId) (input : StepInput) :
    Option World :=
  if input.databaseFails then some w
  else w.commit (ReservationTransactions.releaseRefundClaim w.market reservationId)

def resumeTask (w : World) (input : StepInput) : Task → Option World
  | .createIntent committed => createIntent w committed input
  | .settleEvent event swept => settleEvent w event swept input
  | .sweepOne stale => sweepOne w stale input
  | .redeemWrite redeemer read => redeemWrite w redeemer read input
  | .sweepNoShow uncollected => sweepNoShow w uncollected
  | .publishDue due => publishDue w due input
  | .terminalize offerId due => terminalize w offerId due
  | .killSwitch merchantId => some (w.spawnSome .cancelNext (cancellableOffers w.market merchantId))
  | .cancelNext offerIds => cancelNext w offerIds
  | .refund call rest next => refund w call rest next input
  | .recordRefund call refundRef rest next => recordRefund w call refundRef rest next input
  | .recordSent call refundRef rest next => recordSent w call refundRef rest next input
  | .moveRefunded call rest next => moveRefunded w call rest next input
  | .releaseRefundClaim reservationId => releaseRefundClaim w reservationId input

end Tasks

/-- The next statement of an open cancellation. When none is left it commits,
and the refunds follow. -/
def advanceCancellation (w : World) (index : ℕ) : Option World :=
  match w.openCancellations[index]? with
  | none => none
  | some tx =>
    let closed : World := { w with openCancellations := w.openCancellations.eraseIdx index }
    match tx.advance w.market with
    | some tx' => some { w with openCancellations := tx' :: closed.openCancellations }
    | none =>
      (closed.commit (tx.commit w.market)).map fun w =>
        w.continueRefunds (refundMany tx.toRefund tx.reason) tx.next

/-- Abandon an open cancellation; a suspension goes on with its next offer. -/
def rollbackCancellation (w : World) (index : ℕ) : Option World :=
  match w.openCancellations[index]? with
  | none => none
  | some tx =>
    let closed : World := { w with openCancellations := w.openCancellations.eraseIdx index }
    some (closed.spawnSome .cancelNext tx.next)

/-- One step of the reservation side; none when it is refused or has to wait. -/
def step (w : World) : Action → Option World
  | .create call codes => createEntry w call codes
  | .webhook event => some (w.takeIn event [])
  | .sweepStaleIntents now => some (w.spawnSome .sweepOne (staleIntents w.market now))
  | .cancel userId reservationId now => cancelEntry w userId reservationId now
  | .redeem redeemer reservationId now => redeemEntry w redeemer reservationId now
  | .sweepNoShows now => some (w.spawnSome .sweepNoShow (uncollected w.market now))
  | .refundRedeemed reservationId => refundRedeemedEntry w reservationId
  | .createOffer merchantId dto freshId now => createOfferEntry w merchantId dto freshId now
  | .publish merchantId offerId now =>
    offerEntry w (OfferLifecycle.publish w.market merchantId offerId now)
  | .schedule merchantId offerId publishAt now =>
    offerEntry w (OfferLifecycle.schedule w.market merchantId offerId publishAt now)
  | .close merchantId offerId => offerEntry w (OfferLifecycle.close w.market merchantId offerId)
  | .publishDueScheduled now => some (w.spawnSome .publishDue (dueScheduled w.market now))
  | .cancelOffer merchantId offerId => cancelOfferEntry w merchantId offerId
  | .adminCancel adminId offerId => adminCancelEntry w adminId offerId
  | .adminSuspend merchantId => adminSuspendEntry w merchantId
  | .catalogue event => catalogueEntry w event
  | .resume index input =>
    match w.tasks[index]? with
    | none => none
    | some task => resumeTask { w with tasks := w.tasks.eraseIdx index } input task
  | .advanceCancellation index => advanceCancellation w index
  | .rollbackCancellation index => rollbackCancellation w index

/-- No offer was made yet and no procedure is under way. -/
structure Initial (w : World) : Prop where
  offers : w.market.offers = Table.empty
  reservations : w.market.reservations = Table.empty
  payments : w.market.payments = Table.empty
  tasks : w.tasks = []
  openCancellations : w.openCancellations = []
  providerRefunds : w.providerRefunds = []

/-- States reached by steps that satisfy `ok`. -/
abbrev MarketReachable (ok : World → Action → Prop) : World → Prop := Reachable step ok Initial

section SampleRuns

/-- An approved merchant with one store and one template. -/
def sampleWorld : World where
  market :=
    { merchants := Table.empty.insertNew ⟨1, .approved⟩
      stores := Table.empty.insertNew ⟨1, 1, true⟩
      bagTemplates := Table.empty.insertNew ⟨1, 1, 5000, 10000, 15000, true⟩
      offers := Table.empty
      reservations := Table.empty
      payments := Table.empty
      refunds := []
      webhookEvents := []
      outbox := []
      auditLog := [] }
  tasks := []
  openCancellations := []
  providerRefunds := []

theorem sampleWorld_initial : Initial sampleWorld := ⟨rfl, rfl, rfl, rfl, rfl, rfl⟩

/-- The sample offer: ten to twenty o'clock of the first day. -/
def createSampleOffer (qtyTotal : ℤ) : Action :=
  .createOffer 1 ⟨1, 0, qtyTotal, 10*hourMs, 20*hourMs⟩ 1 0

/-- An offer goes on sale. -/
def openOffer (qtyTotal : ℤ) : List Action := [createSampleOffer qtyTotal, .publish 1 1 0]

/-- Resume the newest task. -/
def proceed (clock : Instant) : Action := .resume 0 { clock }

/-- A customer reserves and the payment is started. -/
def book (id : ReservationId) (qty : ℤ) (now : Instant) : List Action :=
  [.create ⟨id, 1, qty, now, id, id⟩ [id], proceed now]

/-- The provider reports a payment. -/
def pay (id : MerchantOid) (totalCents : ℤ) (clock : Instant) : List Action :=
  [.webhook ⟨id, .success, totalCents, id⟩, proceed clock]

/-- The state after executing actions on the sample market. -/
def sampleState (actions : List Action) : World := after step sampleWorld actions

theorem sampleState_reachable {actions : List Action}
    (h : (run step sampleWorld actions).isSome) : MarketReachable anyStep (sampleState actions) :=
  reachable_after (.start sampleWorld_initial) h

theorem sampleState_guarded {ok : World → Action → Prop} {actions : List Action}
    (hmeets : RunMeets step ok sampleWorld actions) (h : (run step sampleWorld actions).isSome) :
    MarketReachable ok (sampleState actions) :=
  reachable_after_guarded (.start sampleWorld_initial) hmeets h

end SampleRuns

end Kurtar.MarketService

import Kurtar.SettlementTransactions

/-!
# The settlement services as interleaved procedures

The nightly cycle, the admin actions and the payout execution run as
procedures of several steps: reads and transactions that other procedures
may come between. A started procedure is a task holding what it has read so
far; resuming a task performs its next step and leaves the rest as a new
task. A crash is a task that is never resumed. The payment provider keeps
its own record of the transfers it made, by batch reference.
-/

namespace Kurtar.SettlementService

open KeyedTable GuardedRuns StatusTransitions IstanbulCalendar SettlementMath SettlementLedger
open SettlementRecompute SettlementTransactions

abbrev AdminId := ℕ

/-- Fresh lines of one merchant's day, as the eligibility scan found them. -/
structure Group where
  merchantId : MerchantId
  dayKey : DateKey
  lines : List SettlementInputLine
  earnedAtByReservation : List (ReservationId × Instant)

inductive CycleStage where
  | batch | clawbackSweep | clawbackSweepScan
  deriving DecidableEq

/-- A merchant's nightly work that did not complete. -/
structure NightlyCycleFailure where
  merchantId : Option MerchantId
  stage : CycleStage
  message : String

/-- A nightly cycle under way. -/
structure NightlyCycle where
  now : Instant
  /-- The admin who triggered it; none for the cron. -/
  startedBy : Option AdminId
  groups : List Group
  merchantsWithFreshLines : List MerchantId := []
  touched : List BatchId := []
  failures : List NightlyCycleFailure := []

/-- The rest of a started procedure. -/
inductive Task where
  /-- Build the next group, or scan for clawbacks when none is left. -/
  | nightlyGroups (cycle : NightlyCycle)
  | nightlyRecompute (cycle : NightlyCycle) (merchantId : MerchantId) (batchId : BatchId)
      (pendingLines : List PendingSettlementLine)
  /-- Look up the open batch of the next merchant to sweep. -/
  | nightlySweep (cycle : NightlyCycle) (merchantIds : List MerchantId)
  | nightlySweepCreate (cycle : NightlyCycle) (merchantId : MerchantId)
      (merchantIds : List MerchantId)
  | nightlySweepRecompute (cycle : NightlyCycle) (merchantId : MerchantId) (batchId : BatchId)
      (merchantIds : List MerchantId)
  | approveRecompute (batchId : BatchId) (adminId : AdminId) (fromStatus : SettlementStatus)
      (now : Instant)
  /-- Flip to approved, with the amounts the recompute returned. -/
  | approveFlip (batchId : BatchId) (adminId : AdminId) (fromStatus : SettlementStatus)
      (recomputed : Batch)
  | retryRecompute (batchId : BatchId) (now : Instant)
  | executeOne (batchId : BatchId)
  /-- Stamp the attempt; the row and the merchant reference were read before. -/
  | payoutStamp (batch : Batch) (merchantRef : String)
  | payoutCall (batch : Batch) (merchantRef : String)
  | markSent (batchId : BatchId) (pspTransferRef : String)

/-- A transfer the payment provider made. -/
structure Transfer where
  ref : BatchId
  merchantRef : String
  amountCents : ℤ
  pspTransferRef : String

/-- Rows of the audit log written by the settlement services. -/
inductive AuditEntry where
  | approved (adminId : AdminId) (batchId : BatchId) (fromStatus : SettlementStatus)
      (netPayoutCents : ℤ) (merchantId : MerchantId)
  | held (adminId : AdminId) (batchId : BatchId) (holdReason : String)
  | retried (adminId : AdminId) (batchId : BatchId) (fromStatus : SettlementStatus)
  | settled (adminId : AdminId) (batchId : BatchId) (netPayoutCents : ℤ)
      (settlementReference : Option String)
  | nightlyRun (adminId : AdminId) (dayKey : DateKey) (batchIds : List BatchId)
      (failures : List NightlyCycleFailure)

/-- Payload of the two events published when a batch is sent. -/
structure BatchSentPayload where
  batchId : BatchId
  merchantId : MerchantId
  periodStart : Instant
  periodEnd : Instant
  netPayoutCents : ℤ
  pspTransferRef : String

/-- Stored rows, procedures under way and the provider's record. -/
structure World where
  ledger : Ledger
  tasks : List Task
  transfers : List Transfer
  /-- Payouts the provider was asked for, with their amounts. -/
  payoutRequests : List (BatchId × ℤ)
  auditLog : List AuditEntry
  outbox : List BatchSentPayload

/-- How a payout request ends. -/
inductive ProviderOutcome where
  /-- The provider accepted and its answer arrived. -/
  | answered (pspTransferRef : String)
  /-- The provider accepted but the answer was lost. -/
  | answerLost (pspTransferRef : String)
  /-- The provider refused or was not reached. -/
  | failed

/-- What the outside supplies to one resumed step. -/
structure StepInput where
  clock : Instant
  /-- Identity for a batch that the step may create. -/
  freshBatchId : BatchId
  provider : ProviderOutcome

/-- Everything that can happen next. -/
inductive Action where
  | runNightlyCycle (now : Instant) (startedBy : Option AdminId)
  | adminApprove (batchId : BatchId) (adminId : AdminId) (now : Instant)
  | adminHold (batchId : BatchId) (note : Option String) (adminId : AdminId)
  | adminRetry (batchId : BatchId) (adminId : AdminId) (now : Instant)
  | adminMarkSettled (batchId : BatchId) (reference : Option String) (adminId : AdminId)
      (now : Instant)
  | startPayout (batchId : BatchId)
  | resume (index : ℕ) (input : StepInput)
  | business (event : BusinessEvent) (clock : Instant)

/-- When a bag was earned: its redemption, or the end of the pickup window. -/
def settlementAnchorOf (r : Reservation) : Instant :=
  if r.status = .redeemed then r.redeemedAt.getD r.pickupEndAt else r.pickupEndAt

/-- Is the reservation paid, collected or missed, and without a line? -/
def eligible (l : Ledger) (r : Reservation) : Prop :=
  l.lines.find? r.id = none ∧ r.paymentStatus = .paid ∧
    (r.status = .redeemed ∧ r.redeemedAt ≠ none ∨ r.status = .noShow)

instance (l : Ledger) (r : Reservation) : Decidable (eligible l r) := by
  have : Decidable (l.lines.find? r.id = none) :=
    decidable_of_iff ((l.lines.find? r.id).isNone = true) (by simp)
  unfold eligible
  infer_instance

/-- Oldest earning first, ties by identity. -/
def compareBySettlementAnchor (a b : Reservation) : Prop :=
  toLex (settlementAnchorOf a, a.id) ≤ toLex (settlementAnchorOf b, b.id)

instance : DecidableRel compareBySettlementAnchor := fun a b => by
  unfold compareBySettlementAnchor
  infer_instance

/-- Add a reservation to its merchant and day, opening a group when needed. -/
def addToGroups (r : Reservation) : List Group → List Group
  | [] =>
    [{ merchantId := r.merchantId
       dayKey := istanbulDateKey (settlementAnchorOf r)
       lines := [⟨r.id, r.totalCents, r.qty⟩]
       earnedAtByReservation := [(r.id, settlementAnchorOf r)] }]
  | group :: groups =>
    if group.merchantId = r.merchantId ∧ group.dayKey = istanbulDateKey (settlementAnchorOf r) then
      { group with
        lines := group.lines ++ [⟨r.id, r.totalCents, r.qty⟩]
        earnedAtByReservation := group.earnedAtByReservation ++ [(r.id, settlementAnchorOf r)] }
        :: groups
    else group :: addToGroups r groups

/-- The eligibility scan: eligible reservations grouped by merchant and day. -/
def scanEligible (l : Ledger) : List Group :=
  ((l.reservations.rows.filter fun r => eligible l r).insertionSort
    compareBySettlementAnchor).foldl (fun groups r => addToGroups r groups) []

/-- Price the lines of a group; they are stored by the recompute. -/
def computePendingLines (l : Ledger) (group : Group) :
    Except SettlementError (List PendingSettlementLine) := do
  if group.lines = [] then return []
  let merchant ← findMerchantOrThrow l group.merchantId
  let bagFeeCents ← l.resolveBagFeeCentsForMerchant merchant (offerDateToDbDate group.dayKey)
  let result ← (computeSettlement
    { lines := group.lines, bagFeeCents, membershipDueCents := 0
      priorClawbackCents := 0 }).mapError .math
  return result.perLine.map fun pl =>
    { reservationId := pl.reservationId
      redeemedAt := (group.earnedAtByReservation.lookup pl.reservationId).getD 0
      grossCents := pl.grossCents
      bagFeeCents := pl.bagFeeCents
      bagFeeVatCents := pl.bagFeeVatCents
      withholdingCents := pl.withholdingCents }

/-- Would a sweep find the line: settled, refunded, unmarked, with a remainder? -/
def pendingClawback (l : Ledger) (sb : Batch) (line : SettlementLine) : Prop :=
  sb.id = line.batchId ∧ awaitsClawback l sb.status line ∧
    line.grossCents-line.bagFeeCents-line.bagFeeVatCents-line.withholdingCents
      -line.clawbackCents > 0

instance (l : Ledger) (sb : Batch) (line : SettlementLine) :
    Decidable (pendingClawback l sb line) := by
  unfold pendingClawback
  infer_instance

/-- Merchants with a refunded line that is not fully recovered. -/
def findMerchantsWithPendingClawback (l : Ledger) : List MerchantId :=
  ((l.batches.rows.filter fun sb => ∃ line ∈ l.lines.rows, pendingClawback l sb line).map
    (·.merchantId)).dedup

/-- The merchant's open batch of the latest period. -/
def latestOpenBatch (l : Ledger) (merchantId : MerchantId) : Option Batch :=
  greatest (fun a b : Batch => a.periodStart < b.periodStart)
    (l.batches.rows.filter fun b => b.merchantId = merchantId ∧ b.Recomputable)

/-- White space removed by trimming a note. -/
def isTrimmed (c : Char) : Bool :=
  c.toNat ∈ [9, 10, 11, 12, 13, 32, 160, 5760, 8232, 8233, 8239, 8287, 12288, 65279] ||
    (8192 ≤ c.toNat && c.toNat ≤ 8202)

def trimNote (note : String) : String :=
  String.ofList ((note.toList.dropWhile isTrimmed).reverse.dropWhile isTrimmed).reverse

/-- The trimmed note, unless it is absent or empty. -/
def nonEmptyNote (note : Option String) : Option String :=
  (note.map trimNote).filter fun s => s ≠ ""

/-- The reason stored by a hold. -/
def holdReasonOf (note : Option String) : String :=
  (nonEmptyNote note).getD "Admin tarafından beklemeye alındı"

namespace World

variable (w : World)

/-- Leave the rest of a procedure to be resumed. -/
def spawn (task : Task) : World := { w with tasks := task :: w.tasks }

def withLedger (l : Ledger) : World := { w with ledger := l }

def log (entry : AuditEntry) : World := { w with auditLog := entry :: w.auditLog }

end World

/-- Record a failed merchant and go on with the others. -/
def NightlyCycle.fail (cycle : NightlyCycle) (merchantId : MerchantId) (stage : CycleStage)
    (error : SettlementError) : NightlyCycle :=
  { cycle with
    failures := cycle.failures ++ [⟨some merchantId, stage, error.message⟩] }

def NightlyCycle.touch (cycle : NightlyCycle) (batchId : BatchId) : NightlyCycle :=
  { cycle with touched := if batchId ∈ cycle.touched then cycle.touched
                          else cycle.touched ++ [batchId] }

/-- Next group: its batch is found or created and its lines are priced. With
no group left the clawback scan follows. -/
def nightlyGroups (w : World) (cycle : NightlyCycle) (input : StepInput) : Option World :=
  match cycle.groups with
  | [] =>
    let merchantIds := (findMerchantsWithPendingClawback w.ledger).filter fun m =>
      m ∉ cycle.merchantsWithFreshLines
    some (w.spawn (.nightlySweep cycle merchantIds))
  | group :: groups =>
    let fresh :=
      { cycle with
        groups
        merchantsWithFreshLines := group.merchantId :: cycle.merchantsWithFreshLines }
    match findOrCreateBatch w.ledger group.merchantId group.dayKey input.freshBatchId
        input.clock with
    | none => none
    | some (ledger, batchId) =>
      match computePendingLines ledger group with
      | .ok pendingLines =>
        some ((w.withLedger ledger).spawn
          (.nightlyRecompute fresh group.merchantId batchId pendingLines))
      | .error e =>
        some ((w.withLedger ledger).spawn (.nightlyGroups (fresh.fail group.merchantId .batch e)))

def nightlyRecompute (w : World) (cycle : NightlyCycle) (merchantId : MerchantId)
    (batchId : BatchId) (pendingLines : List PendingSettlementLine) (input : StepInput) :
    Option World :=
  match recomputeBatch w.ledger batchId cycle.now pendingLines input.clock with
  | .ok result =>
    some ((w.withLedger result.1).spawn (.nightlyGroups (cycle.touch batchId)))
  | .error e => some (w.spawn (.nightlyGroups (cycle.fail merchantId .batch e)))

/-- Next merchant to sweep: its latest open batch, or else a new one for
today. When the sweep ends, an admin's run is logged. -/
def nightlySweep (w : World) (cycle : NightlyCycle) (merchantIds : List MerchantId) :
    Option World :=
  match merchantIds with
  | [] =>
    match cycle.startedBy with
    | some adminId =>
      some (w.log (.nightlyRun adminId (istanbulDateKey cycle.now) cycle.touched cycle.failures))
    | none => some w
  | merchantId :: rest =>
    match latestOpenBatch w.ledger merchantId with
    | some batch => some (w.spawn (.nightlySweepRecompute cycle merchantId batch.id rest))
    | none => some (w.spawn (.nightlySweepCreate cycle merchantId rest))

def nightlySweepCreate (w : World) (cycle : NightlyCycle) (merchantId : MerchantId)
    (merchantIds : List MerchantId) (input : StepInput) : Option World :=
  match findOrCreateBatch w.ledger merchantId (istanbulDateKey cycle.now) input.freshBatchId
      input.clock with
  | none => none
  | some (ledger, batchId) =>
    some ((w.withLedger ledger).spawn
      (.nightlySweepRecompute cycle merchantId batchId merchantIds))

def nightlySweepRecompute (w : World) (cycle : NightlyCycle) (merchantId : MerchantId)
    (batchId : BatchId) (merchantIds : List MerchantId) (input : StepInput) : Option World :=
  match recomputeBatch w.ledger batchId cycle.now [] input.clock with
  | .ok result =>
    some ((w.withLedger result.1).spawn (.nightlySweep (cycle.touch batchId) merchantIds))
  | .error e =>
    some (w.spawn (.nightlySweep (cycle.fail merchantId .clawbackSweep e) merchantIds))

/-- The recompute of an approval; it has to leave the batch calculated. -/
def approveRecompute (w : World) (batchId : BatchId) (adminId : AdminId)
    (fromStatus : SettlementStatus) (now : Instant) (input : StepInput) : Option World :=
  match recomputeBatch w.ledger batchId now [] input.clock with
  | .ok result =>
    if result.2.status = .calculated then
      some ((w.withLedger result.1).spawn (.approveFlip batchId adminId fromStatus result.2))
    else some (w.withLedger result.1)
  | .error _ => some w

/-- The flip and its audit row commit together; a lost race ends the approval. -/
def approveFlip (w : World) (batchId : BatchId) (adminId : AdminId)
    (fromStatus : SettlementStatus) (recomputed : Batch) : Option World :=
  match approveBatch w.ledger batchId with
  | some ledger =>
    some ((w.withLedger ledger).log
      (.approved adminId batchId fromStatus recomputed.netPayoutCents recomputed.merchantId))
  | none => some w

def retryRecompute (w : World) (batchId : BatchId) (now : Instant) (input : StepInput) :
    Option World :=
  match recomputeBatch w.ledger batchId now [] input.clock with
  | .ok result => some (w.withLedger result.1)
  | .error _ => some w

/-- Read the batch and its merchant; only an approved batch is paid, and a
zero amount is sent without a transfer. -/
def executeOne (w : World) (batchId : BatchId) : Option World :=
  match w.ledger.batches.find? batchId with
  | none => some w
  | some batch =>
    match w.ledger.merchants.find? batch.merchantId with
    | none => some w
    | some merchant =>
      let merchantRef :=
        match merchant.pspSubMerchantKey with
        | some key => if key = "" then merchant.iban else key
        | none => merchant.iban
      if batch.status ≠ .approved then some w
      else if batch.netPayoutCents = 0 then
        some (w.spawn (.markSent batch.id "no-transfer-zero-net"))
      else if batch.payoutAttemptedAt = none then some (w.spawn (.payoutStamp batch merchantRef))
      else some (w.spawn (.payoutCall batch merchantRef))

/-- Stamp the attempt, or give up when the batch changed meanwhile. -/
def payoutStamp (w : World) (batch : Batch) (merchantRef : String) (input : StepInput) :
    Option World :=
  match stampPayoutAttempt w.ledger batch.id input.clock with
  | some ledger => some ((w.withLedger ledger).spawn (.payoutCall batch merchantRef))
  | none => some w

/-- The provider's side of a request it accepts: a known reference moves no
further money and is answered with the original transfer. -/
def acceptPayout (transfers : List Transfer) (ref : BatchId) (merchantRef : String)
    (amountCents : ℤ) (freshRef : String) : List Transfer × String :=
  match transfers.find? fun t => t.ref = ref with
  | some existing => (transfers, existing.pspTransferRef)
  | none => (⟨ref, merchantRef, amountCents, freshRef⟩ :: transfers, freshRef)

/-- Ask the provider for the amount that was read; without an answer the
batch stays approved and is tried again later. -/
def payoutCall (w : World) (batch : Batch) (merchantRef : String) (input : StepInput) :
    Option World :=
  let asked :=
    { w with payoutRequests := (batch.id, batch.netPayoutCents) :: w.payoutRequests }
  match input.provider with
  | .answered freshRef =>
    let accepted := acceptPayout w.transfers batch.id merchantRef batch.netPayoutCents freshRef
    some ({ asked with transfers := accepted.1 }.spawn (.markSent batch.id accepted.2))
  | .answerLost freshRef =>
    let accepted := acceptPayout w.transfers batch.id merchantRef batch.netPayoutCents freshRef
    some { asked with transfers := accepted.1 }
  | .failed => some asked

/-- Guarded move to sent; only the winner publishes the events. -/
def markSent (w : World) (batchId : BatchId) (pspTransferRef : String) (input : StepInput) :
    Option World :=
  match markBatchSent w.ledger batchId pspTransferRef input.clock with
  | none => some w
  | some ledger =>
    match ledger.batches.find? batchId with
    | none => none
    | some fresh =>
      let payload : BatchSentPayload :=
        { batchId
          merchantId := fresh.merchantId
          periodStart := fresh.periodStart
          periodEnd := fresh.periodEnd
          netPayoutCents := fresh.netPayoutCents
          pspTransferRef }
      some { w with ledger, outbox := payload :: w.outbox }

/-- The next step of a task. -/
def resumeTask (w : World) (task : Task) (input : StepInput) : Option World :=
  match task with
  | .nightlyGroups cycle => nightlyGroups w cycle input
  | .nightlyRecompute cycle merchantId batchId pendingLines =>
    nightlyRecompute w cycle merchantId batchId pendingLines input
  | .nightlySweep cycle merchantIds => nightlySweep w cycle merchantIds
  | .nightlySweepCreate cycle merchantId merchantIds =>
    nightlySweepCreate w cycle merchantId merchantIds input
  | .nightlySweepRecompute cycle merchantId batchId merchantIds =>
    nightlySweepRecompute w cycle merchantId batchId merchantIds input
  | .approveRecompute batchId adminId fromStatus now =>
    approveRecompute w batchId adminId fromStatus now input
  | .approveFlip batchId adminId fromStatus recomputed =>
    approveFlip w batchId adminId fromStatus recomputed
  | .retryRecompute batchId now => retryRecompute w batchId now input
  | .executeOne batchId => executeOne w batchId
  | .payoutStamp batch merchantRef => payoutStamp w batch merchantRef input
  | .payoutCall batch merchantRef => payoutCall w batch merchantRef input
  | .markSent batchId pspTransferRef => markSent w batchId pspTransferRef input

/-- First step of an approval: the status read that decides whether to go on. -/
def adminApprove (w : World) (batchId : BatchId) (adminId : AdminId) (now : Instant) :
    Except SettlementError World :=
  match w.ledger.batches.find? batchId with
  | none => .error .batchNotFound
  | some existing =>
    if existing.status ∈ allowedSettlementFrom .approved then
      .ok (w.spawn (.approveRecompute batchId adminId existing.status now))
    else .error (.notApprovable s!"Batch is {existing.status.text}, which cannot be approved.")

/-- Hold and audit row in one transaction. -/
def adminHold (w : World) (batchId : BatchId) (note : Option String) (adminId : AdminId) :
    Except SettlementError World :=
  match holdBatch w.ledger batchId (holdReasonOf note) with
  | some ledger => .ok ((w.withLedger ledger).log (.held adminId batchId (holdReasonOf note)))
  | none =>
    match w.ledger.batches.find? batchId with
    | none => .error .batchNotFound
    | some existing =>
      if existing.payoutAttemptedAt ≠ none then .error .payoutAlreadyAttempted
      else .error (.notHoldable existing.status)

/-- A held batch is recomputed, an approved one is paid; both are logged first. -/
def adminRetry (w : World) (batchId : BatchId) (adminId : AdminId) (now : Instant) :
    Except SettlementError World :=
  match w.ledger.batches.find? batchId with
  | none => .error .batchNotFound
  | some batch =>
    let logged := w.log (.retried adminId batchId batch.status)
    if batch.status = .held then .ok (logged.spawn (.retryRecompute batchId now))
    else if batch.status = .approved then .ok (logged.spawn (.executeOne batchId))
    else .error (.notRetryable batch.status)

/-- Confirmation that the transfer landed, and its audit row. -/
def adminMarkSettled (w : World) (batchId : BatchId) (reference : Option String)
    (adminId : AdminId) (now : Instant) : Except SettlementError World :=
  let settlementReference := nonEmptyNote reference
  match markBatchSettled w.ledger batchId settlementReference now, w.ledger.batches.find? batchId with
  | some ledger, some fresh =>
    .ok ((w.withLedger ledger).log
      (.settled adminId batchId fresh.netPayoutCents settlementReference))
  | _, none => .error .batchNotFound
  | none, some existing => .error (.notSettleable existing.status)

/-- The step function of the services. A request that fails changes nothing. -/
def step (w : World) : Action → Option World
  | .runNightlyCycle now startedBy =>
    some (w.spawn (.nightlyGroups { now, startedBy, groups := scanEligible w.ledger }))
  | .adminApprove batchId adminId now => (adminApprove w batchId adminId now).toOption
  | .adminHold batchId note adminId => (adminHold w batchId note adminId).toOption
  | .adminRetry batchId adminId now => (adminRetry w batchId adminId now).toOption
  | .adminMarkSettled batchId reference adminId now =>
    (adminMarkSettled w batchId reference adminId now).toOption
  | .startPayout batchId => some (w.spawn (.executeOne batchId))
  | .resume index input =>
    match w.tasks[index]? with
    | some task => resumeTask { w with tasks := w.tasks.eraseIdx index } task input
    | none => none
  | .business event clock =>
    match commitBusiness w.ledger clock event with
    | some ledger => some (w.withLedger ledger)
    | none => none

/-- Services at rest over an empty ledger. -/
structure Initial (w : World) : Prop where
  ledger : Empty w.ledger
  tasks : w.tasks = []
  transfers : w.transfers = []
  payoutRequests : w.payoutRequests = []
  auditLog : w.auditLog = []
  outbox : w.outbox = []

/-- The states reached by steps that satisfy a condition. -/
abbrev ServiceReachable (ok : World → Action → Prop) : World → Prop := Reachable step ok Initial

/-- The ledger transaction that a task's next step tries to commit. -/
def taskTransaction (input : StepInput) : Task → Option Transaction
  | .nightlyGroups cycle =>
    cycle.groups.head?.map fun group =>
      .createOrExtend group.merchantId group.dayKey input.freshBatchId input.clock
  | .nightlyRecompute cycle _ batchId pendingLines =>
    some (.recompute batchId cycle.now pendingLines input.clock)
  | .nightlySweepCreate cycle merchantId _ =>
    some (.createOrExtend merchantId (istanbulDateKey cycle.now) input.freshBatchId input.clock)
  | .nightlySweepRecompute cycle _ batchId _ => some (.recompute batchId cycle.now [] input.clock)
  | .approveRecompute batchId _ _ now => some (.recompute batchId now [] input.clock)
  | .approveFlip batchId _ _ _ => some (.approve batchId)
  | .retryRecompute batchId now => some (.recompute batchId now [] input.clock)
  | .payoutStamp batch _ => some (.stampPayout batch.id input.clock)
  | .markSent batchId pspTransferRef => some (.markSent batchId pspTransferRef input.clock)
  | .nightlySweep _ _ | .executeOne _ | .payoutCall _ _ => none

/-- The ledger transaction that an action tries to commit. -/
def transactionOf (w : World) : Action → Option Transaction
  | .adminHold batchId note _ => some (.hold batchId (holdReasonOf note))
  | .adminMarkSettled batchId reference _ now =>
    some (.markSettled batchId (nonEmptyNote reference) now)
  | .resume index input => w.tasks[index]?.bind (taskTransaction input)
  | .business event clock => some (.business event clock)
  | .runNightlyCycle _ _ | .adminApprove _ _ _ | .adminRetry _ _ _ | .startPayout _ => none

/-- A step leaves the ledger alone or commits its transaction. -/
def Commits (l l' : Ledger) (tx : Option Transaction) : Prop :=
  l' = l ∨ ∃ t, tx = some t ∧ commit l t = some l'

theorem commits_recompute {l : Ledger} {batchId : BatchId} {now clock : Instant}
    {pending : List PendingSettlementLine} {result : Ledger × Batch}
    (h : recomputeBatch l batchId now pending clock = .ok result) :
    Commits l result.1 (some (.recompute batchId now pending clock)) :=
  Or.inr ⟨_, rfl, by simp only [commit, h]⟩

theorem commits_createOrExtend {l : Ledger} {merchantId : MerchantId} {dayKey : DateKey}
    {freshId : BatchId} {clock : Instant} {result : Ledger × BatchId}
    (h : findOrCreateBatch l merchantId dayKey freshId clock = some result) :
    Commits l result.1 (some (.createOrExtend merchantId dayKey freshId clock)) :=
  Or.inr ⟨_, rfl, by simp only [commit, h, Option.map_some]⟩

/-- A step that recomputes a batch keeps the new ledger, or nothing on an error. -/
theorem commits_of_recompute {l l' : Ledger} {batchId : BatchId} {now clock : Instant}
    {pending : List PendingSettlementLine}
    (hok : ∀ result, recomputeBatch l batchId now pending clock = .ok result → l' = result.1)
    (herror : ∀ e, recomputeBatch l batchId now pending clock = .error e → l' = l) :
    Commits l l' (some (.recompute batchId now pending clock)) := by
  cases hr : recomputeBatch l batchId now pending clock with
  | ok result =>
    rw [hok result hr]
    exact commits_recompute hr
  | error e => exact Or.inl (herror e hr)

section TaskCommits

variable {w w' : World} {input : StepInput}

theorem nightlyGroups_commits {cycle : NightlyCycle} (h : nightlyGroups w cycle input = some w') :
    Commits w.ledger w'.ledger (taskTransaction input (.nightlyGroups cycle)) := by
  unfold nightlyGroups at h
  cases hg : cycle.groups with
  | nil =>
    simp only [hg, Option.some.injEq] at h
    exact Or.inl (by rw [← h]; rfl)
  | cons group groups =>
    simp only [hg] at h
    cases hc : findOrCreateBatch w.ledger group.merchantId group.dayKey input.freshBatchId
        input.clock with
    | none => simp [hc] at h
    | some result =>
      have hl : w'.ledger = result.1 := by
        cases hp : computePendingLines result.1 group <;>
          simp only [hc, hp, Option.some.injEq] at h <;> rw [← h] <;> rfl
      rw [hl]
      simpa [taskTransaction, hg] using commits_createOrExtend hc

theorem nightlyRecompute_commits {cycle : NightlyCycle} {merchantId : MerchantId}
    {batchId : BatchId} {pendingLines : List PendingSettlementLine}
    (h : nightlyRecompute w cycle merchantId batchId pendingLines input = some w') :
    Commits w.ledger w'.ledger (some (.recompute batchId cycle.now pendingLines input.clock)) := by
  unfold nightlyRecompute at h
  apply commits_of_recompute
  · intro result hr
    simp only [hr, Option.some.injEq] at h
    rw [← h]
    rfl
  · intro e hr
    simp only [hr, Option.some.injEq] at h
    rw [← h]
    rfl

theorem nightlySweep_ledger {cycle : NightlyCycle} {merchantIds : List MerchantId}
    (h : nightlySweep w cycle merchantIds = some w') : w'.ledger = w.ledger := by
  unfold nightlySweep at h
  split at h <;> split at h <;> cases h <;> rfl

theorem nightlySweepCreate_commits {cycle : NightlyCycle} {merchantId : MerchantId}
    {merchantIds : List MerchantId}
    (h : nightlySweepCreate w cycle merchantId merchantIds input = some w') :
    Commits w.ledger w'.ledger
      (some (.createOrExtend merchantId (istanbulDateKey cycle.now) input.freshBatchId
        input.clock)) := by
  unfold nightlySweepCreate at h
  cases hc : findOrCreateBatch w.ledger merchantId (istanbulDateKey cycle.now)
      input.freshBatchId input.clock with
  | none => simp [hc] at h
  | some result =>
    simp only [hc, Option.some.injEq] at h
    rw [← h]
    exact commits_createOrExtend hc

theorem nightlySweepRecompute_commits {cycle : NightlyCycle} {merchantId : MerchantId}
    {batchId : BatchId} {merchantIds : List MerchantId}
    (h : nightlySweepRecompute w cycle merchantId batchId merchantIds input = some w') :
    Commits w.ledger w'.ledger (some (.recompute batchId cycle.now [] input.clock)) := by
  unfold nightlySweepRecompute at h
  apply commits_of_recompute
  · intro result hr
    simp only [hr, Option.some.injEq] at h
    rw [← h]
    rfl
  · intro e hr
    simp only [hr, Option.some.injEq] at h
    rw [← h]
    rfl

theorem approveRecompute_commits {batchId : BatchId} {adminId : AdminId}
    {fromStatus : SettlementStatus} {now : Instant}
    (h : approveRecompute w batchId adminId fromStatus now input = some w') :
    Commits w.ledger w'.ledger (some (.recompute batchId now [] input.clock)) := by
  unfold approveRecompute at h
  apply commits_of_recompute
  · intro result hr
    simp only [hr] at h
    split at h <;> cases h <;> rfl
  · intro e hr
    simp only [hr, Option.some.injEq] at h
    rw [← h]

theorem approveFlip_commits {batchId : BatchId} {adminId : AdminId}
    {fromStatus : SettlementStatus} {recomputed : Batch}
    (h : approveFlip w batchId adminId fromStatus recomputed = some w') :
    Commits w.ledger w'.ledger (some (.approve batchId)) := by
  unfold approveFlip at h
  cases ha : approveBatch w.ledger batchId with
  | none =>
    simp only [ha, Option.some.injEq] at h
    exact Or.inl (by rw [← h])
  | some ledger =>
    simp only [ha, Option.some.injEq] at h
    rw [← h]
    exact Or.inr ⟨_, rfl, ha⟩

theorem retryRecompute_commits {batchId : BatchId} {now : Instant}
    (h : retryRecompute w batchId now input = some w') :
    Commits w.ledger w'.ledger (some (.recompute batchId now [] input.clock)) := by
  unfold retryRecompute at h
  apply commits_of_recompute
  · intro result hr
    simp only [hr, Option.some.injEq] at h
    rw [← h]
    rfl
  · intro e hr
    simp only [hr, Option.some.injEq] at h
    rw [← h]

theorem executeOne_ledger {batchId : BatchId} (h : executeOne w batchId = some w') :
    w'.ledger = w.ledger := by
  unfold executeOne at h
  repeat' split at h
  all_goals cases h; rfl

theorem payoutStamp_commits {batch : Batch} {merchantRef : String}
    (h : payoutStamp w batch merchantRef input = some w') :
    Commits w.ledger w'.ledger (some (.stampPayout batch.id input.clock)) := by
  unfold payoutStamp at h
  cases hs : stampPayoutAttempt w.ledger batch.id input.clock with
  | none =>
    simp only [hs, Option.some.injEq] at h
    exact Or.inl (by rw [← h])
  | some ledger =>
    simp only [hs, Option.some.injEq] at h
    rw [← h]
    exact Or.inr ⟨_, rfl, hs⟩

theorem payoutCall_ledger {batch : Batch} {merchantRef : String}
    (h : payoutCall w batch merchantRef input = some w') : w'.ledger = w.ledger := by
  unfold payoutCall at h
  split at h <;> cases h <;> rfl

theorem markSent_commits {batchId : BatchId} {pspTransferRef : String}
    (h : markSent w batchId pspTransferRef input = some w') :
    Commits w.ledger w'.ledger (some (.markSent batchId pspTransferRef input.clock)) := by
  unfold markSent at h
  cases hm : markBatchSent w.ledger batchId pspTransferRef input.clock with
  | none =>
    simp only [hm, Option.some.injEq] at h
    exact Or.inl (by rw [← h])
  | some ledger =>
    cases hf : ledger.batches.find? batchId with
    | none => simp [hm, hf] at h
    | some fresh =>
      simp only [hm, hf, Option.some.injEq] at h
      rw [← h]
      exact Or.inr ⟨_, rfl, hm⟩

/-- A resumed task commits at most its own transaction. -/
theorem resumeTask_commits {task : Task} (h : resumeTask w task input = some w') :
    Commits w.ledger w'.ledger (taskTransaction input task) := by
  cases task with
  | nightlyGroups => exact nightlyGroups_commits h
  | nightlyRecompute => exact nightlyRecompute_commits h
  | nightlySweep => exact Or.inl (nightlySweep_ledger h)
  | nightlySweepCreate => exact nightlySweepCreate_commits h
  | nightlySweepRecompute => exact nightlySweepRecompute_commits h
  | approveRecompute => exact approveRecompute_commits h
  | approveFlip => exact approveFlip_commits h
  | retryRecompute => exact retryRecompute_commits h
  | executeOne => exact Or.inl (executeOne_ledger h)
  | payoutStamp => exact payoutStamp_commits h
  | payoutCall => exact Or.inl (payoutCall_ledger h)
  | markSent => exact markSent_commits h

end TaskCommits

/-- Every step of the services commits at most the transaction it announces. -/
theorem step_commits {w w' : World} {a : Action} (h : step w a = some w') :
    Commits w.ledger w'.ledger (transactionOf w a) := by
  cases a with
  | runNightlyCycle now startedBy =>
    cases h
    exact Or.inl rfl
  | adminApprove batchId adminId now =>
    refine Or.inl ?_
    simp only [step, adminApprove] at h
    repeat' split at h
    all_goals first | (cases h; rfl) | simp [Except.toOption] at h
  | adminHold batchId note adminId =>
    simp only [step, adminHold] at h
    cases hh : holdBatch w.ledger batchId (holdReasonOf note) with
    | none =>
      simp only [hh] at h
      repeat' split at h
      all_goals simp [Except.toOption] at h
    | some ledger =>
      simp only [hh, Except.toOption, Option.some.injEq] at h
      rw [← h]
      exact Or.inr ⟨_, rfl, hh⟩
  | adminRetry batchId adminId now =>
    refine Or.inl ?_
    simp only [step, adminRetry] at h
    repeat' split at h
    all_goals first | (cases h; rfl) | simp [Except.toOption] at h
  | adminMarkSettled batchId reference adminId now =>
    simp only [step, adminMarkSettled] at h
    cases hm : markBatchSettled w.ledger batchId (nonEmptyNote reference) now with
    | none =>
      simp only [hm] at h
      split at h
      all_goals simp_all [Except.toOption]
    | some ledger =>
      cases hf : w.ledger.batches.find? batchId with
      | none => simp [hm, hf, Except.toOption] at h
      | some fresh =>
        simp only [hm, hf, Except.toOption, Option.some.injEq] at h
        rw [← h]
        exact Or.inr ⟨_, rfl, hm⟩
  | startPayout batchId =>
    cases h
    exact Or.inl rfl
  | resume index input =>
    simp only [step] at h
    cases ht : w.tasks[index]? with
    | none => simp [ht] at h
    | some task =>
      simp only [ht] at h
      have hc := resumeTask_commits h
      simp only [transactionOf, ht, Option.bind_some]
      exact hc
  | business event clock =>
    simp only [step] at h
    cases hb : commitBusiness w.ledger clock event with
    | none => simp [hb] at h
    | some ledger =>
      simp only [hb, Option.some.injEq] at h
      rw [← h]
      exact Or.inr ⟨_, rfl, hb⟩

/-- A task whose recompute succeeds stores its result. -/
theorem ledger_of_recompute {w w' : World} {a : Action} {batchId : BatchId} {now clock : Instant}
    {pendingLines : List PendingSettlementLine} {result : Ledger × Batch}
    (ht : transactionOf w a = some (.recompute batchId now pendingLines clock))
    (hok : recomputeBatch w.ledger batchId now pendingLines clock = .ok result)
    (h : step w a = some w') : w'.ledger = result.1 := by
  cases a with
  | resume index input =>
    simp only [step] at h
    cases htask : w.tasks[index]? with
    | none => simp [htask] at h
    | some task =>
      simp only [htask] at h
      simp only [transactionOf, htask, Option.bind_some] at ht
      cases task with
      | nightlyRecompute cycle merchantId id pending =>
        cases ht
        simp only [resumeTask, nightlyRecompute, hok] at h
        cases h
        rfl
      | nightlySweepRecompute cycle merchantId id merchantIds =>
        cases ht
        simp only [resumeTask, nightlySweepRecompute, hok] at h
        cases h
        rfl
      | approveRecompute id adminId fromStatus at_ =>
        cases ht
        simp only [resumeTask, approveRecompute, hok] at h
        split at h <;> cases h <;> rfl
      | retryRecompute id at_ =>
        cases ht
        simp only [resumeTask, retryRecompute, hok] at h
        cases h
        rfl
      | nightlyGroups cycle =>
        obtain ⟨group, _, he⟩ := Option.map_eq_some_iff.mp ht
        cases he
      | _ => cases ht
  | _ => cases ht

/-- A condition on transactions, read as a condition on the steps that commit them. -/
def committing (ok : Ledger → Transaction → Prop) (w : World) (a : Action) : Prop :=
  ∀ t, transactionOf w a = some t → ok w.ledger t

instance (ok : Ledger → Transaction → Prop) [∀ l t, Decidable (ok l t)] (w : World) (a : Action) :
    Decidable (committing ok w a) := by
  unfold committing
  exact match transactionOf w a with
    | none => isTrue (by simp)
    | some t => decidable_of_iff (ok w.ledger t) (by simp)

/-- The services refine the ledger: what they reach, transactions reach. -/
theorem ledgerReachable_of_service {ok : Ledger → Transaction → Prop} {w : World}
    (h : ServiceReachable (committing ok) w) : LedgerReachable ok w.ledger := by
  induction h with
  | start hi => exact .start hi.ledger
  | next _ hok ht ih =>
    rcases step_commits ht with he | ⟨t, htx, hc⟩
    · rw [he]
      exact ih
    · exact ih.next (hok t htx) hc

theorem ledgerReachable_of_anyStep {w : World} (h : ServiceReachable anyStep w) :
    LedgerReachable anyStep w.ledger :=
  ledgerReachable_of_service (h.mono fun _ _ _ _ _ => trivial)

section SampleRuns

/-- Noon of a day in Istanbul. -/
def noonOf (day : DateKey) : Instant := offerDateToDbDate day+9*hourMs

/-- One bag of the sample merchant, paid and to be collected at noon. -/
def sampleReservation (id : ReservationId) (day : DateKey) (totalCents : ℤ) : Reservation :=
  { id
    merchantId := 1
    status := .confirmed
    redeemedAt := none
    pickupEndAt := noonOf day
    totalCents
    qty := 1
    paymentStatus := .paid
    refunds := [] }

/-- Services at rest with one merchant of the given bag fee. -/
def sampleWorld (bagFeeCents : ℤ) : World :=
  { ledger :=
      { batches := Table.empty
        lines := Table.empty
        allocations := Table.empty
        claims := Table.empty
        subscriptions := Table.empty
        merchants := Table.empty.insertNew ⟨1, "TR00", none, some bagFeeCents, none⟩
        pricing := []
        reservations := Table.empty }
    tasks := []
    transfers := []
    payoutRequests := []
    auditLog := []
    outbox := [] }

theorem sampleWorld_initial (bagFeeCents : ℤ) : Initial (sampleWorld bagFeeCents) :=
  ⟨⟨rfl, rfl, rfl, rfl, rfl, rfl⟩, rfl, rfl, rfl, rfl, rfl⟩

/-- Resume the newest task. -/
def proceed (clock : Instant) (freshBatchId : BatchId) : Action :=
  .resume 0 ⟨clock, freshBatchId, .failed⟩

/-- A bag is sold and collected on a day. -/
def sell (id : ReservationId) (day : DateKey) (totalCents : ℤ) : List Action :=
  [.business (.reserve (sampleReservation id day totalCents)) (noonOf day),
    .business (.redeem id) (noonOf day)]

/-- One group of a nightly cycle: its batch, then its recompute. -/
def buildGroup (clock : Instant) (freshBatchId : BatchId) : List Action :=
  [proceed clock freshBatchId, proceed clock freshBatchId]

/-- A nightly cycle that builds one group and finds nothing to sweep. -/
def runNight (clock : Instant) (freshBatchId : BatchId) : List Action :=
  .runNightlyCycle clock none :: buildGroup clock freshBatchId ++ [proceed clock 0, proceed clock 0]

/-- An approval without interruption. -/
def approve (batchId : BatchId) (clock : Instant) : List Action :=
  [.adminApprove batchId 7 clock, proceed clock 0, proceed clock 0]

/-- A payout without interruption that the provider answers. -/
def payOut (batchId : BatchId) (clock : Instant) : List Action :=
  [.startPayout batchId, proceed clock 0, proceed clock 0,
    .resume 0 ⟨clock, 0, .answered "transfer"⟩, proceed clock 0]

/-- The stored batch of an id, or else an empty one. -/
def World.batch (w : World) (id : BatchId) : Batch :=
  (w.ledger.batches.find? id).getD (newBatch 0 0 id 0)

theorem World.batch_mem {w : World} {id : BatchId} (h : (w.ledger.batches.find? id).isSome) :
    w.batch id ∈ w.ledger.batches.rows := by
  obtain ⟨b, hb⟩ := Option.isSome_iff_exists.mp h
  rw [World.batch, hb]
  exact (Table.find?_eq_some.mp hb).1

/-- The state after executing actions on the sample services. -/
def sampleState (bagFeeCents : ℤ) (actions : List Action) : World :=
  (run step (sampleWorld bagFeeCents) actions).getD (sampleWorld bagFeeCents)

theorem reachable_of_sample (bagFeeCents : ℤ) (actions : List Action) {w : World}
    (h : run step (sampleWorld bagFeeCents) actions = some w) : ServiceReachable anyStep w :=
  reachable_of_run (.start (sampleWorld_initial bagFeeCents)) h

theorem sampleState_reachable {bagFeeCents : ℤ} {actions : List Action}
    (h : (run step (sampleWorld bagFeeCents) actions).isSome) :
    ServiceReachable anyStep (sampleState bagFeeCents actions) :=
  reachable_after (.start (sampleWorld_initial bagFeeCents)) h

theorem sampleState_guarded {ok : World → Action → Prop} {bagFeeCents : ℤ}
    {actions : List Action} (hmeets : RunMeets step ok (sampleWorld bagFeeCents) actions)
    (h : (run step (sampleWorld bagFeeCents) actions).isSome) :
    ServiceReachable ok (sampleState bagFeeCents actions) :=
  reachable_after_guarded (.start (sampleWorld_initial bagFeeCents)) hmeets h

end SampleRuns

end Kurtar.SettlementService

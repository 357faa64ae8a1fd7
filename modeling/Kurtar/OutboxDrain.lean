import Mathlib.Algebra.Order.Ring.Int
import Kurtar.KeyedTable
import Kurtar.TaskPools
import Kurtar.IstanbulCalendar

/-!
# Draining the outbox

Producers insert rows; workers reap, claim, touch, dispatch and mark them,
one guarded statement at a time. A worker is whatever is left of its drain.
The history notes each handler invocation and each one that returned, under
the attempt it was made for.
-/

namespace Kurtar.OutboxDrain

open KeyedTable IstanbulCalendar TaskPools

abbrev OutboxId := ℕ

/-- `OUTBOX_STATUS` -/
inductive OutboxStatus where
  | queued | processing | done | dead
  deriving DecidableEq

structure OutboxEvent where
  id : OutboxId
  type : String
  payload : String
  idempotencyKey : Option String
  scheduledFor : Option Instant
  status : OutboxStatus
  attempts : ℕ
  lastError : Option String
  dispatchedAt : Option Instant
  nextAttemptAt : Option Instant
  claimedAt : Option Instant
  deriving DecidableEq

abbrev OutboxEvents := Table OutboxEvent.id

def outboxBatchSize : ℕ := 20
def outboxLeaseMs : ℤ := 5*60000
def maxOutboxAttempts : ℕ := 6
def baseDelayMs : ℤ := 30000
def maxDelayMs : ℤ := 30*60000

def computeNextAttemptDelayMs (attempts : ℕ) : ℤ := min (baseDelayMs*2^(attempts-1)) maxDelayMs

theorem computeNextAttemptDelayMs_pos (attempts : ℕ) : 0 < computeNextAttemptDelayMs attempts :=
  lt_min (mul_pos (by decide) (pow_pos (by decide) _)) (by decide)

structure PublishOutboxEventParams where
  type : String
  payload : String
  idempotencyKey : Option String := none
  scheduledFor : Option Instant := none

section Statements

/-- Insert a queued row; a taken id or deduplication key aborts. -/
def publish (events : OutboxEvents) (id : OutboxId) (event : PublishOutboxEventParams) :
    Option OutboxEvents :=
  if ∃ r ∈ events.rows,
      r.id = id ∨ event.idempotencyKey ≠ none ∧ r.idempotencyKey = event.idempotencyKey then none
  else some (events.insertNew
    { id
      type := event.type
      payload := event.payload
      idempotencyKey := event.idempotencyKey
      scheduledFor := event.scheduledFor
      status := .queued
      attempts := 0
      lastError := none
      dispatchedAt := none
      nextAttemptAt := none
      claimedAt := none })

/-- What a claim at `now` may take. -/
def Claimable (now : Instant) (r : OutboxEvent) : Prop :=
  ((r.status = .queued ∧ ∀ t ∈ r.nextAttemptAt, t ≤ now) ∨
    (r.status = .processing ∧ (∃ t ∈ r.claimedAt, t ≤ now-outboxLeaseMs) ∧
      r.attempts < maxOutboxAttempts)) ∧
  ∀ t ∈ r.scheduledFor, t ≤ now

instance (now : Instant) : DecidablePred (Claimable now) := fun r => by
  unfold Claimable
  infer_instance

/-- Past its lease with all attempts used. -/
def Stranded (now : Instant) (r : OutboxEvent) : Prop :=
  r.status = .processing ∧ (∃ t ∈ r.claimedAt, t ≤ now-outboxLeaseMs) ∧
    maxOutboxAttempts ≤ r.attempts

instance (now : Instant) : DecidablePred (Stranded now) := fun r => by
  unfold Stranded
  infer_instance

/-- Rows that a locking subquery returns: some of those that match, since it skips
locked ones, and no more than the limit. -/
structure Selects (events : OutboxEvents) (p : OutboxEvent → Prop) (limit : ℕ)
    (picks : List OutboxId) : Prop where
  bounded : picks.length ≤ limit
  distinct : picks.Nodup
  matching : ∀ id ∈ picks, ∃ r ∈ events.rows, r.id = id ∧ p r

instance (events : OutboxEvents) (p : OutboxEvent → Prop) [DecidablePred p] (limit : ℕ)
    (picks : List OutboxId) : Decidable (Selects events p limit picks) :=
  decidable_of_iff (picks.length ≤ limit ∧ picks.Nodup ∧
      ∀ id ∈ picks, ∃ r ∈ events.rows, r.id = id ∧ p r)
    ⟨fun ⟨h, h', h''⟩ => ⟨h, h', h''⟩, fun h => ⟨h.bounded, h.distinct, h.matching⟩⟩

def reapError : String :=
  "Exhausted attempts while stranded in PROCESSING past its lease (reclaim ceiling reached)"

def OutboxEvent.buried (error : String) (r : OutboxEvent) : OutboxEvent :=
  { r with status := .dead, lastError := some error }

def OutboxEvent.claimed (now : Instant) (r : OutboxEvent) : OutboxEvent :=
  { r with status := .processing, attempts := r.attempts+1, claimedAt := some now }

def OutboxEvent.touched (now : Instant) (r : OutboxEvent) : OutboxEvent :=
  { r with claimedAt := some now }

def OutboxEvent.delivered (dispatchedAt : Instant) (r : OutboxEvent) : OutboxEvent :=
  { r with status := .done, dispatchedAt := some dispatchedAt }

def OutboxEvent.requeued (error : String) (nextAttemptAt : Instant) (r : OutboxEvent) :
    OutboxEvent :=
  { r with status := .queued, lastError := some error, nextAttemptAt := some nextAttemptAt }

def reapExhaustedStaleRows (events : OutboxEvents) (batchSize : ℕ) (now : Instant)
    (picks : List OutboxId) : Option OutboxEvents :=
  if Selects events (Stranded now) batchSize picks then
    some (events.updateMany (·.id ∈ picks) (·.buried reapError) fun _ => rfl)
  else none

/-- The claimed rows are returned as they are after the update. -/
def claimBatch (events : OutboxEvents) (batchSize : ℕ) (now : Instant) (picks : List OutboxId) :
    Option (OutboxEvents × List OutboxEvent) :=
  if Selects events (Claimable now) batchSize picks then
    some (events.updateMany (·.id ∈ picks) (·.claimed now) fun _ => rfl,
      (picks.filterMap events.find?).map (·.claimed now))
  else none

/-- The row is still as the worker's claim left it. -/
def HeldBy (event r : OutboxEvent) : Prop :=
  r.id = event.id ∧ r.status = .processing ∧ r.claimedAt = event.claimedAt

instance (event : OutboxEvent) : DecidablePred (HeldBy event) := fun r => by
  unfold HeldBy
  infer_instance

/-- In SQL an empty claim time equals nothing, so such a row is never touched. -/
def touchClaim (events : OutboxEvents) (event : OutboxEvent) (now : Instant) :
    OutboxEvents × Option OutboxEvent :=
  (events.updateMany (fun r => HeldBy event r ∧ event.claimedAt ≠ none) (·.touched now)
      fun _ => rfl,
    (events.rows.find? fun r => HeldBy event r ∧ event.claimedAt ≠ none).map (·.touched now))

def markDone (events : OutboxEvents) (event : OutboxEvent) (dispatchedAt : Instant) :
    OutboxEvents :=
  events.updateMany (HeldBy event) (·.delivered dispatchedAt) fun _ => rfl

def markDead (events : OutboxEvents) (event : OutboxEvent) (error : String) : OutboxEvents :=
  events.updateMany (HeldBy event) (·.buried error) fun _ => rfl

def markRetry (events : OutboxEvents) (event : OutboxEvent) (error : String)
    (nextAttemptAt : Instant) : OutboxEvents :=
  events.updateMany (HeldBy event) (·.requeued error nextAttemptAt) fun _ => rfl

end Statements

section Workers

/-- A call of a row's handler, with the attempt it was made for. -/
structure Invocation where
  id : OutboxId
  attempt : ℕ
  deriving DecidableEq

def OutboxEvent.invocation (event : OutboxEvent) : Invocation := ⟨event.id, event.attempts⟩

structure OutboxShared where
  events : OutboxEvents
  clock : Instant
  invocations : List Invocation
  /-- Invocations that returned without an error. -/
  completions : List Invocation

/-- What is left of a drain. -/
inductive DrainTask where
  | reap (batchSize : ℕ) (now : Instant)
  | claim (batchSize : ℕ) (now : Instant)
  | dispatch (events : List OutboxEvent)
  | touch (event : OutboxEvent) (now : Instant) (rest : List OutboxEvent)
  | find (event : OutboxEvent) (rest : List OutboxEvent)
  /-- The handler is running. -/
  | handle (event : OutboxEvent) (rest : List OutboxEvent)
  | markDone (event : OutboxEvent) (dispatchedAt : Instant) (rest : List OutboxEvent)
  | markDead (event : OutboxEvent) (error : String) (rest : List OutboxEvent)
  | markRetry (event : OutboxEvent) (error : String) (nextAttemptAt : Instant)
      (rest : List OutboxEvent)

/-- The claimed rows a worker still works on. -/
def DrainTask.held : DrainTask → List OutboxEvent
  | .reap _ _ | .claim _ _ => []
  | .dispatch events => events
  | .touch event _ rest | .find event rest | .handle event rest | .markDone event _ rest
  | .markDead event _ rest | .markRetry event _ _ rest => event :: rest

inductive OutboxAction where
  /-- Time passes. -/
  | tick (clock : Instant)
  | publish (id : OutboxId) (event : PublishOutboxEventParams)
  /-- A worker starts to drain. -/
  | drain (batchSize : ℕ)

structure DrainInput where
  /-- The rows the subquery returns. -/
  picks : List OutboxId := []
  /-- What the handler threw. -/
  thrown : Option String := none
  /-- The statement failed or the worker crashed. -/
  fails : Bool := false
  deriving DecidableEq

def OutboxShared.withEvents (s : OutboxShared) (events : OutboxEvents) : OutboxShared :=
  { s with events }

def startDrain (s : OutboxShared) : OutboxAction → Option (OutboxShared × List DrainTask)
  | .tick clock => if s.clock ≤ clock then some ({ s with clock }, []) else none
  | .publish id event => (publish s.events id event).map fun events => (s.withEvents events, [])
  | .drain batchSize => some (s, [.reap batchSize s.clock])

def noHandlerError (type : String) : String := s!"No handler registered for type {type}"

/-- What follows a handler that threw. -/
def afterThrow (s : OutboxShared) (event : OutboxEvent) (rest : List OutboxEvent)
    (message : String) : DrainTask :=
  if maxOutboxAttempts ≤ event.attempts then .markDead event message rest
  else .markRetry event message (s.clock+computeNextAttemptDelayMs event.attempts) rest

/-- The next step of a worker; the clock is read before a statement is sent. -/
def nextStep (hasHandler : String → Bool) (s : OutboxShared) (input : DrainInput) :
    DrainTask → Option (OutboxShared × List DrainTask)
  | .reap batchSize now =>
    (reapExhaustedStaleRows s.events batchSize now input.picks).map fun events =>
      (s.withEvents events, [.claim batchSize now])
  | .claim batchSize now =>
    (claimBatch s.events batchSize now input.picks).map fun (events, claimed) =>
      (s.withEvents events, [.dispatch claimed])
  | .dispatch [] => some (s, [])
  | .dispatch (event :: rest) => some (s, [.touch event s.clock rest])
  | .touch event now rest =>
    let (events, renewed) := touchClaim s.events event now
    some (s.withEvents events,
      [match renewed with
        | none => .dispatch rest
        | some event => .find event rest])
  | .find event rest =>
    if hasHandler event.type then
      some ({ s with invocations := event.invocation :: s.invocations }, [.handle event rest])
    else some (s, [.markDead event (noHandlerError event.type) rest])
  | .handle event rest =>
    match input.thrown with
    | none =>
      some ({ s with completions := event.invocation :: s.completions },
        [.markDone event s.clock rest])
    | some message => some (s, [afterThrow s event rest message])
  | .markDone event dispatchedAt rest =>
    some (s.withEvents (OutboxDrain.markDone s.events event dispatchedAt), [.dispatch rest])
  | .markDead event error rest =>
    some (s.withEvents (OutboxDrain.markDead s.events event error), [.dispatch rest])
  | .markRetry event error nextAttemptAt rest =>
    some (s.withEvents (OutboxDrain.markRetry s.events event error nextAttemptAt),
      [.dispatch rest])

/-- A failure ends the drain, but one of `markDone` is caught. -/
def afterFailure : DrainTask → List DrainTask
  | .markDone _ _ rest => [.dispatch rest]
  | _ => []

def resumeDrain (hasHandler : String → Bool) (s : OutboxShared) (_ : List DrainTask)
    (input : DrainInput) (task : DrainTask) : Option (OutboxShared × List DrainTask) :=
  if input.fails then some (s, afterFailure task) else nextStep hasHandler s input task

def drainSystem (hasHandler : String → Bool) :
    System OutboxShared DrainTask OutboxAction DrainInput where
  event := startDrain
  resume := resumeDrain hasHandler

abbrev OutboxPool := Pool OutboxShared DrainTask
abbrev OutboxStep := PoolAction OutboxAction DrainInput

/-- Nothing was published yet and no worker is draining. -/
structure Initial (p : OutboxPool) : Prop where
  events : p.shared.events = Table.empty
  invocations : p.shared.invocations = []
  completions : p.shared.completions = []
  tasks : p.tasks = []

end Workers

end Kurtar.OutboxDrain

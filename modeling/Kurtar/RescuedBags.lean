import Kurtar.IdempotentLedger
import Kurtar.ImpactEvents
import Kurtar.OutboxOwnership

/-!
# Rescued bags are credited once

The reservation side publishes its impact events into the outbox, workers
claim and dispatch them, and the handler inserts a row into the impact ledger.
The insert is a statement of its own: a worker may crash before it or after
it, and the row may be dispatched again. All other outbox rows come and go as
their producers like.
-/

namespace Kurtar.RescuedBags

open KeyedTable GuardedRuns IstanbulCalendar Marketplace MarketService TaskPools IdempotentLedger
open ImpactEvents
open OutboxDrain hiding Initial publish OutboxEvent

section Impact

def computeMealsSaved (qty : ℤ) : ℤ := qty

def computeCo2eGrams (qty co2ePerBagGrams : ℤ) : ℤ := qty*co2ePerBagGrams

/-- The middle of the estimated values, rounded down, less what was paid. -/
def computeMoneySavedCents (qty totalCents originalValueCentsMin originalValueCentsMax : ℤ) : ℤ :=
  let midpointCents := (originalValueCentsMin+originalValueCentsMax)/2
  let estimatedOriginalCents := midpointCents*qty
  max 0 (estimatedOriginalCents-totalCents)

structure ImpactLine where
  mealsSaved : ℤ
  co2eGrams : ℤ
  moneySavedCents : ℤ
  deriving DecidableEq

def computeImpactLine (payload : ImpactPayload) (co2ePerBagGrams : ℤ) : ImpactLine where
  mealsSaved := computeMealsSaved payload.qty
  co2eGrams := computeCo2eGrams payload.qty co2ePerBagGrams
  moneySavedCents := computeMoneySavedCents payload.qty payload.totalCents
    payload.originalValueCentsMin payload.originalValueCentsMax

/-- A row of the impact ledger. -/
structure ImpactLedger where
  reservationId : ReservationId
  userId : UserId
  storeId : StoreId
  line : ImpactLine
  deriving DecidableEq

/-- The row that the handler inserts. -/
def ledgerRow (payload : ImpactPayload) (co2ePerBagGrams : ℤ) : ImpactLedger where
  reservationId := payload.reservationId
  userId := payload.userId
  storeId := payload.storeId
  line := computeImpactLine payload co2ePerBagGrams

/-- The insert; a second row of one reservation violates the unique constraint,
which the handler takes for done. -/
def createRow (ledger : List ImpactLedger) (row : ImpactLedger) : List ImpactLedger :=
  enter ImpactLedger.reservationId ledger row

/-- Ledger rows book the impact events, whatever the emission factor was. -/
def impactBooking : Booking ReservationId ImpactPayload ImpactLedger where
  key := ImpactPayload.reservationId
  amount := ImpactPayload.qty
  rowKey := ImpactLedger.reservationId
  rowAmount := fun row => row.line.mealsSaved
  Books := fun payload row => ∃ co2ePerBagGrams, row = ledgerRow payload co2ePerBagGrams
  books_key := by
    intro payload row hbooks
    obtain ⟨_, hrow⟩ := hbooks
    rw [hrow, ledgerRow]
  books_amount := by
    intro payload row hbooks
    obtain ⟨_, hrow⟩ := hbooks
    rw [hrow]
    rfl

end Impact

section Site

def reservationRedeemedImpactV1 : String := "reservation.redeemed.impact.v1"

/-- The row that a redeeming transaction adds to the outbox. -/
def impactRow (payload : ImpactPayload) : PublishOutboxEventParams where
  type := reservationRedeemedImpactV1
  payload := s!"\x7b\"reservationId\":{payload.reservationId},\"userId\":{payload.userId}," ++
    s!"\"storeId\":{payload.storeId},\"qty\":{payload.qty},\"totalCents\":{payload.totalCents}," ++
    s!"\"originalValueCentsMin\":{payload.originalValueCentsMin}," ++
    s!"\"originalValueCentsMax\":{payload.originalValueCentsMax}\x7d"
  idempotencyKey := some s!"reservation-redeemed-impact:{payload.reservationId}"

/-- The reservation side, the outbox with its workers, and the ledger. -/
structure Site where
  world : World
  pool : OutboxPool
  /-- The impact rows of the outbox, as their handler reads them. -/
  payloads : List (OutboxId × ImpactPayload)
  ledger : List ImpactLedger
  /-- The handler calls whose insert the database has carried out. -/
  credited : List Invocation

inductive SiteAction where
  /-- A step of the reservation side, and the ids of the impact rows it adds. -/
  | market (a : Action) (ids : List OutboxId)
  | outbox (a : OutboxStep)
  /-- The database carries out the insert of the handler that a worker runs. -/
  | create (index : ℕ) (co2ePerBagGrams : ℤ)

/-- The payloads published since. -/
def newPayloads (m m' : Market) : List ImpactPayload :=
  (impactPayloads m').take ((impactPayloads m').length-(impactPayloads m).length)

/-- Add rows to the outbox in one transaction. -/
def publishRows (hasHandler : String → Bool) (pool : OutboxPool)
    (rows : List (OutboxId × ImpactPayload)) : Option OutboxPool :=
  run (drainSystem hasHandler).step pool
    (rows.map fun p => .event (.publish p.1 (impactRow p.2)))

def payloadAt (payloads : List (OutboxId × ImpactPayload)) (id : OutboxId) :
    Option ImpactPayload :=
  (payloads.find? fun p => p.1 = id).map Prod.snd

/-- Other producers publish other types, and the impact handler returns only
after its insert. -/
def Allowed (s : Site) : OutboxStep → Prop
  | .event (.publish _ params) => params.type ≠ reservationRedeemedImpactV1
  | .event _ => True
  | .resume index input =>
    match s.pool.tasks[index]? with
    | some (.handle event _) =>
      (payloadAt s.payloads event.id).isSome → input.fails = false → input.thrown = none →
        event.invocation ∈ s.credited
    | _ => True

instance (s : Site) : DecidablePred (Allowed s) := fun a => by
  unfold Allowed
  split
  · infer_instance
  · infer_instance
  · split <;> infer_instance

def siteStep (hasHandler : String → Bool) (s : Site) : SiteAction → Option Site
  | .market a ids =>
    match step s.world a with
    | none => none
    | some world =>
      let news := newPayloads s.world.market world.market
      if ids.length = news.length then
        (publishRows hasHandler s.pool (ids.zip news)).map fun pool =>
          { s with world, pool, payloads := ids.zip news ++ s.payloads }
      else none
  | .outbox a =>
    if Allowed s a then ((drainSystem hasHandler).step s.pool a).map fun pool => { s with pool }
    else none
  | .create index co2ePerBagGrams =>
    match s.pool.tasks[index]? with
    | some (.handle event _) =>
      (payloadAt s.payloads event.id).map fun payload =>
        { s with
          ledger := createRow s.ledger (ledgerRow payload co2ePerBagGrams)
          credited := event.invocation :: s.credited }
    | _ => none

/-- No offer was made yet and nothing was published. -/
structure Initial (s : Site) : Prop where
  world : Unannounced s.world
  pool : OutboxDrain.Initial s.pool
  payloads : s.payloads = []
  ledger : s.ledger = []
  credited : s.credited = []

/-- The outbox rows for which an insert was carried out. -/
def handledIds (s : Site) : List OutboxId := s.credited.map (·.id)

/-- The redemption events not yet successfully handled. -/
def unhandled (s : Site) : List (OutboxId × ImpactPayload) := pending s.payloads (handledIds s)

end Site

section Outbox

variable {hasHandler : String → Bool} {p q : OutboxPool}

/-- Rows stay in the outbox, and returned calls in its history. -/
def Stored (p : OutboxPool) (id : OutboxId) : Prop := ∃ r ∈ p.shared.events.rows, r.id = id

theorem stored_step {a : OutboxStep} {id : OutboxId} (h : OutboxOwnership.PoolSound p)
    (hstep : (drainSystem hasHandler).step p a = some q) (hid : Stored p id) : Stored q id := by
  obtain ⟨r, hr, hrid⟩ := hid
  obtain ⟨r', hr', hmoves⟩ := (OutboxOwnership.later_step h hstep).rows r hr
  exact ⟨r', hr', hmoves.same_id.trans hrid⟩

/-- A publication takes an id that no row has yet, and returns no call. -/
theorem publish_step {id : OutboxId} {params : PublishOutboxEventParams}
    (hstep : (drainSystem hasHandler).step p (.event (.publish id params)) = some q) :
    ¬ Stored p id ∧ Stored q id ∧ q.shared.completions = p.shared.completions := by
  obtain ⟨s', started, hstart, rfl⟩ := event_eq_some hstep
  obtain ⟨events, hpublish, heq⟩ := Option.map_eq_some_iff.mp hstart
  cases heq
  unfold OutboxDrain.publish at hpublish
  split_ifs at hpublish with htaken
  cases hpublish
  refine ⟨?_, ?_, rfl⟩
  · intro hstored
    obtain ⟨r, hr, hid⟩ := hstored
    exact htaken ⟨r, hr, .inl hid⟩
  · refine ⟨_, Table.mem_insertNew.mpr (.inr ⟨rfl, ?_⟩), rfl⟩
    exact fun r hr hid => htaken ⟨r, hr, .inl hid⟩

/-- An event returns no handler call. -/
theorem completions_started {a : OutboxAction} {s s' : OutboxShared} {left : List DrainTask}
    (h : startDrain s a = some (s', left)) : s'.completions = s.completions := by
  cases a with
  | tick clock =>
    simp only [startDrain] at h
    split_ifs at h
    cases h
    rfl
  | publish id params =>
    obtain ⟨events, _, heq⟩ := Option.map_eq_some_iff.mp h
    cases heq
    rfl
  | drain batchSize =>
    cases h
    rfl

/-- Only a handler that did not throw returns its call. -/
theorem completions_next {task : DrainTask} {input : DrainInput} {s s' : OutboxShared}
    {left : List DrainTask} (h : nextStep hasHandler s input task = some (s', left)) :
    s'.completions = s.completions ∨ ∃ event rest, task = .handle event rest ∧
      input.thrown = none ∧ s'.completions = event.invocation :: s.completions := by
  cases task with
  | handle event rest =>
    simp only [nextStep] at h
    split at h
    · rename_i hthrown
      cases h
      exact .inr ⟨event, rest, rfl, hthrown, rfl⟩
    · cases h
      exact .inl rfl
  | reap batchSize now =>
    obtain ⟨events, _, heq⟩ := Option.map_eq_some_iff.mp h
    cases heq
    exact .inl rfl
  | claim batchSize now =>
    obtain ⟨claimed, _, heq⟩ := Option.map_eq_some_iff.mp h
    cases heq
    exact .inl rfl
  | dispatch events =>
    cases events with
    | nil =>
      cases h
      exact .inl rfl
    | cons event rest =>
      cases h
      exact .inl rfl
  | find event rest =>
    simp only [nextStep] at h
    split_ifs at h
    · cases h
      exact .inl rfl
    · cases h
      exact .inl rfl
  | touch | markDone | markDead | markRetry =>
    cases h
    exact .inl rfl

/-- What the history of returned calls gains in one step. -/
theorem completions_step {a : OutboxStep} (hstep : (drainSystem hasHandler).step p a = some q) :
    q.shared.completions = p.shared.completions ∨
      ∃ index input event rest, a = .resume index input ∧
        p.tasks[index]? = some (.handle event rest) ∧ input.fails = false ∧
          input.thrown = none ∧ q.shared.completions = event.invocation :: p.shared.completions := by
  cases a with
  | event e =>
    obtain ⟨s', started, hstart, rfl⟩ := event_eq_some hstep
    exact .inl (completions_started hstart)
  | resume index input =>
    obtain ⟨task, s', left, hget, hresume, rfl⟩ := resume_eq_some hstep
    simp only [drainSystem, resumeDrain] at hresume
    split_ifs at hresume with hfails
    · cases hresume
      exact .inl rfl
    · have hok : input.fails = false := by simpa using hfails
      rcases completions_next hresume with hsame | ⟨event, rest, htask, hthrown, hadded⟩
      · exact .inl hsame
      · rw [htask] at hget
        exact .inr ⟨index, input, event, rest, rfl, hget, hok, hthrown, hadded⟩

/-- The row whose handler runs is in the outbox. -/
theorem stored_of_handle {index : ℕ} {event : OutboxDrain.OutboxEvent}
    {rest : List OutboxDrain.OutboxEvent} (h : OutboxOwnership.PoolSound p)
    (hget : p.tasks[index]? = some (.handle event rest)) : Stored p event.id := by
  obtain ⟨r, hr, hid, _⟩ :=
    ((h.each _ (List.mem_of_getElem? hget)).held event List.mem_cons_self).stored
  exact ⟨r, hr, hid⟩

end Outbox

section Payloads

variable {payloads : List (OutboxId × ImpactPayload)} {id : OutboxId} {p : ImpactPayload}

theorem mem_of_payloadAt (h : payloadAt payloads id = some p) : (id, p) ∈ payloads := by
  obtain ⟨q, hfind, hq⟩ := Option.map_eq_some_iff.mp h
  have hid : q.1 = id := by simpa using List.find?_some hfind
  rw [← hid, ← hq]
  exact List.mem_of_find?_eq_some hfind

theorem payloadAt_isSome (h : id ∈ payloads.map Prod.fst) : (payloadAt payloads id).isSome := by
  obtain ⟨q, hq, hid⟩ := List.mem_map.mp h
  rw [payloadAt, Option.isSome_map, List.find?_isSome]
  exact ⟨q, hq, by simpa using hid⟩

end Payloads

/-- What every reachable site satisfies. -/
structure SiteSound (hasHandler : String → Bool) (s : Site) : Prop where
  world : Reachable step anyStep Unannounced s.world
  pool : Reachable (drainSystem hasHandler).step anyStep OutboxDrain.Initial s.pool
  payloads : s.payloads.map Prod.snd = impactPayloads s.world.market
  stored : ∀ p ∈ s.payloads, Stored s.pool p.1
  returned : ∀ c ∈ s.pool.shared.completions, Stored s.pool c.id
  books : Balanced impactBooking s.payloads s.ledger (handledIds s)
  completed : ∀ c ∈ s.pool.shared.completions, c.id ∈ s.payloads.map Prod.fst → c ∈ s.credited

section Steps

variable {hasHandler : String → Bool} {s s' : Site}

theorem newPayloads_of_eq {m m' : Market} (h : impactPayloads m' = impactPayloads m) :
    newPayloads m m' = [] := by
  rw [newPayloads, h, Nat.sub_self, List.take_zero]

theorem newPayloads_of_cons {m m' : Market} {p : ImpactPayload}
    (h : impactPayloads m' = p :: impactPayloads m) : newPayloads m m' = [p] := by
  have hlength : (p :: impactPayloads m).length-(impactPayloads m).length = 1 := by
    rw [List.length_cons]
    omega
  rw [newPayloads, h, hlength]
  rfl

/-- A step of the reservation side without an impact event. -/
theorem sound_quiet {world : World} (hs : SiteSound hasHandler s)
    (hworld : Reachable step anyStep Unannounced world)
    (hpayloads : impactPayloads world.market = impactPayloads s.world.market) :
    SiteSound hasHandler { s with world } where
  world := hworld
  pool := hs.pool
  payloads := hs.payloads.trans hpayloads.symm
  stored := hs.stored
  returned := hs.returned
  books := hs.books
  completed := hs.completed

/-- A step of the reservation side with the impact event of one reservation. -/
theorem sound_published {world : World} {id : OutboxId} {p : ImpactPayload} {pool : OutboxPool}
    (hs : SiteSound hasHandler s) (hworld : Reachable step anyStep Unannounced world)
    (hpayloads : impactPayloads world.market = p :: impactPayloads s.world.market)
    (hstep : (drainSystem hasHandler).step s.pool (.event (.publish id (impactRow p))) =
      some pool) :
    SiteSound hasHandler { s with world, pool, payloads := (id, p) :: s.payloads } := by
  have hpool := OutboxOwnership.poolSound_of_reachable hs.pool
  obtain ⟨hfresh, hstored, hcompletions⟩ := publish_step hstep
  have hnew : id ∉ s.payloads.map Prod.fst := by
    intro hmem
    obtain ⟨q, hq, hid⟩ := List.mem_map.mp hmem
    exact hfresh (hid ▸ hs.stored q hq)
  have honce := (announced_of_reachable hworld).2.2.once
  rw [hpayloads, ← hs.payloads, List.map_cons, List.map_map] at honce
  have hkey := (List.nodup_cons.mp honce).1
  constructor
  · exact hworld
  · exact hs.pool.next trivial hstep
  · rw [List.map_cons, hs.payloads, hpayloads]
  · intro q hq
    rcases List.mem_cons.mp hq with heq | hq
    · rw [heq]
      exact hstored
    · exact stored_step hpool hstep (hs.stored q hq)
  · dsimp only
    rw [hcompletions]
    exact fun c hc => stored_step hpool hstep (hs.returned c hc)
  · exact hs.books.publish hnew hkey
  · dsimp only
    rw [hcompletions]
    intro c hc hid
    rcases List.mem_cons.mp hid with heq | hid
    · have hstoredBefore : Stored s.pool (id, p).1 := heq ▸ hs.returned c hc
      exact absurd hstoredBefore hfresh
    · exact hs.completed c hc hid

theorem sound_market {a : Action} {ids : List OutboxId} (hs : SiteSound hasHandler s)
    (h : siteStep hasHandler s (.market a ids) = some s') : SiteSound hasHandler s' := by
  simp only [siteStep] at h
  cases hstep : step s.world a with
  | none => simp [hstep] at h
  | some world =>
    simp only [hstep] at h
    have hworld : Reachable step anyStep Unannounced world := hs.world.next trivial hstep
    have himpact := impactStep (announced_of_reachable hs.world).1 hstep
    rcases himpact.published with hsame | ⟨p, hcons⟩
    · rw [newPayloads_of_eq hsame] at h
      split_ifs at h with hlength
      rw [List.eq_nil_of_length_eq_zero hlength] at h
      cases h
      exact sound_quiet hs hworld hsame
    · rw [newPayloads_of_cons hcons] at h
      split_ifs at h with hlength
      obtain ⟨id, hid⟩ := List.length_eq_one_iff.mp hlength
      rw [hid] at h
      obtain ⟨pool, hrun, heq⟩ := Option.map_eq_some_iff.mp h
      cases heq
      have hpublish : (drainSystem hasHandler).step s.pool (.event (.publish id (impactRow p))) =
          some pool := by
        have hone : run (drainSystem hasHandler).step s.pool
            [.event (.publish id (impactRow p))] = some pool := hrun
        rw [run] at hone
        cases hfirst : (drainSystem hasHandler).step s.pool (.event (.publish id (impactRow p))) with
        | none => simp [hfirst] at hone
        | some q =>
          rw [hfirst] at hone
          exact hone
      exact sound_published hs hworld hcons hpublish

theorem sound_outbox {a : OutboxStep} (hs : SiteSound hasHandler s)
    (h : siteStep hasHandler s (.outbox a) = some s') : SiteSound hasHandler s' := by
  simp only [siteStep] at h
  split_ifs at h with hallowed
  obtain ⟨pool, hstep, heq⟩ := Option.map_eq_some_iff.mp h
  cases heq
  have hpool := OutboxOwnership.poolSound_of_reachable hs.pool
  refine ⟨hs.world, hs.pool.next trivial hstep, hs.payloads, ?_, ?_, hs.books, ?_⟩
  · exact fun p hp => stored_step hpool hstep (hs.stored p hp)
  · intro c hc
    dsimp only at hc
    rcases completions_step hstep with hsame | ⟨_, _, event, rest, _, hget, _, _, hadded⟩
    · rw [hsame] at hc
      exact stored_step hpool hstep (hs.returned c hc)
    · rw [hadded] at hc
      rcases List.mem_cons.mp hc with heq | hc
      · rw [heq]
        exact stored_step hpool hstep (stored_of_handle hpool hget)
      · exact stored_step hpool hstep (hs.returned c hc)
  · intro c hc hid
    dsimp only at hc
    rcases completions_step hstep with hsame | ⟨index, input, event, rest, ha, hget, hok, hthrown, hadded⟩
    · rw [hsame] at hc
      exact hs.completed c hc hid
    · rw [hadded] at hc
      rcases List.mem_cons.mp hc with heq | hc
      · rw [ha] at hallowed
        simp only [Allowed, hget] at hallowed
        rw [heq] at hid ⊢
        exact hallowed (payloadAt_isSome hid) hok hthrown
      · exact hs.completed c hc hid

theorem sound_create {index : ℕ} {co2ePerBagGrams : ℤ} (hs : SiteSound hasHandler s)
    (h : siteStep hasHandler s (.create index co2ePerBagGrams) = some s') :
    SiteSound hasHandler s' := by
  simp only [siteStep] at h
  split at h
  · rename_i event rest _
    obtain ⟨payload, hpayload, heq⟩ := Option.map_eq_some_iff.mp h
    cases heq
    refine ⟨hs.world, hs.pool, hs.payloads, hs.stored, hs.returned, ?_, ?_⟩
    · exact hs.books.deliver (p := (event.id, payload)) (mem_of_payloadAt hpayload)
        ⟨co2ePerBagGrams, rfl⟩
    · exact fun c hc hid => List.mem_cons_of_mem _ (hs.completed c hc hid)
  · cases h

theorem siteSound_of_reachable (h : Reachable (siteStep hasHandler) anyStep Initial s) :
    SiteSound hasHandler s := by
  refine h.invariant ?_ ?_
  · intro s hs
    constructor
    · exact .start hs.world
    · exact .start hs.pool
    · rw [hs.payloads, impactPayloads, PickupFrame.impactEvents, hs.world.2]
      rfl
    · rw [hs.payloads]
      exact fun p hp => absurd hp List.not_mem_nil
    · rw [hs.pool.completions]
      exact fun c hc => absurd hc List.not_mem_nil
    · rw [hs.payloads, hs.ledger, handledIds, hs.credited]
      exact balanced_nil
    · rw [hs.pool.completions]
      exact fun c hc => absurd hc List.not_mem_nil
  · intro s a s' hs _ hstep
    cases a with
    | market a ids => exact sound_market hs hstep
    | outbox a => exact sound_outbox hs hstep
    | create index co2ePerBagGrams => exact sound_create hs hstep

end Steps

/-- Redeemed bags, ledger rows and unhandled events agree. -/
structure CreditedOnce (s : Site) : Prop where
  once : (s.ledger.map (·.reservationId)).Nodup
  /-- Each row is that of the event of a redeemed reservation. -/
  redeemed : ∀ row ∈ s.ledger, ∃ r ∈ s.world.market.reservations.rows,
    r.id = row.reservationId ∧ r.status = .redeemed ∧ row.line.mealsSaved = r.qty ∧
      0 ≤ row.line.moneySavedCents ∧ ∃ payload ∈ s.payloads.map Prod.snd, Announces payload r ∧
        row.line.moneySavedCents = computeMoneySavedCents r.qty r.totalCents
          payload.originalValueCentsMin payload.originalValueCentsMax
  total : (s.world.market.offers.rows.map (·.qtyRedeemed)).sum =
    (s.ledger.map (·.line.mealsSaved)).sum+((unhandled s).map (·.2.qty)).sum
  /-- The events of all redeemed reservations are in the outbox, one for each. -/
  published : ∀ r ∈ s.world.market.reservations.rows, r.status = .redeemed →
    (s.payloads.filter fun p => p.2.reservationId = r.id).length = 1
  /-- A call of the handler that returned has handled its event. -/
  completed : ∀ c ∈ s.pool.shared.completions, ∀ p ∈ s.payloads, p.1 = c.id → p ∉ unhandled s

/-- In every run of the reservation side, the outbox workers and the handler,
with crashes, retries and repeated dispatch, each redeemed reservation has at
most one ledger row, with its own quantity and saving, and the offers count as
redeemed what the ledger holds and what was not handled yet. -/
theorem bags_credited_once (hasHandler : String → Bool) (s : Site)
    (h : Reachable (siteStep hasHandler) anyStep Initial s) : CreditedOnce s := by
  have hs := siteSound_of_reachable h
  obtain ⟨hworld, _, hannounced⟩ := announced_of_reachable hs.world
  constructor
  · exact hs.books.once
  · intro row hrow
    obtain ⟨p, hp, _, co2ePerBagGrams, hline⟩ := hs.books.booked row hrow
    have hpayload : p.2 ∈ impactPayloads s.world.market := by
      rw [← hs.payloads]
      exact List.mem_map.mpr ⟨p, hp, rfl⟩
    obtain ⟨r, hr, hstatus, hannounces⟩ := hannounced.collected p.2 hpayload
    have hmoney : row.line.moneySavedCents = computeMoneySavedCents r.qty r.totalCents
        p.2.originalValueCentsMin p.2.originalValueCentsMax := by
      rw [hline, ← hannounces.qty, ← hannounces.totalCents]
      rfl
    refine ⟨r, hr, ?_, hstatus, ?_, ?_, p.2, List.mem_map.mpr ⟨p, hp, rfl⟩, hannounces, hmoney⟩
    · rw [hline]
      exact hannounces.reservationId.symm
    · rw [hline]
      exact hannounces.qty
    · rw [hmoney]
      exact le_max_left _ _
  · have htotal := hs.books.total
    have hqty : (s.payloads.map fun p => impactBooking.amount p.2) =
        (impactPayloads s.world.market).map (·.qty) := by
      rw [← hs.payloads, List.map_map]
      rfl
    rw [hqty, hannounced.total, ← sum_qtyRedeemed hworld.consistent] at htotal
    exact htotal
  · intro r hr hstatus
    obtain ⟨payload, hpayload, hannounces⟩ := hannounced.announced r hr hstatus
    rw [← hs.payloads] at hpayload
    have hcount : (s.payloads.map fun p => p.2.reservationId).count r.id = 1 := by
      refine List.count_eq_one_of_mem hs.books.keys ?_
      obtain ⟨p, hp, heq⟩ := List.mem_map.mp hpayload
      exact List.mem_map.mpr ⟨p, hp, by rw [heq]; exact hannounces.reservationId⟩
    rw [List.count_eq_countP, List.countP_map, List.countP_eq_length_filter] at hcount
    exact hcount
  · intro c hc p hp hid hmem
    have hcredited := hs.completed c hc (List.mem_map.mpr ⟨p, hp, hid⟩)
    have hnew := (List.mem_filter.mp hmem).2
    have hhandled : p.1 ∈ handledIds s := List.mem_map.mpr ⟨c, hcredited, hid.symm⟩
    simp [hhandled] at hnew

section Sample

def sampleSite : Site := ⟨sampleWorld, OutboxOwnership.samplePool, [], [], []⟩

theorem sampleSite_initial : Initial sampleSite :=
  ⟨⟨sampleWorld_initial, rfl⟩, OutboxOwnership.samplePool_initial, rfl, rfl, rfl⟩

/-- Two bags are paid for and collected; the impact event is row 7. -/
def collected : List SiteAction :=
  (openOffer 5 ++ book 1 2 0 ++ pay 1 10000 0 ++ [Action.redeem (.consumer 1) 1 (10*hourMs)]).map
      (fun a => .market a []) ++ [.market (proceed (10*hourMs)) [7]]

/-- A worker claims the row, and its handler inserts. -/
def dispatched (clock : Instant) : List SiteAction :=
  [.outbox (.event (.tick clock)), .outbox (.event (.drain outboxBatchSize)),
    .outbox (.resume 0 {}), .outbox (.resume 0 { picks := [7] })] ++
    List.replicate 3 (.outbox (.resume 0 {})) ++ [.create 0 2500]

/-- The first worker crashes after its insert; the row is dispatched again. -/
def dispatchedTwice : List SiteAction :=
  collected ++ dispatched (10*hourMs) ++ [.outbox (.resume 0 { fails := true })] ++
    dispatched (10*hourMs+outboxLeaseMs) ++ [.outbox (.resume 0 {})]

/-- The bags are credited once, with what they were worth above their price. -/
theorem bags_credited_once_dispatchedTwice :
    ∃ s, Reachable (siteStep fun _ => true) anyStep Initial s ∧
      s.credited = [⟨7, 2⟩, ⟨7, 1⟩] ∧ s.pool.shared.completions = [⟨7, 2⟩] ∧
      s.ledger = [⟨1, 1, 1, ⟨2, 5000, 15000⟩⟩] ∧ unhandled s = [] ∧ CreditedOnce s := by
  have hs : Reachable (siteStep fun _ => true) anyStep Initial
      (after (siteStep fun _ => true) sampleSite dispatchedTwice) :=
    reachable_after (.start sampleSite_initial) (by decide +kernel)
  exact ⟨_, hs, by decide +kernel, by decide +kernel, by decide +kernel, by decide +kernel,
    bags_credited_once (fun _ => true) _ hs⟩

end Sample

end Kurtar.RescuedBags

import Kurtar.RedeemQueue
import Kurtar.StatusTransitions

/-!
# Swiping where the signal dies

A swipe asks the server to redeem the reservation. When the call fails on the
network it may still reach the server, now or later; the swipe is queued on
the device and the screens only read from then on. Staff, the no-show sweep
and cancellations move reservations at the server meanwhile. Requests and
answers may be late or never arrive; an answer is as old as the moment the
server gave it.
-/

namespace Kurtar.RedeemReconciliation

open GuardedRuns StatusTransitions RedeemQueue

variable {ρ : Type*}

/-- `KESINLESMIS_DURUMLAR` -/
def finalStatuses : List ReservationStatus :=
  [.redeemed, .noShow, .cancelledByUser, .cancelledByMerchant, .expired]

def POLL_INTERVAL_MS : ℕ := 4000

/-- A reservation at the server. -/
structure ServerReservation where
  status : ReservationStatus
  redeemedAt : Option ℤ
  pickupStartAt : ℤ
  pickupEndAt : ℤ

inductive RedeemReply where
  | success (redeemedAt : Option ℤ)
  | refused
deriving DecidableEq

/-- `redeem` before its transaction; none when it goes on. -/
def checkRedeem (reservation : ServerReservation) (now : ℤ) : Option RedeemReply :=
  if reservation.status = .redeemed then some (.success reservation.redeemedAt)
  else if reservation.status ∉ allowedReservationFrom .redeemed then some .refused
  else if now < reservation.pickupStartAt then some .refused
  else if now > reservation.pickupEndAt then some .refused
  else none

/-- The transaction of `redeem`. -/
def writeRedeem (reservation : ServerReservation) (attemptedAt : ℤ) : ServerReservation × RedeemReply :=
  if reservation.status ∈ allowedReservationFrom .redeemed then
    ({ reservation with status := .redeemed, redeemedAt := some attemptedAt },
      .success (some attemptedAt))
  else if reservation.status = .redeemed then
    (reservation, .success reservation.redeemedAt)
  else (reservation, .refused)

/-- What the server does with a redeem request it has received. -/
inductive RedeemStage where
  | sent
  /-- Checked; the transaction comes next. -/
  | checked
  | answered (reply : RedeemReply)
deriving DecidableEq

/-- `POST /reservations/:id/redeem`, sent by a swipe. -/
structure RedeemCall (ρ : Type*) where
  screen : ℕ
  reservationId : ρ
  stage : RedeemStage
  /-- The screen is still waiting for the answer. -/
  awaited : Bool

/-- A reservation as `GET /reservations/mine` lists it. -/
structure Listed where
  status : ReservationStatus
  redeemedAt : Option ℤ
deriving DecidableEq

/-- The reservations of one answer; those beyond its page are missing. -/
abbrev Snapshot (ρ : Type*) := ρ → Option Listed

/-- A read under way: of the shared query, or of a sync with the queue it has read. -/
structure ReadCall (ρ : Type*) where
  pending : Option (List ρ)
  answer : Option (Snapshot ρ)

/-- The state of `useRedeemReconciliation`. -/
structure Screen (ρ : Type*) where
  reservationId : ρ
  queueChecked : Bool
  queued : Bool
  redeemedAtDirect : Option ℤ
  /-- The queueing calls it waits for. -/
  queueing : List ℕ

/-- A `reconcileOnce` that has its answer and clears what was redeemed, one after
the other. -/
structure Sync (ρ : Type*) where
  clearing : Option ℕ
  rest : List ρ

structure World (ρ : Type*) where
  server : ρ → ServerReservation
  device : Device ρ
  /-- The cached data of the shared query. -/
  cache : Snapshot ρ
  screens : List (Screen ρ)
  redeems : List (RedeemCall ρ)
  reads : List (ReadCall ρ)
  syncs : List (Sync ρ)

/-- The interval at which a screen goes on polling; none when it stops. -/
def refetchInterval (cache : Snapshot ρ) (reservationId : ρ) : Option ℕ :=
  match cache reservationId with
  | some mine => if mine.status ∈ finalStatuses then none else some POLL_INTERVAL_MS
  | none => some POLL_INTERVAL_MS

/-- `reconciledViaPoll` -/
def listedRedeemed (cache : Snapshot ρ) (reservationId : ρ) : Bool :=
  (cache reservationId).any fun mine => mine.status = .redeemed

def Screen.reconciled (s : Screen ρ) (cache : Snapshot ρ) : Bool :=
  s.redeemedAtDirect.isSome || listedRedeemed cache s.reservationId

/-- The redeem time that the screen shows. -/
def Screen.redeemedAt (s : Screen ρ) (cache : Snapshot ρ) : Option ℤ :=
  s.redeemedAtDirect.or ((cache s.reservationId).bind (·.redeemedAt))

/-- A call on the stored queue begins. -/
def enter (kind : CallKind) (d : Device ρ) (r : ρ) : Device ρ :=
  { d with
    steps := d.steps+1
    calls := d.calls ++ [⟨kind, r, d.steps+1, .reading⟩] }

/-- The page of an answer. -/
def list (server : ρ → ServerReservation) (page : ρ → Bool) : Snapshot ρ := fun r =>
  if page r then some ⟨(server r).status, (server r).redeemedAt⟩ else none

/-- New data of the shared query. A screen that finds its reservation redeemed
clears it from the queue. -/
def World.setQueryData (w : World ρ) (data : Snapshot ρ) : World ρ :=
  let reconciled := w.screens.filter fun s =>
    !listedRedeemed w.cache s.reservationId && listedRedeemed data s.reservationId
  { w with
    cache := data
    device := (reconciled.map (·.reservationId)).foldl (enter .clearQueued) w.device }

inductive Action (ρ : Type*) where
  | openScreen (r : ρ)
  /-- `getQueuedConfirmation` of a screen returns. -/
  | queueRead (screen : ℕ)
  | confirm (screen : ℕ)
  | check (call : ℕ) (now : ℤ)
  | write (call : ℕ) (attemptedAt : ℤ)
  /-- The call fails on the network, whatever becomes of it at the server. -/
  | fail (call : ℕ)
  | receive (call : ℕ)
  /-- `queueLocalConfirmation` returns to its screen. -/
  | setQueued (screen index : ℕ)
  /-- The shared query is fetched, by a poll or by anybody else. -/
  | fetch
  | reconcileOnce (pending : List ρ)
  | answer (read : ℕ) (page : ρ → Bool)
  | receiveRead (read : ℕ)
  | syncNext (sync : ℕ)
  /-- Staff, a sweep or a cancellation moves a reservation. -/
  | serverMove (r : ρ) (target : ReservationStatus) (at_ : ℤ)
  | resume (index : ℕ)
  | tick (ms : ℤ)
  /-- The app is stopped; what the server has received goes on. -/
  | restart

def World.setScreen (w : World ρ) (screen : ℕ) (s : Screen ρ) : World ρ :=
  { w with screens := w.screens.set screen s }

def World.setRead (w : World ρ) (read : ℕ) (c : ReadCall ρ) : World ρ :=
  { w with reads := w.reads.set read c }

section Step

variable [DecidableEq ρ]

def World.setServer (w : World ρ) (r : ρ) (reservation : ServerReservation) : World ρ :=
  { w with server := Function.update w.server r reservation }

def World.setRedeem (w : World ρ) (call : ℕ) (c : RedeemCall ρ) : World ρ :=
  { w with redeems := w.redeems.set call c }

def openScreen (w : World ρ) (r : ρ) : World ρ :=
  { w with
    screens := w.screens ++ [⟨r, false, false, none, []⟩]
    device := if listedRedeemed w.cache r then enter .clearQueued w.device r else w.device }

/-- The answer of a redeem call reaches its screen. -/
def receive (w : World ρ) (call : ℕ) (c : RedeemCall ρ) (s : Screen ρ) : RedeemReply → World ρ
  | .success redeemedAt =>
    { (w.setRedeem call { c with awaited := false }) with
      screens := w.screens.set c.screen { s with redeemedAtDirect := redeemedAt }
      device := enter .clearQueued w.device c.reservationId }
  | .refused => w.setRedeem call { c with awaited := false }

/-- The network error of a redeem call reaches its screen: the swipe is queued. -/
def fail (w : World ρ) (call : ℕ) (c : RedeemCall ρ) (s : Screen ρ) : World ρ :=
  { (w.setRedeem call { c with awaited := false }) with
    screens := w.screens.set c.screen { s with queueing := w.device.calls.length :: s.queueing }
    device := enter .queueLocal w.device c.reservationId }

/-- A read answered at the server reaches its reader. -/
def receiveRead (w : World ρ) (read : ℕ) (c : ReadCall ρ) (data : Snapshot ρ) : World ρ :=
  let w := { w with reads := w.reads.eraseIdx read }
  match c.pending with
  | none => w.setQueryData data
  | some pending =>
    { (w.setQueryData data) with
      syncs := w.syncs ++ [⟨none, pending.filter fun r => listedRedeemed data r⟩] }

/-- The app is stopped, with all it had in memory. -/
def restart (w : World ρ) : World ρ :=
  { w with
    device :=
      { w.device with steps := w.device.steps+1, calls := w.device.calls.filter Call.isEnded }
    cache := fun _ => none
    screens := []
    redeems := w.redeems.map fun c => { c with awaited := false }
    reads := []
    syncs := [] }

/-- The call on the stored queue has ended. -/
def hasEnded (d : Device ρ) (index : ℕ) : Bool := d.calls[index]?.any Call.isEnded

def step (w : World ρ) : Action ρ → Option (World ρ)
  | .openScreen r => some (openScreen w r)
  | .queueRead screen =>
    match w.screens[screen]? with
    | none => none
    | some s =>
      some (w.setScreen screen
        { s with queueChecked := true, queued := (w.device.entry s.reservationId).isSome })
  | .confirm screen =>
    match w.screens[screen]? with
    | none => none
    | some s =>
      some { w with redeems := w.redeems ++ [⟨screen, s.reservationId, .sent, true⟩] }
  | .check call now =>
    match w.redeems[call]? with
    | none => none
    | some c =>
      if c.stage = .sent then
        match checkRedeem (w.server c.reservationId) now with
        | some reply => some (w.setRedeem call { c with stage := .answered reply })
        | none => some (w.setRedeem call { c with stage := .checked })
      else none
  | .write call attemptedAt =>
    match w.redeems[call]? with
    | none => none
    | some c =>
      if c.stage = .checked then
        let outcome := writeRedeem (w.server c.reservationId) attemptedAt
        some ((w.setServer c.reservationId outcome.1).setRedeem call
          { c with stage := .answered outcome.2 })
      else none
  | .fail call =>
    match w.redeems[call]? with
    | none => none
    | some c =>
      if c.awaited then (w.screens[c.screen]?).map (fail w call c) else none
  | .receive call =>
    match w.redeems[call]? with
    | none => none
    | some c =>
      match c.awaited, c.stage with
      | true, .answered reply => (w.screens[c.screen]?).map fun s => receive w call c s reply
      | _, _ => none
  | .setQueued screen index =>
    match w.screens[screen]? with
    | none => none
    | some s =>
      if index ∈ s.queueing ∧ hasEnded w.device index then
        some (w.setScreen screen { s with queued := true, queueing := s.queueing.erase index })
      else none
  | .fetch => some { w with reads := w.reads ++ [⟨none, none⟩] }
  | .reconcileOnce pending =>
    if pending ≠ [] ∧ ∀ r ∈ pending, (w.device.entry r).isSome then
      some { w with reads := w.reads ++ [⟨some pending, none⟩] }
    else none
  | .answer read page =>
    match w.reads[read]? with
    | none => none
    | some c => some (w.setRead read { c with answer := some (list w.server page) })
  | .receiveRead read =>
    match w.reads[read]? with
    | none => none
    | some c => c.answer.map (receiveRead w read c)
  | .syncNext sync =>
    match w.syncs[sync]? with
    | none => none
    | some s =>
      match s.rest with
      | [] => none
      | r :: rest =>
        if s.clearing.all fun index => hasEnded w.device index then
          some { w with
            syncs := w.syncs.set sync ⟨some w.device.calls.length, rest⟩
            device := enter .clearQueued w.device r }
        else none
  | .serverMove r target at_ =>
    if target ∈ reservationTransitions (w.server r).status then
      some (w.setServer r
        { w.server r with
          status := target
          redeemedAt := if target = .redeemed then some at_ else (w.server r).redeemedAt })
    else none
  | .resume index =>
    (RedeemQueue.step w.device (.resume index)).map fun device => { w with device }
  | .tick ms => (RedeemQueue.step w.device (.tick ms)).map fun device => { w with device }
  | .restart => some (restart w)

end Step

end Kurtar.RedeemReconciliation

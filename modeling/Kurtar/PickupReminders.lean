import Kurtar.DispatchedPushes
import Kurtar.StatusTransitions

/-!
# Pickup reminders

Every five minutes a sweep reads the confirmed reservations whose pickup
starts soon, claims them one after the other by a guarded update, and has each
customer notified before it goes on. Sweeps overlap, and any of them may stop
at any of its queries.
-/

namespace Kurtar.PickupReminders

open KeyedTable GuardedRuns IstanbulCalendar StatusTransitions Timelines PushDispatch

def PICKUP_REMINDER_WINDOW_MS : Instant := 30*60*1000

def PICKUP_REMINDER_BATCH_LIMIT : ℕ := 200

/-- The fields of `data`. -/
abbrev PushData := List (String × String)

/-- An offer's window is written once. -/
structure DailyOffer where
  id : String
  pickupStartAt : Instant
  pickupEndAt : Instant
  deriving DecidableEq

structure Reservation where
  id : String
  code : String
  userId : String
  offerId : String
  storeId : String
  status : ReservationStatus
  pickupReminderSentAt : Option Instant
  deriving DecidableEq

structure Db where
  offers : Table DailyOffer.id
  reservations : Table Reservation.id

/-- A row of the sweep's query. -/
structure Due where
  id : String
  userId : String
  storeId : String
  code : String
  offer : DailyOffer
  deriving DecidableEq

/-- The selected columns of a reservation. -/
def Reservation.select (r : Reservation) (offer : DailyOffer) : Due :=
  ⟨r.id, r.userId, r.storeId, r.code, offer⟩

/-- The `where` of the query. -/
def isDue (now windowMs : Instant) (r : Reservation) (offer : DailyOffer) : Bool :=
  let windowEnd := now+windowMs
  decide (r.status = .confirmed ∧ r.pickupReminderSentAt = none ∧
    now ≤ offer.pickupStartAt ∧ offer.pickupStartAt ≤ windowEnd)

/-- The rows that the query is for. -/
def dueRows (db : Db) (now windowMs : Instant) : List Due :=
  db.reservations.rows.filterMap fun r =>
    match db.offers.find? r.offerId with
    | some offer => if isDue now windowMs r offer then some (r.select offer) else none
    | none => none

/-- The hour and the minute of the day in Istanbul. -/
def fmt (date : Instant) : String :=
  s!"{padStart 2 (istanbulHourOfDay date)}:{padStart 2 ((date+3*hourMs)%hourMs/60000)}"

def formatPickupWindow (pickupStartAt pickupEndAt : Instant) : String :=
  s!"{fmt pickupStartAt}-{fmt pickupEndAt}"

example : formatPickupWindow (14*hourMs+5*60*1000) (21*hourMs) = "17:05-00:00" := by decide +kernel

def reminder (reservation : Due) : PushMessageContent PushData where
  title := "Teslim alma zamanı yaklaşıyor"
  body := s!"Teslim alma kodun: {reservation.code}. Pencere: " ++
    s!"{formatPickupWindow reservation.offer.pickupStartAt reservation.offer.pickupEndAt}."
  data := some [("reservationId", reservation.id), ("storeId", reservation.storeId)]

/-- How far a sweep is. Its loop stands at the row `next`. -/
inductive SweepPhase where
  | selecting
  | looping (due : List Due) (next reminded : ℕ)
  | claimed (due : List Due) (next reminded : ℕ)
  | pushing (due : List Due) (next reminded dispatch : ℕ)
  | done (due : List Due) (reminded : ℕ)
  /-- With the row that was claimed and not handed on, if there was one. -/
  | stopped (lost : Option Due)

structure Sweep where
  now : Instant
  windowMs : Instant
  /-- The moment of the call. -/
  began : ℕ
  phase : SweepPhase

structure World where
  db : Timeline Db
  sweeps : List Sweep
  push : PushDispatch.World String PushData

inductive Action where
  | createOffer (offer : DailyOffer)
  | createReservation (id code userId offerId storeId : String)
  | setStatus (id : String) (target : ReservationStatus)
  /-- Whatever else happens to users, tokens and dispatches. -/
  | push (a : PushDispatch.Action String PushData)
  | sweepOnce (now windowMs : Instant)
  /-- The rows, in the order the database gives them. -/
  | selectDue (sweep : ℕ) (rows : List Due)
  | claim (sweep : ℕ)
  | notify (sweep : ℕ)
  | resume (sweep : ℕ)
  | stop (sweep : ℕ)

def World.change (w : World) (db : Db) : World := { w with db := w.db.change db }

def World.setPhase (w : World) (sweep : ℕ) (s : Sweep) (phase : SweepPhase) : World :=
  { w with sweeps := w.sweeps.set sweep { s with phase } }

/-- The guarded update of a claim. -/
def claimReservation (db : Db) (id : String) (date : Instant) : Db :=
  { db with
    reservations := db.reservations.updateMany
      (fun r => r.id = id ∧ r.pickupReminderSentAt = none)
      (fun r => { r with pickupReminderSentAt := some date }) fun _ => rfl }

/-- Is there a row that the update of a claim matches? -/
def claimable (db : Db) (id : String) : Bool :=
  (db.reservations.find? id).any fun r => decide (r.pickupReminderSentAt = none)

def setStatus (db : Db) (id : String) (target : ReservationStatus) : Db :=
  { db with
    reservations := db.reservations.updateMany
      (fun r => r.id = id ∧ r.status ∈ allowedReservationFrom target)
      (fun r => { r with status := target }) fun _ => rfl }

/-- What a stopped sweep had claimed and not handed on. -/
def SweepPhase.lost : SweepPhase → Option Due
  | .claimed due next _ => due[next]?
  | _ => none

/-- Only sweeps send reminders. -/
def isReminder : PushDispatch.Action String PushData → Bool
  | .notifyUsers _ .PICKUP_REMINDER _ => true
  | _ => false

/-- What a sweep does next, with the world after it. -/
def sweepStep (w : World) (sweep : ℕ) (s : Sweep) : Action → Option World
  | .selectDue _ rows =>
    match s.phase with
    | .selecting =>
      if rows.Perm (dueRows w.db.now s.now s.windowMs) then
        some (w.setPhase sweep s (.looping (rows.take PICKUP_REMINDER_BATCH_LIMIT) 0 0))
      else none
    | _ => none
  | .claim _ =>
    match s.phase with
    | .looping due next reminded =>
      match due[next]? with
      | none => some (w.setPhase sweep s (.done due reminded))
      | some reservation =>
        if claimable w.db.now reservation.id then
          some ((w.change (claimReservation w.db.now reservation.id w.push.db.now.clock)).setPhase
            sweep s (.claimed due next reminded))
        else some (w.setPhase sweep s (.looping due (next+1) reminded))
    | _ => none
  | .notify _ =>
    match s.phase with
    | .claimed due next reminded =>
      due[next]?.map fun reservation =>
        { w.setPhase sweep s (.pushing due next reminded w.push.dispatches.length) with
          push := notifyUsers w.push [reservation.userId] .PICKUP_REMINDER
            fun _ => reminder reservation }
    | _ => none
  | .resume _ =>
    match s.phase with
    | .pushing due next reminded dispatch =>
      if (w.push.dispatches[dispatch]?.bind (·.phase.result)).isSome then
        some (w.setPhase sweep s (.looping due (next+1) (reminded+1)))
      else none
    | _ => none
  | .stop _ =>
    match s.phase with
    | .done _ _ | .stopped _ => none
    | phase => some (w.setPhase sweep s (.stopped phase.lost))
  | _ => none

def step (w : World) (a : Action) : Option World :=
  match a with
  | .createOffer offer =>
    some (w.change { w.db.now with offers := w.db.now.offers.insertNew offer })
  | .createReservation id code userId offerId storeId =>
    if (w.db.now.offers.find? offerId).isSome then
      some (w.change
        { w.db.now with
          reservations := w.db.now.reservations.insertNew
            ⟨id, code, userId, offerId, storeId, .pendingPayment, none⟩ })
    else none
  | .setStatus id target => some (w.change (setStatus w.db.now id target))
  | .push a =>
    if isReminder a then none
    else (PushDispatch.step w.push a).map fun push => { w with push }
  | .sweepOnce now windowMs =>
    some { w with sweeps := w.sweeps ++ [⟨now, windowMs, w.db.moment, .selecting⟩] }
  | .selectDue sweep _ | .claim sweep | .notify sweep | .resume sweep | .stop sweep =>
    match w.sweeps[sweep]? with
    | some s => sweepStep w sweep s a
    | none => none

/-- Nobody has been reminded yet. -/
structure Initial (w : World) : Prop where
  past : w.db.past = []
  unclaimed : ∀ r ∈ w.db.now.reservations.rows, r.pickupReminderSentAt = none
  sweeps : w.sweeps = []
  push : PushDispatch.Initial w.push

end Kurtar.PickupReminders

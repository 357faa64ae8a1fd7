import Mathlib.Data.List.Sort
import Kurtar.LockedTransactions
import Kurtar.StatusTransitions

/-!
# Alert and escalation sweeps

The sweeps of the complaint, settlement and content-report deadlines. Each
one is a single `UPDATE … WHERE "id" IN (SELECT …) RETURNING`: the sub-select
checks the guard on the rows committed when the statement starts, and the
rows are then updated one by one, each after a wait when it is locked, with
only the outer `WHERE` checked again. Admins and merchants change the same
rows in transactions of their own.
-/

namespace Kurtar.AlertSweeps

open GuardedRuns KeyedTable LockedTransactions StatusTransitions

/-- Milliseconds. -/
abbrev Instant := ℤ

inductive ComplaintStatus where
  | opened
  | merchantResponded
  | resolved
  | escalated
deriving DecidableEq, Repr

/-- The stored spelling of a complaint status. -/
def ComplaintStatus.text : ComplaintStatus → String
  | .opened => "OPEN"
  | .merchantResponded => "MERCHANT_RESPONDED"
  | .resolved => "RESOLVED"
  | .escalated => "ESCALATED"

def complaintTransitions : ComplaintStatus → List ComplaintStatus
  | .opened => [.merchantResponded, .resolved, .escalated]
  | .merchantResponded => [.resolved, .escalated]
  | .escalated => [.resolved]
  | .resolved => []

/-- Every complaint status, in the order of the transition map. -/
def complaintStatuses : List ComplaintStatus :=
  [.opened, .merchantResponded, .escalated, .resolved]

def allowedComplaintFrom : ComplaintStatus → List ComplaintStatus :=
  allowedFrom complaintTransitions complaintStatuses

inductive ReportStatus where
  | opened
  | actioned
  | dismissed
deriving DecidableEq, Repr

structure ComplaintTicket where
  id : ℕ
  userId : ℕ
  merchantId : Option ℕ
  status : ComplaintStatus
  slaDeadlineAt : Instant
  resolvedAt : Option Instant
  slaWarningSentAt : Option Instant
  updatedAt : Instant
deriving DecidableEq, Repr

structure SettlementBatch where
  id : ℕ
  status : SettlementStatus
  sentAt : Option Instant
  dueAt : Option Instant
  reconciliationAlertSentAt : Option Instant
  payoutDueWarningSentAt : Option Instant
  payoutOverdueAlertSentAt : Option Instant
deriving DecidableEq

structure ContentReport where
  id : ℕ
  status : ReportStatus
  takedownDeadlineAt : Instant
  resolvedAt : Option Instant
  takedownWarningSentAt : Option Instant
  takedownBreachedSentAt : Option Instant
deriving DecidableEq, Repr

/-- Who acts through the API. -/
inductive Principal where
  | admin (id : ℕ)
  | consumer (id : ℕ)
  | merchant (id merchantId : ℕ)
deriving DecidableEq, Repr

structure ComplaintMessage where
  complaintId : ℕ
  author : Principal
  body : String
deriving DecidableEq, Repr

/-- What `diffJson` records. -/
inductive AuditDiff where
  | transition (source target : ComplaintStatus) (note : Option String)
  | slaBreached (at_ : Instant)
  | note (note : Option String)
deriving DecidableEq, Repr

structure AuditLog where
  /-- The admin; none for the system. -/
  actorId : Option ℕ
  action : String
  entity : String
  entityId : ℕ
  diff : AuditDiff
deriving DecidableEq, Repr

/-- The alerts, by the sweep that claims their rows. -/
inductive Alert where
  | slaWarning
  | slaBreach
  | staleSent
  | approachingDue
  | overdueUnsent
  | takedownWarning
  | takedownBreach
deriving DecidableEq, Repr

inductive Row where
  | ticket (id : ℕ)
  | batch (id : ℕ)
  | report (id : ℕ)
deriving DecidableEq, Repr

structure Db where
  tickets : Table ComplaintTicket.id
  batches : Table SettlementBatch.id
  reports : Table ContentReport.id
  messages : List ComplaintMessage
  auditLogs : List AuditLog
  /-- The rows that committed sweeps have returned, the last one first. -/
  returned : List (Alert × ℕ)

/-- The row of an alert. -/
def Alert.row : Alert → ℕ → Row
  | .slaWarning, id => .ticket id
  | .slaBreach, id => .ticket id
  | .staleSent, id => .batch id
  | .approachingDue, id => .batch id
  | .overdueUnsent, id => .batch id
  | .takedownWarning, id => .report id
  | .takedownBreach, id => .report id

def Db.stores (d : Db) : Row → Bool
  | .ticket id => (d.tickets.find? id).isSome
  | .batch id => (d.batches.find? id).isSome
  | .report id => (d.reports.find? id).isSome

def BATCH_LIMIT : ℕ := 500

/-- `ORDER BY … LIMIT`; rows with one deadline come in any order. -/
def selectIds {ρ : Type} (id : ρ → ℕ) (deadline : ρ → Instant) (tie : ℕ → ℕ) (rows : List ρ) :
    List ℕ :=
  ((rows.insertionSort fun r s => deadline r < deadline s ∨
    deadline r = deadline s ∧ tie (id r) ≤ tie (id s)).take BATCH_LIMIT).map id

def setTicket (id : ℕ) (set : ComplaintTicket → ComplaintTicket)
    (hset : ∀ t, (set t).id = t.id) (d : Db) : Db :=
  { d with tickets := d.tickets.updateMany (fun t => t.id = id) set hset }

def setBatch (id : ℕ) (set : SettlementBatch → SettlementBatch)
    (hset : ∀ b, (set b).id = b.id) (d : Db) : Db :=
  { d with batches := d.batches.updateMany (fun b => b.id = id) set hset }

def setReport (id : ℕ) (set : ContentReport → ContentReport)
    (hset : ∀ r, (set r).id = r.id) (d : Db) : Db :=
  { d with reports := d.reports.updateMany (fun r => r.id = id) set hset }

/-- The `SET` clause of a sweep. -/
def stamp (now : Instant) : Alert → ℕ → Db → Db
  | .slaWarning, id =>
    setTicket id (fun t => { t with slaWarningSentAt := some now }) fun _ => rfl
  | .slaBreach, id =>
    setTicket id (fun t => { t with status := .escalated, updatedAt := now }) fun _ => rfl
  | .staleSent, id =>
    setBatch id (fun b => { b with reconciliationAlertSentAt := some now }) fun _ => rfl
  | .approachingDue, id =>
    setBatch id (fun b => { b with payoutDueWarningSentAt := some now }) fun _ => rfl
  | .overdueUnsent, id =>
    setBatch id (fun b => { b with payoutOverdueAlertSentAt := some now }) fun _ => rfl
  | .takedownWarning, id =>
    setReport id (fun r => { r with takedownWarningSentAt := some now }) fun _ => rfl
  | .takedownBreach, id =>
    setReport id (fun r => { r with takedownBreachedSentAt := some now }) fun _ => rfl

/-- Update one row of a sweep and return it. -/
def claim (now : Instant) (alert : Alert) (id : ℕ) (d : Db) : Db :=
  { stamp now alert id d with returned := (alert, id) :: d.returned }

def addAuditLogs (logs : List AuditLog) (d : Db) : Db :=
  { d with auditLogs := d.auditLogs ++ logs }

def escalationLog (now : Instant) (id : ℕ) : AuditLog :=
  ⟨none, "complaint.sla_breach_escalate", "ComplaintTicket", id, .slaBreached now⟩

/-- What follows the update, with the rows it returned. -/
def finish (now : Instant) : Alert → List ℕ → Program Db Row
  | .slaBreach, returned =>
    if returned.length > 0 then
      .insert (addAuditLogs (returned.map (escalationLog now))) .commit
    else .commit
  | _, _ => .commit

/-- Update the selected rows one by one. The rows come from the sub-select, so
the outer `WHERE` only asks whether the row is there. -/
def sweepRows (now : Instant) (alert : Alert) : List ℕ → List ℕ → Program Db Row
  | [], returned => finish now alert returned
  | id :: ids, returned =>
    .update (alert.row id) .noKeyUpdate (fun d => d.stores (alert.row id)) (claim now alert id)
      fun matched => sweepRows now alert ids (if matched then returned ++ [id] else returned)

def sweep (now : Instant) (alert : Alert) (select : Db → List ℕ) : Program Db Row :=
  .select fun d => sweepRows now alert (select d) []

def COMPLAINT_SLA_WARNING_WINDOW_MS : Instant := 48*60*60*1000

def unanswered (t : ComplaintTicket) : Bool :=
  decide (t.status = .opened ∨ t.status = .merchantResponded)

def warnApproaching (now : Instant) (tie : ℕ → ℕ) : Program Db Row :=
  let threshold := now+COMPLAINT_SLA_WARNING_WINDOW_MS
  sweep now .slaWarning fun d =>
    selectIds ComplaintTicket.id ComplaintTicket.slaDeadlineAt tie <|
      d.tickets.rows.filter fun t => unanswered t ∧ t.slaWarningSentAt = none ∧
        t.slaDeadlineAt ≤ threshold ∧ now < t.slaDeadlineAt

def escalateBreached (now : Instant) (tie : ℕ → ℕ) : Program Db Row :=
  sweep now .slaBreach fun d =>
    selectIds ComplaintTicket.id ComplaintTicket.slaDeadlineAt tie <|
      d.tickets.rows.filter fun t => unanswered t ∧ t.slaDeadlineAt ≤ now

def RECONCILIATION_OVERDUE_MS : Instant := 3*24*60*60*1000

def claimStaleSent (now : Instant) (tie : ℕ → ℕ) : Program Db Row :=
  let threshold := now-RECONCILIATION_OVERDUE_MS
  sweep now .staleSent fun d =>
    selectIds SettlementBatch.id (fun b => b.sentAt.getD 0) tie <|
      d.batches.rows.filter fun b => b.status = .sent ∧
        (b.sentAt.any fun sentAt => decide (sentAt ≤ threshold)) ∧
          b.reconciliationAlertSentAt = none

def unsent (b : SettlementBatch) : Bool :=
  decide (b.status = .calculated ∨ b.status = .approved ∨ b.status = .held)

/-- The threshold is one business day after `now`, from the stored holidays. -/
def claimApproachingDue (now warnThreshold : Instant) (tie : ℕ → ℕ) : Program Db Row :=
  sweep now .approachingDue fun d =>
    selectIds SettlementBatch.id (fun b => b.dueAt.getD 0) tie <|
      d.batches.rows.filter fun b => unsent b ∧
        (b.dueAt.any fun dueAt => decide (now < dueAt ∧ dueAt ≤ warnThreshold)) ∧
          b.payoutDueWarningSentAt = none

def claimOverdueUnsent (now : Instant) (tie : ℕ → ℕ) : Program Db Row :=
  sweep now .overdueUnsent fun d =>
    selectIds SettlementBatch.id (fun b => b.dueAt.getD 0) tie <|
      d.batches.rows.filter fun b => unsent b ∧
        (b.dueAt.any fun dueAt => decide (dueAt ≤ now)) ∧ b.payoutOverdueAlertSentAt = none

def TAKEDOWN_WARNING_WINDOW_MS : Instant := 12*60*60*1000

/-- `warnApproaching` of the takedown sweep. -/
def warnApproachingTakedown (now : Instant) (tie : ℕ → ℕ) : Program Db Row :=
  let threshold := now+TAKEDOWN_WARNING_WINDOW_MS
  sweep now .takedownWarning fun d =>
    selectIds ContentReport.id ContentReport.takedownDeadlineAt tie <|
      d.reports.rows.filter fun r => r.status = .opened ∧ r.takedownWarningSentAt = none ∧
        r.takedownDeadlineAt ≤ threshold ∧ now < r.takedownDeadlineAt

def warnBreached (now : Instant) (tie : ℕ → ℕ) : Program Db Row :=
  sweep now .takedownBreach fun d =>
    selectIds ContentReport.id ContentReport.takedownDeadlineAt tie <|
      d.reports.rows.filter fun r => r.status = .opened ∧ r.takedownBreachedSentAt = none ∧
        r.takedownDeadlineAt ≤ now

/-- The guarded update of a ticket's status. -/
def setStatus (id : ℕ) (target : ComplaintStatus) (now : Instant) : Db → Db :=
  setTicket id (fun t =>
    { t with
      status := target
      resolvedAt := if target = .resolved then some now else t.resolvedAt
      updatedAt := now }) fun _ => rfl

def mayBecome (id : ℕ) (target : ComplaintStatus) (d : Db) : Bool :=
  (d.tickets.find? id).any fun t => decide (t.status ∈ allowedComplaintFrom target)

def transitionAsAdmin (adminId id : ℕ) (target : ComplaintStatus) (action : String)
    (note : Option String) (now : Instant) : Program Db Row :=
  .select fun d =>
    match d.tickets.find? id with
    | none => .rollback
    | some current =>
      .update (.ticket id) .noKeyUpdate (mayBecome id target) (setStatus id target now)
        fun updated =>
          if updated then
            .insert (addAuditLogs [⟨some adminId, action, "ComplaintTicket", id,
              .transition current.status target note⟩]) .commit
          else .rollback

def adminResolve (adminId id : ℕ) (note : Option String) (now : Instant) : Program Db Row :=
  transitionAsAdmin adminId id .resolved "complaint.resolve" note now

def adminEscalate (adminId id : ℕ) (note : Option String) (now : Instant) : Program Db Row :=
  transitionAsAdmin adminId id .escalated "complaint.escalate" note now

def canMessage (user : Principal) (complaint : ComplaintTicket) : Bool :=
  match user with
  | .admin _ => true
  | .consumer id => decide (complaint.userId = id)
  | .merchant _ merchantId => decide (complaint.merchantId = some merchantId)

def addMessage (user : Principal) (complaintId : ℕ) (body : String) (now : Instant) :
    Program Db Row :=
  .select fun d =>
    match d.tickets.find? complaintId with
    | none => .rollback
    | some complaint =>
      if canMessage user complaint then
        .insert (fun d => { d with messages := d.messages ++ [⟨complaintId, user, body⟩] }) <|
          match user with
          | .merchant _ _ =>
            .update (.ticket complaintId) .noKeyUpdate
              (mayBecome complaintId .merchantResponded)
              (setStatus complaintId .merchantResponded now) fun _ => .commit
          | _ => .commit
      else .rollback

/-- The report is claimed after the action on its target, which is another
service's transaction. -/
def adminAction (adminId reportId : ℕ) (note : Option String) (now : Instant) : Program Db Row :=
  .select fun d =>
    match d.reports.find? reportId with
    | none => .rollback
    | some report =>
      if report.status ≠ .opened then .rollback
      else
        .update (.report reportId) .noKeyUpdate
          (fun d => (d.reports.find? reportId).any fun r => decide (r.status = .opened))
          (setReport reportId (fun r => { r with status := .actioned, resolvedAt := some now })
            fun _ => rfl)
          fun updated =>
            if updated then
              .insert (addAuditLogs [⟨some adminId, "report.action", "ContentReport", reportId,
                .note note⟩]) .commit
            else .commit

def adminDismiss (adminId reportId : ℕ) (note : Option String) (now : Instant) :
    Program Db Row :=
  .select fun d =>
    match d.reports.find? reportId with
    | none => .rollback
    | some report =>
      if report.status ≠ .opened then .rollback
      else
        .update (.report reportId) .noKeyUpdate (fun d => d.stores (.report reportId))
          (setReport reportId (fun r => { r with status := .dismissed, resolvedAt := some now })
            fun _ => rfl)
          fun updated =>
            if updated then
              .insert (addAuditLogs [⟨some adminId, "report.dismiss", "ContentReport", reportId,
                .note note⟩]) .commit
            else .rollback

/-- Any other writer of a batch: none of them touches the columns of the alerts. -/
def writeBatch (id : ℕ) (status : SettlementStatus) (sentAt dueAt : Option Instant) :
    Program Db Row :=
  .update (.batch id) .noKeyUpdate (fun d => d.stores (.batch id))
    (setBatch id (fun b => { b with status := status, sentAt := sentAt, dueAt := dueAt })
      fun _ => rfl)
    fun _ => .commit

def COMPLAINT_SLA_DAYS : Instant := 15

def createComplaint (id userId : ℕ) (merchantId : Option ℕ) (now : Instant) : Program Db Row :=
  .insert (fun d =>
    { d with
      tickets := d.tickets.insertNew ⟨id, userId, merchantId, .opened,
        now+COMPLAINT_SLA_DAYS*24*60*60*1000, none, none, now⟩ }) .commit

def TAKEDOWN_SLA_MS : Instant := 48*60*60*1000

def createReport (id : ℕ) (now : Instant) : Program Db Row :=
  .insert (fun d =>
    { d with
      reports := d.reports.insertNew ⟨id, .opened, now+TAKEDOWN_SLA_MS, none, none, none⟩ })
    .commit

def createBatch (id : ℕ) : Program Db Row :=
  .insert (fun d =>
    { d with batches := d.batches.insertNew ⟨id, .calculated, none, none, none, none, none⟩ })
    .commit

/-- The transactions: the sweeps, and everybody else who writes their rows. -/
inductive Request where
  | warnApproaching (now : Instant) (tie : ℕ → ℕ)
  | escalateBreached (now : Instant) (tie : ℕ → ℕ)
  | claimStaleSent (now : Instant) (tie : ℕ → ℕ)
  | claimApproachingDue (now warnThreshold : Instant) (tie : ℕ → ℕ)
  | claimOverdueUnsent (now : Instant) (tie : ℕ → ℕ)
  | warnApproachingTakedown (now : Instant) (tie : ℕ → ℕ)
  | warnBreached (now : Instant) (tie : ℕ → ℕ)
  | adminResolve (adminId id : ℕ) (note : Option String) (now : Instant)
  | adminEscalate (adminId id : ℕ) (note : Option String) (now : Instant)
  | addMessage (user : Principal) (complaintId : ℕ) (body : String) (now : Instant)
  | adminAction (adminId reportId : ℕ) (note : Option String) (now : Instant)
  | adminDismiss (adminId reportId : ℕ) (note : Option String) (now : Instant)
  | writeBatch (id : ℕ) (status : SettlementStatus) (sentAt dueAt : Option Instant)
  | createComplaint (id userId : ℕ) (merchantId : Option ℕ) (now : Instant)
  | createReport (id : ℕ) (now : Instant)
  | createBatch (id : ℕ)

def program : Request → Program Db Row
  | .warnApproaching now tie => warnApproaching now tie
  | .escalateBreached now tie => escalateBreached now tie
  | .claimStaleSent now tie => claimStaleSent now tie
  | .claimApproachingDue now warnThreshold tie => claimApproachingDue now warnThreshold tie
  | .claimOverdueUnsent now tie => claimOverdueUnsent now tie
  | .warnApproachingTakedown now tie => warnApproachingTakedown now tie
  | .warnBreached now tie => warnBreached now tie
  | .adminResolve adminId id note now => adminResolve adminId id note now
  | .adminEscalate adminId id note now => adminEscalate adminId id note now
  | .addMessage user complaintId body now => addMessage user complaintId body now
  | .adminAction adminId reportId note now => adminAction adminId reportId note now
  | .adminDismiss adminId reportId note now => adminDismiss adminId reportId note now
  | .writeBatch id status sentAt dueAt => writeBatch id status sentAt dueAt
  | .createComplaint id userId merchantId now => createComplaint id userId merchantId now
  | .createReport id now => createReport id now
  | .createBatch id => createBatch id

end Kurtar.AlertSweeps

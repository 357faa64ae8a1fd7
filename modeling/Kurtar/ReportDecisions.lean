import Kurtar.AlertSweeps

/-!
# A content report is decided once

Acting on a report claims it in the update's own guard, dismissing it only
checks a status read before. As long as every dismissal that gets the row of
its report finds it still open, a report leaves OPEN at most once, its final
status stays, and its one decision record names that status.
-/

namespace Kurtar.ReportDecisions

open GuardedRuns KeyedTable LockedTransactions Transaction AlertSweeps

def reportStatus (d : Db) (id : ℕ) : Option ReportStatus := (d.reports.find? id).map (·.status)

/-- The status that an audit row of the report says it was given. -/
def decisionOf (id : ℕ) (log : AuditLog) : Option ReportStatus :=
  if log.entity = "ContentReport" ∧ log.entityId = id then
    if log.action = "report.action" then some .actioned
    else if log.action = "report.dismiss" then some .dismissed
    else none
  else none

/-- The decision records of a report, the first one first. -/
def decisions (d : Db) (id : ℕ) : List ReportStatus := d.auditLogs.filterMap (decisionOf id)

/-- The decision records that fit a report's status. -/
def DecidedOnce : Option ReportStatus → List ReportStatus → Prop
  | some .actioned, records => records = [.actioned]
  | some .dismissed, records => records = [.dismissed]
  | _, records => records = []

theorem decidedOnce_of_ne {status : ReportStatus} {records : List ReportStatus}
    (h : status ≠ .opened) : DecidedOnce (some status) records ↔ records = [status] := by
  cases status with
  | opened => exact absurd rfl h
  | actioned => exact Iff.rfl
  | dismissed => exact Iff.rfl

/-- The report and its records stay, or the report has just been filed. -/
def Spared (d d' : Db) (id : ℕ) : Prop :=
  decisions d' id = decisions d id ∧
    (reportStatus d' id = reportStatus d id ∨
      reportStatus d id = none ∧ reportStatus d' id = some .opened)

/-- The report is open and gets its status with one record of it. -/
def Decided (d d' : Db) (id : ℕ) : Prop :=
  ∃ status, status ≠ .opened ∧ reportStatus d id = some .opened ∧
    reportStatus d' id = some status ∧ decisions d' id = decisions d id ++ [status]

/-- A write that decides no report. -/
def Sparing (f : Db → Db) : Prop := ∀ d id, Spared d (f d) id

section Writes

variable {f g : Db → Db} {d d' : Db} {id : ℕ}

theorem Spared.refl (d : Db) (id : ℕ) : Spared d d id := ⟨rfl, .inl rfl⟩

theorem sparing_id : Sparing fun d => d := fun d id => Spared.refl d id

theorem sparing_comp (f g : Db → Db) (hf : Sparing f) (hg : Sparing g) :
    Sparing fun d => g (f d) := by
  intro d id
  have hfirst := hf d id
  have hsecond := hg (f d) id
  refine ⟨hsecond.1.trans hfirst.1, ?_⟩
  rcases hsecond.2 with hsame | ⟨hnone, hfiled⟩
  · rw [hsame]
    exact hfirst.2
  · rcases hfirst.2 with hsame | ⟨_, hfiled'⟩
    · exact .inr ⟨hsame ▸ hnone, hfiled⟩
    · rw [hnone] at hfiled'
      cases hfiled'

/-- A write that leaves reports and audit rows alone. -/
theorem sparing_of_eq (hreports : ∀ d, (f d).reports = d.reports)
    (hlogs : ∀ d, (f d).auditLogs = d.auditLogs) : Sparing f := by
  intro d id
  refine ⟨?_, .inl ?_⟩
  · rw [decisions, decisions, hlogs]
  · rw [reportStatus, reportStatus, hreports]

/-- A write to the other columns of a report. -/
theorem sparing_setReport {report : ℕ} {set : ContentReport → ContentReport}
    {hset : ∀ r, (set r).id = r.id} (hstatus : ∀ r, (set r).status = r.status) :
    Sparing (setReport report set hset) := by
  intro d id
  refine ⟨rfl, .inl ?_⟩
  rw [reportStatus, reportStatus, setReport, Table.find?_updateMany]
  cases d.reports.find? id with
  | none => rfl
  | some r =>
    by_cases hr : r.id = report
    · simp [hr, hstatus]
    · simp [hr]

theorem decisions_addAuditLogs (logs : List AuditLog) (d : Db) (id : ℕ) :
    decisions (addAuditLogs logs d) id = decisions d id ++ logs.filterMap (decisionOf id) := by
  rw [decisions, addAuditLogs, List.filterMap_append]
  rfl

/-- Audit rows of complaints. -/
theorem sparing_addAuditLogs {logs : List AuditLog}
    (h : ∀ log ∈ logs, log.entity = "ComplaintTicket") : Sparing (addAuditLogs logs) := by
  intro d id
  refine ⟨?_, .inl rfl⟩
  have hnone : logs.filterMap (decisionOf id) = [] := by
    refine List.filterMap_eq_nil_iff.mpr ?_
    intro log hlog
    simp [decisionOf, h log hlog]
  rw [decisions_addAuditLogs, hnone, List.append_nil]

/-- A new report is open. -/
theorem sparing_insertReport {r : ContentReport} (hr : r.status = .opened) :
    Sparing fun d => { d with reports := d.reports.insertNew r } := by
  intro d id
  refine ⟨rfl, ?_⟩
  dsimp only [reportStatus]
  by_cases hid : r.id = id
  · cases hfind : d.reports.find? id with
    | none =>
      rw [← hid] at hfind ⊢
      rw [Table.find?_insertNew_self hfind, Option.map_some, hr]
      exact .inr ⟨rfl, rfl⟩
    | some s =>
      rw [Table.find?_insertNew_of_some hfind]
      exact .inl rfl
  · rw [Table.find?_insertNew_of_ne hid]
    exact .inl rfl

theorem sparing_claim (now : Instant) (a : Alert) (row : ℕ) : Sparing (claim now a row) := by
  have hreturned : Sparing fun d => { d with returned := (a, row) :: d.returned } :=
    sparing_of_eq (fun _ => rfl) fun _ => rfl
  have hstamp : Sparing (stamp now a row) := by
    cases a with
    | slaWarning => exact sparing_of_eq (fun _ => rfl) fun _ => rfl
    | slaBreach => exact sparing_of_eq (fun _ => rfl) fun _ => rfl
    | staleSent => exact sparing_of_eq (fun _ => rfl) fun _ => rfl
    | approachingDue => exact sparing_of_eq (fun _ => rfl) fun _ => rfl
    | overdueUnsent => exact sparing_of_eq (fun _ => rfl) fun _ => rfl
    | takedownWarning => exact sparing_setReport fun _ => rfl
    | takedownBreach => exact sparing_setReport fun _ => rfl
  intro d id
  have h := sparing_comp _ _ hreturned hstamp d id
  exact ⟨by cases a <;> exact h.1, by cases a <;> exact h.2⟩

theorem writes_sweepRows (now : Instant) (a : Alert) (ids returned : List ℕ) :
    Writes Sparing (sweepRows now a ids returned) := by
  induction ids generalizing returned with
  | nil =>
    cases a with
    | slaBreach =>
      by_cases hsome : returned.length > 0
      · have hfinish : sweepRows now .slaBreach [] returned =
            .insert (addAuditLogs (returned.map (escalationLog now))) .commit := if_pos hsome
        rw [hfinish]
        refine ⟨sparing_addAuditLogs ?_, trivial⟩
        intro log hlog
        obtain ⟨_, _, hrow⟩ := List.mem_map.mp hlog
        rw [← hrow, escalationLog]
      · have hfinish : sweepRows now .slaBreach [] returned = .commit := if_neg hsome
        rw [hfinish]
        trivial
    | slaWarning => trivial
    | staleSent => trivial
    | approachingDue => trivial
    | overdueUnsent => trivial
    | takedownWarning => trivial
    | takedownBreach => trivial
  | cons row ids ih => exact ⟨sparing_claim now a row, fun matched => ih _⟩

theorem writes_sweep (now : Instant) (a : Alert) (select : Db → List ℕ) :
    Writes Sparing (sweep now a select) := fun d => writes_sweepRows now a (select d) []

theorem writes_transitionAsAdmin (adminId row : ℕ) (target : ComplaintStatus) (action : String)
    (note : Option String) (now : Instant) :
    Writes Sparing (transitionAsAdmin adminId row target action note now) := by
  intro d
  dsimp only
  cases d.tickets.find? row with
  | none => trivial
  | some current =>
    refine ⟨sparing_of_eq (fun _ => rfl) fun _ => rfl, ?_⟩
    intro matched
    cases matched with
    | false => trivial
    | true =>
      refine ⟨sparing_addAuditLogs ?_, trivial⟩
      intro log hlog
      rw [List.mem_singleton.mp hlog]

theorem writes_addMessage (user : Principal) (row : ℕ) (body : String) (now : Instant) :
    Writes Sparing (addMessage user row body now) := by
  intro d
  dsimp only
  cases d.tickets.find? row with
  | none => trivial
  | some complaint =>
    dsimp only
    split_ifs with hmay
    · refine ⟨sparing_of_eq (fun _ => rfl) fun _ => rfl, ?_⟩
      cases user with
      | merchant _ _ => exact ⟨sparing_of_eq (fun _ => rfl) fun _ => rfl, fun _ => trivial⟩
      | admin _ => trivial
      | consumer _ => trivial
    · trivial

end Writes

theorem resolved_id (status : ReportStatus) (now : Instant) (r : ContentReport) :
    { r with status := status, resolvedAt := some now }.id = r.id := rfl

/-- What an admin who acts on a report does after its first read. -/
def actionUpdate (adminId reportId : ℕ) (note : Option String) (now : Instant) :
    Program Db Row :=
  .update (.report reportId) .noKeyUpdate
    (fun d => (d.reports.find? reportId).any fun r => decide (r.status = .opened))
    (setReport reportId (fun r => { r with status := .actioned, resolvedAt := some now })
      (resolved_id .actioned now))
    fun updated =>
      if updated then
        .insert (addAuditLogs [⟨some adminId, "report.action", "ContentReport", reportId,
          .note note⟩]) .commit
      else .commit

/-- What an admin who dismisses a report does after its first read. -/
def dismissUpdate (adminId reportId : ℕ) (note : Option String) (now : Instant) :
    Program Db Row :=
  .update (.report reportId) .noKeyUpdate (fun d => d.stores (.report reportId))
    (setReport reportId (fun r => { r with status := .dismissed, resolvedAt := some now })
      (resolved_id .dismissed now))
    fun updated =>
      if updated then
        .insert (addAuditLogs [⟨some adminId, "report.dismiss", "ContentReport", reportId,
          .note note⟩]) .commit
      else .rollback

/-- Either decision reads the report and goes on only if it is open. -/
def whenOpen (reportId : ℕ) (update : Program Db Row) : Program Db Row :=
  .select fun d =>
    match d.reports.find? reportId with
    | none => .rollback
    | some report => if report.status ≠ .opened then .rollback else update

theorem adminAction_eq (adminId reportId : ℕ) (note : Option String) (now : Instant) :
    adminAction adminId reportId note now =
      whenOpen reportId (actionUpdate adminId reportId note now) := rfl

theorem adminDismiss_eq (adminId reportId : ℕ) (note : Option String) (now : Instant) :
    adminDismiss adminId reportId note now =
      whenOpen reportId (dismissUpdate adminId reportId note now) := rfl

/-- The report of a dismissal that has just got its row is still open. -/
def StillOpen (d : Db) (x : Transaction Db Row) : Prop :=
  ∀ adminId reportId note now, x.program = dismissUpdate adminId reportId note now →
    reportStatus (x.effect d) reportId = some .opened

/-- The update of a decision on this report. -/
inductive Deciding (reportId : ℕ) : Program Db Row → Prop
  | action (adminId : ℕ) (note : Option String) (now : Instant) :
    Deciding reportId (actionUpdate adminId reportId note now)
  | dismissal (adminId : ℕ) (note : Option String) (now : Instant) :
    Deciding reportId (dismissUpdate adminId reportId note now)

/-- A decision that finds no row to update writes nothing more. -/
theorem Deciding.eq_update {reportId : ℕ} {program : Program Db Row}
    (h : Deciding reportId program) : ∃ guard change next,
      program = .update (.report reportId) .noKeyUpdate guard change next ∧
        Writes Sparing (next false) := by
  cases h with
  | action => exact ⟨_, _, _, rfl, trivial⟩
  | dismissal => exact ⟨_, _, _, rfl, trivial⟩

def decideReport (reportId : ℕ) (status : ReportStatus) (now : Instant) : Db → Db :=
  setReport reportId (fun r => { r with status := status, resolvedAt := some now })
    (resolved_id status now)

/-- The audit row records this status for this report and nothing else. -/
def RecordOf (reportId : ℕ) (status : ReportStatus) (log : AuditLog) : Prop :=
  ∀ i, decisionOf i log = if i = reportId then some status else none

/-- A report that is being decided under its lock. -/
structure Claimed (d : Db) (held : List (Row × LockMode)) (reportId : ℕ) (status : ReportStatus)
    (log : AuditLog) : Prop where
  final : status ≠ .opened
  opened : reportStatus d reportId = some .opened
  owns : Owns held (.report reportId)
  record : RecordOf reportId status log

/-- Where a transaction is, what it has written and what it owns. -/
inductive Stage (d : Db) (program : Program Db Row) (effect : Db → Db)
    (held : List (Row × LockMode)) : Prop
  | plain (hprogram : Writes Sparing program) (heffect : Sparing effect)
  | reading (reportId : ℕ) (update : Program Db Row) (hprogram : program = whenOpen reportId update)
    (hupdate : Deciding reportId update) (heffect : effect = fun d => d)
  | claiming (reportId : ℕ) (hprogram : Deciding reportId program) (heffect : effect = fun d => d)
  | logging (reportId : ℕ) (status : ReportStatus) (now : Instant) (log : AuditLog)
    (hprogram : program = .insert (addAuditLogs [log]) .commit)
    (heffect : effect = decideReport reportId status now)
    (hclaimed : Claimed d held reportId status log)
  | logged (reportId : ℕ) (status : ReportStatus) (now : Instant) (log : AuditLog)
    (hprogram : program = .commit)
    (heffect : effect = fun d => addAuditLogs [log] (decideReport reportId status now d))
    (hclaimed : Claimed d held reportId status log)

section Stages

variable {d d' : Db} {x y : Transaction Db Row} {held : List (Row × LockMode)}

/-- The stage a transaction is in. -/
abbrev At (d : Db) (x : Transaction Db Row) : Prop := Stage d x.program x.effect x.held

theorem stage_started (d : Db) (request : Request) : At d (begin (program request)) := by
  cases request with
  | warnApproaching now tie => exact .plain (writes_sweep _ _ _) sparing_id
  | escalateBreached now tie => exact .plain (writes_sweep _ _ _) sparing_id
  | claimStaleSent now tie => exact .plain (writes_sweep _ _ _) sparing_id
  | claimApproachingDue now warnThreshold tie => exact .plain (writes_sweep _ _ _) sparing_id
  | claimOverdueUnsent now tie => exact .plain (writes_sweep _ _ _) sparing_id
  | warnApproachingTakedown now tie => exact .plain (writes_sweep _ _ _) sparing_id
  | warnBreached now tie => exact .plain (writes_sweep _ _ _) sparing_id
  | adminResolve adminId row note now =>
    exact .plain (writes_transitionAsAdmin adminId row .resolved "complaint.resolve" note now)
      sparing_id
  | adminEscalate adminId row note now =>
    exact .plain (writes_transitionAsAdmin adminId row .escalated "complaint.escalate" note now)
      sparing_id
  | addMessage user row body now => exact .plain (writes_addMessage user row body now) sparing_id
  | adminAction adminId reportId note now =>
    exact .reading reportId _ (adminAction_eq adminId reportId note now)
      (.action adminId note now) rfl
  | adminDismiss adminId reportId note now =>
    exact .reading reportId _ (adminDismiss_eq adminId reportId note now)
      (.dismissal adminId note now) rfl
  | writeBatch row status sentAt dueAt =>
    exact .plain ⟨sparing_of_eq (fun _ => rfl) fun _ => rfl, fun _ => trivial⟩ sparing_id
  | createComplaint row userId merchantId now =>
    exact .plain ⟨sparing_of_eq (fun _ => rfl) fun _ => rfl, trivial⟩ sparing_id
  | createReport row now => exact .plain ⟨sparing_insertReport rfl, trivial⟩ sparing_id
  | createBatch row =>
    exact .plain ⟨sparing_of_eq (fun _ => rfl) fun _ => rfl, trivial⟩ sparing_id

theorem plain_ending {program : Program Db Row} {effect : Db → Db}
    (hprogram : Writes Sparing program) (heffect : effect = fun d => d) :
    Stage d program effect held := by
  rw [heffect]
  exact .plain hprogram sparing_id

theorem stage_issue (h : At d x) (hcommit : x.program ≠ .commit) : At d (x.issue d) := by
  cases h with
  | plain hprogram heffect =>
    have hissue := hprogram.issue (d := d) sparing_id sparing_comp heffect
    exact .plain hissue.1 hissue.2
  | reading reportId update hprogram hupdate heffect =>
    rw [issue_select hprogram]
    dsimp only [At]
    cases (x.effect d).reports.find? reportId with
    | none => exact plain_ending trivial heffect
    | some report =>
      dsimp only
      split_ifs with hopened
      · exact plain_ending trivial heffect
      · exact .claiming reportId hupdate heffect
  | claiming reportId hprogram heffect =>
    obtain ⟨guard, change, next, hp, hending⟩ := hprogram.eq_update
    rcases issue_update hp with hissue | hissue
    · rw [hissue]
      exact .claiming reportId hprogram heffect
    · rw [hissue]
      exact plain_ending hending heffect
  | logging reportId status now log hprogram heffect hclaimed =>
    rw [issue_insert hprogram]
    exact .logged reportId status now log rfl (by rw [heffect]) hclaimed
  | logged _ _ _ _ hprogram => exact absurd hprogram hcommit

/-- An audit row records a decision of its own report only. -/
theorem recordOf_decision {log : AuditLog} {status : ReportStatus}
    (h : decisionOf log.entityId log = some status) : RecordOf log.entityId status log := by
  intro i
  by_cases hi : i = log.entityId
  · rw [if_pos hi, hi]
    exact h
  · rw [if_neg hi, decisionOf, if_neg fun hlog => hi hlog.2.symm]

/-- The guard of an action says that the report is open. -/
theorem opened_of_guard {reportId : ℕ}
    (h : ((d.reports.find? reportId).any fun r => decide (r.status = .opened)) = true) :
    reportStatus d reportId = some .opened := by
  rw [reportStatus]
  cases hfind : d.reports.find? reportId with
  | none => simp [hfind] at h
  | some r =>
    rw [hfind] at h
    exact congrArg some (by simpa using h)

theorem stage_grant {want : Row × LockMode} (h : At d x) (hwanted : x.wanted = some want)
    (hopen : StillOpen d x) : At d (x.grant d) := by
  cases h with
  | plain hprogram heffect =>
    have hgrant := hprogram.grant (d := d) sparing_comp heffect
    exact .plain hgrant.1 hgrant.2
  | reading reportId update hprogram =>
    rw [wanted_select hprogram] at hwanted
    cases hwanted
  | claiming reportId hprogram heffect =>
    generalize hp : x.program = p at hprogram
    cases hprogram with
    | action adminId note now =>
      rcases grant_update hp with ⟨hmatched, hgrant⟩ | ⟨_, hgrant⟩
      · rw [heffect] at hmatched
        rw [hgrant]
        exact .logging reportId .actioned now _ rfl (by rw [heffect]; rfl)
          ⟨by decide, opened_of_guard hmatched, owns_cons_self _ _ (by decide),
            recordOf_decision (by simp [decisionOf])⟩
      · rw [hgrant]
        exact plain_ending trivial heffect
    | dismissal adminId note now =>
      have hopened := hopen adminId reportId note now hp
      rw [heffect] at hopened
      rcases grant_update hp with ⟨_, hgrant⟩ | ⟨_, hgrant⟩
      · rw [hgrant]
        exact .logging reportId .dismissed now _ rfl (by rw [heffect]; rfl)
          ⟨by decide, hopened, owns_cons_self _ _ (by decide),
            recordOf_decision (by simp [decisionOf])⟩
      · rw [hgrant]
        exact plain_ending trivial heffect
  | logging _ _ _ _ hprogram =>
    rw [wanted_insert hprogram] at hwanted
    cases hwanted
  | logged _ _ _ _ hprogram =>
    rw [wanted_commit hprogram] at hwanted
    cases hwanted

theorem reportStatus_decideReport (reportId : ℕ) (status : ReportStatus) (now : Instant)
    (i : ℕ) : reportStatus (decideReport reportId status now d) i =
      if i = reportId then (reportStatus d i).map fun _ => status else reportStatus d i := by
  by_cases hi : i = reportId
  · simp [reportStatus, decideReport, setReport, hi, Table.find?_updateMany_key,
      Function.comp_def]
  · simp [reportStatus, decideReport, setReport, hi, Table.find?_updateMany_key]

/-- A decision under way decides its own report and spares all others. -/
theorem Claimed.change {reportId : ℕ} {status : ReportStatus} {log : AuditLog}
    (h : Claimed d held reportId status log) (now : Instant) (i : ℕ) :
    Spared d (addAuditLogs [log] (decideReport reportId status now d)) i ∨
      Decided d (addAuditLogs [log] (decideReport reportId status now d)) i ∧
        Owns held (.report i) := by
  have hstatus : reportStatus (addAuditLogs [log] (decideReport reportId status now d)) i =
      if i = reportId then (reportStatus d i).map fun _ => status else reportStatus d i :=
    reportStatus_decideReport reportId status now i
  have hrecords := decisions_addAuditLogs [log] (decideReport reportId status now d) i
  have hrecord := h.record i
  have hsame : decisions (decideReport reportId status now d) i = decisions d i := rfl
  rw [hsame] at hrecords
  by_cases hi : i = reportId
  · rw [if_pos hi] at hstatus hrecord
    rw [hi] at hstatus hrecord hrecords ⊢
    rw [h.opened] at hstatus
    refine .inr ⟨⟨status, h.final, h.opened, hstatus, ?_⟩, h.owns⟩
    simpa [hrecord] using hrecords
  · rw [if_neg hi] at hstatus hrecord
    refine .inl ⟨?_, .inl hstatus⟩
    simpa [hrecord] using hrecords

/-- A commit spares each report, or decides it under its lock. -/
theorem change_of_commit (h : At d x) (hcommit : x.program = .commit) (i : ℕ) :
    Spared d (x.effect d) i ∨ Decided d (x.effect d) i ∧ Owns x.held (.report i) := by
  cases h with
  | plain _ heffect => exact .inl (heffect d i)
  | reading _ _ hprogram =>
    rw [hcommit] at hprogram
    cases hprogram
  | claiming reportId hprogram =>
    rw [hcommit] at hprogram
    cases hprogram
  | logging _ _ _ _ hprogram =>
    rw [hcommit] at hprogram
    cases hprogram
  | logged reportId status now log _ heffect hclaimed =>
    rw [heffect]
    exact hclaimed.change now i

/-- A stage lasts while others commit. -/
theorem stage_of_change
    (hchange : ∀ i, Spared d d' i ∨ Decided d d' i ∧ Owns held (.report i))
    (hrow : ∀ row, Owns held row → ¬ Owns x.held row) (h : At d x) : At d' x := by
  have hclaims : ∀ i status log, Claimed d x.held i status log → Claimed d' x.held i status log := by
    intro i status log hclaimed
    refine ⟨hclaimed.final, ?_, hclaimed.owns, hclaimed.record⟩
    rcases hchange i with hspared | ⟨_, howns⟩
    · rcases hspared.2 with hsame | ⟨hnone, _⟩
      · rw [hsame]
        exact hclaimed.opened
      · have hopened := hclaimed.opened
        rw [hnone] at hopened
        cases hopened
    · exact absurd hclaimed.owns (hrow _ howns)
  cases h with
  | plain hprogram heffect => exact .plain hprogram heffect
  | reading i update hprogram hupdate heffect => exact .reading i update hprogram hupdate heffect
  | claiming i hprogram heffect => exact .claiming i hprogram heffect
  | logging i status now log hprogram heffect hclaimed =>
    exact .logging i status now log hprogram heffect (hclaims i status log hclaimed)
  | logged i status now log hprogram heffect hclaimed =>
    exact .logged i status now log hprogram heffect (hclaims i status log hclaimed)

end Stages

/-- What every committed state satisfies. -/
def Right (d : Db) : Prop := ∀ id, DecidedOnce (reportStatus d id) (decisions d id)

section Changes

variable {d d' : Db} {id : ℕ}

theorem Spared.decidedOnce (h : Spared d d' id)
    (hd : DecidedOnce (reportStatus d id) (decisions d id)) :
    DecidedOnce (reportStatus d' id) (decisions d' id) := by
  rw [h.1]
  rcases h.2 with hsame | ⟨hnone, hfiled⟩
  · rw [hsame]
    exact hd
  · rw [hnone] at hd
    rw [hfiled]
    exact hd

theorem Decided.decidedOnce (h : Decided d d' id)
    (hd : DecidedOnce (reportStatus d id) (decisions d id)) :
    DecidedOnce (reportStatus d' id) (decisions d' id) := by
  obtain ⟨status, hfinal, hopened, hstatus, hrecords⟩ := h
  rw [hopened] at hd
  have hempty : decisions d id = [] := hd
  rw [hstatus, hrecords, hempty]
  exact (decidedOnce_of_ne hfinal).mpr rfl

/-- A decided report keeps its status. -/
theorem final_of_change {status : ReportStatus} (hfinal : status ≠ .opened)
    (h : Spared d d' id ∨ Decided d d' id) (hstatus : reportStatus d id = some status) :
    reportStatus d' id = some status := by
  rcases h with hspared | ⟨_, _, hopened, _⟩
  · rcases hspared.2 with hsame | ⟨hnone, _⟩
    · rw [hsame]
      exact hstatus
    · rw [hnone] at hstatus
      cases hstatus
  · rw [hopened] at hstatus
    exact absurd (Option.some.inj hstatus).symm hfinal

end Changes

theorem keeps : Keeps AlertSweeps.program StillOpen Right At where
  started := fun d request _ => stage_started d request
  ended := fun _ => .plain trivial sparing_id
  issued := fun _ _ _ hat _ hcommit => stage_issue hat hcommit
  granted := fun _ _ _ _ hat hwanted hopen => stage_grant hat hwanted hopen
  committed := by
    intro d x hright hat hcommit id
    rcases change_of_commit hat hcommit id with hspared | ⟨hdecided, _⟩
    · exact hspared.decidedOnce (hright id)
    · exact hdecided.decidedOnce (hright id)
  others := fun _ _ _ _ hx hy hapart hcommit =>
    stage_of_change (change_of_commit hx hcommit) (fun _ howns => hapart.not_owns howns) hy

/-- Nothing is under way, and the audit rows fit the reports. -/
def Initial (w : World Db Row) : Prop := w.Quiet ∧ Right w.committed

/-- The runs in which each dismissal finds its report still open when it gets the row. -/
abbrev Run (init : World Db Row → Prop) : World Db Row → Prop :=
  Reachable (step AlertSweeps.program) (GrantsMeet StillOpen) init

theorem holds_of_run {w : World Db Row} (h : Run Initial w) : Holds Right At w := by
  refine keeps.holds ?_ h
  intro w hw
  exact hw

/-- A step spares each report or decides it. -/
theorem change_of_step {w w' : World Db Row} {a : Action Request} (h : Run Initial w)
    (hstep : step AlertSweeps.program w a = some w') (id : ℕ) :
    Spared w.committed w'.committed id ∨ Decided w.committed w'.committed id := by
  rcases committed_step hstep with hsame | ⟨t, hcommit, hcommitted⟩
  · rw [hsame]
    exact .inl (Spared.refl _ id)
  · rw [hcommitted]
    exact (change_of_commit ((holds_of_run h).2 t) hcommit id).imp_right And.left

theorem final_of_run {w w' : World Db Row} {status : ReportStatus} {id : ℕ} (h : Run Initial w)
    (h' : Run (fun v => v = w) w') (hfinal : status ≠ .opened)
    (hstatus : reportStatus w.committed id = some status) :
    reportStatus w'.committed id = some status := by
  induction h' with
  | start hs =>
    rw [hs]
    exact hstatus
  | next hv _ hstep ih => exact final_of_change hfinal (change_of_step (h.append hv) hstep id) ih

/-- In every run in which each dismissal finds its report still open when it
gets the row, the records of each report fit its status, each step spares the
report or decides it with one record of its new status, and a decided report
stays as it is. -/
theorem decided_once_when_open (w : World Db Row) (h : Run Initial w) :
    (∀ id, DecidedOnce (reportStatus w.committed id) (decisions w.committed id)) ∧
      (∀ a w', step AlertSweeps.program w a = some w' → ∀ id,
        Spared w.committed w'.committed id ∨ Decided w.committed w'.committed id) ∧
      ∀ w', Run (fun v => v = w) w' → ∀ id status, status ≠ .opened →
        reportStatus w.committed id = some status →
          reportStatus w'.committed id = some status ∧ decisions w'.committed id = [status] := by
  refine ⟨(holds_of_run h).1, fun a w' hstep => change_of_step h hstep, ?_⟩
  intro w' h' id status hfinal hstatus
  have hlater := final_of_run h h' hfinal hstatus
  have honce := (holds_of_run (h.append h')).1 id
  rw [hlater] at honce
  exact ⟨hlater, (decidedOnce_of_ne hfinal).mp honce⟩

section Sample

/-- One report, filed at time 0. -/
def oneReport : World Db Row where
  committed :=
    { tickets := .empty
      batches := .empty
      reports := Table.insertMany .empty [⟨5, .opened, TAKEDOWN_SLA_MS, none, none, none⟩]
      messages := []
      auditLogs := []
      returned := [] }
  started := 0
  transaction := fun _ => ended

theorem oneReport_initial : Initial oneReport := by
  refine ⟨⟨rfl, fun _ => (by rfl)⟩, ?_⟩
  intro id
  have hopened : ∀ r ∈ oneReport.committed.reports.rows, r.status = .opened := by decide +kernel
  rw [reportStatus]
  cases hfind : oneReport.committed.reports.find? id with
  | none => rfl
  | some r =>
    have hstatus := hopened r (Table.find?_eq_some.mp hfind).1
    rw [Option.map_some, hstatus]
    rfl

/-- A dismissal reads the open report, and an action on it is committed. -/
def readThenActioned : List (Action Request) :=
  [.start (.adminDismiss 8 5 none 100), .issue 0, .start (.adminAction 9 5 none 100),
    .issue 1, .issue 1, .grant 1, .issue 1, .issue 1]

/-- The dismissal goes on. -/
def dismissalGoesOn : List (Action Request) := [.issue 0, .grant 0, .issue 0, .issue 0]

/-- The report that was acted on ends as dismissed, with a record of each. -/
theorem decided_once_counterexample :
    ∃ w w', Reachable (step AlertSweeps.program) anyStep Initial w ∧
      Reachable (step AlertSweeps.program) anyStep (fun v => v = w) w' ∧
        reportStatus w.committed 5 = some .actioned ∧
          reportStatus w'.committed 5 = some .dismissed ∧
            decisions w'.committed 5 = [.actioned, .dismissed] := by
  refine ⟨after (step AlertSweeps.program) oneReport readThenActioned,
    after (step AlertSweeps.program) oneReport (readThenActioned ++ dismissalGoesOn), ?_, ?_, ?_⟩
  · exact reachable_after (.start oneReport_initial) (by decide +kernel)
  · exact reachable_of_run (.start rfl) (run_after (by decide +kernel))
  · decide +kernel

/-- A dismissal that waits for its report. -/
def dismissalWaits : World Db Row :=
  after (step AlertSweeps.program) oneReport
    [.start (.adminDismiss 8 5 none 100), .issue 0, .issue 0]

theorem dismissalWaits_open :
    StillOpen dismissalWaits.committed (dismissalWaits.transaction 0) := by
  intro adminId reportId note now hprogram
  have hupdate : (dismissalWaits.transaction 0).program = dismissUpdate 8 5 none 100 := rfl
  rw [hupdate] at hprogram
  have hrow : Row.report 5 = .report reportId := by
    injection hprogram
  rw [← Row.report.inj hrow]
  decide +kernel

/-- The same dismissal, committed. -/
def dismissedOnce : World Db Row :=
  after (step AlertSweeps.program) dismissalWaits [.grant 0, .issue 0, .issue 0]

theorem dismissedOnce_run : Run (fun v => v = dismissalWaits) dismissedOnce := by
  refine reachable_after_guarded (.start rfl) ⟨dismissalWaits_open, ?_⟩ (by decide +kernel)
  split
  · refine runMeets_of_noGrants ?_ _
    intro a ha t heq
    rw [heq] at ha
    simp at ha
  · trivial

/-- One dismissal alone writes one record. -/
theorem decided_once_when_open_dismissed :
    reportStatus dismissedOnce.committed 5 = some .dismissed ∧
      decisions dismissedOnce.committed 5 = [.dismissed] := by
  have hwaits : Run Initial dismissalWaits := by
    refine reachable_after_guarded (.start oneReport_initial) ?_ (by decide +kernel)
    refine runMeets_of_noGrants ?_ _
    intro a ha t heq
    rw [heq] at ha
    simp at ha
  have hstatus : reportStatus dismissedOnce.committed 5 = some .dismissed := by decide +kernel
  have hrun : Run Initial dismissedOnce := hwaits.append dismissedOnce_run
  exact (decided_once_when_open dismissedOnce hrun).2.2 _ (.start rfl) 5 .dismissed (by decide)
    hstatus

end Sample

end Kurtar.ReportDecisions

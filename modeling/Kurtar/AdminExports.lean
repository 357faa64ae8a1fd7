import Mathlib.Data.List.Sort
import Mathlib.Data.Prod.Lex
import Mathlib.Data.String.Basic
import Kurtar.CsvExport
import Kurtar.GuardedRuns
import Kurtar.IstanbulCalendar
import Kurtar.OffsetPaging
import Kurtar.Timelines

/-!
# The admins' exports

Complaints, settlement batches and merchants are written to a CSV file page by
page, each page by a query of its own, while rows are inserted and changed. The
export of merchants, which holds tax numbers and bank accounts, writes an audit
row before its first byte.
-/

namespace Kurtar.AdminExports

open CsvExport GuardedRuns IstanbulCalendar KeyedTable Timelines

/-- Bounds of the creation date as they are asked for. -/
structure ExportRange where
  from_ : Option String
  to_ : Option String
  deriving DecidableEq

structure DateTimeFilter where
  gte : Option Instant
  lte : Option Instant
  deriving DecidableEq

def DateTimeFilter.admits (filter : DateTimeFilter) (createdAt : Instant) : Bool :=
  filter.gte.all (fun gte => decide (gte ≤ createdAt)) &&
    filter.lte.all fun lte => decide (createdAt ≤ lte)

section Filters

-- `newDate` reads a written date; none is an invalid date.
variable (newDate : String → Option Instant)

/-- An empty text sets no bound. -/
def bound : Option String → Option (Option Instant)
  | none => some none
  | some date => if date = "" then some none else (newDate date).map some

/-- The filter of a range; none when it holds an invalid date, which every query refuses. -/
def createdAtWhere (range : ExportRange) : Option DateTimeFilter :=
  match bound newDate range.from_, bound newDate range.to_ with
  | some gte, some lte => some ⟨gte, lte⟩
  | _, _ => none

end Filters

def DEFAULT_CSV_PAGE_SIZE : ℕ := 500

/-- One of the exports: its file and the rows of its table. -/
structure CsvReport (ρ : Type) where
  filename : String
  header : List String
  id : ρ → String
  createdAt : ρ → Instant
  toRow : ρ → List (CsvValue ℤ)
  /-- Is an audit row written first? -/
  audited : Bool

section Reports

/-- A date, or an empty field. -/
def dateOrEmpty (date : Option Instant) : CsvValue ℤ := .string ((date.map toISOString).getD "")

def stringOrNull (s : Option String) : CsvValue ℤ := (s.map .string).getD .null

/-- Enumerations are in their stored spelling. -/
structure ComplaintTicket where
  id : String
  category : String
  status : String
  userId : String
  merchantId : Option String
  reservationId : Option String
  slaDeadlineAt : Instant
  resolvedAt : Option Instant
  createdAt : Instant

def complaintsCsv : CsvReport ComplaintTicket where
  filename := "complaints.csv"
  header := ["id", "category", "status", "userId", "merchantId", "reservationId", "slaDeadlineAt",
    "resolvedAt", "createdAt"]
  id := (·.id)
  createdAt := (·.createdAt)
  toRow row := [.string row.id, .string row.category, .string row.status, .string row.userId,
    stringOrNull row.merchantId, stringOrNull row.reservationId,
    .string (toISOString row.slaDeadlineAt), dateOrEmpty row.resolvedAt,
    .string (toISOString row.createdAt)]
  audited := false

structure SettlementBatch where
  id : String
  merchantId : String
  periodStart : Instant
  periodEnd : Instant
  status : String
  grossCents : ℤ
  bagFeeCents : ℤ
  bagFeeVatCents : ℤ
  withholdingCents : ℤ
  membershipOffsetCents : ℤ
  refundClawbackCents : ℤ
  netPayoutCents : ℤ
  dueAt : Option Instant
  sentAt : Option Instant
  createdAt : Instant

def settlementsCsv : CsvReport SettlementBatch where
  filename := "settlements.csv"
  header := ["id", "merchantId", "periodStart", "periodEnd", "status", "grossCents", "bagFeeCents",
    "bagFeeVatCents", "withholdingCents", "membershipOffsetCents", "refundClawbackCents",
    "netPayoutCents", "dueAt", "sentAt", "createdAt"]
  id := (·.id)
  createdAt := (·.createdAt)
  toRow row := [.string row.id, .string row.merchantId, .string (toISOString row.periodStart),
    .string (toISOString row.periodEnd), .string row.status, .number row.grossCents,
    .number row.bagFeeCents, .number row.bagFeeVatCents, .number row.withholdingCents,
    .number row.membershipOffsetCents, .number row.refundClawbackCents,
    .number row.netPayoutCents, dateOrEmpty row.dueAt, dateOrEmpty row.sentAt,
    .string (toISOString row.createdAt)]
  audited := false

structure Merchant where
  id : String
  legalName : String
  tradeName : String
  taxId : String
  iban : String
  verificationStatus : String
  verifiedAt : Option Instant
  createdAt : Instant

def merchantsCsv : CsvReport Merchant where
  filename := "merchants.csv"
  header := ["id", "legalName", "tradeName", "taxId", "iban", "verificationStatus", "verifiedAt",
    "createdAt"]
  id := (·.id)
  createdAt := (·.createdAt)
  toRow row := [.string row.id, .string row.legalName, .string row.tradeName, .string row.taxId,
    .string row.iban, .string row.verificationStatus, dateOrEmpty row.verifiedAt,
    .string (toISOString row.createdAt)]
  audited := true

end Reports

section Processes

variable {ρ : Type} (report : CsvReport ρ)

/-- `orderBy` creation date and then id. -/
def CsvReport.key (row : ρ) : Lex (ℤ × String) := toLex (report.createdAt row, report.id row)

/-- The rows that a filter admits. -/
def CsvReport.admitted (filter : DateTimeFilter) (t : Table report.id) : List ρ :=
  t.rows.filter fun row => filter.admits (report.createdAt row)

/-- The result of the query without `skip` and `take`. -/
def CsvReport.listing (filter : DateTimeFilter) (t : Table report.id) : List ρ :=
  (report.admitted filter t).insertionSort fun r s => report.key r ≤ report.key s

structure AuditLog where
  actorType : String
  actorId : String
  action : String
  entity : String
  entityId : String
  diffJson : ExportRange
  deriving DecidableEq

def exportLog (adminId : String) (range : ExportRange) : AuditLog :=
  ⟨"ADMIN", adminId, "merchant.kyc.exported", "Merchant", "*", range⟩

inductive Phase where
  | auditing
  /-- The audit row could not be written. -/
  | refused
  | streaming
  | ended
  | destroyed (err : Thrown)

structure Export (ρ : Type) where
  adminId : String
  range : ExportRange
  createdAt : Option DateTimeFilter
  /-- The moment of the request. -/
  began : ℕ
  /-- The pages read so far, each with its moment. -/
  pages : List (ℕ × List ρ)
  phase : Phase

/-- The rows that have been written. -/
def Export.rows (e : Export ρ) : List ρ := e.pages.flatMap fun page => page.2

def Export.opened (e : Export ρ) : Bool :=
  match e.phase with
  | .auditing | .refused => false
  | .streaming | .ended | .destroyed _ => true

/-- The calls on the response so far. -/
def response (e : Export ρ) : List ResponseCall :=
  let written := opening (toString : ℤ → String) report.filename report.header ++
    e.rows.map fun row => .write (csvRow (toString : ℤ → String) (report.toRow row))
  match e.phase with
  | .auditing | .refused => []
  | .streaming => written
  | .ended => written ++ [closing none]
  | .destroyed err => written ++ [closing (some err)]

structure World where
  table : Timeline (Table report.id)
  auditLogs : List AuditLog
  exports : List (Export ρ)

/-- A change of stored rows; nothing changes an id or a creation date. -/
structure Change where
  set : ρ → ρ
  id_eq : ∀ r, report.id (set r) = report.id r
  createdAt_eq : ∀ r, report.createdAt (set r) = report.createdAt r

inductive Action where
  | insert (row : ρ)
  | update (change : Change report)
  | start (adminId : String) (range : ExportRange)
  | audit (n : ℕ)
  | refuse (n : ℕ)
  | fetchPage (n : ℕ)
  | fail (n : ℕ) (err : Thrown)

variable {report}

/-- The next page: the rows read so far are skipped. -/
def nextPage (w : World report) (e : Export ρ) (filter : DateTimeFilter) : List ρ :=
  ((report.listing filter w.table.now).drop e.rows.length).take DEFAULT_CSV_PAGE_SIZE

/-- A page was read and written. -/
def fetched (w : World report) (e : Export ρ) (filter : DateTimeFilter) : Export ρ :=
  let page := nextPage w e filter
  { e with
    pages := e.pages ++ [(w.table.moment, page)]
    phase := if page.length < DEFAULT_CSV_PAGE_SIZE then .ended else .streaming }

/-- What an export becomes by an action of its own. -/
def exportStep (w : World report) (e : Export ρ) : Action report → Option (Export ρ)
  | .audit _ =>
    match e.phase with
    | .auditing => some { e with phase := .streaming }
    | _ => none
  | .refuse _ =>
    match e.phase with
    | .auditing => some { e with phase := .refused }
    | _ => none
  | .fetchPage _ =>
    match e.phase, e.createdAt with
    | .streaming, some filter => some (fetched w e filter)
    | _, _ => none
  | .fail _ err =>
    match e.phase with
    | .streaming => some { e with phase := .destroyed err }
    | _ => none
  | _ => none

/-- The audit rows that an action of an export writes. -/
def logsOf (e : Export ρ) : Action report → List AuditLog
  | .audit _ => [exportLog e.adminId e.range]
  | _ => []

/-- An export goes on. -/
def ownStep (w : World report) (n : ℕ) (a : Action report) : Option (World report) :=
  match w.exports[n]? with
  | some e =>
    (exportStep w e a).map fun e' =>
      { w with auditLogs := w.auditLogs ++ logsOf e a, exports := w.exports.set n e' }
  | none => none

def step (newDate : String → Option Instant) (w : World report) (a : Action report) :
    Option (World report) :=
  match a with
  | .insert row => some { w with table := w.table.change (w.table.now.insertNew row) }
  | .update change =>
    some { w with
      table := w.table.change (w.table.now.updateMany (fun _ => True) change.set change.id_eq) }
  | .start adminId range =>
    some { w with
      exports := w.exports ++ [⟨adminId, range, createdAtWhere newDate range, w.table.moment, [],
        if report.audited then .auditing else .streaming⟩] }
  | .audit n | .refuse n | .fetchPage n | .fail n _ => ownStep w n a

/-- Nothing has been exported yet. -/
structure Initial (w : World report) : Prop where
  past : w.table.past = []
  auditLogs : w.auditLogs = []
  exports : w.exports = []

/-- What a step does: the rows change, an export starts, or an export goes on. -/
inductive Stepped (newDate : String → Option Instant) (w w' : World report) (a : Action report) :
    Prop
  | insert (row : ρ) (ha : a = .insert row)
      (h : w' = { w with table := w.table.change (w.table.now.insertNew row) })
  | update (change : Change report)
      (h : w' = { w with
        table := w.table.change (w.table.now.updateMany (fun _ => True) change.set change.id_eq) })
  | start (adminId : String) (range : ExportRange)
      (h : w' = { w with
        exports := w.exports ++ [⟨adminId, range, createdAtWhere newDate range, w.table.moment, [],
          if report.audited then .auditing else .streaming⟩] })
  | own (n : ℕ) (e e' : Export ρ) (he : w.exports[n]? = some e) (he' : exportStep w e a = some e')
      (h : w' = { w with auditLogs := w.auditLogs ++ logsOf e a, exports := w.exports.set n e' })

theorem stepped_of_step {newDate : String → Option Instant} {w w' : World report}
    {a : Action report} (h : step newDate w a = some w') : Stepped newDate w w' a := by
  have hown : ∀ n, ownStep w n a = some w' → Stepped newDate w w' a := by
    intro n h
    unfold ownStep at h
    cases he : w.exports[n]? with
    | none =>
      rw [he] at h
      cases h
    | some e =>
      rw [he] at h
      obtain ⟨e', he', h⟩ := Option.map_eq_some_iff.mp h
      exact .own n e e' he he' h.symm
  cases a with
  | insert row => exact .insert row rfl (Option.some.inj h).symm
  | update change => exact .update change (Option.some.inj h).symm
  | start adminId range => exact .start adminId range (Option.some.inj h).symm
  | audit n => exact hown n h
  | refuse n => exact hown n h
  | fetchPage n => exact hown n h
  | fail n err => exact hown n h

/-- What an export does by itself. -/
inductive Moved (w : World report) (e e' : Export ρ) (a : Action report) : Prop
  | audited (n : ℕ) (ha : a = .audit n) (hphase : e.phase = .auditing)
      (h : e' = { e with phase := .streaming })
  | refused (n : ℕ) (ha : a = .refuse n) (hphase : e.phase = .auditing)
      (h : e' = { e with phase := .refused })
  | fetched (n : ℕ) (filter : DateTimeFilter) (ha : a = .fetchPage n)
      (hphase : e.phase = .streaming) (hfilter : e.createdAt = some filter)
      (h : e' = AdminExports.fetched w e filter)
  | failed (n : ℕ) (err : Thrown) (ha : a = .fail n err) (hphase : e.phase = .streaming)
      (h : e' = { e with phase := .destroyed err })

theorem moved_of_exportStep {w : World report} {e e' : Export ρ} {a : Action report}
    (h : exportStep w e a = some e') : Moved w e e' a := by
  cases a with
  | insert row => cases h
  | update change => cases h
  | start adminId range => cases h
  | audit n =>
    simp only [exportStep] at h
    split at h
    · next hphase => exact .audited n rfl hphase (Option.some.inj h).symm
    · cases h
  | refuse n =>
    simp only [exportStep] at h
    split at h
    · next hphase => exact .refused n rfl hphase (Option.some.inj h).symm
    · cases h
  | fetchPage n =>
    simp only [exportStep] at h
    split at h
    · next hphase hfilter => exact .fetched n _ rfl hphase hfilter (Option.some.inj h).symm
    · cases h
  | fail n err =>
    simp only [exportStep] at h
    split at h
    · next hphase => exact .failed n err rfl hphase (Option.some.inj h).symm
    · cases h

end Processes

end Kurtar.AdminExports

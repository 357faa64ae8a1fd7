import Kurtar.TaskPools
import Kurtar.SettlementService

/-!
# Commission invoices

When a batch is sent, an event asks for its commission invoices: one for the
bag fees and one for the membership offset. A worker reads the batch, looks
the taxpayer up, drafts or adopts each invoice row, asks the provider for the
document and records its answer, one statement at a time. The event may be
delivered again at any time, and an admin may issue a draft by hand. The
provider keeps one document for each invoice id: a repeated request is
answered with the first one.
-/

namespace Kurtar.CommissionInvoices

open KeyedTable TaskPools IstanbulCalendar SettlementMath SettlementLedger SettlementService

abbrev InvoiceId := ℕ

inductive InvoiceType where
  | bagFee | membership
  deriving DecidableEq

inductive EDocType where
  | efatura | earsivfatura
  deriving DecidableEq

inductive InvoiceStatus where
  | draft | sent
  deriving DecidableEq

structure EDocumentInvoiceLine where
  description : String
  amountCents : ℤ
  vatCents : ℤ
  deriving DecidableEq

/-- A stored invoice; `lines` is `linesJson`. -/
structure CommissionInvoice where
  id : InvoiceId
  merchantId : MerchantId
  batchId : BatchId
  type : InvoiceType
  docType : EDocType
  nilveraDocId : Option String := none
  status : InvoiceStatus := .draft
  issuedAt : Option Instant := none
  netAmountCents : ℤ
  vatCents : ℤ
  totalAmountCents : ℤ
  lines : List EDocumentInvoiceLine

/-- The merchant columns an invoice is addressed to. -/
structure Buyer where
  taxId : String
  legalName : String

/-- What the provider is asked to issue. -/
structure EDocumentInvoiceInput where
  invoiceId : InvoiceId
  docType : EDocType
  buyerTaxId : String
  buyerLegalName : String
  lines : List EDocumentInvoiceLine
  totalAmountCents : ℤ

/-- A document the provider issued. -/
structure ProviderDocument where
  input : EDocumentInvoiceInput
  docId : String

structure ReissueAudit where
  adminId : AdminId
  invoiceId : InvoiceId
  merchantId : MerchantId
  batchId : BatchId
  type : InvoiceType
  docType : EDocType
  nilveraDocId : String
  totalAmountCents : ℤ

/-- Stored rows, the provider's documents and the mails sent to operators. -/
structure Books where
  settlement : World
  buyers : MerchantId → Buyer
  invoices : Table CommissionInvoice.id
  documents : List ProviderDocument
  opsAlerts : List (BatchId × MerchantId × Buyer)
  auditLog : List ReissueAudit

/-- One invoice to draft and issue, as `createAndIssue` is given it. -/
structure InvoiceRequest where
  merchantId : MerchantId
  buyer : Buyer
  batchId : BatchId
  type : InvoiceType
  docType : EDocType
  netAmountCents : ℤ
  vatCents : ℤ
  lines : List EDocumentInvoiceLine

def InvoiceRequest.totalAmountCents (r : InvoiceRequest) : ℤ := r.netAmountCents+r.vatCents

/-- The rest of a delivery or of a manual re-issue. -/
inductive InvoiceTask where
  | read (batchId : BatchId)
  | lookup (batch : Batch) (settlementLines : List SettlementLine) (buyer : Buyer)
  /-- Find the row of the next invoice. -/
  | find (requests : List InvoiceRequest)
  | create (request : InvoiceRequest) (later : List InvoiceRequest)
  /-- Another worker drafted the row first. -/
  | adopt (request : InvoiceRequest) (later : List InvoiceRequest)
  | issue (invoice : CommissionInvoice) (request : InvoiceRequest) (later : List InvoiceRequest)
  | record (invoiceId : InvoiceId) (docId : String) (later : List InvoiceRequest)
  | reissueRead (invoiceId : InvoiceId) (adminId : AdminId)
  | reissue (invoice : CommissionInvoice) (buyer : Buyer) (adminId : AdminId)
  | reissueRecord (invoice : CommissionInvoice) (docId : String) (adminId : AdminId)

/-- How a request to the provider ends. -/
inductive IssueOutcome where
  | answered (docId : String)
  /-- The document was issued but the answer was lost. -/
  | answerLost (docId : String)
  | failed
  deriving DecidableEq

/-- What the outside supplies to one step. -/
structure InvoiceInput where
  clock : Instant
  /-- Identity for a row that the step may create. -/
  freshId : InvoiceId
  /-- The order in which a query without one returns the lines. -/
  rank : ReservationId → ℕ
  /-- The taxpayer lookup; none when it is unknown or failed. -/
  isEFaturaUser : Option Bool
  provider : IssueOutcome

/-- What may happen besides the next step of a task. -/
inductive InvoiceEvent where
  | settle (a : Action)
  /-- The event of a sent batch is delivered, for the first time or again. -/
  | deliver (batchId : BatchId)
  | adminReissue (invoiceId : InvoiceId) (adminId : AdminId)
  | correctBuyer (merchantId : MerchantId) (buyer : Buyer)

/-- Ten digits or eleven. -/
def isValidTaxId (taxId : String) : Bool :=
  taxId.toList.all Char.isDigit && (taxId.length = 10 || taxId.length = 11)

/-- An unknown taxpayer gets the same document as one that is no e-Fatura user. -/
def docTypeOf (isEFaturaUser : Option Bool) : EDocType :=
  if isEFaturaUser = some true then .efatura else .earsivfatura

/-- One line for each reservation that was charged a fee. -/
def bagFeeLines (settlementLines : List SettlementLine) : List EDocumentInvoiceLine :=
  (settlementLines.filter fun l => l.bagFeeCents > 0).map fun l =>
    { description := s!"Platform hizmet bedeli — rezervasyon {l.reservationId}"
      amountCents := l.bagFeeCents
      vatCents := l.bagFeeVatCents }

def bagFeeRequest (batch : Batch) (settlementLines : List SettlementLine) (buyer : Buyer)
    (docType : EDocType) : InvoiceRequest :=
  { merchantId := batch.merchantId
    buyer
    batchId := batch.id
    type := .bagFee
    docType
    netAmountCents := batch.bagFeeCents
    vatCents := batch.bagFeeVatCents
    lines := bagFeeLines settlementLines }

def membershipRequest (batch : Batch) (buyer : Buyer) (docType : EDocType) : InvoiceRequest :=
  let membershipNetCents := batch.membershipOffsetCents-batch.membershipOffsetVatCents
  { merchantId := batch.merchantId
    buyer
    batchId := batch.id
    type := .membership
    docType
    netAmountCents := membershipNetCents
    vatCents := batch.membershipOffsetVatCents
    lines := [{ description := "Yıllık üyelik ücreti (dönemsel mahsup)"
                amountCents := membershipNetCents
                vatCents := batch.membershipOffsetVatCents }] }

/-- The invoices of a sent batch, in the order in which they are issued. -/
def createInvoicesForSentBatch (batch : Batch) (settlementLines : List SettlementLine)
    (buyer : Buyer) (docType : EDocType) : List InvoiceRequest :=
  (if batch.bagFeeCents > 0 then [bagFeeRequest batch settlementLines buyer docType] else []) ++
    if batch.membershipOffsetCents > 0 then [membershipRequest batch buyer docType] else []

/-- The row of a batch and type. -/
def findInvoice (invoices : Table CommissionInvoice.id) (batchId : BatchId) (type : InvoiceType) :
    Option CommissionInvoice :=
  invoices.rows.find? fun i => i.batchId = batchId ∧ i.type = type

/-- The row `create` stores for a request. -/
def draftOf (id : InvoiceId) (request : InvoiceRequest) : CommissionInvoice :=
  { id
    merchantId := request.merchantId
    batchId := request.batchId
    type := request.type
    docType := request.docType
    netAmountCents := request.netAmountCents
    vatCents := request.vatCents
    totalAmountCents := request.totalAmountCents
    lines := request.lines }

/-- With a row at hand: an issued one is left alone, a draft is issued. -/
def proceedWith (invoice : CommissionInvoice) (request : InvoiceRequest)
    (later : List InvoiceRequest) : InvoiceTask :=
  if invoice.status = .draft then .issue invoice request later else .find later

/-- What a delivery asks the provider for: the row's id, its own data. -/
def requestInput (invoice : CommissionInvoice) (request : InvoiceRequest) :
    EDocumentInvoiceInput :=
  { invoiceId := invoice.id
    docType := request.docType
    buyerTaxId := request.buyer.taxId
    buyerLegalName := request.buyer.legalName
    lines := request.lines
    totalAmountCents := request.totalAmountCents }

/-- What a manual re-issue asks the provider for: the row's own data. -/
def storedInput (invoice : CommissionInvoice) (buyer : Buyer) : EDocumentInvoiceInput :=
  { invoiceId := invoice.id
    docType := invoice.docType
    buyerTaxId := buyer.taxId
    buyerLegalName := buyer.legalName
    lines := invoice.lines
    totalAmountCents := invoice.totalAmountCents }

/-- The provider's side of a request it accepts: a known invoice id is
answered with the document of the first request. -/
def acceptIssue (documents : List ProviderDocument) (input : EDocumentInvoiceInput)
    (docId : String) : List ProviderDocument × String :=
  match documents.find? fun d => d.input.invoiceId = input.invoiceId with
  | some existing => (documents, existing.docId)
  | none => (⟨input, docId⟩ :: documents, docId)

/-- Ask the provider; go on only with an answer. -/
def askProvider (s : Books) (input : EDocumentInvoiceInput) (outcome : IssueOutcome)
    (next : String → InvoiceTask) : Books × List InvoiceTask :=
  match outcome with
  | .answered docId =>
    let accepted := acceptIssue s.documents input docId
    ({ s with documents := accepted.1 }, [next accepted.2])
  | .answerLost docId => ({ s with documents := (acceptIssue s.documents input docId).1 }, [])
  | .failed => (s, [])

/-- Store the document's id on the row. -/
def markInvoiceSent (invoices : Table CommissionInvoice.id) (id : InvoiceId) (docId : String)
    (clock : Instant) : Table CommissionInvoice.id :=
  invoices.updateMany (fun i => i.id = id)
    (fun i => { i with status := .sent, issuedAt := some clock, nilveraDocId := some docId })
    fun _ => rfl

/-- The lines of a batch, in the order the database returned them. -/
def readLines (l : Ledger) (batchId : BatchId) (rank : ReservationId → ℕ) : List SettlementLine :=
  (l.lines.rows.filter fun line => line.batchId = batchId).insertionSort
    fun a b => rank a.reservationId ≤ rank b.reservationId

/-- Read the batch; an invalid tax id is reported to the operators and ends the delivery. -/
def readBatch (s : Books) (batchId : BatchId) (input : InvoiceInput) : Books × List InvoiceTask :=
  match s.settlement.ledger.batches.find? batchId with
  | none => (s, [])
  | some batch =>
    let buyer := s.buyers batch.merchantId
    if isValidTaxId buyer.taxId then
      (s, [.lookup batch (readLines s.settlement.ledger batchId input.rank) buyer])
    else ({ s with opsAlerts := (batchId, batch.merchantId, buyer) :: s.opsAlerts }, [])

/-- Create the draft, or learn that another worker did. -/
def createDraft (s : Books) (request : InvoiceRequest) (later : List InvoiceRequest)
    (input : InvoiceInput) : Option (Books × List InvoiceTask) :=
  if (findInvoice s.invoices request.batchId request.type).isSome then
    some (s, [.adopt request later])
  else if s.invoices.find? input.freshId = none then
    let draft := draftOf input.freshId request
    some ({ s with invoices := s.invoices.insertNew draft }, [.issue draft request later])
  else none

/-- A manual re-issue needs a draft and a valid tax id. -/
def readDraft (s : Books) (invoiceId : InvoiceId) (adminId : AdminId) : List InvoiceTask :=
  match s.invoices.find? invoiceId with
  | none => []
  | some invoice =>
    let buyer := s.buyers invoice.merchantId
    if invoice.status = .draft ∧ isValidTaxId buyer.taxId = true then
      [.reissue invoice buyer adminId]
    else []

/-- The next step of a task. A step that throws leaves no task. -/
def resumeInvoiceTask (s : Books) (input : InvoiceInput) : InvoiceTask → Option (Books × List InvoiceTask)
  | .read batchId => some (readBatch s batchId input)
  | .lookup batch settlementLines buyer =>
    some (s, [.find (createInvoicesForSentBatch batch settlementLines buyer
      (docTypeOf input.isEFaturaUser))])
  | .find [] => some (s, [])
  | .find (request :: later) =>
    match findInvoice s.invoices request.batchId request.type with
    | some invoice => some (s, [proceedWith invoice request later])
    | none => some (s, [.create request later])
  | .create request later => createDraft s request later input
  | .adopt request later =>
    match findInvoice s.invoices request.batchId request.type with
    | some invoice => some (s, [proceedWith invoice request later])
    | none => some (s, [])
  | .issue invoice request later =>
    some (askProvider s (requestInput invoice request) input.provider
      fun docId => .record invoice.id docId later)
  | .record invoiceId docId later =>
    some ({ s with invoices := markInvoiceSent s.invoices invoiceId docId input.clock },
      [.find later])
  | .reissueRead invoiceId adminId => some (s, readDraft s invoiceId adminId)
  | .reissue invoice buyer adminId =>
    some (askProvider s (storedInput invoice buyer) input.provider
      fun docId => .reissueRecord invoice docId adminId)
  | .reissueRecord invoice docId adminId =>
    some ({ s with
      invoices := markInvoiceSent s.invoices invoice.id docId input.clock
      auditLog :=
        { adminId
          invoiceId := invoice.id
          merchantId := invoice.merchantId
          batchId := invoice.batchId
          type := invoice.type
          docType := invoice.docType
          nilveraDocId := docId
          totalAmountCents := invoice.totalAmountCents } :: s.auditLog }, [])

/-- What an event does and which procedure it starts. Only a published event is delivered. -/
def handleEvent (s : Books) : InvoiceEvent → Option (Books × List InvoiceTask)
  | .settle a => (step s.settlement a).map fun w => ({ s with settlement := w }, [])
  | .deliver batchId =>
    if ∃ payload ∈ s.settlement.outbox, payload.batchId = batchId then some (s, [.read batchId])
    else none
  | .adminReissue invoiceId adminId => some (s, [.reissueRead invoiceId adminId])
  | .correctBuyer merchantId buyer =>
    some ({ s with buyers := fun m => if m = merchantId then buyer else s.buyers m }, [])

def invoicing : System Books InvoiceTask InvoiceEvent InvoiceInput where
  event := handleEvent
  resume s _ input task := resumeInvoiceTask s input task

/-- Settlement at rest and no invoice yet. -/
structure InitialBooks (p : Pool Books InvoiceTask) : Prop where
  settlement : SettlementService.Initial p.shared.settlement
  invoices : p.shared.invoices = Table.empty
  documents : p.shared.documents = []
  tasks : p.tasks = []

abbrev InvoicingReachable (ok : Pool Books InvoiceTask → PoolAction InvoiceEvent InvoiceInput → Prop) :
    Pool Books InvoiceTask → Prop :=
  GuardedRuns.Reachable invoicing.step ok InitialBooks

end Kurtar.CommissionInvoices

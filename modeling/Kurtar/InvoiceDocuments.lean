import Kurtar.CommissionInvoices
import Kurtar.SettledOnce

/-!
# Invoice rows and the documents issued for them

The batch of an invoice was sent, so its amounts and lines no longer move:
every attempt computes the amounts that the first one stored. The kind of the
document is looked up anew by each attempt, and the document is the one of the
first request that the provider accepted. Row and document agree when that
request was made with what the row stores.
-/

namespace Kurtar.InvoiceDocuments

open KeyedTable GuardedRuns TaskPools StatusTransitions SettlementMath SettlementLedger
open SettlementRecompute SettlementTransactions SettlementService SettlementEffects
open SettlementLines SettledOnce CommissionInvoices

/-- The amounts of a batch that its invoices bill, net and VAT. -/
def billedAmounts (b : Batch) : InvoiceType → ℤ × ℤ
  | .bagFee => (b.bagFeeCents, b.bagFeeVatCents)
  | .membership =>
    (b.membershipOffsetCents-b.membershipOffsetVatCents, b.membershipOffsetVatCents)

/-- Amounts and lines that bill a paid-out batch. -/
structure Bills (l : Ledger) (batchId : BatchId) (type : InvoiceType) (netCents vatCents : ℤ)
    (lines : List EDocumentInvoiceLine) : Prop where
  batch : ∃ b ∈ l.batches.rows, b.id = batchId ∧ paidOut b.status ∧
    billedAmounts b type = (netCents, vatCents)
  net : netCents = (lines.map (·.amountCents)).sum
  vat : vatCents = (lines.map (·.vatCents)).sum

/-- A paid-out batch stays so and keeps the amounts that are billed. -/
theorem commit_keeps_billed {l l' : Ledger} {t : Transaction} (h : commit l t = some l')
    {b : Batch} (hb : b ∈ l.batches.rows) (hp : paidOut b.status) :
    ∃ b' ∈ l'.batches.rows, b'.id = b.id ∧ paidOut b'.status ∧
      ∀ type, billedAmounts b' type = billedAmounts b type := by
  cases commit_effect h with
  | unchanged => exact ⟨b, hb, rfl, hp, fun _ => rfl⟩
  | created => exact ⟨b, Table.mem_insertNew.mpr (Or.inl hb), rfl, hp, fun _ => rfl⟩
  | @passed _ _ _ _ batch _ _ _ hpass =>
    have hne : b.id ≠ batch.id := by
      intro hid
      rw [l.batches.eq_of_key_eq hb hpass.batch_mem hid] at hp
      rcases Batch.recomputable_iff.mp hpass.recomputable with ho | ho <;> simp [paidOut, ho] at hp
    exact ⟨b, hpass.replaces.mem_of_ne hb hne, rfl, hp, fun _ => rfl⟩
  | @flipped _ old new _ hflip hrep _ =>
    by_cases hid : b.id = old.id
    · have hkeeps := hflip.keeps
      rw [l.batches.eq_of_key_eq hb hrep.mem_old hid] at hp ⊢
      refine ⟨new, hrep.mem_new, hrep.key_new, hflip.paidOut hp, ?_⟩
      intro type
      rw [hkeeps]
      cases type <;> rfl
    · exact ⟨b, hrep.mem_of_ne hb hid, rfl, hp, fun _ => rfl⟩
  | business hframe =>
    rw [hframe.1]
    exact ⟨b, hb, rfl, hp, fun _ => rfl⟩

/-- As `commit_keeps_billed`, for a step of the settlement services. -/
theorem commits_keeps_billed {l l' : Ledger} {tx : Option Transaction} (h : Commits l l' tx)
    {b : Batch} (hb : b ∈ l.batches.rows) (hp : paidOut b.status) :
    ∃ b' ∈ l'.batches.rows, b'.id = b.id ∧ paidOut b'.status ∧
      ∀ type, billedAmounts b' type = billedAmounts b type := by
  rcases h with h | ⟨t, _, hc⟩
  · rw [h]
    exact ⟨b, hb, rfl, hp, fun _ => rfl⟩
  · exact commit_keeps_billed hc hb hp

section Published

/-- A published batch has been sent. -/
def PublishedSent (w : World) : Prop :=
  ∀ payload ∈ w.outbox, ∃ b ∈ w.ledger.batches.rows, b.id = payload.batchId ∧ paidOut b.status

theorem markSent_publishes {w w' : World} {batchId : BatchId} {ref : String}
    {input : StepInput} (h : markSent w batchId ref input = some w') :
    ∀ payload ∈ w'.outbox, payload ∈ w.outbox ∨
      ∃ b ∈ w'.ledger.batches.rows, b.id = payload.batchId ∧ paidOut b.status := by
  unfold markSent at h
  cases hm : markBatchSent w.ledger batchId ref input.clock with
  | none =>
    simp only [hm, Option.some.injEq] at h
    rw [← h]
    exact fun _ hp => Or.inl hp
  | some ledger =>
    cases hf : ledger.batches.find? batchId with
    | none => simp [hm, hf] at h
    | some fresh =>
      simp only [hm, hf, Option.some.injEq] at h
      rw [← h]
      intro payload hp
      rcases List.mem_cons.mp hp with rfl | hp
      · obtain ⟨b, hid, _, hrep, _⟩ := updateBatch_eq_some hm
        exact Or.inr ⟨_, hrep.mem_new, hrep.key_new.trans hid, Or.inl rfl⟩
      · exact Or.inl hp

/-- Only a send publishes. -/
theorem step_publishes {w w' : World} {a : Action} (h : step w a = some w') :
    ∀ payload ∈ w'.outbox, payload ∈ w.outbox ∨
      ∃ b ∈ w'.ledger.batches.rows, b.id = payload.batchId ∧ paidOut b.status := by
  have hsame : w'.outbox = w.outbox → ∀ payload ∈ w'.outbox, payload ∈ w.outbox ∨
      ∃ b ∈ w'.ledger.batches.rows, b.id = payload.batchId ∧ paidOut b.status := by
    intro he payload hp
    exact Or.inl (he ▸ hp)
  cases a with
  | resume index input =>
    simp only [step] at h
    cases ht : w.tasks[index]? with
    | none => simp [ht] at h
    | some task =>
      simp only [ht] at h
      cases task with
      | markSent batchId ref =>
        exact markSent_publishes (w := { w with tasks := w.tasks.eraseIdx index }) h
      | _ =>
        apply hsame
        simp only [resumeTask, nightlyGroups, nightlyRecompute, nightlySweep,
          nightlySweepCreate, nightlySweepRecompute, approveRecompute, approveFlip,
          retryRecompute, executeOne, payoutStamp, payoutCall] at h
        repeat' split at h
        all_goals cases h
        all_goals rfl
  | _ =>
    apply hsame
    simp only [step, adminApprove, adminHold, adminRetry, adminMarkSettled] at h
    repeat' split at h
    all_goals cases h
    all_goals rfl

theorem publishedSent_of_reachable {w : World} (h : ServiceReachable anyStep w) :
    PublishedSent w := by
  refine h.invariant (I := PublishedSent) ?_ ?_
  · intro w hw payload hp
    rw [hw.outbox] at hp
    cases hp
  · intro w a w' hinv _ ht payload hp
    rcases step_publishes ht payload hp with hold | hsent
    · obtain ⟨b, hb, hid, hpaid⟩ := hinv payload hold
      obtain ⟨b', hb', hid', hpaid', _⟩ := commits_keeps_billed (step_commits ht) hb hpaid
      exact ⟨b', hb', hid'.trans hid, hpaid'⟩
    · exact hsent

end Published

section Amounts

/-- The lines that are billed carry the whole fee and its VAT. -/
theorem bagFeeLines_sums {lines : List SettlementLine}
    (hfair : ∀ line ∈ lines, FairlyCharged (chargesOf line)) :
    ((bagFeeLines lines).map (·.amountCents)).sum = (lines.map (·.bagFeeCents)).sum ∧
      ((bagFeeLines lines).map (·.vatCents)).sum = (lines.map (·.bagFeeVatCents)).sum := by
  induction lines with
  | nil => exact ⟨rfl, rfl⟩
  | cons line lines ih =>
    obtain ⟨hline, hrest⟩ := List.forall_mem_cons.mp hfair
    obtain ⟨hnet, hvat⟩ := ih hrest
    unfold bagFeeLines at hnet hvat ⊢
    by_cases hpos : line.bagFeeCents > 0
    · rw [List.filter_cons_of_pos (by simpa using hpos)]
      simp only [List.map_cons, List.sum_cons, hnet, hvat, and_self]
    · -- a line without a fee carries no VAT either
      have hzero : line.bagFeeCents = 0 := le_antisymm (not_lt.mp hpos) hline.1
      have hvatZero : line.bagFeeVatCents = 0 := hline.vat_eq_zero hzero
      rw [List.filter_cons_of_neg (by simpa using hpos)]
      simp only [List.map_cons, List.sum_cons, hnet, hvat, hzero, hvatZero, zero_add, and_self]

/-- The order of the rows does not change a sum. -/
theorem readLines_sum (l : Ledger) (batchId : BatchId) (rank : ReservationId → ℕ)
    (f : SettlementLineResult → ℤ) :
    ((readLines l batchId rank).map fun line => f (chargesOf line)).sum =
      ((batchCharges l batchId).map f).sum := by
  unfold readLines batchCharges
  rw [((List.perm_insertionSort _ _).map fun line => f (chargesOf line)).sum_eq, List.map_map]
  rfl

/-- What a delivery reads bills the batch, whatever the lookup answers. -/
theorem bills_of_read {w : World} (h : ServiceReachable anyStep w) {b : Batch}
    (hb : b ∈ w.ledger.batches.rows) (hp : paidOut b.status) (rank : ReservationId → ℕ)
    (buyer : Buyer) (docType : EDocType) :
    ∀ r ∈ createInvoicesForSentBatch b (readLines w.ledger b.id rank) buyer docType,
      Bills w.ledger r.batchId r.type r.netAmountCents r.vatCents r.lines := by
  intro r hr
  rcases List.mem_append.mp hr with hr | hr
  · split_ifs at hr
    · cases List.mem_singleton.mp hr
      have hadds := (settling_of_reachable h).lines.adds b hb
      have hfair : ∀ line ∈ readLines w.ledger b.id rank, FairlyCharged (chargesOf line) := by
        intro line hline
        unfold readLines at hline
        rw [List.mem_insertionSort] at hline
        exact fairLines_of_reachable h b.id _ (List.mem_map_of_mem hline)
      obtain ⟨hnet, hvat⟩ := bagFeeLines_sums hfair
      have hfees := readLines_sum w.ledger b.id rank (·.bagFeeCents)
      have hvats := readLines_sum w.ledger b.id rank (·.bagFeeVatCents)
      refine ⟨⟨b, hb, rfl, hp, rfl⟩, ?_, ?_⟩
      · change b.bagFeeCents = ((bagFeeLines _).map _).sum
        rw [hnet, hadds.bagFee]
        exact hfees.symm
      · change b.bagFeeVatCents = ((bagFeeLines _).map _).sum
        rw [hvat, hadds.bagFeeVat]
        exact hvats.symm
    · cases hr
  · split_ifs at hr
    · cases List.mem_singleton.mp hr
      exact ⟨⟨b, hb, rfl, hp, rfl⟩, by simp [membershipRequest], by simp [membershipRequest]⟩
    · cases hr

end Amounts

/-- The columns of an invoice that are written once, when it is drafted. -/
structure SameInvoice (i j : CommissionInvoice) : Prop where
  id : i.id = j.id
  batchId : i.batchId = j.batchId
  type : i.type = j.type
  docType : i.docType = j.docType
  netAmountCents : i.netAmountCents = j.netAmountCents
  vatCents : i.vatCents = j.vatCents
  totalAmountCents : i.totalAmountCents = j.totalAmountCents
  lines : i.lines = j.lines

theorem SameInvoice.refl (i : CommissionInvoice) : SameInvoice i i :=
  ⟨rfl, rfl, rfl, rfl, rfl, rfl, rfl, rfl⟩

theorem SameInvoice.trans {i j k : CommissionInvoice} (h : SameInvoice i j)
    (h' : SameInvoice j k) : SameInvoice i k :=
  ⟨h.1.trans h'.1, h.2.trans h'.2, h.3.trans h'.3, h.4.trans h'.4, h.5.trans h'.5,
    h.6.trans h'.6, h.7.trans h'.7, h.8.trans h'.8⟩

/-- The row an earlier read returned is still there. -/
def Stored (invoices : Table CommissionInvoice.id) (i : CommissionInvoice) : Prop :=
  ∃ row ∈ invoices.rows, SameInvoice row i

/-- The row bills its batch. -/
structure RowSound (l : Ledger) (i : CommissionInvoice) : Prop where
  bills : Bills l i.batchId i.type i.netAmountCents i.vatCents i.lines
  total : i.totalAmountCents = i.netAmountCents+i.vatCents

def RequestSound (l : Ledger) (r : InvoiceRequest) : Prop :=
  Bills l r.batchId r.type r.netAmountCents r.vatCents r.lines

/-- Rows bill their batches, one for each batch and type; documents have rows, one for each. -/
structure Sound (s : Books) : Prop where
  settlement : ServiceReachable anyStep s.settlement
  rows : ∀ i ∈ s.invoices.rows, RowSound s.settlement.ledger i
  unique : ∀ i ∈ s.invoices.rows, ∀ j ∈ s.invoices.rows, i.batchId = j.batchId →
    i.type = j.type → i = j
  documents_distinct : (s.documents.map (·.input.invoiceId)).Nodup
  /-- The document's total is the row's, whatever kind of document it is. -/
  documents_total : ∀ d ∈ s.documents, ∃ i ∈ s.invoices.rows, i.id = d.input.invoiceId ∧
    d.input.totalAmountCents = i.totalAmountCents

/-- What a task has read still holds. -/
def TaskSound (s : Books) : InvoiceTask → Prop
  | .read batchId => ∃ b ∈ s.settlement.ledger.batches.rows, b.id = batchId ∧ paidOut b.status
  | .lookup batch lines buyer => ∀ docType,
    ∀ r ∈ createInvoicesForSentBatch batch lines buyer docType, RequestSound s.settlement.ledger r
  | .find requests => ∀ r ∈ requests, RequestSound s.settlement.ledger r
  | .create request later | .adopt request later =>
    ∀ r ∈ request :: later, RequestSound s.settlement.ledger r
  | .issue invoice request later =>
    Stored s.invoices invoice ∧ invoice.batchId = request.batchId ∧ invoice.type = request.type ∧
      ∀ r ∈ request :: later, RequestSound s.settlement.ledger r
  | .record _ _ later => ∀ r ∈ later, RequestSound s.settlement.ledger r
  | .reissue invoice _ _ => Stored s.invoices invoice
  | .reissueRead _ _ | .reissueRecord _ _ _ => True

/-- What holds of an earlier state about batches and rows holds of a later one. -/
structure Extends (s s' : Books) : Prop where
  paid : ∀ b ∈ s.settlement.ledger.batches.rows, paidOut b.status →
    ∃ b' ∈ s'.settlement.ledger.batches.rows, b'.id = b.id ∧ paidOut b'.status ∧
      ∀ type, billedAmounts b' type = billedAmounts b type
  stored : ∀ i, Stored s.invoices i → Stored s'.invoices i

theorem Extends.of_frame {s s' : Books} (hsettlement : s'.settlement = s.settlement)
    (hstored : ∀ i, Stored s.invoices i → Stored s'.invoices i) : Extends s s' := by
  refine ⟨?_, hstored⟩
  rw [hsettlement]
  exact fun b hb hp => ⟨b, hb, rfl, hp, fun _ => rfl⟩

theorem Bills.kept {s s' : Books} (h : Extends s s') {batchId : BatchId} {type : InvoiceType}
    {net vat : ℤ} {lines : List EDocumentInvoiceLine}
    (hb : Bills s.settlement.ledger batchId type net vat lines) :
    Bills s'.settlement.ledger batchId type net vat lines := by
  obtain ⟨b, hmem, hid, hp, hamounts⟩ := hb.batch
  obtain ⟨b', hmem', hid', hp', hsame⟩ := h.paid b hmem hp
  exact ⟨⟨b', hmem', hid'.trans hid, hp', (hsame type).trans hamounts⟩, hb.net, hb.vat⟩

theorem TaskSound.kept {s s' : Books} (h : Extends s s') {task : InvoiceTask}
    (ht : TaskSound s task) : TaskSound s' task := by
  cases task with
  | read batchId =>
    obtain ⟨b, hb, hid, hp⟩ := ht
    obtain ⟨b', hb', hid', hp', _⟩ := h.paid b hb hp
    exact ⟨b', hb', hid'.trans hid, hp'⟩
  | lookup batch lines buyer => exact fun docType r hr => Bills.kept h (ht docType r hr)
  | find requests => exact fun r hr => Bills.kept h (ht r hr)
  | create request later => exact fun r hr => Bills.kept h (ht r hr)
  | adopt request later => exact fun r hr => Bills.kept h (ht r hr)
  | issue invoice request later =>
    exact ⟨h.stored invoice ht.1, ht.2.1, ht.2.2.1, fun r hr => Bills.kept h (ht.2.2.2 r hr)⟩
  | record _ _ later => exact fun r hr => Bills.kept h (ht r hr)
  | reissue invoice _ _ => exact h.stored invoice ht
  | reissueRead | reissueRecord => trivial

/-- Two amounts that bill the same batch and type are the same. -/
theorem Bills.total_eq {l : Ledger} {batchId : BatchId} {type : InvoiceType}
    {net net' vat vat' : ℤ} {lines lines' : List EDocumentInvoiceLine}
    (h : Bills l batchId type net vat lines) (h' : Bills l batchId type net' vat' lines') :
    net+vat = net'+vat' := by
  obtain ⟨b, hb, hid, _, hamounts⟩ := h.batch
  obtain ⟨b', hb', hid', _, hamounts'⟩ := h'.batch
  rw [l.batches.eq_of_key_eq hb' hb (hid'.trans hid.symm), hamounts, Prod.mk.injEq] at hamounts'
  rw [hamounts'.1, hamounts'.2]

theorem mem_of_findInvoice {invoices : Table CommissionInvoice.id} {batchId : BatchId}
    {type : InvoiceType} {i : CommissionInvoice} (h : findInvoice invoices batchId type = some i) :
    i ∈ invoices.rows ∧ i.batchId = batchId ∧ i.type = type := by
  have hp := List.find?_some h
  exact ⟨List.mem_of_find?_eq_some h, by simpa using hp⟩

theorem findInvoice_eq_none {invoices : Table CommissionInvoice.id} {batchId : BatchId}
    {type : InvoiceType} (h : findInvoice invoices batchId type = none) :
    ∀ i ∈ invoices.rows, i.batchId = batchId → i.type ≠ type := by
  intro i hi hb ht
  have hn := List.find?_eq_none.mp h i hi
  simp [hb, ht] at hn

/-- The documents after an accepted request: the old ones and, for a new id, its own. -/
theorem mem_acceptIssue {documents : List ProviderDocument} {input : EDocumentInvoiceInput}
    {docId : String} {d : ProviderDocument} (h : d ∈ (acceptIssue documents input docId).1) :
    d ∈ documents ∨ d.input = input ∧ ∀ e ∈ documents, e.input.invoiceId ≠ input.invoiceId := by
  unfold acceptIssue at h
  cases hf : documents.find? fun d => d.input.invoiceId = input.invoiceId with
  | none =>
    simp only [hf] at h
    rcases List.mem_cons.mp h with rfl | h
    · exact Or.inr ⟨rfl, by simpa using hf⟩
    · exact Or.inl h
  | some existing =>
    simp only [hf] at h
    exact Or.inl h

theorem acceptIssue_distinct {documents : List ProviderDocument} {input : EDocumentInvoiceInput}
    {docId : String} (h : (documents.map (·.input.invoiceId)).Nodup) :
    ((acceptIssue documents input docId).1.map (·.input.invoiceId)).Nodup := by
  unfold acceptIssue
  cases hf : documents.find? fun d => d.input.invoiceId = input.invoiceId with
  | none =>
    refine List.nodup_cons.mpr ⟨?_, h⟩
    rw [List.mem_map]
    rintro ⟨d, hd, hid⟩
    have hn := List.find?_eq_none.mp hf d hd
    exact hn (by simpa using hid)
  | some existing => exact h

/-- What one request to the provider changes. -/
structure Asked (s s' : Books) (input : EDocumentInvoiceInput) (outcome : IssueOutcome) :
    Prop where
  frame : s' = { s with documents := s'.documents }
  mem : ∀ d ∈ s'.documents, d ∈ s.documents ∨ d.input = input ∧ outcome ≠ .failed ∧
    ∀ e ∈ s.documents, e.input.invoiceId ≠ input.invoiceId
  distinct : (s.documents.map (·.input.invoiceId)).Nodup →
    (s'.documents.map (·.input.invoiceId)).Nodup

theorem askProvider_asked (s : Books) (input : EDocumentInvoiceInput) (outcome : IssueOutcome)
    (next : String → InvoiceTask) :
    Asked s (askProvider s input outcome next).1 input outcome ∧
      ∀ t ∈ (askProvider s input outcome next).2, ∃ docId, t = next docId := by
  cases outcome with
  | answered docId =>
    refine ⟨⟨rfl, ?_, acceptIssue_distinct⟩, ?_⟩
    · intro d hd
      rcases mem_acceptIssue hd with hold | ⟨he, hnone⟩
      · exact Or.inl hold
      · exact Or.inr ⟨he, by simp, hnone⟩
    · intro t ht
      exact ⟨_, List.mem_singleton.mp ht⟩
  | answerLost docId =>
    refine ⟨⟨rfl, ?_, acceptIssue_distinct⟩, fun _ ht => (by cases ht)⟩
    intro d hd
    rcases mem_acceptIssue hd with hold | ⟨he, hnone⟩
    · exact Or.inl hold
    · exact Or.inr ⟨he, by simp, hnone⟩
  | failed => exact ⟨⟨rfl, fun _ hd => Or.inl hd, id⟩, fun _ ht => (by cases ht)⟩

/-- What an accepted first request leaves: a state that is still sound. -/
theorem Asked.sound {s s' : Books} {input : EDocumentInvoiceInput} {outcome : IssueOutcome}
    (h : Asked s s' input outcome) (hs : Sound s)
    (hrow : ∃ i ∈ s.invoices.rows, i.id = input.invoiceId ∧
      input.totalAmountCents = i.totalAmountCents) : Sound s' ∧ Extends s s' := by
  have hframe := h.frame
  have hsettlement : s'.settlement = s.settlement := by rw [hframe]
  have hinvoices : s'.invoices = s.invoices := by rw [hframe]
  refine ⟨⟨?_, ?_, ?_, h.distinct hs.documents_distinct, ?_⟩, .of_frame hsettlement ?_⟩
  · rw [hsettlement]
    exact hs.settlement
  · rw [hsettlement, hinvoices]
    exact hs.rows
  · rw [hinvoices]
    exact hs.unique
  · rw [hinvoices]
    intro d hd
    rcases h.mem d hd with hold | ⟨he, _⟩
    · exact hs.documents_total d hold
    · rw [he]
      exact hrow
  · rw [hinvoices]
    exact fun _ hi => hi

/-- Recording a document moves no column that says what was billed. -/
theorem markInvoiceSent_same (invoices : Table CommissionInvoice.id) (id : InvoiceId)
    (docId : String) (clock : IstanbulCalendar.Instant) :
    (∀ i ∈ invoices.rows, ∃ row ∈ (markInvoiceSent invoices id docId clock).rows,
        SameInvoice row i) ∧
      ∀ row ∈ (markInvoiceSent invoices id docId clock).rows, ∃ i ∈ invoices.rows,
        SameInvoice row i := by
  have hsame : ∀ i : CommissionInvoice, SameInvoice
      (if i.id = id then
        { i with status := .sent, issuedAt := some clock, nilveraDocId := some docId }
      else i) i := by
    intro i
    split_ifs
    · exact ⟨rfl, rfl, rfl, rfl, rfl, rfl, rfl, rfl⟩
    · exact .refl i
  constructor
  · intro i hi
    exact ⟨_, List.mem_map_of_mem hi, hsame i⟩
  · intro row hrow
    obtain ⟨i, hi, rfl⟩ := List.mem_map.mp hrow
    exact ⟨i, hi, hsame i⟩

/-- Rows that are the old ones, up to what recording writes. -/
theorem sound_of_recorded {s : Books} (hs : Sound s) (id : InvoiceId) (docId : String)
    (clock : IstanbulCalendar.Instant) (auditLog : List ReissueAudit) :
    Sound { s with invoices := markInvoiceSent s.invoices id docId clock, auditLog } ∧
      Extends s { s with invoices := markInvoiceSent s.invoices id docId clock, auditLog } := by
  obtain ⟨hforth, hback⟩ := markInvoiceSent_same s.invoices id docId clock
  refine ⟨⟨hs.settlement, ?_, ?_, hs.documents_distinct, ?_⟩, .of_frame rfl ?_⟩
  · intro row hrow
    obtain ⟨i, hi, hsame⟩ := hback row hrow
    have hold := hs.rows i hi
    constructor
    · rw [hsame.batchId, hsame.type, hsame.netAmountCents, hsame.vatCents, hsame.lines]
      exact hold.bills
    · rw [hsame.totalAmountCents, hsame.netAmountCents, hsame.vatCents]
      exact hold.total
  · intro row hrow row' hrow' hb ht
    obtain ⟨i, hi, hsame⟩ := hback row hrow
    obtain ⟨i', hi', hsame'⟩ := hback row' hrow'
    have he := hs.unique i hi i' hi' (by rw [← hsame.batchId, ← hsame'.batchId, hb])
      (by rw [← hsame.type, ← hsame'.type, ht])
    exact Table.eq_of_key_eq _ hrow hrow' (by rw [hsame.id, hsame'.id, he])
  · intro d hd
    obtain ⟨i, hi, hid, htotal⟩ := hs.documents_total d hd
    obtain ⟨row, hrow, hsame⟩ := hforth i hi
    exact ⟨row, hrow, hsame.id.trans hid, htotal.trans hsame.totalAmountCents.symm⟩
  · rintro i ⟨old, hold, hsame⟩
    obtain ⟨row, hrow, hsame'⟩ := hforth old hold
    exact ⟨row, hrow, hsame'.trans hsame⟩

/-- A fresh draft that bills its batch joins the rows. -/
theorem sound_of_draft {s : Books} (hs : Sound s) {request : InvoiceRequest} {id : InvoiceId}
    (hnone : findInvoice s.invoices request.batchId request.type = none)
    (hfresh : s.invoices.find? id = none) (hr : RequestSound s.settlement.ledger request) :
    Sound { s with invoices := s.invoices.insertNew (draftOf id request) } ∧
      Extends s { s with invoices := s.invoices.insertNew (draftOf id request) } ∧
        Stored (s.invoices.insertNew (draftOf id request)) (draftOf id request) := by
  have hother := findInvoice_eq_none hnone
  have hkeep : ∀ i ∈ s.invoices.rows, i ∈ (s.invoices.insertNew (draftOf id request)).rows :=
    fun i hi => Table.mem_insertNew.mpr (Or.inl hi)
  refine ⟨⟨hs.settlement, ?_, ?_, hs.documents_distinct, ?_⟩, .of_frame rfl ?_, ?_⟩
  · intro i hi
    rcases Table.mem_insertNew.mp hi with hi | ⟨rfl, _⟩
    · exact hs.rows i hi
    · exact ⟨hr, rfl⟩
  · intro i hi j hj hb ht
    rcases Table.mem_insertNew.mp hi with hi | ⟨rfl, _⟩
    · rcases Table.mem_insertNew.mp hj with hj | ⟨rfl, _⟩
      · exact hs.unique i hi j hj hb ht
      · exact absurd ht (hother i hi hb)
    · rcases Table.mem_insertNew.mp hj with hj | ⟨rfl, _⟩
      · exact absurd ht.symm (hother j hj hb.symm)
      · rfl
  · intro d hd
    obtain ⟨i, hi, hrest⟩ := hs.documents_total d hd
    exact ⟨i, hkeep i hi, hrest⟩
  · rintro i ⟨row, hrow, hsame⟩
    exact ⟨row, hkeep row hrow, hsame⟩
  · exact ⟨_, Table.mem_insertNew.mpr (Or.inr ⟨rfl, Table.find?_eq_none.mp hfresh⟩), .refl _⟩

/-- Going on with a found row: it is issued, or it is done. -/
theorem taskSound_proceedWith {s : Books} {request : InvoiceRequest}
    {later : List InvoiceRequest} {i : CommissionInvoice}
    (hf : findInvoice s.invoices request.batchId request.type = some i)
    (hr : ∀ r ∈ request :: later, RequestSound s.settlement.ledger r) :
    TaskSound s (proceedWith i request later) := by
  obtain ⟨hi, hb, ht⟩ := mem_of_findInvoice hf
  unfold proceedWith
  split_ifs
  · exact ⟨⟨i, hi, .refl i⟩, hb, ht, hr⟩
  · exact fun r hmem => hr r (List.mem_cons_of_mem request hmem)

/-- What a step leaves: sound books that extend the old ones, and tasks whose
reads hold there. -/
structure StepSound (s : Books) (result : Books × List InvoiceTask) : Prop where
  sound : Sound result.1
  extend : Extends s result.1
  tasks : ∀ t ∈ result.2, TaskSound result.1 t

/-- A step that only reads. -/
theorem stepSound_of_read {s : Books} {started : List InvoiceTask} (hs : Sound s)
    (htasks : ∀ t ∈ started, TaskSound s t) : StepSound s (s, started) :=
  ⟨hs, .of_frame rfl fun _ hi => hi, htasks⟩

/-- A step that only reads and goes on with one task. -/
theorem stepSound_next {s : Books} {task : InvoiceTask} (hs : Sound s)
    (htask : TaskSound s task) : StepSound s (s, [task]) := by
  refine stepSound_of_read hs ?_
  intro t hmem
  rw [List.mem_singleton.mp hmem]
  exact htask

theorem readBatch_sound {s : Books} {batchId : BatchId} (hs : Sound s)
    (ht : TaskSound s (.read batchId)) (input : InvoiceInput) :
    StepSound s (readBatch s batchId input) := by
  obtain ⟨b, hb, hid, hp⟩ := ht
  subst hid
  simp only [readBatch, Table.find?_of_mem hb]
  split_ifs
  · exact stepSound_next hs fun docType =>
      bills_of_read hs.settlement hb hp input.rank _ docType
  · exact ⟨⟨hs.settlement, hs.rows, hs.unique, hs.documents_distinct, hs.documents_total⟩,
      .of_frame rfl fun _ hi => hi, fun _ hmem => (by cases hmem)⟩

theorem createDraft_sound {s : Books} {request : InvoiceRequest} {later : List InvoiceRequest}
    {input : InvoiceInput} {result : Books × List InvoiceTask} (hs : Sound s)
    (hr : ∀ r ∈ request :: later, RequestSound s.settlement.ledger r)
    (h : createDraft s request later input = some result) : StepSound s result := by
  unfold createDraft at h
  split_ifs at h with hsome hfresh
  · cases h
    exact stepSound_next hs hr
  · cases h
    have hnone : findInvoice s.invoices request.batchId request.type = none := by
      simpa using hsome
    obtain ⟨hs', hext, hstored⟩ := sound_of_draft hs hnone hfresh (hr request List.mem_cons_self)
    refine ⟨hs', hext, ?_⟩
    intro t hmem
    rw [List.mem_singleton.mp hmem]
    exact ⟨hstored, rfl, rfl, hr⟩

/-- A request for a document of the row's total, whose answer goes on with `next`. -/
theorem askProvider_sound {s : Books} {input : EDocumentInvoiceInput} (hs : Sound s)
    (hrow : ∃ i ∈ s.invoices.rows, i.id = input.invoiceId ∧
      input.totalAmountCents = i.totalAmountCents) (outcome : IssueOutcome)
    {next : String → InvoiceTask}
    (hnext : ∀ s' docId, Extends s s' → TaskSound s' (next docId)) :
    StepSound s (askProvider s input outcome next) := by
  obtain ⟨hasked, hstarted⟩ := askProvider_asked s input outcome next
  obtain ⟨hs', hext⟩ := hasked.sound hs hrow
  refine ⟨hs', hext, ?_⟩
  intro t hmem
  obtain ⟨docId, he⟩ := hstarted t hmem
  rw [he]
  exact hnext _ docId hext

theorem readDraft_sound {s : Books} {invoiceId : InvoiceId} {adminId : AdminId} :
    ∀ t ∈ readDraft s invoiceId adminId, TaskSound s t := by
  intro t hmem
  unfold readDraft at hmem
  cases hf : s.invoices.find? invoiceId with
  | none => simp [hf] at hmem
  | some i =>
    simp only [hf] at hmem
    split_ifs at hmem
    · rw [List.mem_singleton.mp hmem]
      exact ⟨i, (Table.find?_eq_some.mp hf).1, .refl i⟩
    · cases hmem

/-- One step of a task keeps the books sound. -/
theorem resumeInvoiceTask_sound {s : Books} {input : InvoiceInput} {task : InvoiceTask}
    {result : Books × List InvoiceTask} (hs : Sound s) (ht : TaskSound s task)
    (h : resumeInvoiceTask s input task = some result) : StepSound s result := by
  cases task with
  | read batchId =>
    cases h
    exact readBatch_sound hs ht input
  | lookup batch lines buyer =>
    cases h
    exact stepSound_next hs (ht _)
  | find requests =>
    cases requests with
    | nil =>
      cases h
      exact stepSound_of_read hs fun _ hmem => (by cases hmem)
    | cons request later =>
      simp only [resumeInvoiceTask] at h
      cases hf : findInvoice s.invoices request.batchId request.type with
      | some i =>
        simp only [hf, Option.some.injEq] at h
        rw [← h]
        exact stepSound_next hs (taskSound_proceedWith hf ht)
      | none =>
        simp only [hf, Option.some.injEq] at h
        rw [← h]
        exact stepSound_next hs ht
  | create request later => exact createDraft_sound hs ht h
  | adopt request later =>
    simp only [resumeInvoiceTask] at h
    cases hf : findInvoice s.invoices request.batchId request.type with
    | some i =>
      simp only [hf, Option.some.injEq] at h
      rw [← h]
      exact stepSound_next hs (taskSound_proceedWith hf ht)
    | none =>
      simp only [hf, Option.some.injEq] at h
      rw [← h]
      exact stepSound_of_read hs fun _ hmem => (by cases hmem)
  | issue invoice request later =>
    obtain ⟨⟨row, hrow, hsame⟩, hb, htype, hr⟩ := ht
    -- the stored row and this attempt's request bill the same batch, so their totals agree
    have hbills := (hs.rows row hrow).bills
    rw [hsame.batchId, hsame.type, hb, htype] at hbills
    have htotal := (hr request List.mem_cons_self).total_eq hbills
    cases h
    refine askProvider_sound hs ⟨row, hrow, hsame.id, ?_⟩ input.provider ?_
    · exact htotal.trans (hs.rows row hrow).total.symm
    · exact fun _ _ hext r hl => Bills.kept hext (hr r (List.mem_cons_of_mem request hl))
  | record invoiceId docId later =>
    cases h
    obtain ⟨hs', hext⟩ := sound_of_recorded hs invoiceId docId input.clock s.auditLog
    refine ⟨hs', hext, ?_⟩
    intro t hmem
    rw [List.mem_singleton.mp hmem]
    exact fun r hr => Bills.kept hext (ht r hr)
  | reissueRead invoiceId adminId =>
    cases h
    exact stepSound_of_read hs readDraft_sound
  | reissue invoice buyer adminId =>
    obtain ⟨row, hrow, hsame⟩ := ht
    cases h
    exact askProvider_sound hs ⟨row, hrow, hsame.id, hsame.totalAmountCents.symm⟩ input.provider
      fun _ _ _ => trivial
  | reissueRecord invoice docId adminId =>
    cases h
    obtain ⟨hs', hext⟩ := sound_of_recorded hs invoice.id docId input.clock _
    exact ⟨hs', hext, fun _ hmem => (by cases hmem)⟩

/-- An event keeps the books sound. -/
theorem handleEvent_sound {s : Books} {e : InvoiceEvent} {result : Books × List InvoiceTask}
    (hs : Sound s) (h : handleEvent s e = some result) : StepSound s result := by
  cases e with
  | settle a =>
    obtain ⟨w, hw, he⟩ := Option.map_eq_some_iff.mp h
    cases he
    have hext : Extends s { s with settlement := w } :=
      ⟨fun b hb hp => commits_keeps_billed (step_commits hw) hb hp, fun _ hi => hi⟩
    refine ⟨⟨hs.settlement.next trivial hw, ?_, hs.unique, hs.documents_distinct,
      hs.documents_total⟩, hext, fun _ hmem => (by cases hmem)⟩
    intro i hi
    exact ⟨Bills.kept hext (hs.rows i hi).bills, (hs.rows i hi).total⟩
  | deliver batchId =>
    simp only [handleEvent] at h
    split_ifs at h with hpublished
    cases h
    obtain ⟨payload, hp, hid⟩ := hpublished
    obtain ⟨b, hb, hbid, hpaid⟩ := publishedSent_of_reachable hs.settlement payload hp
    exact stepSound_next hs ⟨b, hb, hbid.trans hid, hpaid⟩
  | adminReissue invoiceId adminId =>
    cases h
    exact stepSound_next hs trivial
  | correctBuyer merchantId buyer =>
    cases h
    exact ⟨⟨hs.settlement, hs.rows, hs.unique, hs.documents_distinct, hs.documents_total⟩,
      .of_frame rfl fun _ hi => hi, fun _ hmem => (by cases hmem)⟩

/-- The books and the tasks of a pool are sound. -/
abbrev PoolSound : Pool Books InvoiceTask → Prop := Holds Sound TaskSound fun _ _ _ => True

/-- What a step leaves beside tasks that did not move. -/
theorem poolSound_append {s s' : Books} {started others : List InvoiceTask}
    (hothers : ∀ t ∈ others, TaskSound s t) (h : StepSound s (s', started)) :
    PoolSound ⟨s', started ++ others⟩ :=
  holds_append (s := s) h.sound
    ⟨fun t ht => (hothers t ht).kept h.extend, List.pairwise_of_forall fun _ _ => trivial⟩
    h.tasks (List.pairwise_of_forall fun _ _ => trivial) fun _ _ _ _ => trivial

theorem poolSound_of_initial {p : Pool Books InvoiceTask} (h : InitialBooks p) : PoolSound p := by
  refine ⟨⟨.start h.settlement, ?_, ?_, ?_, ?_⟩, ?_, ?_⟩
  · simp [h.invoices]
  · simp [h.invoices]
  · simp [h.documents]
  · simp [h.documents]
  · simp [h.tasks]
  · simp [h.tasks]

theorem poolSound_of_step {p p' : Pool Books InvoiceTask}
    {a : PoolAction InvoiceEvent InvoiceInput} (h : PoolSound p)
    (hstep : invoicing.step p a = some p') : PoolSound p' := by
  refine holds_step (fun _ _ _ _ => trivial) h ?_ ?_ hstep
  · intro e s' started _ he
    exact poolSound_append h.each (handleEvent_sound h.shared he)
  · intro index input task s' rest _ _ hat hr
    exact poolSound_append hat.each (resumeInvoiceTask_sound hat.shared hat.own hr)

theorem poolSound_of_reachable {ok : Pool Books InvoiceTask →
    PoolAction InvoiceEvent InvoiceInput → Prop} {p : Pool Books InvoiceTask}
    (h : InvoicingReachable ok p) : PoolSound p :=
  h.invariant (fun _ => poolSound_of_initial) fun _ _ _ hinv _ ht => poolSound_of_step hinv ht

/-- When the provider is about to accept the first request for a row, the
attempt's lookup and read gave the kind of document and the lines that the row
stores. -/
def FirstAsksAsStored (s : Books) (input : InvoiceInput) : InvoiceTask → Prop
  | .issue invoice request _ =>
    input.provider ≠ .failed → (∀ d ∈ s.documents, d.input.invoiceId ≠ invoice.id) →
      request.docType = invoice.docType ∧ request.lines = invoice.lines
  | _ => True

instance (s : Books) (input : InvoiceInput) (task : InvoiceTask) :
    Decidable (FirstAsksAsStored s input task) := by
  cases task <;> unfold FirstAsksAsStored <;> infer_instance

/-- The condition on a step: a resumed task asks as stored. -/
def AsksAsStored (p : Pool Books InvoiceTask) : PoolAction InvoiceEvent InvoiceInput → Prop
  | .resume index input => ∀ task ∈ p.tasks[index]?, FirstAsksAsStored p.shared input task
  | .event _ => True

instance (p : Pool Books InvoiceTask) (a : PoolAction InvoiceEvent InvoiceInput) :
    Decidable (AsksAsStored p a) := by
  cases a <;> unfold AsksAsStored <;> infer_instance

/-- Every document is of the kind and has the lines that its row stores. -/
def DocumentsSay (s : Books) : Prop :=
  ∀ d ∈ s.documents, ∃ i ∈ s.invoices.rows, i.id = d.input.invoiceId ∧
    d.input.docType = i.docType ∧ d.input.lines = i.lines

/-- The rows of documents keep what they say. -/
theorem DocumentsSay.kept {s s' : Books} (h : DocumentsSay s) (hext : Extends s s')
    (hnew : ∀ d ∈ s'.documents, d ∈ s.documents ∨ ∃ i ∈ s.invoices.rows,
      i.id = d.input.invoiceId ∧ d.input.docType = i.docType ∧ d.input.lines = i.lines) :
    DocumentsSay s' := by
  intro d hd
  have hrow : ∃ i ∈ s.invoices.rows, i.id = d.input.invoiceId ∧
      d.input.docType = i.docType ∧ d.input.lines = i.lines := by
    rcases hnew d hd with hold | hrow
    · exact h d hold
    · exact hrow
  obtain ⟨i, hi, hid, hdoc, hlines⟩ := hrow
  obtain ⟨row, hmem, hsame⟩ := hext.stored i ⟨i, hi, .refl i⟩
  exact ⟨row, hmem, hsame.id.trans hid, hdoc.trans hsame.docType.symm,
    hlines.trans hsame.lines.symm⟩

/-- A new document says what its row stores, when a delivery asks as stored. -/
theorem new_documents_say {s s' : Books} {input : InvoiceInput} {task : InvoiceTask}
    {rest : List InvoiceTask} (ht : TaskSound s task)
    (hok : FirstAsksAsStored s input task) (h : resumeInvoiceTask s input task = some (s', rest)) :
    ∀ d ∈ s'.documents, d ∈ s.documents ∨ ∃ i ∈ s.invoices.rows, i.id = d.input.invoiceId ∧
      d.input.docType = i.docType ∧ d.input.lines = i.lines := by
  have hsame : s'.documents = s.documents → ∀ d ∈ s'.documents, d ∈ s.documents ∨
      ∃ i ∈ s.invoices.rows, i.id = d.input.invoiceId ∧ d.input.docType = i.docType ∧
        d.input.lines = i.lines := by
    intro he d hd
    exact Or.inl (he ▸ hd)
  cases task with
  | issue invoice request later =>
    obtain ⟨⟨row, hrow, hstored⟩, _⟩ := ht
    have hasked := (askProvider_asked s (requestInput invoice request) input.provider
      fun docId => .record invoice.id docId later).1
    simp only [resumeInvoiceTask, Option.some.injEq] at h
    rw [h] at hasked
    intro d hd
    rcases hasked.mem d hd with hold | ⟨he, haccepted, hfirst⟩
    · exact Or.inl hold
    · obtain ⟨hdoc, hlines⟩ := hok haccepted hfirst
      rw [he]
      exact Or.inr ⟨row, hrow, hstored.id, hdoc.trans hstored.docType.symm,
        hlines.trans hstored.lines.symm⟩
  | reissue invoice buyer adminId =>
    obtain ⟨row, hrow, hstored⟩ := ht
    have hasked := (askProvider_asked s (storedInput invoice buyer) input.provider
      fun docId => .reissueRecord invoice docId adminId).1
    simp only [resumeInvoiceTask, Option.some.injEq] at h
    rw [h] at hasked
    intro d hd
    rcases hasked.mem d hd with hold | ⟨he, _⟩
    · exact Or.inl hold
    · rw [he]
      exact Or.inr ⟨row, hrow, hstored.id, hstored.docType.symm, hstored.lines.symm⟩
  | find requests =>
    apply hsame
    cases requests with
    | nil =>
      cases h
      rfl
    | cons request later =>
      simp only [resumeInvoiceTask] at h
      split at h <;> cases h <;> rfl
  | _ =>
    apply hsame
    simp only [resumeInvoiceTask, readBatch, createDraft] at h
    repeat' split at h
    all_goals cases h
    all_goals rfl

theorem documentsSay_of_step {p p' : Pool Books InvoiceTask}
    {a : PoolAction InvoiceEvent InvoiceInput} (hinv : PoolSound p) (h : DocumentsSay p.shared)
    (hok : AsksAsStored p a) (hstep : invoicing.step p a = some p') :
    DocumentsSay p'.shared := by
  cases a with
  | event e =>
    obtain ⟨s', started, he, rfl⟩ := event_eq_some hstep
    refine h.kept (handleEvent_sound hinv.shared he).extend ?_
    intro d hd
    change handleEvent p.shared e = _ at he
    have hdocuments : s'.documents = p.shared.documents := by
      cases e with
      | settle b =>
        obtain ⟨w, _, he⟩ := Option.map_eq_some_iff.mp he
        cases he
        rfl
      | deliver batchId =>
        simp only [handleEvent] at he
        split_ifs at he
        cases he
        rfl
      | adminReissue | correctBuyer =>
        cases he
        rfl
    exact Or.inl (hdocuments ▸ hd)
  | resume index input =>
    obtain ⟨task, s', rest, hget, hr, rfl⟩ := resume_eq_some hstep
    have htask := hinv.each task (List.mem_of_getElem? hget)
    exact h.kept (resumeInvoiceTask_sound hinv.shared htask hr).extend
      (new_documents_say htask (hok task hget) hr)

theorem documentsSay_of_reachable {p : Pool Books InvoiceTask}
    (h : InvoicingReachable AsksAsStored p) : DocumentsSay p.shared := by
  refine h.invariant_of (I := fun p => DocumentsSay p.shared) (J := PoolSound)
    (fun _ hs => poolSound_of_reachable hs) ?_ ?_
  · intro p hp d hd
    rw [hp.documents] at hd
    cases hd
  · intro p a p' hinv _ hsay hok ht
    exact documentsSay_of_step hinv hsay hok ht

/-- There is one row for each batch and type and one document for each row;
rows bill their batch and add up their lines. -/
structure RowsTrue (s : Books) : Prop where
  one_row : ∀ batchId type,
    (s.invoices.rows.filter fun i => i.batchId = batchId ∧ i.type = type).length ≤ 1
  one_document : ∀ i ∈ s.invoices.rows,
    (s.documents.filter fun d => d.input.invoiceId = i.id).length ≤ 1
  billed : ∀ i ∈ s.invoices.rows, ∃ b ∈ s.settlement.ledger.batches.rows, b.id = i.batchId ∧
    billedAmounts b i.type = (i.netAmountCents, i.vatCents)
  net_sum : ∀ i ∈ s.invoices.rows, i.netAmountCents = (i.lines.map (·.amountCents)).sum
  vat_sum : ∀ i ∈ s.invoices.rows, i.vatCents = (i.lines.map (·.vatCents)).sum

/-- And every document says what its row stores. -/
structure InvoicesTrue (s : Books) : Prop extends RowsTrue s where
  agree : ∀ d ∈ s.documents, ∀ i ∈ s.invoices.rows, d.input.invoiceId = i.id →
    d.input.docType = i.docType ∧ d.input.lines = i.lines ∧
      d.input.totalAmountCents = i.totalAmountCents

/-- A filter that agrees on a key keeps at most one of the rows. -/
theorem length_filter_le_one {α : Type*} {xs : List α} {p : α → Prop} [DecidablePred p]
    (hnodup : xs.Nodup) (h : ∀ x ∈ xs, ∀ y ∈ xs, p x → p y → x = y) :
    (xs.filter fun x => p x).length ≤ 1 := by
  cases hf : xs.filter fun x => p x with
  | nil => exact Nat.zero_le 1
  | cons x rest =>
    cases rest with
    | nil => exact le_rfl
    | cons y rest =>
      have hmem : ∀ z ∈ xs.filter (fun x => p x), z ∈ xs ∧ p z := fun z hz => by
        simpa using hz
      obtain ⟨hx, hpx⟩ := hmem x (by rw [hf]; simp)
      obtain ⟨hy, hpy⟩ := hmem y (by rw [hf]; simp)
      have hrest := hnodup.filter fun x => decide (p x)
      rw [hf, h x hx y hy hpx hpy] at hrest
      simp at hrest

/-- Rows are unique and true in every run, whatever lookups and provider answer. -/
theorem rowsTrue_of_reachable {ok : Pool Books InvoiceTask →
    PoolAction InvoiceEvent InvoiceInput → Prop} {p : Pool Books InvoiceTask}
    (h : InvoicingReachable ok p) : RowsTrue p.shared := by
  have hs := (poolSound_of_reachable h).shared
  refine ⟨?_, ?_, ?_, fun i hi => (hs.rows i hi).bills.net, fun i hi => (hs.rows i hi).bills.vat⟩
  · intro batchId type
    apply length_filter_le_one (List.Nodup.of_map _ p.shared.invoices.keys_nodup)
    rintro i hi j hj ⟨hib, hit⟩ ⟨hjb, hjt⟩
    exact hs.unique i hi j hj (hib.trans hjb.symm) (hit.trans hjt.symm)
  · intro i _
    apply length_filter_le_one (List.Nodup.of_map _ hs.documents_distinct)
    intro d hd e he hdi hei
    exact List.inj_on_of_nodup_map hs.documents_distinct hd he (hdi.trans hei.symm)
  · intro i hi
    obtain ⟨b, hb, hid, _, hamounts⟩ := (hs.rows i hi).bills.batch
    exact ⟨b, hb, hid, hamounts⟩

/-- In a run whose first accepted requests ask as stored, invoices are unique
and documents say what the rows say. -/
theorem invoices_unique_and_true {p : Pool Books InvoiceTask}
    (h : InvoicingReachable AsksAsStored p) : InvoicesTrue p.shared := by
  refine ⟨rowsTrue_of_reachable h, ?_⟩
  intro d hd i hi hid
  obtain ⟨row, hrow, hrid, hdoc, hlines⟩ := documentsSay_of_reachable h d hd
  obtain ⟨row', hrow', hrid', htotal⟩ := (poolSound_of_reachable h).shared.documents_total d hd
  have he := p.shared.invoices.eq_of_key_eq hrow hi (hrid.trans hid)
  have he' := p.shared.invoices.eq_of_key_eq hrow' hi (hrid'.trans hid)
  rw [he] at hdoc hlines
  rw [he'] at htotal
  exact ⟨hdoc, hlines, htotal⟩

section SampleRuns

/-- The sample services before any invoice. -/
def samplePool : Pool Books InvoiceTask :=
  ⟨{ settlement := sampleWorld 500
     buyers := fun _ => ⟨"1234567890", "Fırın"⟩
     invoices := Table.empty
     documents := []
     opsAlerts := []
     auditLog := [] }, []⟩

theorem samplePool_initial : InitialBooks samplePool := ⟨sampleWorld_initial 500, rfl, rfl, rfl⟩

/-- A bag is collected and its batch is paid out. -/
def paidDay : List (PoolAction InvoiceEvent InvoiceInput) :=
  (sell 1 1 3000 ++ runNight (noonOf 2) 11 ++ approve 11 (noonOf 2) ++
    payOut 11 (noonOf 2)).map fun a => .event (.settle a)

/-- The newest task takes a step. -/
def invoiceStep (isEFaturaUser : Option Bool) (provider : IssueOutcome) :
    PoolAction InvoiceEvent InvoiceInput :=
  .resume 0 ⟨noonOf 3, 1, id, isEFaturaUser, provider⟩

/-- A delivery up to its request to the provider; the row exists from its first on. -/
def attempt (steps : ℕ) (isEFaturaUser : Option Bool) (provider : IssueOutcome) :
    List (PoolAction InvoiceEvent InvoiceInput) :=
  .event (.deliver 11) :: List.replicate steps (invoiceStep isEFaturaUser .failed) ++
    [invoiceStep isEFaturaUser provider]

/-- The answer to the first delivery is lost; the second one records the document. -/
def answeredAgain : List (PoolAction InvoiceEvent InvoiceInput) :=
  paidDay ++ attempt 4 (some true) (.answerLost "doc") ++
    attempt 3 (some true) (.answered "other") ++ [invoiceStep none .failed]

theorem invoices_unique_and_true_answeredAgain :
    InvoicesTrue (after invoicing.step samplePool answeredAgain).shared ∧
      (after invoicing.step samplePool answeredAgain).shared.documents.map (·.docId) = ["doc"] ∧
      (after invoicing.step samplePool answeredAgain).shared.invoices.rows.map
        (fun i => (i.status, i.nilveraDocId, i.netAmountCents, i.vatCents)) =
          [(.sent, some "doc", 500, 100)] := by
  refine ⟨invoices_unique_and_true ?_, by decide +kernel, by decide +kernel⟩
  exact reachable_after_guarded (.start samplePool_initial) (by decide +kernel)
    (by decide +kernel)

/-- The provider is down during the first delivery and the lookup during the second. -/
def lookedUpAgain : List (PoolAction InvoiceEvent InvoiceInput) :=
  paidDay ++ attempt 4 (some true) .failed ++ attempt 3 none (.answered "doc")

theorem document_differs_from_row :
    ¬ ∀ p, InvoicingReachable anyStep p → InvoicesTrue p.shared := by
  intro h
  have hp : InvoicingReachable anyStep (after invoicing.step samplePool lookedUpAgain) :=
    reachable_after (.start samplePool_initial) (by decide +kernel)
  have hdiffers : ∃ d ∈ (after invoicing.step samplePool lookedUpAgain).shared.documents,
      ∃ i ∈ (after invoicing.step samplePool lookedUpAgain).shared.invoices.rows,
        d.input.invoiceId = i.id ∧ d.input.docType ≠ i.docType := by
    decide +kernel
  obtain ⟨d, hd, i, hi, hid, hne⟩ := hdiffers
  exact hne ((h _ hp).agree d hd i hi hid).1

end SampleRuns

end Kurtar.InvoiceDocuments

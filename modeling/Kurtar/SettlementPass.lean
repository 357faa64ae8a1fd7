import Kurtar.SettlementService

/-!
# What a committed recompute did

The inversion of `recomputeBatch`: a successful call either returned a frozen
batch untouched or committed one pass. The lemmas of `CommittedPass` describe
the stored rows after the pass table by table, so that invariants never unfold
the recompute itself.
-/

namespace Kurtar.SettlementPass

open KeyedTable StatusTransitions IstanbulCalendar SettlementMath SettlementLedger
open SettlementRecompute SettlementTransactions

section Failures

variable {ε : Type*} {α β : Type}

theorem bind_eq_ok {x : Except ε α} {f : α → Except ε β} {b : β} :
    x >>= f = .ok b ↔ ∃ a, x = .ok a ∧ f a = .ok b := by
  cases x <;> simp [bind, Except.bind]

theorem bind_eq_error {x : Except ε α} {f : α → Except ε β} {e : ε} :
    x >>= f = .error e ↔ x = .error e ∨ ∃ a, x = .ok a ∧ f a = .error e := by
  cases x <;> simp [bind, Except.bind]

theorem mapError_eq_error {ε' : Type*} {x : Except ε α} {g : ε → ε'} {e : ε'} :
    x.mapError g = .error e ↔ ∃ e', x = .error e' ∧ g e' = e := by
  cases x <;> simp [Except.mapError]

theorem mapError_eq_ok {ε' : Type*} {x : Except ε α} {g : ε → ε'} {a : α} :
    x.mapError g = .ok a ↔ x = .ok a := by
  cases x <;> simp [Except.mapError]

theorem ensure_eq_ok {c : Prop} [Decidable c] {e : SettlementError} {u : Unit} :
    ensure c e = .ok u ↔ c := by
  unfold ensure
  split_ifs with h <;> simp [h]

theorem forM_eq_ok {f : α → Except ε Unit} {xs : List α} :
    xs.forM f = .ok ⟨⟩ ↔ ∀ x ∈ xs, f x = .ok ⟨⟩ := by
  induction xs with
  | nil => simp [pure, Except.pure]
  | cons x xs ih =>
    change (f x >>= fun _ => xs.forM f) = .ok ⟨⟩ ↔ _
    rw [bind_eq_ok, List.forall_mem_cons]
    constructor
    · rintro ⟨u, hu, hrest⟩
      exact ⟨hu, ih.mp hrest⟩
    · rintro ⟨hx, hrest⟩
      exact ⟨(), hx, ih.mpr hrest⟩

end Failures

/-- The decisions of a pass over a ledger whose pending lines are stored. -/
structure Planned (l : Ledger) (batch : Batch) (pass : RecomputePass) : Prop where
  bagFee : ∃ merchant, l.merchants.find? batch.merchantId = some merchant ∧
    l.resolveBagFeeCentsForMerchant merchant batch.periodStart = .ok pass.bagFeeCents ∧
    pass.due = lockAndResolveDue l batch.merchantId batch.membershipOffsetCents
      batch.membershipOffsetVatCents batch.periodStart merchant.membershipExemptUntil
  lines : pass.lines = settlementInputLines l batch.id
  locked : pass.lockedLines = lockedClawbackLines l batch.merchantId batch.id
  source : pass.carriedDemandSourceBatchId = passSource l batch
  carried : pass.carriedFromPrior = passCarried l batch
  due_nonneg : 0 ≤ membershipDueCents pass.due
  result : pass.result = aggregateLines
    (pass.lines.map fun line => chargedLine line pass.bagFeeCents) (membershipDueCents pass.due)
    (totalClawbackDemandCents (clawbackCandidates pass.lockedLines)+pass.carriedFromPrior)
  allocation : allocateClawback pass.result.refundClawbackCents pass.carriedFromPrior
    (clawbackCandidates pass.lockedLines) = .ok pass.allocation

theorem planPass_eq_ok {l : Ledger} {batch : Batch} {pass : RecomputePass}
    (h : planPass l batch = .ok pass) : Planned l batch pass := by
  unfold planPass at h
  obtain ⟨merchant, hm, h⟩ := bind_eq_ok.mp h
  obtain ⟨bagFee, hb, h⟩ := bind_eq_ok.mp h
  obtain ⟨result, hr, h⟩ := bind_eq_ok.mp h
  obtain ⟨allocation, ha, h⟩ := bind_eq_ok.mp h
  rw [mapError_eq_ok] at hr ha
  cases h
  obtain ⟨_, hd, _, hres⟩ := computeSettlement_eq_ok hr
  refine ⟨⟨merchant, ?_, hb, rfl⟩, rfl, rfl, rfl, rfl, hd, hres, ha⟩
  unfold findMerchantOrThrow at hm
  cases hf : l.merchants.find? batch.merchantId with
  | none => simp [hf] at hm
  | some m =>
    simp only [hf, Except.ok.injEq] at hm
    rw [hm]

/-- A planned pass charges no negative fee. -/
theorem planPass_fees {l : Ledger} {batch : Batch} {pass : RecomputePass}
    (h : planPass l batch = .ok pass) : ∀ pl ∈ pass.result.perLine, 0 ≤ pl.bagFeeCents := by
  unfold planPass at h
  obtain ⟨merchant, _, h⟩ := bind_eq_ok.mp h
  obtain ⟨bagFee, _, h⟩ := bind_eq_ok.mp h
  obtain ⟨result, hr, h⟩ := bind_eq_ok.mp h
  obtain ⟨allocation, _, h⟩ := bind_eq_ok.mp h
  rw [mapError_eq_ok] at hr
  cases h
  exact computeSettlement_fees hr

/-- The demand carried over is never negative. -/
theorem resolveCarriedDemandFromSource_nonneg (l : Ledger) (source claimant : BatchId) :
    0 ≤ resolveCarriedDemandFromSource l source claimant := by
  unfold resolveCarriedDemandFromSource
  cases l.batches.find? source with
  | none => exact le_rfl
  | some b =>
    dsimp only
    split_ifs
    · exact le_rfl
    · exact le_max_left _ _

theorem passCarried_nonneg (l : Ledger) (batch : Batch) : 0 ≤ passCarried l batch := by
  unfold passCarried
  cases passSource l batch with
  | none => exact le_rfl
  | some source => exact resolveCarriedDemandFromSource_nonneg l source batch.id

/-- A pass whose settlement was computed always attributes its clawback. -/
theorem planPass_attributes {l : Ledger} {batch : Batch} {e : SettlementError}
    (h : planPass l batch = .error e) :
    (∀ d, e ≠ .ledgerDivergence d) ∧ ∀ r a x, e ≠ .math (.unattributedClawback r a x) := by
  unfold planPass at h
  rcases bind_eq_error.mp h with hm | ⟨merchant, _, h⟩
  · unfold findMerchantOrThrow at hm
    split at hm <;> cases hm
    simp
  rcases bind_eq_error.mp h with hb | ⟨bagFee, _, h⟩
  · unfold Ledger.resolveBagFeeCentsForMerchant at hb
    split at hb
    · cases hb
    · unfold Ledger.resolvePlatformPricing at hb
      split at hb <;> cases hb
      simp
  rcases bind_eq_error.mp h with hr | ⟨result, hr, h⟩
  · obtain ⟨e', he', rfl⟩ := mapError_eq_error.mp hr
    have hne := computeSettlement_attributes he'
    simpa using hne
  rcases bind_eq_error.mp h with ha | ⟨allocation, _, h⟩
  · obtain ⟨e', he', _⟩ := mapError_eq_error.mp ha
    obtain ⟨_, _, hp, hres⟩ := computeSettlement_eq_ok (mapError_eq_ok.mp hr)
    have hc := passCarried_nonneg l batch
    have hclawback : result.refundClawbackCents ≤ totalClawbackDemandCents (clawbackCandidates
        (lockedClawbackLines l batch.merchantId batch.id))+passCarried l batch := by
      rw [hres]
      exact aggregateLines_clawback_le _
    have hnonneg : 0 ≤ result.refundClawbackCents := by
      rw [hres]
      exact aggregateLines_clawback_nonneg _ hp
    rw [allocateClawback_succeeds hnonneg hc (by omega)] at he'
    cases he'
  · cases h

namespace Planned

variable {l : Ledger} {batch : Batch} {pass : RecomputePass} (h : Planned l batch pass)

include h

theorem carried_nonneg : 0 ≤ pass.carriedFromPrior := by
  rw [h.carried]
  exact passCarried_nonneg l batch

theorem carried_eq_zero_of_no_source (hs : pass.carriedDemandSourceBatchId = none) :
    pass.carriedFromPrior = 0 := by
  rw [h.carried, passCarried, ← h.source, hs]

/-- A pass that carries demand over has a source. -/
theorem source_of_carried_pos (hc : 0 < pass.carriedFromPrior) :
    ∃ source, pass.carriedDemandSourceBatchId = some source ∧
      pass.carriedFromPrior = resolveCarriedDemandFromSource l source batch.id := by
  cases hs : pass.carriedDemandSourceBatchId with
  | none =>
    rw [h.carried_eq_zero_of_no_source hs] at hc
    exact absurd hc (lt_irrefl 0)
  | some source =>
    refine ⟨source, rfl, ?_⟩
    rw [h.carried, passCarried, ← h.source, hs]

theorem clawback_nonneg : 0 ≤ pass.result.refundClawbackCents := by
  rw [h.result]
  apply aggregateLines_clawback_nonneg
  have ht := totalClawbackDemandCents_nonneg (clawbackCandidates pass.lockedLines)
  have hc := h.carried_nonneg
  omega

/-- The applied clawback never exceeds the demand it was computed from. -/
theorem clawback_le : pass.result.refundClawbackCents ≤
    pass.carriedFromPrior+totalClawbackDemandCents (clawbackCandidates pass.lockedLines) := by
  rw [h.result, add_comm]
  exact aggregateLines_clawback_le _

theorem allocation_eq : pass.allocation =
    { externalAbsorbedCents := min pass.carriedFromPrior pass.result.refundClawbackCents
      perCandidate := (allocateCandidates (pass.result.refundClawbackCents
        -min pass.carriedFromPrior pass.result.refundClawbackCents)
        (clawbackCandidates pass.lockedLines)).1 } := by
  have ha := allocateClawback_succeeds h.clawback_nonneg h.carried_nonneg h.clawback_le
  rw [h.allocation, Except.ok.injEq] at ha
  exact ha

theorem external_eq : pass.allocation.externalAbsorbedCents =
    min pass.carriedFromPrior pass.result.refundClawbackCents := by
  rw [h.allocation_eq]

/-- The entries absorb exactly what the external demand left. -/
theorem absorbed_sum : (pass.allocation.perCandidate.map (·.absorbedCents)).sum =
    pass.result.refundClawbackCents-pass.allocation.externalAbsorbedCents := by
  have hn := h.clawback_nonneg
  have hle := h.clawback_le
  have hc := h.carried_nonneg
  have ht := totalClawbackDemandCents_nonneg (clawbackCandidates pass.lockedLines)
  have hz : (allocateCandidates (pass.result.refundClawbackCents
      -min pass.carriedFromPrior pass.result.refundClawbackCents)
      (clawbackCandidates pass.lockedLines)).2 = 0 :=
    allocateCandidates_exhausts (by omega) (by omega)
  have hs := allocateCandidates_sum (pass.result.refundClawbackCents
    -min pass.carriedFromPrior pass.result.refundClawbackCents)
    (clawbackCandidates pass.lockedLines)
  rw [h.allocation_eq]
  dsimp only
  omega

/-- Each entry absorbs a nonnegative part of its locked line's remaining demand. -/
theorem absorbed_bounds : ∀ e ∈ pass.allocation.perCandidate, 0 ≤ e.absorbedCents ∧
    ∃ c ∈ pass.lockedLines, c.reservationId = e.reservationId ∧
      e.absorbedCents ≤ remainingClawbackDemandCents c := by
  rw [h.allocation_eq]
  have hn := h.clawback_nonneg
  have hc := h.carried_nonneg
  intro e he
  obtain ⟨h0, c, hm, hid, hle⟩ := allocateCandidates_bounds (by omega) e he
  exact ⟨h0, c, List.mem_of_mem_filter hm, hid, hle⟩

theorem perCandidate_ids : pass.allocation.perCandidate.map (·.reservationId) =
    (clawbackCandidates pass.lockedLines).map (·.reservationId) := by
  rw [h.allocation_eq]
  exact allocateCandidates_ids _ _

end Planned

/-- What the lines of a pass leave before membership and clawback. -/
def passBalance (pass : RecomputePass) : ℤ :=
  feeBalance (pass.lines.map fun line => chargedLine line pass.bagFeeCents)

/-- What the entries of a pass recover against a line. -/
def absorbedBy (pass : RecomputePass) (r : ReservationId) : ℤ :=
  (pass.allocation.perCandidate.map fun e =>
    if e.reservationId = r then e.absorbedCents else 0).sum

/-- A pass over `batch` was planned and written: it took the ledger `l` to
`l'` and stored `row`. -/
structure WrittenPass (l : Ledger) (batchId : BatchId) (now : Instant)
    (pendingLines : List PendingSettlementLine) (clock : Instant) (batch : Batch)
    (pass : RecomputePass) (l' : Ledger) (row : Batch) : Prop where
  found : l.batches.find? batchId = some batch
  recomputable : batch.Recomputable
  unattempted : batch.payoutAttemptedAt = none
  planned : Planned (insertPendingLines l batchId pendingLines) batch pass
  written : writePass (insertPendingLines l batchId pendingLines) batch pass now clock = (l', row)

/-- A written pass whose final checks succeeded. -/
structure CommittedPass (l : Ledger) (batchId : BatchId) (now : Instant)
    (pendingLines : List PendingSettlementLine) (clock : Instant) (batch : Batch)
    (pass : RecomputePass) (l' : Ledger) (row : Batch) : Prop
    extends WrittenPass l batchId now pendingLines clock batch pass l' row where
  identity : assertLedgerIdentity l' row (pass.lockedLines.map (·.reservationId)) = .ok ()
  honoured : assertIrrevocableClaimsHonoured l' row = .ok ()

/-- A successful recompute met a frozen batch or committed the pass it planned. -/
theorem recomputeBatch_planned {l l' : Ledger} {batchId : BatchId} {now clock : Instant}
    {pendingLines : List PendingSettlementLine} {row : Batch}
    (h : recomputeBatch l batchId now pendingLines clock = .ok (l', row)) :
    ∃ batch, l.batches.find? batchId = some batch ∧
      ((¬ batch.Recomputable ∨ batch.payoutAttemptedAt ≠ none) ∧ l' = l ∧ row = batch ∨
        ∃ pass, planPass (insertPendingLines l batchId pendingLines) batch = .ok pass ∧
          CommittedPass l batchId now pendingLines clock batch pass l' row) := by
  unfold recomputeBatch at h
  cases hf : l.batches.find? batchId with
  | none => simp [hf] at h
  | some batch =>
    refine ⟨batch, rfl, ?_⟩
    simp only [hf] at h
    split_ifs at h with hfrozen
    · cases h
      exact Or.inl ⟨hfrozen, rfl, rfl⟩
    · obtain ⟨hopen, hun⟩ := not_or.mp hfrozen
      refine Or.inr ?_
      unfold recomputeOpenBatch at h
      obtain ⟨pass, hp, h⟩ := bind_eq_ok.mp h
      obtain ⟨u, hid, h⟩ := bind_eq_ok.mp h
      obtain ⟨v, hhon, h⟩ := bind_eq_ok.mp h
      cases h
      exact ⟨pass, hp, ⟨hf, not_not.mp hopen, not_not.mp hun, planPass_eq_ok hp, rfl⟩, hid, hhon⟩

/-- A successful recompute met a frozen batch or committed a pass. -/
theorem recomputeBatch_eq_ok {l l' : Ledger} {batchId : BatchId} {now clock : Instant}
    {pendingLines : List PendingSettlementLine} {row : Batch}
    (h : recomputeBatch l batchId now pendingLines clock = .ok (l', row)) :
    ∃ batch, l.batches.find? batchId = some batch ∧
      ((¬ batch.Recomputable ∨ batch.payoutAttemptedAt ≠ none) ∧ l' = l ∧ row = batch ∨
        ∃ pass, CommittedPass l batchId now pendingLines clock batch pass l' row) := by
  obtain ⟨batch, hf, hfrozen | ⟨pass, _, hp⟩⟩ := recomputeBatch_planned h
  · exact ⟨batch, hf, Or.inl hfrozen⟩
  · exact ⟨batch, hf, Or.inr ⟨pass, hp⟩⟩

/-- The charges a pass writes on a line. -/
def chargeLine (perLine : List SettlementLineResult) (line : SettlementLine) : SettlementLine :=
  match perLine.find? fun pl => pl.reservationId = line.reservationId with
  | some pl =>
    { line with
      bagFeeCents := pl.bagFeeCents
      bagFeeVatCents := pl.bagFeeVatCents
      withholdingCents := pl.withholdingCents }
  | none => line

/-- The recovery columns that the allocations give a line. -/
def projectLine (l : Ledger) (now : Instant) (line : SettlementLine) : SettlementLine :=
  let total := l.allocatedToLine line.reservationId
  let fullDemandCents := fullClawbackDemandCents line
  { line with
    clawbackCents := total
    clawbackBatchId :=
      ((l.allocations.rows.filter fun a => a.reservationId = line.reservationId).map
        (·.batchId)).max?
    clawbackAppliedAt :=
      if fullDemandCents > 0 ∧ total ≥ fullDemandCents then
        some (line.clawbackAppliedAt.getD now)
      else none }

theorem chargeLine_keeps (perLine : List SettlementLineResult) (line : SettlementLine) :
    (chargeLine perLine line).reservationId = line.reservationId ∧
      (chargeLine perLine line).batchId = line.batchId ∧
      (chargeLine perLine line).redeemedAt = line.redeemedAt ∧
      (chargeLine perLine line).grossCents = line.grossCents ∧
      (chargeLine perLine line).clawbackCents = line.clawbackCents ∧
      (chargeLine perLine line).clawbackAppliedAt = line.clawbackAppliedAt := by
  unfold chargeLine
  split <;> exact ⟨rfl, rfl, rfl, rfl, rfl, rfl⟩

/-- A line outside the result keeps its charges. -/
theorem chargeLine_of_not_mem {perLine : List SettlementLineResult} {line : SettlementLine}
    (h : ∀ pl ∈ perLine, pl.reservationId ≠ line.reservationId) :
    chargeLine perLine line = line := by
  have hn : (perLine.find? fun pl => decide (pl.reservationId = line.reservationId)) = none := by
    rw [List.find?_eq_none]
    intro pl hpl
    simpa using h pl hpl
  simp [chargeLine, hn]

/-- All charges of a pass in one map. -/
theorem writeLineFees_rows (l : Ledger) (perLine : List SettlementLineResult) :
    (writeLineFees l perLine).lines.rows = l.lines.rows.map (chargeLine perLine) := by
  apply List.map_congr_left
  intro line _
  by_cases h : ∃ pl ∈ perLine, pl.reservationId = line.reservationId
  · rw [if_pos h]
    rfl
  · rw [if_neg h, chargeLine_of_not_mem fun pl hpl he => h ⟨pl, hpl, he⟩]

/-- The tables after a pass, each by the write that made it. -/
theorem writePass_tables (l : Ledger) (batch : Batch) (pass : RecomputePass)
    (now clock : Instant) :
    (writePass l batch pass now clock).1.batches =
        (writeBatch l (writePass l batch pass now clock).2).batches ∧
      (writePass l batch pass now clock).1.claims = (rewriteClaim l batch.id pass).claims ∧
      (writePass l batch pass now clock).1.allocations =
        (writeAllocations (resetOwnClawbackLedger l batch.id) batch.id
          pass.allocation.perCandidate).allocations ∧
      (writePass l batch pass now clock).1.merchants = l.merchants ∧
      (writePass l batch pass now clock).1.pricing = l.pricing ∧
      (writePass l batch pass now clock).1.reservations = l.reservations := by
  unfold writePass writeOffset rewriteClaim
  cases pass.due <;> cases pass.carriedDemandSourceBatchId <;> dsimp only <;>
    (try split_ifs) <;> exact ⟨rfl, rfl, rfl, rfl, rfl, rfl⟩

/-- The lines after a pass: charged, and projected where they are locked. -/
theorem writePass_lines (l : Ledger) (batch : Batch) (pass : RecomputePass)
    (now clock : Instant) :
    (writePass l batch pass now clock).1.lines.rows = l.lines.rows.map fun line =>
      if line.reservationId ∈ pass.lockedLines.map (·.reservationId) then
        projectLine (writePass l batch pass now clock).1 now
          (chargeLine pass.result.perLine line)
      else chargeLine pass.result.perLine line := by
  have hcharged : ∀ row, (writeLineFees (writeBatch (writeOffset (rewriteClaim
      (resetOwnClawbackLedger l batch.id) batch.id pass) pass clock).1 row)
      pass.result.perLine).lines.rows = l.lines.rows.map (chargeLine pass.result.perLine) := by
    intro row
    rw [writeLineFees_rows]
    unfold writeOffset rewriteClaim
    cases pass.due <;> cases pass.carriedDemandSourceBatchId <;> dsimp only <;>
      (try split_ifs) <;> rfl
  change List.map _ (writeLineFees _ _).lines.rows = _
  rw [hcharged, List.map_map]
  apply List.map_congr_left
  intro line _
  change (if (chargeLine pass.result.perLine line).reservationId ∈
      pass.lockedLines.map (·.reservationId) then
    projectLine (writePass l batch pass now clock).1 now (chargeLine pass.result.perLine line)
    else chargeLine pass.result.perLine line) = _
  rw [(chargeLine_keeps pass.result.perLine line).1]

namespace WrittenPass

variable {l l' : Ledger} {batchId : BatchId} {now clock : Instant}
  {pendingLines : List PendingSettlementLine} {batch row : Batch} {pass : RecomputePass}
  (h : WrittenPass l batchId now pendingLines clock batch pass l' row)

include h

theorem batch_mem : batch ∈ l.batches.rows := (Table.find?_eq_some.mp h.found).1

theorem batch_id : batch.id = batchId := (Table.find?_eq_some.mp h.found).2

theorem row_eq : ∃ offsetVatCents, row = passRow batch pass offsetVatCents now := by
  have hw := congrArg Prod.snd h.written
  exact ⟨_, hw.symm⟩

theorem row_id : row.id = batchId := by
  obtain ⟨vat, rfl⟩ := h.row_eq
  exact h.batch_id

/-- The tables a pass leaves alone. -/
theorem frame : l'.merchants = l.merchants ∧ l'.pricing = l.pricing ∧
    l'.reservations = l.reservations := by
  have ht := (writePass_tables (insertPendingLines l batchId pendingLines) batch pass now
    clock).2.2.2
  rwa [h.written] at ht

/-- The pass replaces the batch's row and no other. -/
theorem replaces : Table.Replaces l.batches l'.batches batch row := by
  have hb := (writePass_tables (insertPendingLines l batchId pendingLines) batch pass now clock).1
  rw [h.written] at hb
  have hid := h.row_id.trans h.batch_id.symm
  have hr := l.batches.replaces_updateMany (fun b => b.id = row.id)
    (fun b => { row with id := b.id }) (fun _ => rfl) h.batch_mem hid.symm
    fun r hr => hr.trans hid
  have hrow : ({ row with id := batch.id } : Batch) = row := by rw [← hid]
  rw [hrow] at hr
  rw [hb]
  exact hr

theorem claims_eq : l'.claims = (rewriteClaim l batchId pass).claims := by
  have hc := (writePass_tables (insertPendingLines l batchId pendingLines) batch pass now
    clock).2.1
  rw [h.written, h.batch_id] at hc
  rw [hc]
  unfold rewriteClaim
  cases pass.carriedDemandSourceBatchId with
  | none => rfl
  | some source =>
    dsimp only
    split_ifs <;> rfl

theorem allocations_eq : l'.allocations =
    (l.allocations.deleteMany fun a => a.batchId = batchId).insertMany
      ((pass.allocation.perCandidate.filter fun a => a.absorbedCents > 0).map
        fun a => ⟨batchId, a.reservationId, a.absorbedCents⟩) := by
  have ha := (writePass_tables (insertPendingLines l batchId pendingLines) batch pass now
    clock).2.2.1
  rwa [h.written, h.batch_id] at ha

/-- The lines after the pass: stored, charged, and projected where locked. -/
theorem lines_rows : l'.lines.rows =
    (insertPendingLines l batchId pendingLines).lines.rows.map fun line =>
      if line.reservationId ∈ pass.lockedLines.map (·.reservationId) then
        projectLine l' now (chargeLine pass.result.perLine line)
      else chargeLine pass.result.perLine line := by
  have hl := writePass_lines (insertPendingLines l batchId pendingLines) batch pass now clock
  rwa [h.written] at hl

/-- The claims after the pass: those of other batches and the pass's own. -/
theorem mem_claims {c : CarriedDemandClaim} : c ∈ l'.claims.rows ↔
    c ∈ l.claims.rows ∧ c.claimantBatchId ≠ batchId ∨
      0 < pass.carriedFromPrior ∧ pass.carriedDemandSourceBatchId = some c.sourceBatchId ∧
        c.claimantBatchId = batchId ∧ c.amountCents = pass.carriedFromPrior := by
  rw [h.claims_eq]
  unfold rewriteClaim
  cases hs : pass.carriedDemandSourceBatchId with
  | none => simp [Table.mem_deleteMany]
  | some source =>
    dsimp only
    split_ifs with hc
    · rw [Table.mem_insertNew, Table.mem_deleteMany]
      refine or_congr_right ?_
      constructor
      · rintro ⟨rfl, _⟩
        exact ⟨hc, rfl, rfl, rfl⟩
      · rintro ⟨_, hsource, hclaimant, hamount⟩
        obtain ⟨claimant, s, amount⟩ := c
        simp only [Option.some.injEq] at hsource hclaimant hamount
        subst hsource hclaimant hamount
        exact ⟨rfl, fun q hq => (Table.mem_deleteMany.mp hq).2⟩
    · simp [Table.mem_deleteMany, hc]

/-- A sum over the claims: other claimants, and the pass's own claim. -/
theorem claims_sumOn (p : CarriedDemandClaim → Prop) [DecidablePred p] :
    l'.claims.sumOn p (·.amountCents) =
      l.claims.sumOn (fun c => p c ∧ c.claimantBatchId ≠ batchId) (·.amountCents)
        +match pass.carriedDemandSourceBatchId with
        | some source =>
          if p ⟨batchId, source, pass.carriedFromPrior⟩ then pass.carriedFromPrior else 0
        | none => 0 := by
  have hn := h.planned.carried_nonneg
  have hfresh : ∀ s ∈ (l.claims.deleteMany fun c => c.claimantBatchId = batchId).rows,
      s.claimantBatchId ≠ batchId := fun s hs => (Table.mem_deleteMany.mp hs).2
  rw [h.claims_eq]
  unfold rewriteClaim
  cases pass.carriedDemandSourceBatchId with
  | none => simp [Table.sumOn_deleteMany]
  | some source =>
    by_cases hc : pass.carriedFromPrior > 0
    · simp only [hc, if_true]
      have hi := Table.sumOn_insertNew
        (t := l.claims.deleteMany fun c => c.claimantBatchId = batchId)
        (r := (⟨batchId, source, pass.carriedFromPrior⟩ : CarriedDemandClaim)) hfresh p
        (·.amountCents)
      rw [hi, Table.sumOn_deleteMany]
    · have hz : pass.carriedFromPrior = 0 := by omega
      simp only [hz, lt_irrefl, if_false, ite_self, add_zero]
      exact Table.sumOn_deleteMany _ _ _ _

/-- The stored claim of the batch is what the pass carried over. -/
theorem own_claim : ((l'.claims.find? batchId).map (·.amountCents)).getD 0 =
    pass.carriedFromPrior := by
  cases hf : l'.claims.find? batchId with
  | none =>
    rw [Table.find?_eq_none] at hf
    by_contra hne
    have hn := h.planned.carried_nonneg
    have hc : 0 < pass.carriedFromPrior := lt_of_le_of_ne hn hne
    obtain ⟨source, hs, _⟩ := h.planned.source_of_carried_pos hc
    exact hf ⟨batchId, source, pass.carriedFromPrior⟩
      (h.mem_claims.mpr (Or.inr ⟨hc, hs, rfl, rfl⟩)) rfl
  | some c =>
    obtain ⟨hc, hk⟩ := Table.find?_eq_some.mp hf
    rcases h.mem_claims.mp hc with ⟨_, hne⟩ | ⟨_, _, _, ha⟩
    · exact absurd hk hne
    · exact ha

/-- The claim of another batch is not moved. -/
theorem claims_find?_of_ne {b : BatchId} (hb : b ≠ batchId) :
    l'.claims.find? b = l.claims.find? b := by
  cases hf : l.claims.find? b with
  | none =>
    rw [Table.find?_eq_none] at hf ⊢
    intro c hc hk
    rcases h.mem_claims.mp hc with ⟨hc, _⟩ | ⟨_, _, hclaimant, _⟩
    · exact hf c hc hk
    · exact hb (hk.symm.trans hclaimant)
  | some c =>
    obtain ⟨hc, hk⟩ := Table.find?_eq_some.mp hf
    exact Table.find?_eq_some.mpr ⟨h.mem_claims.mpr (Or.inl ⟨hc, fun h' => hb (hk.symm.trans h')⟩), hk⟩

/-- Locked lines are distinct rows of the table. -/
theorem lockedLines_nodup : (pass.lockedLines.map (·.reservationId)).Nodup := by
  rw [h.planned.locked]
  unfold lockedClawbackLines
  dsimp only
  rw [List.map_map]
  have hperm := List.perm_insertionSort redeemedBefore
    ((insertPendingLines l batchId pendingLines).lines.rows.filter fun line =>
      lockedForPass (insertPendingLines l batchId pendingLines) batch.merchantId batch.id line)
  refine ((hperm.map SettlementLine.reservationId).nodup_iff).mpr ?_
  exact (List.filter_sublist.map SettlementLine.reservationId).nodup
    (insertPendingLines l batchId pendingLines).lines.keys_nodup

theorem perCandidate_nodup : (pass.allocation.perCandidate.map (·.reservationId)).Nodup := by
  rw [h.planned.perCandidate_ids]
  exact (List.filter_sublist.map ClawbackCandidate.reservationId).nodup h.lockedLines_nodup

/-- The allocation rows of the pass. -/
theorem allocations_rows : l'.allocations.rows =
    (l.allocations.deleteMany fun a => a.batchId = batchId).rows ++
      (pass.allocation.perCandidate.filter fun a => a.absorbedCents > 0).map
        fun a => ⟨batchId, a.reservationId, a.absorbedCents⟩ := by
  rw [h.allocations_eq]
  apply Table.rows_insertMany_of_fresh
  · intro r hr s hs hk
    obtain ⟨e, _, rfl⟩ := List.mem_map.mp hr
    exact (Table.mem_deleteMany.mp hs).2 (congrArg Prod.fst hk)
  · rw [List.map_map]
    have hsub : ((pass.allocation.perCandidate.filter fun a => a.absorbedCents > 0).map
        (·.reservationId)).Nodup :=
      (List.filter_sublist.map ClawbackAllocationLine.reservationId).nodup h.perCandidate_nodup
    have hpair : ((pass.allocation.perCandidate.filter fun a => a.absorbedCents > 0).map
        fun a : ClawbackAllocationLine => (batchId, a.reservationId)) =
        ((pass.allocation.perCandidate.filter fun a => a.absorbedCents > 0).map
          (·.reservationId)).map (Prod.mk batchId) := by
      rw [List.map_map]
      rfl
    change (List.map (fun a : ClawbackAllocationLine => (batchId, a.reservationId)) _).Nodup
    rw [hpair]
    exact hsub.map (Prod.mk_right_injective batchId)

theorem mem_allocations {a : ClawbackAllocation} : a ∈ l'.allocations.rows ↔
    a ∈ l.allocations.rows ∧ a.batchId ≠ batchId ∨
      a.batchId = batchId ∧ ∃ e ∈ pass.allocation.perCandidate, 0 < e.absorbedCents ∧
        e.reservationId = a.reservationId ∧ e.absorbedCents = a.amountCents := by
  rw [h.allocations_rows, List.mem_append, Table.mem_deleteMany, List.mem_map]
  refine or_congr_right ?_
  constructor
  · rintro ⟨e, he, rfl⟩
    obtain ⟨he, hpos⟩ := List.mem_filter.mp he
    exact ⟨rfl, e, he, by simpa using hpos, rfl, rfl⟩
  · rintro ⟨hb, e, he, hpos, hr, ha⟩
    refine ⟨e, List.mem_filter.mpr ⟨he, by simpa using hpos⟩, ?_⟩
    rw [← hb, hr, ha]

/-- A sum over the allocations: other batches', and the entries of the pass. -/
theorem allocations_sumOn (p : ClawbackAllocation → Prop) [DecidablePred p] :
    l'.allocations.sumOn p (·.amountCents) =
      l.allocations.sumOn (fun a => p a ∧ a.batchId ≠ batchId) (·.amountCents)
        +(pass.allocation.perCandidate.map fun e =>
          if p ⟨batchId, e.reservationId, e.absorbedCents⟩ then e.absorbedCents else 0).sum := by
  have hn := h.planned.absorbed_bounds
  rw [Table.sumOn, h.allocations_rows, List.map_append, List.sum_append]
  change (l.allocations.deleteMany fun a => a.batchId = batchId).sumOn p (·.amountCents)+_ = _
  rw [Table.sumOn_deleteMany]
  congr 1
  rw [List.map_map]
  revert hn
  generalize pass.allocation.perCandidate = entries
  intro hn
  induction entries with
  | nil => rfl
  | cons e entries ih =>
    have hrest := ih fun e' he' => hn e' (List.mem_cons_of_mem e he')
    have he := (hn e List.mem_cons_self).1
    by_cases hpos : e.absorbedCents > 0
    · rw [List.filter_cons_of_pos (by simpa using hpos), List.map_cons, List.map_cons,
        List.sum_cons, List.sum_cons, hrest]
      rfl
    · have hz : e.absorbedCents = 0 := by omega
      rw [List.filter_cons_of_neg (by simpa using hpos), hrest, List.map_cons, List.sum_cons, hz]
      simp

theorem allocatedByBatch_self : l'.allocatedByBatch batchId =
    pass.result.refundClawbackCents-pass.allocation.externalAbsorbedCents := by
  rw [Ledger.allocatedByBatch, h.allocations_sumOn, ← h.planned.absorbed_sum]
  rw [Table.sumOn_eq_zero fun a _ ha => ha.2 ha.1]
  simp

theorem allocatedByBatch_of_ne {b : BatchId} (hb : b ≠ batchId) :
    l'.allocatedByBatch b = l.allocatedByBatch b := by
  have hothers : l.allocations.sumOn (fun a => a.batchId = b ∧ a.batchId ≠ batchId)
      (·.amountCents) = l.allocatedByBatch b := by
    apply Table.sumOn_congr rfl
    intro a _
    by_cases ha : a.batchId = b
    · simp [ha, hb]
    · simp [ha]
  rw [Ledger.allocatedByBatch, h.allocations_sumOn, hothers]
  simp [hb.symm]

/-- What the pass itself recovered against a line. -/
theorem allocatedToLine_eq (r : ReservationId) : l'.allocatedToLine r =
    (resetOwnClawbackLedger l batchId).allocatedToLine r
      +absorbedBy pass r := by
  rw [Ledger.allocatedToLine, h.allocations_sumOn, Ledger.allocatedToLine, resetOwnClawbackLedger,
    Table.sumOn_deleteMany]
  rfl

/-- The columns of the stored row that a pass keeps or decides. -/
theorem row_columns : row.merchantId = batch.merchantId ∧ row.createdAt = batch.createdAt ∧
    row.periodStart = batch.periodStart ∧ row.payoutAttemptedAt = none ∧
    row.inheritedExternalDemandCents = pass.carriedFromPrior ∧
    row.carriedDemandSourceBatchId = pass.carriedDemandSourceBatchId ∧
    row.shortfallResolvedAt ≠ none := by
  obtain ⟨vat, rfl⟩ := h.row_eq
  refine ⟨rfl, rfl, rfl, h.unattempted, rfl, ?_, by simp [passRow]⟩
  have hs := h.planned.source
  by_cases hf : batch.shortfallResolvedAt = none
  · simp [passRow, hf]
  · simp only [passRow, hf, if_false]
    rw [hs, passSource, if_neg hf]

theorem row_status : row.status = .held ∧ pass.result.held = true ∨
    row.status = .calculated ∧ pass.result.held = false := by
  obtain ⟨vat, rfl⟩ := h.row_eq
  cases hh : pass.result.held <;> simp [passRow, hh]

theorem row_recomputable : row.Recomputable := by
  rw [Batch.recomputable_iff]
  rcases h.row_status with hs | hs
  · exact Or.inr hs.1
  · exact Or.inl hs.1

/-- The unabsorbed part of the carried demand, from the inputs of the pass. -/
theorem row_carried : row.carriedExternalDemandCents =
    max 0 (pass.carriedFromPrior-max 0 (passBalance pass-membershipDueCents pass.due)) := by
  have hd := h.planned.due_nonneg
  have hc := h.planned.carried_nonneg
  have ht := totalClawbackDemandCents_nonneg (clawbackCandidates pass.lockedLines)
  have hrefund : pass.result.refundClawbackCents =
      min (totalClawbackDemandCents (clawbackCandidates pass.lockedLines)+pass.carriedFromPrior)
        (max 0 (passBalance pass
          -min (membershipDueCents pass.due) (max 0 (passBalance pass)))) := by
    rw [h.planned.result]
    rfl
  obtain ⟨vat, rfl⟩ := h.row_eq
  simp only [passRow]
  rw [h.planned.external_eq, hrefund]
  omega

/-- The stored fee deficit is the deficit of the lines. -/
theorem row_deficit : ownFeeDeficitCents row = max 0 (-passBalance pass) := by
  have hoff := max_neg_offset h.planned.due_nonneg (passBalance pass)
  obtain ⟨vat, rfl⟩ := h.row_eq
  rw [← hoff, ownFeeDeficitCents]
  simp only [passRow]
  rw [h.planned.result]
  rfl

/-- The batch exports the deficit of its lines and what it still carries. -/
theorem row_exportable : exportableCarriedDemandCents row =
    max 0 (-passBalance pass)+row.carriedExternalDemandCents := by
  have hd := h.planned.due_nonneg
  have hc := h.planned.carried_nonneg
  have ht := totalClawbackDemandCents_nonneg (clawbackCandidates pass.lockedLines)
  rcases h.row_status with ⟨hs, _⟩ | ⟨hs, hh⟩
  · rw [exportableCarriedDemandCents, if_neg (by simp [hs]), h.row_deficit]
  · have hshort : ¬ pass.result.carriedShortfallCents > 0 := by
      have hres := h.planned.result
      rw [hres, aggregateLines_held] at hh
      rw [hres]
      simpa using hh
    rw [h.planned.result, aggregateLines_shortfall] at hshort
    change ¬ max 0 (-(passBalance pass
        -min (membershipDueCents pass.due) (max 0 (passBalance pass))))
      +max 0 (_-max 0 (passBalance pass
        -min (membershipDueCents pass.due) (max 0 (passBalance pass)))) > 0 at hshort
    rw [exportableCarriedDemandCents, if_pos (by simp [hs]), h.row_carried]
    omega

theorem row_carried_bounds : 0 ≤ row.carriedExternalDemandCents ∧
    row.carriedExternalDemandCents ≤ row.inheritedExternalDemandCents := by
  have hc := h.planned.carried_nonneg
  rw [h.row_columns.2.2.2.2.1, h.row_carried]
  omega

/-- The applied clawback is the absorbed carried demand plus the allocations. -/
theorem row_clawback : row.refundClawbackCents =
    row.inheritedExternalDemandCents-row.carriedExternalDemandCents
      +l'.allocatedByBatch batchId := by
  rw [h.allocatedByBatch_self]
  obtain ⟨vat, rfl⟩ := h.row_eq
  simp only [passRow]
  omega

/-- The locked lines are the rows of the merchant that the pass answers for. -/
theorem mem_lockedLines {c : LockedClawbackLine} : c ∈ pass.lockedLines ↔
    ∃ line ∈ (insertPendingLines l batchId pendingLines).lines.rows,
      lockedForPass (insertPendingLines l batchId pendingLines) batch.merchantId batchId line ∧
      c = { reservationId := line.reservationId
            fullDemandCents := fullClawbackDemandCents line
            otherBatchesRecoveredCents :=
              (resetOwnClawbackLedger l batchId).allocatedToLine line.reservationId } := by
  rw [h.planned.locked, h.batch_id]
  unfold lockedClawbackLines
  simp only [List.mem_map, List.mem_insertionSort, List.mem_filter, decide_eq_true_eq]
  constructor
  · rintro ⟨line, ⟨hl, hlock⟩, rfl⟩
    exact ⟨line, hl, hlock, rfl⟩
  · rintro ⟨line, hl, hlock, rfl⟩
    exact ⟨line, ⟨hl, hlock⟩, rfl⟩

theorem absorbedBy_of_not_locked {r : ReservationId}
    (hr : r ∉ pass.lockedLines.map (·.reservationId)) : absorbedBy pass r = 0 := by
  apply List.sum_eq_zero
  intro x hx
  obtain ⟨e, he, rfl⟩ := List.mem_map.mp hx
  obtain ⟨_, c, hc, hid, _⟩ := h.planned.absorbed_bounds e he
  have hne : e.reservationId ≠ r := fun h' => hr (List.mem_map.mpr ⟨c, hc, hid.trans h'⟩)
  exact if_neg hne

/-- A locked line receives a nonnegative part of what is still outstanding. -/
theorem absorbedBy_bounds {c : LockedClawbackLine} (hc : c ∈ pass.lockedLines) :
    0 ≤ absorbedBy pass c.reservationId ∧
      absorbedBy pass c.reservationId ≤ remainingClawbackDemandCents c := by
  let entries : Table ClawbackAllocationLine.reservationId :=
    ⟨pass.allocation.perCandidate, h.perCandidate_nodup⟩
  have hsum : absorbedBy pass c.reservationId =
      entries.sumOn (fun e => e.reservationId = c.reservationId) (·.absorbedCents) := rfl
  by_cases hex : ∃ e ∈ entries.rows, e.reservationId = c.reservationId
  · obtain ⟨e, he, hid⟩ := hex
    obtain ⟨h0, c', hc', hid', hle⟩ := h.planned.absorbed_bounds e he
    have hcc : c' = c :=
      List.inj_on_of_nodup_map h.lockedLines_nodup hc' hc (hid'.trans hid)
    have he' := entries.sumOn_key he (·.absorbedCents)
    rw [hsum, ← hid, he']
    exact ⟨h0, hcc ▸ hle⟩
  · have hz : entries.sumOn (fun e => e.reservationId = c.reservationId) (·.absorbedCents) = 0 :=
      Table.sumOn_eq_zero fun e he hid => hex ⟨e, he, hid⟩
    rw [hsum, hz]
    exact ⟨le_rfl, remainingClawbackDemandCents_nonneg c⟩

/-- Only the batch's own lines are charged by the pass. -/
theorem chargeLine_of_foreign {line : SettlementLine}
    (hl : line ∈ (insertPendingLines l batchId pendingLines).lines.rows)
    (hb : line.batchId ≠ batchId) : chargeLine pass.result.perLine line = line := by
  apply chargeLine_of_not_mem
  intro pl hpl hid
  rw [h.planned.result] at hpl
  obtain ⟨input, hinput, rfl⟩ := List.mem_map.mp hpl
  rw [h.planned.lines, h.batch_id] at hinput
  obtain ⟨own, hown, hjoin⟩ := List.mem_filterMap.mp hinput
  obtain ⟨hmem, hbatch⟩ := List.mem_filter.mp hown
  cases hres : (insertPendingLines l batchId pendingLines).reservations.find?
      own.reservationId with
  | none => simp [hres] at hjoin
  | some reservation =>
    simp only [hres, Option.map_some, Option.some.injEq] at hjoin
    have hkey : own.reservationId = line.reservationId := by
      rw [← hid, ← hjoin]
      rfl
    have heq := (insertPendingLines l batchId pendingLines).lines.eq_of_key_eq hmem hl hkey
    rw [heq] at hbatch
    exact hb (by simpa using hbatch)

end WrittenPass

end Kurtar.SettlementPass

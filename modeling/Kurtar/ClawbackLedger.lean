import Kurtar.SettlementEffects

/-!
# The clawback ledger stays consistent

Five stored columns project one ledger of allocations and claims: a batch's
applied clawback and inherited demand, a line's recovered amount, its
recovery mark and its audit pointer. `ClawbackLedger` says that they agree and
that allocations are held only against lines that were paid out. A pass erases
what its batch owns and re-projects every line it answers for, so it keeps
the agreement whatever other batches hold on the same lines; its own final
checks can therefore never fail.
-/

namespace Kurtar.ClawbackLedger

open KeyedTable GuardedRuns StatusTransitions IstanbulCalendar SettlementMath SettlementLedger
open SettlementRecompute SettlementTransactions SettlementService SettlementPass
open SettlementEffects

/-- The recovery columns of a line agree with its allocations. -/
structure LineConsistent (l : Ledger) (line : SettlementLine) : Prop where
  projected : line.clawbackCents = l.allocatedToLine line.reservationId
  bounded : line.clawbackCents ≤ fullClawbackDemandCents line
  resolved : line.clawbackAppliedAt ≠ none ↔
    0 < fullClawbackDemandCents line ∧ fullClawbackDemandCents line ≤ line.clawbackCents

/-- The clawback columns of a batch agree with its claim and its allocations. -/
structure BatchConsistent (l : Ledger) (b : Batch) : Prop where
  identity : b.refundClawbackCents =
    b.inheritedExternalDemandCents-b.carriedExternalDemandCents+l.allocatedByBatch b.id
  claim : b.inheritedExternalDemandCents = ((l.claims.find? b.id).map (·.amountCents)).getD 0
  carried_nonneg : 0 ≤ b.carriedExternalDemandCents
  carried_le : b.carriedExternalDemandCents ≤ b.inheritedExternalDemandCents

/-- The invariant of the clawback ledger. -/
structure Consistent (l : Ledger) : Prop where
  line_batch : ∀ line ∈ l.lines.rows, ∃ sb ∈ l.batches.rows, sb.id = line.batchId
  allocation_pos : ∀ a ∈ l.allocations.rows, 0 < a.amountCents
  /-- Allocations are held against paid-out lines of the same merchant. -/
  allocation_line : ∀ a ∈ l.allocations.rows, ∃ line ∈ l.lines.rows,
    line.reservationId = a.reservationId ∧ ∃ sb ∈ l.batches.rows, sb.id = line.batchId ∧
      paidOut sb.status ∧ ∃ owner ∈ l.batches.rows, owner.id = a.batchId ∧
        owner.merchantId = sb.merchantId
  claim_batch : ∀ c ∈ l.claims.rows, ∃ b ∈ l.batches.rows, b.id = c.claimantBatchId
  lines : ∀ line ∈ l.lines.rows, LineConsistent l line
  batches : ∀ b ∈ l.batches.rows, BatchConsistent l b

theorem consistent_of_empty {l : Ledger} (h : Empty l) : Consistent l := by
  constructor <;> simp [h.batches, h.lines, h.allocations, h.claims]

/-- Only the four settlement tables matter. -/
theorem Consistent.of_same_tables {l l' : Ledger} (h : Consistent l)
    (hframe : l'.batches = l.batches ∧ l'.lines = l.lines ∧ l'.allocations = l.allocations ∧
      l'.claims = l.claims) : Consistent l' := by
  cases l
  cases l'
  obtain ⟨hb, hl, ha, hc⟩ := hframe
  dsimp only at hb hl ha hc
  subst hb hl ha hc
  exact ⟨h.line_batch, h.allocation_pos, h.allocation_line, h.claim_batch,
    fun line hline => ⟨(h.lines line hline).1, (h.lines line hline).2, (h.lines line hline).3⟩,
    fun b hb => ⟨(h.batches b hb).1, (h.batches b hb).2, (h.batches b hb).3,
      (h.batches b hb).4⟩⟩

/-- What other batches recovered is at most what was recovered in all. -/
theorem Consistent.others_le {l : Ledger} (h : Consistent l) (batchId : BatchId)
    (r : ReservationId) :
    (resetOwnClawbackLedger l batchId).allocatedToLine r ≤ l.allocatedToLine r := by
  rw [Ledger.allocatedToLine, resetOwnClawbackLedger, Table.sumOn_deleteMany]
  apply Table.sumOn_le_sumOn
  intro a ha
  have hpos := h.allocation_pos a ha
  by_cases hr : a.reservationId = r
  · by_cases hb : a.batchId = batchId
    · simp only [hr, hb, not_true_eq_false, and_false, if_false, if_true]
      exact hpos.le
    · simp [hr, hb]
  · simp [hr]

theorem Consistent.created {l : Ledger} (h : Consistent l) {batch : Batch}
    (hfresh : ∀ b ∈ l.batches.rows, b.id ≠ batch.id)
    (hclean : batch.refundClawbackCents = 0 ∧ batch.inheritedExternalDemandCents = 0 ∧
      batch.carriedExternalDemandCents = 0) :
    Consistent { l with batches := l.batches.insertNew batch } := by
  have hkeep : ∀ b ∈ l.batches.rows, b ∈ (l.batches.insertNew batch).rows :=
    fun b hb => Table.mem_insertNew.mpr (Or.inl hb)
  refine ⟨?_, h.allocation_pos, ?_, ?_, fun line hline => ?_, ?_⟩
  · intro line hline
    obtain ⟨sb, hsb, hid⟩ := h.line_batch line hline
    exact ⟨sb, hkeep sb hsb, hid⟩
  · intro a ha
    obtain ⟨line, hline, hr, sb, hsb, hid, hpaid, owner, ho, hown, hm⟩ := h.allocation_line a ha
    exact ⟨line, hline, hr, sb, hkeep sb hsb, hid, hpaid, owner, hkeep owner ho, hown, hm⟩
  · intro c hc
    obtain ⟨b, hb, hid⟩ := h.claim_batch c hc
    exact ⟨b, hkeep b hb, hid⟩
  · exact ⟨(h.lines line hline).1, (h.lines line hline).2, (h.lines line hline).3⟩
  · intro b hb
    rcases Table.mem_insertNew.mp hb with hb | ⟨rfl, _⟩
    · exact ⟨(h.batches b hb).1, (h.batches b hb).2, (h.batches b hb).3, (h.batches b hb).4⟩
    · have hclaim : l.claims.find? b.id = none := by
        rw [Table.find?_eq_none]
        intro c hc hid
        obtain ⟨b', hb', hid'⟩ := h.claim_batch c hc
        exact hfresh b' hb' (hid'.trans hid)
      have hown : l.allocatedByBatch b.id = 0 := by
        apply Table.sumOn_eq_zero
        intro a ha hid
        obtain ⟨_, _, _, _, _, _, _, owner, ho, hown, _⟩ := h.allocation_line a ha
        exact hfresh owner ho (hown.trans hid)
      obtain ⟨h1, h2, h3⟩ := hclean
      refine ⟨?_, ?_, by rw [h3], by rw [h2, h3]⟩
      · change b.refundClawbackCents = _+l.allocatedByBatch b.id
        rw [h1, h2, h3, hown]
        rfl
      · change _ = ((l.claims.find? b.id).map (·.amountCents)).getD 0
        rw [h2, hclaim]
        rfl

theorem Consistent.flipped {l l' : Ledger} (h : Consistent l) {t : Transaction}
    {old new : Batch} (hflip : Flip t old new) (hrep : Table.Replaces l.batches l'.batches old new)
    (hrest : l' = { l with batches := l'.batches }) : Consistent l' := by
  have hkeeps := hflip.keeps
  have hid : new.id = old.id := hrep.key_new
  have hmerchant : new.merchantId = old.merchantId := by rw [hkeeps]
  have hkeep : ∀ b ∈ l.batches.rows, ∃ b' ∈ l'.batches.rows, b'.id = b.id ∧
      b'.merchantId = b.merchantId ∧ (paidOut b.status → paidOut b'.status) := by
    intro b hb
    by_cases hk : b.id = old.id
    · have he := l.batches.eq_of_key_eq hb hrep.mem_old hk
      exact ⟨new, hrep.mem_new, by rw [he, hid], by rw [he, hmerchant],
        by rw [he]; exact hflip.paidOut⟩
    · exact ⟨b, hrep.mem_of_ne hb hk, rfl, rfl, id⟩
  have hrestored : Consistent { l with batches := l'.batches } := by
    refine ⟨?_, h.allocation_pos, ?_, ?_, fun line hline => ?_, ?_⟩
    · intro line hline
      obtain ⟨sb, hsb, hsid⟩ := h.line_batch line hline
      obtain ⟨sb', hsb', hsid', _, _⟩ := hkeep sb hsb
      exact ⟨sb', hsb', hsid'.trans hsid⟩
    · intro a ha
      obtain ⟨line, hline, hr, sb, hsb, hsid, hpaid, owner, ho, hoid, hm⟩ :=
        h.allocation_line a ha
      obtain ⟨sb', hsb', hsid', hsm, hsp⟩ := hkeep sb hsb
      obtain ⟨owner', ho', hoid', hom, _⟩ := hkeep owner ho
      exact ⟨line, hline, hr, sb', hsb', hsid'.trans hsid, hsp hpaid, owner', ho',
        hoid'.trans hoid, by rw [hom, hm, hsm]⟩
    · intro c hc
      obtain ⟨b, hb, hbid⟩ := h.claim_batch c hc
      obtain ⟨b', hb', hbid', _, _⟩ := hkeep b hb
      exact ⟨b', hb', hbid'.trans hbid⟩
    · exact ⟨(h.lines line hline).1, (h.lines line hline).2, (h.lines line hline).3⟩
    · intro b hb
      rcases hrep.mem_iff.mp hb with rfl | ⟨hb, _⟩
      · have hold := h.batches old hrep.mem_old
        rw [hkeeps]
        exact ⟨hold.1, hold.2, hold.3, hold.4⟩
      · exact ⟨(h.batches b hb).1, (h.batches b hb).2, (h.batches b hb).3, (h.batches b hb).4⟩
  rwa [← hrest] at hrestored

section Pass

variable {l l' : Ledger} {batchId : BatchId} {now clock : Instant}
  {pendingLines : List PendingSettlementLine} {batch row : Batch} {pass : RecomputePass}
  (hinv : Consistent l) (h : WrittenPass l batchId now pendingLines clock batch pass l' row)

/-- Stored lines are old ones or fresh, unrecovered lines of the batch. -/
theorem mem_insertPendingLines {line : SettlementLine}
    (hline : line ∈ (insertPendingLines l batchId pendingLines).lines.rows) :
    line ∈ l.lines.rows ∨ line.batchId = batchId ∧ line.clawbackCents = 0 ∧
      line.clawbackAppliedAt = none ∧ ∀ q ∈ l.lines.rows, q.reservationId ≠ line.reservationId := by
  rcases Table.mem_of_mem_insertMany hline with hl | ⟨hl, hfresh⟩
  · exact Or.inl hl
  · obtain ⟨pl, _, rfl⟩ := List.mem_map.mp hl
    exact Or.inr ⟨rfl, rfl, rfl, hfresh⟩

theorem mem_insertPendingLines_of_mem {line : SettlementLine} (hline : line ∈ l.lines.rows) :
    line ∈ (insertPendingLines l batchId pendingLines).lines.rows :=
  Table.mem_insertMany_of_mem hline

include hinv

/-- A line that was never paid out carries no allocation. -/
theorem unallocated_of_open {line : SettlementLine} (hline : line ∈ l.lines.rows) {b : Batch}
    (hb : b ∈ l.batches.rows) (hid : b.id = line.batchId) (hopen : b.Recomputable) :
    l.allocatedToLine line.reservationId = 0 := by
  apply Table.sumOn_eq_zero
  intro a ha hr
  obtain ⟨line', hline', hr', sb, hsb, hsid, hpaid, _⟩ := hinv.allocation_line a ha
  have hl := l.lines.eq_of_key_eq hline' hline (hr'.trans hr)
  have hbb := l.batches.eq_of_key_eq hsb hb (by rw [hsid, hl, hid])
  rw [hbb] at hpaid
  rcases Batch.recomputable_iff.mp hopen with ho | ho <;> simp [paidOut, ho] at hpaid

/-- A reservation without a line carries no allocation. -/
theorem unallocated_of_no_line {r : ReservationId}
    (hr : ∀ q ∈ l.lines.rows, q.reservationId ≠ r) : l.allocatedToLine r = 0 := by
  apply Table.sumOn_eq_zero
  intro a ha har
  obtain ⟨line, hline, hl, _⟩ := hinv.allocation_line a ha
  exact hr line hline (hl.trans har)

include h

/-- Before the pass nothing was recovered against the batch's own lines. -/
theorem own_line_clean {line : SettlementLine}
    (hline : line ∈ (insertPendingLines l batchId pendingLines).lines.rows)
    (hb : line.batchId = batchId) : line.clawbackCents = 0 ∧ line.clawbackAppliedAt = none ∧
      l.allocatedToLine line.reservationId = 0 := by
  rcases mem_insertPendingLines hline with hl | ⟨_, hc, ha, hfresh⟩
  · have hz := unallocated_of_open hinv hl h.batch_mem (h.batch_id.trans hb.symm) h.recomputable
    have hok := hinv.lines line hl
    have hcl : line.clawbackCents = 0 := hok.projected.trans hz
    refine ⟨hcl, ?_, hz⟩
    by_contra hne
    have hres := hok.resolved.mp hne
    omega
  · exact ⟨hc, ha, unallocated_of_no_line hinv hfresh⟩

/-- The locked lines were stored before and belong to paid-out batches. -/
theorem locked_line {line : SettlementLine}
    (hline : line ∈ (insertPendingLines l batchId pendingLines).lines.rows)
    (hlock : lockedForPass (insertPendingLines l batchId pendingLines) batch.merchantId batchId
      line) :
    line ∈ l.lines.rows ∧ ∃ sb ∈ l.batches.rows, sb.id = line.batchId ∧
      sb.merchantId = batch.merchantId ∧ paidOut sb.status := by
  obtain ⟨sb, hsb, hid, hm, hheld | hawait⟩ := hlock
  · obtain ⟨a, ha, har, _⟩ := hheld
    obtain ⟨line', hline', hr', sb', hsb', hid', hpaid, _⟩ := hinv.allocation_line a ha
    have hl := (insertPendingLines l batchId pendingLines).lines.eq_of_key_eq
      (mem_insertPendingLines_of_mem hline') hline (hr'.trans har)
    subst hl
    have hbb := l.batches.eq_of_key_eq hsb' hsb (hid'.trans hid.symm)
    subst hbb
    exact ⟨hline', sb', hsb', hid', hm, hpaid⟩
  · have hpaid := hawait.2.1
    rcases mem_insertPendingLines hline with hl | ⟨hown, _⟩
    · exact ⟨hl, sb, hsb, hid, hm, hpaid⟩
    · have hbb := l.batches.eq_of_key_eq hsb h.batch_mem (by rw [hid, hown, h.batch_id])
      rw [hbb] at hpaid
      rcases Batch.recomputable_iff.mp h.recomputable with ho | ho <;> simp [paidOut, ho] at hpaid

/-- The pass answers for every line it holds an allocation against. -/
theorem own_allocation_locked {a : ClawbackAllocation} (ha : a ∈ l.allocations.rows)
    (hb : a.batchId = batchId) : a.reservationId ∈ pass.lockedLines.map (·.reservationId) := by
  obtain ⟨line, hline, hr, sb, hsb, hid, _, owner, ho, hoid, hm⟩ := hinv.allocation_line a ha
  have hbb := l.batches.eq_of_key_eq ho h.batch_mem (by rw [hoid, hb, h.batch_id])
  rw [List.mem_map]
  refine ⟨_, h.mem_lockedLines.mpr ⟨line, mem_insertPendingLines_of_mem hline,
    ⟨sb, hsb, hid, by rw [← hm, hbb], Or.inl ⟨a, ha, hr.symm, hb⟩⟩, rfl⟩, hr⟩

/-- Recoveries against a line the pass does not lock are not moved. -/
theorem allocatedToLine_of_not_locked {r : ReservationId}
    (hr : r ∉ pass.lockedLines.map (·.reservationId)) :
    l'.allocatedToLine r = l.allocatedToLine r := by
  rw [h.allocatedToLine_eq, h.absorbedBy_of_not_locked hr, add_zero]
  rw [Ledger.allocatedToLine, resetOwnClawbackLedger, Table.sumOn_deleteMany]
  apply Table.sumOn_congr rfl
  intro a ha
  by_cases har : a.reservationId = r
  · have hne : a.batchId ≠ batchId := by
      intro hb
      exact hr (har ▸ own_allocation_locked hinv h ha hb)
    simp [har, hne]
  · simp [har]

/-- A locked line is recovered within its demand. -/
theorem allocatedToLine_le_of_locked {line : SettlementLine}
    (hline : line ∈ (insertPendingLines l batchId pendingLines).lines.rows)
    (hlock : lockedForPass (insertPendingLines l batchId pendingLines) batch.merchantId batchId
      line) : l'.allocatedToLine line.reservationId ≤ fullClawbackDemandCents line := by
  have hc := h.mem_lockedLines.mpr ⟨line, hline, hlock, rfl⟩
  obtain ⟨_, hle⟩ := h.absorbedBy_bounds hc
  have hok := hinv.lines line (locked_line hinv h hline hlock).1
  have hothers := hinv.others_le batchId line.reservationId
  have hbound := hok.bounded
  rw [hok.projected] at hbound
  rw [h.allocatedToLine_eq]
  simp only [remainingClawbackDemandCents] at hle
  omega

/-- Every stored line is consistent after the pass. -/
theorem line_consistent {line' : SettlementLine} (hline' : line' ∈ l'.lines.rows) :
    LineConsistent l' line' := by
  rw [h.lines_rows, List.mem_map] at hline'
  obtain ⟨line, hline, rfl⟩ := hline'
  split_ifs with hr
  · obtain ⟨c, hc, hcr⟩ := List.mem_map.mp hr
    obtain ⟨locked, hlocked, hlock, rfl⟩ := h.mem_lockedLines.mp hc
    have hsame := (insertPendingLines l batchId pendingLines).lines.eq_of_key_eq hlocked hline hcr
    subst hsame
    obtain ⟨hold, sb, hsb, hid, _, hpaid⟩ := locked_line hinv h hline hlock
    have hforeign : locked.batchId ≠ batchId := by
      intro hb
      have hbb := l.batches.eq_of_key_eq hsb h.batch_mem (by rw [hid, hb, h.batch_id])
      rw [hbb] at hpaid
      rcases Batch.recomputable_iff.mp h.recomputable with ho | ho <;> simp [paidOut, ho] at hpaid
    rw [h.chargeLine_of_foreign hline hforeign]
    refine ⟨rfl, allocatedToLine_le_of_locked hinv h hline hlock, ?_⟩
    change (if fullClawbackDemandCents locked > 0 ∧
      l'.allocatedToLine locked.reservationId ≥ fullClawbackDemandCents locked then
        some (locked.clawbackAppliedAt.getD now) else none) ≠ none ↔
      0 < fullClawbackDemandCents locked ∧
        fullClawbackDemandCents locked ≤ l'.allocatedToLine locked.reservationId
    split_ifs with hfull
    · simp only [ne_eq, reduceCtorEq, not_false_eq_true, true_iff]
      exact ⟨hfull.1, hfull.2⟩
    · simp only [ne_eq, not_true_eq_false, false_iff]
      exact fun hf => hfull ⟨hf.1, hf.2⟩
  · have hkeep := allocatedToLine_of_not_locked hinv h hr
    by_cases hb : line.batchId = batchId
    · obtain ⟨hc, ha, hz⟩ := own_line_clean hinv h hline hb
      obtain ⟨hid, _, _, _, hck, hak⟩ := chargeLine_keeps pass.result.perLine line
      have hpos : 0 ≤ fullClawbackDemandCents (chargeLine pass.result.perLine line) :=
        le_max_left _ _
      refine ⟨?_, ?_, ?_⟩
      · rw [hck, hid, hkeep, hc, hz]
      · rw [hck, hc]
        exact hpos
      · rw [hak, hck, ha, hc]
        constructor
        · intro hn
          exact absurd rfl hn
        · rintro ⟨h1, h2⟩
          omega
    · rw [h.chargeLine_of_foreign hline hb]
      rcases mem_insertPendingLines hline with hl | ⟨hown, _⟩
      · have hok := hinv.lines line hl
        exact ⟨by rw [hok.projected, hkeep], hok.bounded, hok.resolved⟩
      · exact absurd hown hb

/-- Every stored batch is consistent after the pass. -/
theorem batch_consistent {b : Batch} (hb : b ∈ l'.batches.rows) : BatchConsistent l' b := by
  rcases h.replaces.mem_iff.mp hb with rfl | ⟨hb, hne⟩
  · have hbounds := h.row_carried_bounds
    refine ⟨?_, ?_, hbounds.1, hbounds.2⟩
    · rw [h.row_id]
      exact h.row_clawback
    · rw [h.row_id, h.own_claim]
      exact h.row_columns.2.2.2.2.1
  · rw [h.batch_id] at hne
    have hok := hinv.batches b hb
    refine ⟨?_, ?_, hok.carried_nonneg, hok.carried_le⟩
    · rw [h.allocatedByBatch_of_ne hne]
      exact hok.identity
    · rw [h.claims_find?_of_ne hne]
      exact hok.claim

omit hinv in
/-- Every batch is kept, with its merchant, and stays paid out. -/
theorem batch_kept_of_pass {b : Batch} (hb : b ∈ l.batches.rows) :
    ∃ b' ∈ l'.batches.rows, b'.id = b.id ∧ b'.merchantId = b.merchantId ∧
      (paidOut b.status → paidOut b'.status) := by
  by_cases hk : b.id = batch.id
  · have he := l.batches.eq_of_key_eq hb h.batch_mem hk
    refine ⟨row, h.replaces.mem_new, by rw [hk]; exact h.replaces.key_new, ?_, ?_⟩
    · rw [h.row_columns.1, he]
    · intro hpaid
      rw [he] at hpaid
      rcases Batch.recomputable_iff.mp h.recomputable with ho | ho <;>
        simp [paidOut, ho] at hpaid
  · exact ⟨b, h.replaces.mem_of_ne hb hk, rfl, rfl, id⟩

omit hinv in
theorem line_kept_of_pass {line : SettlementLine}
    (hline : line ∈ (insertPendingLines l batchId pendingLines).lines.rows) :
    ∃ line' ∈ l'.lines.rows, line'.reservationId = line.reservationId ∧
      line'.batchId = line.batchId := by
  rw [h.lines_rows]
  refine ⟨_, List.mem_map.mpr ⟨line, hline, rfl⟩, ?_⟩
  have hkeeps := chargeLine_keeps pass.result.perLine line
  split_ifs
  · exact ⟨hkeeps.1, hkeeps.2.1⟩
  · exact ⟨hkeeps.1, hkeeps.2.1⟩

/-- An allocation, old or new, is of a paid-out line of its batch's merchant. -/
theorem allocation_of_pass {a : ClawbackAllocation} (ha : a ∈ l'.allocations.rows) :
    ∃ line ∈ l'.lines.rows, line.reservationId = a.reservationId ∧
      ∃ b ∈ l'.batches.rows, b.id = line.batchId ∧ paidOut b.status ∧
        ∃ owner ∈ l'.batches.rows, owner.id = a.batchId ∧ owner.merchantId = b.merchantId := by
  rcases h.mem_allocations.mp ha with ⟨ha, _⟩ | ⟨hown, e, he, _, her, _⟩
  · obtain ⟨line, hline, hr, sb, hsb, hid, hpaid, owner, ho, hoid, hm⟩ :=
      hinv.allocation_line a ha
    obtain ⟨line', hline', hr', hb'⟩ := line_kept_of_pass h (mem_insertPendingLines_of_mem hline)
    obtain ⟨sb', hsb', hid', hsm, hsp⟩ := batch_kept_of_pass h hsb
    obtain ⟨owner', ho', hoid', hom, _⟩ := batch_kept_of_pass h ho
    exact ⟨line', hline', hr'.trans hr, sb', hsb', by rw [hid', hid, hb'], hsp hpaid, owner',
      ho', hoid'.trans hoid, by rw [hom, hm, hsm]⟩
  · obtain ⟨_, c, hc, hcr, _⟩ := h.planned.absorbed_bounds e he
    obtain ⟨line, hline, hlock, rfl⟩ := h.mem_lockedLines.mp hc
    obtain ⟨_, sb, hsb, hid, hm, hpaid⟩ := locked_line hinv h hline hlock
    obtain ⟨line', hline', hr', hb'⟩ := line_kept_of_pass h hline
    obtain ⟨sb', hsb', hid', hsm, hsp⟩ := batch_kept_of_pass h hsb
    exact ⟨line', hline', by rw [hr', ← her]; exact hcr, sb', hsb', by rw [hid', hid, hb'],
      hsp hpaid, row, h.replaces.mem_new, by rw [h.row_id, hown],
      by rw [h.row_columns.1, hsm, hm]⟩

/-- A written pass keeps the clawback ledger consistent. -/
theorem consistent_of_pass : Consistent l' := by
  refine ⟨?_, ?_, ?_, ?_, fun line hline => line_consistent hinv h hline,
    fun b hb => batch_consistent hinv h hb⟩
  · intro line' hline'
    rw [h.lines_rows, List.mem_map] at hline'
    obtain ⟨line, hline, rfl⟩ := hline'
    have hb : ∃ sb ∈ l.batches.rows, sb.id = line.batchId := by
      rcases mem_insertPendingLines hline with hl | ⟨hown, _⟩
      · exact hinv.line_batch line hl
      · exact ⟨batch, h.batch_mem, h.batch_id.trans hown.symm⟩
    obtain ⟨sb, hsb, hid⟩ := hb
    obtain ⟨sb', hsb', hid', _⟩ := batch_kept_of_pass h hsb
    have hkeeps := (chargeLine_keeps pass.result.perLine line).2.1
    refine ⟨sb', hsb', ?_⟩
    split_ifs
    · change _ = (chargeLine pass.result.perLine line).batchId
      rw [hkeeps, hid', hid]
    · rw [hkeeps, hid', hid]
  · intro a ha
    rcases h.mem_allocations.mp ha with ⟨ha, _⟩ | ⟨_, e, _, hpos, _, hamount⟩
    · exact hinv.allocation_pos a ha
    · rwa [← hamount]
  · intro a ha
    exact allocation_of_pass hinv h ha
  · intro c hc
    rcases h.mem_claims.mp hc with ⟨hc, _⟩ | ⟨_, _, hclaimant, _⟩
    · obtain ⟨b, hb, hid⟩ := hinv.claim_batch c hc
      obtain ⟨b', hb', hid', _⟩ := batch_kept_of_pass h hb
      exact ⟨b', hb', hid'.trans hid⟩
    · exact ⟨row, h.replaces.mem_new, h.row_id.trans hclaimant.symm⟩

/-- The final ledger check of a pass succeeds. -/
theorem identity_holds (responsible : List ReservationId) :
    assertLedgerIdentity l' row responsible = .ok () := by
  have hrow := batch_consistent hinv h h.replaces.mem_new
  unfold assertLedgerIdentity
  rw [bind_eq_ok]
  refine ⟨(), ensure_eq_ok.mpr hrow.claim, ?_⟩
  rw [bind_eq_ok]
  refine ⟨(), ensure_eq_ok.mpr ⟨hrow.carried_nonneg, hrow.carried_le⟩, ?_⟩
  rw [bind_eq_ok]
  refine ⟨(), ensure_eq_ok.mpr ?_, ?_⟩
  · rw [hrow.identity, add_comm]
  · refine forM_eq_ok.mpr fun line hline => ?_
    have hok := line_consistent hinv h (List.mem_of_mem_filter hline)
    unfold assertLine
    rw [bind_eq_ok]
    refine ⟨(), ensure_eq_ok.mpr hok.projected, ensure_eq_ok.mpr ?_⟩
    rw [← hok.projected]
    exact hok.bounded

end Pass

/-- Every transaction keeps the clawback ledger consistent. -/
theorem consistent_of_commit {l l' : Ledger} {t : Transaction} (hinv : Consistent l)
    (h : commit l t = some l') : Consistent l' := by
  cases commit_effect h with
  | unchanged => exact hinv
  | created hfresh => exact hinv.created hfresh ⟨rfl, rfl, rfl⟩
  | passed hp => exact consistent_of_pass hinv hp.toWrittenPass
  | flipped hflip hrep hrest => exact hinv.flipped hflip hrep hrest
  | business hframe => exact hinv.of_same_tables hframe

theorem consistent_of_reachable {ok : Ledger → Transaction → Prop} {l : Ledger}
    (h : LedgerReachable ok l) : Consistent l :=
  h.invariant (fun _ => consistent_of_empty) fun _ _ _ hi _ ht => consistent_of_commit hi ht

/-- The books of the clawback ledger: what batches and lines record agrees
with the allocations, and an uncovered demand is found by both recovery
queries. -/
structure Accounted (l : Ledger) : Prop where
  batch_clawback : ∀ b ∈ l.batches.rows, b.refundClawbackCents =
    b.inheritedExternalDemandCents-b.carriedExternalDemandCents+l.allocatedByBatch b.id
  line_clawback : ∀ line ∈ l.lines.rows,
    line.clawbackCents = l.allocatedToLine line.reservationId ∧
      line.clawbackCents ≤ fullClawbackDemandCents line
  line_resolved : ∀ line ∈ l.lines.rows, line.clawbackAppliedAt ≠ none ↔
    0 < fullClawbackDemandCents line ∧ fullClawbackDemandCents line ≤ line.clawbackCents
  allocation_pos : ∀ a ∈ l.allocations.rows, 0 < a.amountCents
  /-- The sweep finds the merchant and every pass of the merchant finds the line
  with at least its uncovered demand. -/
  uncovered_visible : ∀ line ∈ l.lines.rows, ∀ sb ∈ l.batches.rows, sb.id = line.batchId →
    paidOut sb.status → ∀ r, l.reservations.find? line.reservationId = some r → r.refundClaimed →
    line.clawbackCents < fullClawbackDemandCents line →
      sb.merchantId ∈ findMerchantsWithPendingClawback l ∧
      ∀ batchId, ∃ c ∈ clawbackCandidates (lockedClawbackLines l sb.merchantId batchId),
        c.reservationId = line.reservationId ∧
          fullClawbackDemandCents line-line.clawbackCents ≤ remainingClawbackDemandCents c

/-- A line awaiting recovery is a candidate of every pass of its merchant. -/
theorem Consistent.candidate {l : Ledger} (h : Consistent l) {line : SettlementLine}
    (hline : line ∈ l.lines.rows) {sb : Batch} (hsb : sb ∈ l.batches.rows)
    (hid : sb.id = line.batchId) (hawait : awaitsClawback l sb.status line)
    (hlt : line.clawbackCents < fullClawbackDemandCents line) (batchId : BatchId) :
    ∃ c ∈ clawbackCandidates (lockedClawbackLines l sb.merchantId batchId),
      c.reservationId = line.reservationId ∧
        fullClawbackDemandCents line-line.clawbackCents ≤ remainingClawbackDemandCents c := by
  have hothers := h.others_le batchId line.reservationId
  have hproj := (h.lines line hline).projected
  refine ⟨{ reservationId := line.reservationId
            fullDemandCents := fullClawbackDemandCents line
            otherBatchesRecoveredCents :=
              (resetOwnClawbackLedger l batchId).allocatedToLine line.reservationId },
    List.mem_filter.mpr ⟨?_, by simp only [decide_eq_true_eq]; omega⟩, rfl, ?_⟩
  · simp only [lockedClawbackLines, List.mem_map, List.mem_insertionSort, List.mem_filter,
      decide_eq_true_eq]
    exact ⟨line, ⟨hline, sb, hsb, hid, rfl, Or.inr hawait⟩, rfl⟩
  · simp only [remainingClawbackDemandCents]
    omega

theorem Consistent.accounted {l : Ledger} (h : Consistent l) : Accounted l where
  batch_clawback b hb := (h.batches b hb).identity
  line_clawback line hline := ⟨(h.lines line hline).projected, (h.lines line hline).bounded⟩
  line_resolved line hline := (h.lines line hline).resolved
  allocation_pos := h.allocation_pos
  uncovered_visible line hline sb hsb hid hpaid r hr hrefund hlt := by
    have hopen : line.clawbackAppliedAt = none := by
      by_contra hne
      have hres := ((h.lines line hline).resolved.mp hne).2
      omega
    have hawait : awaitsClawback l sb.status line := ⟨hopen, hpaid, r, hr, hrefund⟩
    refine ⟨?_, h.candidate hline hsb hid hawait hlt⟩
    rw [findMerchantsWithPendingClawback, List.mem_dedup, List.mem_map]
    refine ⟨sb, List.mem_filter.mpr ⟨hsb, ?_⟩, rfl⟩
    have hproj := (h.lines line hline).projected
    have hnonneg : 0 ≤ l.allocatedToLine line.reservationId :=
      Table.sumOn_nonneg fun a ha _ => (h.allocation_pos a ha).le
    simp only [decide_eq_true_eq]
    refine ⟨line, hline, hid, hawait, ?_⟩
    unfold fullClawbackDemandCents at hlt
    omega

/-- In every state the services reach, the clawback ledger accounts for every kuruş. -/
theorem clawback_ledger_accounted {w : World} (h : ServiceReachable anyStep w) :
    Accounted w.ledger :=
  (consistent_of_reachable (ledgerReachable_of_anyStep h)).accounted

/-- A refunded line of a sent batch, partly recovered by the next day's batch. -/
def partialRecovery : List Action :=
  sell 1 1 10000 ++ runNight (noonOf 2) 11 ++ approve 11 (noonOf 2) ++ payOut 11 (noonOf 2) ++
    [.business (.setPayment 1 .refunded [.done]) (noonOf 2)] ++
    sell 2 2 3000 ++ runNight (noonOf 3) 12

theorem clawback_ledger_accounted_partialRecovery :
    ∃ w, run step (sampleWorld 500) partialRecovery = some w ∧ Accounted w.ledger ∧
      w.ledger.lines.rows.map (fun line => (line.clawbackCents, fullClawbackDemandCents line)) =
        [(2376, 9306), (0, 2376)] := by
  refine ⟨(run step (sampleWorld 500) partialRecovery).getD (sampleWorld 500), rfl, ?_, ?_⟩
  · exact clawback_ledger_accounted (reachable_of_sample 500 partialRecovery rfl)
  · decide +kernel

/-- A recompute of any batch in any reachable state, with any pending lines,
fails neither with a ledger divergence nor with an attribution error; when its
pass is planned, the applied clawback is exactly what the carried demand and
the candidates absorb, and no line of the state is over-recovered. -/
theorem recompute_never_diverges {w : World} (h : ServiceReachable anyStep w)
    (batchId : BatchId) (now : Instant) (pendingLines : List PendingSettlementLine)
    (clock : Instant) :
    (∀ e, recomputeBatch w.ledger batchId now pendingLines clock = .error e →
      (∀ d, e ≠ .ledgerDivergence d) ∧ ∀ r a x, e ≠ .math (.unattributedClawback r a x)) ∧
    (∀ batch pass, w.ledger.batches.find? batchId = some batch →
      planPass (insertPendingLines w.ledger batchId pendingLines) batch = .ok pass →
        pass.allocation.externalAbsorbedCents
          +(pass.allocation.perCandidate.map (·.absorbedCents)).sum =
            pass.result.refundClawbackCents) ∧
    ∀ line ∈ w.ledger.lines.rows,
      w.ledger.allocatedToLine line.reservationId ≤ fullClawbackDemandCents line := by
  have hinv := consistent_of_reachable (ledgerReachable_of_anyStep h)
  refine ⟨?_, ?_, ?_⟩
  · intro e he
    unfold recomputeBatch at he
    cases hf : w.ledger.batches.find? batchId with
    | none =>
      simp only [hf, Except.error.injEq] at he
      rw [← he]
      simp
    | some batch =>
      simp only [hf] at he
      split_ifs at he with hfrozen
      obtain ⟨hopen, hun⟩ := not_or.mp hfrozen
      unfold recomputeOpenBatch at he
      rcases bind_eq_error.mp he with hp | ⟨pass, hp, he⟩
      · exact planPass_attributes hp
      have hw : WrittenPass w.ledger batchId now pendingLines clock batch pass _ _ :=
        ⟨hf, not_not.mp hopen, not_not.mp hun, planPass_eq_ok hp, rfl⟩
      rcases bind_eq_error.mp he with hid | ⟨_, _, he⟩
      · rw [identity_holds hinv hw] at hid
        cases hid
      rcases bind_eq_error.mp he with hh | ⟨_, _, he⟩
      · unfold assertIrrevocableClaimsHonoured ensure at hh
        dsimp only at hh
        split_ifs at hh
        cases hh
        simp
      · cases he
  · intro batch pass _ hp
    have hs := (planPass_eq_ok hp).absorbed_sum
    omega
  · intro line hline
    have hok := hinv.lines line hline
    rw [← hok.projected]
    exact hok.bounded

theorem recompute_never_diverges_partialRecovery :
    ∃ w, run step (sampleWorld 500) partialRecovery = some w ∧
      (∀ e, recomputeBatch w.ledger 12 (noonOf 4) [] (noonOf 4) = .error e →
        (∀ d, e ≠ .ledgerDivergence d) ∧ ∀ r a x, e ≠ .math (.unattributedClawback r a x)) :=
  ⟨(run step (sampleWorld 500) partialRecovery).getD (sampleWorld 500), rfl,
    (recompute_never_diverges (reachable_of_sample 500 partialRecovery rfl) 12 (noonOf 4) [] (noonOf 4)).1⟩

end Kurtar.ClawbackLedger

import Kurtar.MembershipDebt
import Kurtar.SettlementLines

/-!
# A pass that reproduces what is stored

A pass erases what its batch owns before it writes it anew. When everything it
decides is already stored, the pass leaves every row as it was, and the next
pass over the same rows is planned alike.
-/

namespace Kurtar.RecomputeRest

open KeyedTable GuardedRuns StatusTransitions IstanbulCalendar SettlementMath SettlementLedger
open SettlementRecompute SettlementTransactions SettlementService SettlementPass
open SettlementEffects ClawbackLedger MembershipPass MembershipDebt SettlementLines

/-- The stored rows agree; allocations and claims have no order of their own. -/
structure SameRows (l l' : Ledger) : Prop where
  batches : l'.batches = l.batches
  lines : l'.lines = l.lines
  allocations : ∀ a, a ∈ l'.allocations.rows ↔ a ∈ l.allocations.rows
  claims : ∀ c, c ∈ l'.claims.rows ↔ c ∈ l.claims.rows
  subscriptions : l'.subscriptions = l.subscriptions
  merchants : l'.merchants = l.merchants
  pricing : l'.pricing = l.pricing
  reservations : l'.reservations = l.reservations

theorem SameRows.refl (l : Ledger) : SameRows l l :=
  ⟨rfl, rfl, fun _ => Iff.rfl, fun _ => Iff.rfl, rfl, rfl, rfl, rfl⟩

theorem SameRows.trans {l₁ l₂ l₃ : Ledger} (h : SameRows l₁ l₂) (h' : SameRows l₂ l₃) :
    SameRows l₁ l₃ where
  batches := h'.batches.trans h.batches
  lines := h'.lines.trans h.lines
  allocations a := (h'.allocations a).trans (h.allocations a)
  claims c := (h'.claims c).trans (h.claims c)
  subscriptions := h'.subscriptions.trans h.subscriptions
  merchants := h'.merchants.trans h.merchants
  pricing := h'.pricing.trans h.pricing
  reservations := h'.reservations.trans h.reservations

/-- Only the order of allocations and claims may differ. -/
theorem SameRows.eq_with {l l' : Ledger} (h : SameRows l l') :
    l' = { l with allocations := l'.allocations, claims := l'.claims } := by
  obtain ⟨b, li, a, c, s, m, p, r⟩ := l
  obtain ⟨b', li', a', c', s', m', p', r'⟩ := l'
  obtain ⟨hb, hl, _, _, hs, hm, hp, hr⟩ := h
  dsimp only at hb hl hs hm hp hr
  subst hb hl hs hm hp hr
  rfl

section Planning

variable {l : Ledger} {allocations : Table ClawbackAllocation.key}
  {claims : Table CarriedDemandClaim.claimantBatchId}
  (ha : ∀ a, a ∈ allocations.rows ↔ a ∈ l.allocations.rows)
  (hc : ∀ c, c ∈ claims.rows ↔ c ∈ l.claims.rows)

include ha in
theorem othersRecovered_of_same (batchId : BatchId) (r : ReservationId) :
    (resetOwnClawbackLedger { l with allocations, claims } batchId).allocatedToLine r =
      (resetOwnClawbackLedger l batchId).allocatedToLine r := by
  apply Table.sumOn_of_mem_iff
  intro a
  change a ∈ (allocations.deleteMany fun a => a.batchId = batchId).rows ↔
    a ∈ (l.allocations.deleteMany fun a => a.batchId = batchId).rows
  rw [Table.mem_deleteMany, Table.mem_deleteMany, ha]

include ha in
theorem lockedForPass_of_same (merchantId : MerchantId) (batchId : BatchId)
    (line : SettlementLine) :
    lockedForPass { l with allocations, claims } merchantId batchId line ↔
      lockedForPass l merchantId batchId line := by
  have hheld : holdsAllocation { l with allocations, claims } batchId line ↔
      holdsAllocation l batchId line :=
    exists_congr fun a => and_congr_left fun _ => ha a
  exact exists_congr fun sb => and_congr_right fun _ => and_congr_right fun _ =>
    and_congr_right fun _ => or_congr_left hheld

include ha in
theorem lockedClawbackLines_of_same (merchantId : MerchantId) (batchId : BatchId) :
    lockedClawbackLines { l with allocations, claims } merchantId batchId =
      lockedClawbackLines l merchantId batchId := by
  have hlocked : (l.lines.rows.filter fun line =>
      lockedForPass { l with allocations, claims } merchantId batchId line) =
      l.lines.rows.filter fun line => lockedForPass l merchantId batchId line := by
    apply List.filter_congr
    intro line _
    exact decide_eq_decide.mpr (lockedForPass_of_same ha merchantId batchId line)
  unfold lockedClawbackLines
  dsimp only
  rw [hlocked]
  apply List.map_congr_left
  intro line _
  rw [othersRecovered_of_same ha]

include hc in
theorem passCarried_of_same (batch : Batch) :
    passCarried { l with allocations, claims } batch = passCarried l batch := by
  have hresolve : ∀ source, resolveCarriedDemandFromSource { l with allocations, claims } source
      batch.id = resolveCarriedDemandFromSource l source batch.id := by
    intro source
    have hsum : claims.sumOn
        (fun c => c.sourceBatchId = source ∧ c.claimantBatchId ≠ batch.id) (·.amountCents) =
        l.claims.sumOn
          (fun c => c.sourceBatchId = source ∧ c.claimantBatchId ≠ batch.id) (·.amountCents) :=
      Table.sumOn_of_mem_iff hc
    unfold resolveCarriedDemandFromSource
    rw [hsum]
  have hsource : passSource { l with allocations, claims } batch = passSource l batch := rfl
  unfold passCarried
  rw [hsource]
  cases passSource l batch with
  | none => rfl
  | some source => exact hresolve source

/-- A pass over the same rows is planned alike. -/
theorem planPass_of_same {l l' : Ledger} (h : SameRows l l') (batch : Batch) :
    planPass l' batch = planPass l batch := by
  rw [h.eq_with]
  unfold planPass
  rw [lockedClawbackLines_of_same h.allocations, passCarried_of_same h.claims]
  rfl

end Planning

section Attribution

/-- The batch that a line's audit pointer names. -/
def attributedTo (l : Ledger) (r : ReservationId) : Option BatchId :=
  ((l.allocations.rows.filter fun a => a.reservationId = r).map (·.batchId)).max?

/-- Every audit pointer names the youngest batch that recovers from the line. -/
def Attributed (l : Ledger) : Prop :=
  ∀ line ∈ l.lines.rows, line.clawbackBatchId = attributedTo l line.reservationId

theorem max?_of_mem_iff {xs ys : List ℕ} (h : ∀ x, x ∈ xs ↔ x ∈ ys) : xs.max? = ys.max? := by
  cases hx : xs.max? with
  | none =>
    have hy : ys = [] := by
      rw [List.max?_eq_none_iff] at hx
      apply List.eq_nil_iff_forall_not_mem.mpr
      intro y hy
      have := (h y).mpr hy
      rw [hx] at this
      cases this
    rw [hy]
    rfl
  | some m =>
    obtain ⟨hm, hle⟩ := List.max?_eq_some_iff.mp hx
    exact (List.max?_eq_some_iff.mpr ⟨(h m).mp hm, fun y hy => hle y ((h y).mpr hy)⟩).symm

theorem attributedTo_of_mem_iff {l l' : Ledger} {r : ReservationId}
    (h : ∀ a, a.reservationId = r → (a ∈ l'.allocations.rows ↔ a ∈ l.allocations.rows)) :
    attributedTo l' r = attributedTo l r := by
  apply max?_of_mem_iff
  intro b
  simp only [List.mem_map, List.mem_filter, decide_eq_true_eq]
  refine exists_congr fun a => and_congr_left fun _ => ?_
  constructor
  · rintro ⟨ha, hr⟩
    exact ⟨(h a hr).mp ha, hr⟩
  · rintro ⟨ha, hr⟩
    exact ⟨(h a hr).mpr ha, hr⟩

theorem chargeLine_clawbackBatchId (perLine : List SettlementLineResult) (line : SettlementLine) :
    (chargeLine perLine line).clawbackBatchId = line.clawbackBatchId := by
  unfold chargeLine
  split <;> rfl

/-- Allocations against a line that the pass does not lock stay. -/
theorem allocations_of_not_locked {l l' : Ledger} {batchId : BatchId} {now clock : Instant}
    {pendingLines : List PendingSettlementLine} {batch row : Batch} {pass : RecomputePass}
    (hinv : Consistent l) (h : WrittenPass l batchId now pendingLines clock batch pass l' row)
    {r : ReservationId} (hr : r ∉ pass.lockedLines.map (·.reservationId))
    {a : ClawbackAllocation} (har : a.reservationId = r) :
    a ∈ l'.allocations.rows ↔ a ∈ l.allocations.rows := by
  rw [h.mem_allocations]
  constructor
  · rintro (⟨ha, _⟩ | ⟨_, e, he, _, her, _⟩)
    · exact ha
    · obtain ⟨_, c, hc, hid, _⟩ := h.planned.absorbed_bounds e he
      exact absurd (List.mem_map.mpr ⟨c, hc, hid.trans (her.trans har)⟩) hr
  · intro ha
    refine Or.inl ⟨ha, ?_⟩
    intro hb
    exact hr (har ▸ own_allocation_locked hinv h ha hb)

theorem attributed_of_pass {l l' : Ledger} {batchId : BatchId} {now clock : Instant}
    {pendingLines : List PendingSettlementLine} {batch row : Batch} {pass : RecomputePass}
    (hinv : Consistent l) (hattr : Attributed l)
    (h : WrittenPass l batchId now pendingLines clock batch pass l' row) : Attributed l' := by
  intro line' hline'
  rw [h.lines_rows, List.mem_map] at hline'
  obtain ⟨line, hline, rfl⟩ := hline'
  split_ifs with hr
  · rfl
  · rw [chargeLine_clawbackBatchId, (chargeLine_keeps pass.result.perLine line).1,
      attributedTo_of_mem_iff fun a ha => allocations_of_not_locked hinv h hr ha]
    rcases Table.mem_of_mem_insertMany hline with hl | ⟨hl, hfresh⟩
    · exact hattr line hl
    · obtain ⟨pl, _, rfl⟩ := List.mem_map.mp hl
      have hnone : l.allocations.rows.filter (fun a => a.reservationId = pl.reservationId) = [] := by
        apply List.filter_eq_nil_iff.mpr
        intro a ha har
        obtain ⟨stored, hstored, hid, _⟩ := hinv.allocation_line a ha
        exact hfresh stored hstored (hid.trans (by simpa using har))
      rw [attributedTo, hnone]
      rfl

theorem attributed_of_reachable {ok : Ledger → Transaction → Prop} {l : Ledger}
    (h : LedgerReachable ok l) : Attributed l := by
  refine h.invariant_of (J := Consistent) (fun _ hs => consistent_of_reachable hs) ?_ ?_
  · intro l hl line hline
    rw [hl.lines] at hline
    cases hline
  · intro l t l' hinv _ hattr _ ht
    cases commit_effect ht with
    | unchanged => exact hattr
    | created => exact hattr
    | passed hp => exact attributed_of_pass hinv hattr hp.toWrittenPass
    | flipped _ _ hrest =>
      rw [hrest]
      exact hattr
    | business hframe =>
      obtain ⟨_, hlines, hallocations, _⟩ := hframe
      intro line hline
      rw [attributedTo, hallocations]
      exact hattr line (hlines ▸ hline)

end Attribution

/-- The balances are sound in every ledger reached with nonnegative prices. -/
theorem sound_of_reachable {ok : Ledger → Transaction → Prop} {l : Ledger}
    (h : LedgerReachable ok l) (hprices : ∀ p ∈ l.pricing, 0 ≤ p.membershipAnnualCents) :
    Sound l := by
  induction h with
  | start hi =>
    constructor <;> simp [hi.subscriptions, hi.batches]
  | @next s s' t hs _ ht ih =>
    have hsound := ih fun p hp => hprices p (pricing_of_commit ht p hp)
    by_cases hevent : ∃ event clock, t = .business event clock
    · obtain ⟨event, clock, rfl⟩ := hevent
      exact (account_of_event hsound (fun p hp => hprices p (pricing_of_commit ht p hp)) ht).1
    · exact (commit_keeps_account hsound ht fun event clock he => hevent ⟨event, clock, he⟩).1

/-- What a pass decided for a batch is what is stored. -/
structure Reproduced (l : Ledger) (b : Batch) (pass : RecomputePass) : Prop where
  row : ∀ now, passRow b pass (offsetVatCents pass) now = b
  lines : ∀ line ∈ l.lines.rows, line.batchId = b.id → chargeLine pass.result.perLine line = line
  allocations : ∀ a : ClawbackAllocation, a.batchId = b.id → (a ∈ l.allocations.rows ↔
    ∃ e ∈ pass.allocation.perCandidate, 0 < e.absorbedCents ∧
      e.reservationId = a.reservationId ∧ e.absorbedCents = a.amountCents)
  claims : ∀ c : CarriedDemandClaim, c.claimantBatchId = b.id → (c ∈ l.claims.rows ↔
    0 < pass.carriedFromPrior ∧ pass.carriedDemandSourceBatchId = some c.sourceBatchId ∧
      c.amountCents = pass.carriedFromPrior)
  activated : ∀ due, pass.due = some due → (due.exempt || due.foreignPeriod) = false →
    due.needsActivation = false

/-- A batch for which any pass reproduces what is stored. -/
def AtRest (l : Ledger) (b : Batch) : Prop :=
  ∀ pass, planPass l b = .ok pass → Reproduced l b pass

theorem atRest_of_same {l l' : Ledger} (h : SameRows l l') {b : Batch} (hrest : AtRest l b) :
    AtRest l' b := by
  intro pass hpass
  rw [planPass_of_same h] at hpass
  have hr := hrest pass hpass
  refine ⟨hr.row, ?_, ?_, ?_, hr.activated⟩
  · rw [h.lines]
    exact hr.lines
  · intro a ha
    exact (h.allocations a).trans (hr.allocations a ha)
  · intro c hc
    exact (h.claims c).trans (hr.claims c hc)

section Pass

variable {l l' : Ledger} {batchId : BatchId} {now clock : Instant}
  {pendingLines : List PendingSettlementLine} {b row : Batch} {pass : RecomputePass}
  (h : WrittenPass l batchId now pendingLines clock b pass l' row) (hr : Reproduced l b pass)

include h hr

theorem row_reproduced : row = b := (row_of_pass h).trans (hr.row now)

theorem allocations_reproduced (a : ClawbackAllocation) :
    a ∈ l'.allocations.rows ↔ a ∈ l.allocations.rows := by
  rw [h.mem_allocations]
  by_cases hb : a.batchId = batchId
  · rw [hr.allocations a (hb.trans h.batch_id.symm)]
    simp [hb]
  · simp [hb]

theorem claims_reproduced (c : CarriedDemandClaim) :
    c ∈ l'.claims.rows ↔ c ∈ l.claims.rows := by
  rw [h.mem_claims]
  by_cases hb : c.claimantBatchId = batchId
  · rw [hr.claims c (hb.trans h.batch_id.symm)]
    simp [hb]
  · simp [hb]

/-- The projection of a line gives back its stored recovery columns. -/
theorem projectLine_reproduced (hinv : Consistent l) (hattr : Attributed l)
    {line : SettlementLine} (hline : line ∈ l.lines.rows) : projectLine l' now line = line := by
  have hok := hinv.lines line hline
  have htotal : l'.allocatedToLine line.reservationId = line.clawbackCents := by
    rw [hok.projected]
    exact Table.sumOn_of_mem_iff (allocations_reproduced h hr)
  have hpointer : attributedTo l' line.reservationId = line.clawbackBatchId := by
    rw [hattr line hline]
    exact attributedTo_of_mem_iff fun a _ => allocations_reproduced h hr a
  have hmark : (if fullClawbackDemandCents line > 0 ∧
      line.clawbackCents ≥ fullClawbackDemandCents line then
        some (line.clawbackAppliedAt.getD now) else none) = line.clawbackAppliedAt := by
    have hres := hok.resolved
    cases hm : line.clawbackAppliedAt with
    | none =>
      rw [hm] at hres
      exact if_neg fun hfull => hres.mpr hfull rfl
    | some t =>
      rw [hm] at hres
      exact if_pos (hres.mp (by simp))
  change { line with
    clawbackCents := l'.allocatedToLine line.reservationId
    clawbackBatchId := attributedTo l' line.reservationId
    clawbackAppliedAt :=
      if fullClawbackDemandCents line > 0 ∧
          l'.allocatedToLine line.reservationId ≥ fullClawbackDemandCents line then
        some (line.clawbackAppliedAt.getD now)
      else none } = line
  rw [htotal, hpointer, hmark]

theorem lines_reproduced (hpending : insertPendingLines l batchId pendingLines = l)
    (hinv : Consistent l) (hattr : Attributed l) : l'.lines = l.lines := by
  apply Table.eq_of_rows_eq
  rw [h.lines_rows, hpending]
  have hsame : ∀ line ∈ l.lines.rows,
      (if line.reservationId ∈ pass.lockedLines.map (·.reservationId) then
        projectLine l' now (chargeLine pass.result.perLine line)
      else chargeLine pass.result.perLine line) = line := by
    intro line hline
    have hcharged : chargeLine pass.result.perLine line = line := by
      by_cases hown : line.batchId = b.id
      · exact hr.lines line hline hown
      · exact h.chargeLine_of_foreign (by rw [hpending]; exact hline) (h.batch_id ▸ hown)
    rw [hcharged]
    split_ifs
    · exact projectLine_reproduced h hr hinv hattr hline
    · rfl
  rw [List.map_congr_left hsame, List.map_id']

/-- The balance takes back what the batch offset and gives it out again. -/
theorem subscriptions_reproduced (hs : Sound l) : l'.subscriptions = l.subscriptions := by
  cases hdue : pass.due with
  | none => exact (pass_of_none h hdue).2.1
  | some due =>
    obtain ⟨sub, _, hd, hrep, _⟩ := pass_of_some h hdue
    rw [row_reproduced h hr] at hrep
    have hbalance := hs.balance sub hrep.mem_old
    have hcents : max 0 (due.storedOutstandingCents+due.batchPriorOffsetCents
        -b.membershipOffsetCents) = sub.outstandingCents := by
      rw [hd.stored, hd.prior]
      omega
    have hvat : max 0 (due.storedOutstandingVatCents+due.batchPriorOffsetVatCents
        -b.membershipOffsetVatCents) = sub.outstandingVatCents := by
      rw [hd.storedVat, hd.priorVat]
      omega
    refine hrep.eq_of_same ?_
    unfold balanceAfter
    dsimp only
    rw [hcents, hvat]
    have hpaid : (if (!due.exempt && !due.foreignPeriod) && sub.outstandingCents = 0 &&
        !due.alreadyMarkedPaid then some clock else sub.periodPaidAt) = sub.periodPaidAt := by
      refine if_neg ?_
      intro hnew
      simp only [Bool.and_eq_true, decide_eq_true_eq, Bool.not_eq_true'] at hnew
      obtain ⟨⟨_, hzero⟩, hunmarked⟩ := hnew
      rw [hd.marked] at hunmarked
      exact hs.marked sub hrep.mem_old hzero (by simpa using hunmarked)
    have hstatus : (if (!due.exempt && !due.foreignPeriod) && due.needsActivation then
        MembershipStatus.active else sub.status) = sub.status := by
      refine if_neg ?_
      intro hnew
      simp only [Bool.and_eq_true, Bool.not_eq_true'] at hnew
      obtain ⟨⟨hexempt, hforeign⟩, hneeds⟩ := hnew
      rw [hr.activated due hdue (by rw [hexempt, hforeign]; rfl)] at hneeds
      cases hneeds
    rw [hpaid, hstatus]

/-- A pass that decides what is stored changes no row. -/
theorem sameRows_of_pass (hpending : insertPendingLines l batchId pendingLines = l)
    (hinv : Consistent l) (hattr : Attributed l) (hs : Sound l) : SameRows l l' where
  batches := h.replaces.eq_of_same (row_reproduced h hr)
  lines := lines_reproduced h hr hpending hinv hattr
  allocations := allocations_reproduced h hr
  claims := claims_reproduced h hr
  subscriptions := subscriptions_reproduced h hr hs
  merchants := h.frame.1
  pricing := h.frame.2.1
  reservations := h.frame.2.2

end Pass

end Kurtar.RecomputeRest

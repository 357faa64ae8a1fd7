import Kurtar.RecomputeRest

/-!
# When a recompute is a fixpoint

A batch is current when its last recompute read what a recompute would read
now, but for what other batches have taken from the membership balance since.
Every amount of a current batch is then reproduced, except the VAT share of
its membership offset: it is rounded anew from the balance that the others
left, and stays only while both VAT portions are in proportion.
-/

namespace Kurtar.RecomputeFixpoint

open KeyedTable GuardedRuns StatusTransitions IstanbulCalendar SettlementMath SettlementLedger
open SettlementRecompute SettlementTransactions SettlementService SettlementPass
open SettlementEffects ClawbackLedger MembershipPass MembershipDebt SettlementLines RecomputeRest

/-- A pass may still rewrite the batch. -/
def OpenBatch (b : Batch) : Prop := b.Recomputable ∧ b.payoutAttemptedAt = none

instance (b : Batch) : Decidable (OpenBatch b) := by
  unfold OpenBatch
  infer_instance

/-- Any transaction other than a recompute of the batch. -/
def Others (b : BatchId) (_ : Ledger) (t : Transaction) : Prop :=
  ∀ now pendingLines clock, t ≠ .recompute b now pendingLines clock

/-- The ledgers reached from `l₁` without another recompute of the batch. -/
abbrev Since (b : BatchId) (l₁ : Ledger) : Ledger → Prop :=
  Reachable commit (Others b) fun l => l = l₁

/-- The subscription as a pass left it, but for what other batches did since. -/
structure TakenFrom (left sub : MembershipSubscription) : Prop where
  period : sub.currentPeriodStart = left.currentPeriodStart ∧
    sub.currentPeriodEnd = left.currentPeriodEnd
  status : sub.status = left.status ∨ sub.status = .active
  outstanding : sub.outstandingCents ≤ left.outstandingCents

/-- A pass planned now reads the lines, the fee, the exemption and the demands
that an earlier pass read. -/
structure ReadsAgain (pass pass' : RecomputePass) : Prop where
  lines : pass'.lines = pass.lines
  bagFeeCents : pass'.bagFeeCents = pass.bagFeeCents
  exempt : pass'.due.map (·.exempt) = pass.due.map (·.exempt)
  candidates : clawbackCandidates pass'.lockedLines = clawbackCandidates pass.lockedLines
  carried : pass'.carriedFromPrior = pass.carriedFromPrior

/-- The batch is stored as its last recompute left it, and that recompute read
what is there now. -/
def Current (l : Ledger) (b : Batch) : Prop :=
  ∃ l₀ now pendingLines clock before pass l₁, LedgerReachable anyStep l₀ ∧
    CommittedPass l₀ b.id now pendingLines clock before pass l₁ b ∧ Since b.id l₁ l ∧
    (∀ sub ∈ l.subscriptions.find? b.merchantId,
      ∃ left ∈ l₁.subscriptions.find? b.merchantId, TakenFrom left sub) ∧
    ∀ pass', planPass l b = .ok pass' → ReadsAgain pass pass'

/-- Where the batch offset a part of the balance and a part is left, the VAT of
both parts is in proportion to their amounts, up to half a kuruş. -/
def InProportion (sub : MembershipSubscription) (b : Batch) : Prop :=
  0 < sub.outstandingCents → 0 < b.membershipOffsetCents →
    -(sub.outstandingCents+b.membershipOffsetCents) ≤
        2*(b.membershipOffsetCents*sub.outstandingVatCents
          -b.membershipOffsetVatCents*sub.outstandingCents) ∧
      2*(b.membershipOffsetCents*sub.outstandingVatCents
          -b.membershipOffsetVatCents*sub.outstandingCents) <
        sub.outstandingCents+b.membershipOffsetCents

/-- `InProportion` for the batches that collect: not exempt and of the current period. -/
def VatSettled (l : Ledger) (b : Batch) : Prop :=
  ∀ merchant ∈ l.merchants.find? b.merchantId, ∀ sub ∈ l.subscriptions.find? b.merchantId,
    exemptAt (some merchant) b.periodStart = false → sub.currentPeriodStart ≤ b.periodStart →
      b.periodStart < sub.currentPeriodEnd → InProportion sub b

/-- A recompute of one of the merchant's batches that stores no new line. -/
def Rerun (l : Ledger) (merchantId : MerchantId) : Transaction → Prop
  | .recompute batchId _ pendingLines _ =>
    (∃ b ∈ l.batches.rows, b.id = batchId ∧ b.merchantId = merchantId) ∧
      ∀ pl ∈ pendingLines, ∃ line ∈ l.lines.rows, line.reservationId = pl.reservationId
  | _ => False

section Since

/-- What a batch owns outside its row. -/
structure Kept (b : BatchId) (l₁ l : Ledger) : Prop where
  charges : batchCharges l b = batchCharges l₁ b
  allocations : ∀ a : ClawbackAllocation, a.batchId = b →
    (a ∈ l.allocations.rows ↔ a ∈ l₁.allocations.rows)
  claims : ∀ c : CarriedDemandClaim, c.claimantBatchId = b →
    (c ∈ l.claims.rows ↔ c ∈ l₁.claims.rows)

/-- Other transactions leave it alone. -/
theorem kept_of_commit {b : BatchId} {l l' : Ledger} {t : Transaction} (ht : Others b l t)
    (h : commit l t = some l') : Kept b l l' := by
  cases commit_effect h with
  | unchanged => exact ⟨rfl, fun _ _ => Iff.rfl, fun _ _ => Iff.rfl⟩
  | created => exact ⟨rfl, fun _ _ => Iff.rfl, fun _ _ => Iff.rfl⟩
  | @passed batchId now clock pendingLines _ _ _ _ hp =>
    have hne : b ≠ batchId := by
      rintro rfl
      exact ht now pendingLines clock rfl
    refine ⟨batchCharges_of_ne hp.toWrittenPass hne, ?_, ?_⟩
    · intro a ha
      rw [hp.mem_allocations]
      simp [ha, hne]
    · intro c hc
      rw [hp.mem_claims]
      simp [hc, hne]
  | flipped _ _ hrest =>
    rw [hrest]
    exact ⟨rfl, fun _ _ => Iff.rfl, fun _ _ => Iff.rfl⟩
  | business hframe =>
    obtain ⟨_, hlines, hallocations, hclaims⟩ := hframe
    refine ⟨by rw [batchCharges, hlines]; rfl, ?_, ?_⟩
    · intro a _
      rw [hallocations]
    · intro c _
      rw [hclaims]

theorem kept_since {b : BatchId} {l₁ l : Ledger} (h : Since b l₁ l) : Kept b l₁ l := by
  refine h.invariant ?_ ?_
  · rintro s rfl
    exact ⟨rfl, fun _ _ => Iff.rfl, fun _ _ => Iff.rfl⟩
  · intro s t s' hkept ht hstep
    have hnext := kept_of_commit ht hstep
    exact ⟨hnext.charges.trans hkept.charges,
      fun a ha => (hnext.allocations a ha).trans (hkept.allocations a ha),
      fun c hc => (hnext.claims c hc).trans (hkept.claims c hc)⟩

end Since

section Decisions

/-- The result depends on what is due only through the offset. -/
theorem aggregateLines_of_offset {perLine : List SettlementLineResult} {due due' prior : ℤ}
    (h : min due' (max 0 (feeBalance perLine)) = min due (max 0 (feeBalance perLine))) :
    aggregateLines perLine due' prior = aggregateLines perLine due prior := by
  unfold feeBalance at h
  unfold aggregateLines
  dsimp only
  rw [h]

/-- Charging a line again with the same charges changes nothing. -/
theorem chargeLine_of_charged {perLine : List SettlementLineResult} {line charged : SettlementLine}
    (h : chargesOf line = chargesOf (chargeLine perLine charged)) :
    chargeLine perLine line = line := by
  have hid : line.reservationId = charged.reservationId :=
    (congrArg SettlementLineResult.reservationId h).trans (chargeLine_keeps perLine charged).1
  have hfee := congrArg SettlementLineResult.bagFeeCents h
  have hvat := congrArg SettlementLineResult.bagFeeVatCents h
  have hwithholding := congrArg SettlementLineResult.withholdingCents h
  simp only [chargesOf] at hfee hvat hwithholding
  unfold chargeLine at hfee hvat hwithholding
  unfold chargeLine
  cases hf : perLine.find? fun pl => pl.reservationId = line.reservationId with
  | none => rfl
  | some pl =>
    have hcharged := hf
    rw [hid] at hcharged
    simp only [hcharged] at hfee hvat hwithholding
    dsimp only
    rw [← hfee, ← hvat, ← hwithholding]

/-- A row derived again from the same decisions is the row. -/
theorem passRow_again {before : Batch} {pass pass' : RecomputePass} {offsetVat : ℤ}
    {now now' : Instant} (hresult : pass'.result = pass.result)
    (hcarried : pass'.carriedFromPrior = pass.carriedFromPrior)
    (hallocation : pass'.allocation = pass.allocation) :
    passRow (passRow before pass offsetVat now) pass' offsetVat now' =
      passRow before pass offsetVat now := by
  unfold passRow
  rw [hresult, hcarried, hallocation]
  simp

end Decisions

section Again

variable {l l₀ l₁ : Ledger} {now clock : Instant} {pendingLines : List PendingSettlementLine}
  {b before : Batch} {pass pass' : RecomputePass}
  (h : WrittenPass l₀ b.id now pendingLines clock before pass l₁ b)
  (h' : Planned l b pass') (hreads : ReadsAgain pass pass')

/-- The offset of the stored row, from what was due. -/
theorem offset_of_row (h : WrittenPass l₀ b.id now pendingLines clock before pass l₁ b) :
    b.membershipOffsetCents = min (membershipDueCents pass.due) (max 0 (passBalance pass)) := by
  rw [← (row_offset h).1, h.planned.result]
  rfl

/-- Due with the subscription row of the ledger that the pass was planned on. -/
theorem due_of_planned (h' : Planned l b pass') {due : MembershipDueForRecompute}
    (hdue : pass'.due = some due) :
    ∃ merchant sub, l.merchants.find? b.merchantId = some merchant ∧
      l.subscriptions.find? b.merchantId = some sub ∧ Due sub b due ∧
      due.exempt = exemptAt (some merchant) b.periodStart := by
  obtain ⟨merchant, hm, _, hlock⟩ := h'.bagFee
  obtain ⟨sub, hsub, hd, hexempt⟩ := lockAndResolveDue_eq_some (hlock.symm.trans hdue)
  exact ⟨merchant, sub, hm, hsub, hd, hexempt⟩

include h

/-- A pass that reads the same subscription, less what others took, may collect
now exactly if the earlier one could, finds the subscription activated, and
offsets the same amount. -/
theorem offset_again {due₀ due : MembershipDueForRecompute} (hdue₀ : pass.due = some due₀)
    {sub left : MembershipSubscription} (hd : Due sub b due)
    (hleft : l₁.subscriptions.find? b.merchantId = some left) (htaken : TakenFrom left sub)
    (hexempt : due.exempt = due₀.exempt) (hnonneg : 0 ≤ sub.outstandingCents) :
    min due.dueCents (max 0 (passBalance pass)) = b.membershipOffsetCents ∧
      ((due.exempt || due.foreignPeriod) = false → due.needsActivation = false) := by
  obtain ⟨sub₀, hkey, hd₀, hrep, _⟩ := pass_of_some h hdue₀
  have hmerchant := h.row_columns.1
  have hrow : left = balanceAfter due₀ b.membershipOffsetCents b.membershipOffsetVatCents clock
      sub₀ := by
    have hnew := hrep.find?_self
    rw [hkey, ← hmerchant, hleft, Option.some.injEq] at hnew
    exact hnew
  have hforeign : due.foreignPeriod = due₀.foreignPeriod := by
    rw [hd.foreign, hd₀.foreign, htaken.period.1, htaken.period.2, h.row_columns.2.2.1, hrow]
    rfl
  have hoffset := offset_of_row h
  rw [hdue₀] at hoffset
  change b.membershipOffsetCents = min due₀.dueCents (max 0 (passBalance pass)) at hoffset
  have hout := htaken.outstanding
  rw [hrow] at hout
  change sub.outstandingCents ≤ max 0 (due₀.storedOutstandingCents+due₀.batchPriorOffsetCents
    -b.membershipOffsetCents) at hout
  rw [hd₀.stored, hd₀.prior] at hout
  constructor
  · rcases hd.base with ⟨_, hcents, _⟩ | ⟨hown, hcents, _⟩
    · omega
    · rw [hexempt, hforeign] at hown
      rcases hd₀.base with ⟨hrestore, _⟩ | ⟨_, hcents₀, _⟩
      · rw [hown] at hrestore
        cases hrestore
      · omega
  · intro hown
    rw [hexempt, hforeign, Bool.or_eq_false_iff] at hown
    have hactive : left.status ≠ .trial ∧ left.status ≠ .pastDue := by
      rw [hrow]
      dsimp only [balanceAfter]
      rw [hown.1, hown.2]
      cases hneeds : due₀.needsActivation with
      | true => simp
      | false =>
        rw [hd₀.inactive, decide_eq_false_iff_not, not_or] at hneeds
        simpa using hneeds
    rw [hd.inactive, decide_eq_false_iff_not, not_or]
    rcases htaken.status with hs | hs
    · rw [hs]
      exact hactive
    · rw [hs]
      simp

/-- The offset is what it was when nobody is subscribed, or the pass reads the
same subscription. -/
theorem due_again (h' : Planned l b pass') (hreads : ReadsAgain pass pass') (hs : Sound l)
    (hsub : ∀ sub ∈ l.subscriptions.find? b.merchantId,
      ∃ left ∈ l₁.subscriptions.find? b.merchantId, TakenFrom left sub) :
    min (membershipDueCents pass'.due) (max 0 (passBalance pass)) = b.membershipOffsetCents ∧
      ∀ due, pass'.due = some due → (due.exempt || due.foreignPeriod) = false →
        due.needsActivation = false := by
  have hexempt := hreads.exempt
  cases hdue : pass'.due with
  | none =>
    have hnone : pass.due = none := by
      cases hdue₀ : pass.due with
      | none => rfl
      | some due₀ => simp [hdue, hdue₀] at hexempt
    rw [offset_of_row h, hnone]
    exact ⟨rfl, fun due hd => by cases hd⟩
  | some due =>
    cases hdue₀ : pass.due with
    | none => simp [hdue, hdue₀] at hexempt
    | some due₀ =>
      simp only [hdue, hdue₀, Option.map_some, Option.some.injEq] at hexempt
      obtain ⟨merchant, sub, _, hfind, hd, _⟩ := due_of_planned h' hdue
      obtain ⟨left, hleft, htaken⟩ := hsub sub hfind
      have hbalance := hs.balance sub (Table.find?_eq_some.mp hfind).1
      obtain ⟨hoffset, hactive⟩ := offset_again h hdue₀ hd hleft htaken hexempt (by omega)
      refine ⟨hoffset, ?_⟩
      intro due' hdue' hown
      cases hdue'
      exact hactive hown

end Again

/-- A batch whose offset stays is stored with the share that a pass gives it now
exactly if its VAT is settled. -/
theorem vat_again_iff {l : Ledger} {b : Batch} {pass' : RecomputePass} (h' : Planned l b pass')
    (hs : Sound l) (hb : b ∈ l.batches.rows)
    (hoffset : pass'.result.membershipOffsetCents = b.membershipOffsetCents) :
    offsetVatCents pass' = b.membershipOffsetVatCents ↔ VatSettled l b := by
  have hown := hs.offset b hb
  unfold offsetVatCents
  rw [hoffset]
  cases hdue : pass'.due with
  | none =>
    obtain ⟨merchant, _, _, hlock⟩ := h'.bagFee
    have hnone := lockAndResolveDue_eq_none (hlock.symm.trans hdue)
    have hzero := hs.subscribed b hb hnone
    dsimp only
    refine iff_of_true (by omega) ?_
    intro _ _ sub hsub
    rw [hnone] at hsub
    cases hsub
  | some due =>
    obtain ⟨merchant, sub, hmerchant, hsub, hd, hexempt⟩ := due_of_planned h' hdue
    have hbalance := hs.balance sub (Table.find?_eq_some.mp hsub).1
    have hcollects : (due.exempt || due.foreignPeriod) = false ↔
        exemptAt (some merchant) b.periodStart = false ∧ sub.currentPeriodStart ≤ b.periodStart ∧
          b.periodStart < sub.currentPeriodEnd := by
      rw [Bool.or_eq_false_iff, hd.foreign, decide_eq_false_iff_not, not_or, not_lt, ge_iff_le,
        not_le, hexempt]
    have hsettled : VatSettled l b ↔
        ((due.exempt || due.foreignPeriod) = false → InProportion sub b) := by
      unfold VatSettled
      rw [hmerchant, hsub, hcollects]
      simp only [Option.mem_some_iff, forall_eq', and_imp]
    rw [hsettled]
    dsimp only
    unfold InProportion
    by_cases hzero : b.membershipOffsetCents ≤ 0
    · unfold splitMembershipOffsetVat
      rw [if_pos (Or.inl hzero)]
      exact iff_of_true (by omega) fun _ _ hpos => absurd hpos (by omega)
    · rcases hd.base with ⟨hrestores, hcents, hvatCents⟩ | ⟨hnew, hcents, hvatCents⟩
      · rw [hcents, hvatCents, hrestores]
        unfold splitMembershipOffsetVat
        rw [if_neg (by omega), if_pos le_rfl]
        exact iff_of_true rfl fun h => by cases h
      · rw [hcents, hvatCents, hnew]
        by_cases hopen : 0 < sub.outstandingCents
        · rw [splitMembershipOffsetVat_eq_iff hopen (by omega) hbalance hown]
          exact ⟨fun h _ _ _ => h, fun h => h rfl hopen (by omega)⟩
        · unfold splitMembershipOffsetVat
          rw [if_neg (by omega), if_pos (by omega)]
          exact iff_of_true (by omega) fun _ hout => absurd hout hopen

/-- The condition is exact: a recompute of a batch that changes no row finds its
VAT settled. -/
theorem vatSettled_of_sameRows {l l' : Ledger} {now clock : Instant} {b row : Batch}
    {pass : RecomputePass} (hs : Sound l) (h : WrittenPass l b.id now [] clock b pass l' row)
    (hsame : SameRows l l') : VatSettled l b := by
  have hfind := h.replaces.find?_self
  rw [hsame.batches, Table.find?_of_mem h.batch_mem, Option.some.injEq] at hfind
  obtain ⟨hcents, hvat⟩ := row_offset h
  rw [← hfind] at hcents hvat
  exact (vat_again_iff h.planned hs h.batch_mem hcents).mp hvat

/-- A current batch in proportion is at rest. -/
theorem atRest_of_current {l : Ledger} (hs : Sound l) {b : Batch} (hb : b ∈ l.batches.rows)
    (hcurrent : Current l b) (hvat : VatSettled l b) : AtRest l b := by
  obtain ⟨l₀, now, pendingLines, clock, before, pass, l₁, _, hpass, hsince, hsub, hreads⟩ :=
    hcurrent
  have h := hpass.toWrittenPass
  have hkept := kept_since hsince
  intro pass' hplan
  have h' := planPass_eq_ok hplan
  have hread := hreads pass' hplan
  obtain ⟨hdue, hactivated⟩ := due_again h h' hread hs hsub
  have hcharges : (pass'.lines.map fun line => chargedLine line pass'.bagFeeCents) =
      pass.lines.map fun line => chargedLine line pass.bagFeeCents := by
    rw [hread.lines, hread.bagFeeCents]
  -- the offset is the only way in which what is due enters the result
  have hresult : pass'.result = pass.result := by
    rw [h'.result, h.planned.result, hcharges, hread.candidates, hread.carried]
    apply aggregateLines_of_offset
    exact hdue.trans (offset_of_row h)
  have hallocation : pass'.allocation = pass.allocation := by
    rw [h'.allocation_eq, h.planned.allocation_eq, hresult, hread.candidates, hread.carried]
  have hoffset : pass'.result.membershipOffsetCents = b.membershipOffsetCents := by
    rw [hresult, (row_offset h).1]
  have hshare : offsetVatCents pass' = offsetVatCents pass := by
    rw [(vat_again_iff h' hs hb hoffset).mpr hvat, (row_offset h).2]
  have hrow := row_of_pass h
  refine ⟨?_, ?_, ?_, ?_, hactivated⟩
  · intro now'
    have hagain : passRow (passRow before pass (offsetVatCents pass) now) pass'
        (offsetVatCents pass) now' = passRow before pass (offsetVatCents pass) now :=
      passRow_again hresult hread.carried hallocation
    rw [← hrow] at hagain
    rw [hshare]
    exact hagain
  · intro line hline hown
    have hmem : chargesOf line ∈ batchCharges l b.id :=
      List.mem_map.mpr ⟨line, List.mem_filter.mpr ⟨hline, by simpa using hown⟩, rfl⟩
    rw [hkept.charges, batchCharges_of_pass h] at hmem
    obtain ⟨charged, _, hcharged⟩ := List.mem_map.mp hmem
    rw [hresult]
    exact chargeLine_of_charged hcharged.symm
  · intro a ha
    rw [hkept.allocations a ha, h.mem_allocations, hallocation]
    simp [ha]
  · intro c hc
    have hsource : pass'.carriedDemandSourceBatchId = pass.carriedDemandSourceBatchId := by
      rw [h'.source, passSource, if_neg h.row_columns.2.2.2.2.2.2, h.row_columns.2.2.2.2.2.1]
    rw [hkept.claims c hc, h.mem_claims, hsource, hread.carried]
    simp [hc]

section Runs

variable {l l' : Ledger} {merchantId : MerchantId}

/-- A recompute of a batch at rest changes no row. -/
theorem sameRows_of_rerun (h : LedgerReachable anyStep l)
    (hprices : ∀ p ∈ l.pricing, 0 ≤ p.membershipAnnualCents)
    (hrest : ∀ b ∈ l.batches.rows, b.merchantId = merchantId → OpenBatch b → AtRest l b)
    {t : Transaction} (ht : Rerun l merchantId t) (hcommit : commit l t = some l') :
    SameRows l l' := by
  cases t with
  | recompute batchId now pendingLines clock =>
    obtain ⟨⟨b, hb, hid, hmerchant⟩, hpending⟩ := ht
    have hstored : insertPendingLines l batchId pendingLines = l := by
      unfold insertPendingLines
      dsimp only
      rw [Table.insertMany_of_taken]
      intro line hline
      obtain ⟨pl, hpl, rfl⟩ := List.mem_map.mp hline
      exact hpending pl hpl
    simp only [commit] at hcommit
    cases hr : recomputeBatch l batchId now pendingLines clock with
    | error e => simp [hr] at hcommit
    | ok result =>
      simp only [hr, Option.some.injEq] at hcommit
      rw [← hcommit]
      obtain ⟨batch, hfind, ⟨_, hl, _⟩ | ⟨pass, hplan, hpass⟩⟩ := recomputeBatch_planned hr
      · rw [hl]
        exact SameRows.refl l
      · have hsame := l.batches.eq_of_key_eq hpass.batch_mem hb (hpass.batch_id.trans hid.symm)
        subst hsame
        rw [hstored] at hplan
        have hreproduced := hrest batch hb hmerchant ⟨hpass.recomputable, hpass.unattempted⟩ pass
          hplan
        exact sameRows_of_pass hpass.toWrittenPass hreproduced hstored
          (consistent_of_reachable h) (attributed_of_reachable h) (sound_of_reachable h hprices)
  | _ => exact ht.elim

/-- So does any number of them, in any order. -/
theorem sameRows_of_reruns {ts : List Transaction} (h : LedgerReachable anyStep l)
    (hprices : ∀ p ∈ l.pricing, 0 ≤ p.membershipAnnualCents)
    (hrest : ∀ b ∈ l.batches.rows, b.merchantId = merchantId → OpenBatch b → AtRest l b)
    (hts : ∀ t ∈ ts, Rerun l merchantId t) (hrun : run commit l ts = some l') :
    SameRows l l' := by
  induction ts generalizing l with
  | nil =>
    cases hrun
    exact SameRows.refl _
  | cons t ts ih =>
    unfold run at hrun
    cases hcommit : commit l t with
    | none => simp [hcommit] at hrun
    | some next =>
      simp only [hcommit] at hrun
      have hfirst := sameRows_of_rerun h hprices hrest (hts t List.mem_cons_self) hcommit
      refine hfirst.trans (ih (h.next trivial hcommit) ?_ ?_ ?_ hrun)
      · rw [hfirst.pricing]
        exact hprices
      · rw [hfirst.batches]
        intro b hb hmerchant hopen
        exact atRest_of_same hfirst (hrest b hb hmerchant hopen)
      · intro t' ht'
        have hrerun := hts t' (List.mem_cons_of_mem t ht')
        cases t' with
        | recompute batchId now pendingLines clock =>
          change (∃ b ∈ next.batches.rows, _) ∧ ∀ pl ∈ pendingLines, ∃ line ∈ next.lines.rows, _
          rw [hfirst.batches, hfirst.lines]
          exact hrerun
        | _ => exact hrerun

end Runs

/-- In a reachable ledger whose open batches of a merchant are current and have
their VAT in proportion, recomputes of the merchant's batches change no stored
row, however many there are and in whatever order. -/
theorem recompute_fixpoint {l l' : Ledger} {merchantId : MerchantId} {ts : List Transaction}
    (h : LedgerReachable anyStep l) (hprices : ∀ p ∈ l.pricing, 0 ≤ p.membershipAnnualCents)
    (hcurrent : ∀ b ∈ l.batches.rows, b.merchantId = merchantId → OpenBatch b → Current l b)
    (hvat : ∀ b ∈ l.batches.rows, b.merchantId = merchantId → OpenBatch b → VatSettled l b)
    (hts : ∀ t ∈ ts, Rerun l merchantId t) (hrun : run commit l ts = some l') :
    SameRows l l' := by
  apply sameRows_of_reruns h hprices _ hts hrun
  intro b hb hmerchant hopen
  exact atRest_of_current (sound_of_reachable h hprices) hb (hcurrent b hb hmerchant hopen)
    (hvat b hb hmerchant hopen)

section Samples

deriving instance DecidableEq for Batch, SettlementLine, ClawbackAllocation, CarriedDemandClaim,
  MembershipSubscription, Merchant, PlatformPricing, Reservation

instance (b : BatchId) (l : Ledger) (t : Transaction) : Decidable (Others b l t) :=
  match t with
  | .recompute batchId now pendingLines clock =>
    decidable_of_iff (batchId ≠ b)
      ⟨fun hne _ _ _ he => hne (by cases he; rfl),
        fun h he => h now pendingLines clock (by rw [he])⟩
  | .createOrExtend .. | .approve _ | .hold .. | .stampPayout .. | .markSent ..
  | .markSettled .. | .business .. => isTrue (by simp [Others])

instance (left sub : MembershipSubscription) : Decidable (TakenFrom left sub) :=
  decidable_of_iff ((sub.currentPeriodStart = left.currentPeriodStart ∧
      sub.currentPeriodEnd = left.currentPeriodEnd) ∧
    (sub.status = left.status ∨ sub.status = .active) ∧
      sub.outstandingCents ≤ left.outstandingCents)
    ⟨fun h => ⟨h.1, h.2.1, h.2.2⟩, fun h => ⟨h.1, h.2, h.3⟩⟩

instance (pass pass' : RecomputePass) : Decidable (ReadsAgain pass pass') :=
  decidable_of_iff (pass'.lines = pass.lines ∧ pass'.bagFeeCents = pass.bagFeeCents ∧
    pass'.due.map (·.exempt) = pass.due.map (·.exempt) ∧
    clawbackCandidates pass'.lockedLines = clawbackCandidates pass.lockedLines ∧
    pass'.carriedFromPrior = pass.carriedFromPrior)
    ⟨fun h => ⟨h.1, h.2.1, h.2.2.1, h.2.2.2.1, h.2.2.2.2⟩, fun h => ⟨h.1, h.2, h.3, h.4, h.5⟩⟩

instance (sub : MembershipSubscription) (b : Batch) : Decidable (InProportion sub b) := by
  unfold InProportion
  infer_instance

instance (l : Ledger) (b : Batch) : Decidable (VatSettled l b) := by
  unfold VatSettled
  infer_instance

instance (l : Ledger) (merchantId : MerchantId) (t : Transaction) :
    Decidable (Rerun l merchantId t) :=
  match t with
  | .recompute batchId _ pendingLines _ =>
    inferInstanceAs (Decidable ((∃ b ∈ l.batches.rows, b.id = batchId ∧ b.merchantId = merchantId) ∧
      ∀ pl ∈ pendingLines, ∃ line ∈ l.lines.rows, line.reservationId = pl.reservationId))
  | .createOrExtend .. | .approve _ | .hold .. | .stampPayout .. | .markSent ..
  | .markSettled .. | .business .. => isFalse id

theorem ledger_eq_of_rows {l l' : Ledger} (h : l.batches.rows = l'.batches.rows ∧
    l.lines.rows = l'.lines.rows ∧ l.allocations.rows = l'.allocations.rows ∧
    l.claims.rows = l'.claims.rows ∧ l.subscriptions.rows = l'.subscriptions.rows ∧
    l.merchants.rows = l'.merchants.rows ∧ l.pricing = l'.pricing ∧
    l.reservations.rows = l'.reservations.rows) : l = l' := by
  obtain ⟨hb, hl, ha, hc, hs, hm, hp, hr⟩ := h
  cases l
  cases l'
  simp only [Ledger.mk.injEq]
  exact ⟨Table.eq_of_rows_eq hb, Table.eq_of_rows_eq hl, Table.eq_of_rows_eq ha,
    Table.eq_of_rows_eq hc, Table.eq_of_rows_eq hs, Table.eq_of_rows_eq hm, hp,
    Table.eq_of_rows_eq hr⟩

/-- A batch is current after a run that recomputed it and then left it alone. -/
theorem current_of_run {l₀ l₁ l : Ledger} {id : BatchId} {now clock : Instant}
    {ts : List Transaction} (hreach : LedgerReachable anyStep l₀)
    (hcommit : commit l₀ (.recompute id now [] clock) = some l₁)
    (hmeets : RunMeets commit (Others id) l₁ ts) (hrun : run commit l₁ ts = some l)
    (hcheck : ∀ b ∈ l.batches.find? id, l₁.batches.find? id = some b ∧
      (∀ sub ∈ l.subscriptions.find? b.merchantId,
        ∃ left ∈ l₁.subscriptions.find? b.merchantId, TakenFrom left sub) ∧
      ∀ q ∈ l₀.batches.find? id, OpenBatch q ∧ ∀ pass ∈ (planPass l₀ q).toOption,
        ∀ pass' ∈ (planPass l b).toOption, ReadsAgain pass pass') :
    ∀ b ∈ l.batches.find? id, Current l b := by
  intro b hb
  obtain ⟨hstored, hsub, hreads⟩ := hcheck b hb
  have hid := (Table.find?_eq_some.mp hb).2
  subst hid
  simp only [commit] at hcommit
  cases hr : recomputeBatch l₀ b.id now [] clock with
  | error e => simp [hr] at hcommit
  | ok result =>
    simp only [hr, Option.some.injEq] at hcommit
    obtain ⟨stored, row⟩ := result
    dsimp only at hcommit
    subst hcommit
    obtain ⟨q, hq, ⟨hfrozen, _⟩ | ⟨pass, hplan, hpass⟩⟩ := recomputeBatch_planned hr
    · obtain ⟨⟨hopen, hun⟩, _⟩ := hreads q hq
      rcases hfrozen with hf | hf
      · exact absurd hopen hf
      · exact absurd hun hf
    · have hrow : row = b := by
        have hfind := hpass.replaces.find?_self
        rw [hpass.batch_id, hstored, Option.some.injEq] at hfind
        exact hfind.symm
      subst hrow
      refine ⟨l₀, now, [], clock, q, pass, stored, hreach, hpass,
        reachable_of_guarded_run (.start rfl) hmeets hrun, hsub, ?_⟩
      intro pass' hplan'
      refine (hreads q hq).2 pass ?_ pass' ?_
      · change planPass l₀ q = .ok pass at hplan
        rw [hplan]
        rfl
      · rw [hplan']
        rfl

/-- A membership at the given price and one bag on each of three days. -/
def memberSells (membershipAnnualCents first second third : ℤ) : List Action :=
  .business (.scheduleFuturePricing ⟨0, membershipAnnualCents, noonOf 100⟩) (noonOf 99)
    :: .business (.createForApprovedMerchant 1 (noonOf 100)) (noonOf 100)
    :: sell 1 101 first ++ sell 2 102 second ++ sell 3 103 third

/-- The groups of the three days, each with its recompute. -/
def buildThree : List Action :=
  buildGroup (noonOf 104) 11 ++ buildGroup (noonOf 104) 12 ++ buildGroup (noonOf 104) 13

/-- Two nights scan the same bags, and one of them runs to its end. -/
def firstOfTwoNights (sales : List Action) : List Action :=
  sales ++ [.runNightlyCycle (noonOf 104) none, .runNightlyCycle (noonOf 104) none]
    ++ buildThree ++ [proceed (noonOf 104) 0, proceed (noonOf 104) 0]

/-- The recomputes of one more round. -/
def roundOfThree : List Transaction :=
  [.recompute 11 (noonOf 104) [] (noonOf 104), .recompute 12 (noonOf 104) [] (noonOf 104),
    .recompute 13 (noonOf 104) [] (noonOf 104)]

/-- The ledger after some actions and the first recomputes of a round. -/
def inRound (actions : List Action) (n : ℕ) : Ledger :=
  after commit (sampleState 0 actions).ledger (roundOfThree.take n)

/-- The round recomputes the batch once, at place `n`, and the recompute read what
is there after the round. -/
def ReadOnce (actions : List Action) (n : ℕ) (id : BatchId) : Prop :=
  RunMeets commit (Others id) (inRound actions (n+1)) (roundOfThree.drop (n+1)) ∧
    ∀ b ∈ (inRound actions 3).batches.find? id,
      (inRound actions (n+1)).batches.find? id = some b ∧
      (∀ sub ∈ (inRound actions 3).subscriptions.find? b.merchantId,
        ∃ left ∈ (inRound actions (n+1)).subscriptions.find? b.merchantId, TakenFrom left sub) ∧
      ∀ q ∈ (inRound actions n).batches.find? id, OpenBatch q ∧
        ∀ pass ∈ (planPass (inRound actions n) q).toOption,
        ∀ pass' ∈ (planPass (inRound actions 3) b).toOption, ReadsAgain pass pass'

instance (actions : List Action) (n : ℕ) (id : BatchId) : Decidable (ReadOnce actions n id) := by
  unfold ReadOnce
  infer_instance

section Round

variable {actions : List Action} (hactions : (run step (sampleWorld 0) actions).isSome)
  (hround : (run commit (inRound actions 0) roundOfThree).isSome)

include hround

theorem inRound_rest (n : ℕ) :
    run commit (inRound actions n) (roundOfThree.drop n) = some (inRound actions 3) := by
  rw [← List.take_append_drop n roundOfThree] at hround
  have hrest := run_after hround
  rw [List.take_append_drop] at hrest
  exact hrest

theorem inRound_runs (n : ℕ) : (run commit (inRound actions 0) (roundOfThree.take n)).isSome := by
  rw [← List.take_append_drop n roundOfThree, run_append] at hround
  obtain ⟨l, hl⟩ := Option.isSome_iff_exists.mp hround
  obtain ⟨u, hu, _⟩ := Option.bind_eq_some_iff.mp hl
  rw [hu]
  rfl

theorem inRound_step {n : ℕ} {t : Transaction} (ht : roundOfThree[n]? = some t) :
    commit (inRound actions n) t = some (inRound actions (n+1)) := by
  have htake : roundOfThree.take (n+1) = roundOfThree.take n ++ [t] := by
    rw [List.take_add_one, ht]
    rfl
  have hrun := inRound_runs hround (n+1)
  rw [htake] at hrun
  have hstep := step_after hrun
  rw [← htake] at hstep
  exact hstep

include hactions

theorem inRound_reachable (n : ℕ) : LedgerReachable anyStep (inRound actions n) :=
  reachable_after (ledgerReachable_of_anyStep (sampleState_reachable hactions))
    (inRound_runs hround n)

/-- After the round a batch is current when its recompute read what is there now. -/
theorem current_of_round {n : ℕ} {id : BatchId}
    (ht : roundOfThree[n]? = some (.recompute id (noonOf 104) [] (noonOf 104)))
    (hread : ReadOnce actions n id) :
    ∀ b ∈ (inRound actions 3).batches.find? id, Current (inRound actions 3) b :=
  current_of_run (inRound_reachable hactions hround n) (inRound_step hround ht) hread.1
    (inRound_rest hround (n+1)) hread.2

theorem currents_of_round
    (hids : ∀ b ∈ (inRound actions 3).batches.rows, b.id = 11 ∨ b.id = 12 ∨ b.id = 13)
    (hfirst : ReadOnce actions 0 11) (hsecond : ReadOnce actions 1 12)
    (hthird : ReadOnce actions 2 13) :
    ∀ b ∈ (inRound actions 3).batches.rows, Current (inRound actions 3) b := by
  intro b hb
  have hfind := Table.find?_of_mem hb
  rcases hids b hb with hid | hid | hid
  · rw [hid] at hfind
    exact current_of_round hactions hround rfl hfirst b hfind
  · rw [hid] at hfind
    exact current_of_round hactions hround rfl hsecond b hfind
  · rw [hid] at hfind
    exact current_of_round hactions hround rfl hthird b hfind

end Round

/-- Prices and sales whose VAT divides evenly. -/
def evenSales : List Action := firstOfTwoNights (memberSells 12000 600 1200 1800)

theorem evenSales_current : ∀ b ∈ (inRound evenSales 3).batches.rows,
    Current (inRound evenSales 3) b :=
  currents_of_round (by decide +kernel) (by decide +kernel) (by decide +kernel)
    (by decide +kernel) (by decide +kernel) (by decide +kernel)

theorem recompute_fixpoint_evenSales : ∃ l',
    run commit (inRound evenSales 3) (roundOfThree ++ roundOfThree.reverse) = some l' ∧
      SameRows (inRound evenSales 3) l' := by
  obtain ⟨l', hrun⟩ := Option.isSome_iff_exists.mp (by decide +kernel :
    (run commit (inRound evenSales 3) (roundOfThree ++ roundOfThree.reverse)).isSome)
  refine ⟨l', hrun, recompute_fixpoint (inRound_reachable (by decide +kernel) (by decide +kernel) 3)
    (by decide +kernel) (fun b hb _ _ => evenSales_current b hb)
    (by decide +kernel : ∀ b ∈ (inRound evenSales 3).batches.rows, b.merchantId = 1 →
      OpenBatch b → VatSettled (inRound evenSales 3) b) ?_ hrun⟩
  have hreruns : ∀ t ∈ roundOfThree, Rerun (inRound evenSales 3) 1 t := by decide +kernel
  intro t ht
  rcases List.mem_append.mp ht with ht | ht
  · exact hreruns t ht
  · exact hreruns t (List.mem_reverse.mp ht)

/-- A price and sales that leave a remainder in every share. -/
def unevenSales : List Action := firstOfTwoNights (memberSells 19400 7518 5362 1195)

theorem unevenSales_current : ∀ b ∈ (inRound unevenSales 3).batches.rows,
    Current (inRound unevenSales 3) b :=
  currents_of_round (by decide +kernel) (by decide +kernel) (by decide +kernel)
    (by decide +kernel) (by decide +kernel) (by decide +kernel)

/-- The second night leaves what the second round leaves. -/
theorem secondNight_ledger :
    (sampleState 0 (unevenSales ++ buildThree)).ledger = inRound unevenSales 3 :=
  ledger_eq_of_rows (by decide +kernel)

/-- Two nights over the same bags recomputed every batch twice, and the third
recompute of the first batch still moves a kuruş between the two VAT columns. -/
theorem recompute_fixpoint_drifts : ∃ w, ServiceReachable anyStep w ∧
    (∀ b ∈ w.ledger.batches.rows, b.merchantId = 1 → OpenBatch b → Current w.ledger b) ∧
    ∃ t l', Rerun w.ledger 1 t ∧ commit w.ledger t = some l' ∧ ¬ SameRows w.ledger l' := by
  have hmoved : ∀ l' ∈ commit (inRound unevenSales 3) (.recompute 11 (noonOf 104) [] (noonOf 104)),
      l'.batches.rows.map (·.membershipOffsetVatCents) = [1240, 885, 197] ∧
        (inRound unevenSales 3).batches.rows.map (·.membershipOffsetVatCents) =
          [1241, 885, 197] := by decide +kernel
  obtain ⟨l', hl'⟩ := Option.isSome_iff_exists.mp (by decide +kernel :
    (commit (inRound unevenSales 3) (.recompute 11 (noonOf 104) [] (noonOf 104))).isSome)
  obtain ⟨hafter, hbefore⟩ := hmoved l' hl'
  refine ⟨sampleState 0 (unevenSales ++ buildThree), sampleState_reachable (by decide +kernel), ?_,
    .recompute 11 (noonOf 104) [] (noonOf 104), l', ?_, ?_, ?_⟩
  · rw [secondNight_ledger]
    exact fun b hb _ _ => unevenSales_current b hb
  · rw [secondNight_ledger]
    decide +kernel
  · rw [secondNight_ledger]
    exact hl'
  · rw [secondNight_ledger]
    intro hsame
    rw [hsame.batches, hbefore] at hafter
    simp at hafter

end Samples

end Kurtar.RecomputeFixpoint

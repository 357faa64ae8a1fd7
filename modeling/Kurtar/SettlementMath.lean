import Mathlib.Data.Rat.Floor
import Mathlib.Tactic.Linarith
import Mathlib.Tactic.FieldSimp
import Kurtar.IstanbulCalendar

/-!
# Settlement arithmetic

The pure computations behind a settlement batch, in integer kuruş. A
reservation is charged a fixed fee per bag, the VAT on that fee and a
withholding on what remains. `computeSettlement` aggregates the lines,
offsets the membership balance and the clawback demand, and splits what is
left into a payout or a shortfall. `allocateClawback` attributes the applied
clawback to the inherited external demand first and then to the candidate
lines in the given order.
-/

namespace Kurtar.SettlementMath

/-- Identity of a reservation, the key of a settlement line. -/
abbrev ReservationId := ℕ

/-- Errors thrown by the settlement arithmetic. -/
inductive MathError where
  | invalidGrossCents (reservationId : ReservationId) (grossCents : ℤ)
  | invalidQty (reservationId : ReservationId) (qty : ℤ)
  | invalidBagFeeCents (bagFeeCents : ℤ)
  | invalidMembershipDueCents (membershipDueCents : ℤ)
  | invalidPriorClawbackCents (priorClawbackCents : ℤ)
  | invalidAppliedClawbackCents (appliedClawbackCents : ℤ)
  | invalidExternalDemandCents (externalDemandCents : ℤ)
  /-- Applied clawback left over after every candidate was offered its share. -/
  | unattributedClawback (remaining appliedClawbackCents externalDemandCents : ℤ)
  deriving DecidableEq

/-- The text of a thrown error. -/
def MathError.message : MathError → String
  | .invalidGrossCents r g => s!"computeSettlement: line {r} has invalid grossCents={g}"
  | .invalidQty r q => s!"computeSettlement: line {r} has invalid qty={q}"
  | .invalidBagFeeCents b => s!"computeSettlement: invalid bagFeeCents={b}"
  | .invalidMembershipDueCents m => s!"computeSettlement: invalid membershipDueCents={m}"
  | .invalidPriorClawbackCents p => s!"computeSettlement: invalid priorClawbackCents={p}"
  | .invalidAppliedClawbackCents a => s!"allocateClawback: invalid appliedClawbackCents={a}"
  | .invalidExternalDemandCents e => s!"allocateClawback: invalid externalDemandCents={e}"
  | .unattributedClawback r a e =>
    s!"allocateClawback: {r} kuruş of applied clawback could not be attributed to any candidate — appliedClawbackCents={a} exceeds externalDemandCents={e} plus the candidates' remaining demand"

/-- Nearest integer, ties upwards. -/
def roundKurus (value : ℚ) : ℤ := ⌊value+1/2⌋

/-- A rate given as an exact ratio, applied to an amount and rounded once. -/
def applyRateCents (baseCents numerator denominator : ℤ) : ℤ :=
  (2*(baseCents*numerator)+denominator)/(2*denominator)

/-- The integer formula is the rounded rational quotient. -/
theorem applyRateCents_eq_roundKurus (b n : ℤ) {d : ℤ} (hd : 0 < d) :
    applyRateCents b n d = roundKurus ((b*n : ℤ)/(d : ℚ)) := by
  obtain ⟨m, rfl⟩ := Int.eq_ofNat_of_zero_le hd.le
  have hm : (m : ℚ) ≠ 0 := by exact_mod_cast hd.ne'
  have hq : ((b*n : ℤ) : ℚ)/((m : ℤ) : ℚ)+1/2 = ((2*(b*n)+m : ℤ) : ℚ)/((2*m : ℕ) : ℚ) := by
    push_cast
    field_simp
  rw [roundKurus, hq, Rat.floor_intCast_div_natCast, applyRateCents]
  push_cast
  rfl

/-- VAT on the bag fee, as a ratio. -/
def vatRateNumerator : ℤ := 20
def vatRateDenominator : ℤ := 100

/-- Withholding on the merchant's earning, as a ratio. -/
def withholdingRateNumerator : ℤ := 1
def withholdingRateDenominator : ℤ := 100

/-- What a reservation brings into a batch. -/
structure SettlementInputLine where
  reservationId : ReservationId
  /-- What the consumer paid. -/
  grossCents : ℤ
  /-- Number of bags, each charged the fixed fee. -/
  qty : ℤ
  deriving DecidableEq

/-- The amounts charged on one line. -/
structure SettlementLineResult where
  reservationId : ReservationId
  grossCents : ℤ
  bagFeeCents : ℤ
  bagFeeVatCents : ℤ
  withholdingCents : ℤ
  deriving DecidableEq

/-- Fee, VAT and withholding of one line; the withholding base is floored at zero. -/
def chargedLine (line : SettlementInputLine) (bagFeeCents : ℤ) : SettlementLineResult :=
  let lineBagFeeCents := bagFeeCents*line.qty
  let lineBagFeeVatCents := applyRateCents lineBagFeeCents vatRateNumerator vatRateDenominator
  let withholdingBaseCents := max 0 (line.grossCents-lineBagFeeCents-lineBagFeeVatCents)
  { reservationId := line.reservationId
    grossCents := line.grossCents
    bagFeeCents := lineBagFeeCents
    bagFeeVatCents := lineBagFeeVatCents
    withholdingCents :=
      applyRateCents withholdingBaseCents withholdingRateNumerator withholdingRateDenominator }

/-- Validate a line and charge it. -/
def computeLine (line : SettlementInputLine) (bagFeeCents : ℤ) :
    Except MathError SettlementLineResult :=
  if line.grossCents < 0 then
    .error (.invalidGrossCents line.reservationId line.grossCents)
  else if line.qty ≤ 0 then
    .error (.invalidQty line.reservationId line.qty)
  else .ok (chargedLine line bagFeeCents)

/-- Inputs of a batch computation. -/
structure ComputeSettlementParams where
  lines : List SettlementInputLine
  /-- The per-bag fee, resolved by the caller. -/
  bagFeeCents : ℤ
  /-- Membership balance available to offset. -/
  membershipDueCents : ℤ
  /-- Clawback and carried demand to apply. -/
  priorClawbackCents : ℤ

/-- Totals of a batch and the charges of its lines. -/
structure ComputeSettlementResult where
  grossCents : ℤ
  bagFeeCents : ℤ
  bagFeeVatCents : ℤ
  withholdingCents : ℤ
  membershipOffsetCents : ℤ
  refundClawbackCents : ℤ
  netPayoutCents : ℤ
  carriedShortfallCents : ℤ
  /-- The shortfall is positive. -/
  held : Bool
  perLine : List SettlementLineResult

/-- Column totals, then membership offset, clawback, payout and shortfall. -/
def aggregateLines (perLine : List SettlementLineResult)
    (membershipDueCents priorClawbackCents : ℤ) : ComputeSettlementResult :=
  let grossCents := (perLine.map (·.grossCents)).sum
  let totalBagFeeCents := (perLine.map (·.bagFeeCents)).sum
  let totalBagFeeVatCents := (perLine.map (·.bagFeeVatCents)).sum
  let totalWithholdingCents := (perLine.map (·.withholdingCents)).sum
  let availableBeforeMembership :=
    grossCents-totalBagFeeCents-totalBagFeeVatCents-totalWithholdingCents
  let membershipOffsetCents := min membershipDueCents (max 0 availableBeforeMembership)
  let availableBeforeClawback := availableBeforeMembership-membershipOffsetCents
  let refundClawbackCents := min priorClawbackCents (max 0 availableBeforeClawback)
  let carriedShortfallCents :=
    max 0 (-availableBeforeClawback)+max 0 (priorClawbackCents-max 0 availableBeforeClawback)
  { grossCents
    bagFeeCents := totalBagFeeCents
    bagFeeVatCents := totalBagFeeVatCents
    withholdingCents := totalWithholdingCents
    membershipOffsetCents
    refundClawbackCents
    netPayoutCents := max 0 (availableBeforeClawback-refundClawbackCents)
    carriedShortfallCents
    held := decide (carriedShortfallCents > 0)
    perLine }

/-- Validate the inputs, charge every line, aggregate. -/
def computeSettlement (params : ComputeSettlementParams) :
    Except MathError ComputeSettlementResult := do
  if params.bagFeeCents < 0 then
    throw (.invalidBagFeeCents params.bagFeeCents)
  if params.membershipDueCents < 0 then
    throw (.invalidMembershipDueCents params.membershipDueCents)
  if params.priorClawbackCents < 0 then
    throw (.invalidPriorClawbackCents params.priorClawbackCents)
  let perLine ← params.lines.mapM fun line => computeLine line params.bagFeeCents
  return aggregateLines perLine params.membershipDueCents params.priorClawbackCents

/-- What the lines leave before membership and clawback. -/
def feeBalance (perLine : List SettlementLineResult) : ℤ :=
  (perLine.map (·.grossCents)).sum-(perLine.map (·.bagFeeCents)).sum
    -(perLine.map (·.bagFeeVatCents)).sum-(perLine.map (·.withholdingCents)).sum

theorem computeLine_eq_ok {line : SettlementInputLine} {b : ℤ} {r : SettlementLineResult} :
    computeLine line b = .ok r ↔
      0 ≤ line.grossCents ∧ 0 < line.qty ∧ r = chargedLine line b := by
  unfold computeLine
  split_ifs with hg hq
  · simp
    omega
  · simp
    omega
  · simp only [Except.ok.injEq]
    constructor
    · intro h
      exact ⟨by omega, by omega, h.symm⟩
    · rintro ⟨_, _, h⟩
      exact h.symm

theorem computeLines_eq_ok {lines : List SettlementInputLine} {b : ℤ}
    {rs : List SettlementLineResult}
    (h : lines.mapM (fun line => computeLine line b) = .ok rs) :
    rs = lines.map fun line => chargedLine line b := by
  induction lines generalizing rs with
  | nil =>
    cases h
    rfl
  | cons line lines ih =>
    rw [List.mapM_cons] at h
    cases hl : computeLine line b with
    | error e => simp [hl, bind, Except.bind] at h
    | ok r =>
      cases hr : lines.mapM (fun line => computeLine line b) with
      | error e => simp [hl, hr, bind, Except.bind] at h
      | ok rest =>
        simp only [hl, hr, bind, Except.bind, pure, Except.pure, Except.ok.injEq] at h
        rw [← h, (computeLine_eq_ok.mp hl).2.2, ih hr]
        rfl

/-- Only valid lines are charged. -/
theorem computeLines_valid {lines : List SettlementInputLine} {b : ℤ}
    {rs : List SettlementLineResult}
    (h : lines.mapM (fun line => computeLine line b) = .ok rs) :
    ∀ line ∈ lines, 0 ≤ line.grossCents ∧ 0 < line.qty := by
  induction lines generalizing rs with
  | nil => simp
  | cons line lines ih =>
    rw [List.mapM_cons] at h
    cases hl : computeLine line b with
    | error e => simp [hl, bind, Except.bind] at h
    | ok r =>
      cases hr : lines.mapM (fun line => computeLine line b) with
      | error e => simp [hl, hr, bind, Except.bind] at h
      | ok rest =>
        have hvalid := computeLine_eq_ok.mp hl
        exact List.forall_mem_cons.mpr ⟨⟨hvalid.1, hvalid.2.1⟩, ih hr⟩

/-- A successful computation had nonnegative inputs and returns the
aggregate of the charged lines. -/
theorem computeSettlement_eq_ok {params : ComputeSettlementParams} {r : ComputeSettlementResult}
    (h : computeSettlement params = .ok r) :
    0 ≤ params.bagFeeCents ∧ 0 ≤ params.membershipDueCents ∧ 0 ≤ params.priorClawbackCents ∧
      r = aggregateLines (params.lines.map fun line => chargedLine line params.bagFeeCents)
        params.membershipDueCents params.priorClawbackCents := by
  unfold computeSettlement at h
  by_cases hb : params.bagFeeCents < 0
  · simp [hb, bind, Except.bind, throw, throwThe, MonadExceptOf.throw] at h
  by_cases hm : params.membershipDueCents < 0
  · simp [hb, hm, bind, Except.bind, throw, throwThe, MonadExceptOf.throw] at h
  by_cases hp : params.priorClawbackCents < 0
  · simp [hb, hm, hp, bind, Except.bind, throw, throwThe, MonadExceptOf.throw] at h
  cases hl : params.lines.mapM fun line => computeLine line params.bagFeeCents with
  | error e => simp [hb, hm, hp, hl, bind, Except.bind] at h
  | ok rs =>
    simp only [hb, hm, hp, hl, if_false, bind, Except.bind, pure, Except.pure,
      Except.ok.injEq] at h
    rw [← h, computeLines_eq_ok hl]
    exact ⟨by omega, by omega, by omega, rfl⟩

/-- The lines of a successful computation were valid. -/
theorem computeSettlement_valid {params : ComputeSettlementParams} {r : ComputeSettlementResult}
    (h : computeSettlement params = .ok r) :
    ∀ line ∈ params.lines, 0 ≤ line.grossCents ∧ 0 < line.qty := by
  obtain ⟨hb, hm, hp, _⟩ := computeSettlement_eq_ok h
  unfold computeSettlement at h
  cases hl : params.lines.mapM fun line => computeLine line params.bagFeeCents with
  | error e =>
    simp [hb.not_gt, hm.not_gt, hp.not_gt, hl, bind, Except.bind] at h
  | ok rs => exact computeLines_valid hl

/-- No fee that is charged is negative. -/
theorem computeSettlement_fees {params : ComputeSettlementParams} {r : ComputeSettlementResult}
    (h : computeSettlement params = .ok r) : ∀ pl ∈ r.perLine, 0 ≤ pl.bagFeeCents := by
  obtain ⟨hb, _, _, hres⟩ := computeSettlement_eq_ok h
  intro pl hpl
  rw [hres] at hpl
  obtain ⟨line, hline, rfl⟩ := List.mem_map.mp hpl
  exact mul_nonneg hb (computeSettlement_valid h line hline).2.le

/-- Computing a batch never fails with an attribution error. -/
theorem computeSettlement_attributes {params : ComputeSettlementParams} {e : MathError}
    (h : computeSettlement params = .error e) (r a x : ℤ) : e ≠ .unattributedClawback r a x := by
  have hlines : ∀ lines : List SettlementInputLine,
      lines.mapM (fun line => computeLine line params.bagFeeCents) = .error e →
        e ≠ .unattributedClawback r a x := by
    intro lines
    induction lines with
    | nil => intro hl; cases hl
    | cons line lines ih =>
      intro hl
      rw [List.mapM_cons] at hl
      cases hc : computeLine line params.bagFeeCents with
      | error e' =>
        simp only [hc, bind, Except.bind, Except.error.injEq] at hl
        rw [← hl]
        unfold computeLine at hc
        split_ifs at hc <;> cases hc <;> simp
      | ok result =>
        cases hr : lines.mapM fun line => computeLine line params.bagFeeCents with
        | error e' =>
          simp only [hc, hr, bind, Except.bind, Except.error.injEq] at hl
          exact ih (hr.trans (congrArg Except.error hl))
        | ok rest => simp [hc, hr, bind, Except.bind, pure, Except.pure] at hl
  unfold computeSettlement at h
  by_cases hb : params.bagFeeCents < 0
  · simp only [hb, if_true, bind, Except.bind, throw, throwThe, MonadExceptOf.throw] at h
    cases h
    simp
  by_cases hm : params.membershipDueCents < 0
  · simp only [hb, hm, if_true, if_false, bind, Except.bind, throw, throwThe,
      MonadExceptOf.throw, pure, Except.pure] at h
    cases h
    simp
  by_cases hp : params.priorClawbackCents < 0
  · simp only [hb, hm, hp, if_true, if_false, bind, Except.bind, throw, throwThe,
      MonadExceptOf.throw, pure, Except.pure] at h
    cases h
    simp
  cases hl : params.lines.mapM fun line => computeLine line params.bagFeeCents with
  | error e' =>
    simp only [hb, hm, hp, hl, if_false, bind, Except.bind, Except.error.injEq] at h
    exact hlines _ (hl.trans (congrArg Except.error h))
  | ok rs => simp [hb, hm, hp, hl, bind, Except.bind, pure, Except.pure] at h

section Aggregate

variable (perLine : List SettlementLineResult) (due prior : ℤ)

theorem aggregateLines_clawback :
    (aggregateLines perLine due prior).refundClawbackCents =
      min prior (max 0 (feeBalance perLine-min due (max 0 (feeBalance perLine)))) := rfl

theorem aggregateLines_shortfall :
    (aggregateLines perLine due prior).carriedShortfallCents =
      max 0 (-(feeBalance perLine-min due (max 0 (feeBalance perLine))))
        +max 0 (prior-max 0 (feeBalance perLine-min due (max 0 (feeBalance perLine)))) := rfl

theorem aggregateLines_held :
    (aggregateLines perLine due prior).held =
      decide ((aggregateLines perLine due prior).carriedShortfallCents > 0) := rfl

variable {due prior}

theorem aggregateLines_clawback_le : (aggregateLines perLine due prior).refundClawbackCents ≤ prior :=
  min_le_left _ _

theorem aggregateLines_clawback_nonneg (hp : 0 ≤ prior) :
    0 ≤ (aggregateLines perLine due prior).refundClawbackCents := by
  rw [aggregateLines_clawback]
  omega

/-- A fee deficit leaves nothing to offset the membership balance with. -/
theorem max_neg_offset (hd : 0 ≤ due) (r : ℤ) : max 0 (-(r-min due (max 0 r))) = max 0 (-r) := by
  omega

end Aggregate

/-- A settled line whose refunded demand is to be recovered. -/
structure ClawbackCandidate where
  reservationId : ReservationId
  /-- The line's full demand. -/
  fullDemandCents : ℤ
  /-- The part recovered by batches other than the allocating one. -/
  otherBatchesRecoveredCents : ℤ
  deriving DecidableEq

/-- What one candidate receives in a pass. -/
structure ClawbackAllocationLine where
  reservationId : ReservationId
  absorbedCents : ℤ
  cumulativeCents : ℤ
  fullyResolved : Bool
  deriving DecidableEq

/-- The split of the applied clawback. -/
structure ClawbackAllocationResult where
  externalAbsorbedCents : ℤ
  /-- One entry per candidate, in input order. -/
  perCandidate : List ClawbackAllocationLine

/-- What is still outstanding against a line. -/
def remainingClawbackDemandCents (c : ClawbackCandidate) : ℤ :=
  max 0 (c.fullDemandCents-c.otherBatchesRecoveredCents)

def totalClawbackDemandCents (candidates : List ClawbackCandidate) : ℤ :=
  (candidates.map remainingClawbackDemandCents).sum

/-- Offer `remaining` to the candidates in order; also return what is left. -/
def allocateCandidates : ℤ → List ClawbackCandidate → List ClawbackAllocationLine × ℤ
  | remaining, [] => ([], remaining)
  | remaining, candidate :: rest =>
    let absorbedCents := min remaining (remainingClawbackDemandCents candidate)
    let cumulativeCents := candidate.otherBatchesRecoveredCents+absorbedCents
    let entry : ClawbackAllocationLine :=
      { reservationId := candidate.reservationId
        absorbedCents
        cumulativeCents
        fullyResolved := decide (candidate.fullDemandCents > 0 ∧
          cumulativeCents ≥ candidate.fullDemandCents) }
    let tail := allocateCandidates (remaining-absorbedCents) rest
    (entry :: tail.1, tail.2)

/-- External demand first, then the candidates; everything must be attributed. -/
def allocateClawback (appliedClawbackCents externalDemandCents : ℤ)
    (candidates : List ClawbackCandidate) : Except MathError ClawbackAllocationResult :=
  if appliedClawbackCents < 0 then
    .error (.invalidAppliedClawbackCents appliedClawbackCents)
  else if externalDemandCents < 0 then
    .error (.invalidExternalDemandCents externalDemandCents)
  else
    let externalAbsorbedCents := min externalDemandCents appliedClawbackCents
    let split := allocateCandidates (appliedClawbackCents-externalAbsorbedCents) candidates
    if split.2 ≠ 0 then
      .error (.unattributedClawback split.2 appliedClawbackCents externalDemandCents)
    else .ok { externalAbsorbedCents, perCandidate := split.1 }

theorem remainingClawbackDemandCents_nonneg (c : ClawbackCandidate) :
    0 ≤ remainingClawbackDemandCents c := le_max_left _ _

theorem totalClawbackDemandCents_nonneg (cs : List ClawbackCandidate) :
    0 ≤ totalClawbackDemandCents cs := by
  apply List.sum_nonneg
  intro x hx
  obtain ⟨c, _, rfl⟩ := List.mem_map.mp hx
  exact remainingClawbackDemandCents_nonneg c

theorem totalClawbackDemandCents_cons (c : ClawbackCandidate) (cs : List ClawbackCandidate) :
    totalClawbackDemandCents (c :: cs) =
      remainingClawbackDemandCents c+totalClawbackDemandCents cs := by
  simp [totalClawbackDemandCents]

/-- One entry per candidate, in order. -/
theorem allocateCandidates_ids (remaining : ℤ) (cs : List ClawbackCandidate) :
    (allocateCandidates remaining cs).1.map (·.reservationId) = cs.map (·.reservationId) := by
  induction cs generalizing remaining with
  | nil => rfl
  | cons c cs ih =>
    simp only [allocateCandidates, List.map_cons, ih]

/-- What the candidates absorb and what is left add up to the offer. -/
theorem allocateCandidates_sum (remaining : ℤ) (cs : List ClawbackCandidate) :
    ((allocateCandidates remaining cs).1.map (·.absorbedCents)).sum
      +(allocateCandidates remaining cs).2 = remaining := by
  induction cs generalizing remaining with
  | nil => simp [allocateCandidates]
  | cons c cs ih =>
    have hrest := ih (remaining-min remaining (remainingClawbackDemandCents c))
    simp only [allocateCandidates, List.map_cons, List.sum_cons]
    linarith

/-- Nothing is left when the offer does not exceed the total demand. -/
theorem allocateCandidates_exhausts {remaining : ℤ} {cs : List ClawbackCandidate}
    (h0 : 0 ≤ remaining) (h : remaining ≤ totalClawbackDemandCents cs) :
    (allocateCandidates remaining cs).2 = 0 := by
  induction cs generalizing remaining with
  | nil =>
    have hz : totalClawbackDemandCents [] = 0 := rfl
    simp only [allocateCandidates]
    omega
  | cons c cs ih =>
    have hc := remainingClawbackDemandCents_nonneg c
    have ht := totalClawbackDemandCents_nonneg cs
    rw [totalClawbackDemandCents_cons] at h
    exact ih (by omega) (by omega)

/-- Each entry absorbs a nonnegative amount within its candidate's remaining demand. -/
theorem allocateCandidates_bounds {remaining : ℤ} {cs : List ClawbackCandidate}
    (h0 : 0 ≤ remaining) :
    ∀ e ∈ (allocateCandidates remaining cs).1, 0 ≤ e.absorbedCents ∧
      ∃ c ∈ cs, c.reservationId = e.reservationId ∧
        e.absorbedCents ≤ remainingClawbackDemandCents c := by
  induction cs generalizing remaining with
  | nil => simp [allocateCandidates]
  | cons c cs ih =>
    have hc := remainingClawbackDemandCents_nonneg c
    intro e he
    simp only [allocateCandidates, List.mem_cons] at he
    rcases he with rfl | he
    · exact ⟨by simp only; omega, c, List.mem_cons_self, rfl, min_le_right _ _⟩
    · obtain ⟨hn, c', hm, hid, hle⟩ := ih (by omega) e he
      exact ⟨hn, c', List.mem_cons_of_mem c hm, hid, hle⟩

/-- The allocation of an amount within the external demand plus the
candidates' remaining demand succeeds. -/
theorem allocateClawback_succeeds {applied external : ℤ} {cs : List ClawbackCandidate}
    (ha : 0 ≤ applied) (he : 0 ≤ external)
    (h : applied ≤ external+totalClawbackDemandCents cs) :
    allocateClawback applied external cs =
      .ok { externalAbsorbedCents := min external applied
            perCandidate := (allocateCandidates (applied-min external applied) cs).1 } := by
  have ht := totalClawbackDemandCents_nonneg cs
  have hz : (allocateCandidates (applied-min external applied) cs).2 = 0 :=
    allocateCandidates_exhausts (by omega) (by omega)
  simp [allocateClawback, hz, not_lt.mpr ha, not_lt.mpr he]

end Kurtar.SettlementMath

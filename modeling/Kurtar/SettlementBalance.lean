import Kurtar.SettlementMath

/-!
# Settlement arithmetic balances to the kuruş

Valid inputs always compute. Every kuruş of the gross and of the shortfall is
charged, offset, clawed back or paid out; the caps hold in the documented
order of deductions; each line is rounded once. Raising one line's gross
raises what it leaves after its charges, so the payout cannot fall and the
shortfall cannot rise.
-/

namespace Kurtar.SettlementBalance

open SettlementMath

/-- The percentage formulas of the settlement path, as one rounding of an
exact quotient. -/
theorem applyRateCents_hundredth (b n : ℤ) :
    applyRateCents b n 100 = roundKurus ((b*n : ℤ)/100) := by
  have h := applyRateCents_eq_roundKurus b n (d := 100) (by omega)
  rw [h]
  norm_num

/-- The charges of one line, each fraction of a kuruş rounded half-up once. -/
structure RoundedOnce (bagFeeCents : ℤ) (line : SettlementInputLine)
    (charged : SettlementLineResult) : Prop where
  reservationId : charged.reservationId = line.reservationId
  grossCents : charged.grossCents = line.grossCents
  bagFeeCents : charged.bagFeeCents = bagFeeCents*line.qty
  bagFeeVatCents : charged.bagFeeVatCents = roundKurus ((charged.bagFeeCents*20 : ℤ)/100)
  withholdingCents : charged.withholdingCents =
    roundKurus ((max 0 (line.grossCents-charged.bagFeeCents-charged.bagFeeVatCents)*1 : ℤ)/100)

theorem chargedLine_rounded (line : SettlementInputLine) (b : ℤ) :
    RoundedOnce b line (chargedLine line b) where
  reservationId := rfl
  grossCents := rfl
  bagFeeCents := rfl
  bagFeeVatCents := applyRateCents_hundredth (b*line.qty) 20
  withholdingCents := applyRateCents_hundredth _ 1

/-- No charge of a valid line is negative. -/
theorem chargedLine_nonneg {line : SettlementInputLine} {b : ℤ} (hb : 0 ≤ b) (hq : 0 < line.qty) :
    0 ≤ (chargedLine line b).bagFeeCents ∧ 0 ≤ (chargedLine line b).bagFeeVatCents ∧
      0 ≤ (chargedLine line b).withholdingCents := by
  have hfee : 0 ≤ b*line.qty := mul_nonneg hb hq.le
  refine ⟨hfee, ?_, ?_⟩
  · change 0 ≤ (2*(b*line.qty*20)+100)/(2*100)
    omega
  · change 0 ≤ (2*(max 0 _*1)+100)/(2*100)
    omega

/-- What a line leaves once its own charges are taken. -/
def lineBalance (charged : SettlementLineResult) : ℤ :=
  charged.grossCents-charged.bagFeeCents-charged.bagFeeVatCents-charged.withholdingCents

/-- A larger gross leaves no less: the withholding grows by at most a
hundredth of what the gross grows by, and rounding adds less than a kuruş. -/
theorem lineBalance_mono {line : SettlementInputLine} {b g : ℤ} (h : line.grossCents ≤ g) :
    lineBalance (chargedLine line b) ≤
      lineBalance (chargedLine { line with grossCents := g } b) := by
  have hfee : (chargedLine { line with grossCents := g } b).bagFeeCents =
    (chargedLine line b).bagFeeCents := rfl
  have hvat : (chargedLine { line with grossCents := g } b).bagFeeVatCents =
    (chargedLine line b).bagFeeVatCents := rfl
  have hw : (chargedLine line b).withholdingCents = (2*(max 0 (line.grossCents-
    (chargedLine line b).bagFeeCents-(chargedLine line b).bagFeeVatCents)*1)+100)/(2*100) := rfl
  have hw' : (chargedLine { line with grossCents := g } b).withholdingCents = (2*(max 0 (g-
    (chargedLine line b).bagFeeCents-(chargedLine line b).bagFeeVatCents)*1)+100)/(2*100) := rfl
  have hg : (chargedLine line b).grossCents = line.grossCents := rfl
  have hg' : (chargedLine { line with grossCents := g } b).grossCents = g := rfl
  unfold lineBalance
  rw [hfee, hvat, hw, hw', hg, hg']
  omega

/-- The balance of a batch before membership and clawback is the sum of what
its lines leave. -/
theorem feeBalance_eq_sum (perLine : List SettlementLineResult) :
    feeBalance perLine = (perLine.map lineBalance).sum := by
  induction perLine with
  | nil => rfl
  | cons charged rest ih =>
    unfold feeBalance at ih ⊢
    simp only [List.map_cons, List.sum_cons, ← ih, lineBalance]
    ring

/-- Replacing one charged line by one that leaves no less. -/
theorem feeBalance_mono {a c : List SettlementLineResult} {x y : SettlementLineResult}
    (h : lineBalance x ≤ lineBalance y) :
    feeBalance (a ++ x :: c) ≤ feeBalance (a ++ y :: c) := by
  simp only [feeBalance_eq_sum, List.map_append, List.map_cons, List.sum_append, List.sum_cons]
  omega

/-- Valid lines are all charged. -/
theorem computeLines_ok {lines : List SettlementInputLine} (b : ℤ)
    (h : ∀ line ∈ lines, 0 ≤ line.grossCents ∧ 0 < line.qty) :
    lines.mapM (fun line => computeLine line b) = .ok (lines.map fun line => chargedLine line b) := by
  induction lines with
  | nil => rfl
  | cons line lines ih =>
    have hline := h line List.mem_cons_self
    have hrest := ih fun l hl => h l (List.mem_cons_of_mem _ hl)
    rw [List.mapM_cons, computeLine_eq_ok.mpr ⟨hline.1, hline.2, rfl⟩, hrest]
    rfl

/-- Inputs that the computation accepts. -/
structure ValidParams (params : ComputeSettlementParams) : Prop where
  lines : ∀ line ∈ params.lines, 0 ≤ line.grossCents ∧ 0 < line.qty
  bagFeeCents : 0 ≤ params.bagFeeCents
  membershipDueCents : 0 ≤ params.membershipDueCents
  priorClawbackCents : 0 ≤ params.priorClawbackCents

/-- Valid inputs always compute. -/
theorem computeSettlement_ok {params : ComputeSettlementParams} (h : ValidParams params) :
    computeSettlement params = .ok
      (aggregateLines (params.lines.map fun line => chargedLine line params.bagFeeCents)
        params.membershipDueCents params.priorClawbackCents) := by
  have hl := computeLines_ok params.bagFeeCents h.lines
  simp only [computeSettlement, h.bagFeeCents.not_gt, h.membershipDueCents.not_gt,
    h.priorClawbackCents.not_gt, hl, if_false, bind, Except.bind, pure, Except.pure]

/-- The books of one settlement. -/
structure Balanced (params : ComputeSettlementParams) (r : ComputeSettlementResult) : Prop where
  /-- Every kuruş is accounted for, with the full clawback demand. -/
  identity : r.grossCents+r.carriedShortfallCents =
    r.bagFeeCents+r.bagFeeVatCents+r.withholdingCents+r.membershipOffsetCents
      +params.priorClawbackCents+r.netPayoutCents
  totals_nonneg : 0 ≤ r.grossCents ∧ 0 ≤ r.bagFeeCents ∧ 0 ≤ r.bagFeeVatCents ∧
    0 ≤ r.withholdingCents ∧ 0 ≤ r.membershipOffsetCents ∧ 0 ≤ r.refundClawbackCents ∧
    0 ≤ r.netPayoutCents ∧ 0 ≤ r.carriedShortfallCents
  lines_nonneg : ∀ pl ∈ r.perLine, 0 ≤ pl.grossCents ∧ 0 ≤ pl.bagFeeCents ∧
    0 ≤ pl.bagFeeVatCents ∧ 0 ≤ pl.withholdingCents
  offset_le : r.membershipOffsetCents ≤ params.membershipDueCents
  clawback_le : r.refundClawbackCents ≤ params.priorClawbackCents
  not_both : ¬(0 < r.netPayoutCents ∧ 0 < r.carriedShortfallCents)
  held_iff : r.held = true ↔ 0 < r.carriedShortfallCents
  clawback_last : 0 < r.refundClawbackCents → r.membershipOffsetCents = params.membershipDueCents
  net_last : 0 < r.netPayoutCents → r.refundClawbackCents = params.priorClawbackCents
  gross_sum : r.grossCents = (r.perLine.map (·.grossCents)).sum
  bagFee_sum : r.bagFeeCents = (r.perLine.map (·.bagFeeCents)).sum
  bagFeeVat_sum : r.bagFeeVatCents = (r.perLine.map (·.bagFeeVatCents)).sum
  withholding_sum : r.withholdingCents = (r.perLine.map (·.withholdingCents)).sum
  /-- One result for each line, in order, rounded once. -/
  rounded : List.Forall₂ (RoundedOnce params.bagFeeCents) params.lines r.perLine

section Aggregate

variable (perLine : List SettlementLineResult) {due prior : ℤ}

theorem aggregateLines_offset : (aggregateLines perLine due prior).membershipOffsetCents =
    min due (max 0 (feeBalance perLine)) := rfl

theorem aggregateLines_net : (aggregateLines perLine due prior).netPayoutCents =
    max 0 (feeBalance perLine-(aggregateLines perLine due prior).membershipOffsetCents
      -(aggregateLines perLine due prior).refundClawbackCents) := rfl

/-- A balance that leaves more pays out no less and carries no more. -/
theorem aggregateLines_mono {a c : List SettlementLineResult} (hd : 0 ≤ due) (hp : 0 ≤ prior)
    (h : feeBalance a ≤ feeBalance c) :
    (aggregateLines a due prior).netPayoutCents ≤ (aggregateLines c due prior).netPayoutCents ∧
      (aggregateLines c due prior).carriedShortfallCents ≤
        (aggregateLines a due prior).carriedShortfallCents := by
  rw [aggregateLines_net, aggregateLines_net, aggregateLines_shortfall, aggregateLines_shortfall,
    aggregateLines_clawback, aggregateLines_clawback, aggregateLines_offset, aggregateLines_offset]
  constructor
  · omega
  · omega

/-- Nonnegative entries have a nonnegative total. -/
theorem column_nonneg {f : SettlementLineResult → ℤ} (h : ∀ pl ∈ perLine, 0 ≤ f pl) :
    0 ≤ (perLine.map f).sum := by
  apply List.sum_nonneg
  intro x hx
  obtain ⟨pl, hpl, rfl⟩ := List.mem_map.mp hx
  exact h pl hpl

end Aggregate

/-- The charged lines of valid inputs are nonnegative in every column. -/
theorem chargedLines_nonneg {params : ComputeSettlementParams} (h : ValidParams params) :
    ∀ pl ∈ params.lines.map fun line => chargedLine line params.bagFeeCents,
      0 ≤ pl.grossCents ∧ 0 ≤ pl.bagFeeCents ∧ 0 ≤ pl.bagFeeVatCents ∧
        0 ≤ pl.withholdingCents := by
  intro pl hpl
  obtain ⟨line, hline, rfl⟩ := List.mem_map.mp hpl
  have hvalid := h.lines line hline
  exact ⟨hvalid.1, chargedLine_nonneg h.bagFeeCents hvalid.2⟩

/-- What happens to a balance: offset, clawback, payout and shortfall share it
out with nothing lost, each capped by what the one before it leaves. -/
theorem deductions {balance due prior offset clawback net short : ℤ}
    (hd : 0 ≤ due) (hp : 0 ≤ prior) (ho : offset = min due (max 0 balance))
    (hc : clawback = min prior (max 0 (balance-offset)))
    (hn : net = max 0 (balance-offset-clawback))
    (hs : short = max 0 (-(balance-offset))+max 0 (prior-max 0 (balance-offset))) :
    balance+short = offset+prior+net ∧
      (0 ≤ offset ∧ 0 ≤ clawback ∧ 0 ≤ net ∧ 0 ≤ short) ∧
      (offset ≤ due ∧ clawback ≤ prior) ∧ ¬(0 < net ∧ 0 < short) ∧
      (0 < clawback → offset = due) ∧ (0 < net → clawback = prior) := by
  rcases le_total balance 0 with hb | hb
  · have hoffset : offset = 0 := by omega
    have hclawback : clawback = 0 := by omega
    have hnet : net = 0 := by omega
    have hshort : short = prior-balance := by omega
    clear ho hc hn hs
    omega
  · have hleft : offset ≤ balance := by omega
    have hclawback : clawback = min prior (balance-offset) := by omega
    have hnet : net = balance-offset-clawback := by omega
    have hshort : short = prior-clawback := by omega
    have hoffset : offset = min due balance := by omega
    clear ho hc hn hs
    omega

/-- The aggregate of the charged lines balances. -/
theorem aggregateLines_balanced {params : ComputeSettlementParams} (h : ValidParams params) :
    Balanced params
      (aggregateLines (params.lines.map fun line => chargedLine line params.bagFeeCents)
        params.membershipDueCents params.priorClawbackCents) := by
  have hlines := chargedLines_nonneg h
  have hrounded : List.Forall₂ (RoundedOnce params.bagFeeCents) params.lines
      (params.lines.map fun line => chargedLine line params.bagFeeCents) := by
    rw [List.forall₂_map_right_iff, List.forall₂_same]
    exact fun line _ => chargedLine_rounded line params.bagFeeCents
  generalize (params.lines.map fun line => chargedLine line params.bagFeeCents) = charged
    at hlines hrounded ⊢
  have hsum := deductions h.membershipDueCents h.priorClawbackCents
    (aggregateLines_offset charged) (aggregateLines_clawback charged _ _)
    (aggregateLines_net charged) (aggregateLines_shortfall charged _ _)
  generalize hresult : aggregateLines charged params.membershipDueCents
    params.priorClawbackCents = r at hsum ⊢
  have hheld : r.held = decide (r.carriedShortfallCents > 0) := by rw [← hresult]; rfl
  have hlist : r.perLine = charged := by rw [← hresult]; rfl
  have hg : r.grossCents = (charged.map (·.grossCents)).sum := by rw [← hresult]; rfl
  have hf : r.bagFeeCents = (charged.map (·.bagFeeCents)).sum := by rw [← hresult]; rfl
  have hv : r.bagFeeVatCents = (charged.map (·.bagFeeVatCents)).sum := by rw [← hresult]; rfl
  have hw : r.withholdingCents = (charged.map (·.withholdingCents)).sum := by rw [← hresult]; rfl
  have hbalance : feeBalance charged =
      r.grossCents-r.bagFeeCents-r.bagFeeVatCents-r.withholdingCents := by
    rw [hg, hf, hv, hw]
    rfl
  have hg0 : 0 ≤ r.grossCents := hg ▸ column_nonneg charged fun pl hpl => (hlines pl hpl).1
  have hf0 : 0 ≤ r.bagFeeCents := hf ▸ column_nonneg charged fun pl hpl => (hlines pl hpl).2.1
  have hv0 : 0 ≤ r.bagFeeVatCents :=
    hv ▸ column_nonneg charged fun pl hpl => (hlines pl hpl).2.2.1
  have hw0 : 0 ≤ r.withholdingCents :=
    hw ▸ column_nonneg charged fun pl hpl => (hlines pl hpl).2.2.2
  obtain ⟨hid, ⟨ho0, hc0, hn0, hs0⟩, ⟨hole, hcle⟩, hboth, hclaw, hnet⟩ := hsum
  exact
    { identity := by omega
      totals_nonneg := ⟨hg0, hf0, hv0, hw0, ho0, hc0, hn0, hs0⟩
      lines_nonneg := hlist ▸ hlines
      offset_le := hole
      clawback_le := hcle
      not_both := hboth
      held_iff := by rw [hheld, decide_eq_true_iff]
      clawback_last := hclaw
      net_last := hnet
      gross_sum := hlist ▸ hg
      bagFee_sum := hlist ▸ hf
      bagFeeVat_sum := hlist ▸ hv
      withholding_sum := hlist ▸ hw
      rounded := hlist ▸ hrounded }

/-- Raising the gross of one line keeps the inputs valid. -/
theorem ValidParams.raise {params : ComputeSettlementParams} (h : ValidParams params)
    {before after : List SettlementInputLine} {line : SettlementInputLine} {g : ℤ}
    (hsplit : params.lines = before ++ line :: after) (hg : line.grossCents ≤ g) :
    ValidParams { params with lines := before ++ { line with grossCents := g } :: after } := by
  have hline := h.lines line (by rw [hsplit]; simp)
  refine ⟨?_, h.bagFeeCents, h.membershipDueCents, h.priorClawbackCents⟩
  intro l hl
  rw [List.mem_append, List.mem_cons] at hl
  rcases hl with hl | rfl | hl
  · exact h.lines l (by rw [hsplit]; simp [hl])
  · exact ⟨hline.1.trans hg, hline.2⟩
  · exact h.lines l (by rw [hsplit]; simp [hl])

/-- Settlements of valid inputs balance, and a larger gross on one line never
lowers the payout nor raises the shortfall. -/
theorem computeSettlement_balances (params : ComputeSettlementParams) (h : ValidParams params) :
    ∃ r, computeSettlement params = .ok r ∧ Balanced params r ∧
      ∀ before line after (g : ℤ), params.lines = before ++ line :: after → line.grossCents ≤ g →
        ∃ r', computeSettlement
            { params with lines := before ++ { line with grossCents := g } :: after } = .ok r' ∧
          r.netPayoutCents ≤ r'.netPayoutCents ∧
          r'.carriedShortfallCents ≤ r.carriedShortfallCents := by
  refine ⟨_, computeSettlement_ok h, aggregateLines_balanced h, ?_⟩
  intro before line after g hsplit hg
  refine ⟨_, computeSettlement_ok (h.raise hsplit hg), ?_⟩
  apply aggregateLines_mono h.membershipDueCents h.priorClawbackCents
  have hline : lineBalance (chargedLine line params.bagFeeCents) ≤
      lineBalance (chargedLine { line with grossCents := g } params.bagFeeCents) :=
    lineBalance_mono hg
  simp only [hsplit, List.map_append, List.map_cons]
  exact feeBalance_mono hline

/-- A fee above the gross of one line together with a partly covered clawback. -/
theorem computeSettlement_balances_sample :
    ValidParams ⟨[⟨1, 15000, 1⟩, ⟨2, 333, 1⟩], 2500, 4000, 9000⟩ ∧
      ∃ r, computeSettlement ⟨[⟨1, 15000, 1⟩, ⟨2, 333, 1⟩], 2500, 4000, 9000⟩ = .ok r ∧
        Balanced ⟨[⟨1, 15000, 1⟩, ⟨2, 333, 1⟩], 2500, 4000, 9000⟩ r := by
  have hvalid : ValidParams ⟨[⟨1, 15000, 1⟩, ⟨2, 333, 1⟩], 2500, 4000, 9000⟩ := by
    refine ⟨?_, by decide, by decide, by decide⟩
    decide
  obtain ⟨r, hr, hb, _⟩ := computeSettlement_balances _ hvalid
  exact ⟨hvalid, r, hr, hb⟩

end Kurtar.SettlementBalance

import Kurtar.SettlementEffects

/-!
# What a pass does to the membership balance

A pass gives the batch's own earlier offset back to the balance and takes a
new one. The new offset never exceeds what was due and its VAT share never
exceeds the offset or the VAT due, so neither clamp of the written balance is
ever reached.
-/

namespace Kurtar.MembershipPass

open KeyedTable SettlementMath SettlementLedger SettlementRecompute SettlementPass
open IstanbulCalendar

/-- The VAT share of an offset lies within the offset and the VAT due, and the
net it leaves open is at most the net due. -/
theorem splitMembershipOffsetVat_bounds {due vat applied : ℤ} (hvat : 0 ≤ vat) (hle : vat ≤ due)
    (happlied : 0 ≤ applied) (hdue : applied ≤ due) :
    0 ≤ splitMembershipOffsetVat due vat applied ∧
      splitMembershipOffsetVat due vat applied ≤ vat ∧
      splitMembershipOffsetVat due vat applied ≤ applied ∧
      applied-splitMembershipOffsetVat due vat applied ≤ due-vat := by
  unfold splitMembershipOffsetVat
  split_ifs with hzero hfull
  · omega
  · omega
  · have hpos : 0 < due := by omega
    have hproduct : 0 ≤ applied*vat := mul_nonneg happlied hvat
    have hquot : 0 ≤ applyRateCents applied vat due := by
      unfold applyRateCents
      exact Int.ediv_nonneg (by omega) (by omega)
    -- rounding never drops a whole kuruş of the net that stays due
    have hnet : applied-(due-vat) ≤ applyRateCents applied vat due := by
      unfold applyRateCents
      rw [Int.le_ediv_iff_mul_le (by omega)]
      have hgap : 0 ≤ (due-applied)*(due-vat) := mul_nonneg (by omega) (by omega)
      nlinarith
    dsimp only
    omega

/-- With a part left open, the share is `v` exactly if the VAT of the offset and
of what is left are in proportion to the amounts, up to half a kuruş. -/
theorem splitMembershipOffsetVat_eq_iff {left leftVat offset v : ℤ} (hleft : 0 < left)
    (hoffset : 0 < offset) (hleftVat : 0 ≤ leftVat ∧ leftVat ≤ left) (hv : 0 ≤ v ∧ v ≤ offset) :
    splitMembershipOffsetVat (left+offset) (leftVat+v) offset = v ↔
      -(left+offset) ≤ 2*(offset*leftVat-v*left) ∧
        2*(offset*leftVat-v*left) < left+offset := by
  have hbounds : 0 ≤ applyRateCents offset (leftVat+v) (left+offset) ∧
      applyRateCents offset (leftVat+v) (left+offset) ≤ leftVat+v ∧
      applyRateCents offset (leftVat+v) (left+offset) ≤ offset := by
    unfold applyRateCents
    refine ⟨Int.ediv_nonneg ?_ (by omega), ?_, ?_⟩
    · have hproduct : 0 ≤ offset*(leftVat+v) := mul_nonneg (by omega) (by omega)
      omega
    · apply Int.le_of_lt_add_one
      rw [Int.ediv_lt_iff_lt_mul (by omega)]
      have hproduct : 0 ≤ left*(leftVat+v) := mul_nonneg (by omega) (by omega)
      nlinarith
    · apply Int.le_of_lt_add_one
      rw [Int.ediv_lt_iff_lt_mul (by omega)]
      have hproduct : 0 ≤ offset*(left+offset-(leftVat+v)) := mul_nonneg (by omega) (by omega)
      nlinarith
  have hshare : splitMembershipOffsetVat (left+offset) (leftVat+v) offset =
      applyRateCents offset (leftVat+v) (left+offset) := by
    unfold splitMembershipOffsetVat
    rw [if_neg (by omega), if_neg (by omega)]
    dsimp only
    omega
  have hrounded : applyRateCents offset (leftVat+v) (left+offset) = v ↔
      v*(2*(left+offset)) ≤ 2*(offset*(leftVat+v))+(left+offset) ∧
        2*(offset*(leftVat+v))+(left+offset) < (v+1)*(2*(left+offset)) := by
    unfold applyRateCents
    rw [← Int.le_ediv_iff_mul_le (by omega), ← Int.ediv_lt_iff_lt_mul (by omega)]
    omega
  rw [hshare, hrounded]
  constructor
  · rintro ⟨hlower, hupper⟩
    constructor <;> nlinarith
  · rintro ⟨hlower, hupper⟩
    constructor <;> nlinarith

/-- The VAT share that a pass stores. -/
def offsetVatCents (pass : RecomputePass) : ℤ :=
  match pass.due with
  | some due =>
    splitMembershipOffsetVat due.dueCents due.dueVatCents pass.result.membershipOffsetCents
  | none => 0

/-- The subscription row that a pass leaves. -/
def balanceAfter (due : MembershipDueForRecompute) (appliedCents appliedVatCents : ℤ)
    (clock : Instant) (sub : MembershipSubscription) : MembershipSubscription :=
  let newOutstanding := max 0 (due.storedOutstandingCents+due.batchPriorOffsetCents-appliedCents)
  { sub with
    outstandingCents := newOutstanding
    outstandingVatCents :=
      max 0 (due.storedOutstandingVatCents+due.batchPriorOffsetVatCents-appliedVatCents)
    periodPaidAt :=
      if (!due.exempt && !due.foreignPeriod) && newOutstanding = 0 && !due.alreadyMarkedPaid then
        some clock
      else sub.periodPaidAt
    status :=
      if (!due.exempt && !due.foreignPeriod) && due.needsActivation then .active else sub.status }

/-- The subscriptions after a pass. -/
def subscriptionsAfter (subscriptions : Table MembershipSubscription.merchantId)
    (pass : RecomputePass) (clock : Instant) : Table MembershipSubscription.merchantId :=
  match pass.due with
  | some due =>
    subscriptions.updateMany (fun sub => sub.merchantId = due.merchantId)
      (balanceAfter due pass.result.membershipOffsetCents (offsetVatCents pass) clock)
      fun _ => rfl
  | none => subscriptions

theorem writePass_subscriptions (l : Ledger) (batch : Batch) (pass : RecomputePass)
    (now clock : Instant) : (writePass l batch pass now clock).1.subscriptions =
      subscriptionsAfter l.subscriptions pass clock := by
  unfold writePass writeOffset rewriteClaim subscriptionsAfter offsetVatCents
  cases pass.due <;> cases pass.carriedDemandSourceBatchId <;> dsimp only <;>
    (try split_ifs) <;> rfl

theorem writePass_row (l : Ledger) (batch : Batch) (pass : RecomputePass) (now clock : Instant) :
    (writePass l batch pass now clock).2 = passRow batch pass (offsetVatCents pass) now := by
  unfold writePass writeOffset offsetVatCents
  cases pass.due <;> rfl

/-- A write under a merchant's key replaces that merchant's row. -/
theorem replaces_subscription {t : Table MembershipSubscription.merchantId}
    {merchantId : MerchantId} {sub : MembershipSubscription}
    {f : MembershipSubscription → MembershipSubscription}
    (hf : ∀ s, (f s).merchantId = s.merchantId) (hsub : t.find? merchantId = some sub) :
    Table.Replaces t (t.updateMany (fun s => s.merchantId = merchantId) f hf) sub (f sub) := by
  obtain ⟨hmem, hkey⟩ := Table.find?_eq_some.mp hsub
  exact t.replaces_updateMany _ f hf hmem hkey fun s hs => hs.trans hkey.symm

section Pass

variable {l l' : Ledger} {batchId : BatchId} {now clock : Instant}
  {pendingLines : List PendingSettlementLine} {batch row : Batch} {pass : RecomputePass}
  (h : WrittenPass l batchId now pendingLines clock batch pass l' row)

include h

theorem subscriptions_of_pass : l'.subscriptions = subscriptionsAfter l.subscriptions pass clock := by
  have hs := writePass_subscriptions (insertPendingLines l batchId pendingLines) batch pass now clock
  rw [h.written] at hs
  exact hs

theorem row_of_pass : row = passRow batch pass (offsetVatCents pass) now := by
  have hr := writePass_row (insertPendingLines l batchId pendingLines) batch pass now clock
  rw [h.written] at hr
  exact hr

end Pass

/-- What a pass found due: the balance and the batch's earlier offset, or only
the latter when nothing new may be collected. -/
structure Due (sub : MembershipSubscription) (batch : Batch)
    (due : MembershipDueForRecompute) : Prop where
  merchantId : due.merchantId = sub.merchantId
  stored : due.storedOutstandingCents = sub.outstandingCents
  storedVat : due.storedOutstandingVatCents = sub.outstandingVatCents
  prior : due.batchPriorOffsetCents = batch.membershipOffsetCents
  priorVat : due.batchPriorOffsetVatCents = batch.membershipOffsetVatCents
  marked : due.alreadyMarkedPaid = sub.periodPaidAt.isSome
  inactive : due.needsActivation = decide (sub.status = .trial ∨ sub.status = .pastDue)
  foreign : due.foreignPeriod = decide
    (batch.periodStart < sub.currentPeriodStart ∨ batch.periodStart ≥ sub.currentPeriodEnd)
  base : (due.exempt || due.foreignPeriod) = true ∧
      due.dueCents = batch.membershipOffsetCents ∧
      due.dueVatCents = batch.membershipOffsetVatCents ∨
    (due.exempt || due.foreignPeriod) = false ∧
      due.dueCents = sub.outstandingCents+batch.membershipOffsetCents ∧
      due.dueVatCents = sub.outstandingVatCents+batch.membershipOffsetVatCents

theorem lockAndResolveDue_eq_some {l : Ledger} {batch : Batch} {exemptUntil : Option Instant}
    {due : MembershipDueForRecompute}
    (h : lockAndResolveDue l batch.merchantId batch.membershipOffsetCents
      batch.membershipOffsetVatCents batch.periodStart exemptUntil = some due) :
    ∃ sub, l.subscriptions.find? batch.merchantId = some sub ∧ Due sub batch due ∧
      due.exempt = exemptUntil.any fun t => decide (batch.periodStart < t) := by
  obtain ⟨sub, hsub, rfl⟩ := Option.map_eq_some_iff.mp h
  refine ⟨sub, hsub, ⟨rfl, rfl, rfl, rfl, rfl, rfl, rfl, rfl, ?_⟩, rfl⟩
  dsimp only
  split_ifs with hrestore
  · exact Or.inl ⟨hrestore, rfl, rfl⟩
  · exact Or.inr ⟨by simpa using hrestore, rfl, rfl⟩

theorem lockAndResolveDue_eq_none {l : Ledger} {merchantId : MerchantId} {prior priorVat : ℤ}
    {date : Instant} {exemptUntil : Option Instant}
    (h : lockAndResolveDue l merchantId prior priorVat date exemptUntil = none) :
    l.subscriptions.find? merchantId = none :=
  Option.map_eq_none_iff.mp h

section Pass

variable {l l' : Ledger} {batchId : BatchId} {now clock : Instant}
  {pendingLines : List PendingSettlementLine} {batch row : Batch} {pass : RecomputePass}
  (h : WrittenPass l batchId now pendingLines clock batch pass l' row)

include h

/-- The offset is within what is due. -/
theorem offset_bounds : 0 ≤ row.membershipOffsetCents ∧
    row.membershipOffsetCents ≤ membershipDueCents pass.due := by
  have hd := h.planned.due_nonneg
  have hoffset : row.membershipOffsetCents =
      min (membershipDueCents pass.due) (max 0 (passBalance pass)) := by
    rw [row_of_pass h]
    simp only [passRow]
    rw [h.planned.result]
    rfl
  omega

theorem row_offset : pass.result.membershipOffsetCents = row.membershipOffsetCents ∧
    offsetVatCents pass = row.membershipOffsetVatCents := by
  rw [row_of_pass h]
  exact ⟨rfl, rfl⟩

/-- Without a subscription nothing is offset. -/
theorem pass_of_none (hdue : pass.due = none) :
    l.subscriptions.find? batch.merchantId = none ∧ l'.subscriptions = l.subscriptions ∧
      row.membershipOffsetCents = 0 ∧ row.membershipOffsetVatCents = 0 := by
  obtain ⟨merchant, _, _, hlock⟩ := h.planned.bagFee
  have hnone := lockAndResolveDue_eq_none (hlock.symm.trans hdue)
  have hbounds := offset_bounds h
  rw [hdue] at hbounds
  change 0 ≤ row.membershipOffsetCents ∧ row.membershipOffsetCents ≤ 0 at hbounds
  refine ⟨hnone, ?_, by omega, ?_⟩
  · rw [subscriptions_of_pass h, subscriptionsAfter, hdue]
  · rw [← (row_offset h).2, offsetVatCents, hdue]

/-- With one, its row is replaced, and the VAT share follows from what was due. -/
theorem pass_of_some {due : MembershipDueForRecompute} (hdue : pass.due = some due) :
    ∃ sub, sub.merchantId = batch.merchantId ∧ Due sub batch due ∧
      Table.Replaces l.subscriptions l'.subscriptions sub (balanceAfter due
        row.membershipOffsetCents row.membershipOffsetVatCents clock sub) ∧
      row.membershipOffsetVatCents =
        splitMembershipOffsetVat due.dueCents due.dueVatCents row.membershipOffsetCents := by
  obtain ⟨merchant, _, _, hlock⟩ := h.planned.bagFee
  obtain ⟨sub, hsub, hd, _⟩ := lockAndResolveDue_eq_some (hlock.symm.trans hdue)
  have hkey := (Table.find?_eq_some.mp hsub).2
  obtain ⟨hcents, hvat⟩ := row_offset h
  have htable := subscriptions_of_pass h
  rw [subscriptionsAfter, hdue, hcents, hvat] at htable
  dsimp only at htable
  refine ⟨sub, hkey, hd, ?_, ?_⟩
  · rw [htable, hd.merchantId, hkey]
    exact replaces_subscription (by exact fun _ => rfl) hsub
  · rw [← hvat, ← hcents, offsetVatCents, hdue]

end Pass

end Kurtar.MembershipPass

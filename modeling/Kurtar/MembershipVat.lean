import Kurtar.MembershipDebt

/-!
# The VAT portion of a membership balance

Passes of any batches, each with any offset up to what it was found due, mixed
with renewals and the other business events. The VAT portion never leaves its
amount, neither in the balance nor in an offset: the share of an offset is at
most the VAT due and leaves at most the net due open. So no floor of a written
balance is ever reached.
-/

namespace Kurtar.MembershipVat

open KeyedTable GuardedRuns IstanbulCalendar SettlementLedger SettlementTransactions
open SettlementRecompute SettlementPass SettlementEffects MembershipPass MembershipDebt

/-- What moves a membership balance. -/
inductive BalanceAction where
  /-- A batch resolves what is due and persists an offset. -/
  | pass (batchId : BatchId) (membershipExemptUntil : Option Instant) (appliedOffsetCents : ℤ)
      (clock : Instant)
  | business (event : BusinessEvent) (clock : Instant)

/-- Store a batch's offset and the VAT share of it. -/
def writeOffsetColumns (l : Ledger) (batchId : BatchId) (offsetCents offsetVatCents : ℤ) : Ledger :=
  { l with
    batches := l.batches.updateMany (fun b => b.id = batchId)
      (fun b =>
        { b with
          membershipOffsetCents := offsetCents
          membershipOffsetVatCents := offsetVatCents })
      fun _ => rfl }

/-- Resolve, apply and persist; the applied offset lies between nothing and the due. -/
def offsetPass (l : Ledger) (batchId : BatchId) (membershipExemptUntil : Option Instant)
    (appliedOffsetCents : ℤ) (clock : Instant) : Option Ledger :=
  match l.batches.find? batchId with
  | none => none
  | some batch =>
    match lockAndResolveDue l batch.merchantId batch.membershipOffsetCents
        batch.membershipOffsetVatCents batch.periodStart membershipExemptUntil with
    | none => none
    | some due =>
      if 0 ≤ appliedOffsetCents ∧ appliedOffsetCents ≤ due.dueCents then
        let persisted :=
          persistOffset l due due.dueCents due.dueVatCents appliedOffsetCents clock
        some (writeOffsetColumns persisted.1 batchId appliedOffsetCents persisted.2)
      else none

def balanceStep (l : Ledger) : BalanceAction → Option Ledger
  | .pass batchId membershipExemptUntil appliedOffsetCents clock =>
    offsetPass l batchId membershipExemptUntil appliedOffsetCents clock
  | .business event clock => commitBusiness l clock event

/-- The pricing endpoint accepts no negative price. -/
def PricesChecked (_ : Ledger) : BalanceAction → Prop
  | .business (.scheduleFuturePricing pricing) _ => 0 ≤ pricing.membershipAnnualCents
  | _ => True

/-- Each VAT portion lies within its amount. -/
structure VatWithin (l : Ledger) : Prop where
  balance : ∀ sub ∈ l.subscriptions.rows,
    0 ≤ sub.outstandingVatCents ∧ sub.outstandingVatCents ≤ sub.outstandingCents
  offset : ∀ b ∈ l.batches.rows,
    0 ≤ b.membershipOffsetVatCents ∧ b.membershipOffsetVatCents ≤ b.membershipOffsetCents
  prices : ∀ p ∈ l.pricing, 0 ≤ p.membershipAnnualCents

/-- A pass writes exactly what its formulas say before their floors. -/
structure ExactPass (l l' : Ledger) (batchId : BatchId) (appliedOffsetCents : ℤ)
    (batch row : Batch) (sub sub' : MembershipSubscription) : Prop where
  batches : Table.Replaces l.batches l'.batches batch row
  subscriptions : Table.Replaces l.subscriptions l'.subscriptions sub sub'
  own : batch.id = batchId ∧ sub.merchantId = batch.merchantId
  offset : row.membershipOffsetCents = appliedOffsetCents
  outstanding :
    sub'.outstandingCents = sub.outstandingCents+batch.membershipOffsetCents-appliedOffsetCents
  outstandingVat : sub'.outstandingVatCents =
    sub.outstandingVatCents+batch.membershipOffsetVatCents-row.membershipOffsetVatCents
  cleared : sub'.outstandingCents = 0 → sub'.outstandingVatCents = 0

variable {l l' : Ledger} {batchId : BatchId} {exemptUntil : Option Instant} {applied : ℤ}
  {clock : Instant}

/-- What a pass reads and which rows it replaces. -/
theorem offsetPass_eq_some (h : offsetPass l batchId exemptUntil applied clock = some l') :
    ∃ batch row sub due, batch.id = batchId ∧ sub.merchantId = batch.merchantId ∧
      Due sub batch due ∧ 0 ≤ applied ∧ applied ≤ due.dueCents ∧
      Table.Replaces l.batches l'.batches batch row ∧
      row.membershipOffsetCents = applied ∧
      row.membershipOffsetVatCents =
        splitMembershipOffsetVat due.dueCents due.dueVatCents applied ∧
      Table.Replaces l.subscriptions l'.subscriptions sub
        (balanceAfter due applied (splitMembershipOffsetVat due.dueCents due.dueVatCents applied)
          clock sub) ∧
      l'.pricing = l.pricing := by
  unfold offsetPass at h
  cases hbatch : l.batches.find? batchId with
  | none => simp [hbatch] at h
  | some batch =>
    obtain ⟨hmem, hid⟩ := Table.find?_eq_some.mp hbatch
    simp only [hbatch] at h
    cases hdue : lockAndResolveDue l batch.merchantId batch.membershipOffsetCents
        batch.membershipOffsetVatCents batch.periodStart exemptUntil with
    | none => simp [hdue] at h
    | some due =>
      obtain ⟨sub, hsub, hd, _⟩ := lockAndResolveDue_eq_some hdue
      have hkey := (Table.find?_eq_some.mp hsub).2
      simp only [hdue] at h
      split_ifs at h with happlied
      cases h
      refine ⟨batch, _, sub, due, hid, hkey, hd, happlied.1, happlied.2,
        Table.replaces_updateMany _ _ _ (by exact fun _ => rfl) hmem hid
          fun b hb => hb.trans hid.symm, rfl, rfl, ?_, rfl⟩
      rw [← hkey, ← hd.merchantId] at hsub
      exact replaces_subscription (f := balanceAfter due applied _ clock) (by exact fun _ => rfl)
        hsub

/-- What a recompute does to the balance is such a pass. -/
theorem offsetPass_of_recompute {now : Instant} {pendingLines : List PendingSettlementLine}
    {batch row : Batch} {pass : RecomputePass} {due : MembershipDueForRecompute}
    (h : WrittenPass l batchId now pendingLines clock batch pass l' row)
    (hdue : pass.due = some due) :
    ∃ merchant l'', l.merchants.find? batch.merchantId = some merchant ∧
      offsetPass l batchId merchant.membershipExemptUntil row.membershipOffsetCents clock =
        some l'' ∧
      l''.subscriptions = l'.subscriptions ∧
      l''.batches = (writeOffsetColumns l batchId row.membershipOffsetCents
        row.membershipOffsetVatCents).batches := by
  obtain ⟨merchant, hmerchant, _, hlock⟩ := h.planned.bagFee
  have hfound := h.found
  have hbounds := offset_bounds h
  obtain ⟨hcents, hvat⟩ := row_offset h
  have hsubs := subscriptions_of_pass h
  rw [hdue] at hbounds
  have happlied : 0 ≤ row.membershipOffsetCents ∧ row.membershipOffsetCents ≤ due.dueCents := hbounds
  have hread : lockAndResolveDue l batch.merchantId batch.membershipOffsetCents
      batch.membershipOffsetVatCents batch.periodStart merchant.membershipExemptUntil =
        some due := hlock.symm.trans hdue
  rw [offsetVatCents, hdue, hcents] at hvat
  rw [subscriptionsAfter, hdue, offsetVatCents, hdue, hcents] at hsubs
  let persisted :=
    persistOffset l due due.dueCents due.dueVatCents row.membershipOffsetCents clock
  refine ⟨merchant,
    writeOffsetColumns persisted.1 batchId row.membershipOffsetCents persisted.2, hmerchant, ?_, ?_, ?_⟩
  · unfold offsetPass
    rw [hfound]
    dsimp only
    rw [hread]
    dsimp only
    rw [if_pos happlied]
  · rw [hsubs]
    rfl
  · rw [← hvat]
    rfl

/-- With the portions in bounds a pass is exact. -/
theorem exact_of_pass (hw : VatWithin l)
    (h : offsetPass l batchId exemptUntil applied clock = some l') :
    ∃ batch row sub sub', ExactPass l l' batchId applied batch row sub sub' ∧
      (0 ≤ row.membershipOffsetVatCents ∧ row.membershipOffsetVatCents ≤ applied) ∧
      (0 ≤ sub'.outstandingVatCents ∧ sub'.outstandingVatCents ≤ sub'.outstandingCents) := by
  obtain ⟨batch, row, sub, due, hid, hkey, hd, h0, hle, hrows, hoffset, hvat, hsubs, _⟩ :=
    offsetPass_eq_some h
  have hbalance := hw.balance sub hsubs.mem_old
  have hprior := hw.offset batch hrows.mem_old
  have hbase := hd.base
  have hdueVat : 0 ≤ due.dueVatCents := by omega
  have hdueLe : due.dueVatCents ≤ due.dueCents := by omega
  have hshare := splitMembershipOffsetVat_bounds hdueVat hdueLe h0 hle
  have hstored := hd.stored
  have hstoredVat := hd.storedVat
  have hpriorCents := hd.prior
  have hpriorVat := hd.priorVat
  refine ⟨batch, row, sub, _, ⟨hrows, hsubs, ⟨hid, hkey⟩, hoffset, ?_, ?_, ?_⟩, ?_, ?_⟩
  · dsimp only [balanceAfter]
    omega
  · dsimp only [balanceAfter]
    omega
  · dsimp only [balanceAfter]
    omega
  · omega
  · dsimp only [balanceAfter]
    omega

theorem vatWithin_pass (hw : VatWithin l)
    (h : offsetPass l batchId exemptUntil applied clock = some l') : VatWithin l' := by
  obtain ⟨batch, row, sub, sub', hexact, hshare, hleft⟩ := exact_of_pass hw h
  have hoffset := hexact.offset
  have hprices := offsetPass_eq_some h
  refine ⟨?_, ?_, ?_⟩
  · intro s hs
    rcases hexact.subscriptions.mem_iff.mp hs with rfl | ⟨hs, _⟩
    · exact hleft
    · exact hw.balance s hs
  · intro b hb
    rcases hexact.batches.mem_iff.mp hb with rfl | ⟨hb, _⟩
    · omega
    · exact hw.offset b hb
  · obtain ⟨_, _, _, _, _, _, _, _, _, _, _, _, _, hpricing⟩ := hprices
    rw [hpricing]
    exact hw.prices

/-- A period opens with the VAT of its price, and other events touch no balance. -/
theorem vatWithin_event {event : BusinessEvent} (hw : VatWithin l)
    (hchecked : PricesChecked l (.business event clock))
    (h : commitBusiness l clock event = some l') : VatWithin l' := by
  have hbatches := (commitBusiness_frame h).1
  refine ⟨?_, by rw [hbatches]; exact hw.offset, ?_⟩
  · rcases event_cases hw.prices h with ⟨hsame, _⟩ | ⟨sub, hopened, _, _, _, hinsert, _⟩ |
      ⟨sub, sub', hopened, hrep, _⟩
    · rw [hsame]
      exact hw.balance
    · have hcents := hopened.cents
      have hvat := hopened.vat
      have hprice := hopened.price_nonneg
      have hvat0 := hopened.vat_nonneg
      intro s hs
      rw [hinsert] at hs
      rcases Table.mem_insertNew.mp hs with hs | ⟨rfl, _⟩
      · exact hw.balance s hs
      · omega
    · have hcents := hopened.cents
      have hvat := hopened.vat
      have hprice := hopened.price_nonneg
      have hvat0 := hopened.vat_nonneg
      intro s hs
      rcases hrep.mem_iff.mp hs with rfl | ⟨hs, _⟩
      · omega
      · exact hw.balance s hs
  · cases event with
    | scheduleFuturePricing pricing =>
      simp only [commitBusiness] at h
      split_ifs at h
      cases h
      exact List.forall_mem_cons.mpr ⟨hchecked, hw.prices⟩
    | createForApprovedMerchant | renewOneLocked =>
      simp only [commitBusiness, createSubscription, renewSubscription] at h
      repeat' split at h
      all_goals cases h <;> exact hw.prices
    | addMerchant | editBagFeeOverride | grantExemption =>
      cases h
      exact hw.prices
    | reserve | redeem | markNoShow | setPayment =>
      simp only [commitBusiness, updateReservation] at h
      split_ifs at h
      cases h
      exact hw.prices

/-- The VAT portions stay within their amounts along every run, and each pass
of a run is exact. -/
theorem vat_within (h : Reachable balanceStep PricesChecked VatWithin l) :
    VatWithin l ∧ ∀ batchId exemptUntil applied clock l',
      balanceStep l (.pass batchId exemptUntil applied clock) = some l' →
        ∃ batch row sub sub', ExactPass l l' batchId applied batch row sub sub' := by
  have hw : VatWithin l := by
    refine h.invariant (fun _ hs => hs) ?_
    intro s a s' hs hchecked hstep
    cases a with
    | pass batchId exemptUntil applied clock => exact vatWithin_pass hs hstep
    | business event clock => exact vatWithin_event hs hchecked hstep
  refine ⟨hw, ?_⟩
  intro batchId exemptUntil applied clock l' hstep
  obtain ⟨batch, row, sub, sub', hexact, _⟩ := exact_of_pass hw hstep
  exact ⟨batch, row, sub, sub', hexact⟩

section SampleRun

/-- A merchant's first year is open, two of its batches are to be computed. -/
def sampleLedger : Ledger where
  batches := (Table.empty.insertNew (newBatch 1 (offerDateToDbDate 10) 11 0)).insertNew
    (newBatch 1 (offerDateToDbDate 20) 12 0)
  lines := Table.empty
  allocations := Table.empty
  claims := Table.empty
  subscriptions := Table.empty.insertNew
    { merchantId := 1
      anchorDate := 0
      currentPeriodStart := 0
      currentPeriodEnd := offerDateToDbDate 365
      priceCents := 10001
      vatCents := 2000
      status := .trial
      outstandingCents := 12001
      outstandingVatCents := 2000
      periodPaidAt := none }
  merchants := Table.empty.insertNew ⟨1, "TR00", none, none, none⟩
  pricing := [⟨100, 10001, 0⟩]
  reservations := Table.empty

theorem sampleLedger_within : VatWithin sampleLedger :=
  ⟨by decide, by decide, by decide⟩

/-- Both batches offset, the first one gives back, the year ends, and the second
one gives back to the next year's balance. -/
def sampleActions : List BalanceAction :=
  [.pass 11 none 5003 0, .pass 12 none 3001 0, .pass 11 none 1 0,
    .business (.renewOneLocked 1) (offerDateToDbDate 365), .pass 12 none 1000 0]

theorem vat_within_sample :
    VatWithin (after balanceStep sampleLedger sampleActions) ∧
      ∀ batchId exemptUntil applied clock l',
        balanceStep (after balanceStep sampleLedger sampleActions)
            (.pass batchId exemptUntil applied clock) = some l' →
          ∃ batch row sub sub',
            ExactPass (after balanceStep sampleLedger sampleActions) l' batchId applied batch row
              sub sub' :=
  vat_within (reachable_after_guarded (.start sampleLedger_within)
    ⟨trivial, trivial, trivial, trivial, trivial, trivial⟩ (by decide +kernel))

end SampleRun

end Kurtar.MembershipVat

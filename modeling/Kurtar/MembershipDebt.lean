import Kurtar.MembershipPass

/-!
# Membership debt is conserved

Whatever a merchant was ever charged for a membership period is still open,
was written off at a renewal, or was offset by one of its batches. A pass only
exchanges offset against balance, and a renewal moves what is left into the
written-off column before it opens the next period.
-/

namespace Kurtar.MembershipDebt

open KeyedTable GuardedRuns StatusTransitions IstanbulCalendar SettlementMath SettlementLedger
open SettlementRecompute SettlementTransactions SettlementService SettlementPass
open SettlementEffects MembershipPass

/-- A column of the merchant's subscription; zero before there is one. -/
def stored (l : Ledger) (merchantId : MerchantId) (column : MembershipSubscription → ℤ) : ℤ :=
  ((l.subscriptions.find? merchantId).map column).getD 0

/-- A column summed over all the merchant's batches. -/
def overBatches (l : Ledger) (merchantId : MerchantId) (column : Batch → ℤ) : ℤ :=
  l.batches.sumOn (fun b => b.merchantId = merchantId) column

/-- The sum of two columns of the subscription and one of the batches. -/
def accounted (l : Ledger) (merchantId : MerchantId)
    (outstanding writtenOff : MembershipSubscription → ℤ) (offset : Batch → ℤ) : ℤ :=
  stored l merchantId outstanding+stored l merchantId writtenOff
    +overBatches l merchantId offset

/-- What is open, written off or offset of a merchant's membership. -/
def accountedCents (l : Ledger) (merchantId : MerchantId) : ℤ :=
  accounted l merchantId (·.outstandingCents) (·.writtenOffCents) (·.membershipOffsetCents)

/-- The VAT portion of `accountedCents`. -/
def accountedVatCents (l : Ledger) (merchantId : MerchantId) : ℤ :=
  accounted l merchantId (·.outstandingVatCents) (·.writtenOffVatCents)
    (·.membershipOffsetVatCents)

/-- The row of the period that a business event opened for a merchant. -/
def periodOpened (l l' : Ledger) (merchantId : MerchantId) :
    BusinessEvent → Option MembershipSubscription
  | .createForApprovedMerchant id _ =>
    if id = merchantId ∧ l.subscriptions.find? merchantId = none then
      l'.subscriptions.find? merchantId
    else none
  | .renewOneLocked id =>
    if id = merchantId then l'.subscriptions.find? merchantId else none
  | _ => none

/-- As `periodOpened`, for any step of the services. -/
def openedBy (w w' : World) (merchantId : MerchantId) : Action → Option MembershipSubscription
  | .business event _ => periodOpened w.ledger w'.ledger merchantId event
  | _ => none

/-- The periods that a merchant's subscription opened along a run. -/
def periodsOpened (merchantId : MerchantId) : World → List Action → List MembershipSubscription
  | _, [] => []
  | w, a :: actions =>
    match step w a with
    | some w' => (openedBy w w' merchantId a).toList ++ periodsOpened merchantId w' actions
    | none => []

/-- The VAT portions lie within their amounts, a paid period is marked, and only
subscribers are charged. -/
structure Sound (l : Ledger) : Prop where
  balance : ∀ sub ∈ l.subscriptions.rows,
    0 ≤ sub.outstandingVatCents ∧ sub.outstandingVatCents ≤ sub.outstandingCents
  marked : ∀ sub ∈ l.subscriptions.rows, sub.outstandingCents = 0 → sub.periodPaidAt ≠ none
  offset : ∀ b ∈ l.batches.rows,
    0 ≤ b.membershipOffsetVatCents ∧ b.membershipOffsetVatCents ≤ b.membershipOffsetCents
  subscribed : ∀ b ∈ l.batches.rows, l.subscriptions.find? b.merchantId = none →
    b.membershipOffsetCents = 0

section Tables

variable {l l' : Ledger} {sub sub' : MembershipSubscription} {batch row : Batch}

theorem stored_of_replaces (h : Table.Replaces l.subscriptions l'.subscriptions sub sub')
    (merchantId : MerchantId) (column : MembershipSubscription → ℤ) :
    stored l' merchantId column = stored l merchantId column
      +if sub.merchantId = merchantId then column sub'-column sub else 0 := by
  by_cases hm : sub.merchantId = merchantId
  · have hold := Table.find?_of_mem h.mem_old
    have hnew := h.find?_self
    rw [hm] at hold hnew
    rw [stored, stored, hold, hnew, if_pos hm]
    simp only [Option.map_some, Option.getD_some]
    omega
  · rw [stored, stored, h.find?_of_ne fun he => hm he.symm, if_neg hm, add_zero]

theorem overBatches_of_replaces (h : Table.Replaces l.batches l'.batches batch row)
    (hm : row.merchantId = batch.merchantId) (merchantId : MerchantId) (column : Batch → ℤ) :
    overBatches l' merchantId column = overBatches l merchantId column
      +if batch.merchantId = merchantId then column row-column batch else 0 := by
  rw [overBatches, h.sumOn_eq, hm, overBatches]
  split_ifs <;> omega

variable {outstanding writtenOff : MembershipSubscription → ℤ} {offset : Batch → ℤ}

theorem accounted_of_same (hb : l'.batches = l.batches)
    (hs : l'.subscriptions = l.subscriptions) (merchantId : MerchantId) :
    accounted l' merchantId outstanding writtenOff offset =
      accounted l merchantId outstanding writtenOff offset := by
  rw [accounted, stored, stored, overBatches, hb, hs]
  rfl

/-- A batch row may change in everything but its offset. -/
theorem accounted_of_batch (h : Table.Replaces l.batches l'.batches batch row)
    (hm : row.merchantId = batch.merchantId) (hs : l'.subscriptions = l.subscriptions)
    (hoffset : offset row = offset batch) (merchantId : MerchantId) :
    accounted l' merchantId outstanding writtenOff offset =
      accounted l merchantId outstanding writtenOff offset := by
  rw [accounted, stored, stored, overBatches_of_replaces h hm, hs, hoffset, sub_self, ite_self,
    add_zero]
  rfl

/-- Offset exchanged against balance leaves the account as it was. -/
theorem accounted_of_exchange (hb : Table.Replaces l.batches l'.batches batch row)
    (hm : row.merchantId = batch.merchantId)
    (hs : Table.Replaces l.subscriptions l'.subscriptions sub sub')
    (hkey : sub.merchantId = batch.merchantId)
    (hexchange : outstanding sub'+offset row = outstanding sub+offset batch)
    (hw : writtenOff sub' = writtenOff sub) (merchantId : MerchantId) :
    accounted l' merchantId outstanding writtenOff offset =
      accounted l merchantId outstanding writtenOff offset := by
  have hst := stored_of_replaces hs merchantId
  rw [hkey] at hst
  rw [accounted, accounted, overBatches_of_replaces hb hm, hst, hst, hw]
  split_ifs <;> omega

end Tables

/-- A pass that leaves nothing open marks the period as paid, unless it was paid before. -/
theorem balanceAfter_marked {sub : MembershipSubscription} {batch : Batch}
    {due : MembershipDueForRecompute} {appliedCents appliedVatCents : ℤ} (hd : Due sub batch due)
    (hmarked : sub.outstandingCents = 0 → sub.periodPaidAt ≠ none)
    (hbalance : 0 ≤ sub.outstandingVatCents ∧ sub.outstandingVatCents ≤ sub.outstandingCents)
    (happlied : appliedCents ≤ due.dueCents) (clock : Instant)
    (hzero : (balanceAfter due appliedCents appliedVatCents clock sub).outstandingCents = 0) :
    (balanceAfter due appliedCents appliedVatCents clock sub).periodPaidAt ≠ none := by
  have hstored := hd.stored
  have hprior := hd.prior
  dsimp only [balanceAfter] at hzero ⊢
  split_ifs with hnew
  · simp
  · rcases hd.base with ⟨_, hdue, _⟩ | ⟨hown, _, _⟩
    · exact hmarked (by omega)
    · intro hnone
      have hunmarked : due.alreadyMarkedPaid = false := by rw [hd.marked, hnone]; rfl
      rw [Bool.or_eq_false_iff] at hown
      simp [hown.1, hown.2, hzero, hunmarked] at hnew

section Pass

variable {l l' : Ledger} {batchId : BatchId} {now clock : Instant}
  {pendingLines : List PendingSettlementLine} {batch row : Batch} {pass : RecomputePass}
  (h : WrittenPass l batchId now pendingLines clock batch pass l' row) (hs : Sound l)

include h hs

/-- What a pass does to the balance of its merchant, for both portions. -/
theorem balance_of_pass :
    (l'.subscriptions = l.subscriptions ∧ batch.membershipOffsetCents = 0 ∧
        batch.membershipOffsetVatCents = 0 ∧ row.membershipOffsetCents = 0 ∧
        row.membershipOffsetVatCents = 0) ∨
      ∃ sub sub', Table.Replaces l.subscriptions l'.subscriptions sub sub' ∧
        sub.merchantId = batch.merchantId ∧
        sub'.outstandingCents+row.membershipOffsetCents =
          sub.outstandingCents+batch.membershipOffsetCents ∧
        sub'.outstandingVatCents+row.membershipOffsetVatCents =
          sub.outstandingVatCents+batch.membershipOffsetVatCents ∧
        sub'.writtenOffCents = sub.writtenOffCents ∧
        sub'.writtenOffVatCents = sub.writtenOffVatCents ∧
        (0 ≤ sub'.outstandingVatCents ∧ sub'.outstandingVatCents ≤ sub'.outstandingCents) ∧
        (sub'.outstandingCents = 0 → sub'.periodPaidAt ≠ none) ∧
        0 ≤ row.membershipOffsetVatCents ∧
        row.membershipOffsetVatCents ≤ row.membershipOffsetCents := by
  have hoffset := hs.offset batch h.batch_mem
  have hbounds := offset_bounds h
  cases hdue : pass.due with
  | none =>
    obtain ⟨hnone, htable, hcents, hvat⟩ := pass_of_none h hdue
    have hzero := hs.subscribed batch h.batch_mem hnone
    exact Or.inl ⟨htable, hzero, by omega, hcents, hvat⟩
  | some due =>
    obtain ⟨sub, hkey, hd, hrep, hsplit⟩ := pass_of_some h hdue
    have hbalance := hs.balance sub hrep.mem_old
    have hbase := hd.base
    rw [hdue] at hbounds
    change 0 ≤ row.membershipOffsetCents ∧ row.membershipOffsetCents ≤ due.dueCents at hbounds
    have hvat : 0 ≤ due.dueVatCents := by omega
    have hle : due.dueVatCents ≤ due.dueCents := by omega
    have hshare := splitMembershipOffsetVat_bounds hvat hle hbounds.1 hbounds.2
    rw [← hsplit] at hshare
    have hstored := hd.stored
    have hstoredVat := hd.storedVat
    have hprior := hd.prior
    have hpriorVat := hd.priorVat
    refine Or.inr ⟨sub, _, hrep, hkey, ?_, ?_, rfl, rfl, ?_, ?_, hshare.1, hshare.2.2.1⟩
    · dsimp only [balanceAfter]
      omega
    · dsimp only [balanceAfter]
      omega
    · dsimp only [balanceAfter]
      omega
    · exact balanceAfter_marked hd (hs.marked sub hrep.mem_old) hbalance hbounds.2 clock

theorem accounted_of_pass (merchantId : MerchantId) :
    accountedCents l' merchantId = accountedCents l merchantId ∧
      accountedVatCents l' merchantId = accountedVatCents l merchantId := by
  have hm := h.row_columns.1
  rcases balance_of_pass h hs with ⟨htable, hz, hzv, hr, hrv⟩ |
    ⟨sub, sub', hrep, hkey, hcents, hvat, hw, hwv, _⟩
  · exact ⟨accounted_of_batch h.replaces hm htable (hr.trans hz.symm) merchantId,
      accounted_of_batch h.replaces hm htable (hrv.trans hzv.symm) merchantId⟩
  · exact ⟨accounted_of_exchange h.replaces hm hrep hkey hcents hw merchantId,
      accounted_of_exchange h.replaces hm hrep hkey hvat hwv merchantId⟩

theorem sound_of_pass : Sound l' := by
  rcases balance_of_pass h hs with ⟨htable, hz, hzv, hr, hrv⟩ |
    ⟨sub, sub', hrep, hkey, _, _, _, _, hbalance, hmarked, hoffset⟩
  · constructor
    · rw [htable]
      exact hs.balance
    · rw [htable]
      exact hs.marked
    · intro b hb
      rcases h.replaces.mem_iff.mp hb with rfl | ⟨hb, _⟩
      · omega
      · exact hs.offset b hb
    · intro b hb hnone
      rw [htable] at hnone
      rcases h.replaces.mem_iff.mp hb with rfl | ⟨hb, _⟩
      · exact hr
      · exact hs.subscribed b hb hnone
  · have hkeeps : ∀ id, l'.subscriptions.find? id = none → l.subscriptions.find? id = none := by
      intro id hnone
      rw [Table.find?_eq_none] at hnone ⊢
      intro s hmem hid
      obtain ⟨s', hs', hk, _⟩ := hrep.exists_new hmem
      exact hnone s' hs' (hk.trans hid)
    constructor
    · intro s hmem
      rcases hrep.mem_iff.mp hmem with rfl | ⟨hmem, _⟩
      · exact hbalance
      · exact hs.balance s hmem
    · intro s hmem
      rcases hrep.mem_iff.mp hmem with rfl | ⟨hmem, _⟩
      · exact hmarked
      · exact hs.marked s hmem
    · intro b hb
      rcases h.replaces.mem_iff.mp hb with rfl | ⟨hb, _⟩
      · exact hoffset
      · exact hs.offset b hb
    · intro b hb hnone
      rcases h.replaces.mem_iff.mp hb with rfl | ⟨hb, _⟩
      · rw [h.row_columns.1, ← hkey] at hnone
        exact absurd hrep.key_new (Table.find?_eq_none.mp hnone sub' hrep.mem_new)
      · exact hs.subscribed b hb (hkeeps _ hnone)

end Pass

section Transactions

variable {l l' : Ledger} (hs : Sound l)

include hs

/-- A new batch has offset nothing. -/
theorem created_keeps {b : Batch} (hfresh : ∀ q ∈ l.batches.rows, q.id ≠ b.id)
    (hcents : b.membershipOffsetCents = 0) (hvat : b.membershipOffsetVatCents = 0) :
    Sound { l with batches := l.batches.insertNew b } ∧ ∀ m,
      accountedCents { l with batches := l.batches.insertNew b } m = accountedCents l m ∧
      accountedVatCents { l with batches := l.batches.insertNew b } m =
        accountedVatCents l m := by
  constructor
  · refine ⟨hs.balance, hs.marked, ?_, ?_⟩
    · intro q hq
      rcases Table.mem_insertNew.mp hq with hq | ⟨rfl, _⟩
      · exact hs.offset q hq
      · omega
    · intro q hq hnone
      rcases Table.mem_insertNew.mp hq with hq | ⟨rfl, _⟩
      · exact hs.subscribed q hq hnone
      · exact hcents
  · intro m
    have hsum := Table.sumOn_insertNew hfresh (fun q => q.merchantId = m)
    constructor
    · rw [accountedCents, accounted, overBatches, hsum, hcents, ite_self, add_zero]
      rfl
    · rw [accountedVatCents, accounted, overBatches, hsum, hvat, ite_self, add_zero]
      rfl

/-- A status change leaves both portions of the offset alone. -/
theorem flipped_keeps {t : Transaction} {old new : Batch} (hflip : Flip t old new)
    (hrep : Table.Replaces l.batches l'.batches old new)
    (hrest : l' = { l with batches := l'.batches }) :
    Sound l' ∧ ∀ m, accountedCents l' m = accountedCents l m ∧
      accountedVatCents l' m = accountedVatCents l m := by
  have hkeeps := hflip.keeps
  have hm : new.merchantId = old.merchantId := by rw [hkeeps]
  have hcents : new.membershipOffsetCents = old.membershipOffsetCents := by rw [hkeeps]
  have hvat : new.membershipOffsetVatCents = old.membershipOffsetVatCents := by rw [hkeeps]
  have hsubs : l'.subscriptions = l.subscriptions := by rw [hrest]
  constructor
  · constructor
    · rw [hsubs]
      exact hs.balance
    · rw [hsubs]
      exact hs.marked
    · intro b hb
      rcases hrep.mem_iff.mp hb with rfl | ⟨hb, _⟩
      · rw [hcents, hvat]
        exact hs.offset old hrep.mem_old
      · exact hs.offset b hb
    · intro b hb hnone
      rw [hsubs] at hnone
      rcases hrep.mem_iff.mp hb with rfl | ⟨hb, _⟩
      · rw [hcents]
        exact hs.subscribed old hrep.mem_old (hm ▸ hnone)
      · exact hs.subscribed b hb hnone
  · intro m
    exact ⟨accounted_of_batch hrep hm hsubs hcents m, accounted_of_batch hrep hm hsubs hvat m⟩

/-- Transactions other than business events neither charge nor forgive. -/
theorem commit_keeps_account {t : Transaction} (h : commit l t = some l')
    (hevent : ∀ event clock, t ≠ .business event clock) :
    Sound l' ∧ ∀ m, accountedCents l' m = accountedCents l m ∧
      accountedVatCents l' m = accountedVatCents l m := by
  cases commit_effect h with
  | unchanged => exact ⟨hs, fun _ => ⟨rfl, rfl⟩⟩
  | created hfresh => exact created_keeps hs hfresh rfl rfl
  | passed hp => exact ⟨sound_of_pass hp.toWrittenPass hs, accounted_of_pass hp.toWrittenPass hs⟩
  | flipped hflip hrep hrest => exact flipped_keeps hs hflip hrep hrest
  | @business event clock => exact absurd rfl (hevent event clock)

end Transactions

section Periods

variable {l l' : Ledger} {merchantId : MerchantId}

/-- The row of a period that starts with its whole price open. -/
structure Opened (sub : MembershipSubscription) : Prop where
  cents : sub.outstandingCents = sub.priceCents+sub.vatCents
  vat : sub.outstandingVatCents = sub.vatCents
  price_nonneg : 0 ≤ sub.priceCents
  vat_nonneg : 0 ≤ sub.vatCents
  marked : sub.outstandingCents = 0 → sub.periodPaidAt ≠ none

theorem computeMembershipVatCents_nonneg {priceCents : ℤ} (h : 0 ≤ priceCents) :
    0 ≤ computeMembershipVatCents priceCents := by
  unfold computeMembershipVatCents applyRateCents
  omega

theorem membershipPrice_nonneg (hprices : ∀ p ∈ l.pricing, 0 ≤ p.membershipAnnualCents)
    {exempt : Bool} {asOf : Instant} {priceCents vatCents : ℤ}
    (h : membershipPrice l exempt asOf = .ok (priceCents, vatCents)) :
    0 ≤ priceCents ∧ 0 ≤ vatCents := by
  unfold membershipPrice at h
  split_ifs at h
  · cases h
    exact ⟨le_rfl, le_rfl⟩
  · unfold Ledger.resolvePlatformPricing at h
    split at h
    · next pricing hgreatest =>
      cases h
      have hmem := List.mem_of_mem_filter (mem_of_greatest hgreatest)
      have hprice := hprices pricing hmem
      exact ⟨hprice, computeMembershipVatCents_nonneg hprice⟩
    · cases h

theorem createSubscription_eq_some {approvedAt : Instant}
    (hprices : ∀ p ∈ l.pricing, 0 ≤ p.membershipAnnualCents)
    (h : createSubscription l merchantId approvedAt = some l') :
    ∃ sub, sub.merchantId = merchantId ∧ Opened sub ∧ sub.writtenOffCents = 0 ∧
      sub.writtenOffVatCents = 0 ∧
      l' = { l with subscriptions := l.subscriptions.insertNew sub } := by
  unfold createSubscription at h
  split at h
  · cases h
  · split at h
    · cases h
    · next hprice =>
      cases h
      obtain ⟨hp, hv⟩ := membershipPrice_nonneg hprices hprice
      refine ⟨_, rfl, ⟨rfl, rfl, hp, hv, ?_⟩, rfl, rfl, rfl⟩
      intro hzero
      dsimp only at hzero ⊢
      simp [hzero]

theorem renewSubscription_eq_some {now : Instant}
    (hprices : ∀ p ∈ l.pricing, 0 ≤ p.membershipAnnualCents)
    (h : renewSubscription l merchantId now = some l') :
    ∃ sub sub', sub.merchantId = merchantId ∧ Opened sub' ∧
      sub'.writtenOffCents = sub.writtenOffCents
        +(if sub.outstandingCents > 0 then sub.outstandingCents else 0) ∧
      sub'.writtenOffVatCents = sub.writtenOffVatCents
        +(if sub.outstandingCents > 0 then sub.outstandingVatCents else 0) ∧
      l'.batches = l.batches ∧ Table.Replaces l.subscriptions l'.subscriptions sub sub' := by
  unfold renewSubscription at h
  cases hsub : l.subscriptions.find? merchantId with
  | none => simp [hsub] at h
  | some sub =>
    have hkey := (Table.find?_eq_some.mp hsub).2
    simp only [hsub] at h
    split at h
    · cases h
    · split at h
      · cases h
      · next hprice =>
        obtain ⟨hp, hv⟩ := membershipPrice_nonneg hprices hprice
        cases h
        refine ⟨sub, _, hkey, ?_, ?_, ?_, rfl, replaces_subscription (by exact fun _ => rfl) hsub⟩
        · refine ⟨rfl, rfl, hp, hv, ?_⟩
          intro hzero
          dsimp only at hzero ⊢
          simp [hzero]
        · simp only [decide_eq_true_eq]
        · simp only [decide_eq_true_eq]

/-- A new subscription starts the account with its first period. -/
theorem account_of_create {sub : MembershipSubscription} (hs : Sound l) (ho : Opened sub)
    (hw : sub.writtenOffCents = 0) (hwv : sub.writtenOffVatCents = 0)
    (hnone : l.subscriptions.find? sub.merchantId = none) :
    Sound { l with subscriptions := l.subscriptions.insertNew sub } ∧ ∀ m,
      accountedCents { l with subscriptions := l.subscriptions.insertNew sub } m =
        accountedCents l m+(if sub.merchantId = m then sub.priceCents+sub.vatCents else 0) ∧
      accountedVatCents { l with subscriptions := l.subscriptions.insertNew sub } m =
        accountedVatCents l m+(if sub.merchantId = m then sub.vatCents else 0) := by
  have hcents := ho.cents
  have hvat := ho.vat
  have hp := ho.price_nonneg
  have hv := ho.vat_nonneg
  have hnew := Table.find?_insertNew_self hnone
  constructor
  · refine ⟨?_, ?_, hs.offset, ?_⟩
    · intro s hmem
      rcases Table.mem_insertNew.mp hmem with hmem | ⟨rfl, _⟩
      · exact hs.balance s hmem
      · omega
    · intro s hmem
      rcases Table.mem_insertNew.mp hmem with hmem | ⟨rfl, _⟩
      · exact hs.marked s hmem
      · exact ho.marked
    · intro b hb hfind
      by_cases hm : b.merchantId = sub.merchantId
      · rw [hm] at hfind
        exact absurd (hnew.symm.trans hfind) (by simp)
      · rw [Table.find?_insertNew_of_ne fun he => hm he.symm] at hfind
        exact hs.subscribed b hb hfind
  · intro m
    by_cases hm : m = sub.merchantId
    · rw [hm]
      constructor
      · rw [accountedCents, accountedCents, accounted, accounted, stored, stored, stored, stored,
          hnew, hnone, if_pos rfl]
        simp only [Option.map_some, Option.getD_some, Option.map_none, Option.getD_none]
        change sub.outstandingCents+sub.writtenOffCents+overBatches l _ _ = _
        omega
      · rw [accountedVatCents, accountedVatCents, accounted, accounted, stored, stored, stored,
          stored, hnew, hnone, if_pos rfl]
        simp only [Option.map_some, Option.getD_some, Option.map_none, Option.getD_none]
        change sub.outstandingVatCents+sub.writtenOffVatCents+overBatches l _ _ = _
        omega
    · have hother : sub.merchantId ≠ m := fun he => hm he.symm
      rw [if_neg hother, if_neg hother, add_zero, add_zero]
      constructor
      · rw [accountedCents, accounted, stored, stored, Table.find?_insertNew_of_ne hother]
        rfl
      · rw [accountedVatCents, accounted, stored, stored, Table.find?_insertNew_of_ne hother]
        rfl

/-- A renewal moves the open balance to the written-off columns and opens a period. -/
theorem account_of_renewal {sub sub' : MembershipSubscription} (hs : Sound l) (ho : Opened sub')
    (hb : l'.batches = l.batches)
    (hrep : Table.Replaces l.subscriptions l'.subscriptions sub sub')
    (hw : sub'.writtenOffCents = sub.writtenOffCents
      +(if sub.outstandingCents > 0 then sub.outstandingCents else 0))
    (hwv : sub'.writtenOffVatCents = sub.writtenOffVatCents
      +(if sub.outstandingCents > 0 then sub.outstandingVatCents else 0)) :
    Sound l' ∧ ∀ m,
      accountedCents l' m =
        accountedCents l m+(if sub.merchantId = m then sub'.priceCents+sub'.vatCents else 0) ∧
      accountedVatCents l' m =
        accountedVatCents l m+(if sub.merchantId = m then sub'.vatCents else 0) := by
  have hcents := ho.cents
  have hvat := ho.vat
  have hp := ho.price_nonneg
  have hv := ho.vat_nonneg
  have hbalance := hs.balance sub hrep.mem_old
  constructor
  · refine ⟨?_, ?_, ?_, ?_⟩
    · intro s hmem
      rcases hrep.mem_iff.mp hmem with rfl | ⟨hmem, _⟩
      · omega
      · exact hs.balance s hmem
    · intro s hmem
      rcases hrep.mem_iff.mp hmem with rfl | ⟨hmem, _⟩
      · exact ho.marked
      · exact hs.marked s hmem
    · rw [hb]
      exact hs.offset
    · intro b hmem hnone
      rw [hb] at hmem
      refine hs.subscribed b hmem ?_
      rw [Table.find?_eq_none] at hnone ⊢
      intro s hmem hid
      obtain ⟨s', hs', hk, _⟩ := hrep.exists_new hmem
      exact hnone s' hs' (hk.trans hid)
  · intro m
    have hst := stored_of_replaces hrep m
    constructor
    · rw [accountedCents, accountedCents, accounted, accounted, hst, hst, hw, overBatches, hb]
      change _+overBatches l m _ = _
      split_ifs <;> omega
    · rw [accountedVatCents, accountedVatCents, accounted, accounted, hst, hst, hwv, overBatches,
        hb]
      change _+overBatches l m _ = _
      split_ifs <;> omega

/-- A business event leaves the subscriptions alone, creates one, or renews one. -/
theorem event_cases {event : BusinessEvent} {clock : Instant}
    (hprices : ∀ p ∈ l.pricing, 0 ≤ p.membershipAnnualCents)
    (h : commitBusiness l clock event = some l') :
    (l'.subscriptions = l.subscriptions ∧ ∀ m, periodOpened l l' m event = none) ∨
      (∃ sub, Opened sub ∧ sub.writtenOffCents = 0 ∧ sub.writtenOffVatCents = 0 ∧
        l.subscriptions.find? sub.merchantId = none ∧
        l' = { l with subscriptions := l.subscriptions.insertNew sub } ∧
        ∀ m, periodOpened l l' m event = if sub.merchantId = m then some sub else none) ∨
      ∃ sub sub', Opened sub' ∧ Table.Replaces l.subscriptions l'.subscriptions sub sub' ∧
        sub'.writtenOffCents = sub.writtenOffCents
          +(if sub.outstandingCents > 0 then sub.outstandingCents else 0) ∧
        sub'.writtenOffVatCents = sub.writtenOffVatCents
          +(if sub.outstandingCents > 0 then sub.outstandingVatCents else 0) ∧
        ∀ m, periodOpened l l' m event = if sub.merchantId = m then some sub' else none := by
  cases event with
  | createForApprovedMerchant id approvedAt =>
    obtain ⟨sub, rfl, ho, hw, hwv, rfl⟩ := createSubscription_eq_some hprices h
    cases hfind : l.subscriptions.find? sub.merchantId with
    | some taken =>
      obtain ⟨hmem, hkey⟩ := Table.find?_eq_some.mp hfind
      refine Or.inl ⟨Table.insertNew_of_taken ⟨taken, hmem, hkey⟩, ?_⟩
      intro m
      refine if_neg ?_
      rintro ⟨rfl, hnone⟩
      exact absurd (hfind.symm.trans hnone) (by simp)
    | none =>
      refine Or.inr (Or.inl ⟨sub, ho, hw, hwv, hfind, rfl, ?_⟩)
      intro m
      simp only [periodOpened]
      by_cases hm : sub.merchantId = m
      · rw [← hm, if_pos ⟨rfl, hfind⟩, if_pos rfl]
        exact Table.find?_insertNew_self hfind
      · rw [if_neg fun hc => hm hc.1, if_neg hm]
  | renewOneLocked id =>
    obtain ⟨sub, sub', rfl, ho, hw, hwv, _, hrep⟩ := renewSubscription_eq_some hprices h
    refine Or.inr (Or.inr ⟨sub, sub', ho, hrep, hw, hwv, ?_⟩)
    intro m
    simp only [periodOpened]
    by_cases hm : sub.merchantId = m
    · rw [if_pos hm, if_pos hm, ← hm]
      exact hrep.find?_self
    · rw [if_neg hm, if_neg hm]
  | addMerchant | editBagFeeOverride | grantExemption =>
    cases h
    exact Or.inl ⟨rfl, fun _ => rfl⟩
  | scheduleFuturePricing | reserve =>
    simp only [commitBusiness] at h
    split_ifs at h
    cases h
    exact Or.inl ⟨rfl, fun _ => rfl⟩
  | redeem | markNoShow | setPayment =>
    simp only [commitBusiness, updateReservation] at h
    split_ifs at h
    cases h
    exact Or.inl ⟨rfl, fun _ => rfl⟩

/-- A business event adds the price and VAT of the period it opens, if it opens one. -/
theorem account_of_event {event : BusinessEvent} {clock : Instant} (hs : Sound l)
    (hprices : ∀ p ∈ l.pricing, 0 ≤ p.membershipAnnualCents)
    (h : commitBusiness l clock event = some l') :
    Sound l' ∧ ∀ m,
      accountedCents l' m = accountedCents l m
        +((periodOpened l l' m event).toList.map fun p => p.priceCents+p.vatCents).sum ∧
      accountedVatCents l' m = accountedVatCents l m
        +((periodOpened l l' m event).toList.map fun p => p.vatCents).sum := by
  have hb := (commitBusiness_frame h).1
  rcases event_cases hprices h with ⟨htable, hnone⟩ | ⟨sub, ho, hw, hwv, hfresh, rfl, hopened⟩ |
    ⟨sub, sub', ho, hrep, hw, hwv, hopened⟩
  · refine ⟨⟨by rw [htable]; exact hs.balance, by rw [htable]; exact hs.marked,
      by rw [hb]; exact hs.offset, by rw [hb, htable]; exact hs.subscribed⟩, ?_⟩
    intro m
    rw [hnone m]
    simp only [Option.toList_none, List.map_nil, List.sum_nil, add_zero]
    exact ⟨accounted_of_same hb htable m, accounted_of_same hb htable m⟩
  · obtain ⟨hsound, haccount⟩ := account_of_create hs ho hw hwv hfresh
    refine ⟨hsound, ?_⟩
    intro m
    obtain ⟨hcents, hvat⟩ := haccount m
    rw [hopened m, hcents, hvat]
    split_ifs <;> simp
  · obtain ⟨hsound, haccount⟩ := account_of_renewal hs ho hb hrep hw hwv
    refine ⟨hsound, ?_⟩
    intro m
    obtain ⟨hcents, hvat⟩ := haccount m
    rw [hopened m, hcents, hvat]
    split_ifs <;> simp

end Periods

section Runs

/-- Prices are only ever added. -/
theorem pricing_of_event {l l' : Ledger} {event : BusinessEvent} {clock : Instant}
    (h : commitBusiness l clock event = some l') : ∀ p ∈ l.pricing, p ∈ l'.pricing := by
  intro p hp
  cases event with
  | scheduleFuturePricing pricing =>
    simp only [commitBusiness] at h
    split_ifs at h
    cases h
    exact List.mem_cons_of_mem pricing hp
  | createForApprovedMerchant | renewOneLocked =>
    simp only [commitBusiness, createSubscription, renewSubscription] at h
    repeat' split at h
    all_goals cases h <;> exact hp
  | addMerchant | editBagFeeOverride | grantExemption =>
    cases h
    exact hp
  | reserve | redeem | markNoShow | setPayment =>
    simp only [commitBusiness, updateReservation] at h
    split_ifs at h
    cases h
    exact hp

theorem pricing_of_commit {l l' : Ledger} {t : Transaction} (h : commit l t = some l') :
    ∀ p ∈ l.pricing, p ∈ l'.pricing := by
  cases commit_effect h with
  | unchanged => exact fun _ hp => hp
  | created => exact fun _ hp => hp
  | passed hp =>
    rw [hp.frame.2.1]
    exact fun _ hp => hp
  | flipped _ _ hrest =>
    rw [hrest]
    exact fun _ hp => hp
  | business => exact pricing_of_event h

/-- Only a business action commits a business event. -/
theorem transactionOf_business {w : World} {a : Action} {event : BusinessEvent} {clock : Instant}
    (h : transactionOf w a = some (.business event clock)) : a = .business event clock := by
  cases a with
  | resume index input =>
    obtain ⟨task, _, ht⟩ := Option.bind_eq_some_iff.mp h
    cases task with
    | nightlyGroups cycle =>
      obtain ⟨group, _, he⟩ := Option.map_eq_some_iff.mp ht
      cases he
    | _ => cases ht
  | _ => cases h <;> rfl

variable {w w' : World}

/-- A step keeps the prices, and adds to the account the period it opens. -/
theorem account_of_step {a : Action} (hs : Sound w.ledger)
    (hprices : ∀ p ∈ w.ledger.pricing, 0 ≤ p.membershipAnnualCents) (h : step w a = some w') :
    Sound w'.ledger ∧ ∀ m,
      accountedCents w'.ledger m = accountedCents w.ledger m
        +((openedBy w w' m a).toList.map fun p => p.priceCents+p.vatCents).sum ∧
      accountedVatCents w'.ledger m = accountedVatCents w.ledger m
        +((openedBy w w' m a).toList.map fun p => p.vatCents).sum := by
  by_cases hevent : ∃ event clock, a = .business event clock
  · obtain ⟨event, clock, rfl⟩ := hevent
    simp only [step] at h
    cases hb : commitBusiness w.ledger clock event with
    | none => simp [hb] at h
    | some ledger =>
      simp only [hb, Option.some.injEq] at h
      rw [← h]
      exact account_of_event hs hprices hb
  · have hquiet : ∀ m, openedBy w w' m a = none := by
      intro m
      cases a with
      | business event clock => exact absurd ⟨event, clock, rfl⟩ hevent
      | _ => rfl
    have hkeeps : Sound w'.ledger ∧ ∀ m, accountedCents w'.ledger m = accountedCents w.ledger m ∧
        accountedVatCents w'.ledger m = accountedVatCents w.ledger m := by
      rcases step_commits h with he | ⟨t, ht, hc⟩
      · rw [he]
        exact ⟨hs, fun _ => ⟨rfl, rfl⟩⟩
      · apply commit_keeps_account hs hc
        rintro event clock rfl
        exact hevent ⟨event, clock, transactionOf_business ht⟩
    refine ⟨hkeeps.1, ?_⟩
    intro m
    rw [hquiet m]
    simpa using hkeeps.2 m

theorem pricing_of_step {a : Action} (h : step w a = some w') :
    ∀ p ∈ w.ledger.pricing, p ∈ w'.ledger.pricing := by
  rcases step_commits h with he | ⟨t, _, hc⟩
  · rw [he]
    exact fun _ hp => hp
  · exact pricing_of_commit hc

theorem pricing_of_run {actions : List Action} (hrun : run step w actions = some w') :
    ∀ p ∈ w.ledger.pricing, p ∈ w'.ledger.pricing := by
  induction actions generalizing w with
  | nil =>
    cases hrun
    exact fun _ hp => hp
  | cons a actions ih =>
    unfold run at hrun
    cases hstep : step w a with
    | none => simp [hstep] at hrun
    | some next =>
      simp only [hstep] at hrun
      exact fun p hp => ih hrun p (pricing_of_step hstep p hp)

/-- Along a run the account grows by what the opened periods cost. -/
theorem account_of_run {actions : List Action} (hs : Sound w.ledger)
    (hrun : run step w actions = some w')
    (hprices : ∀ p ∈ w'.ledger.pricing, 0 ≤ p.membershipAnnualCents) (m : MerchantId) :
    accountedCents w'.ledger m = accountedCents w.ledger m
        +((periodsOpened m w actions).map fun p => p.priceCents+p.vatCents).sum ∧
      accountedVatCents w'.ledger m = accountedVatCents w.ledger m
        +((periodsOpened m w actions).map fun p => p.vatCents).sum := by
  induction actions generalizing w with
  | nil =>
    cases hrun
    simp [periodsOpened]
  | cons a actions ih =>
    have hkept := pricing_of_run hrun
    unfold run at hrun
    cases hstep : step w a with
    | none => simp [hstep] at hrun
    | some next =>
      simp only [hstep] at hrun
      obtain ⟨hsound, haccount⟩ := account_of_step hs (fun p hp => hprices p (hkept p hp)) hstep
      obtain ⟨hcents, hvat⟩ := haccount m
      obtain ⟨hrest, hrestVat⟩ := ih hsound hrun
      simp only [periodsOpened, hstep, List.map_append, List.sum_append]
      constructor <;> omega

theorem sound_of_initial (h : Initial w) : Sound w.ledger := by
  constructor
  · intro sub hsub
    rw [h.ledger.subscriptions] at hsub
    cases hsub
  · intro sub hsub
    rw [h.ledger.subscriptions] at hsub
    cases hsub
  · intro b hb
    rw [h.ledger.batches] at hb
    cases hb
  · intro b hb
    rw [h.ledger.batches] at hb
    cases hb

/-- Nothing is accounted for before the first period. -/
theorem account_of_initial (h : Initial w) (m : MerchantId) :
    accountedCents w.ledger m = 0 ∧ accountedVatCents w.ledger m = 0 := by
  rw [accountedCents, accountedVatCents, accounted, accounted, stored, stored, stored, stored,
    overBatches, overBatches, h.ledger.subscriptions, h.ledger.batches]
  exact ⟨rfl, rfl⟩

end Runs

/-- In every state that the services reach, what is open, written off and
offset of a merchant's membership is the price plus VAT of all the periods its
subscription opened, and likewise for the VAT portions. -/
theorem membership_debt_conserved {w₀ w : World} {actions : List Action} (hinit : Initial w₀)
    (hrun : run step w₀ actions = some w)
    (hprices : ∀ p ∈ w.ledger.pricing, 0 ≤ p.membershipAnnualCents) (merchantId : MerchantId) :
    stored w.ledger merchantId (·.outstandingCents)
        +stored w.ledger merchantId (·.writtenOffCents)
        +overBatches w.ledger merchantId (·.membershipOffsetCents) =
      ((periodsOpened merchantId w₀ actions).map fun p => p.priceCents+p.vatCents).sum ∧
    stored w.ledger merchantId (·.outstandingVatCents)
        +stored w.ledger merchantId (·.writtenOffVatCents)
        +overBatches w.ledger merchantId (·.membershipOffsetVatCents) =
      ((periodsOpened merchantId w₀ actions).map fun p => p.vatCents).sum := by
  obtain ⟨hcents, hvat⟩ := account_of_run (sound_of_initial hinit) hrun hprices merchantId
  obtain ⟨hzero, hzeroVat⟩ := account_of_initial hinit merchantId
  rw [hzero, zero_add] at hcents
  rw [hzeroVat, zero_add] at hvat
  exact ⟨hcents, hvat⟩

/-- A membership, a settled sale, the renewal after a year and another sale. -/
def renewedOnce : List Action :=
  .business (.scheduleFuturePricing ⟨100, 10000, noonOf 100⟩) (noonOf 99)
    :: .business (.createForApprovedMerchant 1 (noonOf 100)) (noonOf 100)
    :: sell 1 101 5000 ++ runNight (noonOf 102) 1
    ++ [.business (.renewOneLocked 1) (noonOf 470)]
    ++ sell 2 471 3000 ++ runNight (noonOf 472) 2

theorem membership_debt_conserved_renewedOnce :
    ∃ w, run step (sampleWorld 500) renewedOnce = some w ∧
      stored w.ledger 1 (·.outstandingCents)+stored w.ledger 1 (·.writtenOffCents)
          +overBatches w.ledger 1 (·.membershipOffsetCents) = 24000 ∧
        stored w.ledger 1 (·.outstandingVatCents)+stored w.ledger 1 (·.writtenOffVatCents)
          +overBatches w.ledger 1 (·.membershipOffsetVatCents) = 4000 := by
  have hprices : ∀ w ∈ run step (sampleWorld 500) renewedOnce, ∀ p ∈ w.ledger.pricing,
      0 ≤ p.membershipAnnualCents := by decide +kernel
  have hcosts : ((periodsOpened 1 (sampleWorld 500) renewedOnce).map
        fun p => p.priceCents+p.vatCents).sum = 24000 ∧
      ((periodsOpened 1 (sampleWorld 500) renewedOnce).map fun p => p.vatCents).sum = 4000 := by
    decide +kernel
  obtain ⟨w, hw⟩ := Option.isSome_iff_exists.mp
    (by decide +kernel : (run step (sampleWorld 500) renewedOnce).isSome)
  have h := membership_debt_conserved (sampleWorld_initial 500) hw (hprices w hw) 1
  rw [hcosts.1, hcosts.2] at h
  exact ⟨w, hw, h⟩

end Kurtar.MembershipDebt

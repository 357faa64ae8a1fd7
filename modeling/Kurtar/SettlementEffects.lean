import Kurtar.SettlementPass

/-!
# What each transaction does to the ledger

One inversion for all transactions. A committed transaction creates an empty
batch, commits a pass, flips the status of one batch without touching its
amounts, commits a business event away from the settlement rows, or changes
nothing. Every ledger invariant is proved by cases on `Effect`.
-/

namespace Kurtar.SettlementEffects

open KeyedTable GuardedRuns StatusTransitions IstanbulCalendar SettlementMath SettlementLedger
open SettlementRecompute SettlementTransactions SettlementPass

/-- The guarded status changes of one batch. -/
inductive Flip : Transaction → Batch → Batch → Prop
  | approve {b : Batch} (h : b.status = .calculated) :
    Flip (.approve b.id) b { b with status := .approved }
  | hold {b : Batch} {reason : String} (h : b.status = .calculated ∨ b.status = .approved)
      (hp : b.payoutAttemptedAt = none) :
    Flip (.hold b.id reason) b { b with status := .held, holdReason := some reason }
  | stampPayout {b : Batch} {clock : Instant} (h : b.status = .approved)
      (hp : b.payoutAttemptedAt = none) :
    Flip (.stampPayout b.id clock) b { b with payoutAttemptedAt := some clock }
  | markSent {b : Batch} {ref : String} {clock : Instant} (h : b.status = .approved) :
    Flip (.markSent b.id ref clock) b
      { b with status := .sent, pspTransferRef := some ref, sentAt := some clock }
  | markSettled {b : Batch} {reference : Option String} {now : Instant} (h : b.status = .sent) :
    Flip (.markSettled b.id reference now) b
      { b with status := .settled, settledAt := some now, settlementReference := reference }

/-- A flip keeps the identity, the amounts and the pin of a batch. -/
theorem Flip.keeps {t : Transaction} {b b' : Batch} (h : Flip t b b') :
    b' = { b with
      status := b'.status
      payoutAttemptedAt := b'.payoutAttemptedAt
      holdReason := b'.holdReason
      pspTransferRef := b'.pspTransferRef
      sentAt := b'.sentAt
      settledAt := b'.settledAt
      settlementReference := b'.settlementReference } := by
  cases h <;> rfl

/-- A paid-out batch stays paid out. -/
theorem Flip.paidOut {t : Transaction} {b b' : Batch} (h : Flip t b b')
    (hp : paidOut b.status) : paidOut b'.status := by
  unfold SettlementLedger.paidOut at hp ⊢
  cases h with
  | approve hs => simp [hs] at hp
  | hold hs _ => rcases hs with hs | hs <;> simp [hs] at hp
  | stampPayout hs _ => simp [hs] at hp
  | markSent _ => exact Or.inl rfl
  | markSettled _ => exact Or.inr rfl

/-- The effect of a committed transaction. -/
inductive Effect (l : Ledger) : Transaction → Ledger → Prop
  | unchanged (t : Transaction) : Effect l t l
  | created {merchantId : MerchantId} {dayKey : DateKey} {freshId : BatchId} {clock : Instant}
      (hfresh : ∀ b ∈ l.batches.rows, b.id ≠ freshId) :
    Effect l (.createOrExtend merchantId dayKey freshId clock)
      { l with
        batches := l.batches.insertNew
          (newBatch merchantId (offerDateToDbDate dayKey) freshId clock) }
  | passed {batchId : BatchId} {now clock : Instant} {pendingLines : List PendingSettlementLine}
      {batch row : Batch} {pass : RecomputePass} {l' : Ledger}
      (h : CommittedPass l batchId now pendingLines clock batch pass l' row) :
    Effect l (.recompute batchId now pendingLines clock) l'
  | flipped {t : Transaction} {old new : Batch} {l' : Ledger} (hflip : Flip t old new)
      (hrep : Table.Replaces l.batches l'.batches old new)
      (hrest : l' = { l with batches := l'.batches }) : Effect l t l'
  | business {event : BusinessEvent} {clock : Instant} {l' : Ledger}
      (hframe : l'.batches = l.batches ∧ l'.lines = l.lines ∧ l'.allocations = l.allocations ∧
        l'.claims = l.claims) : Effect l (.business event clock) l'

theorem updateBatch_eq_some {l l' : Ledger} {batchId : BatchId} {guard : Batch → Prop}
    [DecidablePred guard] {f : Batch → Batch} {hf : ∀ b, (f b).id = b.id}
    (h : updateBatch l batchId guard f hf = some l') :
    ∃ b, b.id = batchId ∧ guard b ∧ Table.Replaces l.batches l'.batches b (f b) ∧
      l' = { l with batches := l'.batches } := by
  unfold updateBatch at h
  split_ifs at h with hex
  obtain ⟨b, hb, hid, hg⟩ := hex
  cases h
  refine ⟨b, hid, hg, ?_, rfl⟩
  have hrep := l.batches.replaces_updateMany (fun b => b.id = batchId ∧ guard b) f hf hb
    ⟨hid, hg⟩ fun r hr => hr.1.trans hid.symm
  exact hrep

/-- Business events stay away from batches, lines, allocations and claims. -/
theorem commitBusiness_frame {l l' : Ledger} {clock : Instant} {event : BusinessEvent}
    (h : commitBusiness l clock event = some l') :
    l'.batches = l.batches ∧ l'.lines = l.lines ∧ l'.allocations = l.allocations ∧
      l'.claims = l.claims := by
  cases event with
  | addMerchant merchant =>
    cases h
    exact ⟨rfl, rfl, rfl, rfl⟩
  | editBagFeeOverride merchantId override =>
    cases h
    exact ⟨rfl, rfl, rfl, rfl⟩
  | grantExemption merchantId untilDate =>
    cases h
    exact ⟨rfl, rfl, rfl, rfl⟩
  | scheduleFuturePricing pricing =>
    simp only [commitBusiness] at h
    split_ifs at h
    cases h
    exact ⟨rfl, rfl, rfl, rfl⟩
  | createForApprovedMerchant merchantId approvedAt =>
    simp only [commitBusiness, createSubscription] at h
    repeat' split at h
    all_goals cases h <;> exact ⟨rfl, rfl, rfl, rfl⟩
  | renewOneLocked merchantId =>
    simp only [commitBusiness, renewSubscription] at h
    repeat' split at h
    all_goals cases h <;> exact ⟨rfl, rfl, rfl, rfl⟩
  | reserve reservation =>
    simp only [commitBusiness] at h
    split_ifs at h
    cases h
    exact ⟨rfl, rfl, rfl, rfl⟩
  | redeem reservationId =>
    simp only [commitBusiness, updateReservation] at h
    split_ifs at h
    cases h
    exact ⟨rfl, rfl, rfl, rfl⟩
  | markNoShow reservationId =>
    simp only [commitBusiness, updateReservation] at h
    split_ifs at h
    cases h
    exact ⟨rfl, rfl, rfl, rfl⟩
  | setPayment reservationId status refunds =>
    simp only [commitBusiness, updateReservation] at h
    split_ifs at h
    cases h
    exact ⟨rfl, rfl, rfl, rfl⟩

/-- Every committed transaction has one of the listed effects. -/
theorem commit_effect {l l' : Ledger} {t : Transaction} (h : commit l t = some l') :
    Effect l t l' := by
  cases t with
  | createOrExtend merchantId dayKey freshId clock =>
    simp only [commit, findOrCreateBatch] at h
    cases ho : findOpenBatch l merchantId (offerDateToDbDate dayKey) with
    | some batch =>
      simp only [ho, Option.map_some, Option.some.injEq] at h
      rw [← h]
      exact .unchanged _
    | none =>
      simp only [ho] at h
      split_ifs at h with hfresh
      · cases h
        exact .created (Table.find?_eq_none.mp hfresh)
      · simp at h
  | recompute batchId now pendingLines clock =>
    simp only [commit] at h
    cases hr : recomputeBatch l batchId now pendingLines clock with
    | error e => simp [hr] at h
    | ok result =>
      simp only [hr, Option.some.injEq] at h
      obtain ⟨stored, row⟩ := result
      obtain ⟨batch, _, ⟨_, hl, _⟩ | ⟨pass, hp⟩⟩ := recomputeBatch_eq_ok hr
      · rw [← h, hl]
        exact .unchanged _
      · rw [← h]
        exact .passed hp
  | approve batchId =>
    obtain ⟨b, rfl, hg, hrep, hrest⟩ := updateBatch_eq_some h
    rw [allowedSettlementFrom_approved, List.mem_singleton] at hg
    exact .flipped (.approve hg) hrep hrest
  | hold batchId holdReason =>
    obtain ⟨b, rfl, ⟨hg, hp⟩, hrep, hrest⟩ := updateBatch_eq_some h
    rw [allowedSettlementFrom_held] at hg
    exact .flipped (.hold (by simpa using hg) hp) hrep hrest
  | stampPayout batchId clock =>
    obtain ⟨b, rfl, ⟨hg, hp⟩, hrep, hrest⟩ := updateBatch_eq_some h
    exact .flipped (.stampPayout hg hp) hrep hrest
  | markSent batchId pspTransferRef clock =>
    obtain ⟨b, rfl, hg, hrep, hrest⟩ := updateBatch_eq_some h
    rw [allowedSettlementFrom_sent, List.mem_singleton] at hg
    exact .flipped (.markSent hg) hrep hrest
  | markSettled batchId settlementReference now =>
    obtain ⟨b, rfl, hg, hrep, hrest⟩ := updateBatch_eq_some h
    rw [allowedSettlementFrom_settled, List.mem_singleton] at hg
    exact .flipped (.markSettled hg) hrep hrest
  | business event clock => exact .business (commitBusiness_frame h)

/-- Batches are never removed and keep their merchant, creation and period. -/
theorem commit_keeps {l l' : Ledger} {t : Transaction} (h : commit l t = some l') {b : Batch}
    (hb : b ∈ l.batches.rows) : ∃ b' ∈ l'.batches.rows, b'.id = b.id ∧
      b'.merchantId = b.merchantId ∧ b'.createdAt = b.createdAt ∧
      b'.periodStart = b.periodStart := by
  cases commit_effect h with
  | unchanged => exact ⟨b, hb, rfl, rfl, rfl, rfl⟩
  | created => exact ⟨b, Table.mem_insertNew.mpr (Or.inl hb), rfl, rfl, rfl, rfl⟩
  | @passed _ _ _ _ batch row _ _ hp =>
    by_cases hk : b.id = batch.id
    · rw [l.batches.eq_of_key_eq hb hp.batch_mem hk]
      obtain ⟨hm, hc, hs, _⟩ := hp.row_columns
      exact ⟨row, hp.replaces.mem_new, hp.replaces.key_new, hm, hc, hs⟩
    · exact ⟨b, hp.replaces.mem_of_ne hb hk, rfl, rfl, rfl, rfl⟩
  | @flipped _ old new _ hflip hrep _ =>
    by_cases hk : b.id = old.id
    · have hkeeps := hflip.keeps
      rw [l.batches.eq_of_key_eq hb hrep.mem_old hk]
      exact ⟨new, hrep.mem_new, hrep.key_new, by rw [hkeeps], by rw [hkeeps], by rw [hkeeps]⟩
    · exact ⟨b, hrep.mem_of_ne hb hk, rfl, rfl, rfl, rfl⟩
  | business hframe =>
    rw [hframe.1]
    exact ⟨b, hb, rfl, rfl, rfl, rfl⟩

end Kurtar.SettlementEffects

import Kurtar.CarriedDemandCollection

/-!
# The amount transferred and the amount recorded

The payout reads a batch, stamps it, asks the provider for the amount it
read and marks the batch sent. The stamp freezes the stored amount for good,
so the provider is never asked about a batch that can still change. But the
stamp does not compare the stored amount with the one that was read, and the
path of a zero amount marks a batch sent without any stamp. When both steps
meet the amount that was read, what the provider moved is what sent batches
record.
-/

namespace Kurtar.PayoutExecution

open KeyedTable GuardedRuns StatusTransitions IstanbulCalendar SettlementMath SettlementLedger
open SettlementRecompute SettlementTransactions SettlementService SettlementPass
open SettlementEffects

/-- The reference under which a zero amount is marked sent. -/
def zeroNetTransferRef : String := "no-transfer-zero-net"

/-- What the provider moved under a batch's reference. -/
def movedCents (w : World) (b : BatchId) : ℤ :=
  (w.transfers.map fun t => if t.ref = b then t.amountCents else 0).sum

/-- A stored batch whose payout was attempted. -/
def Stamped (l : Ledger) (b : BatchId) : Prop :=
  ∃ row ∈ l.batches.rows, row.id = b ∧ row.payoutAttemptedAt ≠ none

/-- A stored batch whose payout was attempted, with its amount. -/
def Recorded (l : Ledger) (b : BatchId) (amountCents : ℤ) : Prop :=
  ∃ row ∈ l.batches.rows, row.id = b ∧ row.payoutAttemptedAt ≠ none ∧
    row.netPayoutCents = amountCents

/-- The tasks that ask the provider or mark a batch sent. -/
def Paying : Task → Prop
  | .payoutCall _ _ | .markSent _ _ => True
  | _ => False

/-- What one step does to the payouts; `task` is the resumed task, if any. -/
inductive PayoutEffect (w w' : World) : Option Task → Prop
  | other {task : Option Task}
      (hledger : w'.ledger = w.ledger ∨ ∃ t, commit w.ledger t = some w'.ledger ∧
        ∀ b ref clock, t ≠ .markSent b ref clock)
      (hrecord : w'.transfers = w.transfers ∧ w'.payoutRequests = w.payoutRequests)
      (htasks : ∀ next ∈ w'.tasks, Paying next → next ∈ w.tasks) : PayoutEffect w w' task
  | read {batchId : BatchId} {batch : Batch} {next : Task} (hbatch : batch ∈ w.ledger.batches.rows)
      (hnext : (∃ ref, next = .payoutCall batch ref ∧ batch.payoutAttemptedAt ≠ none) ∨
        next = .markSent batch.id zeroNetTransferRef)
      (hw : w' = w.spawn next) : PayoutEffect w w' (some (.executeOne batchId))
  | stamped {batch : Batch} {merchantRef : String} {clock : Instant} {ledger : Ledger}
      (hcommit : stampPayoutAttempt w.ledger batch.id clock = some ledger)
      (hw : w' = (w.withLedger ledger).spawn (.payoutCall batch merchantRef)) :
    PayoutEffect w w' (some (.payoutStamp batch merchantRef))
  | asked {batch : Batch} {merchantRef : String}
      (hledger : w'.ledger = w.ledger)
      (hrequests : w'.payoutRequests = (batch.id, batch.netPayoutCents) :: w.payoutRequests)
      (htransfers : w'.transfers = w.transfers ∨ ∃ freshRef,
        w'.transfers = (acceptPayout w.transfers batch.id merchantRef batch.netPayoutCents
          freshRef).1)
      (htasks : w'.tasks = w.tasks ∨ (∃ t ∈ w'.transfers, t.ref = batch.id) ∧
        ∃ ref, w'.tasks = .markSent batch.id ref :: w.tasks) :
    PayoutEffect w w' (some (.payoutCall batch merchantRef))
  | sent {batchId : BatchId} {ref : String} {clock : Instant}
      (hcommit : markBatchSent w.ledger batchId ref clock = some w'.ledger)
      (hrecord : w'.transfers = w.transfers ∧ w'.payoutRequests = w.payoutRequests)
      (htasks : w'.tasks = w.tasks) : PayoutEffect w w' (some (.markSent batchId ref))

/-- A ledger change that commits anything but a send. -/
theorem hledger_of_commits {l l' : Ledger} {tx : Option Transaction} (h : Commits l l' tx)
    (hno : ∀ b ref clock, tx ≠ some (.markSent b ref clock)) :
    l' = l ∨ ∃ t, commit l t = some l' ∧ ∀ b ref clock, t ≠ .markSent b ref clock := by
  rcases h with h | ⟨t, htx, hc⟩
  · exact Or.inl h
  · exact Or.inr ⟨t, hc, fun b ref clock ht => hno b ref clock (htx.trans (congrArg some ht))⟩

/-- Starting a procedure that does not pay adds no paying task. -/
theorem paying_of_spawn {tasks : List Task} {next t : Task} (hnext : ¬ Paying next)
    (ht : t ∈ next :: tasks) (hp : Paying t) : t ∈ tasks := by
  rcases List.mem_cons.mp ht with rfl | ht
  · exact absurd hp hnext
  · exact ht

/-- The provider records a transfer for the reference it was asked for. -/
theorem acceptPayout_has (transfers : List Transfer) (ref : BatchId) (merchantRef : String)
    (amountCents : ℤ) (freshRef : String) :
    ∃ t ∈ (acceptPayout transfers ref merchantRef amountCents freshRef).1, t.ref = ref := by
  unfold acceptPayout
  cases hf : transfers.find? fun t => t.ref = ref with
  | none => exact ⟨_, List.mem_cons_self, rfl⟩
  | some t =>
    have hp := List.find?_some hf
    exact ⟨t, List.mem_of_find?_eq_some hf, by simpa using hp⟩

/-- The transfers after a request: the old ones, and at most one of the amount asked for. -/
theorem mem_acceptPayout {transfers : List Transfer} {ref : BatchId} {merchantRef : String}
    {amountCents : ℤ} {freshRef : String} {t : Transfer}
    (h : t ∈ (acceptPayout transfers ref merchantRef amountCents freshRef).1) :
    t ∈ transfers ∨ t.ref = ref ∧ t.amountCents = amountCents := by
  unfold acceptPayout at h
  cases hf : transfers.find? fun t => t.ref = ref with
  | none =>
    simp only [hf] at h
    rcases List.mem_cons.mp h with rfl | h
    · exact Or.inr ⟨rfl, rfl⟩
    · exact Or.inl h
  | some existing =>
    simp only [hf] at h
    exact Or.inl h

theorem subset_acceptPayout (transfers : List Transfer) (ref : BatchId) (merchantRef : String)
    (amountCents : ℤ) (freshRef : String) :
    transfers ⊆ (acceptPayout transfers ref merchantRef amountCents freshRef).1 := by
  unfold acceptPayout
  split
  · exact List.Subset.refl transfers
  · exact List.subset_cons_self _ transfers

theorem acceptPayout_distinct {transfers : List Transfer} {ref : BatchId} {merchantRef : String}
    {amountCents : ℤ} {freshRef : String} (h : (transfers.map (·.ref)).Nodup) :
    ((acceptPayout transfers ref merchantRef amountCents freshRef).1.map (·.ref)).Nodup := by
  unfold acceptPayout
  cases hf : transfers.find? fun t => t.ref = ref with
  | none =>
    rw [List.find?_eq_none] at hf
    refine List.nodup_cons.mpr ⟨?_, h⟩
    rw [List.mem_map]
    rintro ⟨t, ht, hr⟩
    exact absurd hr (by simpa using hf t ht)
  | some existing => exact h

/-- The steps of the nightly cycle, of approval and of retry stay away from payouts. -/
theorem resumeTask_frame {w w' : World} {task : Task} {input : StepInput}
    (h : resumeTask w task input = some w') (hpay : ¬ Paying task)
    (hexecute : ∀ b, task ≠ .executeOne b) (hstamp : ∀ b r, task ≠ .payoutStamp b r) :
    w'.transfers = w.transfers ∧ w'.payoutRequests = w.payoutRequests ∧
      ∀ next ∈ w'.tasks, Paying next → next ∈ w.tasks := by
  cases task with
  | executeOne b => exact absurd rfl (hexecute b)
  | payoutStamp b r => exact absurd rfl (hstamp b r)
  | payoutCall => exact absurd trivial hpay
  | markSent => exact absurd trivial hpay
  | _ =>
    simp only [resumeTask, nightlyGroups, nightlyRecompute, nightlySweep, nightlySweepCreate,
      nightlySweepRecompute, approveRecompute, approveFlip, retryRecompute] at h
    repeat' split at h
    all_goals cases h
    all_goals
      first
      | exact ⟨rfl, rfl, fun _ ht _ => ht⟩
      | exact ⟨rfl, rfl, fun _ ht hp => paying_of_spawn id ht hp⟩

section TaskEffects

variable {w w' : World} {input : StepInput}

theorem executeOne_effect {batchId : BatchId} (h : executeOne w batchId = some w') :
    PayoutEffect w w' (some (.executeOne batchId)) := by
  unfold executeOne at h
  cases hf : w.ledger.batches.find? batchId with
  | none =>
    simp only [hf, Option.some.injEq] at h
    rw [← h]
    exact .other (Or.inl rfl) ⟨rfl, rfl⟩ fun _ ht _ => ht
  | some batch =>
    have hbatch := (Table.find?_eq_some.mp hf).1
    simp only [hf] at h
    cases hm : w.ledger.merchants.find? batch.merchantId with
    | none =>
      simp only [hm, Option.some.injEq] at h
      rw [← h]
      exact .other (Or.inl rfl) ⟨rfl, rfl⟩ fun _ ht _ => ht
    | some merchant =>
      simp only [hm] at h
      split_ifs at h with _ _ hstamp
      · cases h
        exact .other (Or.inl rfl) ⟨rfl, rfl⟩ fun _ ht _ => ht
      · cases h
        exact .read hbatch (Or.inr rfl) rfl
      · cases h
        exact .other (Or.inl rfl) ⟨rfl, rfl⟩ fun _ ht hp => paying_of_spawn id ht hp
      · cases h
        exact .read hbatch (Or.inl ⟨_, rfl, hstamp⟩) rfl

theorem payoutStamp_effect {batch : Batch} {merchantRef : String}
    (h : payoutStamp w batch merchantRef input = some w') :
    PayoutEffect w w' (some (.payoutStamp batch merchantRef)) := by
  unfold payoutStamp at h
  cases hs : stampPayoutAttempt w.ledger batch.id input.clock with
  | none =>
    simp only [hs, Option.some.injEq] at h
    rw [← h]
    exact .other (Or.inl rfl) ⟨rfl, rfl⟩ fun _ ht _ => ht
  | some ledger =>
    simp only [hs, Option.some.injEq] at h
    exact .stamped hs h.symm

theorem payoutCall_effect {batch : Batch} {merchantRef : String}
    (h : payoutCall w batch merchantRef input = some w') :
    PayoutEffect w w' (some (.payoutCall batch merchantRef)) := by
  unfold payoutCall at h
  cases hp : input.provider with
  | answered freshRef =>
    simp only [hp, Option.some.injEq] at h
    rw [← h]
    exact .asked rfl rfl (Or.inr ⟨freshRef, rfl⟩) (Or.inr ⟨acceptPayout_has _ _ _ _ _, _, rfl⟩)
  | answerLost freshRef =>
    simp only [hp, Option.some.injEq] at h
    rw [← h]
    exact .asked rfl rfl (Or.inr ⟨freshRef, rfl⟩) (Or.inl rfl)
  | failed =>
    simp only [hp, Option.some.injEq] at h
    rw [← h]
    exact .asked rfl rfl (Or.inl rfl) (Or.inl rfl)

theorem markSent_effect {batchId : BatchId} {pspTransferRef : String}
    (h : markSent w batchId pspTransferRef input = some w') :
    PayoutEffect w w' (some (.markSent batchId pspTransferRef)) := by
  unfold markSent at h
  cases hm : markBatchSent w.ledger batchId pspTransferRef input.clock with
  | none =>
    simp only [hm, Option.some.injEq] at h
    rw [← h]
    exact .other (Or.inl rfl) ⟨rfl, rfl⟩ fun _ ht _ => ht
  | some ledger =>
    cases hf : ledger.batches.find? batchId with
    | none => simp [hm, hf] at h
    | some fresh =>
      simp only [hm, hf, Option.some.injEq] at h
      rw [← h]
      exact .sent hm ⟨rfl, rfl⟩ rfl

end TaskEffects

theorem resumeTask_effect {w w' : World} {task : Task} {input : StepInput}
    (h : resumeTask w task input = some w') : PayoutEffect w w' (some task) := by
  have hcommits := resumeTask_commits h
  cases task with
  | executeOne batchId => exact executeOne_effect h
  | payoutStamp batch merchantRef => exact payoutStamp_effect h
  | payoutCall batch merchantRef => exact payoutCall_effect h
  | markSent batchId pspTransferRef => exact markSent_effect h
  | _ =>
    obtain ⟨htransfers, hrequests, htasks⟩ := resumeTask_frame h id (by simp) (by simp)
    exact .other (hledger_of_commits hcommits (by simp [taskTransaction]))
      ⟨htransfers, hrequests⟩ htasks

/-- Every step has one of the listed effects; a resumed task leaves the queue. -/
theorem step_effect {w w' : World} {a : Action} (h : step w a = some w') :
    PayoutEffect w w' none ∨ ∃ index input task, a = .resume index input ∧
      w.tasks[index]? = some task ∧
      PayoutEffect { w with tasks := w.tasks.eraseIdx index } w' (some task) := by
  have hcommits := step_commits h
  cases a with
  | resume index input =>
    simp only [step] at h
    cases ht : w.tasks[index]? with
    | none => simp [ht] at h
    | some task =>
      simp only [ht] at h
      exact Or.inr ⟨index, input, task, rfl, ht, resumeTask_effect h⟩
  | _ =>
    have hframe : w'.transfers = w.transfers ∧ w'.payoutRequests = w.payoutRequests ∧
        ∀ next ∈ w'.tasks, Paying next → next ∈ w.tasks := by
      simp only [step, adminApprove, adminHold, adminRetry, adminMarkSettled] at h
      repeat' split at h
      all_goals cases h
      all_goals
        first
        | exact ⟨rfl, rfl, fun _ ht _ => ht⟩
        | exact ⟨rfl, rfl, fun _ ht hp => paying_of_spawn id ht hp⟩
    exact Or.inl (.other (hledger_of_commits hcommits (by simp [transactionOf]))
      ⟨hframe.1, hframe.2.1⟩ hframe.2.2)

/-- A stamped batch keeps its stamp and its amount, and stays paid out. -/
theorem commit_keeps_stamped {l l' : Ledger} {t : Transaction} (h : commit l t = some l')
    {b : Batch} (hb : b ∈ l.batches.rows) (hs : b.payoutAttemptedAt ≠ none) :
    ∃ b' ∈ l'.batches.rows, b'.id = b.id ∧ b'.payoutAttemptedAt ≠ none ∧
      b'.netPayoutCents = b.netPayoutCents := by
  cases commit_effect h with
  | unchanged => exact ⟨b, hb, rfl, hs, rfl⟩
  | created => exact ⟨b, Table.mem_insertNew.mpr (Or.inl hb), rfl, hs, rfl⟩
  | @passed _ _ _ _ batch row _ _ hp =>
    refine ⟨b, hp.replaces.mem_of_ne hb ?_, rfl, hs, rfl⟩
    intro hk
    rw [l.batches.eq_of_key_eq hb hp.batch_mem hk] at hs
    exact hs hp.unattempted
  | @flipped _ old new _ hflip hrep _ =>
    by_cases hk : b.id = old.id
    · have he := l.batches.eq_of_key_eq hb hrep.mem_old hk
      subst he
      refine ⟨new, hrep.mem_new, hrep.key_new, ?_, by rw [hflip.keeps]⟩
      cases hflip with
      | stampPayout => simp
      | _ => exact hs
    · exact ⟨b, hrep.mem_of_ne hb hk, rfl, hs, rfl⟩
  | business hframe =>
    rw [hframe.1]
    exact ⟨b, hb, rfl, hs, rfl⟩

theorem Recorded.kept {w w' : World} {a : Action} (hstep : step w a = some w') {b : BatchId}
    {amountCents : ℤ} (h : Recorded w.ledger b amountCents) :
    Recorded w'.ledger b amountCents := by
  rcases step_commits hstep with he | ⟨t, _, hc⟩
  · rwa [he]
  · obtain ⟨row, hrow, hid, hs, hnet⟩ := h
    obtain ⟨row', hrow', hid', hs', hnet'⟩ := commit_keeps_stamped hc hrow hs
    exact ⟨row', hrow', hid'.trans hid, hs', hnet'.trans hnet⟩

theorem Recorded.stamped {l : Ledger} {b : BatchId} {amountCents : ℤ}
    (h : Recorded l b amountCents) : Stamped l b := by
  obtain ⟨row, hrow, hid, hs, _⟩ := h
  exact ⟨row, hrow, hid, hs⟩

theorem Stamped.recorded {l : Ledger} {b : BatchId} (h : Stamped l b) :
    ∃ amountCents, Recorded l b amountCents := by
  obtain ⟨row, hrow, hid, hs⟩ := h
  exact ⟨row.netPayoutCents, row, hrow, hid, hs, rfl⟩

theorem Stamped.kept {w w' : World} {a : Action} (hstep : step w a = some w') {b : BatchId}
    (h : Stamped w.ledger b) : Stamped w'.ledger b := by
  obtain ⟨_, hr⟩ := h.recorded
  exact (hr.kept hstep).stamped

/-- A successful stamp found the batch approved and left its amount alone. -/
theorem stampPayoutAttempt_eq_some {l l' : Ledger} {b : BatchId} {clock : Instant}
    (h : stampPayoutAttempt l b clock = some l') :
    ∃ row ∈ l.batches.rows, row.id = b ∧ row.status = .approved ∧ row.payoutAttemptedAt = none ∧
      Recorded l' b row.netPayoutCents := by
  obtain ⟨row, hid, ⟨hs, hp⟩, hrep, _⟩ := updateBatch_eq_some h
  refine ⟨row, hrep.mem_old, hid, hs, hp, _, hrep.mem_new, hid, by simp, rfl⟩

/-- Only a send makes a batch paid out. -/
theorem paidOut_of_commit {l l' : Ledger} {t : Transaction} (h : commit l t = some l')
    (hno : ∀ b ref clock, t ≠ .markSent b ref clock) {b' : Batch} (hb' : b' ∈ l'.batches.rows)
    (hp : paidOut b'.status) : ∃ b ∈ l.batches.rows, b.id = b'.id ∧ paidOut b.status ∧
      b.netPayoutCents = b'.netPayoutCents := by
  cases commit_effect h with
  | unchanged => exact ⟨b', hb', rfl, hp, rfl⟩
  | created =>
    rcases Table.mem_insertNew.mp hb' with hb | ⟨rfl, _⟩
    · exact ⟨b', hb, rfl, hp, rfl⟩
    · simp [paidOut, newBatch] at hp
  | @passed _ _ _ _ _ row _ _ hpass =>
    rcases hpass.replaces.mem_iff.mp hb' with rfl | ⟨hb, _⟩
    · rcases Batch.recomputable_iff.mp hpass.row_recomputable with hr | hr <;>
        simp [paidOut, hr] at hp
    · exact ⟨b', hb, rfl, hp, rfl⟩
  | @flipped _ old new _ hflip hrep _ =>
    rcases hrep.mem_iff.mp hb' with rfl | ⟨hb, _⟩
    · have hid := hrep.key_new
      cases hflip with
      | approve _ => simp [paidOut] at hp
      | hold _ _ => simp [paidOut] at hp
      | stampPayout hs _ => simp [paidOut, hs] at hp
      | @markSent _ ref clock _ => exact absurd rfl (hno old.id ref clock)
      | markSettled hs => exact ⟨old, hrep.mem_old, rfl, Or.inl hs, rfl⟩
    · exact ⟨b', hb, rfl, hp, rfl⟩
  | business hframe =>
    rw [hframe.1] at hb'
    exact ⟨b', hb', rfl, hp, rfl⟩

section Effects

variable {w w' : World} {task : Option Task} (he : PayoutEffect w w' task)

include he

/-- A request about to be made was waiting before, was read off a stamped batch
or follows the stamp of its batch. -/
theorem PayoutEffect.mem_calls {batch : Batch} {ref : String}
    (ht : .payoutCall batch ref ∈ w'.tasks) : .payoutCall batch ref ∈ w.tasks ∨
      Recorded w'.ledger batch.id batch.netPayoutCents ∨
      task = some (.payoutStamp batch ref) ∧ ∃ row ∈ w.ledger.batches.rows, row.id = batch.id ∧
        row.status = .approved ∧ row.payoutAttemptedAt = none ∧
          Recorded w'.ledger batch.id row.netPayoutCents := by
  cases he with
  | other _ _ htasks => exact Or.inl (htasks _ ht trivial)
  | read hbatch hnext hw =>
    subst hw
    rcases List.mem_cons.mp ht with heq | ht
    · rcases hnext with ⟨_, hcall, hs⟩ | hsend
      · cases heq.trans hcall
        exact Or.inr (Or.inl ⟨batch, hbatch, rfl, hs, rfl⟩)
      · cases heq.trans hsend
    · exact Or.inl ht
  | stamped hcommit hw =>
    subst hw
    rcases List.mem_cons.mp ht with heq | ht
    · cases heq
      exact Or.inr (Or.inr ⟨rfl, stampPayoutAttempt_eq_some hcommit⟩)
    · exact Or.inl ht
  | asked _ _ _ htasks =>
    rcases htasks with hsame | ⟨_, _, hcons⟩
    · exact Or.inl (hsame ▸ ht)
    · rw [hcons] at ht
      rcases List.mem_cons.mp ht with heq | ht
      · cases heq
      · exact Or.inl ht
  | sent _ _ htasks => exact Or.inl (htasks ▸ ht)

/-- Only the request step asks the provider, for the amount it carries. -/
theorem PayoutEffect.mem_requests {r : BatchId × ℤ} (hr : r ∈ w'.payoutRequests) :
    r ∈ w.payoutRequests ∨ ∃ batch ref, task = some (.payoutCall batch ref) ∧
      r = (batch.id, batch.netPayoutCents) := by
  cases he with
  | other _ hrecord _ => exact Or.inl (hrecord.2 ▸ hr)
  | read _ _ hw =>
    subst hw
    exact Or.inl hr
  | stamped _ hw =>
    subst hw
    exact Or.inl hr
  | @asked batch ref _ hrequests _ _ =>
    rw [hrequests] at hr
    rcases List.mem_cons.mp hr with heq | hr
    · exact Or.inr ⟨batch, ref, rfl, heq⟩
    · exact Or.inl hr
  | sent _ hrecord _ => exact Or.inl (hrecord.2 ▸ hr)

/-- The provider's record is the old one, or has accepted the request of the step. -/
theorem PayoutEffect.transfers_eq : w'.transfers = w.transfers ∨
    ∃ batch ref freshRef, task = some (.payoutCall batch ref) ∧
      w'.transfers =
        (acceptPayout w.transfers batch.id ref batch.netPayoutCents freshRef).1 := by
  cases he with
  | other _ hrecord _ => exact Or.inl hrecord.1
  | read _ _ hw =>
    subst hw
    exact Or.inl rfl
  | stamped _ hw =>
    subst hw
    exact Or.inl rfl
  | @asked batch ref _ _ htransfers _ =>
    rcases htransfers with hsame | ⟨freshRef, hacc⟩
    · exact Or.inl hsame
    · exact Or.inr ⟨batch, ref, freshRef, rfl, hacc⟩
  | sent _ hrecord _ => exact Or.inl hrecord.1

theorem PayoutEffect.mem_transfers {t : Transfer} (ht : t ∈ w'.transfers) : t ∈ w.transfers ∨
    ∃ batch ref, task = some (.payoutCall batch ref) ∧ t.ref = batch.id ∧
      t.amountCents = batch.netPayoutCents := by
  rcases he.transfers_eq with hsame | ⟨batch, ref, freshRef, heq, hacc⟩
  · exact Or.inl (hsame ▸ ht)
  · rw [hacc] at ht
    rcases mem_acceptPayout ht with hold | hnew
    · exact Or.inl hold
    · exact Or.inr ⟨batch, ref, heq, hnew⟩

theorem PayoutEffect.transfers_subset : w.transfers ⊆ w'.transfers := by
  rcases he.transfers_eq with hsame | ⟨_, _, _, _, hacc⟩
  · rw [hsame]
    exact List.Subset.refl _
  · rw [hacc]
    exact subset_acceptPayout _ _ _ _ _

theorem PayoutEffect.transfers_distinct (h : (w.transfers.map (·.ref)).Nodup) :
    (w'.transfers.map (·.ref)).Nodup := by
  rcases he.transfers_eq with hsame | ⟨_, _, _, _, hacc⟩
  · rw [hsame]
    exact h
  · rw [hacc]
    exact acceptPayout_distinct h

/-- A new send follows a transfer, unless it is for a zero amount. -/
theorem PayoutEffect.mem_sends {b : BatchId} {ref : String} (ht : .markSent b ref ∈ w'.tasks) :
    .markSent b ref ∈ w.tasks ∨ ref = zeroNetTransferRef ∨ ∃ t ∈ w'.transfers, t.ref = b := by
  cases he with
  | other _ _ htasks => exact Or.inl (htasks _ ht trivial)
  | read _ hnext hw =>
    subst hw
    rcases List.mem_cons.mp ht with heq | ht
    · rcases hnext with ⟨_, hcall, _⟩ | hsend
      · cases heq.trans hcall
      · cases heq.trans hsend
        exact Or.inr (Or.inl rfl)
    · exact Or.inl ht
  | stamped _ hw =>
    subst hw
    rcases List.mem_cons.mp ht with heq | ht
    · cases heq
    · exact Or.inl ht
  | asked _ _ _ htasks =>
    rcases htasks with hsame | ⟨hhas, _, hcons⟩
    · exact Or.inl (hsame ▸ ht)
    · rw [hcons] at ht
      rcases List.mem_cons.mp ht with heq | ht
      · cases heq
        exact Or.inr (Or.inr hhas)
      · exact Or.inl ht
  | sent _ _ htasks => exact Or.inl (htasks ▸ ht)

/-- A paid out batch was paid out before with the same amount, or is approved
and sent by this step. -/
theorem PayoutEffect.paidOut_origin {b' : Batch} (hb' : b' ∈ w'.ledger.batches.rows)
    (hp : paidOut b'.status) :
    (∃ b ∈ w.ledger.batches.rows, b.id = b'.id ∧ paidOut b.status ∧
      b.netPayoutCents = b'.netPayoutCents) ∨
    ∃ ref, task = some (.markSent b'.id ref) ∧ ∃ row ∈ w.ledger.batches.rows, row.id = b'.id ∧
      row.status = .approved ∧ row.netPayoutCents = b'.netPayoutCents := by
  cases he with
  | other hledger _ _ =>
    rcases hledger with hsame | ⟨t, hc, hno⟩
    · exact Or.inl ⟨b', hsame ▸ hb', rfl, hp, rfl⟩
    · exact Or.inl (paidOut_of_commit hc hno hb' hp)
  | read _ _ hw =>
    subst hw
    exact Or.inl ⟨b', hb', rfl, hp, rfl⟩
  | @stamped batch _ clock ledger hcommit hw =>
    subst hw
    have hc : commit w.ledger (.stampPayout batch.id clock) = some ledger := hcommit
    exact Or.inl (paidOut_of_commit hc (by simp) hb' hp)
  | asked hledger _ _ _ =>
    rw [hledger] at hb'
    exact Or.inl ⟨b', hb', rfl, hp, rfl⟩
  | @sent batchId ref clock hcommit _ _ =>
    obtain ⟨row, hid, hs, hrep, _⟩ := updateBatch_eq_some hcommit
    rw [allowedSettlementFrom_sent, List.mem_singleton] at hs
    rcases hrep.mem_iff.mp hb' with rfl | ⟨hb, _⟩
    · refine Or.inr ⟨ref, ?_, row, hrep.mem_old, rfl, hs, rfl⟩
      rw [← hid]
    · exact Or.inl ⟨b', hb, rfl, hp, rfl⟩

end Effects

section Asked

/-- The provider is asked about stamped batches only. -/
structure AskedStamped (w : World) : Prop where
  calls : ∀ batch ref, .payoutCall batch ref ∈ w.tasks → Stamped w.ledger batch.id
  requests : ∀ r ∈ w.payoutRequests, Stamped w.ledger r.1

theorem AskedStamped.of_effect {w w' : World} {task : Option Task} (h : AskedStamped w)
    (htask : ∀ t, task = some t → ∀ batch ref, t = .payoutCall batch ref →
      Stamped w.ledger batch.id)
    (hkept : ∀ b, Stamped w.ledger b → Stamped w'.ledger b) (he : PayoutEffect w w' task) :
    AskedStamped w' := by
  refine ⟨fun batch ref ht => ?_, fun r hr => ?_⟩
  · rcases he.mem_calls ht with hold | hread | ⟨_, _, _, _, _, _, hstamped⟩
    · exact hkept _ (h.calls batch ref hold)
    · exact hread.stamped
    · exact hstamped.stamped
  · rcases he.mem_requests hr with hold | ⟨batch, ref, hcall, rfl⟩
    · exact hkept _ (h.requests r hold)
    · exact hkept _ (htask _ hcall batch ref rfl)

theorem askedStamped_of_reachable {w : World} (h : ServiceReachable anyStep w) :
    AskedStamped w := by
  refine h.invariant ?_ ?_
  · intro w hi
    constructor <;> simp [hi.tasks, hi.payoutRequests]
  · intro w a w' hw _ ht
    rcases step_effect ht with he | ⟨index, input, task, _, hget, he⟩
    · exact hw.of_effect (by simp) (fun b hb => hb.kept ht) he
    · have hmem := List.mem_of_getElem? hget
      have herased : AskedStamped { w with tasks := w.tasks.eraseIdx index } :=
        ⟨fun batch ref hb => hw.calls batch ref (List.mem_of_mem_eraseIdx hb), hw.requests⟩
      refine herased.of_effect ?_ (fun b hb => hb.kept ht) he
      rintro t heq batch ref rfl
      cases heq
      exact hw.calls batch ref hmem

/-- Once the provider was asked about a batch, its amount never changes again. -/
theorem net_frozen_of_stamped {w w' : World} {b : BatchId} (hs : Stamped w.ledger b)
    (h : Reachable step anyStep (· = w) w') {row row' : Batch} (hrow : row ∈ w.ledger.batches.rows)
    (hid : row.id = b) (hrow' : row' ∈ w'.ledger.batches.rows) (hid' : row'.id = b) :
    row'.netPayoutCents = row.netPayoutCents := by
  have hrec : Recorded w'.ledger b row.netPayoutCents := by
    refine h.invariant (I := fun w' => Recorded w'.ledger b row.netPayoutCents) ?_ ?_
    · rintro w rfl
      obtain ⟨x, hx, hxid, hxs⟩ := hs
      have hxr := w.ledger.batches.eq_of_key_eq hx hrow (hxid.trans hid.symm)
      exact ⟨x, hx, hxid, hxs, by rw [hxr]⟩
    · intro w a w' hr _ ht
      exact hr.kept ht
  obtain ⟨x, hx, hxid, _, hnet⟩ := hrec
  rw [w'.ledger.batches.eq_of_key_eq hrow' hx (hid'.trans hxid.symm), hnet]

end Asked

/-- The condition on the steps. The stamp freezes the amount that was read, and
the path of a zero amount marks an approved batch sent only while its amount is
zero, or after the transfer of its amount. -/
def PaysWhatItRead (w : World) : Action → Prop
  | .resume index _ =>
    match w.tasks[index]? with
    | some (.payoutStamp batch _) => ∀ row ∈ w.ledger.batches.rows, row.id = batch.id →
        row.status = .approved → row.payoutAttemptedAt = none →
          row.netPayoutCents = batch.netPayoutCents
    | some (.markSent batchId ref) => ref = zeroNetTransferRef →
        ∀ row ∈ w.ledger.batches.rows, row.id = batchId → row.status = .approved →
          row.netPayoutCents = 0 ∨ ∃ t ∈ w.transfers, t.ref = batchId
    | _ => True
  | _ => True

instance (w : World) (a : Action) : Decidable (PaysWhatItRead w a) := by
  unfold PaysWhatItRead
  split
  · split <;> infer_instance
  · infer_instance

/-- The provider's record agrees with the stored amounts. -/
structure Paid (w : World) : Prop where
  calls : ∀ batch ref, .payoutCall batch ref ∈ w.tasks →
    Recorded w.ledger batch.id batch.netPayoutCents
  transfers : ∀ t ∈ w.transfers, Recorded w.ledger t.ref t.amountCents
  distinct : (w.transfers.map (·.ref)).Nodup
  sends : ∀ b ref, .markSent b ref ∈ w.tasks →
    ref = zeroNetTransferRef ∨ ∃ t ∈ w.transfers, t.ref = b
  sent : ∀ b ∈ w.ledger.batches.rows, paidOut b.status →
    b.netPayoutCents = 0 ∨ ∃ t ∈ w.transfers, t.ref = b.id

/-- The record survives a step that keeps the stamped amounts, when the resumed
task meets its condition. -/
theorem Paid.of_effect {w w' : World} {task : Option Task} (h : Paid w)
    (hkept : ∀ b amount, Recorded w.ledger b amount → Recorded w'.ledger b amount)
    (hstamp : ∀ batch ref, task = some (.payoutStamp batch ref) →
      ∀ row ∈ w.ledger.batches.rows, row.id = batch.id → row.status = .approved →
        row.payoutAttemptedAt = none → row.netPayoutCents = batch.netPayoutCents)
    (hcall : ∀ batch ref, task = some (.payoutCall batch ref) →
      Recorded w.ledger batch.id batch.netPayoutCents)
    (hsend : ∀ b ref, task = some (.markSent b ref) → ∀ row ∈ w.ledger.batches.rows,
      row.id = b → row.status = .approved →
        row.netPayoutCents = 0 ∨ ∃ t ∈ w.transfers, t.ref = b)
    (he : PayoutEffect w w' task) : Paid w' := by
  have hsub := he.transfers_subset
  refine ⟨?_, ?_, he.transfers_distinct h.distinct, ?_, ?_⟩
  · intro batch ref ht
    rcases he.mem_calls ht with hold | hread | ⟨heq, row, hrow, hid, hs, hp, hstamped⟩
    · exact hkept _ _ (h.calls batch ref hold)
    · exact hread
    · rw [← hstamp batch ref heq row hrow hid hs hp]
      exact hstamped
  · intro t ht
    rcases he.mem_transfers ht with hold | ⟨batch, ref, heq, href, hamount⟩
    · exact hkept _ _ (h.transfers t hold)
    · rw [href, hamount]
      exact hkept _ _ (hcall batch ref heq)
  · intro b ref ht
    rcases he.mem_sends ht with hold | hnew
    · rcases h.sends b ref hold with hzero | ⟨t, htr, href⟩
      · exact Or.inl hzero
      · exact Or.inr ⟨t, hsub htr, href⟩
    · exact hnew
  · intro b' hb' hp
    have hold : b'.netPayoutCents = 0 ∨ ∃ t ∈ w.transfers, t.ref = b'.id := by
      rcases he.paidOut_origin hb' hp with ⟨b, hb, hid, hpaid, hnet⟩ |
          ⟨ref, heq, row, hrow, hid, hs, hnet⟩
      · rw [← hid, ← hnet]
        exact h.sent b hb hpaid
      · rw [← hnet]
        exact hsend b'.id ref heq row hrow hid hs
    rcases hold with hzero | ⟨t, ht, href⟩
    · exact Or.inl hzero
    · exact Or.inr ⟨t, hsub ht, href⟩

theorem paid_of_reachable {w : World} (h : ServiceReachable PaysWhatItRead w) : Paid w := by
  refine h.invariant ?_ ?_
  · intro w hi
    constructor <;> simp [hi.tasks, hi.transfers, hi.ledger.batches]
  · intro w a w' hw hok ht
    rcases step_effect ht with he | ⟨index, input, task, rfl, hget, he⟩
    · exact hw.of_effect (fun b amount hb => hb.kept ht) (by simp) (by simp) (by simp) he
    · have hmem := List.mem_of_getElem? hget
      have herased : Paid { w with tasks := w.tasks.eraseIdx index } :=
        ⟨fun batch ref hb => hw.calls batch ref (List.mem_of_mem_eraseIdx hb), hw.transfers,
          hw.distinct, fun b ref hb => hw.sends b ref (List.mem_of_mem_eraseIdx hb), hw.sent⟩
      refine herased.of_effect (fun b amount hb => hb.kept ht) ?_ ?_ ?_ he
      · rintro batch ref heq
        cases heq
        simpa only [PaysWhatItRead, hget] using hok
      · rintro batch ref heq
        cases heq
        exact hw.calls batch ref hmem
      · rintro b ref heq row hrow hid hs
        cases heq
        simp only [PaysWhatItRead, hget] at hok
        rcases hw.sends b ref hmem with hz | hhas
        · exact hok hz row hrow hid hs
        · exact Or.inr hhas

/-- A batch with a transfer under its reference had exactly its amount moved. -/
theorem movedCents_of_transfer {w : World} (h : Paid w) {b : Batch}
    (hb : b ∈ w.ledger.batches.rows) {t : Transfer} (ht : t ∈ w.transfers) (hr : t.ref = b.id) :
    t.amountCents = b.netPayoutCents ∧ movedCents w b.id = b.netPayoutCents := by
  obtain ⟨row, hrow, hid, _, hnet⟩ := h.transfers t ht
  have he := w.ledger.batches.eq_of_key_eq hrow hb (hid.trans hr)
  rw [he] at hnet
  refine ⟨hnet.symm, ?_⟩
  let record : Table Transfer.ref := ⟨w.transfers, h.distinct⟩
  have hmoved := record.sumOn_key ht (·.amountCents)
  rw [hr] at hmoved
  exact hmoved.trans hnet.symm

/-- In every run whose steps meet the condition: a batch that is sent or settled
had its stored amount moved; a batch sent with a positive amount has a transfer of
that amount; and once the provider was asked, whatever happens next, the amount of
the batch stays. -/
theorem transferred_amount_is_recorded {w : World} (h : ServiceReachable PaysWhatItRead w) :
    (∀ b ∈ w.ledger.batches.rows, paidOut b.status → movedCents w b.id = b.netPayoutCents) ∧
    (∀ b ∈ w.ledger.batches.rows, b.status = .sent → 0 < b.netPayoutCents →
      ∃ t ∈ w.transfers, t.ref = b.id ∧ t.amountCents = b.netPayoutCents) ∧
    ∀ r ∈ w.payoutRequests, ∀ w', Reachable step anyStep (· = w) w' →
      ∀ b ∈ w.ledger.batches.rows, b.id = r.1 → ∀ b' ∈ w'.ledger.batches.rows, b'.id = r.1 →
        b'.netPayoutCents = b.netPayoutCents := by
  have hpaid := paid_of_reachable h
  refine ⟨?_, ?_, ?_⟩
  · intro b hb hp
    by_cases hex : ∃ t ∈ w.transfers, t.ref = b.id
    · obtain ⟨t, ht, hr⟩ := hex
      exact (movedCents_of_transfer hpaid hb ht hr).2
    · have hzero := (hpaid.sent b hb hp).resolve_right hex
      let record : Table Transfer.ref := ⟨w.transfers, hpaid.distinct⟩
      have hmoved : record.sumOn (fun t => t.ref = b.id) (·.amountCents) = 0 :=
        Table.sumOn_eq_zero fun t ht hr => hex ⟨t, ht, hr⟩
      exact Eq.trans hmoved hzero.symm
  · intro b hb hs hpos
    rcases hpaid.sent b hb (Or.inl hs) with hzero | ⟨t, ht, hr⟩
    · omega
    · exact ⟨t, ht, hr, (movedCents_of_transfer hpaid hb ht hr).1⟩
  · intro r hr w' hw' b hb hid b' hb' hid'
    have hs := (askedStamped_of_reachable h.toAny).requests r hr
    exact net_frozen_of_stamped hs hw' hb hid hb' hid'

/-- A batch is built, approved and paid without interruption. -/
def paidInOneGo : List Action :=
  sell 1 1 10000 ++ runNight (noonOf 2) 11 ++ approve 11 (noonOf 3) ++ payOut 11 (noonOf 3)

theorem transferred_amount_is_recorded_paidInOneGo :
    ∃ w, ServiceReachable PaysWhatItRead w ∧ (w.batch 11).status = .sent ∧
      0 < (w.batch 11).netPayoutCents ∧ movedCents w 11 = (w.batch 11).netPayoutCents := by
  have hw : ServiceReachable PaysWhatItRead (sampleState 500 paidInOneGo) :=
    sampleState_guarded (by decide +kernel) (by decide +kernel)
  have hsent : ((sampleState 500 paidInOneGo).batch 11).status = .sent := by decide +kernel
  have hmoved := (transferred_amount_is_recorded hw).1 _ (World.batch_mem (by decide +kernel))
    (Or.inl hsent)
  exact ⟨_, hw, hsent, by decide +kernel, hmoved⟩

/-- The payout has read the batch when it is held, recomputed with a late line
and approved again; the payout then goes on. -/
def repricedBeforeStamp : List Action :=
  sell 1 1 10000 ++ [.business (.reserve (sampleReservation 2 1 10000)) (noonOf 1)] ++
    runNight (noonOf 2) 11 ++ approve 11 (noonOf 3) ++
    [.startPayout 11, proceed (noonOf 3) 0, .adminHold 11 none 7,
      .business (.markNoShow 2) (noonOf 3)] ++
    runNight (noonOf 4) 0 ++ approve 11 (noonOf 5) ++
    [proceed (noonOf 5) 0, .resume 0 ⟨noonOf 5, 0, .answered "transfer"⟩, proceed (noonOf 5) 0]

/-- The batch is sent with another amount than the one transferred. -/
theorem repricedBeforeStamp_misrecorded :
    ∃ w, ServiceReachable anyStep w ∧ (w.batch 11).status = .sent ∧
      movedCents w 11 = 9306 ∧ (w.batch 11).netPayoutCents = 18612 :=
  ⟨sampleState 500 repricedBeforeStamp, sampleState_reachable (by decide +kernel),
    by decide +kernel, by decide +kernel, by decide +kernel⟩

end Kurtar.PayoutExecution

import Kurtar.CarriedDemand

/-!
# Which held batch a first pass takes over

Discovery looks at one batch only: the newest other batch of the merchant.
A first pass therefore takes over an unclaimed held demand exactly when the
held batch is that newest one. A batch that becomes held after its successor
was created is passed by.
-/

namespace Kurtar.CarriedDemandDiscovery

open Relation KeyedTable GuardedRuns StatusTransitions IstanbulCalendar SettlementMath
open SettlementLedger SettlementRecompute SettlementTransactions SettlementService SettlementPass
open SettlementEffects ClawbackLedger DemandFlow CarriedDemand

/-- Batch `c` claims from `s` directly or along a chain of claims, and `s` is
claimed in full. -/
def TakesOver (l : Ledger) (c : BatchId) (s : Batch) : Prop :=
  TransGen (claimGraph l).ClaimsFrom c s.id ∧ l.claimedFrom s.id = exportableCarriedDemandCents s

/-- A batch that is not passed yet and can be. -/
structure AwaitsFirstPass (b : Batch) : Prop where
  recomputable : b.Recomputable
  unattempted : b.payoutAttemptedAt = none
  unresolved : b.shortfallResolvedAt = none

/-- A held batch with demand to export that no batch has claimed. -/
structure Unclaimed (l : Ledger) (s : Batch) : Prop where
  stored : s ∈ l.batches.rows
  held : s.status = .held
  exports : 0 < exportableCarriedDemandCents s
  unclaimed : l.claimedFrom s.id = 0

theorem claimedFrom_eq_zero {l : Ledger} (h : Pinned l) {s : BatchId} :
    l.claimedFrom s = 0 ↔ ∀ c ∈ l.claims.rows, c.sourceBatchId ≠ s := by
  constructor
  · intro hz c hc hs
    have hle := Table.le_sumOn (p := fun c : CarriedDemandClaim => c.sourceBatchId = s)
      (f := (·.amountCents)) (fun k hk _ => (h.claim_pos k hk).le) hc hs
    have hpos := h.claim_pos c hc
    rw [Ledger.claimedFrom] at hz
    omega
  · intro hnone
    exact Table.sumOn_eq_zero hnone

/-- The demand that a pass takes over from an unclaimed batch is all of it. -/
theorem resolve_of_unclaimed {l : Ledger} (h : Pinned l) {s : Batch} (hs : Unclaimed l s)
    (claimant : BatchId) :
    resolveCarriedDemandFromSource l s.id claimant = exportableCarriedDemandCents s := by
  have hexports := hs.exports
  have hnone := (claimedFrom_eq_zero h).mp hs.unclaimed
  have htaken : l.claims.sumOn
      (fun c => c.sourceBatchId = s.id ∧ c.claimantBatchId ≠ claimant) (·.amountCents) = 0 :=
    Table.sumOn_eq_zero fun c hc hp => hnone c hc hp.1
  unfold resolveCarriedDemandFromSource
  rw [Table.find?_of_mem hs.stored]
  dsimp only
  rw [if_neg (by omega), htaken]
  omega

section FirstPass

variable {l l' : Ledger} {batchId : BatchId} {now clock : Instant}
  {pendingLines : List PendingSettlementLine} {batch row s : Batch} {pass : RecomputePass}
  (hpin : Pinned l) (h : WrittenPass l batchId now pendingLines clock batch pass l' row)
  (hs : Unclaimed l s)

include hpin h hs

/-- A chain to a batch that was unclaimed ends with the claim of this pass. -/
theorem source_of_chain (hc : TransGen (claimGraph l').ClaimsFrom batchId s.id) :
    pass.carriedDemandSourceBatchId = some s.id := by
  obtain ⟨c, _, hlast⟩ := TransGen.tail'_iff.mp hc
  obtain ⟨k, hk, _, hsource⟩ := claimGraph_source.mp hlast
  rcases h.mem_claims.mp hk with ⟨hold, _⟩ | ⟨_, hpass, _, _⟩
  · exact absurd hsource ((claimedFrom_eq_zero hpin).mp hs.unclaimed k hold)
  · rw [hpass, hsource]

/-- A pass whose source is the unclaimed batch takes it over. -/
theorem takesOver_of_source (hsource : pass.carriedDemandSourceBatchId = some s.id) :
    TakesOver l' batchId s := by
  have hexports := hs.exports
  have hnone := (claimedFrom_eq_zero hpin).mp hs.unclaimed
  have hcarried : pass.carriedFromPrior = exportableCarriedDemandCents s := by
    rw [h.planned.carried, passCarried, ← h.planned.source, hsource]
    exact resolve_of_unclaimed hpin hs batch.id
  have hclaim : (claimGraph l').ClaimsFrom batchId s.id := by
    refine claimGraph_source.mpr ⟨⟨batchId, s.id, pass.carriedFromPrior⟩, ?_, rfl, rfl⟩
    exact h.mem_claims.mpr (Or.inr ⟨by omega, hsource, rfl, rfl⟩)
  refine ⟨.single hclaim, ?_⟩
  have hothers : l.claims.sumOn
      (fun c => c.sourceBatchId = s.id ∧ c.claimantBatchId ≠ batchId) (·.amountCents) = 0 :=
    Table.sumOn_eq_zero fun c hc hp => hnone c hc hp.1
  rw [Ledger.claimedFrom, h.claims_sumOn, hothers, hsource]
  simp [hcarried]

end FirstPass

/-- For every reachable state, every held batch with unclaimed demand and every
committed first pass of another batch of the merchant: the pass takes over the
whole demand if and only if the held batch is the merchant's newest other one. -/
theorem first_pass_takes_over_iff_newest {w : World} (h : ServiceReachable anyStep w)
    {n s : Batch} (hn : n ∈ w.ledger.batches.rows) (hfirst : AwaitsFirstPass n)
    (hs : Unclaimed w.ledger s) {now clock : Instant}
    {pendingLines : List PendingSettlementLine} {l' : Ledger}
    (hpass : commit w.ledger (.recompute n.id now pendingLines clock) = some l') :
    TakesOver l' n.id s ↔ newestOtherBatch w.ledger n.merchantId n.id = some s := by
  have hpin := pinned_of_reachable (ledgerReachable_of_anyStep h)
  simp only [commit] at hpass
  cases hr : recomputeBatch w.ledger n.id now pendingLines clock with
  | error e => simp [hr] at hpass
  | ok result =>
    simp only [hr, Option.some.injEq] at hpass
    obtain ⟨stored, row⟩ := result
    subst hpass
    obtain ⟨batch, hb, ⟨hfrozen, _⟩ | ⟨pass, hp⟩⟩ := recomputeBatch_eq_ok hr
    · rw [Table.find?_of_mem hn, Option.some.injEq] at hb
      subst hb
      rcases hfrozen with hfrozen | hfrozen
      · exact absurd hfirst.recomputable hfrozen
      · exact absurd hfirst.unattempted hfrozen
    · rw [Table.find?_of_mem hn, Option.some.injEq] at hb
      subst hb
      have hsource : pass.carriedDemandSourceBatchId =
          discoverCarriedDemandSource w.ledger n.merchantId n.id := by
        rw [pass_source_eq hp.toWrittenPass, passSource, if_pos hfirst.unresolved]
      constructor
      · rintro ⟨hchain, _⟩
        have hd := source_of_chain hpin hp.toWrittenPass hs hchain
        rw [hsource] at hd
        obtain ⟨o, ho, _, hid⟩ := discoverCarriedDemandSource_eq_some.mp hd
        rw [ho, w.ledger.batches.eq_of_key_eq (newestOtherBatch_mem ho).1 hs.stored hid]
      · intro hnewest
        have hd := discoverCarriedDemandSource_eq_some.mpr ⟨s, hnewest, hs.held, rfl⟩
        exact takesOver_of_source hpin hp.toWrittenPass hs (hsource.trans hd)

/-- A held batch of the first day; the batch of the second day was just created. -/
def createdBehindHeld : List Action :=
  sell 1 1 1000 ++ runNight (noonOf 2) 11 ++ sell 2 2 10000 ++
    [.runNightlyCycle (noonOf 3) none, proceed (noonOf 3) 12]

theorem first_pass_takes_over_iff_newest_createdBehindHeld :
    ∃ w l', ServiceReachable anyStep w ∧
      commit w.ledger (.recompute (w.batch 12).id (noonOf 3) [] (noonOf 3)) = some l' ∧
      Unclaimed w.ledger (w.batch 11) ∧ AwaitsFirstPass (w.batch 12) ∧
      (TakesOver l' (w.batch 12).id (w.batch 11) ↔
        newestOtherBatch w.ledger (w.batch 12).merchantId (w.batch 12).id =
          some (w.batch 11)) := by
  have hw : ServiceReachable anyStep (sampleState 2000 createdBehindHeld) :=
    sampleState_reachable (by decide +kernel)
  have hs : Unclaimed (sampleState 2000 createdBehindHeld).ledger
      ((sampleState 2000 createdBehindHeld).batch 11) :=
    ⟨World.batch_mem (by decide +kernel), by decide +kernel, by decide +kernel,
      by decide +kernel⟩
  have hn : AwaitsFirstPass ((sampleState 2000 createdBehindHeld).batch 12) :=
    ⟨by decide +kernel, by decide +kernel, by decide +kernel⟩
  have hpass : (commit (sampleState 2000 createdBehindHeld).ledger
      (.recompute ((sampleState 2000 createdBehindHeld).batch 12).id (noonOf 3) []
        (noonOf 3))).isSome := by decide +kernel
  obtain ⟨l', hl'⟩ := Option.isSome_iff_exists.mp hpass
  exact ⟨_, l', hw, hl', hs, hn,
    first_pass_takes_over_iff_newest hw (World.batch_mem (by decide +kernel)) hn hs hl'⟩

/-- The batch of the first day becomes held by a late line, after the batch of
the second day was passed; the third day's group is built next. -/
def heldBehindSuccessor : List Action :=
  sell 1 1 3000 ++ [.business (.reserve (sampleReservation 3 1 1000)) (noonOf 1)] ++
    runNight (noonOf 2) 11 ++ sell 2 2 10000 ++ runNight (noonOf 3) 12 ++
    [.business (.markNoShow 3) (noonOf 3)] ++ sell 4 3 10000 ++
    .runNightlyCycle (noonOf 4) none :: buildGroup (noonOf 4) 0

/-- The next batch created is passed without taking the held demand over. -/
theorem heldBehindSuccessor_stranded :
    ∃ w w', ServiceReachable anyStep w ∧ run step w (buildGroup (noonOf 4) 13) = some w' ∧
      Unclaimed w.ledger (w.batch 11) ∧ (∀ b ∈ w.ledger.batches.rows, b.id ≠ 13) ∧
      (w'.batch 13).merchantId = (w.batch 11).merchantId ∧
      (w'.batch 13).shortfallResolvedAt ≠ none ∧ ¬ TakesOver w'.ledger 13 (w.batch 11) := by
  refine ⟨sampleState 2000 heldBehindSuccessor,
    sampleState 2000 (heldBehindSuccessor ++ buildGroup (noonOf 4) 13),
    sampleState_reachable (by decide +kernel), rfl, ⟨World.batch_mem (by decide +kernel),
      by decide +kernel, by decide +kernel, by decide +kernel⟩, by decide +kernel,
    by decide +kernel, by decide +kernel, ?_⟩
  rintro ⟨_, hclaimed⟩
  revert hclaimed
  decide +kernel

end Kurtar.CarriedDemandDiscovery

import Kurtar.CarriedDemandPins

/-!
# Carried demand is collected at most once

A frozen batch has collected what it claimed, and its claim rests on every
batch further up its chain. The pass of a batch checks that frozen claimants
are still covered, but it looks at direct claimants only: an open claimant
that has handed its claim on to a frozen batch is not counted. As long as no
batch is passed below such a claimant, and no claim is frozen while a batch
further up is over-claimed, every batch goes on exporting what is collected
from it. Frozen batches then absorb no more than the fee deficits that exist.
-/

namespace Kurtar.CarriedDemandCollection

open Relation KeyedTable GuardedRuns StatusTransitions IstanbulCalendar SettlementMath
open SettlementLedger SettlementRecompute SettlementTransactions SettlementService SettlementPass
open SettlementEffects ClawbackLedger DemandFlow CarriedDemand CarriedDemandDiscovery
open CarriedDemandPins

/-- A frozen batch lies below the batch on a chain of claims, or is the batch. -/
def Committed (l : Ledger) (b : BatchId) : Prop := (claimGraph l).Committed (Frozen l) b

/-- Every batch further up the chain of `b` exports all that is claimed from it. -/
def CoveredAbove (l : Ledger) (b : BatchId) : Prop :=
  ∀ t, TransGen (claimGraph l).ClaimsFrom b t → l.claimedFrom t ≤ exportableOf l t

/-- The condition on the transactions. An approval needs a covered chain. A
pass of a batch that a frozen batch rests on needs that all such claimants of
it are frozen themselves, and that a claim it did not hold before joins a
covered chain which does not lead back to the batch. -/
def CollectsOnce (l : Ledger) : Transaction → Prop
  | .approve batchId => CoveredAbove l batchId
  | .recompute batchId _ _ _ => Committed l batchId →
      (∀ c, (claimGraph l).ClaimsFrom c batchId → Committed l c → Frozen l c) ∧
      ∀ batch ∈ l.batches.rows, batch.id = batchId → (claimGraph l).source batchId = none →
        ∀ s, passSource l batch = some s →
          CoveredAbove l s ∧ ¬ TransGen (claimGraph l).ClaimsFrom s batchId
  | _ => True

/-- Every batch exports what is collected from it. -/
def Collected (l : Ledger) : Prop :=
  (claimGraph l).Honoured (Frozen l) l.batches.keys (exportableOf l)

theorem exportableOf_nonneg {l : Ledger} (h : Consistent l) (s : BatchId) :
    0 ≤ exportableOf l s := by
  unfold exportableOf
  cases hf : l.batches.find? s with
  | none => exact le_rfl
  | some b => exact exportable_nonneg h (Table.find?_eq_some.mp hf).1

theorem frozen_iff {l : Ledger} {b : Batch} (hb : b ∈ l.batches.rows) :
    Frozen l b.id ↔ ¬ b.Recomputable := by
  constructor
  · rintro ⟨x, hx, hid, hfrozen⟩
    rwa [l.batches.eq_of_key_eq hx hb hid] at hfrozen
  · intro hfrozen
    exact ⟨b, hb, rfl, hfrozen⟩

/-- A batch without a claim holds the amount zero. -/
theorem amount_of_no_source {l : Ledger} {b : BatchId} (h : (claimGraph l).source b = none) :
    (claimGraph l).amount b = 0 := by
  change (l.claims.find? b).map (·.sourceBatchId) = none at h
  rw [Option.map_eq_none_iff] at h
  change ((l.claims.find? b).map (·.amountCents)).getD 0 = 0
  rw [h]
  rfl

/-- The claimant of the claim can no longer be recomputed. -/
def frozenClaimant (l : Ledger) (c : CarriedDemandClaim) : Bool :=
  (l.batches.find? c.claimantBatchId).any fun x => decide (¬ x.Recomputable)

theorem frozenClaimant_iff {l : Ledger} {c : CarriedDemandClaim} :
    frozenClaimant l c = true ↔ Frozen l c.claimantBatchId := by
  simp only [frozenClaimant, Option.any_eq_true, decide_eq_true_eq]
  constructor
  · rintro ⟨x, hx, hf⟩
    obtain ⟨hx, hid⟩ := Table.find?_eq_some.mp hx
    exact ⟨x, hx, hid, hf⟩
  · rintro ⟨x, hx, hid, hf⟩
    exact ⟨x, Table.find?_eq_some.mpr ⟨hx, hid⟩, hf⟩

/-- The irrevocable claims of the final check, as a sum over the claims. -/
theorem irrevocableClaims_sum (l : Ledger) (b : BatchId) :
    ((irrevocableClaims l b).map fun c => c.1.amountCents).sum =
      l.claims.sumOn (fun c => c.sourceBatchId = b ∧ frozenClaimant l c = true)
        (·.amountCents) := by
  unfold irrevocableClaims Table.sumOn
  induction l.claims.rows with
  | nil => rfl
  | cons c claims ih =>
    rw [List.map_cons, List.sum_cons, ← ih]
    by_cases hs : c.sourceBatchId = b
    · rw [List.filter_cons_of_pos (by simpa using hs), List.filterMap_cons]
      cases hf : l.batches.find? c.claimantBatchId with
      | none => simp [frozenClaimant, hf]
      | some x =>
        by_cases hr : x.Recomputable
        · simp [frozenClaimant, hf, hr]
        · simp [frozenClaimant, hf, hr, hs]
    · rw [List.filter_cons_of_neg (by simpa using hs)]
      simp [hs]

section Pass

variable {l l' : Ledger} {batchId : BatchId} {now clock : Instant}
  {pendingLines : List PendingSettlementLine} {batch row : Batch} {pass : RecomputePass}
  (h : CommittedPass l batchId now pendingLines clock batch pass l' row)

include h

/-- A pass freezes no batch and unfreezes none. -/
theorem frozen_of_pass : Frozen l' = Frozen l := by
  have hw := h.toWrittenPass
  funext x
  apply propext
  constructor
  · rintro ⟨y, hy, hid, hf⟩
    rcases hw.replaces.mem_iff.mp hy with rfl | ⟨hy, _⟩
    · exact absurd hw.row_recomputable hf
    · exact ⟨y, hy, hid, hf⟩
  · rintro ⟨y, hy, hid, hf⟩
    refine ⟨y, hw.replaces.mem_of_ne hy ?_, hid, hf⟩
    intro hk
    rw [l.batches.eq_of_key_eq hy hw.batch_mem hk] at hf
    exact hf hw.recomputable

/-- Other batches keep their claims. -/
theorem claimGraph_of_pass {c : BatchId} (hc : c ≠ batchId) :
    (claimGraph l').source c = (claimGraph l).source c ∧
      (claimGraph l').amount c = (claimGraph l).amount c := by
  have hf := h.toWrittenPass.claims_find?_of_ne hc
  constructor
  · change Option.map _ (l'.claims.find? c) = Option.map _ (l.claims.find? c)
    rw [hf]
  · change (Option.map _ (l'.claims.find? c)).getD 0 = (Option.map _ (l.claims.find? c)).getD 0
    rw [hf]

theorem exportableOf_of_pass {s : BatchId} (hs : s ≠ batchId) :
    exportableOf l' s = exportableOf l s := by
  have hw := h.toWrittenPass
  unfold exportableOf
  rw [hw.replaces.find?_of_ne (by rw [hw.batch_id]; exact hs)]

theorem exportableOf_passed : exportableOf l' batchId = exportableCarriedDemandCents row := by
  have hw := h.toWrittenPass
  rw [← hw.row_id]
  exact exportableOf_eq hw.replaces.mem_new

/-- The claim of the pass follows its source and fills it exactly. -/
theorem claim_of_pass {s : BatchId}
    (hs : (claimGraph l').source batchId = some s) :
    passSource l batch = some s ∧ l'.claimedFrom s = exportableOf l s := by
  have hw := h.toWrittenPass
  obtain ⟨k, hk, hclaimant, hsource⟩ := claimGraph_source.mp hs
  rcases hw.mem_claims.mp hk with ⟨_, hne⟩ | ⟨hpos, hpass, _, _⟩
  · exact absurd hclaimant hne
  · rw [hsource] at hpass
    have hcarried : pass.carriedFromPrior = resolveCarriedDemandFromSource l s batchId := by
      rw [hw.planned.carried, passCarried, ← hw.planned.source, hpass, ← hw.batch_id]
      rfl
    have hclaimed : l'.claimedFrom s = l.claims.sumOn
        (fun c => c.sourceBatchId = s ∧ c.claimantBatchId ≠ batchId) (·.amountCents)
          +pass.carriedFromPrior := by
      rw [Ledger.claimedFrom, hw.claims_sumOn, hpass]
      simp
    rw [hcarried] at hpos hclaimed
    obtain ⟨sb, hsb, hid, hresolve⟩ := resolve_eq_of_pos hpos
    have hexport := exportableOf_eq hsb
    rw [hid] at hexport
    refine ⟨?_, by omega⟩
    rw [← hpass]
    exact (pass_source_eq hw).symm

/-- The final check of a pass covers the claims of its frozen direct claimants. -/
theorem frozen_claims_le_exportable (hinv' : Consistent l') :
    l'.claims.sumOn (fun c => c.sourceBatchId = batchId ∧ frozenClaimant l' c = true)
      (·.amountCents) ≤ exportableOf l' batchId := by
  have hw := h.toWrittenPass
  have hh := h.honoured
  unfold assertIrrevocableClaimsHonoured at hh
  dsimp only at hh
  rw [← irrevocableClaims_sum, exportableOf_passed h]
  rw [hw.row_id] at hh
  split_ifs at hh with hnone
  · rw [hnone]
    exact exportable_nonneg hinv' hw.replaces.mem_new
  · exact ensure_eq_ok.mp hh

/-- When all claimants that count are frozen, the final check covers them. -/
theorem collected_of_frozen_claimants (hinv' : Consistent l') (hpin : Pinned l)
    (hdirect : ∀ c, (claimGraph l).ClaimsFrom c batchId → Committed l c → Frozen l c) :
    (claimGraph l).collectedFrom (Frozen l) l.batches.keys batchId ≤ exportableOf l' batchId := by
  classical
  have hw := h.toWrittenPass
  refine le_trans ?_ (frozen_claims_le_exportable h hinv')
  rw [Table.sumOn_eq_sum_keys, ClaimGraph.collectedFrom]
  have hkeys : l'.claims.keys ⊆ l'.batches.keys := by
    intro k hk
    obtain ⟨c, hc, rfl⟩ := Table.mem_keys.mp hk
    exact Table.mem_keys.mpr (hinv'.claim_batch c hc)
  have hout : ∀ k ∈ l'.batches.keys, k ∉ l'.claims.keys →
      ((l'.claims.find? k).map fun c =>
        if c.sourceBatchId = batchId ∧ frozenClaimant l' c = true then c.amountCents
        else 0).getD 0 = 0 := by
    intro k _ hk
    rw [Table.find?_of_not_mem_keys hk]
    rfl
  rw [Finset.sum_subset hkeys hout, hw.replaces.keys_eq]
  apply Finset.sum_le_sum
  intro k hk
  by_cases hk' : (claimGraph l).source k = some batchId ∧
      (claimGraph l).Committed (Frozen l) k
  · obtain ⟨c, hc, hclaimant, hsource⟩ := claimGraph_source.mp hk'.1
    have hne : k ≠ batchId := by
      rintro rfl
      exact hpin.source_ne_self k hk'.1
    have hfrozen : Frozen l' k := by
      rw [frozen_of_pass h]
      exact hdirect k hk'.1 hk'.2
    have hfind : l'.claims.find? k = some c := by
      rw [hw.claims_find?_of_ne hne]
      exact Table.find?_eq_some.mpr ⟨hc, hclaimant⟩
    have hamount : (claimGraph l).amount k = c.amountCents := by
      change ((l.claims.find? k).map (·.amountCents)).getD 0 = c.amountCents
      rw [← hclaimant, Table.find?_of_mem hc]
      rfl
    rw [if_pos hk', hfind, hamount, Option.map_some, Option.getD_some,
      if_pos ⟨hsource, frozenClaimant_iff.mpr (hclaimant.symm ▸ hfrozen)⟩]
  · rw [if_neg hk']
    cases hf : l'.claims.find? k with
    | none => exact le_rfl
    | some c =>
      have hpos := (pinned_of_pass hpin hw).claim_pos c (Table.find?_eq_some.mp hf).1
      rw [Option.map_some, Option.getD_some]
      split_ifs
      · exact hpos.le
      · exact le_rfl

/-- A pass that meets the condition keeps collected demand exported. -/
theorem collected_of_pass (hinv : Consistent l) (hinv' : Consistent l') (hpin : Pinned l)
    (hpin' : Pinned l') (hcollected : Collected l)
    (hok : CollectsOnce l (.recompute batchId now pendingLines clock)) : Collected l' := by
  have hw := h.toWrittenPass
  have hsame : ∀ c, c ≠ batchId → (claimGraph l').source c = (claimGraph l).source c ∧
      (claimGraph l').amount c = (claimGraph l).amount c := fun c hc => claimGraph_of_pass h hc
  have hexport : ∀ s, s ≠ batchId → exportableOf l' s = exportableOf l s :=
    fun s hs => exportableOf_of_pass h hs
  unfold Collected
  rw [frozen_of_pass h, hw.replaces.keys_eq]
  by_cases hcommitted : Committed l batchId
  · obtain ⟨hdirect, hnew⟩ := hok hcommitted
    refine ClaimGraph.Honoured.rewrite_committed hsame hcollected hpin.amount_nonneg
      hpin'.amount_nonneg (hpin.source_ne_self batchId) (hpin'.source_ne_self batchId) hexport
      (collected_of_frozen_claimants h hinv' hpin hdirect) ?_ ?_
    · intro s hs
      rw [← hw.replaces.keys_eq, claimedFrom_eq hinv']
      exact (claim_of_pass h hs).2.le
    · cases hold : (claimGraph l).source batchId with
      | some old =>
        refine Or.inl ⟨old, rfl, fun s hs => ?_⟩
        obtain ⟨b, hb, hid, hpinned⟩ := hpin.pin_of_claims hold
        have hbb := l.batches.eq_of_key_eq hb hw.batch_mem (hid.trans hw.batch_id.symm)
        rw [hbb] at hpinned
        have hresolved := (hpin.pin_source batch hw.batch_mem old hpinned).1
        have hsource := (claim_of_pass h hs).1
        rw [passSource, if_neg hresolved, hpinned, Option.some.injEq] at hsource
        exact hsource.symm
      | none =>
        refine Or.inr ⟨rfl, fun s hs t ht => ?_⟩
        obtain ⟨hcovered, hback⟩ := hnew batch hw.batch_mem hw.batch_id hold s
          (claim_of_pass h hs).1
        refine ⟨?_, ?_⟩
        · rintro rfl
          exact hback ht
        · rw [claimedFrom_eq hinv]
          exact hcovered t ht
  · refine ClaimGraph.Honoured.rewrite_uncommitted hsame hcollected hpin.amount_nonneg hcommitted
      hexport ?_
    exact exportableOf_nonneg hinv' batchId

end Pass

/-- Without a change of claims, freezing no batch and exporting no less keeps
collected demand exported. -/
theorem Collected.of_same_claims {l l' : Ledger} (h : Collected l) (hinv : Consistent l)
    (hpin : Pinned l) (hclaims : l'.claims = l.claims)
    (hkeys : l.batches.keys ⊆ l'.batches.keys) (hfrozen : ∀ x, Frozen l' x → Frozen l x)
    (hexport : ∀ s, exportableOf l s ≤ exportableOf l' s) : Collected l' := by
  have hgraph : claimGraph l' = claimGraph l := by
    unfold claimGraph
    rw [hclaims]
  have hnodes : ∀ c ∈ l'.batches.keys, c ∉ l.batches.keys → (claimGraph l).source c = none := by
    intro c _ hc
    change (l.claims.find? c).map (·.sourceBatchId) = none
    rw [Option.map_eq_none_iff, Table.find?_eq_none]
    rintro k hk rfl
    exact hc (Table.mem_keys.mpr (hinv.claim_batch k hk))
  have hmono := ClaimGraph.Honoured.mono h hpin.amount_nonneg hfrozen hexport
  intro s
  rw [hgraph, ClaimGraph.collectedFrom_of_subset hkeys hnodes]
  exact hmono s

/-- Only the replaced batch can become frozen. -/
theorem frozen_of_replaces {l l' : Ledger} {old new : Batch}
    (hrep : Table.Replaces l.batches l'.batches old new) {x : BatchId} (hx : Frozen l' x) :
    Frozen l x ∨ x = old.id ∧ ¬ new.Recomputable := by
  obtain ⟨y, hy, hid, hf⟩ := hx
  rcases hrep.mem_iff.mp hy with rfl | ⟨hy, _⟩
  · exact Or.inr ⟨hid.symm.trans hrep.key_new, hf⟩
  · exact Or.inl ⟨y, hy, hid, hf⟩

theorem exportableOf_of_replaces {l l' : Ledger} {old new : Batch}
    (hrep : Table.Replaces l.batches l'.batches old new)
    (hle : exportableCarriedDemandCents old ≤ exportableCarriedDemandCents new) (s : BatchId) :
    exportableOf l s ≤ exportableOf l' s := by
  by_cases hs : s = old.id
  · subst hs
    have hnew : exportableOf l' old.id = exportableCarriedDemandCents new := by
      rw [exportableOf, hrep.find?_self]
      rfl
    rw [exportableOf_eq hrep.mem_old, hnew]
    exact hle
  · unfold exportableOf
    rw [hrep.find?_of_ne hs]

/-- A flip keeps collected demand exported: all but an approval freeze no batch
and export no less, and an approval freezes above a covered chain. -/
theorem collected_of_flip {l l' : Ledger} {t : Transaction} {old new : Batch}
    (hinv : Consistent l) (hpin : Pinned l) (hcollected : Collected l)
    (hok : CollectsOnce l t) (hflip : Flip t old new)
    (hrep : Table.Replaces l.batches l'.batches old new)
    (hrest : l' = { l with batches := l'.batches }) : Collected l' := by
  have hclaims : l'.claims = l.claims := by rw [hrest]
  have hzero : ∀ {b : Batch}, b.status ≠ .held → exportableCarriedDemandCents b = 0 :=
    fun hs => if_pos hs
  have hsame : old.status ≠ .held → new.status ≠ .held →
      exportableCarriedDemandCents old ≤ exportableCarriedDemandCents new := by
    intro ho hn
    rw [hzero ho, hzero hn]
  have hkeep : (¬ new.Recomputable → ¬ old.Recomputable) →
      exportableCarriedDemandCents old ≤ exportableCarriedDemandCents new → Collected l' := by
    intro hrec hle
    refine hcollected.of_same_claims hinv hpin hclaims hrep.keys_eq.symm.subset ?_
      (exportableOf_of_replaces hrep hle)
    intro x hx
    rcases frozen_of_replaces hrep hx with hx | ⟨rfl, hn⟩
    · exact hx
    · exact (frozen_iff hrep.mem_old).mpr (hrec hn)
  cases hflip with
  | approve hs =>
    have hle : exportableCarriedDemandCents old ≤
        exportableCarriedDemandCents { old with status := .approved } :=
      hsame (by simp [hs]) (by simp)
    have hfreeze : (claimGraph l).Honoured (Frozen l') l.batches.keys (exportableOf l) := by
      refine ClaimGraph.Honoured.freeze hcollected hpin.amount_nonneg
        (fun x hx => (frozen_of_replaces hrep hx).imp_right And.left) fun t ht => ?_
      rw [claimedFrom_eq hinv]
      exact hok t ht
    have hgraph : claimGraph l' = claimGraph l := by
      unfold claimGraph
      rw [hclaims]
    unfold Collected
    rw [hgraph, hrep.keys_eq]
    exact ClaimGraph.Honoured.mono hfreeze hpin.amount_nonneg (fun _ => id)
      (exportableOf_of_replaces hrep hle)
  | hold hs _ =>
    refine hkeep ?_ ?_
    · intro hn
      exact absurd (Batch.recomputable_iff.mpr (Or.inr rfl)) hn
    · have hold : exportableCarriedDemandCents old = 0 :=
        hzero (by rcases hs with hs | hs <;> simp [hs])
      rw [hold]
      have hcarried := (hinv.batches old hrep.mem_old).carried_nonneg
      exact add_nonneg (ownFeeDeficitCents_nonneg old) hcarried
  | stampPayout hs _ => exact hkeep (fun hn => hn) (hsame (by simp [hs]) (by simp [hs]))
  | markSent hs =>
    refine hkeep (fun _ => ?_) (hsame (by simp [hs]) (by simp))
    simp [Batch.recomputable_iff, hs]
  | markSettled hs =>
    refine hkeep (fun _ => ?_) (hsame (by simp [hs]) (by simp))
    simp [Batch.recomputable_iff, hs]

theorem collected_of_commit {l l' : Ledger} {t : Transaction} (hinv : Consistent l)
    (hpin : Pinned l) (hcollected : Collected l) (hok : CollectsOnce l t)
    (h : commit l t = some l') : Collected l' := by
  have hinv' := consistent_of_commit hinv h
  cases commit_effect h with
  | unchanged => exact hcollected
  | @created merchantId dayKey freshId clock hfresh =>
    refine hcollected.of_same_claims hinv hpin rfl ?_ ?_ ?_
    · intro k hk
      obtain ⟨b, hb, hid⟩ := Table.mem_keys.mp hk
      exact Table.mem_keys.mpr ⟨b, Table.mem_insertNew.mpr (Or.inl hb), hid⟩
    · rintro x ⟨y, hy, hid, hf⟩
      rcases Table.mem_insertNew.mp hy with hy | ⟨rfl, _⟩
      · exact ⟨y, hy, hid, hf⟩
      · exact absurd (Batch.recomputable_iff.mpr (Or.inl rfl)) hf
    · intro s
      cases hs : l.batches.find? s with
      | none =>
        have hz : exportableOf l s = 0 := by
          rw [exportableOf, hs]
          rfl
        rw [hz]
        exact exportableOf_nonneg hinv' s
      | some b =>
        unfold exportableOf
        rw [hs, Table.find?_insertNew_of_some hs]
  | passed hp =>
    exact collected_of_pass hp hinv hinv' hpin (pinned_of_pass hpin hp.toWrittenPass)
      hcollected hok
  | flipped hflip hrep hrest => exact collected_of_flip hinv hpin hcollected hok hflip hrep hrest
  | business hframe =>
    obtain ⟨hb, _, _, hc⟩ := hframe
    refine hcollected.of_same_claims hinv hpin hc ?_ ?_ ?_
    · rw [hb]
    · rintro x ⟨y, hy, hid, hf⟩
      rw [hb] at hy
      exact ⟨y, hy, hid, hf⟩
    · intro s
      unfold exportableOf
      rw [hb]

theorem collected_of_reachable {l : Ledger} (h : LedgerReachable CollectsOnce l) :
    Collected l := by
  refine h.invariant_of (J := fun l => Consistent l ∧ Pinned l)
    (fun _ hs => ⟨consistent_of_reachable hs, pinned_of_reachable hs⟩) ?_ ?_
  · intro l hl s
    have hkeys : l.batches.keys = ∅ := by
      rw [hl.batches]
      rfl
    have hexport : exportableOf l s = 0 := by
      rw [exportableOf, hl.batches]
      rfl
    rw [hkeys, hexport]
    exact le_rfl
  · intro l t l' hJ _ hcollected hok ht
    exact collected_of_commit hJ.1 hJ.2 hcollected hok ht

/-- What the frozen batches of a merchant absorbed of inherited demand. -/
def collectedCents (l : Ledger) (m : MerchantId) : ℤ :=
  l.batches.sumOn (fun b => b.merchantId = m ∧ ¬ b.Recomputable)
    fun b => b.inheritedExternalDemandCents-b.carriedExternalDemandCents

/-- The fee deficits that the merchant's batches store. -/
def owedCents (l : Ledger) (m : MerchantId) : ℤ :=
  l.batches.sumOn (fun b => b.merchantId = m) ownFeeDeficitCents

/-- The own fee deficit of a batch, and what it carries. -/
def deficitOf (l : Ledger) (k : BatchId) : ℤ := ((l.batches.find? k).map ownFeeDeficitCents).getD 0

def carriedOf (l : Ledger) (k : BatchId) : ℤ :=
  ((l.batches.find? k).map (·.carriedExternalDemandCents)).getD 0

open Classical in
/-- The batches of a merchant that a frozen batch rests on. -/
noncomputable def committedOf (l : Ledger) (m : MerchantId) : Finset BatchId :=
  l.batches.keys.filter fun k => Committed l k ∧ ∃ b ∈ l.batches.rows, b.id = k ∧ b.merchantId = m

section Sums

variable {l : Ledger} {m : MerchantId}

theorem deficitOf_eq {b : Batch} (hb : b ∈ l.batches.rows) :
    deficitOf l b.id = ownFeeDeficitCents b := by
  simp [deficitOf, Table.find?_of_mem hb]

theorem carriedOf_eq {b : Batch} (hb : b ∈ l.batches.rows) :
    carriedOf l b.id = b.carriedExternalDemandCents := by
  simp [carriedOf, Table.find?_of_mem hb]

theorem mem_committedOf {k : BatchId} : k ∈ committedOf l m ↔ k ∈ l.batches.keys ∧
    Committed l k ∧ ∃ b ∈ l.batches.rows, b.id = k ∧ b.merchantId = m := by
  simp only [committedOf, Finset.mem_filter]

/-- The claims of a merchant's committed batches, less what they carry, are
covered by their own deficits. -/
theorem absorbed_le_deficits (hinv : Consistent l) (hpin : Pinned l) (hcollected : Collected l) :
    ∑ k ∈ committedOf l m, ((claimGraph l).amount k-carriedOf l k) ≤
      ∑ k ∈ committedOf l m, deficitOf l k := by
  refine ClaimGraph.absorbed_le_own hcollected (committedOf l m)
    (fun k hk => (mem_committedOf.mp hk).1) ?_ ?_ hpin.amount_nonneg
    (fun _ hc => amount_of_no_source hc) ?_
  · intro k hk
    exact (mem_committedOf.mp hk).2.1
  · intro k hk s hs
    obtain ⟨_, hcommitted, b, hb, hid, hm⟩ := mem_committedOf.mp hk
    obtain ⟨x, hx, hxid, hpinned⟩ := hpin.pin_of_claims hs
    have hxb := l.batches.eq_of_key_eq hx hb (hxid.trans hid.symm)
    obtain ⟨_, _, sb, hsb, hsid, hsm⟩ := hpin.pin_source x hx s hpinned
    refine mem_committedOf.mpr ⟨Table.mem_keys.mpr ⟨sb, hsb, hsid⟩, hcommitted.up hs, sb,
      hsb, hsid, ?_⟩
    rw [hsm, hxb, hm]
  · intro k hk
    obtain ⟨_, _, b, hb, rfl, _⟩ := mem_committedOf.mp hk
    rw [exportableOf_eq hb, deficitOf_eq hb, carriedOf_eq hb]
    exact exportable_le hinv hb

theorem collectedCents_le_absorbed (hinv : Consistent l) :
    collectedCents l m ≤ ∑ k ∈ committedOf l m, ((claimGraph l).amount k-carriedOf l k) := by
  classical
  rw [collectedCents, Table.sumOn_eq_sum_keys, committedOf, Finset.sum_filter]
  apply Finset.sum_le_sum
  intro k hk
  obtain ⟨b, hb, rfl⟩ := Table.mem_keys.mp hk
  have hle := (hinv.batches b hb).carried_le
  have hamount := inherited_eq_amount hinv hb
  rw [Table.find?_of_mem hb, carriedOf_eq hb, ← hamount]
  simp only [Option.map_some, Option.getD_some]
  by_cases hc : b.merchantId = m ∧ ¬ b.Recomputable
  · have hcommitted : Committed l b.id := .of_frozen ((frozen_iff hb).mpr hc.2)
    rw [if_pos hc, if_pos ⟨hcommitted, b, hb, rfl, hc.1⟩]
  · rw [if_neg hc]
    split_ifs
    · omega
    · exact le_rfl

theorem deficits_le_owedCents : ∑ k ∈ committedOf l m, deficitOf l k ≤ owedCents l m := by
  classical
  rw [owedCents, Table.sumOn_eq_sum_keys, committedOf, Finset.sum_filter]
  apply Finset.sum_le_sum
  intro k hk
  obtain ⟨b, hb, rfl⟩ := Table.mem_keys.mp hk
  have hnonneg := ownFeeDeficitCents_nonneg b
  rw [Table.find?_of_mem hb, deficitOf_eq hb]
  simp only [Option.map_some, Option.getD_some]
  by_cases hc : b.merchantId = m
  · rw [if_pos hc]
    split_ifs
    · exact le_rfl
    · exact hnonneg
  · rw [if_neg hc, if_neg]
    rintro ⟨_, x, hx, hid, hm⟩
    rw [l.batches.eq_of_key_eq hx hb hid] at hm
    exact hc hm

end Sums

/-- When every batch exports what is collected from it, frozen batches have
absorbed at most the deficits of the merchant's batches. -/
theorem collectedCents_le_owedCents {l : Ledger} (hinv : Consistent l) (hpin : Pinned l)
    (hcollected : Collected l) (m : MerchantId) : collectedCents l m ≤ owedCents l m :=
  calc collectedCents l m
      ≤ ∑ k ∈ committedOf l m, ((claimGraph l).amount k-carriedOf l k) :=
        collectedCents_le_absorbed hinv
    _ ≤ ∑ k ∈ committedOf l m, deficitOf l k := absorbed_le_deficits hinv hpin hcollected
    _ ≤ owedCents l m := deficits_le_owedCents

/-- In every run whose transactions meet the condition, and for every merchant,
the frozen batches have absorbed at most the stored fee deficits. -/
theorem carried_demand_collected_once {w : World}
    (h : ServiceReachable (committing CollectsOnce) w) (m : MerchantId) :
    collectedCents w.ledger m ≤ owedCents w.ledger m :=
  have hreach := ledgerReachable_of_service h
  collectedCents_le_owedCents (consistent_of_reachable hreach) (pinned_of_reachable hreach)
    (collected_of_reachable hreach) m

/-- Every claimed batch is covered when a batch is approved, and no batch is
passed after one was frozen. -/
def CollectsDirectly (l : Ledger) : Transaction → Prop
  | .approve _ => ∀ c ∈ l.claims.rows,
      l.claimedFrom c.sourceBatchId ≤ exportableOf l c.sourceBatchId
  | .recompute _ _ _ _ => ∀ b ∈ l.batches.rows, b.Recomputable
  | _ => True

instance (l : Ledger) : DecidablePred (CollectsDirectly l)
  | .approve _ => inferInstanceAs (Decidable (∀ c ∈ l.claims.rows,
      l.claimedFrom c.sourceBatchId ≤ exportableOf l c.sourceBatchId))
  | .recompute _ _ _ _ => inferInstanceAs (Decidable (∀ b ∈ l.batches.rows, b.Recomputable))
  | .createOrExtend .. | .hold .. | .stampPayout .. | .markSent .. | .markSettled ..
  | .business .. => instDecidableTrue

theorem collectsOnce_of_directly {l : Ledger} {t : Transaction} (h : CollectsDirectly l t) :
    CollectsOnce l t := by
  cases t with
  | approve batchId =>
    intro s hs
    obtain ⟨c, _, hlast⟩ := TransGen.tail'_iff.mp hs
    obtain ⟨k, hk, _, rfl⟩ := claimGraph_source.mp hlast
    exact h k hk
  | recompute batchId now pendingLines clock =>
    rintro ⟨f, ⟨x, hx, _, hf⟩, _⟩
    exact absurd (h x hx) hf
  | _ => trivial

/-- A deficit of the first day is taken over and withheld on the second. -/
def paidDeficit : List Action :=
  createdBehindHeld ++ proceed (noonOf 3) 0 :: approve 12 (noonOf 4) ++ payOut 12 (noonOf 4)

theorem carried_demand_collected_once_paidDeficit :
    ∃ w, ServiceReachable (committing CollectsOnce) w ∧ collectedCents w.ledger 1 = 1400 ∧
      collectedCents w.ledger 1 ≤ owedCents w.ledger 1 := by
  have hdirect : ServiceReachable (committing CollectsDirectly) (sampleState 2000 paidDeficit) :=
    sampleState_guarded (by decide +kernel) (by decide +kernel)
  have hw : ServiceReachable (committing CollectsOnce) (sampleState 2000 paidDeficit) :=
    hdirect.mono fun _ _ hok t ht => collectsOnce_of_directly (hok t ht)
  exact ⟨_, hw, by decide +kernel, carried_demand_collected_once hw 1⟩

/-- A deficit is handed on through a held batch and withheld by an approved
one; a late line then clears it at its source. -/
def clearedAfterCollection : List Action :=
  sell 1 1 1000 ++ sell 2 2 2400 ++ sell 3 3 10000 ++
    [.business (.reserve (sampleReservation 4 1 10000)) (noonOf 3),
      .runNightlyCycle (noonOf 4) none] ++
    buildGroup (noonOf 4) 11 ++ buildGroup (noonOf 4) 12 ++ buildGroup (noonOf 4) 13 ++
    approve 13 (noonOf 5) ++
    [.business (.markNoShow 4) (noonOf 6), .runNightlyCycle (noonOf 7) none] ++
    buildGroup (noonOf 7) 0

/-- The deficit was withheld from a frozen payout, and no deficit is left. -/
theorem clearedAfterCollection_collected_twice :
    ∃ w, ServiceReachable anyStep w ∧ collectedCents w.ledger 1 = 1400 ∧
      owedCents w.ledger 1 = 0 :=
  ⟨sampleState 2000 clearedAfterCollection, sampleState_reachable (by decide +kernel),
    by decide +kernel, by decide +kernel⟩

end Kurtar.CarriedDemandCollection

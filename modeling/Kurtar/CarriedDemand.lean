import Kurtar.ClawbackLedger
import Kurtar.DemandFlow

/-!
# Pins and claims between batches

A batch's first pass pins the predecessor whose demand it takes over, and
every pass rewrites the batch's claim on that predecessor. Pins lead to
batches of the same merchant and are written once; a claim is positive and
follows the claimant's pin. The claims form a graph over batch ids: what is
claimed and collected from a batch is read off the graph, and so is which
batches a frozen claimant rests on.
-/

namespace Kurtar.CarriedDemand

open KeyedTable GuardedRuns StatusTransitions IstanbulCalendar SettlementMath SettlementLedger
open SettlementRecompute SettlementTransactions SettlementService SettlementPass
open SettlementEffects ClawbackLedger DemandFlow

/-- The first pass of batch `c` pinned batch `s`. -/
def PinnedTo (l : Ledger) (c s : BatchId) : Prop :=
  ∃ b ∈ l.batches.rows, b.id = c ∧ b.carriedDemandSourceBatchId = some s

/-- The batch can no longer be recomputed. -/
def Frozen (l : Ledger) (b : BatchId) : Prop :=
  ∃ x ∈ l.batches.rows, x.id = b ∧ ¬ x.Recomputable

/-- The stored claims as a graph. -/
def claimGraph (l : Ledger) : ClaimGraph BatchId where
  source b := (l.claims.find? b).map (·.sourceBatchId)
  amount b := ((l.claims.find? b).map (·.amountCents)).getD 0

/-- What the batch of an id exports. -/
def exportableOf (l : Ledger) (b : BatchId) : ℤ :=
  ((l.batches.find? b).map exportableCarriedDemandCents).getD 0

theorem claimGraph_source {l : Ledger} {c s : BatchId} :
    (claimGraph l).ClaimsFrom c s ↔
      ∃ k ∈ l.claims.rows, k.claimantBatchId = c ∧ k.sourceBatchId = s := by
  simp only [ClaimGraph.ClaimsFrom, claimGraph, Option.map_eq_some_iff]
  constructor
  · rintro ⟨k, hk, hs⟩
    obtain ⟨hk, hc⟩ := Table.find?_eq_some.mp hk
    exact ⟨k, hk, hc, hs⟩
  · rintro ⟨k, hk, hc, hs⟩
    exact ⟨k, Table.find?_eq_some.mpr ⟨hk, hc⟩, hs⟩

theorem exportableOf_eq {l : Ledger} {b : Batch} (hb : b ∈ l.batches.rows) :
    exportableOf l b.id = exportableCarriedDemandCents b := by
  rw [exportableOf, Table.find?_of_mem hb]
  rfl

theorem exportable_nonneg {l : Ledger} (h : Consistent l) {b : Batch} (hb : b ∈ l.batches.rows) :
    0 ≤ exportableCarriedDemandCents b := by
  have hown : 0 ≤ ownFeeDeficitCents b := ownFeeDeficitCents_nonneg b
  have hcarried := (h.batches b hb).carried_nonneg
  unfold exportableCarriedDemandCents
  split_ifs
  · exact le_rfl
  · omega

theorem exportable_le {l : Ledger} (h : Consistent l) {b : Batch} (hb : b ∈ l.batches.rows) :
    exportableCarriedDemandCents b ≤ ownFeeDeficitCents b+b.carriedExternalDemandCents := by
  have hown : 0 ≤ ownFeeDeficitCents b := ownFeeDeficitCents_nonneg b
  have hcarried := (h.batches b hb).carried_nonneg
  unfold exportableCarriedDemandCents
  split_ifs
  · omega
  · exact le_rfl

/-- The invariant of pins and claims. -/
structure Pinned (l : Ledger) : Prop where
  claim_pos : ∀ c ∈ l.claims.rows, 0 < c.amountCents
  claim_pin : ∀ c ∈ l.claims.rows, PinnedTo l c.claimantBatchId c.sourceBatchId
  /-- Only a passed batch has a pin, and it leads to another batch of the merchant. -/
  pin_source : ∀ b ∈ l.batches.rows, ∀ s, b.carriedDemandSourceBatchId = some s →
    b.shortfallResolvedAt ≠ none ∧ s ≠ b.id ∧
      ∃ sb ∈ l.batches.rows, sb.id = s ∧ sb.merchantId = b.merchantId

theorem pinned_of_empty {l : Ledger} (h : Empty l) : Pinned l := by
  constructor <;> simp [h.batches, h.claims]

/-- Only the claims and the pins of the batches matter. -/
theorem Pinned.of_same_pins {l l' : Ledger} (h : Pinned l) (hclaims : l'.claims = l.claims)
    (hold : ∀ b ∈ l.batches.rows, ∃ b' ∈ l'.batches.rows, b'.id = b.id ∧
      b'.merchantId = b.merchantId ∧
      b'.carriedDemandSourceBatchId = b.carriedDemandSourceBatchId)
    (hnew : ∀ b' ∈ l'.batches.rows, b'.carriedDemandSourceBatchId = none ∨
      ∃ b ∈ l.batches.rows, b'.id = b.id ∧ b'.merchantId = b.merchantId ∧
        b'.carriedDemandSourceBatchId = b.carriedDemandSourceBatchId ∧
        b'.shortfallResolvedAt = b.shortfallResolvedAt) : Pinned l' := by
  refine ⟨?_, ?_, ?_⟩
  · rw [hclaims]
    exact h.claim_pos
  · rw [hclaims]
    intro c hc
    obtain ⟨b, hb, hid, hpin⟩ := h.claim_pin c hc
    obtain ⟨b', hb', hid', _, hpin'⟩ := hold b hb
    exact ⟨b', hb', hid'.trans hid, hpin'.trans hpin⟩
  · intro b' hb' s hs
    rcases hnew b' hb' with hnone | ⟨b, hb, hid, hm, hpin, hres⟩
    · rw [hnone] at hs
      cases hs
    · obtain ⟨hr, hne, sb, hsb, hsid, hsm⟩ := h.pin_source b hb s (hpin ▸ hs)
      obtain ⟨sb', hsb', hsid', hsm', _⟩ := hold sb hsb
      exact ⟨hres ▸ hr, hid ▸ hne, sb', hsb', hsid'.trans hsid, by rw [hsm', hsm, hm]⟩

/-- The newest other batch is another batch of the merchant. -/
theorem newestOtherBatch_mem {l : Ledger} {merchantId : MerchantId} {b : BatchId} {o : Batch}
    (h : newestOtherBatch l merchantId b = some o) :
    o ∈ l.batches.rows ∧ o.merchantId = merchantId ∧ o.id ≠ b := by
  have hm := mem_of_greatest h
  obtain ⟨ho, hp⟩ := List.mem_filter.mp hm
  have hp' : o.merchantId = merchantId ∧ o.id ≠ b := by simpa using hp
  exact ⟨ho, hp'.1, hp'.2⟩

/-- A discovered source is the newest other batch, and it is held. -/
theorem discoverCarriedDemandSource_eq_some {l : Ledger} {merchantId : MerchantId}
    {b s : BatchId} : discoverCarriedDemandSource l merchantId b = some s ↔
      ∃ o, newestOtherBatch l merchantId b = some o ∧ o.status = .held ∧ o.id = s := by
  unfold discoverCarriedDemandSource
  cases newestOtherBatch l merchantId b with
  | none => simp
  | some o =>
    dsimp only
    split_ifs with hs
    · simp [hs]
    · simp [hs]

/-- The source of a pass is another batch of the merchant. -/
theorem passSource_mem {l : Ledger} (h : Pinned l) {batch : Batch} (hb : batch ∈ l.batches.rows)
    {s : BatchId} (hs : passSource l batch = some s) :
    s ≠ batch.id ∧ ∃ sb ∈ l.batches.rows, sb.id = s ∧ sb.merchantId = batch.merchantId := by
  unfold passSource at hs
  split_ifs at hs
  · obtain ⟨o, ho, _, rfl⟩ := discoverCarriedDemandSource_eq_some.mp hs
    obtain ⟨hmem, hm, hne⟩ := newestOtherBatch_mem ho
    exact ⟨hne, o, hmem, rfl, hm⟩
  · exact (h.pin_source batch hb s hs).2

/-- A positive carried demand is what the source exports beyond other claims. -/
theorem resolve_eq_of_pos {l : Ledger} {source claimant : BatchId}
    (h : 0 < resolveCarriedDemandFromSource l source claimant) :
    ∃ sb ∈ l.batches.rows, sb.id = source ∧
      resolveCarriedDemandFromSource l source claimant = exportableCarriedDemandCents sb
        -l.claims.sumOn (fun c => c.sourceBatchId = source ∧ c.claimantBatchId ≠ claimant)
          (·.amountCents) := by
  unfold resolveCarriedDemandFromSource at h ⊢
  cases hf : l.batches.find? source with
  | none => simp [hf] at h
  | some sb =>
    obtain ⟨hsb, hid⟩ := Table.find?_eq_some.mp hf
    simp only [hf] at h ⊢
    refine ⟨sb, hsb, hid, ?_⟩
    split_ifs at h ⊢ with hnone
    · exact absurd h (lt_irrefl 0)
    · omega

section Pass

variable {l l' : Ledger} {batchId : BatchId} {now clock : Instant}
  {pendingLines : List PendingSettlementLine} {batch row : Batch} {pass : RecomputePass}
  (hpin : Pinned l) (h : WrittenPass l batchId now pendingLines clock batch pass l' row)

include h

theorem pass_source_eq : pass.carriedDemandSourceBatchId = passSource l batch :=
  h.planned.source

include hpin

/-- A pass stores its pin and claims along it. -/
theorem pinned_of_pass : Pinned l' := by
  have hid := h.batch_id
  have hcols := h.row_columns
  have hkept : ∀ b ∈ l.batches.rows, ∃ b' ∈ l'.batches.rows, b'.id = b.id ∧
      b'.merchantId = b.merchantId := by
    intro b hb
    by_cases hk : b.id = batch.id
    · refine ⟨row, h.replaces.mem_new, by rw [hk]; exact h.replaces.key_new, ?_⟩
      rw [hcols.1, l.batches.eq_of_key_eq hb h.batch_mem hk]
    · exact ⟨b, h.replaces.mem_of_ne hb hk, rfl, rfl⟩
  refine ⟨?_, ?_, ?_⟩
  · intro c hc
    rcases h.mem_claims.mp hc with ⟨hc, _⟩ | ⟨hpos, _, _, hamount⟩
    · exact hpin.claim_pos c hc
    · rw [hamount]
      exact hpos
  · intro c hc
    rcases h.mem_claims.mp hc with ⟨hc, hne⟩ | ⟨_, hsource, hclaimant, _⟩
    · obtain ⟨b, hb, hbid, hs⟩ := hpin.claim_pin c hc
      refine ⟨b, h.replaces.mem_of_ne hb ?_, hbid, hs⟩
      rw [hbid, hid]
      exact hne
    · exact ⟨row, h.replaces.mem_new, h.row_id.trans hclaimant.symm,
        hcols.2.2.2.2.2.1.trans hsource⟩
  · intro b hb s hs
    have hsource : ∃ b₀ ∈ l.batches.rows, b.merchantId = b₀.merchantId ∧
        b.shortfallResolvedAt ≠ none ∧ s ≠ b.id ∧
        ∃ sb ∈ l.batches.rows, sb.id = s ∧ sb.merchantId = b₀.merchantId := by
      rcases h.replaces.mem_iff.mp hb with rfl | ⟨hb, _⟩
      · rw [hcols.2.2.2.2.2.1, pass_source_eq h] at hs
        obtain ⟨hne, hsb⟩ := passSource_mem hpin h.batch_mem hs
        rw [hid] at hne
        exact ⟨batch, h.batch_mem, hcols.1, hcols.2.2.2.2.2.2, by rw [h.row_id]; exact hne, hsb⟩
      · obtain ⟨hr, hne, hsb⟩ := hpin.pin_source b hb s hs
        exact ⟨b, hb, rfl, hr, hne, hsb⟩
    obtain ⟨b₀, _, hm, hr, hne, sb, hsb, hsid, hsm⟩ := hsource
    obtain ⟨sb', hsb', hsid', hsm'⟩ := hkept sb hsb
    exact ⟨hr, hne, sb', hsb', hsid'.trans hsid, by rw [hsm', hsm, hm]⟩

end Pass

theorem pinned_of_commit {l l' : Ledger} {t : Transaction} (hpin : Pinned l)
    (h : commit l t = some l') : Pinned l' := by
  cases commit_effect h with
  | unchanged => exact hpin
  | created hfresh =>
    refine hpin.of_same_pins rfl ?_ ?_
    · intro b hb
      exact ⟨b, Table.mem_insertNew.mpr (Or.inl hb), rfl, rfl, rfl⟩
    · intro b hb
      rcases Table.mem_insertNew.mp hb with hb | ⟨rfl, _⟩
      · exact Or.inr ⟨b, hb, rfl, rfl, rfl, rfl⟩
      · exact Or.inl rfl
  | passed hp => exact pinned_of_pass hpin hp.toWrittenPass
  | @flipped _ old new _ hflip hrep hrest =>
    have hkeeps := hflip.keeps
    have hclaims : l'.claims = l.claims := by rw [hrest]
    refine hpin.of_same_pins hclaims ?_ ?_
    · intro b hb
      by_cases hk : b.id = old.id
      · rw [l.batches.eq_of_key_eq hb hrep.mem_old hk]
        exact ⟨new, hrep.mem_new, hrep.key_new, by rw [hkeeps], by rw [hkeeps]⟩
      · exact ⟨b, hrep.mem_of_ne hb hk, rfl, rfl, rfl⟩
    · intro b hb
      rcases hrep.mem_iff.mp hb with rfl | ⟨hb, _⟩
      · exact Or.inr ⟨old, hrep.mem_old, hrep.key_new, by rw [hkeeps], by rw [hkeeps],
          by rw [hkeeps]⟩
      · exact Or.inr ⟨b, hb, rfl, rfl, rfl, rfl⟩
  | business hframe =>
    obtain ⟨hb, _, _, hc⟩ := hframe
    refine hpin.of_same_pins hc ?_ ?_
    · rw [hb]
      exact fun b hb => ⟨b, hb, rfl, rfl, rfl⟩
    · rw [hb]
      exact fun b hb => Or.inr ⟨b, hb, rfl, rfl, rfl, rfl⟩

theorem pinned_of_reachable {ok : Ledger → Transaction → Prop} {l : Ledger}
    (h : LedgerReachable ok l) : Pinned l :=
  h.invariant (fun _ => pinned_of_empty) fun _ _ _ hi _ ht => pinned_of_commit hi ht

/-- Claims follow pins. -/
theorem Pinned.pin_of_claims {l : Ledger} (h : Pinned l) {c s : BatchId}
    (hc : (claimGraph l).ClaimsFrom c s) : PinnedTo l c s := by
  obtain ⟨k, hk, rfl, rfl⟩ := claimGraph_source.mp hc
  exact h.claim_pin k hk

theorem Pinned.amount_nonneg {l : Ledger} (h : Pinned l) (b : BatchId) :
    0 ≤ (claimGraph l).amount b := by
  change 0 ≤ ((l.claims.find? b).map (·.amountCents)).getD 0
  cases hf : l.claims.find? b with
  | none => exact le_rfl
  | some c => exact (h.claim_pos c (Table.find?_eq_some.mp hf).1).le

/-- No batch claims from itself. -/
theorem Pinned.source_ne_self {l : Ledger} (h : Pinned l) (b : BatchId) :
    (claimGraph l).source b ≠ some b := by
  intro hs
  obtain ⟨x, hx, hid, hpin⟩ := h.pin_of_claims hs
  exact (h.pin_source x hx b hpin).2.1 hid.symm

/-- The inherited demand of a batch is its claim in the graph. -/
theorem inherited_eq_amount {l : Ledger} (h : Consistent l) {b : Batch}
    (hb : b ∈ l.batches.rows) : b.inheritedExternalDemandCents = (claimGraph l).amount b.id :=
  (h.batches b hb).claim

/-- What is claimed from a batch, read off the graph. -/
theorem claimedFrom_eq {l : Ledger} (h : Consistent l) (s : BatchId) :
    (claimGraph l).claimedFrom l.batches.keys s = l.claimedFrom s := by
  have hsub : l.claims.keys ⊆ l.batches.keys := by
    intro k hk
    obtain ⟨c, hc, rfl⟩ := Table.mem_keys.mp hk
    exact Table.mem_keys.mpr (h.claim_batch c hc)
  rw [Ledger.claimedFrom, Table.sumOn_eq_sum_keys, ClaimGraph.claimedFrom]
  rw [← Finset.sum_subset hsub]
  · apply Finset.sum_congr rfl
    intro k hk
    obtain ⟨c, hc, rfl⟩ := Table.mem_keys.mp hk
    simp [claimGraph, Table.find?_of_mem hc]
  · intro k _ hk
    simp [claimGraph, Table.find?_of_not_mem_keys hk]

end Kurtar.CarriedDemand

import Kurtar.CarriedDemandDiscovery

/-!
# Pins that lead back in time

A first pass pins the newest other batch, which may be younger than the batch
itself when the batch waited for its pass. As long as no first pass meets a
younger held batch, every pin leads to an older batch. Pins and claims are
then free of cycles, and as long as no new lines or business events arrive,
repeated passes keep every inherited demand below one fixed bound.
-/

namespace Kurtar.CarriedDemandPins

open Relation KeyedTable GuardedRuns StatusTransitions IstanbulCalendar SettlementMath
open SettlementLedger SettlementRecompute SettlementTransactions SettlementService SettlementPass
open SettlementEffects ClawbackLedger DemandFlow CarriedDemand CarriedDemandDiscovery

/-- The order in which batches are created, ties by id. -/
def creationKey (b : Batch) : ℤ ×ₗ ℕ := toLex (b.createdAt, b.id)

/-- When the transaction is a first pass, the newest other batch of the
merchant is not held, or was created before the passed batch. -/
def PinsBackward (l : Ledger) : Transaction → Prop
  | .recompute batchId _ _ _ => ∀ b ∈ l.batches.rows, b.id = batchId →
      b.shortfallResolvedAt = none → ∀ o, newestOtherBatch l b.merchantId b.id = some o →
        o.status = .held → creationKey o < creationKey b
  | _ => True

/-- Every pin leads to an older batch. -/
def PinsOlder (l : Ledger) : Prop :=
  ∀ b ∈ l.batches.rows, ∀ s ∈ l.batches.rows, b.carriedDemandSourceBatchId = some s.id →
    creationKey s < creationKey b

instance (l : Ledger) (t : Transaction) : Decidable (PinsBackward l t) := by
  have hnewest : ∀ b : Batch, Decidable (∀ o, newestOtherBatch l b.merchantId b.id = some o →
      o.status = .held → creationKey o < creationKey b) := fun b =>
    match h : newestOtherBatch l b.merchantId b.id with
    | none => isTrue (by simp)
    | some o => decidable_of_iff (o.status = .held → creationKey o < creationKey b) (by simp)
  cases t <;> unfold PinsBackward <;> infer_instance

theorem creationKey_of_commit {l l' : Ledger} {t : Transaction} (h : commit l t = some l')
    {b b' : Batch} (hb : b ∈ l.batches.rows) (hb' : b' ∈ l'.batches.rows) (hid : b'.id = b.id) :
    creationKey b' = creationKey b := by
  obtain ⟨k, hk, hkid, _, hc, _⟩ := commit_keeps h hb
  rw [l'.batches.eq_of_key_eq hb' hk (hid.trans hkid.symm), creationKey, creationKey, hc, hkid]

/-- A stored pin is an old pin, or the pin of a first pass. -/
theorem pin_of_commit {l l' : Ledger} {t : Transaction} (h : commit l t = some l') {b' : Batch}
    (hb' : b' ∈ l'.batches.rows) {s : BatchId} (hs : b'.carriedDemandSourceBatchId = some s) :
    ∃ b ∈ l.batches.rows, b.id = b'.id ∧ (b.carriedDemandSourceBatchId = some s ∨
      (∃ now pendingLines clock, t = .recompute b.id now pendingLines clock) ∧
        b.shortfallResolvedAt = none ∧
        discoverCarriedDemandSource l b.merchantId b.id = some s) := by
  cases commit_effect h with
  | unchanged => exact ⟨b', hb', rfl, Or.inl hs⟩
  | created =>
    rcases Table.mem_insertNew.mp hb' with hb | ⟨rfl, _⟩
    · exact ⟨b', hb, rfl, Or.inl hs⟩
    · cases hs
  | @passed _ now clock pendingLines batch row _ _ hp =>
    rcases hp.replaces.mem_iff.mp hb' with rfl | ⟨hb, _⟩
    · refine ⟨batch, hp.batch_mem, hp.replaces.key_new.symm, ?_⟩
      rw [hp.row_columns.2.2.2.2.2.1, pass_source_eq hp.toWrittenPass, passSource] at hs
      split_ifs at hs with hfirst
      · exact Or.inr ⟨⟨now, pendingLines, clock, by rw [hp.batch_id]⟩, hfirst, hs⟩
      · exact Or.inl hs
    · exact ⟨b', hb, rfl, Or.inl hs⟩
  | @flipped _ old new _ hflip hrep _ =>
    rcases hrep.mem_iff.mp hb' with rfl | ⟨hb, _⟩
    · have hkeeps := hflip.keeps
      rw [hkeeps] at hs
      exact ⟨old, hrep.mem_old, hrep.key_new.symm, Or.inl hs⟩
    · exact ⟨b', hb, rfl, Or.inl hs⟩
  | business hframe =>
    rw [hframe.1] at hb'
    exact ⟨b', hb', rfl, Or.inl hs⟩

theorem pinsOlder_of_commit {l l' : Ledger} {t : Transaction} (hpin : Pinned l)
    (holder : PinsOlder l) (hok : PinsBackward l t) (h : commit l t = some l') :
    PinsOlder l' := by
  intro b' hb' s' hs' hpinned
  have hold : ∃ b ∈ l.batches.rows, b.id = b'.id ∧ ∃ s ∈ l.batches.rows, s.id = s'.id ∧
      creationKey s < creationKey b := by
    obtain ⟨b, hb, hid, hs | ⟨⟨now, pendingLines, clock, rfl⟩, hfirst, hs⟩⟩ :=
      pin_of_commit h hb' hpinned
    · obtain ⟨_, _, s, hsl, hsid, _⟩ := hpin.pin_source b hb s'.id hs
      exact ⟨b, hb, hid, s, hsl, hsid, holder b hb s hsl (hsid ▸ hs)⟩
    · obtain ⟨o, ho, hheld, hoid⟩ := discoverCarriedDemandSource_eq_some.mp hs
      exact ⟨b, hb, hid, o, (newestOtherBatch_mem ho).1, hoid,
        hok b hb rfl hfirst o ho hheld⟩
  obtain ⟨b, hb, hid, s, hs, hsid, hlt⟩ := hold
  rwa [creationKey_of_commit h hb hb' hid.symm, creationKey_of_commit h hs hs' hsid.symm]

theorem pinsOlder_of_reachable {l : Ledger} (h : LedgerReachable PinsBackward l) :
    PinsOlder l := by
  refine h.invariant_of (J := Pinned) (fun _ hs => pinned_of_reachable hs) ?_ ?_
  · intro l hl
    simp [PinsOlder, hl.batches]
  · intro l t l' hpin _ holder hok ht
    exact pinsOlder_of_commit hpin holder hok ht

/-- Along a path of pins batches get older. -/
theorem older_of_path {l : Ledger} (holder : PinsOlder l) {c s : BatchId}
    (h : TransGen (PinnedTo l) c s) : ∀ b ∈ l.batches.rows, b.id = c →
      ∀ sb ∈ l.batches.rows, sb.id = s → creationKey sb < creationKey b := by
  have hedge : ∀ {u v}, PinnedTo l u v → ∀ b ∈ l.batches.rows, b.id = u →
      ∀ sb ∈ l.batches.rows, sb.id = v → creationKey sb < creationKey b := by
    rintro u v ⟨x, hx, hxid, hxs⟩ b hb hbid sb hsb hsid
    have he := l.batches.eq_of_key_eq hx hb (hxid.trans hbid.symm)
    subst he
    exact holder x hb sb hsb (by rw [hxs, hsid])
  induction h with
  | single hcs => exact hedge hcs
  | @tail m s _ hms ih =>
    intro b hb hbid sb hsb hsid
    obtain ⟨x, hx, hxid, hxs⟩ := hms
    have hlast := hedge ⟨x, hx, hxid, hxs⟩ x hx hxid sb hsb hsid
    exact hlast.trans (ih b hb hbid x hx hxid)

theorem pins_acyclic_of_older {l : Ledger} (holder : PinsOlder l) (b : BatchId) :
    ¬ TransGen (PinnedTo l) b b := by
  intro hcycle
  obtain ⟨_, ⟨x, hx, hxid, _⟩, _⟩ := TransGen.head'_iff.mp hcycle
  exact lt_irrefl _ (older_of_path holder hcycle x hx hxid x hx hxid)

section Growth

/-- What a batch may store as its own deficit while its lines and the fee in
force stay: the stored deficit, or the deficit of its lines. -/
def deficitBound (l : Ledger) (b : Batch) : ℤ :=
  max (ownFeeDeficitCents b)
    (match (l.merchants.find? b.merchantId).map fun merchant =>
        l.resolveBagFeeCentsForMerchant merchant b.periodStart with
      | some (.ok bagFeeCents) =>
        -feeBalance ((settlementInputLines l b.id).map fun line => chargedLine line bagFeeCents)
      | _ => 0)

/-- The deficit bound of an id; nothing for a batch that does not exist. -/
def ownBound (l : Ledger) (b : BatchId) : ℤ :=
  ((l.batches.find? b).map (deficitBound l)).getD 0

/-- All inherited demand, and the deficits of the batches created before. -/
def inheritedBound (l : Ledger) (key : ℤ ×ₗ ℕ) : ℤ :=
  l.batches.sumOn (fun _ => True) (·.inheritedExternalDemandCents)
    +l.batches.sumOn (fun x => creationKey x < key) (deficitBound l)

/-- All inherited demand and all deficits. -/
def growthBound (l : Ledger) : ℤ :=
  l.batches.sumOn (fun _ => True) (·.inheritedExternalDemandCents)
    +l.batches.sumOn (fun _ => True) (deficitBound l)

/-- Neither a business event nor a pass with new lines. -/
def Quiet : Transaction → Prop
  | .recompute _ _ pendingLines _ => pendingLines = []
  | .business _ _ => False
  | _ => True

theorem deficitBound_nonneg (l : Ledger) (b : Batch) : 0 ≤ deficitBound l b :=
  (le_max_left 0 _).trans (le_max_left _ _)

theorem ownBound_nonneg (l : Ledger) (b : BatchId) : 0 ≤ ownBound l b := by
  unfold ownBound
  cases l.batches.find? b with
  | none => exact le_rfl
  | some x => exact deficitBound_nonneg l x

theorem inheritedBound_mono (l : Ledger) {key key' : ℤ ×ₗ ℕ} (h : key ≤ key') :
    inheritedBound l key ≤ inheritedBound l key' := by
  refine Int.add_le_add_left (Table.sumOn_le_sumOn fun x _ => ?_) _
  have hx := deficitBound_nonneg l x
  by_cases hlt : creationKey x < key
  · rw [if_pos hlt, if_pos (hlt.trans_le h)]
  · rw [if_neg hlt]
    split_ifs
    · exact hx
    · exact le_rfl

theorem inheritedBound_le_growthBound (l : Ledger) (key : ℤ ×ₗ ℕ) :
    inheritedBound l key ≤ growthBound l := by
  refine Int.add_le_add_left (Table.sumOn_le_sumOn fun x _ => ?_) _
  have hx := deficitBound_nonneg l x
  simp only [if_true]
  split_ifs
  · exact le_rfl
  · exact hx

/-- A batch's own deficit fits between its bound and the bound of a younger batch. -/
theorem ownBound_add_inheritedBound {l : Ledger} {s : BatchId} {key key' : ℤ ×ₗ ℕ}
    (hs : ∀ x ∈ l.batches.rows, x.id = s → creationKey x = key) (h : key < key') :
    ownBound l s+inheritedBound l key ≤ inheritedBound l key' := by
  unfold ownBound
  cases hf : l.batches.find? s with
  | none => simpa using inheritedBound_mono l h.le
  | some x =>
    obtain ⟨hx, hid⟩ := Table.find?_eq_some.mp hf
    have hkey := hs x hx hid
    have hsplit := l.batches.sumOn_split (fun y => creationKey y < key')
      (fun y => creationKey y < key) (deficitBound l)
    have hbelow : l.batches.sumOn (fun y => creationKey y < key' ∧ creationKey y < key)
        (deficitBound l) = l.batches.sumOn (fun y => creationKey y < key) (deficitBound l) := by
      apply Table.sumOn_congr rfl
      intro y _
      by_cases hy : creationKey y < key
      · simp [hy, hy.trans h]
      · simp [hy]
    have hself : deficitBound l x ≤ l.batches.sumOn
        (fun y => creationKey y < key' ∧ ¬ creationKey y < key) (deficitBound l) :=
      Table.le_sumOn (p := fun y => creationKey y < key' ∧ ¬ creationKey y < key)
        (fun y _ _ => deficitBound_nonneg l y) hx
        ⟨hkey ▸ h, by rw [hkey]; exact lt_irrefl key⟩
    simp only [inheritedBound, Option.map_some, Option.getD_some]
    omega

/-- What stays fixed, and what stays bounded, from `l₀` on while only quiet
transactions commit. -/
structure QuietSince (l₀ l : Ledger) : Prop where
  merchants : l.merchants = l₀.merchants
  pricing : l.pricing = l₀.pricing
  lines : ∀ b, settlementInputLines l b = settlementInputLines l₀ b
  /-- Batches of `l₀` keep what identifies them. -/
  kept : ∀ x ∈ l₀.batches.rows, ∃ b ∈ l.batches.rows, b.id = x.id ∧
    b.merchantId = x.merchantId ∧ b.createdAt = x.createdAt ∧ b.periodStart = x.periodStart
  deficit : ∀ b ∈ l.batches.rows, ownFeeDeficitCents b ≤ ownBound l₀ b.id
  inherited : ∀ b ∈ l.batches.rows,
    b.inheritedExternalDemandCents ≤ inheritedBound l₀ (creationKey b)

theorem QuietSince.same {l₀ l : Ledger} (h : QuietSince l₀ l) {b x : Batch}
    (hb : b ∈ l.batches.rows) (hx : x ∈ l₀.batches.rows) (hid : x.id = b.id) :
    b.merchantId = x.merchantId ∧ b.createdAt = x.createdAt ∧ b.periodStart = x.periodStart := by
  obtain ⟨k, hk, hkid, hkeeps⟩ := h.kept x hx
  rwa [l.batches.eq_of_key_eq hb hk (hid.symm.trans hkid.symm)]

theorem inheritedBound_nonneg {l : Ledger} (h : Consistent l) (key : ℤ ×ₗ ℕ) :
    0 ≤ inheritedBound l key := by
  have hinherited : 0 ≤ l.batches.sumOn (fun _ => True) (·.inheritedExternalDemandCents) :=
    Table.sumOn_nonneg fun b hb _ =>
      (h.batches b hb).carried_nonneg.trans (h.batches b hb).carried_le
  have hdeficits : 0 ≤ l.batches.sumOn (fun x => creationKey x < key) (deficitBound l) :=
    Table.sumOn_nonneg fun x _ _ => deficitBound_nonneg l x
  exact add_nonneg hinherited hdeficits

theorem quietSince_refl {l : Ledger} (h : Consistent l) : QuietSince l l := by
  refine ⟨rfl, rfl, fun _ => rfl, ?_, ?_, ?_⟩
  · intro x hx
    exact ⟨x, hx, rfl, rfl, rfl, rfl⟩
  · intro b hb
    rw [ownBound, Table.find?_of_mem hb]
    exact le_max_left _ _
  · intro b hb
    have hself : b.inheritedExternalDemandCents ≤
        l.batches.sumOn (fun _ => True) (·.inheritedExternalDemandCents) :=
      Table.le_sumOn (p := fun _ => True) (f := (·.inheritedExternalDemandCents))
        (fun x hx _ => (h.batches x hx).carried_nonneg.trans (h.batches x hx).carried_le)
        hb trivial
    have hdeficits : 0 ≤ l.batches.sumOn (fun x => creationKey x < creationKey b)
        (deficitBound l) := Table.sumOn_nonneg fun x _ _ => deficitBound_nonneg l x
    unfold inheritedBound
    omega

section QuietPass

variable {l₀ l l' : Ledger} {batchId : BatchId} {now clock : Instant} {batch row : Batch}
  {pass : RecomputePass} (hquiet : QuietSince l₀ l)
  (h : WrittenPass l batchId now [] clock batch pass l' row)

include h

/-- A pass without new lines keeps the settlement inputs of every batch. -/
theorem settlementInputLines_of_pass (b : BatchId) :
    settlementInputLines l' b = settlementInputLines l b := by
  have hrows := h.lines_rows
  unfold settlementInputLines
  rw [hrows, h.frame.2.2, List.filter_map, List.filterMap_map]
  change _ = List.filterMap _ (List.filter _ (insertPendingLines l batchId []).lines.rows)
  have hkeep : ∀ line : SettlementLine,
      (if line.reservationId ∈ pass.lockedLines.map (·.reservationId) then
        projectLine l' now (chargeLine pass.result.perLine line)
      else chargeLine pass.result.perLine line).reservationId = line.reservationId ∧
      (if line.reservationId ∈ pass.lockedLines.map (·.reservationId) then
        projectLine l' now (chargeLine pass.result.perLine line)
      else chargeLine pass.result.perLine line).batchId = line.batchId ∧
      (if line.reservationId ∈ pass.lockedLines.map (·.reservationId) then
        projectLine l' now (chargeLine pass.result.perLine line)
      else chargeLine pass.result.perLine line).grossCents = line.grossCents := by
    intro line
    obtain ⟨hr, hb, _, hg, _⟩ := chargeLine_keeps pass.result.perLine line
    split_ifs
    · exact ⟨hr, hb, hg⟩
    · exact ⟨hr, hb, hg⟩
  rw [List.filter_congr (q := fun line => decide (line.batchId = b))]
  · apply List.filterMap_congr
    intro line _
    obtain ⟨hr, _, hg⟩ := hkeep line
    simp only [Function.comp_apply, hr, hg]
  · intro line _
    simp only [Function.comp_apply, (hkeep line).2.1]

include hquiet

/-- The own deficit a quiet pass stores is within its bound. -/
theorem deficit_of_quiet_pass (hinv : Consistent l₀) :
    ownFeeDeficitCents row ≤ ownBound l₀ batchId := by
  have hlines : pass.lines = settlementInputLines l₀ batchId := by
    rw [h.planned.lines, h.batch_id]
    exact hquiet.lines batchId
  rw [h.row_deficit, passBalance, hlines, ownBound]
  cases hf : l₀.batches.find? batchId with
  | none =>
    rw [Table.find?_eq_none] at hf
    have hnil : settlementInputLines l₀ batchId = [] := by
      unfold settlementInputLines
      rw [List.filter_eq_nil_iff.mpr]
      · rfl
      · intro line hline hb
        obtain ⟨sb, hsb, hid⟩ := hinv.line_batch line hline
        exact hf sb hsb (hid.trans (by simpa using hb))
    rw [hnil]
    exact le_rfl
  | some x =>
    obtain ⟨hx, hxid⟩ := Table.find?_eq_some.mp hf
    obtain ⟨hm, _, hp⟩ := hquiet.same h.batch_mem hx (hxid.trans h.batch_id.symm)
    obtain ⟨merchant, hmerchant, hfee, _⟩ := h.planned.bagFee
    have hmerchant' : l₀.merchants.find? x.merchantId = some merchant := by
      rw [← hm, ← hquiet.merchants]
      exact hmerchant
    have hfee' : l₀.resolveBagFeeCentsForMerchant merchant x.periodStart =
        .ok pass.bagFeeCents := by
      rw [← hp, ← hfee]
      simp only [Ledger.resolveBagFeeCentsForMerchant, Ledger.resolvePlatformPricing,
        insertPendingLines, hquiet.pricing]
    simp only [Option.map_some, Option.getD_some, deficitBound, hmerchant', hfee', hxid]
    have hnonneg := ownFeeDeficitCents_nonneg x
    omega

/-- The demand a quiet pass takes over is within the bound of its batch. -/
theorem inherited_of_quiet_pass (hinv₀ : Consistent l₀) (hinv : Consistent l) (hpin : Pinned l)
    (holder : PinsOlder l') :
    row.inheritedExternalDemandCents ≤ inheritedBound l₀ (creationKey row) := by
  rw [h.row_columns.2.2.2.2.1]
  by_cases hpos : 0 < pass.carriedFromPrior
  · obtain ⟨source, hsource, hcarried⟩ := h.planned.source_of_carried_pos hpos
    rw [hcarried] at hpos ⊢
    obtain ⟨sb, hsb, hid, hresolve⟩ := resolve_eq_of_pos hpos
    have htaken : 0 ≤ l.claims.sumOn
        (fun c => c.sourceBatchId = source ∧ c.claimantBatchId ≠ batch.id) (·.amountCents) :=
      Table.sumOn_nonneg fun c hc _ => (hpin.claim_pos c hc).le
    have hexport : exportableCarriedDemandCents sb ≤
        ownFeeDeficitCents sb+sb.inheritedExternalDemandCents := by
      have hle := exportable_le hinv hsb
      have hcarried := (hinv.batches sb hsb).carried_le
      omega
    have hown := hquiet.deficit sb hsb
    have hinherited := hquiet.inherited sb hsb
    have hstep : ownBound l₀ sb.id+inheritedBound l₀ (creationKey sb) ≤
        inheritedBound l₀ (creationKey row) := by
      apply ownBound_add_inheritedBound
      · intro x hx hxid
        obtain ⟨_, hc, _⟩ := hquiet.same hsb hx hxid
        rw [creationKey, creationKey, hc, hxid]
      · refine holder row h.replaces.mem_new sb (h.replaces.mem_of_ne hsb ?_) ?_
        · rw [hid, h.batch_id]
          rw [pass_source_eq h] at hsource
          exact h.batch_id ▸ (passSource_mem hpin h.batch_mem hsource).1
        · rw [h.row_columns.2.2.2.2.2.1, hsource, hid]
    have hclaims : (insertPendingLines l batchId []).claims = l.claims := rfl
    rw [hclaims] at hresolve
    omega
  · have hbound := inheritedBound_nonneg hinv₀ (creationKey row)
    omega

end QuietPass

theorem quietSince_of_commit {l₀ l l' : Ledger} {t : Transaction} (hinv₀ : Consistent l₀)
    (hinv : Consistent l) (hpin : Pinned l) (holder : PinsOlder l') (hquiet : QuietSince l₀ l)
    (ht : Quiet t) (h : commit l t = some l') : QuietSince l₀ l' := by
  have hkept : ∀ x ∈ l₀.batches.rows, ∃ b ∈ l'.batches.rows, b.id = x.id ∧
      b.merchantId = x.merchantId ∧ b.createdAt = x.createdAt ∧
      b.periodStart = x.periodStart := by
    intro x hx
    obtain ⟨b, hb, hid, hm, hc, hp⟩ := hquiet.kept x hx
    obtain ⟨b', hb', hid', hm', hc', hp'⟩ := commit_keeps h hb
    exact ⟨b', hb', hid'.trans hid, hm'.trans hm, hc'.trans hc, hp'.trans hp⟩
  cases commit_effect h with
  | unchanged => exact hquiet
  | created =>
    refine ⟨hquiet.merchants, hquiet.pricing, hquiet.lines, hkept, ?_, ?_⟩
    · intro b hb
      rcases Table.mem_insertNew.mp hb with hb | ⟨rfl, _⟩
      · exact hquiet.deficit b hb
      · exact ownBound_nonneg l₀ _
    · intro b hb
      rcases Table.mem_insertNew.mp hb with hb | ⟨rfl, _⟩
      · exact hquiet.inherited b hb
      · exact inheritedBound_nonneg hinv₀ _
  | @passed _ _ _ pendingLines _ _ _ _ hp =>
    cases (show pendingLines = [] from ht)
    have hw := hp.toWrittenPass
    refine ⟨hw.frame.1.trans hquiet.merchants, hw.frame.2.1.trans hquiet.pricing, ?_, hkept,
      ?_, ?_⟩
    · intro b
      rw [settlementInputLines_of_pass hw, hquiet.lines]
    · intro b hb
      rcases hw.replaces.mem_iff.mp hb with rfl | ⟨hb, _⟩
      · rw [hw.row_id]
        exact deficit_of_quiet_pass hquiet hw hinv₀
      · exact hquiet.deficit b hb
    · intro b hb
      rcases hw.replaces.mem_iff.mp hb with rfl | ⟨hb, _⟩
      · exact inherited_of_quiet_pass hquiet hw hinv₀ hinv hpin holder
      · exact hquiet.inherited b hb
  | @flipped _ old new _ hflip hrep hrest =>
    have hkeeps := hflip.keeps
    have hold : ownFeeDeficitCents new = ownFeeDeficitCents old ∧ new.id = old.id ∧
        new.inheritedExternalDemandCents = old.inheritedExternalDemandCents ∧
        creationKey new = creationKey old := by
      rw [hkeeps]
      exact ⟨rfl, rfl, rfl, rfl⟩
    obtain ⟨hdeficit, hid, hinherited, hkey⟩ := hold
    refine ⟨?_, ?_, ?_, hkept, ?_, ?_⟩
    · rw [hrest]
      exact hquiet.merchants
    · rw [hrest]
      exact hquiet.pricing
    · rw [hrest]
      exact hquiet.lines
    · intro b hb
      rcases hrep.mem_iff.mp hb with rfl | ⟨hb, _⟩
      · rw [hdeficit, hid]
        exact hquiet.deficit old hrep.mem_old
      · exact hquiet.deficit b hb
    · intro b hb
      rcases hrep.mem_iff.mp hb with rfl | ⟨hb, _⟩
      · rw [hinherited, hkey]
        exact hquiet.inherited old hrep.mem_old
      · exact hquiet.inherited b hb
  | business => exact ht.elim

/-- Quiet transactions whose first passes pin backward keep all inherited
demand below the bound of the state they started from. -/
theorem inherited_le_growthBound {l₀ l : Ledger} (hinv₀ : Consistent l₀) (hpin₀ : Pinned l₀)
    (holder₀ : PinsOlder l₀)
    (h : Reachable commit (fun l t => PinsBackward l t ∧ Quiet t) (· = l₀) l) {b : Batch}
    (hb : b ∈ l.batches.rows) : b.inheritedExternalDemandCents ≤ growthBound l₀ := by
  have hinv : Consistent l ∧ Pinned l ∧ PinsOlder l ∧ QuietSince l₀ l := by
    refine h.invariant
      (I := fun l => Consistent l ∧ Pinned l ∧ PinsOlder l ∧ QuietSince l₀ l) ?_ ?_
    · rintro l rfl
      exact ⟨hinv₀, hpin₀, holder₀, quietSince_refl hinv₀⟩
    · rintro l t l' ⟨hc, hp, ho, hq⟩ ⟨hok, hquiet⟩ ht
      have ho' := pinsOlder_of_commit hp ho hok ht
      exact ⟨consistent_of_commit hc ht, pinned_of_commit hp ht, ho',
        quietSince_of_commit hinv₀ hc hp ho' hq hquiet ht⟩
  exact (hinv.2.2.2.inherited b hb).trans (inheritedBound_le_growthBound l₀ _)

end Growth

/-- In every run in which no first pass meets a younger held batch, following
pins never returns, nor does following claims, and repeated recomputes without
business events or new lines keep every inherited demand below a fixed bound. -/
theorem pins_never_return {w : World} (h : ServiceReachable (committing PinsBackward) w) :
    (∀ b, ¬ TransGen (PinnedTo w.ledger) b b) ∧
    (∀ b, ¬ TransGen (claimGraph w.ledger).ClaimsFrom b b) ∧
    ∃ bound : ℤ, ∀ l,
      Reachable commit (fun l t => PinsBackward l t ∧ Quiet t) (· = w.ledger) l →
        ∀ b ∈ l.batches.rows, b.inheritedExternalDemandCents ≤ bound := by
  have hreach := ledgerReachable_of_service h
  have hpin := pinned_of_reachable hreach
  have holder := pinsOlder_of_reachable hreach
  refine ⟨pins_acyclic_of_older holder, ?_, growthBound w.ledger, ?_⟩
  · intro b hcycle
    exact pins_acyclic_of_older holder b
      (TransGen.mono (fun c s hcs => hpin.pin_of_claims hcs) b b hcycle)
  · intro l hl b hb
    exact inherited_le_growthBound (consistent_of_reachable hreach) hpin holder hl hb

theorem pins_never_return_createdBehindHeld :
    ∃ w, ServiceReachable (committing PinsBackward) w ∧ PinnedTo w.ledger 12 11 ∧
      (∀ b, ¬ TransGen (PinnedTo w.ledger) b b) ∧
      ∃ bound : ℤ, ∀ l,
        Reachable commit (fun l t => PinsBackward l t ∧ Quiet t) (· = w.ledger) l →
          ∀ b ∈ l.batches.rows, b.inheritedExternalDemandCents ≤ bound := by
  have hw : ServiceReachable (committing PinsBackward)
      (sampleState 2000 (createdBehindHeld ++ [proceed (noonOf 3) 0])) :=
    sampleState_guarded (by decide +kernel) (by decide +kernel)
  obtain ⟨hpins, _, hbound⟩ := pins_never_return hw
  exact ⟨_, hw, by unfold PinnedTo; decide +kernel, hpins, hbound⟩

/-- Two batches wait for their first pass; the older day's batch is created
later and put on hold, and each then pins the other. -/
def pinnedToEachOther : List Action :=
  [.business (.reserve (sampleReservation 2 1 10000)) (noonOf 1)] ++ sell 1 2 10000 ++
    [.runNightlyCycle (noonOf 3) none, proceed (noonOf 3) 11,
      .business (.markNoShow 2) (noonOf 3),
      .runNightlyCycle (noonOf 4) none, proceed (noonOf 4) 12,
      .adminHold 12 none 7,
      .adminApprove 11 7 (noonOf 5), proceed (noonOf 5) 0,
      .adminHold 11 none 7,
      .adminRetry 12 7 (noonOf 6), proceed (noonOf 6) 0]

theorem pinnedToEachOther_cycle :
    ∃ w, ServiceReachable anyStep w ∧ TransGen (PinnedTo w.ledger) 11 11 := by
  refine ⟨sampleState 2000 pinnedToEachOther, sampleState_reachable (by decide +kernel), ?_⟩
  have hback : PinnedTo (sampleState 2000 pinnedToEachOther).ledger 11 12 := by
    unfold PinnedTo
    decide +kernel
  have hforth : PinnedTo (sampleState 2000 pinnedToEachOther).ledger 12 11 := by
    unfold PinnedTo
    decide +kernel
  exact .tail (.single hback) hforth

end Kurtar.CarriedDemandPins

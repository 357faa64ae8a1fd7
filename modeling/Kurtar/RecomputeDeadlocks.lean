import Mathlib.Data.Int.ConditionallyCompleteOrder
import Mathlib.Data.Prod.Lex
import Kurtar.RecomputeLocks
import Kurtar.WaitCircles

/-!
# Deadlocks of recomputes and renewals

The own batch, the subscription and the lines are locked in one order. The
batch that demand is carried over from comes last and goes back in this order,
so every circle of waits has a recompute that waits for it while its holder,
which recomputes it, waits as well.
-/

namespace Kurtar.RecomputeDeadlocks

open GuardedRuns KeyedTable IstanbulCalendar SettlementMath SettlementLedger SettlementRecompute
open LockedTransactions RecomputeLocks WaitCircles

section Rules

/-- The order in which the rows are locked, but for the last one. -/
def level : Row → ℕ ×ₗ ℤ ×ₗ ℕ
  | .batch _ => toLex (0, toLex (0, 0))
  | .subscription _ => toLex (1, toLex (0, 0))
  | .line redeemedAt reservationId => toLex (2, toLex (redeemedAt, reservationId))

/-- What a transaction may want: a row that comes later, or another batch. -/
def Rule (held : List (Row × LockMode)) (want : Row × LockMode) : Prop :=
  Ahead level held want ∨ ∃ b c, b ≠ c ∧ (.batch b, .forUpdate) ∈ held ∧ want.1 = .batch c

variable {held : List (Row × LockMode)}

theorem rule_nil (want : Row × LockMode) : Rule [] want :=
  .inl (.inr fun _ h => absurd h List.not_mem_nil)

theorem level_batch_lt_subscription (b : BatchId) (merchantId : MerchantId) :
    level (.batch b) < level (.subscription merchantId) :=
  Prod.Lex.toLex_lt_toLex.mpr (.inl Nat.zero_lt_one)

theorem level_batch_lt_line (b : BatchId) (r : Instant) (k : ReservationId) :
    level (.batch b) < level (.line r k) :=
  Prod.Lex.toLex_lt_toLex.mpr (.inl Nat.two_pos)

theorem level_subscription_lt_line (merchantId : MerchantId) (r : Instant) (k : ReservationId) :
    level (.subscription merchantId) < level (.line r k) :=
  Prod.Lex.toLex_lt_toLex.mpr (.inl Nat.one_lt_two)

/-- The row of a line. -/
def lineRow (line : SettlementLine) : Row := .line line.redeemedAt line.reservationId

theorem level_lineRow_lt {a b : SettlementLine} (h : redeemedBefore a b)
    (hne : a.reservationId ≠ b.reservationId) : level (lineRow a) < level (lineRow b) := by
  refine Prod.Lex.toLex_lt_toLex.mpr (.inr ⟨rfl, lt_of_le_of_ne h ?_⟩)
  intro heq
  exact hne (congrArg Prod.snd (toLex.injective heq))

/-- The lines are locked in ascending order. -/
theorem clawbackRows_ascend (l : Ledger) (merchantId : MerchantId) (batchId : BatchId) :
    (clawbackRows l merchantId batchId).Pairwise fun a b => level (lineRow a) < level (lineRow b) := by
  have : Std.Total redeemedBefore := ⟨fun a b => le_total (toLex _) (toLex _)⟩
  have : IsTrans SettlementLine redeemedBefore := ⟨fun _ _ _ => le_trans⟩
  have hsorted := List.pairwise_insertionSort redeemedBefore
    (l.lines.rows.filter fun line => lockedForPass l merchantId batchId line)
  have hnodup : ((clawbackRows l merchantId batchId).map (·.reservationId)).Nodup :=
    (((List.perm_insertionSort _ _).map _).nodup_iff).mpr
      ((l.lines.rows.filter_sublist.map _).nodup l.lines.keys_nodup)
  refine (hsorted.and (List.pairwise_map.mp hnodup)).imp ?_
  intro a b hab
  exact level_lineRow_lt hab.1 hab.2

end Rules

section Programs

variable {held : List (Row × LockMode)}

/-- Lines that ascend and come after everything held. -/
theorem obeys_lockLines {next : Tx} (lines : List SettlementLine)
    (hascend : lines.Pairwise fun a b => level (lineRow a) < level (lineRow b))
    (hafter : ∀ line ∈ lines, ∀ h ∈ held, level h.1 < level (lineRow line))
    (hnext : ∀ held', (∀ h ∈ held, h ∈ held') → Obeys Rule next held') :
    Obeys Rule (lockLines next lines) held := by
  induction lines generalizing held with
  | nil => exact hnext held fun _ h => h
  | cons line lines ih =>
    obtain ⟨hfirst, hrest⟩ := List.pairwise_cons.mp hascend
    refine ⟨.inl (.inr (hafter line List.mem_cons_self)), ih hrest ?_ ?_⟩
    · intro other hother h hh
      rcases List.mem_cons.mp hh with heq | hh
      · rw [heq]
        exact hfirst other hother
      · exact hafter other (List.mem_cons_of_mem _ hother) h hh
    · intro held' hsub
      exact hnext held' fun h hh => hsub h (List.mem_cons_of_mem _ hh)

/-- Another batch may be wanted by whoever holds one, and its own is held. -/
theorem rule_batch {b : BatchId} (hheld : (.batch b, .forUpdate) ∈ held) (c : BatchId) :
    Rule held (.batch c, .forUpdate) := by
  by_cases hbc : b = c
  · exact .inl (.inl ⟨_, hheld, congrArg Row.batch hbc, LockMode.covers_self _⟩)
  · exact .inr ⟨b, c, hbc, hheld, rfl⟩

theorem obeys_resolveSource {batchId : BatchId} {next : Option BatchId → ℤ → Tx}
    (source : Option BatchId) (hheld : (.batch batchId, .forUpdate) ∈ held)
    (hnext : ∀ source carried held, Obeys Rule (next source carried) held) :
    Obeys Rule (resolveSource batchId next source) held := by
  cases source with
  | none => exact hnext _ _ _
  | some id =>
    intro l
    dsimp only
    split_ifs with hfind
    · exact ⟨rule_batch hheld id, fun _ => hnext _ _ _⟩
    · exact hnext _ _ _

theorem obeys_carrySource {batch : Batch} {next : Option BatchId → ℤ → Tx}
    (hheld : (.batch batch.id, .forUpdate) ∈ held)
    (hnext : ∀ source carried held, Obeys Rule (next source carried) held) :
    Obeys Rule (carrySource batch next) held := by
  unfold carrySource
  split_ifs with hfirst
  · intro l
    dsimp only
    split
    · exact obeys_resolveSource none hheld hnext
    · refine ⟨rule_batch hheld _, ?_⟩
      exact fun _ => obeys_resolveSource _ (List.mem_cons_of_mem _ hheld) hnext
  · exact obeys_resolveSource _ hheld hnext

theorem obeys_writeAndCheck (batch : Batch) (pass : RecomputePass) (now clock : Instant) :
    Obeys Rule (writeAndCheck batch pass now clock) held := by
  intro l l'
  dsimp only
  split
  · trivial
  · split
    · trivial
    · trivial

theorem obeys_lockClawback {merchantId : MerchantId} {batchId : BatchId}
    {next : List LockedClawbackLine → Tx}
    (hbefore : ∀ r k, ∀ h ∈ held, level h.1 < level (.line r k))
    (hnext : ∀ lines held', (∀ h ∈ held, h ∈ held') → Obeys Rule (next lines) held') :
    Obeys Rule (lockAndResetOwnClawbackLedger merchantId batchId next) held := by
  intro l
  refine obeys_lockLines _ (clawbackRows_ascend l merchantId batchId) ?_ ?_
  · exact fun line _ h hh => hbefore line.redeemedAt line.reservationId h hh
  · exact fun held' hsub _ => hnext _ held' hsub

/-- The own batch is held, then the subscription too. -/
theorem obeys_lockSubscription {batch : Batch} {membershipExemptUntil : Option Instant}
    {next : Option MembershipDueForRecompute → Tx}
    (hnext : ∀ due held', (.batch batch.id, .forUpdate) ∈ held' →
      (∀ r k, ∀ h ∈ held', level h.1 < level (.line r k)) → Obeys Rule (next due) held') :
    Obeys Rule (lockSubscription batch membershipExemptUntil next)
      [(.batch batch.id, .forUpdate)] := by
  intro l
  dsimp only
  split_ifs with hfind
  · refine ⟨.inl (.inr ?_), fun _ => hnext _ _ (List.mem_cons_of_mem _ List.mem_cons_self) ?_⟩
    · intro h hh
      rw [List.mem_singleton.mp hh]
      exact level_batch_lt_subscription _ _
    · intro r k h hh
      rcases List.mem_cons.mp hh with heq | hh
      · rw [heq]
        exact level_subscription_lt_line _ _ _
      · rw [List.mem_singleton.mp hh]
        exact level_batch_lt_line _ _ _
  · refine fun _ => hnext _ _ List.mem_cons_self ?_
    intro r k h hh
    rw [List.mem_singleton.mp hh]
    exact level_batch_lt_line _ _ _

theorem obeys_recomputeOpenBatch (batch : Batch) (now : Instant)
    (pendingLines : List PendingSettlementLine) (clock : Instant) :
    Obeys Rule (recomputeOpenBatch batch now pendingLines clock)
      [(.batch batch.id, .forUpdate)] := by
  intro l
  dsimp only
  split
  · trivial
  · split
    · trivial
    · refine obeys_lockSubscription ?_
      intro due held hheld hbefore
      refine obeys_lockClawback hbefore ?_
      intro lockedLines held' hsub
      refine obeys_carrySource (hsub _ hheld) ?_
      intro source carried held''
      split
      · trivial
      · exact obeys_writeAndCheck _ _ _ _

theorem obeys_recomputeBatch (batchId : BatchId) (now : Instant)
    (pendingLines : List PendingSettlementLine) (clock : Instant) :
    Obeys Rule (recomputeBatch batchId now pendingLines clock) [] := by
  intro l
  dsimp only
  split_ifs with hfind
  · refine ⟨rule_nil _, ?_⟩
    intro l'
    dsimp only
    split
    · trivial
    · rename_i batch hbatch
      have hid : batch.id = batchId := (Table.find?_eq_some.mp hbatch).2
      split_ifs with hfrozen
      · trivial
      · rw [← hid]
        exact obeys_recomputeOpenBatch batch now pendingLines clock
  · trivial

theorem obeys_program (request : Request) : Obeys Rule (program request) [] := by
  cases request with
  | recompute batchId now pendingLines clock =>
    exact obeys_recomputeBatch batchId now pendingLines clock
  | renew merchantId now =>
    intro l
    dsimp only
    split_ifs with hfind
    · refine ⟨rule_nil _, ?_⟩
      intro l'
      dsimp only
      split
      · trivial
      · trivial
    · trivial

end Programs

section Circles

/-- The first transaction holds a batch and wants another one, which the second,
waiting one holds. -/
def Crossing (held : List (Row × LockMode)) (want : Row × LockMode)
    (held' : List (Row × LockMode)) (_ : Row × LockMode) : Prop :=
  ∃ b c, b ≠ c ∧ (.batch b, .forUpdate) ∈ held ∧ want.1 = .batch c ∧ ∃ h ∈ held', h.1 = .batch c

variable {w : World Ledger Row}

/-- In every circle of waits a recompute waits for its source, whose holder waits. -/
theorem crossing_of_deadlocked (hex : Exclusive w)
    (hobeys : ∀ t, Obeys Rule (w.transaction t).program (w.transaction t).held)
    (h : Deadlocked w) : Clashing Crossing w := by
  obtain ⟨t, hcycle, hclimbs⟩ := exists_not_climbs level hex h
  unfold Climbs at hclimbs
  push Not at hclimbs
  obtain ⟨want, hwanted, hahead⟩ := hclimbs
  obtain ⟨u, ⟨htu, _, hwanted', lock, hlock, hrow, _⟩, hut⟩ := waits_of_cycle .refl hcycle
  rw [hwanted] at hwanted'
  cases hwanted'
  obtain ⟨v, ⟨_, want', hwanted', _⟩, _⟩ := waits_of_cycle hut hcycle
  rcases (hobeys t).wanted hwanted with hclimb | ⟨b, c, hbc, hheld, hwant⟩
  · exact absurd hclimb hahead
  · exact ⟨t, u, want, want', htu, hwanted, hwanted', b, c, hbc, hheld, hwant, lock, hlock,
      hrow.trans hwant⟩

/-- Runs in which no recompute waits for its source while the holder of the
source waits reach no circle of waits, so that some transaction can always go
on; and in every run a circle has two such recomputes. -/
theorem circles_cross_at_sources (w : World Ledger Row) :
    (Reachable (step program) anyStep World.Quiet w → Deadlocked w → Clashing Crossing w) ∧
      (Reachable (step program) (Avoids Crossing) World.Quiet w →
        ¬ Deadlocked w ∧
          ∀ t, ∃ u, Relation.ReflTransGen (WaitsFor w) t u ∧
            ∀ want ∈ (w.transaction u).wanted, w.Free u want) := by
  have hexclusive : ∀ ok, Reachable (step program) ok World.Quiet w → Exclusive w :=
    fun ok h => exclusive_of_reachable (fun _ hw => hw) h
  have hcircles : ∀ ok, Reachable (step program) ok World.Quiet w → Deadlocked w →
      Clashing Crossing w :=
    fun ok h hdead =>
      crossing_of_deadlocked (hexclusive ok h) (obeys_of_reachable obeys_program h) hdead
  refine ⟨hcircles _, ?_⟩
  intro h
  have hnot : ¬ Deadlocked w := fun hdead => not_clashing_of_reachable h (hcircles _ h hdead)
  exact ⟨hnot, exists_free (hexclusive _ h) hnot⟩

end Circles

section Samples

/-- The batch of a day, as it is created. -/
def sampleBatch (id : BatchId) (createdAt : Instant) : Batch :=
  { id
    merchantId := 1
    periodStart := 0
    periodEnd := 1
    status := .calculated
    createdAt }

/-- A merchant with a membership and the batches of two days. -/
def twoDays : World Ledger Row where
  committed :=
    { batches := Table.insertMany .empty [sampleBatch 1 0, sampleBatch 2 1]
      lines := .empty
      allocations := .empty
      claims := .empty
      subscriptions := Table.empty.insertNew
        { merchantId := 1
          anchorDate := 0
          currentPeriodStart := 0
          currentPeriodEnd := 10
          priceCents := 100
          vatCents := 20
          status := .active
          outstandingCents := 0
          outstandingVatCents := 0
          periodPaidAt := none }
      merchants := Table.empty.insertNew
        { id := 1
          iban := ""
          pspSubMerchantKey := none
          bagFeeCentsOverride := some 0
          membershipExemptUntil := none }
      pricing := []
      reservations := .empty }
  started := 0
  transaction := fun _ => Transaction.ended

/-- The nightly cycle recomputes the second batch while the first is retried. -/
def bothDays : List (Action Request) :=
  [.start (.recompute 2 0 [] 0), .start (.recompute 1 0 [] 0), .issue 0, .issue 0, .grant 0,
    .issue 0, .issue 0, .issue 0, .issue 0, .issue 0, .grant 0, .issue 1, .issue 1, .grant 1,
    .issue 1, .issue 1, .issue 1, .issue 1, .issue 1, .issue 0, .issue 0, .issue 0, .issue 0,
    .issue 0]

def stuckDays : World Ledger Row := after (step program) twoDays bothDays

theorem circles_cross_at_sources_counterexample :
    Reachable (step program) anyStep World.Quiet stuckDays ∧ Deadlocked stuckDays := by
  have hreach : Reachable (step program) anyStep World.Quiet stuckDays :=
    reachable_after (.start ⟨rfl, fun _ => rfl⟩) (by decide +kernel)
  have hcycle : (stuckDays.transaction 0).wanted = some (.batch 1, .forUpdate) := by
    decide +kernel
  have hretry : (stuckDays.transaction 1).wanted = some (.subscription 1, .forUpdate) := by
    decide +kernel
  have hsubscription : (.subscription 1, .forUpdate) ∈ (stuckDays.transaction 0).held := by
    decide +kernel
  have hbatch : (.batch 1, .forUpdate) ∈ (stuckDays.transaction 1).held := by decide +kernel
  have hfirst : WaitsFor stuckDays 0 1 := ⟨by decide, _, hcycle, _, hbatch, rfl, rfl⟩
  have hsecond : WaitsFor stuckDays 1 0 := ⟨by decide, _, hretry, _, hsubscription, rfl, rfl⟩
  exact ⟨hreach, 0, .head hfirst (.single hsecond)⟩

def isBatch : Row → Bool
  | .batch _ => true
  | .subscription _ => false
  | .line _ _ => false

theorem isBatch_iff {row : Row} : isBatch row = true ↔ ∃ b, row = .batch b := by
  cases row <;> simp [isBatch]

instance (held : List (Row × LockMode)) (want : Row × LockMode) (held' : List (Row × LockMode))
    (want' : Row × LockMode) : Decidable (Crossing held want held' want') :=
  decidable_of_iff
    (isBatch want.1 ∧ (∃ h ∈ held', h.1 = want.1) ∧
      ∃ k ∈ held, isBatch k.1 ∧ k.1 ≠ want.1 ∧ k.2 = .forUpdate) (by
    constructor
    · rintro ⟨hwant, ⟨h, hh, hrow⟩, ⟨row, mode⟩, hk, hbatch, hne, hmode⟩
      obtain ⟨c, hc⟩ := isBatch_iff.mp hwant
      obtain ⟨b, hb⟩ := isBatch_iff.mp hbatch
      cases hb
      cases hmode
      rw [hc] at hne
      exact ⟨b, c, fun heq => hne (congrArg Row.batch heq), hk, hc, h, hh, hrow.trans hc⟩
    · rintro ⟨b, c, hbc, hheld, hwant, h, hh, hrow⟩
      rw [hwant]
      exact ⟨rfl, ⟨h, hh, hrow⟩, _, hheld, rfl, fun heq => hbc (Row.batch.inj heq), rfl⟩)

/-- The second batch is recomputed twice and the membership renewed. -/
def oneDay : List (Action Request) :=
  [.start (.recompute 2 0 [] 0), .start (.recompute 2 0 [] 0), .start (.renew 1 0), .issue 0,
    .issue 0, .grant 0, .issue 1, .issue 1, .issue 0, .issue 0, .issue 0, .issue 0, .issue 0,
    .grant 0, .issue 2, .issue 2, .issue 0, .issue 0, .issue 0, .issue 0, .issue 0, .grant 0]

def queuedDay : World Ledger Row := after (step program) twoDays oneDay

/-- The second recompute and the renewal wait for the first recompute. -/
theorem circles_cross_at_sources_sample :
    (queuedDay.transaction 1).wanted = some (.batch 2, .forUpdate) ∧
      (queuedDay.transaction 2).wanted = some (.subscription 1, .forUpdate) ∧
      ¬ Deadlocked queuedDay := by
  have hreach : Reachable (step program) (Avoids Crossing) World.Quiet queuedDay :=
    reachable_after_guarded (.start ⟨rfl, fun _ => rfl⟩) (by decide +kernel) (by decide +kernel)
  have hdead := ((circles_cross_at_sources queuedDay).2 hreach).1
  exact ⟨by decide +kernel, by decide +kernel, hdead⟩

end Samples

end Kurtar.RecomputeDeadlocks

import Kurtar.SettlementLines

/-!
# Every reservation is settled exactly once

What a nightly cycle holds between its scan, its groups and their recomputes
belongs to the merchant and day it will be stored under, whatever commits in
between. So every stored line is in the right batch, and a cycle whose groups
all succeed leaves exactly one line for each reservation of its scan.
-/

namespace Kurtar.SettledOnce

open KeyedTable GuardedRuns StatusTransitions IstanbulCalendar SettlementMath SettlementLedger
open SettlementRecompute SettlementTransactions SettlementService SettlementPass
open SettlementEffects SettlementLines

/-- The reservations of a group were earned with its merchant on its day. -/
def GroupEarned (l : Ledger) (group : Group) : Prop :=
  ∀ x ∈ group.lines, EarnedOn l group.merchantId (offerDateToDbDate group.dayKey) x.reservationId

section Scan

theorem mem_addToGroups {r : Reservation} {groups : List Group} {group : Group}
    (hg : group ∈ addToGroups r groups) {x : SettlementInputLine} (hx : x ∈ group.lines) :
    x.reservationId = r.id ∧ group.merchantId = r.merchantId ∧
        group.dayKey = istanbulDateKey (settlementAnchorOf r) ∨
      ∃ old ∈ groups, old.merchantId = group.merchantId ∧ old.dayKey = group.dayKey ∧
        x ∈ old.lines := by
  induction groups with
  | nil =>
    rw [addToGroups, List.mem_singleton] at hg
    rw [hg, List.mem_singleton] at hx
    rw [hx, hg]
    exact Or.inl ⟨rfl, rfl, rfl⟩
  | cons first rest ih =>
    rw [addToGroups] at hg
    split_ifs at hg with hsame
    · rcases List.mem_cons.mp hg with rfl | hg
      · rcases List.mem_append.mp hx with hx | hx
        · exact Or.inr ⟨first, List.mem_cons_self, rfl, rfl, hx⟩
        · rw [List.mem_singleton.mp hx]
          exact Or.inl ⟨rfl, hsame.1, hsame.2⟩
      · exact Or.inr ⟨group, List.mem_cons_of_mem first hg, rfl, rfl, hx⟩
    · rcases List.mem_cons.mp hg with rfl | hg
      · exact Or.inr ⟨group, List.mem_cons_self, rfl, rfl, hx⟩
      · rcases ih hg with hnew | ⟨old, hold, hsame⟩
        · exact Or.inl hnew
        · exact Or.inr ⟨old, List.mem_cons_of_mem first hold, hsame⟩

/-- Does a reservation have a place in one of the groups? -/
def GroupedIn (groups : List Group) (id : ReservationId) : Prop :=
  ∃ group ∈ groups, ∃ x ∈ group.lines, x.reservationId = id

theorem groupedIn_addToGroups {r : Reservation} {groups : List Group} {id : ReservationId}
    (h : id = r.id ∨ GroupedIn groups id) : GroupedIn (addToGroups r groups) id := by
  induction groups with
  | nil =>
    rcases h with rfl | ⟨_, hg, _⟩
    · exact ⟨_, List.mem_singleton_self _, _, List.mem_singleton_self _, rfl⟩
    · cases hg
  | cons first rest ih =>
    rw [addToGroups]
    split_ifs with hsame
    · rcases h with rfl | ⟨group, hg, x, hx, hid⟩
      · exact ⟨_, List.mem_cons_self, _,
          List.mem_append_right first.lines (List.mem_singleton_self _), rfl⟩
      · rcases List.mem_cons.mp hg with rfl | hg
        · exact ⟨_, List.mem_cons_self, x, List.mem_append_left _ hx, hid⟩
        · exact ⟨group, List.mem_cons_of_mem _ hg, x, hx, hid⟩
    · have hrest : ∀ {id}, GroupedIn (addToGroups r rest) id →
          GroupedIn (first :: addToGroups r rest) id := by
        rintro id ⟨group, hg, hx⟩
        exact ⟨group, List.mem_cons_of_mem first hg, hx⟩
      rcases h with h | ⟨group, hg, hx⟩
      · exact hrest (ih (Or.inl h))
      · rcases List.mem_cons.mp hg with rfl | hg
        · exact ⟨group, List.mem_cons_self, hx⟩
        · exact hrest (ih (Or.inr ⟨group, hg, hx⟩))

/-- Grouping earned reservations of the ledger gives groups earned on their day. -/
theorem groupEarned_foldl {l : Ledger} {rs : List Reservation} {groups : List Group}
    (hgroups : ∀ group ∈ groups, GroupEarned l group)
    (hrs : ∀ r ∈ rs, r ∈ l.reservations.rows ∧ Earned r) :
    ∀ group ∈ rs.foldl (fun groups r => addToGroups r groups) groups, GroupEarned l group := by
  induction rs generalizing groups with
  | nil => exact hgroups
  | cons r rs ih =>
    obtain ⟨hr, hearned⟩ := hrs r List.mem_cons_self
    apply ih _ fun q hq => hrs q (List.mem_cons_of_mem r hq)
    intro group hg x hx
    rcases mem_addToGroups hg hx with ⟨hid, hm, hday⟩ | ⟨old, hold, hm, hday, hx⟩
    · exact ⟨r, hr, hid.symm, hearned, hm.symm, by rw [hday]⟩
    · rw [← hm, ← hday]
      exact hgroups old hold x hx

theorem groupedIn_foldl {rs : List Reservation} {groups : List Group} {id : ReservationId}
    (h : GroupedIn groups id ∨ ∃ r ∈ rs, r.id = id) :
    GroupedIn (rs.foldl (fun groups r => addToGroups r groups) groups) id := by
  induction rs generalizing groups with
  | nil =>
    rcases h with h | ⟨_, hr, _⟩
    · exact h
    · cases hr
  | cons r rs ih =>
    apply ih
    rcases h with h | ⟨q, hq, hid⟩
    · exact Or.inl (groupedIn_addToGroups (Or.inr h))
    · rcases List.mem_cons.mp hq with rfl | hq
      · exact Or.inl (groupedIn_addToGroups (Or.inl hid.symm))
      · exact Or.inr ⟨q, hq, hid⟩

theorem earned_of_eligible {l : Ledger} {r : Reservation} (h : eligible l r) : Earned r := by
  rcases h.2.2 with h | h
  · exact Or.inl h.1
  · exact Or.inr h

theorem scanEligible_earned (l : Ledger) : ∀ group ∈ scanEligible l, GroupEarned l group := by
  apply groupEarned_foldl
  · intro group hg
    cases hg
  · intro r hr
    rw [List.mem_insertionSort, List.mem_filter, decide_eq_true_eq] at hr
    exact ⟨hr.1, earned_of_eligible hr.2⟩

/-- The scan misses no eligible reservation. -/
theorem scanEligible_covers {l : Ledger} {r : Reservation} (hr : r ∈ l.reservations.rows)
    (h : eligible l r) : GroupedIn (scanEligible l) r.id := by
  apply groupedIn_foldl
  refine Or.inr ⟨r, ?_, rfl⟩
  rw [List.mem_insertionSort, List.mem_filter, decide_eq_true_eq]
  exact ⟨hr, h⟩

/-- The priced lines are those of the group. -/
theorem computePendingLines_ids {l : Ledger} {group : Group} {pls : List PendingSettlementLine}
    (h : computePendingLines l group = .ok pls) :
    pls.map (·.reservationId) = group.lines.map (·.reservationId) := by
  unfold computePendingLines at h
  split_ifs at h with hnil
  · cases h
    rw [hnil]
    rfl
  · obtain ⟨merchant, _, h⟩ := bind_eq_ok.mp h
    obtain ⟨bagFee, _, h⟩ := bind_eq_ok.mp h
    obtain ⟨result, hr, h⟩ := bind_eq_ok.mp h
    cases h
    obtain ⟨_, _, _, hres⟩ := computeSettlement_eq_ok (mapError_eq_ok.mp hr)
    rw [List.map_map, hres]
    change List.map _ (group.lines.map fun line => chargedLine line bagFee) = _
    rw [List.map_map]
    rfl

/-- A batch that was found or created is the merchant's batch of the day. -/
theorem findOrCreateBatch_home {l : Ledger} {merchantId : MerchantId} {dayKey : DateKey}
    {freshId : BatchId} {clock : Instant} {result : Ledger × BatchId}
    (h : findOrCreateBatch l merchantId dayKey freshId clock = some result) :
    ∃ b ∈ result.1.batches.rows, b.id = result.2 ∧ b.merchantId = merchantId ∧
      b.periodStart = offerDateToDbDate dayKey := by
  simp only [findOrCreateBatch] at h
  cases ho : findOpenBatch l merchantId (offerDateToDbDate dayKey) with
  | some batch =>
    simp only [ho, Option.some.injEq] at h
    rw [← h]
    have hp := List.find?_some ho
    simp only [decide_eq_true_eq] at hp
    exact ⟨batch, List.mem_of_find?_eq_some ho, rfl, hp.1, hp.2.1⟩
  | none =>
    simp only [ho] at h
    split_ifs at h with hfresh
    cases h
    exact ⟨_, Table.mem_insertNew.mpr (Or.inr ⟨rfl, Table.find?_eq_none.mp hfresh⟩), rfl, rfl, rfl⟩

end Scan

section NightlySteps

/-- The cycle that a nightly task belongs to. -/
def cycleOf : Task → Option NightlyCycle
  | .nightlyGroups cycle | .nightlyRecompute cycle _ _ _ | .nightlySweep cycle _
  | .nightlySweepCreate cycle _ _ | .nightlySweepRecompute cycle _ _ _ => some cycle
  | _ => none

/-- Is this a step of the clawback sweep of the cycle? -/
def SweepOf (cycle : NightlyCycle) : Task → Prop
  | .nightlySweep c _ | .nightlySweepCreate c _ _ | .nightlySweepRecompute c _ _ _ => c = cycle
  | _ => False

/-- How a step of a nightly cycle goes on: with which ledger and which task. -/
inductive NightlyStep (w : World) (input : StepInput) : Task → Ledger → Task → Prop
  | scanned {cycle : NightlyCycle} {merchantIds : List MerchantId} (hgroups : cycle.groups = []) :
    NightlyStep w input (.nightlyGroups cycle) w.ledger (.nightlySweep cycle merchantIds)
  | priced {cycle fresh : NightlyCycle} {group : Group} {groups : List Group} {ledger : Ledger}
      {batchId : BatchId} {pendingLines : List PendingSettlementLine}
      (hgroups : cycle.groups = group :: groups) (hfresh : fresh.groups = groups)
      (hfailures : fresh.failures = cycle.failures)
      (hbatch : findOrCreateBatch w.ledger group.merchantId group.dayKey input.freshBatchId
        input.clock = some (ledger, batchId))
      (hprice : computePendingLines ledger group = .ok pendingLines) :
    NightlyStep w input (.nightlyGroups cycle) ledger
      (.nightlyRecompute fresh group.merchantId batchId pendingLines)
  | unpriced {cycle fresh : NightlyCycle} {group : Group} {groups : List Group} {ledger : Ledger}
      {merchantId : MerchantId} {e : SettlementError} (hgroups : cycle.groups = group :: groups)
      (hfresh : fresh.groups = groups) (hfailures : fresh.failures = cycle.failures) :
    NightlyStep w input (.nightlyGroups cycle) ledger
      (.nightlyGroups (fresh.fail merchantId .batch e))
  | recomputed {cycle : NightlyCycle} {merchantId : MerchantId} {batchId : BatchId}
      {pendingLines : List PendingSettlementLine} {ledger : Ledger} {row : Batch}
      (hr : recomputeBatch w.ledger batchId cycle.now pendingLines input.clock =
        .ok (ledger, row)) :
    NightlyStep w input (.nightlyRecompute cycle merchantId batchId pendingLines) ledger
      (.nightlyGroups (cycle.touch batchId))
  | refused {cycle : NightlyCycle} {merchantId : MerchantId} {batchId : BatchId}
      {pendingLines : List PendingSettlementLine} {e : SettlementError} :
    NightlyStep w input (.nightlyRecompute cycle merchantId batchId pendingLines) w.ledger
      (.nightlyGroups (cycle.fail merchantId .batch e))
  | swept {cycle cycle' : NightlyCycle} {task next : Task} {ledger : Ledger}
      (htask : SweepOf cycle task) (hnext : SweepOf cycle' next)
      (hfailures : cycle.failures ⊆ cycle'.failures) : NightlyStep w input task ledger next

theorem nightlyGroups_step {w w' : World} {cycle : NightlyCycle} {input : StepInput}
    (h : nightlyGroups w cycle input = some w') :
    ∃ ledger next, NightlyStep w input (.nightlyGroups cycle) ledger next ∧
      w' = (w.withLedger ledger).spawn next := by
  unfold nightlyGroups at h
  cases hg : cycle.groups with
  | nil =>
    simp only [hg, Option.some.injEq] at h
    exact ⟨_, _, .scanned hg, h.symm⟩
  | cons group groups =>
    simp only [hg] at h
    cases hc : findOrCreateBatch w.ledger group.merchantId group.dayKey input.freshBatchId
        input.clock with
    | none => simp [hc] at h
    | some result =>
      simp only [hc] at h
      cases hp : computePendingLines result.1 group with
      | error e =>
        simp only [hp, Option.some.injEq] at h
        refine ⟨_, _, ?_, h.symm⟩
        exact .unpriced hg rfl rfl
      | ok pendingLines =>
        simp only [hp, Option.some.injEq] at h
        refine ⟨_, _, ?_, h.symm⟩
        exact .priced hg rfl rfl hc hp

theorem nightlyRecompute_step {w w' : World} {cycle : NightlyCycle} {merchantId : MerchantId}
    {batchId : BatchId} {pendingLines : List PendingSettlementLine} {input : StepInput}
    (h : nightlyRecompute w cycle merchantId batchId pendingLines input = some w') :
    ∃ ledger next,
      NightlyStep w input (.nightlyRecompute cycle merchantId batchId pendingLines) ledger next ∧
        w' = (w.withLedger ledger).spawn next := by
  unfold nightlyRecompute at h
  cases hr : recomputeBatch w.ledger batchId cycle.now pendingLines input.clock with
  | error e =>
    simp only [hr, Option.some.injEq] at h
    exact ⟨_, _, .refused, h.symm⟩
  | ok result =>
    simp only [hr, Option.some.injEq] at h
    exact ⟨_, _, .recomputed hr, h.symm⟩

/-- A sweep goes on with its next merchant, or ends the cycle. -/
theorem nightlySweep_step {w w' : World} {cycle : NightlyCycle} {merchantIds : List MerchantId}
    {input : StepInput} (h : nightlySweep w cycle merchantIds = some w') :
    (∃ ledger next, NightlyStep w input (.nightlySweep cycle merchantIds) ledger next ∧
        w' = (w.withLedger ledger).spawn next) ∨
      w'.tasks = w.tasks := by
  unfold nightlySweep at h
  cases merchantIds with
  | nil =>
    right
    cases hs : cycle.startedBy with
    | none =>
      simp only [hs, Option.some.injEq] at h
      rw [← h]
    | some adminId =>
      simp only [hs, Option.some.injEq] at h
      rw [← h]
      rfl
  | cons merchantId rest =>
    left
    cases hb : latestOpenBatch w.ledger merchantId with
    | none =>
      simp only [hb, Option.some.injEq] at h
      refine ⟨w.ledger, _, ?_, h.symm⟩
      exact .swept rfl rfl (List.Subset.refl _)
    | some batch =>
      simp only [hb, Option.some.injEq] at h
      refine ⟨w.ledger, _, ?_, h.symm⟩
      exact .swept rfl rfl (List.Subset.refl _)

theorem nightlySweepCreate_step {w w' : World} {cycle : NightlyCycle} {merchantId : MerchantId}
    {rest : List MerchantId} {input : StepInput}
    (h : nightlySweepCreate w cycle merchantId rest input = some w') :
    ∃ ledger next, NightlyStep w input (.nightlySweepCreate cycle merchantId rest) ledger next ∧
      w' = (w.withLedger ledger).spawn next := by
  unfold nightlySweepCreate at h
  cases hc : findOrCreateBatch w.ledger merchantId (istanbulDateKey cycle.now)
      input.freshBatchId input.clock with
  | none => simp [hc] at h
  | some result =>
    simp only [hc, Option.some.injEq] at h
    refine ⟨_, _, ?_, h.symm⟩
    exact .swept rfl rfl (List.Subset.refl _)

theorem nightlySweepRecompute_step {w w' : World} {cycle : NightlyCycle} {merchantId : MerchantId}
    {batchId : BatchId} {rest : List MerchantId} {input : StepInput}
    (h : nightlySweepRecompute w cycle merchantId batchId rest input = some w') :
    ∃ ledger next,
      NightlyStep w input (.nightlySweepRecompute cycle merchantId batchId rest) ledger next ∧
        w' = (w.withLedger ledger).spawn next := by
  unfold nightlySweepRecompute at h
  cases hr : recomputeBatch w.ledger batchId cycle.now [] input.clock with
  | error e =>
    simp only [hr, Option.some.injEq] at h
    refine ⟨w.ledger, _, ?_, h.symm⟩
    exact .swept rfl rfl (List.subset_append_left _ _)
  | ok result =>
    simp only [hr, Option.some.injEq] at h
    refine ⟨_, _, ?_, h.symm⟩
    exact .swept rfl rfl (List.Subset.refl _)

/-- A resumed task of a cycle takes one of these steps, or ends the cycle. -/
theorem nightlyStep_of_resume {w w' : World} {task : Task} {input : StepInput}
    {cycle : NightlyCycle} (hcycle : cycleOf task = some cycle)
    (h : resumeTask w task input = some w') :
    (∃ ledger next, NightlyStep w input task ledger next ∧
        w' = (w.withLedger ledger).spawn next) ∨
      w'.tasks = w.tasks := by
  cases task with
  | nightlyGroups cycle => exact Or.inl (nightlyGroups_step h)
  | nightlyRecompute cycle merchantId batchId pendingLines => exact Or.inl (nightlyRecompute_step h)
  | nightlySweep cycle merchantIds => exact nightlySweep_step h
  | nightlySweepCreate cycle merchantId rest => exact Or.inl (nightlySweepCreate_step h)
  | nightlySweepRecompute cycle merchantId batchId rest => exact Or.inl (nightlySweepRecompute_step h)
  | _ => cases hcycle

/-- A cycle only adds to its failures. -/
theorem NightlyStep.failures_subset {w : World} {input : StepInput} {task next : Task}
    {ledger : Ledger} (h : NightlyStep w input task ledger next) :
    ∃ cycle cycle', cycleOf task = some cycle ∧ cycleOf next = some cycle' ∧
      cycle.failures ⊆ cycle'.failures := by
  cases h with
  | scanned => exact ⟨_, _, rfl, rfl, List.Subset.refl _⟩
  | priced _ _ hfailures => exact ⟨_, _, rfl, rfl, by rw [hfailures]; exact List.Subset.refl _⟩
  | unpriced _ _ hfailures =>
    refine ⟨_, _, rfl, rfl, ?_⟩
    rw [← hfailures]
    exact List.subset_append_left _ _
  | recomputed => exact ⟨_, _, rfl, rfl, List.Subset.refl _⟩
  | refused => exact ⟨_, _, rfl, rfl, List.subset_append_left _ _⟩
  | swept htask hnext hfailures =>
    have hof : ∀ {c : NightlyCycle} {t : Task}, SweepOf c t → cycleOf t = some c := by
      intro c t ht
      cases t with
      | nightlySweep | nightlySweepCreate | nightlySweepRecompute => exact congrArg some ht
      | _ => exact ht.elim
    exact ⟨_, _, hof htask, hof hnext, hfailures⟩

end NightlySteps

/-- What a procedure holds belongs where it will be stored. -/
def TaskEarned (l : Ledger) : Task → Prop
  | .nightlyGroups cycle => ∀ group ∈ cycle.groups, GroupEarned l group
  | .nightlyRecompute cycle _ batchId pendingLines =>
    (∀ group ∈ cycle.groups, GroupEarned l group) ∧
      ∀ pl ∈ pendingLines, Housed l batchId pl.reservationId
  | _ => True

/-- The lines are settled, and whatever will become a line belongs to its batch. -/
structure Settling (w : World) : Prop where
  lines : LinesSettled w.ledger
  tasks : ∀ t ∈ w.tasks, TaskEarned w.ledger t

/-- Ledgers in which what was earned and housed before still is. -/
structure KeepsHomes (l l' : Ledger) : Prop where
  earned : ∀ {m p id}, EarnedOn l m p id → EarnedOn l' m p id
  housed : ∀ {b id}, Housed l b id → Housed l' b id

theorem keepsHomes_of_commits {l l' : Ledger} {tx : Option Transaction} (h : Commits l l' tx) :
    KeepsHomes l l' := by
  rcases h with h | ⟨t, _, hc⟩
  · rw [h]
    exact ⟨id, id⟩
  · exact ⟨fun he => he.kept hc, fun hh => hh.kept hc⟩

theorem TaskEarned.kept {l l' : Ledger} (h : KeepsHomes l l') {t : Task}
    (ht : TaskEarned l t) : TaskEarned l' t := by
  cases t with
  | nightlyGroups cycle => exact fun group hg x hx => h.earned (ht group hg x hx)
  | nightlyRecompute cycle merchantId batchId pendingLines =>
    exact ⟨fun group hg x hx => h.earned (ht.1 group hg x hx), fun pl hpl => h.housed (ht.2 pl hpl)⟩
  | _ => trivial

/-- A step of a cycle hands on what belongs where it will be stored. -/
theorem TaskEarned.nightlyStep {w : World} {input : StepInput} {task next : Task}
    {ledger : Ledger} (ht : TaskEarned w.ledger task) (hkept : KeepsHomes w.ledger ledger)
    (h : NightlyStep w input task ledger next) : TaskEarned ledger next := by
  cases h with
  | scanned => trivial
  | @priced cycle fresh group groups _ batchId pendingLines hgroups hfresh _ hbatch hprice =>
    have hearned : ∀ g ∈ cycle.groups, GroupEarned ledger g := fun g hg x hx =>
      hkept.earned (ht g hg x hx)
    rw [hgroups] at hearned
    refine ⟨?_, ?_⟩
    · rw [hfresh]
      exact fun g hg => hearned g (List.mem_cons_of_mem group hg)
    · intro pl hpl
      -- the batch was found or created for the group's merchant and day
      obtain ⟨b, hb, hid, hm, hday⟩ := findOrCreateBatch_home hbatch
      have hin : pl.reservationId ∈ group.lines.map (·.reservationId) := by
        rw [← computePendingLines_ids hprice]
        exact List.mem_map_of_mem hpl
      obtain ⟨x, hx, hxid⟩ := List.mem_map.mp hin
      refine ⟨b, hb, hid, ?_⟩
      rw [hm, hday, ← hxid]
      exact hearned group List.mem_cons_self x hx
  | @unpriced cycle fresh group groups _ _ _ hgroups hfresh _ =>
    intro g hg x hx
    change g ∈ fresh.groups at hg
    rw [hfresh] at hg
    exact hkept.earned (ht g (by rw [hgroups]; exact List.mem_cons_of_mem group hg) x hx)
  | recomputed _ => exact fun g hg x hx => hkept.earned (ht.1 g hg x hx)
  | refused => exact fun g hg x hx => hkept.earned (ht.1 g hg x hx)
  | swept _ hnext _ =>
    cases next with
    | nightlyGroups | nightlyRecompute => exact hnext.elim
    | _ => trivial

/-- A resumed procedure leaves only tasks that hold what belongs to them. -/
theorem resumeTask_earned {w w' : World} {task : Task} {input : StepInput}
    (ht : TaskEarned w.ledger task) (h : resumeTask w task input = some w') :
    ∀ t ∈ w'.tasks, t ∈ w.tasks ∨ TaskEarned w'.ledger t := by
  have hkept := keepsHomes_of_commits (resumeTask_commits h)
  intro t hmem
  cases hc : cycleOf task with
  | some cycle =>
    rcases nightlyStep_of_resume hc h with ⟨ledger, next, hstep, rfl⟩ | htasks
    · rcases List.mem_cons.mp hmem with rfl | hmem
      · exact Or.inr (ht.nightlyStep hkept hstep)
      · exact Or.inl hmem
    · exact Or.inl (htasks ▸ hmem)
  | none =>
    -- the other procedures hold no lines
    cases task with
    | nightlyGroups | nightlyRecompute | nightlySweep | nightlySweepCreate
    | nightlySweepRecompute => cases hc
    | _ =>
      simp only [resumeTask, approveRecompute, approveFlip, retryRecompute, executeOne,
        payoutStamp, payoutCall, markSent] at h
      repeat' split at h
      all_goals cases h
      all_goals
        first
        | exact Or.inl hmem
        | rcases List.mem_cons.mp hmem with rfl | hmem
          · exact Or.inr trivial
          · exact Or.inl hmem

theorem settling_of_initial {w : World} (h : Initial w) : Settling w := by
  refine ⟨linesSettled_of_empty h.ledger, ?_⟩
  simp [h.tasks]

/-- The transaction of a step stores only lines that belong to its batch. -/
theorem housesPending_of_step {w : World} (hinv : Settling w) {a : Action} {t : Transaction}
    (ht : transactionOf w a = some t) : HousesPending w.ledger t := by
  cases a with
  | resume index input =>
    simp only [transactionOf] at ht
    obtain ⟨task, htask, htx⟩ := Option.bind_eq_some_iff.mp ht
    have hearned := hinv.tasks task (List.mem_of_getElem? htask)
    cases task with
    | nightlyRecompute cycle merchantId batchId pendingLines =>
      cases htx
      exact hearned.2
    | nightlyGroups cycle =>
      obtain ⟨group, _, rfl⟩ := Option.map_eq_some_iff.mp htx
      trivial
    | nightlySweep | executeOne | payoutCall => cases htx
    | nightlySweepCreate | approveFlip | payoutStamp | markSent =>
      cases htx
      trivial
    | nightlySweepRecompute | approveRecompute | retryRecompute =>
      cases htx
      intro pl hpl
      cases hpl
  | runNightlyCycle | adminApprove | adminRetry | startPayout => cases ht
  | adminHold | adminMarkSettled | business =>
    cases ht
    trivial

theorem settling_of_step {w w' : World} {a : Action} (hinv : Settling w)
    (h : step w a = some w') : Settling w' := by
  have hcommits := step_commits h
  have hkept := keepsHomes_of_commits hcommits
  constructor
  · rcases hcommits with he | ⟨t, ht, hc⟩
    · rw [he]
      exact hinv.lines
    · exact linesSettled_of_commit hinv.lines (housesPending_of_step hinv ht) hc
  · have hnew : ∀ t ∈ w'.tasks, t ∈ w.tasks ∨ TaskEarned w'.ledger t := by
      cases a with
      | resume index input =>
        simp only [step] at h
        cases ht : w.tasks[index]? with
        | none => simp [ht] at h
        | some task =>
          simp only [ht] at h
          intro t hmem
          have hearned := hinv.tasks task (List.mem_of_getElem? ht)
          rcases resumeTask_earned (w := { w with tasks := w.tasks.eraseIdx index })
            hearned h t hmem with hold | hnext
          · exact Or.inl (List.mem_of_mem_eraseIdx hold)
          · exact Or.inr hnext
      | runNightlyCycle now startedBy =>
        cases h
        intro t hmem
        rcases List.mem_cons.mp hmem with rfl | hmem
        · exact Or.inr (scanEligible_earned w.ledger)
        · exact Or.inl hmem
      | _ =>
        simp only [step, adminApprove, adminHold, adminRetry, adminMarkSettled] at h
        repeat' split at h
        all_goals cases h
        all_goals
          intro t hmem
          first
          | exact Or.inl hmem
          | rcases List.mem_cons.mp hmem with rfl | hmem
            · exact Or.inr trivial
            · exact Or.inl hmem
    intro t hmem
    rcases hnew t hmem with hold | hearned
    · exact (hinv.tasks t hold).kept hkept
    · exact hearned

theorem settling_of_reachable {w : World} (h : ServiceReachable anyStep w) : Settling w :=
  h.invariant (fun _ => settling_of_initial) fun _ _ _ hinv _ ht => settling_of_step hinv ht

theorem fairLines_of_reachable {w : World} (h : ServiceReachable anyStep w) :
    FairLines w.ledger := by
  refine h.invariant_of (I := fun w => FairLines w.ledger) (J := Settling)
    (fun _ hs => settling_of_reachable hs) ?_ ?_
  · intro w hw b pl hpl
    simp [batchCharges, hw.ledger.lines] at hpl
  · intro w a w' hinv _ hfair _ ht
    rcases step_commits ht with he | ⟨t, htx, hc⟩
    · rw [he]
      exact hfair
    · exact fairLines_of_commit hinv.lines hfair (housesPending_of_step hinv htx) hc

/-- How far a nightly cycle has come: its next step, or what it returned. -/
inductive CycleStatus where
  | running (task : Task)
  | returned (cycle : NightlyCycle)

/-- The batch a group's lines are about to join is open. -/
def TargetOpen (l : Ledger) : Task → Prop
  | .nightlyRecompute _ _ batchId _ => ∀ b ∈ l.batches.rows, b.id = batchId →
      b.Recomputable ∧ b.payoutAttemptedAt = none
  | _ => True

instance (l : Ledger) (task : Task) : Decidable (TargetOpen l task) := by
  cases task <;> unfold TargetOpen <;> infer_instance

/-- A nightly cycle started at `w₀`, amid any other steps, none of whose
recomputes finds its batch frozen. -/
inductive CycleRun (w₀ : World) : World → CycleStatus → Prop
  | started {w : World} {now : Instant} {startedBy : Option AdminId} {task : Task}
      (h : step w₀ (.runNightlyCycle now startedBy) = some w) (hnext : w.tasks = task :: w₀.tasks) :
    CycleRun w₀ w (.running task)
  | other {w w' : World} {a : Action} {status : CycleStatus} (hrun : CycleRun w₀ w status)
      (h : step w a = some w') (hwaits : ∀ task, status = .running task → task ∈ w'.tasks) :
    CycleRun w₀ w' status
  | resumed {w w' : World} {index : ℕ} {input : StepInput} {task next : Task}
      (hrun : CycleRun w₀ w (.running task)) (htask : w.tasks[index]? = some task)
      (hopen : TargetOpen w.ledger task) (h : step w (.resume index input) = some w')
      (hnext : w'.tasks = next :: w.tasks.eraseIdx index) : CycleRun w₀ w' (.running next)
  | returns {w w' : World} {index : ℕ} {input : StepInput} {cycle : NightlyCycle}
      (hrun : CycleRun w₀ w (.running (.nightlySweep cycle [])))
      (htask : w.tasks[index]? = some (.nightlySweep cycle []))
      (h : step w (.resume index input) = some w') : CycleRun w₀ w' (.returned cycle)

/-- Did the work of one of the groups fail? -/
def GroupFailed (cycle : NightlyCycle) : Prop := ∃ f ∈ cycle.failures, f.stage = .batch

/-- Is the reservation waiting in the cycle for its line? -/
def Waits (id : ReservationId) : Task → Prop
  | .nightlyGroups cycle => GroupedIn cycle.groups id
  | .nightlyRecompute cycle _ _ pendingLines =>
    GroupedIn cycle.groups id ∨ ∃ pl ∈ pendingLines, pl.reservationId = id
  | _ => False

/-- The reservation has its line, or waits for it, or its cycle reports a failed group. -/
def Covered (l : Ledger) (id : ReservationId) : CycleStatus → Prop
  | .running task => (∃ line ∈ l.lines.rows, line.reservationId = id) ∨ Waits id task ∨
      ∃ cycle, cycleOf task = some cycle ∧ GroupFailed cycle
  | .returned cycle => (∃ line ∈ l.lines.rows, line.reservationId = id) ∨ GroupFailed cycle

theorem commits_keeps_line {l l' : Ledger} {tx : Option Transaction} (h : Commits l l' tx)
    {id : ReservationId} (hline : ∃ line ∈ l.lines.rows, line.reservationId = id) :
    ∃ line ∈ l'.lines.rows, line.reservationId = id := by
  rcases h with h | ⟨t, _, hc⟩
  · rw [h]
    exact hline
  · exact commit_keeps_line hc hline

theorem GroupFailed.of_mem {cycle cycle' : NightlyCycle} (h : GroupFailed cycle)
    (hf : cycle.failures ⊆ cycle'.failures) : GroupFailed cycle' := by
  obtain ⟨f, hmem, hs⟩ := h
  exact ⟨f, hf hmem, hs⟩

theorem groupFailed_fail (cycle : NightlyCycle) (merchantId : MerchantId)
    (e : SettlementError) : GroupFailed (cycle.fail merchantId .batch e) :=
  ⟨_, List.mem_append_right _ (List.mem_singleton_self _), rfl⟩

/-- A reservation that waited for a group's recompute has its line afterwards,
unless the recompute failed. -/
theorem recompute_covers {l l' : Ledger} {batchId : BatchId} {now clock : Instant}
    {pendingLines : List PendingSettlementLine} {row : Batch}
    (h : recomputeBatch l batchId now pendingLines clock = .ok (l', row))
    (hopen : ∀ b ∈ l.batches.rows, b.id = batchId → b.Recomputable ∧ b.payoutAttemptedAt = none)
    {pl : PendingSettlementLine} (hpl : pl ∈ pendingLines) :
    ∃ line ∈ l'.lines.rows, line.reservationId = pl.reservationId := by
  obtain ⟨batch, hf, ⟨hfrozen, _⟩ | ⟨pass, hp⟩⟩ := recomputeBatch_eq_ok h
  · obtain ⟨hb, hid⟩ := Table.find?_eq_some.mp hf
    obtain ⟨hrec, hun⟩ := hopen batch hb hid
    rcases hfrozen with hfrozen | hfrozen
    · exact absurd hrec hfrozen
    · exact absurd hun hfrozen
  · exact exists_line_of_pass hp.toWrittenPass (Or.inr ⟨pl, hpl, rfl⟩)

/-- A reservation that waits in the cycle gets its line, goes on waiting or is
in a group that fails. -/
theorem NightlyStep.keeps_waiting {w : World} {input : StepInput} {task next : Task}
    {ledger : Ledger} {id : ReservationId} (h : NightlyStep w input task ledger next)
    (hopen : TargetOpen w.ledger task) (hwaits : Waits id task) :
    (∃ line ∈ ledger.lines.rows, line.reservationId = id) ∨ Waits id next ∨
      ∃ cycle, cycleOf next = some cycle ∧ GroupFailed cycle := by
  cases h with
  | scanned hgroups =>
    obtain ⟨group, hmem, _⟩ := hwaits
    rw [hgroups] at hmem
    cases hmem
  | @priced cycle fresh group groups _ batchId pendingLines hgroups hfresh _ _ hprice =>
    right
    left
    obtain ⟨g, hmem, x, hx, hid⟩ := hwaits
    rw [hgroups] at hmem
    rcases List.mem_cons.mp hmem with rfl | hmem
    · have hin : id ∈ pendingLines.map (·.reservationId) := by
        rw [computePendingLines_ids hprice, ← hid]
        exact List.mem_map_of_mem hx
      obtain ⟨pl, hpl, hplid⟩ := List.mem_map.mp hin
      exact Or.inr ⟨pl, hpl, hplid⟩
    · rw [← hfresh] at hmem
      exact Or.inl ⟨g, hmem, x, hx, hid⟩
  | unpriced => exact Or.inr (Or.inr ⟨_, rfl, groupFailed_fail _ _ _⟩)
  | recomputed hr =>
    rcases hwaits with hgroups | ⟨pl, hpl, hid⟩
    · exact Or.inr (Or.inl hgroups)
    · rw [← hid]
      exact Or.inl (recompute_covers hr hopen hpl)
  | refused => exact Or.inr (Or.inr ⟨_, rfl, groupFailed_fail _ _ _⟩)
  | swept htask _ _ =>
    cases task with
    | nightlyGroups | nightlyRecompute => exact htask.elim
    | _ => exact hwaits.elim

/-- One step of the cycle loses no reservation. -/
theorem covered_of_resume {w w' : World} {task next : Task} {input : StepInput}
    {id : ReservationId} (h : resumeTask w task input = some w')
    (hnext : w'.tasks = next :: w.tasks) (hopen : TargetOpen w.ledger task)
    (hcycle : ∃ cycle, cycleOf task = some cycle)
    (hcovered : Covered w.ledger id (.running task)) :
    (∃ cycle, cycleOf next = some cycle) ∧ Covered w'.ledger id (.running next) := by
  have hkeep := @commits_keeps_line _ _ _ (resumeTask_commits h) id
  obtain ⟨_, hc⟩ := hcycle
  rcases nightlyStep_of_resume hc h with ⟨ledger, spawned, hstep, rfl⟩ | htasks
  · have hspawned : spawned = next := (List.cons.inj hnext).1
    rw [hspawned] at hstep
    obtain ⟨cycle, cycle', htask, hnext', hfailures⟩ := hstep.failures_subset
    refine ⟨⟨cycle', hnext'⟩, ?_⟩
    rcases hcovered with hline | hwaits | ⟨c, hcc, hfailed⟩
    · exact Or.inl (hkeep hline)
    · exact hstep.keeps_waiting hopen hwaits
    · rw [htask, Option.some.injEq] at hcc
      rw [← hcc] at hfailed
      exact Or.inr (Or.inr ⟨cycle', hnext', hfailed.of_mem hfailures⟩)
  · rw [htasks] at hnext
    simp at hnext

/-- A resumed step of the services is a step of the task it resumes. -/
theorem resumeTask_of_step {w w' : World} {index : ℕ} {input : StepInput} {task : Task}
    (htask : w.tasks[index]? = some task) (h : step w (.resume index input) = some w') :
    resumeTask { w with tasks := w.tasks.eraseIdx index } task input = some w' := by
  simp only [step, htask] at h
  exact h

/-- Along a cycle every reservation of its scan stays covered. -/
theorem covered_of_cycleRun {w₀ w : World} {status : CycleStatus} (h : CycleRun w₀ w status)
    {r : Reservation} (hr : r ∈ w₀.ledger.reservations.rows) (he : eligible w₀.ledger r) :
    (∀ task, status = .running task → ∃ cycle, cycleOf task = some cycle) ∧
      Covered w.ledger r.id status := by
  induction h with
  | started h hnext =>
    cases h
    cases (List.cons.inj hnext).1
    refine ⟨?_, Or.inr (Or.inl (scanEligible_covers hr he))⟩
    intro task htask
    cases htask
    exact ⟨_, rfl⟩
  | @other w w' a status _ h _ ih =>
    have hkeep := @commits_keeps_line _ _ _ (step_commits h) r.id
    refine ⟨ih.1, ?_⟩
    cases status with
    | running task =>
      rcases ih.2 with hline | hrest
      · exact Or.inl (hkeep hline)
      · exact Or.inr hrest
    | returned cycle =>
      rcases ih.2 with hline | hfailed
      · exact Or.inl (hkeep hline)
      · exact Or.inr hfailed
  | resumed _ htask hopen h hnext ih =>
    have hcovered := covered_of_resume (resumeTask_of_step htask h) hnext hopen (ih.1 _ rfl) ih.2
    refine ⟨?_, hcovered.2⟩
    intro task he
    cases he
    exact hcovered.1
  | @returns w w' _ _ cycle _ htask h ih =>
    have hswept := resumeTask_of_step htask h
    simp only [resumeTask] at hswept
    have hledger := nightlySweep_ledger hswept
    change w'.ledger = w.ledger at hledger
    refine ⟨fun _ he => (by cases he), ?_⟩
    rw [hledger]
    rcases ih.2 with hline | hwaits | ⟨c, hc, hfailed⟩
    · exact Or.inl hline
    · exact False.elim hwaits
    · cases hc
      exact Or.inr hfailed

/-- No reservation has two lines, every line is in a batch of its
reservation's merchant and day, and the batches store the sums over their
lines. -/
structure SettlesOnce (l : Ledger) : Prop where
  one_line : ∀ id, (l.lines.rows.filter fun line => line.reservationId = id).length ≤ 1
  home : ∀ line ∈ l.lines.rows, ∃ r ∈ l.reservations.rows, r.id = line.reservationId ∧
    ∃ b ∈ l.batches.rows, b.id = line.batchId ∧ b.merchantId = r.merchantId ∧
      b.periodStart = offerDateToDbDate (istanbulDateKey (settlementAnchorOf r))
  totals : ∀ b ∈ l.batches.rows, Totalled l b

theorem settlesOnce_of_linesSettled {l : Ledger} (h : LinesSettled l) : SettlesOnce l where
  one_line := by
    intro id
    have hsub := (List.filter_sublist (p := fun line : SettlementLine =>
      decide (line.reservationId = id)) (l := l.lines.rows)).map SettlementLine.reservationId
    have hnodup := hsub.nodup l.lines.keys_nodup
    have hrep : (l.lines.rows.filter fun line => line.reservationId = id).map
        (·.reservationId) = List.replicate
          (l.lines.rows.filter fun line => line.reservationId = id).length id := by
      rw [List.eq_replicate_iff]
      refine ⟨List.length_map .., ?_⟩
      intro k hk
      obtain ⟨line, hline, rfl⟩ := List.mem_map.mp hk
      simpa using (List.mem_filter.mp hline).2
    rw [hrep] at hnodup
    exact List.nodup_replicate.mp hnodup
  home := by
    intro line hline
    obtain ⟨b, hb, hid, r, hr, hrid, _, hm, hday⟩ := h.housed line hline
    exact ⟨r, hr, hrid, b, hb, hid, hm.symm, hday.symm⟩
  totals := fun b hb => (h.adds b hb).totalled

/-- Every reservation is settled exactly once: never on two lines, always in
the batch of its merchant and day, and by the cycle that found it eligible
unless one of its groups failed. -/
theorem reservations_settled_once {w₀ : World} (h : ServiceReachable anyStep w₀) :
    SettlesOnce w₀.ledger ∧ ∀ w cycle, CycleRun w₀ w (.returned cycle) → ¬ GroupFailed cycle →
      ∀ r ∈ w₀.ledger.reservations.rows, eligible w₀.ledger r →
        ∃! line, line ∈ w.ledger.lines.rows ∧ line.reservationId = r.id := by
  refine ⟨settlesOnce_of_linesSettled (settling_of_reachable h).lines, ?_⟩
  intro w cycle hrun hfailed r hr he
  rcases (covered_of_cycleRun hrun hr he).2 with ⟨line, hline, hid⟩ | hfails
  · refine ⟨line, ⟨hline, hid⟩, ?_⟩
    rintro other ⟨hother, hoid⟩
    exact w.ledger.lines.eq_of_key_eq hother hline (hoid.trans hid.symm)
  · exact absurd hfails hfailed

/-- One bag collected on the first day, one missed on the second. -/
def collectedAndMissed : List Action :=
  sell 1 1 3000 ++ [.business (.reserve (sampleReservation 2 2 4000)) (noonOf 2),
    .business (.markNoShow 2) (noonOf 2)]

/-- A night with two groups. -/
def nightOfTwo : List Action :=
  .runNightlyCycle (noonOf 3) none :: buildGroup (noonOf 3) 11 ++ buildGroup (noonOf 3) 12 ++
    [proceed (noonOf 3) 0, proceed (noonOf 3) 0]

/-- The state after the first steps of the night. -/
def atNight (steps : ℕ) : World :=
  sampleState 500 (collectedAndMissed ++ nightOfTwo.take steps)

theorem atNight_step (n : ℕ) (a : Action) (h : nightOfTwo[n]? = some a)
    (hrun : (run step (sampleWorld 500) (collectedAndMissed ++ nightOfTwo.take (n+1))).isSome) :
    step (atNight n) a = some (atNight (n+1)) := by
  have htake : collectedAndMissed ++ nightOfTwo.take (n+1) =
      (collectedAndMissed ++ nightOfTwo.take n) ++ [a] := by
    rw [List.take_add_one, h, List.append_assoc]
    rfl
  rw [htake] at hrun
  have hlast := step_after hrun
  rw [← htake] at hlast
  exact hlast

/-- The night is the only procedure, so every step resumes its next task. -/
theorem atNight_next {n : ℕ} {input : StepInput} {task : Task}
    (hn : nightOfTwo[n]? = some (.resume 0 input))
    (hrun : (run step (sampleWorld 500) (collectedAndMissed ++ nightOfTwo.take (n+1))).isSome)
    (hlength : (atNight (n+1)).tasks.length = 1)
    (hopen : ∀ t ∈ (atNight n).tasks, TargetOpen (atNight n).ledger t)
    (htasks : (atNight n).tasks = [task])
    (hcycle : CycleRun (atNight 0) (atNight n) (.running task)) :
    ∃ next, (atNight (n+1)).tasks = [next] ∧
      CycleRun (atNight 0) (atNight (n+1)) (.running next) := by
  obtain ⟨next, hnext⟩ := List.length_eq_one_iff.mp hlength
  refine ⟨next, hnext, hcycle.resumed (by rw [htasks]; rfl) ?_ (atNight_step n _ hn hrun) ?_⟩
  · exact hopen task (by rw [htasks]; exact List.mem_singleton_self task)
  · rw [hnext, htasks]
    rfl

/-- The report of a cycle whose last step is due. -/
def dueReport : List Task → Option NightlyCycle
  | [.nightlySweep cycle []] => some cycle
  | _ => none

theorem nightOfTwo_returns : ∃ cycle, dueReport (atNight 6).tasks = some cycle ∧
    CycleRun (atNight 0) (atNight 7) (.returned cycle) := by
  obtain ⟨t1, h1⟩ := List.length_eq_one_iff.mp
    (by decide +kernel : (atNight 1).tasks.length = 1)
  have hrun1 : CycleRun (atNight 0) (atNight 1) (.running t1) :=
    .started (atNight_step 0 _ rfl (by decide +kernel)) (by rw [h1]; rfl)
  obtain ⟨t2, h2, hrun2⟩ := atNight_next (n := 1) rfl (by decide +kernel) (by decide +kernel)
    (by decide +kernel) h1 hrun1
  obtain ⟨t3, h3, hrun3⟩ := atNight_next (n := 2) rfl (by decide +kernel) (by decide +kernel)
    (by decide +kernel) h2 hrun2
  obtain ⟨t4, h4, hrun4⟩ := atNight_next (n := 3) rfl (by decide +kernel) (by decide +kernel)
    (by decide +kernel) h3 hrun3
  obtain ⟨t5, h5, hrun5⟩ := atNight_next (n := 4) rfl (by decide +kernel) (by decide +kernel)
    (by decide +kernel) h4 hrun4
  obtain ⟨t6, h6, hrun6⟩ := atNight_next (n := 5) rfl (by decide +kernel) (by decide +kernel)
    (by decide +kernel) h5 hrun5
  have hdue : (dueReport (atNight 6).tasks).isSome := by decide +kernel
  obtain ⟨cycle, hcycle⟩ := Option.isSome_iff_exists.mp hdue
  refine ⟨cycle, hcycle, ?_⟩
  rw [h6] at hcycle
  unfold dueReport at hcycle
  split at hcycle
  · rename_i htask
    cases hcycle
    cases htask
    exact hrun6.returns (by rw [h6]; rfl) (atNight_step 6 _ rfl (by decide +kernel))
  · cases hcycle

theorem reservations_settled_once_nightOfTwo : ∃ w cycle,
    CycleRun (atNight 0) w (.returned cycle) ∧ SettlesOnce (atNight 0).ledger ∧
      (∃! line, line ∈ w.ledger.lines.rows ∧ line.reservationId = 1) ∧
      ∃! line, line ∈ w.ledger.lines.rows ∧ line.reservationId = 2 := by
  obtain ⟨cycle, hdue, hrun⟩ := nightOfTwo_returns
  have hclean : ∀ c ∈ dueReport (atNight 6).tasks, ∀ f ∈ c.failures, f.stage ≠ .batch := by
    decide +kernel
  have hfailed : ¬ GroupFailed cycle := by
    rintro ⟨f, hf, hs⟩
    exact hclean cycle hdue f hf hs
  have h := @reservations_settled_once (atNight 0) (sampleState_reachable (by decide +kernel))
  have hr : ∀ id ∈ [1, 2], ∃ r ∈ (atNight 0).ledger.reservations.rows, r.id = id ∧
      eligible (atNight 0).ledger r := by decide +kernel
  obtain ⟨r1, hr1, hid1, he1⟩ := hr 1 (by simp)
  obtain ⟨r2, hr2, hid2, he2⟩ := hr 2 (by simp)
  exact ⟨_, cycle, hrun, h.1, hid1 ▸ h.2 _ cycle hrun hfailed r1 hr1 he1,
    hid2 ▸ h.2 _ cycle hrun hfailed r2 hr2 he2⟩

end Kurtar.SettledOnce

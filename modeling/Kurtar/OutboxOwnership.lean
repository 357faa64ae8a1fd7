import Kurtar.OutboxDrain

/-!
# Bounded and owned delivery

A claim time never goes back and moves forward strictly when a row is claimed
again, so it tells the worker of the last claim from all earlier ones. The
number of attempts names the claim; each name is used for one handler
invocation at most.
-/

namespace Kurtar.OutboxOwnership

open KeyedTable GuardedRuns IstanbulCalendar TaskPools OutboxDrain

section Rows

def Terminal (r : OutboxEvent) : Prop := r.status = .done ∨ r.status = .dead

/-- The copy a worker holds was the row at some claim up to the last one. -/
structure Behind (e r : OutboxEvent) : Prop where
  attempts : e.attempts ≤ r.attempts
  claim : ∃ c c', e.claimedAt = some c ∧ r.claimedAt = some c' ∧ c ≤ c' ∧
    (e.attempts < r.attempts → c < c')

/-- One write to a row. -/
structure Moves (r r' : OutboxEvent) : Prop where
  same_id : r'.id = r.id
  attempts : r.attempts ≤ r'.attempts
  claim : ∀ c, r.claimedAt = some c → ∃ c', r'.claimedAt = some c' ∧ c ≤ c' ∧
    (r.attempts < r'.attempts → c < c')
  terminal : Terminal r → r' = r

/-- What holds of every stored row. -/
structure RowSound (s : OutboxShared) (r : OutboxEvent) : Prop where
  bounded : r.attempts ≤ maxOutboxAttempts
  past : ∀ c, r.claimedAt = some c → c ≤ s.clock
  queued : r.status = .queued → r.attempts < maxOutboxAttempts
  waits : r.status = .queued → ∀ c, r.claimedAt = some c → ∃ t, r.nextAttemptAt = some t ∧ c < t
  done : r.status = .done → r.invocation ∈ s.completions

variable {s : OutboxShared} {e r r' : OutboxEvent} {now : Instant}

theorem Moves.refl (r : OutboxEvent) : Moves r r :=
  ⟨rfl, le_refl _, fun c hc => ⟨c, hc, le_refl _, fun h => absurd h (lt_irrefl _)⟩, fun _ => rfl⟩

theorem Behind.moves (h : Behind e r) (hm : Moves r r') : Behind e r' := by
  refine ⟨h.attempts.trans hm.attempts, ?_⟩
  obtain ⟨c, c', hc, hc', hle, hlt⟩ := h.claim
  obtain ⟨c'', hc'', hle', hlt'⟩ := hm.claim c' hc'
  refine ⟨c, c'', hc, hc'', hle.trans hle', ?_⟩
  intro hattempts
  rcases h.attempts.lt_or_eq with hless | heq
  · exact lt_of_lt_of_le (hlt hless) hle'
  · exact lt_of_le_of_lt hle (hlt' (heq ▸ hattempts))

/-- The claim time tells whether the worker's claim is the last one. -/
theorem Behind.attempts_eq (h : Behind e r) (hclaim : r.claimedAt = e.claimedAt) :
    r.attempts = e.attempts := by
  obtain ⟨c, c', hc, hc', _, hlt⟩ := h.claim
  have heq : c' = c := Option.some.inj (by rw [← hc', hclaim, hc])
  by_contra hne
  have hless : e.attempts < r.attempts := lt_of_le_of_ne h.attempts fun heq => hne heq.symm
  exact absurd (hlt hless) (by rw [heq]; exact lt_irrefl c)

theorem not_terminal_of_processing (h : r.status = .processing) : ¬ Terminal r := by
  intro hterminal
  rcases hterminal with hdone | hdead
  · rw [h] at hdone
    cases hdone
  · rw [h] at hdead
    cases hdead

/-- A write that leaves claim and attempts alone. -/
theorem moves_of_kept (hopen : ¬ Terminal r) (hid : r'.id = r.id) (hattempts : r'.attempts = r.attempts)
    (hclaim : r'.claimedAt = r.claimedAt) : Moves r r' where
  same_id := hid
  attempts := hattempts.ge
  claim := fun c hc => ⟨c, hclaim.trans hc, le_refl _,
    fun h => absurd (hattempts ▸ h) (lt_irrefl _)⟩
  terminal := fun h => absurd h hopen

/-- A write that keeps the row sound. -/
structure Progress (s : OutboxShared) (r r' : OutboxEvent) : Prop where
  moves : Moves r r'
  sound : RowSound s r'

theorem progress_buried (h : RowSound s r) (hstatus : r.status = .processing) (error : String) :
    Progress s r (r.buried error) where
  moves := moves_of_kept (not_terminal_of_processing hstatus) rfl rfl rfl
  sound :=
    { bounded := h.bounded
      past := h.past
      queued := fun hq => by cases hq
      waits := fun hq => by cases hq
      done := fun hd => by cases hd }

theorem progress_delivered (h : RowSound s r) (hstatus : r.status = .processing)
    (hdone : r.invocation ∈ s.completions) (dispatchedAt : Instant) :
    Progress s r (r.delivered dispatchedAt) where
  moves := moves_of_kept (not_terminal_of_processing hstatus) rfl rfl rfl
  sound :=
    { bounded := h.bounded
      past := h.past
      queued := fun hq => by cases hq
      waits := fun hq => by cases hq
      done := fun _ => hdone }

theorem progress_requeued (h : RowSound s r) (hstatus : r.status = .processing)
    (hleft : r.attempts < maxOutboxAttempts) {next : Instant}
    (hnext : ∀ c, r.claimedAt = some c → c < next) (error : String) :
    Progress s r (r.requeued error next) where
  moves := moves_of_kept (not_terminal_of_processing hstatus) rfl rfl rfl
  sound :=
    { bounded := h.bounded
      past := h.past
      queued := fun _ => hleft
      waits := fun _ c hc => ⟨next, rfl, hnext c hc⟩
      done := fun hd => by cases hd }

theorem progress_touched (h : RowSound s r) (hstatus : r.status = .processing)
    (hclaim : ∀ c, r.claimedAt = some c → c ≤ now) (hnow : now ≤ s.clock) :
    Progress s r (r.touched now) where
  moves :=
    { same_id := rfl
      attempts := le_refl _
      claim := fun c hc => ⟨now, rfl, hclaim c hc, fun h => absurd h (lt_irrefl r.attempts)⟩
      terminal := fun h => absurd h (not_terminal_of_processing hstatus) }
  sound :=
    { bounded := h.bounded
      past := fun c hc => by cases hc; exact hnow
      queued := fun hq => absurd (hstatus.symm.trans hq) (by decide)
      waits := fun hq => absurd (hstatus.symm.trans hq) (by decide)
      done := fun hd => absurd (hstatus.symm.trans hd) (by decide) }

/-- A row that may be claimed was claimed before `now`, and has attempts left. -/
theorem claimable_fresh (h : RowSound s r) (hclaimable : Claimable now r) :
    ¬ Terminal r ∧ r.attempts < maxOutboxAttempts ∧ ∀ c, r.claimedAt = some c → c < now := by
  rcases hclaimable.1 with ⟨hstatus, hnext⟩ | ⟨hstatus, ⟨t, ht, hstale⟩, hleft⟩
  · refine ⟨?_, h.queued hstatus, ?_⟩
    · intro hterminal
      rcases hterminal with hdone | hdead
      · exact absurd (hstatus.symm.trans hdone) (by decide)
      · exact absurd (hstatus.symm.trans hdead) (by decide)
    · intro c hc
      obtain ⟨t, ht, hlt⟩ := h.waits hstatus c hc
      exact lt_of_lt_of_le hlt (hnext t ht)
  · refine ⟨not_terminal_of_processing hstatus, hleft, ?_⟩
    intro c hc
    have heq : t = c := Option.some.inj (ht.symm.trans hc)
    have hlease : now-outboxLeaseMs < now := Int.sub_lt_self now (by decide)
    rw [← heq]
    exact lt_of_le_of_lt hstale hlease

theorem progress_claimed (h : RowSound s r) (hclaimable : Claimable now r) (hnow : now ≤ s.clock) :
    Progress s r (r.claimed now) := by
  obtain ⟨hopen, hleft, hclaim⟩ := claimable_fresh h hclaimable
  constructor
  · exact
      { same_id := rfl
        attempts := Nat.le_succ _
        claim := fun c hc => ⟨now, rfl, le_of_lt (hclaim c hc), fun _ => hclaim c hc⟩
        terminal := fun h => absurd h hopen }
  · exact
      { bounded := hleft
        past := fun c hc => by cases hc; exact hnow
        queued := fun hq => by cases hq
        waits := fun hq => by cases hq
        done := fun hd => by cases hd }

end Rows

section Shared

/-- Every row is sound, and each invocation is named by a claim of a stored row. -/
structure Sound (s : OutboxShared) : Prop where
  rows : ∀ r ∈ s.events.rows, RowSound s r
  once : s.invocations.Nodup
  counted : ∀ i ∈ s.invocations, 0 < i.attempt ∧
    ∃ r ∈ s.events.rows, r.id = i.id ∧ i.attempt ≤ r.attempts

/-- Every row goes on as a later version of itself. -/
structure Later (s s' : OutboxShared) : Prop where
  clock : s.clock ≤ s'.clock
  rows : ∀ r ∈ s.events.rows, ∃ r' ∈ s'.events.rows, Moves r r'
  completions : s.completions ⊆ s'.completions

variable {s s' : OutboxShared}

theorem Later.refl (s : OutboxShared) : Later s s :=
  ⟨le_refl _, fun r hr => ⟨r, hr, .refl r⟩, fun _ h => h⟩

theorem later_updateMany {p : OutboxEvent → Prop} [DecidablePred p] {f : OutboxEvent → OutboxEvent}
    (hf : ∀ r, (f r).id = r.id) (h : ∀ r ∈ s.events.rows, p r → Progress s r (f r)) :
    Later s (s.withEvents (s.events.updateMany p f hf)) := by
  refine ⟨le_refl _, ?_, fun _ h => h⟩
  intro r hr
  refine ⟨_, List.mem_map.mpr ⟨r, hr, rfl⟩, ?_⟩
  split_ifs with hp
  · exact (h r hr hp).moves
  · exact .refl r

theorem rowSound_mono {r : OutboxEvent} (h : RowSound s r) (hclock : s.clock ≤ s'.clock)
    (hcompletions : s.completions ⊆ s'.completions) : RowSound s' r :=
  ⟨h.bounded, fun c hc => (h.past c hc).trans hclock, h.queued, h.waits,
    fun hd => hcompletions (h.done hd)⟩

theorem sound_updateMany {p : OutboxEvent → Prop} [DecidablePred p] {f : OutboxEvent → OutboxEvent}
    (hf : ∀ r, (f r).id = r.id) (hs : Sound s)
    (h : ∀ r ∈ s.events.rows, p r → Progress s r (f r)) :
    Sound (s.withEvents (s.events.updateMany p f hf)) := by
  refine ⟨?_, hs.once, ?_⟩
  · intro r' hr'
    obtain ⟨r, hr, rfl⟩ := List.mem_map.mp hr'
    have hsame : RowSound s (if p r then f r else r) := by
      split_ifs with hp
      · exact (h r hr hp).sound
      · exact hs.rows r hr
    exact rowSound_mono hsame (le_refl _) fun _ h => h
  · intro i hi
    obtain ⟨hpos, r, hr, hid, hle⟩ := hs.counted i hi
    obtain ⟨r', hr', hm⟩ := (later_updateMany hf h).rows r hr
    exact ⟨hpos, r', hr', hm.same_id.trans hid, hle.trans hm.attempts⟩

/-- A change of the clock or the history alone. -/
theorem sound_of_same_events (hs : Sound s) (hevents : s'.events = s.events)
    (hclock : s.clock ≤ s'.clock) (hcompletions : s.completions ⊆ s'.completions)
    (hinvocations : s'.invocations = s.invocations) : Sound s' := by
  constructor
  · intro r hr
    rw [hevents] at hr
    exact rowSound_mono (hs.rows r hr) hclock hcompletions
  · rw [hinvocations]
    exact hs.once
  · rw [hinvocations, hevents]
    exact hs.counted

end Shared

section Tasks

/-- The held rows whose handler was not invoked yet. -/
def pending : DrainTask → List OutboxEvent
  | .reap _ _ | .claim _ _ => []
  | .dispatch events => events
  | .touch event _ rest | .find event rest => event :: rest
  | .handle _ rest | .markDone _ _ rest | .markDead _ _ rest | .markRetry _ _ _ rest => rest

/-- A held copy goes back to a claim of a stored row. -/
structure CopySound (s : OutboxShared) (e : OutboxEvent) : Prop where
  stored : ∃ r ∈ s.events.rows, r.id = e.id ∧ Behind e r
  positive : 0 < e.attempts

/-- What a worker knows about the row it works on. -/
def Knows (s : OutboxShared) : DrainTask → Prop
  | .reap _ now | .claim _ now => now ≤ s.clock
  | .touch event now _ => (∀ c, event.claimedAt = some c → c ≤ now) ∧ now ≤ s.clock
  | .markDone event _ _ => event.invocation ∈ s.completions
  | .markRetry event _ next _ =>
    event.attempts < maxOutboxAttempts ∧ ∀ c, event.claimedAt = some c → c < next
  | _ => True

structure TaskSound (s : OutboxShared) (task : DrainTask) : Prop where
  held : ∀ e ∈ task.held, CopySound s e
  distinct : (task.held.map OutboxEvent.id).Nodup
  fresh : ∀ e ∈ pending task, e.invocation ∉ s.invocations
  knows : Knows s task

/-- Two workers hold different claims. -/
def Apart (a b : DrainTask) : Prop := ∀ e ∈ a.held, ∀ e' ∈ b.held, e.invocation ≠ e'.invocation

variable {s s' : OutboxShared} {task : DrainTask} {e r : OutboxEvent} {rest : List OutboxEvent}

theorem Apart.symm {a b : DrainTask} (h : Apart a b) : Apart b a :=
  fun e he e' he' heq => h e' he' e he heq.symm

theorem held_of_pending (h : e ∈ pending task) : e ∈ task.held := by
  cases task <;> first | exact h | exact List.mem_cons_of_mem _ h

theorem copySound_later (h : Later s s') (hs : CopySound s e) : CopySound s' e := by
  obtain ⟨r, hr, hid, hbehind⟩ := hs.stored
  obtain ⟨r', hr', hm⟩ := h.rows r hr
  exact ⟨⟨r', hr', hm.same_id.trans hid, hbehind.moves hm⟩, hs.positive⟩

theorem taskSound_later (h : Later s s') (hs : TaskSound s task)
    (hfresh : ∀ e ∈ pending task, e.invocation ∉ s'.invocations) : TaskSound s' task := by
  refine ⟨fun e he => copySound_later h (hs.held e he), hs.distinct, hfresh, ?_⟩
  have hknows := hs.knows
  cases task with
  | reap batchSize now => exact hknows.trans h.clock
  | claim batchSize now => exact hknows.trans h.clock
  | touch event now rest => exact ⟨hknows.1, hknows.2.trans h.clock⟩
  | markDone event dispatchedAt rest => exact h.completions hknows
  | markRetry event error next rest => exact hknows
  | _ => trivial

/-- The rows after the one a worker works on. -/
theorem dispatch_rest (hs : TaskSound s task) (hheld : task.held = e :: rest)
    (hpending : rest ⊆ pending task) : TaskSound s (.dispatch rest) := by
  refine ⟨?_, ?_, fun e he => hs.fresh e (hpending he), trivial⟩
  · intro e he
    exact hs.held e (by rw [hheld]; exact List.mem_cons_of_mem _ he)
  · have hdistinct := hs.distinct
    rw [hheld, List.map_cons] at hdistinct
    exact hdistinct.of_cons

/-- The row that carries the worker's claim is the one it was claimed as. -/
theorem heldBy_attempts (hs : CopySound s e) (hr : r ∈ s.events.rows) (h : HeldBy e r) :
    r.attempts = e.attempts := by
  obtain ⟨q, hq, hid, hbehind⟩ := hs.stored
  have heq : r = q := s.events.eq_of_key_eq hr hq (h.1.trans hid.symm)
  rw [heq] at h ⊢
  exact hbehind.attempts_eq h.2.2

theorem heldBy_invocation (hs : CopySound s e) (hr : r ∈ s.events.rows) (h : HeldBy e r) :
    r.invocation = e.invocation := by
  unfold OutboxEvent.invocation
  rw [h.1, heldBy_attempts hs hr h]

end Tasks

section Steps

/-- What one step of a worker does. -/
structure Advance (s : OutboxShared) (task : DrainTask) (s' : OutboxShared)
    (left : List DrainTask) : Prop where
  sound : Sound s'
  later : Later s s'
  left_sound : ∀ t ∈ left, TaskSound s' t
  single : left.length ≤ 1
  /-- Claims are handed on or made anew. -/
  claims : ∀ t ∈ left, ∀ e' ∈ t.held, (∃ e ∈ task.held, e'.invocation = e.invocation) ∨
    ∀ r ∈ s.events.rows, r.id = e'.id → r.attempts < e'.attempts
  /-- A handler is invoked for a claim the worker holds. -/
  invoked : ∀ i ∈ s'.invocations, i ∈ s.invocations ∨ ∃ e ∈ task.held, i = e.invocation
  /-- A row that was claimed by somebody else since is not written. -/
  owned : ∀ e ∈ task.held, ∀ r ∈ s.events.rows, r.id = e.id → e.attempts < r.attempts →
    r ∈ s'.events.rows

variable {hasHandler : String → Bool} {s s' : OutboxShared} {input : DrainInput}
  {task : DrainTask} {left : List DrainTask} {event : OutboxEvent} {rest : List OutboxEvent}
  {now : Instant}

/-- The worker goes on without writing. -/
theorem advance_kept (hs : Sound s) (hleft : ∀ t ∈ left, TaskSound s t) (hsingle : left.length ≤ 1)
    (hheld : ∀ t ∈ left, t.held ⊆ task.held) : Advance s task s left where
  sound := hs
  later := .refl s
  left_sound := hleft
  single := hsingle
  claims := fun t ht e he => Or.inl ⟨e, hheld t ht he, rfl⟩
  invoked := fun _ hi => Or.inl hi
  owned := fun _ _ _ hr _ _ => hr

/-- The worker writes the row it works on, if that still carries its claim. -/
theorem advance_write {p : OutboxEvent → Prop} [DecidablePred p] {f : OutboxEvent → OutboxEvent}
    (hf : ∀ r, (f r).id = r.id) (hs : Sound s) (htask : TaskSound s task)
    (hheld : task.held = event :: rest) (hp : ∀ r, p r → HeldBy event r)
    (hprogress : ∀ r ∈ s.events.rows, p r → Progress s r (f r))
    (hleft : ∀ t ∈ left, TaskSound (s.withEvents (s.events.updateMany p f hf)) t)
    (hsingle : left.length ≤ 1)
    (hclaims : ∀ t ∈ left, ∀ e' ∈ t.held, ∃ e ∈ task.held, e'.invocation = e.invocation) :
    Advance s task (s.withEvents (s.events.updateMany p f hf)) left where
  sound := sound_updateMany hf hs hprogress
  later := later_updateMany hf hprogress
  left_sound := hleft
  single := hsingle
  claims := fun t ht e he => Or.inl (hclaims t ht e he)
  invoked := fun _ hi => Or.inl hi
  owned := by
    intro e he r hr hid hless
    refine List.mem_map.mpr ⟨r, hr, if_neg ?_⟩
    intro hpr
    have hevent := htask.held event (by rw [hheld]; exact List.mem_cons_self)
    have hsame : e = event := by
      have hids : e.id = event.id := hid.symm.trans (hp r hpr).1
      exact List.inj_on_of_nodup_map htask.distinct he
        (by rw [hheld]; exact List.mem_cons_self) hids
    rw [hsame, heldBy_attempts hevent hr (hp r hpr)] at hless
    exact absurd hless (lt_irrefl _)

/-- A mark ends the work on a row. -/
theorem advance_mark {f : OutboxEvent → OutboxEvent} (hf : ∀ r, (f r).id = r.id) (hs : Sound s)
    (htask : TaskSound s task) (hheld : task.held = event :: rest) (hpending : pending task = rest)
    (hprogress : ∀ r ∈ s.events.rows, HeldBy event r → Progress s r (f r)) :
    Advance s task (s.withEvents (s.events.updateMany (HeldBy event) f hf)) [.dispatch rest] := by
  apply advance_write hf hs htask hheld (fun _ h => h) hprogress
  · intro t ht
    rw [List.mem_singleton.mp ht]
    have hrest := dispatch_rest htask hheld (fun _ h => hpending.symm ▸ h)
    exact taskSound_later (later_updateMany hf hprogress) hrest hrest.fresh
  · exact le_refl _
  · intro t ht e he
    rw [List.mem_singleton.mp ht] at he
    exact ⟨e, by rw [hheld]; exact List.mem_cons_of_mem _ he, rfl⟩

/-- Reaping and claiming write rows on nobody's behalf. -/
theorem advance_select {p : OutboxEvent → Prop} {f : OutboxEvent → OutboxEvent} {limit : ℕ}
    {picks : List OutboxId} (hf : ∀ r, (f r).id = r.id) (hs : Sound s) (hheld : task.held = [])
    (hselects : Selects s.events p limit picks)
    (hprogress : ∀ r ∈ s.events.rows, p r → Progress s r (f r))
    (hleft : ∀ t ∈ left, TaskSound (s.withEvents (s.events.updateMany (·.id ∈ picks) f hf)) t)
    (hsingle : left.length ≤ 1)
    (hclaims : ∀ t ∈ left, ∀ e' ∈ t.held, ∀ r ∈ s.events.rows, r.id = e'.id →
      r.attempts < e'.attempts) :
    Advance s task (s.withEvents (s.events.updateMany (·.id ∈ picks) f hf)) left := by
  have hpicked : ∀ r ∈ s.events.rows, r.id ∈ picks → Progress s r (f r) := by
    intro r hr hmem
    obtain ⟨q, hq, hid, hpq⟩ := hselects.matching r.id hmem
    rw [← s.events.eq_of_key_eq hq hr hid]
    exact hprogress q hq hpq
  exact
    { sound := sound_updateMany hf hs hpicked
      later := later_updateMany hf hpicked
      left_sound := hleft
      single := hsingle
      claims := fun t ht e he => Or.inr (hclaims t ht e he)
      invoked := fun _ hi => Or.inl hi
      owned := fun e he => by rw [hheld] at he; cases he }

theorem advance_reap {batchSize : ℕ} {events : OutboxEvents} (hs : Sound s)
    (htask : TaskSound s (.reap batchSize now))
    (h : reapExhaustedStaleRows s.events batchSize now input.picks = some events) :
    Advance s (.reap batchSize now) (s.withEvents events) [.claim batchSize now] := by
  unfold reapExhaustedStaleRows at h
  split_ifs at h with hselects
  cases h
  apply advance_select (f := fun r => r.buried reapError) (fun _ => rfl) hs rfl hselects
  · exact fun r hr hstranded => progress_buried (hs.rows r hr) hstranded.1 reapError
  · intro t ht
    rw [List.mem_singleton.mp ht]
    have hknows : now ≤ s.clock := htask.knows
    exact ⟨fun _ he => (by cases he), List.nodup_nil, fun _ he => (by cases he), hknows⟩
  · exact le_refl _
  · intro t ht e he
    rw [List.mem_singleton.mp ht] at he
    cases he

/-- Each claimed copy is a stored row that could be claimed. -/
theorem mem_claimed {picks : List OutboxId} {events : OutboxEvents} {e : OutboxEvent}
    (h : e ∈ (picks.filterMap events.find?).map (·.claimed now)) :
    ∃ r ∈ events.rows, r.id ∈ picks ∧ e = r.claimed now := by
  obtain ⟨r, hr, rfl⟩ := List.mem_map.mp h
  obtain ⟨id, hid, hfind⟩ := List.mem_filterMap.mp hr
  obtain ⟨hstored, rfl⟩ := Table.find?_eq_some.mp hfind
  exact ⟨r, hstored, hid, rfl⟩

theorem claimed_distinct {picks : List OutboxId} (events : OutboxEvents) (h : picks.Nodup) :
    (((picks.filterMap events.find?).map (·.claimed now)).map OutboxEvent.id).Nodup := by
  have hsub : (((picks.filterMap events.find?).map (·.claimed now)).map OutboxEvent.id).Sublist
      picks := by
    clear h
    induction picks with
    | nil => exact .slnil
    | cons id picks ih =>
      cases hfind : events.find? id with
      | none =>
        rw [List.filterMap_cons_none hfind]
        exact ih.cons id
      | some r =>
        obtain ⟨_, rfl⟩ := Table.find?_eq_some.mp hfind
        rw [List.filterMap_cons_some hfind]
        exact ih.cons_cons r.id
  exact hsub.nodup h

theorem advance_claim {batchSize : ℕ} {events : OutboxEvents} {claimed : List OutboxEvent}
    (hs : Sound s) (htask : TaskSound s (.claim batchSize now))
    (h : claimBatch s.events batchSize now input.picks = some (events, claimed)) :
    Advance s (.claim batchSize now) (s.withEvents events) [.dispatch claimed] := by
  unfold claimBatch at h
  split_ifs at h with hselects
  cases h
  have hnow : now ≤ s.clock := htask.knows
  have hcopy : ∀ e ∈ (input.picks.filterMap s.events.find?).map (·.claimed now),
      ∃ r ∈ s.events.rows, r.id ∈ input.picks ∧ e = r.claimed now := fun e he => mem_claimed he
  apply advance_select (f := fun r => r.claimed now) (fun _ => rfl) hs rfl hselects
  · exact fun r hr hclaimable => progress_claimed (hs.rows r hr) hclaimable hnow
  · intro t ht
    rw [List.mem_singleton.mp ht]
    refine ⟨?_, claimed_distinct s.events hselects.distinct, ?_, trivial⟩
    · intro e he
      obtain ⟨r, hr, hpicked, rfl⟩ := hcopy e he
      refine ⟨⟨r.claimed now, List.mem_map.mpr ⟨r, hr, if_pos hpicked⟩, rfl, ?_⟩, Nat.succ_pos _⟩
      exact ⟨le_refl _, now, now, rfl, rfl, le_refl _, fun h => absurd h (lt_irrefl _)⟩
    · intro e he hinvoked
      obtain ⟨r, hr, _, rfl⟩ := hcopy e he
      obtain ⟨_, q, hq, hid, hle⟩ := hs.counted _ hinvoked
      rw [s.events.eq_of_key_eq hq hr hid] at hle
      exact absurd hle (Nat.not_succ_le_self _)
  · exact le_refl _
  · intro t ht e he r hr hid
    rw [List.mem_singleton.mp ht] at he
    obtain ⟨q, hq, _, rfl⟩ := hcopy e he
    rw [s.events.eq_of_key_eq hr hq hid]
    exact Nat.lt_succ_self _

theorem advance_dispatch (hs : Sound s) (htask : TaskSound s (.dispatch (event :: rest))) :
    Advance s (.dispatch (event :: rest)) s [.touch event s.clock rest] := by
  apply advance_kept hs
  · intro t ht
    rw [List.mem_singleton.mp ht]
    refine ⟨htask.held, htask.distinct, htask.fresh, ?_, le_refl _⟩
    intro c hc
    obtain ⟨r, hr, _, hbehind⟩ := (htask.held event List.mem_cons_self).stored
    obtain ⟨c', c'', hc', hc'', hle, _⟩ := hbehind.claim
    have heq : c' = c := Option.some.inj (hc'.symm.trans hc)
    rw [← heq]
    exact hle.trans ((hs.rows r hr).past c'' hc'')
  · exact le_refl _
  · intro t ht
    rw [List.mem_singleton.mp ht]
    exact fun _ he => he

/-- A renewed claim is the claim the worker held, at a later time. -/
theorem taskSound_touched {s' : OutboxShared} (htask : TaskSound s (.touch event now rest))
    (hlater : Later s s') (hinvocations : s'.invocations = s.invocations)
    (hr : r ∈ s.events.rows) (hheld : HeldBy event r) (hstored : r.touched now ∈ s'.events.rows) :
    TaskSound s' (.find (r.touched now) rest) := by
  have hevent := htask.held event List.mem_cons_self
  have hid : (r.touched now).id = event.id := hheld.1
  refine ⟨?_, ?_, ?_, trivial⟩
  · intro e he
    rcases List.mem_cons.mp he with rfl | he
    · refine ⟨⟨r.touched now, hstored, rfl, ?_⟩, ?_⟩
      · exact ⟨le_refl _, now, now, rfl, rfl, le_refl _, fun h => absurd h (lt_irrefl _)⟩
      · exact (heldBy_attempts hevent hr hheld).symm ▸ hevent.positive
    · exact copySound_later hlater (htask.held e (List.mem_cons_of_mem _ he))
  · change ((r.touched now).id :: rest.map OutboxEvent.id).Nodup
    rw [hid]
    exact htask.distinct
  · rw [hinvocations]
    intro e he
    rcases List.mem_cons.mp he with rfl | he
    · have hfresh := htask.fresh event List.mem_cons_self
      rw [← heldBy_invocation hevent hr hheld] at hfresh
      exact hfresh
    · exact htask.fresh e (List.mem_cons_of_mem _ he)

theorem advance_touch (hs : Sound s) (htask : TaskSound s (.touch event now rest)) :
    Advance s (.touch event now rest) (s.withEvents (touchClaim s.events event now).1)
      [match (touchClaim s.events event now).2 with
        | none => .dispatch rest
        | some renewed => .find renewed rest] := by
  obtain ⟨hclaim, hnow⟩ : (∀ c, event.claimedAt = some c → c ≤ now) ∧ now ≤ s.clock := htask.knows
  have hevent := htask.held event List.mem_cons_self
  have hrest := dispatch_rest htask rfl fun _ h => List.mem_cons_of_mem _ h
  have hprogress : ∀ r ∈ s.events.rows, HeldBy event r ∧ event.claimedAt ≠ none →
      Progress s r (r.touched now) := by
    intro r hr hheld
    apply progress_touched (hs.rows r hr) hheld.1.2.1 _ hnow
    intro c hc
    exact hclaim c (hheld.1.2.2.symm.trans hc)
  have hlater := later_updateMany (f := fun r => r.touched now) (fun _ => rfl) hprogress
  cases hfind : s.events.rows.find? fun r => HeldBy event r ∧ event.claimedAt ≠ none with
  | none =>
    have hlost : (touchClaim s.events event now).2 = none := by
      simp only [touchClaim, hfind, Option.map_none]
    rw [hlost]
    apply advance_write (f := fun r => r.touched now) (fun _ => rfl) hs htask
      (rfl : _ = event :: rest) (fun _ h => h.1) hprogress
    · intro t ht
      rw [List.mem_singleton.mp ht]
      exact taskSound_later hlater hrest hrest.fresh
    · exact le_refl _
    · intro t ht e he
      rw [List.mem_singleton.mp ht] at he
      exact ⟨e, List.mem_cons_of_mem _ he, rfl⟩
  | some r =>
    have hr := List.mem_of_find?_eq_some hfind
    have hheld : HeldBy event r ∧ event.claimedAt ≠ none := by
      simpa using List.find?_some hfind
    have hrenewed : (touchClaim s.events event now).2 = some (r.touched now) := by
      simp only [touchClaim, hfind, Option.map_some]
    rw [hrenewed]
    apply advance_write (f := fun r => r.touched now) (fun _ => rfl) hs htask
      (rfl : _ = event :: rest) (fun _ h => h.1) hprogress
    · intro t ht
      rw [List.mem_singleton.mp ht]
      exact taskSound_touched htask hlater rfl hr hheld.1 (List.mem_map.mpr ⟨r, hr, if_pos hheld⟩)
    · exact le_refl _
    · intro t ht e he
      rw [List.mem_singleton.mp ht] at he
      rcases List.mem_cons.mp he with rfl | he
      · have hsame := heldBy_invocation hevent hr hheld.1
        exact ⟨event, List.mem_cons_self, hsame⟩
      · exact ⟨e, List.mem_cons_of_mem _ he, rfl⟩

/-- The handler is invoked for a claim it was not invoked for before. -/
theorem advance_invoke (hs : Sound s) (htask : TaskSound s (.find event rest)) :
    Advance s (.find event rest) { s with invocations := event.invocation :: s.invocations }
      [.handle event rest] := by
  have hevent := htask.held event List.mem_cons_self
  have hrest := dispatch_rest htask rfl fun _ h => List.mem_cons_of_mem _ h
  have hdistinct := List.nodup_cons.mp htask.distinct
  refine ⟨⟨?_, ?_, ?_⟩, ⟨le_refl _, fun r hr => ⟨r, hr, .refl r⟩, fun _ h => h⟩, ?_, le_refl _, ?_,
    ?_, fun _ _ _ hr _ _ => hr⟩
  · exact fun r hr => rowSound_mono (hs.rows r hr) (le_refl _) fun _ h => h
  · exact List.nodup_cons.mpr ⟨htask.fresh event List.mem_cons_self, hs.once⟩
  · intro i hi
    rcases List.mem_cons.mp hi with rfl | hi
    · obtain ⟨r, hr, hid, hbehind⟩ := hevent.stored
      exact ⟨hevent.positive, r, hr, hid, hbehind.attempts⟩
    · exact hs.counted i hi
  · intro t ht
    rw [List.mem_singleton.mp ht]
    refine ⟨fun e he => ⟨(htask.held e he).stored, (htask.held e he).positive⟩, htask.distinct, ?_,
      trivial⟩
    intro e he hinvoked
    rcases List.mem_cons.mp hinvoked with heq | hinvoked
    · have hid : e.id = event.id := congrArg Invocation.id heq
      exact hdistinct.1 (hid ▸ List.mem_map_of_mem he)
    · exact hrest.fresh e he hinvoked
  · intro t ht e he
    rw [List.mem_singleton.mp ht] at he
    exact Or.inl ⟨e, he, rfl⟩
  · intro i hi
    rcases List.mem_cons.mp hi with rfl | hi
    · exact Or.inr ⟨event, List.mem_cons_self, rfl⟩
    · exact Or.inl hi

/-- The worker stays on its row and learns something. -/
theorem taskSound_next {task' : DrainTask} (htask : TaskSound s task) (hheld : task'.held = task.held)
    (hpending : pending task' ⊆ pending task) (hknows : Knows s task') : TaskSound s task' :=
  ⟨fun e he => htask.held e (hheld ▸ he), hheld ▸ htask.distinct,
    fun e he => htask.fresh e (hpending he), hknows⟩

theorem advance_next {task' : DrainTask} (hs : Sound s) (htask : TaskSound s task)
    (hheld : task'.held = task.held) (hpending : pending task' ⊆ pending task)
    (hknows : Knows s task') : Advance s task s [task'] := by
  apply advance_kept hs
  · intro t ht
    rw [List.mem_singleton.mp ht]
    exact taskSound_next htask hheld hpending hknows
  · exact le_refl _
  · intro t ht
    rw [List.mem_singleton.mp ht, hheld]
    exact fun _ he => he

theorem advance_return (hs : Sound s) (htask : TaskSound s (.handle event rest)) :
    Advance s (.handle event rest) { s with completions := event.invocation :: s.completions }
      [.markDone event s.clock rest] := by
  have hlater : Later s { s with completions := event.invocation :: s.completions } :=
    ⟨le_refl _, fun r hr => ⟨r, hr, .refl r⟩, List.subset_cons_self _ _⟩
  refine ⟨?_, hlater, ?_, le_refl _, ?_, fun _ hi => Or.inl hi, fun _ _ _ hr _ _ => hr⟩
  · exact sound_of_same_events hs rfl (le_refl _) (List.subset_cons_self _ _) rfl
  · intro t ht
    rw [List.mem_singleton.mp ht]
    have hsame := taskSound_later hlater htask htask.fresh
    exact taskSound_next hsame rfl (fun _ h => h) List.mem_cons_self
  · intro t ht e he
    rw [List.mem_singleton.mp ht] at he
    exact Or.inl ⟨e, he, rfl⟩

theorem advance_throw (hs : Sound s) (htask : TaskSound s (.handle event rest)) (message : String) :
    Advance s (.handle event rest) s [afterThrow s event rest message] := by
  unfold afterThrow
  split_ifs with hexhausted
  · exact advance_next hs htask rfl (fun _ h => h) trivial
  · refine advance_next hs htask rfl (fun _ h => h) ⟨not_le.mp hexhausted, ?_⟩
    intro c hc
    obtain ⟨r, hr, _, hbehind⟩ := (htask.held event List.mem_cons_self).stored
    obtain ⟨c', c'', hc', hc'', hle, _⟩ := hbehind.claim
    have heq : c' = c := Option.some.inj (hc'.symm.trans hc)
    have hpast : c ≤ s.clock := heq ▸ hle.trans ((hs.rows r hr).past c'' hc'')
    exact lt_of_le_of_lt hpast (Int.lt_add_of_pos_right _ (computeNextAttemptDelayMs_pos _))

theorem advance_markDone {dispatchedAt : Instant} (hs : Sound s)
    (htask : TaskSound s (.markDone event dispatchedAt rest)) :
    Advance s (.markDone event dispatchedAt rest)
      (s.withEvents (OutboxDrain.markDone s.events event dispatchedAt)) [.dispatch rest] := by
  have hdone : event.invocation ∈ s.completions := htask.knows
  have hevent := htask.held event List.mem_cons_self
  apply advance_mark (f := fun r => r.delivered dispatchedAt) (fun _ => rfl) hs htask rfl rfl
  intro r hr hheld
  rw [← heldBy_invocation hevent hr hheld] at hdone
  exact progress_delivered (hs.rows r hr) hheld.2.1 hdone dispatchedAt

theorem advance_markDead {error : String} (hs : Sound s)
    (htask : TaskSound s (.markDead event error rest)) :
    Advance s (.markDead event error rest)
      (s.withEvents (OutboxDrain.markDead s.events event error)) [.dispatch rest] := by
  apply advance_mark (f := fun r => r.buried error) (fun _ => rfl) hs htask rfl rfl
  exact fun r hr hheld => progress_buried (hs.rows r hr) hheld.2.1 error

theorem advance_markRetry {error : String} {next : Instant} (hs : Sound s)
    (htask : TaskSound s (.markRetry event error next rest)) :
    Advance s (.markRetry event error next rest)
      (s.withEvents (OutboxDrain.markRetry s.events event error next)) [.dispatch rest] := by
  obtain ⟨hleft, hnext⟩ : event.attempts < maxOutboxAttempts ∧
      ∀ c, event.claimedAt = some c → c < next := htask.knows
  have hevent := htask.held event List.mem_cons_self
  apply advance_mark (f := fun r => r.requeued error next) (fun _ => rfl) hs htask rfl rfl
  intro r hr hheld
  rw [← heldBy_attempts hevent hr hheld] at hleft
  exact progress_requeued (hs.rows r hr) hheld.2.1 hleft
    (fun c hc => hnext c (hheld.2.2.symm.trans hc)) error

theorem advance_failed (hs : Sound s) (htask : TaskSound s task) :
    Advance s task s (afterFailure task) := by
  have hnone : Advance s task s [] :=
    advance_kept hs (fun _ h => by cases h) (Nat.zero_le _) fun _ h => by cases h
  cases task with
  | markDone event dispatchedAt rest =>
    apply advance_kept hs
    · intro t ht
      rw [List.mem_singleton.mp ht]
      exact dispatch_rest htask rfl fun _ h => h
    · exact le_refl _
    · intro t ht
      rw [List.mem_singleton.mp ht]
      exact List.subset_cons_self _ _
  | _ => exact hnone

/-- Every step of a worker, with all it does. -/
theorem advance_step (hs : Sound s) (htask : TaskSound s task)
    (h : nextStep hasHandler s input task = some (s', left)) : Advance s task s' left := by
  cases task with
  | reap batchSize now =>
    obtain ⟨events, hreap, heq⟩ := Option.map_eq_some_iff.mp h
    cases heq
    exact advance_reap hs htask hreap
  | claim batchSize now =>
    obtain ⟨⟨events, claimed⟩, hclaim, heq⟩ := Option.map_eq_some_iff.mp h
    cases heq
    exact advance_claim hs htask hclaim
  | dispatch events =>
    cases events with
    | nil =>
      cases h
      exact advance_kept hs (fun _ h => by cases h) (Nat.zero_le _) fun _ h => by cases h
    | cons event rest =>
      cases h
      exact advance_dispatch hs htask
  | touch event now rest =>
    cases h
    exact advance_touch hs htask
  | find event rest =>
    simp only [nextStep] at h
    split_ifs at h
    · cases h
      exact advance_invoke hs htask
    · cases h
      exact advance_next hs htask rfl (List.subset_cons_self _ _) trivial
  | handle event rest =>
    simp only [nextStep] at h
    split at h
    · cases h
      exact advance_return hs htask
    · cases h
      exact advance_throw hs htask _
  | markDone event dispatchedAt rest =>
    cases h
    exact advance_markDone hs htask
  | markDead event error rest =>
    cases h
    exact advance_markDead hs htask
  | markRetry event error next rest =>
    cases h
    exact advance_markRetry hs htask

theorem advance_resume (hs : Sound s) (htask : TaskSound s task) (others : List DrainTask)
    (h : resumeDrain hasHandler s others input task = some (s', left)) :
    Advance s task s' left := by
  unfold resumeDrain at h
  split_ifs at h
  · cases h
    exact advance_failed hs htask
  · exact advance_step hs htask h

end Steps

section Pools

variable {hasHandler : String → Bool} {p q : OutboxPool} {s s' : OutboxShared} {task : DrainTask}
  {others left : List DrainTask}

/-- The invariant of the pool. -/
def PoolSound (p : OutboxPool) : Prop := Holds Sound TaskSound (fun _ => Apart) p

/-- The other workers keep what they know when one takes a step. -/
theorem undisturbed_advance (h : AtTask Sound TaskSound (fun _ => Apart) s task others)
    (hstep : Advance s task s' left) : Undisturbed TaskSound (fun _ => Apart) s' s' others where
  each := by
    intro other hother
    apply taskSound_later hstep.later (h.each other hother)
    intro e he hinvoked
    rcases hstep.invoked _ hinvoked with hold | ⟨e', he', heq⟩
    · exact (h.each other hother).fresh e he hold
    · exact h.apart other hother e' he' e (held_of_pending he) heq.symm
  pairs := h.pairs

/-- New claims are apart from those of the other workers. -/
theorem apart_advance (h : AtTask Sound TaskSound (fun _ => Apart) s task others)
    (hstep : Advance s task s' left) :
    ∀ t ∈ left, ∀ other ∈ others, Apart t other := by
  intro t ht other hother e he e' he' heq
  rcases hstep.claims t ht e he with ⟨e'', he'', hsame⟩ | hnew
  · exact h.apart other hother e'' he'' e' he' (hsame.symm.trans heq)
  · obtain ⟨r, hr, hid, hbehind⟩ := ((h.each other hother).held e' he').stored
    have hids : e.id = e'.id := congrArg Invocation.id heq
    have hattempts : e.attempts = e'.attempts := congrArg Invocation.attempt heq
    have hless := hnew r hr (hid.trans hids.symm)
    rw [hattempts] at hless
    exact absurd hbehind.attempts (not_le.mpr hless)

theorem poolSound_resume (h : AtTask Sound TaskSound (fun _ => Apart) s task others)
    (hstep : Advance s task s' left) : PoolSound ⟨s', left ++ others⟩ := by
  have hothers := undisturbed_advance h hstep
  have hpairs : left.Pairwise Apart := by
    have hsingle := hstep.single
    cases left with
    | nil => exact .nil
    | cons t left =>
      have hnil : left = [] := List.eq_nil_of_length_eq_zero (by simpa using hsingle)
      rw [hnil]
      exact List.pairwise_singleton _ t
  exact holds_append (s := s') hstep.sound ⟨hothers.each, hothers.pairs⟩ hstep.left_sound hpairs
    (apart_advance h hstep)

/-- A published row is queued and unclaimed. -/
theorem publish_sound {id : OutboxId} {event : PublishOutboxEventParams} {events : OutboxEvents}
    (hs : Sound s) (h : publish s.events id event = some events) :
    Sound (s.withEvents events) ∧ Later s (s.withEvents events) := by
  unfold publish at h
  split_ifs at h with htaken
  cases h
  refine ⟨⟨?_, hs.once, ?_⟩, le_refl _, ?_, fun _ h => h⟩
  · intro r hr
    rcases Table.mem_insertNew.mp hr with hr | ⟨rfl, _⟩
    · exact rowSound_mono (hs.rows r hr) (le_refl _) fun _ h => h
    · exact
        { bounded := Nat.zero_le _
          past := fun c hc => by cases hc
          queued := fun _ => Nat.succ_pos 5
          waits := fun _ c hc => by cases hc
          done := fun hd => by cases hd }
  · intro i hi
    obtain ⟨hpos, r, hr, hid, hle⟩ := hs.counted i hi
    exact ⟨hpos, r, Table.mem_insertNew.mpr (Or.inl hr), hid, hle⟩
  · exact fun r hr => ⟨r, Table.mem_insertNew.mpr (Or.inl hr), .refl r⟩

/-- Time, producers and new workers. -/
theorem started_sound {a : OutboxAction} (hs : Sound s) (h : startDrain s a = some (s', left)) :
    Sound s' ∧ Later s s' ∧ s'.invocations = s.invocations ∧
      ∀ t ∈ left, TaskSound s' t ∧ t.held = [] := by
  cases a with
  | tick clock =>
    simp only [startDrain] at h
    split_ifs at h with hclock
    cases h
    refine ⟨?_, ⟨hclock, fun r hr => ⟨r, hr, .refl r⟩, fun _ h => h⟩, rfl, fun _ h => by cases h⟩
    exact sound_of_same_events hs rfl hclock (fun _ h => h) rfl
  | publish id event =>
    obtain ⟨events, hpublish, heq⟩ := Option.map_eq_some_iff.mp h
    cases heq
    obtain ⟨hsound, hlater⟩ := publish_sound hs hpublish
    exact ⟨hsound, hlater, rfl, fun _ h => by cases h⟩
  | drain batchSize =>
    cases h
    refine ⟨hs, .refl s, rfl, ?_⟩
    intro t ht
    rw [List.mem_singleton.mp ht]
    exact ⟨⟨fun _ he => (by cases he), List.nodup_nil, fun _ he => (by cases he), le_refl _⟩, rfl⟩

theorem poolSound_event {a : OutboxAction} (h : PoolSound p)
    (hstart : startDrain p.shared a = some (s', left)) : PoolSound ⟨s', left ++ p.tasks⟩ := by
  obtain ⟨hsound, hlater, hinvocations, hleft⟩ := started_sound h.shared hstart
  have hothers : Undisturbed TaskSound (fun _ => Apart) s' s' p.tasks := by
    refine ⟨?_, h.pairs⟩
    intro other hother
    apply taskSound_later hlater (h.each other hother)
    rw [hinvocations]
    exact (h.each other hother).fresh
  have hapart : ∀ t ∈ left, ∀ other, Apart t other := by
    intro t ht other e he
    rw [(hleft t ht).2] at he
    cases he
  refine holds_append (s := s') hsound ⟨hothers.each, hothers.pairs⟩ (fun t ht => (hleft t ht).1)
    ?_ fun t ht other _ => hapart t ht other
  exact List.pairwise_of_forall_mem_list fun t ht other _ => hapart t ht other

theorem poolSound_step {a : OutboxStep} (h : PoolSound p)
    (hstep : (drainSystem hasHandler).step p a = some q) : PoolSound q := by
  refine holds_step (fun _ _ _ hapart => hapart.symm) h ?_ ?_ hstep
  · exact fun e s' started _ hstart => poolSound_event h hstart
  · intro index input task s' rest _ _ hat hresume
    exact poolSound_resume hat (advance_resume hat.shared hat.own (p.tasks.eraseIdx index) hresume)

/-- What a step of a worker does in its pool. -/
theorem pool_advance {index : ℕ} {input : DrainInput} (h : PoolSound p)
    (hget : p.tasks[index]? = some task)
    (hstep : (drainSystem hasHandler).step p (.resume index input) = some q) :
    ∃ left, Advance p.shared task q.shared left := by
  obtain ⟨task', s', left, hget', hresume, rfl⟩ := resume_eq_some hstep
  have htask : task' = task := Option.some.inj (hget'.symm.trans hget)
  have hat := h.atTask (fun _ _ _ hapart => hapart.symm) hget'
  rw [htask] at hat hresume
  exact ⟨left, advance_resume hat.shared hat.own (p.tasks.eraseIdx index) hresume⟩

theorem later_step {a : OutboxStep} (h : PoolSound p)
    (hstep : (drainSystem hasHandler).step p a = some q) : Later p.shared q.shared := by
  cases a with
  | event e =>
    obtain ⟨s', started, hstart, rfl⟩ := event_eq_some hstep
    exact (started_sound h.shared hstart).2.1
  | resume index input =>
    obtain ⟨task, s', left, hget, _, _⟩ := resume_eq_some hstep
    obtain ⟨left, hadvance⟩ := pool_advance h hget hstep
    exact hadvance.later

theorem initial_poolSound (h : Initial p) : PoolSound p := by
  refine ⟨⟨?_, ?_, ?_⟩, ?_, ?_⟩
  · rw [h.events]
    exact fun r hr => by cases hr
  · rw [h.invocations]
    exact List.nodup_nil
  · rw [h.invocations]
    exact fun i hi => by cases hi
  · rw [h.tasks]
    exact fun t ht => by cases ht
  · rw [h.tasks]
    exact .nil

theorem poolSound_of_reachable (h : Reachable (drainSystem hasHandler).step anyStep Initial p) :
    PoolSound p :=
  h.invariant (fun _ hinit => initial_poolSound hinit) fun _ _ _ hs _ hstep => poolSound_step hs hstep

/-- A finished row stays as it is in every continuation. -/
theorem terminal_run {actions : List OutboxStep} {r : OutboxEvent} (h : PoolSound p)
    (hrun : run (drainSystem hasHandler).step p actions = some q) (hr : r ∈ p.shared.events.rows)
    (hterminal : Terminal r) : r ∈ q.shared.events.rows := by
  induction actions generalizing p with
  | nil =>
    cases hrun
    exact hr
  | cons a actions ih =>
    unfold run at hrun
    cases hstep : (drainSystem hasHandler).step p a with
    | none => simp [hstep] at hrun
    | some p' =>
      simp only [hstep] at hrun
      obtain ⟨r', hr', hmoves⟩ := (later_step h hstep).rows r hr
      rw [hmoves.terminal hterminal] at hr'
      exact ih (poolSound_step h hstep) hrun hr'

/-- Invocations are told apart by the attempts of their row. -/
theorem invoked_le_attempts (hs : Sound s) {r : OutboxEvent} (hr : r ∈ s.events.rows) :
    s.invocations.countP (fun i => i.id = r.id) ≤ r.attempts := by
  rw [List.countP_eq_length_filter]
  let own := s.invocations.filter fun i => i.id = r.id
  have hown : ∀ i ∈ own, i ∈ s.invocations ∧ i.id = r.id := by
    intro i hi
    simpa using List.mem_filter.mp hi
  have hnodup : (own.map Invocation.attempt).Nodup := by
    refine (hs.once.filter _).map_on ?_
    intro i hi j hj heq
    have hid : i.id = j.id := (hown i hi).2.trans (hown j hj).2.symm
    cases i
    cases j
    simp_all
  have hsub : own.map Invocation.attempt ⊆ List.range' 1 r.attempts := by
    intro n hn
    obtain ⟨i, hi, rfl⟩ := List.mem_map.mp hn
    obtain ⟨hpos, q, hq, hid, hle⟩ := hs.counted i (hown i hi).1
    rw [s.events.eq_of_key_eq hq hr (hid.trans (hown i hi).2)] at hle
    rw [List.mem_range'_1]
    omega
  have hlength := (hnodup.subperm hsub).length_le
  rwa [List.length_map, List.length_range'] at hlength

theorem invoked_bounded (hs : Sound s) (id : OutboxId) :
    s.invocations.countP (fun i => i.id = id) ≤ maxOutboxAttempts := by
  by_cases hrow : ∃ r ∈ s.events.rows, r.id = id
  · obtain ⟨r, hr, rfl⟩ := hrow
    exact (invoked_le_attempts hs hr).trans (hs.rows r hr).bounded
  · have hnone : s.invocations.countP (fun i => i.id = id) = 0 := by
      rw [List.countP_eq_zero]
      intro i hi
      obtain ⟨_, r, hr, hid, _⟩ := hs.counted i hi
      have hne : i.id ≠ id := fun heq => hrow ⟨r, hr, hid.trans heq⟩
      simpa using hne
    rw [hnone]
    exact Nat.zero_le _

end Pools

section Delivery

/-- A claim made later counted another attempt of the row. -/
def TakenOver (s : OutboxShared) (event : OutboxEvent) : Prop :=
  ∃ r ∈ s.events.rows, r.id = event.id ∧ event.attempts < r.attempts

/-- What the outbox promises of every row and every worker. -/
structure Delivers (hasHandler : String → Bool) (p : OutboxPool) : Prop where
  invoked : ∀ id, p.shared.invocations.countP (fun i => i.id = id) ≤ maxOutboxAttempts
  bounded : ∀ r ∈ p.shared.events.rows, r.attempts ≤ maxOutboxAttempts
  queued : ∀ r ∈ p.shared.events.rows, r.status = .queued → r.attempts < maxOutboxAttempts
  done : ∀ r ∈ p.shared.events.rows, r.status = .done →
    ∃ i ∈ p.shared.completions, i.id = r.id
  /-- Whatever happens next, finished rows do not change. -/
  final : ∀ actions q, run (drainSystem hasHandler).step p actions = some q →
    ∀ r ∈ p.shared.events.rows, Terminal r → r ∈ q.shared.events.rows
  /-- No step of a worker changes a row that was claimed by another since. -/
  owned : ∀ index input task q, p.tasks[index]? = some task →
    (drainSystem hasHandler).step p (.resume index input) = some q →
      ∀ event ∈ task.held, TakenOver p.shared event →
        ∀ r ∈ p.shared.events.rows, r.id = event.id → r ∈ q.shared.events.rows

variable {hasHandler : String → Bool} {p : OutboxPool}

/-- Delivery is bounded and owned in every state of every run. -/
theorem outbox_delivers (hasHandler : String → Bool)
    (h : Reachable (drainSystem hasHandler).step anyStep Initial p) : Delivers hasHandler p := by
  have hpool := poolSound_of_reachable h
  have hs : Sound p.shared := hpool.shared
  exact
    { invoked := invoked_bounded hs
      bounded := fun r hr => (hs.rows r hr).bounded
      queued := fun r hr => (hs.rows r hr).queued
      done := fun r hr hdone => ⟨r.invocation, (hs.rows r hr).done hdone, rfl⟩
      final := fun actions q hrun r hr hterminal => terminal_run hpool hrun hr hterminal
      owned := by
        intro index input task q hget hstep event hheld ⟨q', hq', hid', hless⟩ r hr hid
        obtain ⟨left, hadvance⟩ := pool_advance hpool hget hstep
        rw [p.shared.events.eq_of_key_eq hq' hr (hid'.trans hid.symm)] at hless
        exact hadvance.owned event hheld r hr hid hless }

end Delivery

section SampleRuns

def samplePool : OutboxPool := ⟨⟨Table.empty, 0, [], []⟩, []⟩

theorem samplePool_initial : Initial samplePool := ⟨rfl, rfl, rfl, rfl⟩

def steps (n : ℕ) : List OutboxStep := List.replicate n (.resume 0 {})

/-- The handler outlives the lease, so that a second worker takes over and fails; then the
first one returns. -/
def takenOver : List OutboxStep :=
  [.event (.publish 1 ⟨"offer.published.v1", "\x7b\x7d", none, none⟩), .event (.drain outboxBatchSize),
    .resume 0 {}, .resume 0 { picks := [1] }] ++ steps 3 ++
  [.event (.tick 300000), .event (.drain outboxBatchSize), .resume 0 {}, .resume 0 { picks := [1] }] ++
    steps 3 ++ [.resume 0 { thrown := some "provider down" }, .resume 1 {}, .resume 0 {}]

theorem outbox_delivers_takenOver :
    ∃ p, Reachable (drainSystem fun _ => true).step anyStep Initial p ∧
      p.shared.invocations = [⟨1, 2⟩, ⟨1, 1⟩] ∧ p.shared.completions = [⟨1, 1⟩] ∧
      p.shared.events.rows.map (fun r => (r.status, r.attempts, r.claimedAt)) =
        [(.processing, 2, some 300000)] ∧ Delivers (fun _ => true) p := by
  have hp : Reachable (drainSystem fun _ => true).step anyStep Initial
      (after (drainSystem fun _ => true).step samplePool takenOver) :=
    reachable_after (.start samplePool_initial) (by decide +kernel)
  exact ⟨_, hp, by decide +kernel, by decide +kernel, by decide +kernel,
    outbox_delivers (fun _ => true) hp⟩

end SampleRuns

end Kurtar.OutboxOwnership

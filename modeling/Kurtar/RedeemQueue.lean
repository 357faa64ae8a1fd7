import Mathlib.Algebra.Order.Group.Int
import Mathlib.Logic.Function.Basic
import Kurtar.GuardedRuns

/-!
# The offline redeem queue

Swipes that could not reach the server are kept in one stored item, a map from
reservations to swipe times. Queueing and clearing read the map, change it and
write it back, with a pause after the read and one before the write takes
effect, so that calls overlap.
-/

namespace Kurtar.RedeemQueue

open GuardedRuns

variable {ρ : Type*}

structure QueuedRedeemConfirmation (ρ : Type*) where
  reservationId : ρ
  swipedAt : ℤ
deriving DecidableEq

abbrev QueueMap (ρ : Type*) := ρ → Option (QueuedRedeemConfirmation ρ)

/-- The item under `QUEUE_KEY`: none, a text that cannot be parsed, or a queue. -/
inductive Stored (ρ : Type*) where
  | missing
  | garbage
  | queue (map : QueueMap ρ)

def readQueue : Stored ρ → QueueMap ρ
  | .missing => fun _ => none
  | .garbage => fun _ => none
  | .queue map => map

/-- What a call does with the queue it has read. -/
inductive Decision (ρ : Type*) where
  | finish
  | writeQueue (queue : QueueMap ρ) (swipedAt : Option ℤ)

section Bodies

variable [DecidableEq ρ]

/-- The body after `readQueue`; `now` is the clock. -/
def queueLocalConfirmation (now : ℤ) (reservationId : ρ) (queue : QueueMap ρ) : Decision ρ :=
  match queue reservationId with
  | some _ => .finish
  | none => .writeQueue (Function.update queue reservationId (some ⟨reservationId, now⟩)) (some now)

def clearQueuedConfirmation (reservationId : ρ) (queue : QueueMap ρ) : Decision ρ :=
  match queue reservationId with
  | none => .finish
  | some _ => .writeQueue (Function.update queue reservationId none) none

end Bodies

inductive CallKind where
  | queueLocal
  | clearQueued
deriving DecidableEq

/-- Where a call stands: before its read, between read and decision, before its
write takes effect, or ended at a step, with the swipe time it has written. -/
inductive Phase (ρ : Type*) where
  | reading
  | decided (queue : QueueMap ρ)
  | writing (queue : QueueMap ρ) (swipedAt : Option ℤ)
  | ended (time : ℕ) (swipedAt : Option ℤ)

/-- A call, with the number of the step that started it. -/
structure Call (ρ : Type*) where
  kind : CallKind
  reservationId : ρ
  started : ℕ
  phase : Phase ρ

def Call.isEnded (c : Call ρ) : Bool :=
  match c.phase with
  | .ended _ _ => true
  | _ => false

/-- The device: its storage, its clock, and the calls so far, of which `steps`
counts the steps. -/
structure Device (ρ : Type*) where
  stored : Stored ρ
  clock : ℤ
  steps : ℕ
  calls : List (Call ρ)

/-- The device after a step of the call at an index. -/
def Device.moved (d : Device ρ) (index : ℕ) (c : Call ρ) (stored : Stored ρ) (phase : Phase ρ) :
    Device ρ :=
  { d with stored := stored, steps := d.steps+1, calls := d.calls.set index { c with phase := phase } }

inductive DeviceAction (ρ : Type*) where
  | call (kind : CallKind) (reservationId : ρ)
  | resume (index : ℕ)
  /-- The clock is read later, or was set. -/
  | tick (ms : ℤ)
  /-- The app is stopped; calls under way are lost. -/
  | restart
deriving DecidableEq

section System

variable [DecidableEq ρ]

/-- The decision of a call. -/
def Call.decide (clock : ℤ) (c : Call ρ) (queue : QueueMap ρ) : Decision ρ :=
  match c.kind with
  | .queueLocal => queueLocalConfirmation clock c.reservationId queue
  | .clearQueued => clearQueuedConfirmation c.reservationId queue

/-- The storage and the phase after the next step of a call. -/
def Call.next (d : Device ρ) (c : Call ρ) : Option (Stored ρ × Phase ρ) :=
  match c.phase with
  | .reading => some (d.stored, .decided (readQueue d.stored))
  | .decided queue =>
    match c.decide d.clock queue with
    | .finish => some (d.stored, .ended (d.steps+1) none)
    | .writeQueue queue swipedAt => some (d.stored, .writing queue swipedAt)
  | .writing queue swipedAt => some (.queue queue, .ended (d.steps+1) swipedAt)
  | .ended _ _ => none

def step (d : Device ρ) : DeviceAction ρ → Option (Device ρ)
  | .call kind reservationId =>
    some { d with steps := d.steps+1, calls := d.calls ++ [⟨kind, reservationId, d.steps+1, .reading⟩] }
  | .resume index =>
    match d.calls[index]? with
    | none => none
    | some c =>
      (c.next d).map fun (stored, phase) => d.moved index c stored phase
  | .tick ms => some { d with clock := d.clock+ms, steps := d.steps+1 }
  | .restart => some { d with steps := d.steps+1, calls := d.calls.filter Call.isEnded }

end System

/-- The stored entry of a reservation. -/
def Device.entry (d : Device ρ) (r : ρ) : Option (QueuedRedeemConfirmation ρ) := readQueue d.stored r

def Queues (r : ρ) (c : Call ρ) : Prop := c.kind = .queueLocal ∧ c.reservationId = r

def Clears (r : ρ) (c : Call ρ) : Prop := c.kind = .clearQueued ∧ c.reservationId = r

/-- Every clear of `r` that has ended had ended before the step `n`. -/
def Uncleared (r : ρ) (d : Device ρ) (n : ℕ) : Prop :=
  ∀ c ∈ d.calls, Clears r c → ∀ time swipedAt, c.phase = .ended time swipedAt → time < n

/-- Every queueing of `r` that has ended had ended before the step `n`. -/
def Unqueued (r : ρ) (d : Device ρ) (n : ℕ) : Prop :=
  ∀ c ∈ d.calls, Queues r c → ∀ time swipedAt, c.phase = .ended time swipedAt → time < n

/-- The write of a call finds the other reservations as the call has read them,
and no earlier swipe of its own. -/
def WriteFits (d : Device ρ) (a : DeviceAction ρ) : Prop :=
  ∀ index c queue swipedAt, a = .resume index → d.calls[index]? = some c →
    c.phase = .writing queue swipedAt →
      (∀ other, other ≠ c.reservationId → d.entry other = queue other) ∧
        ∀ e ∈ d.entry c.reservationId, ∀ t ∈ swipedAt, t ≤ e.swipedAt

/-- Nothing is queued, and nobody has called yet. -/
def Started (d : Device ρ) : Prop := d.calls = [] ∧ ∀ r, d.entry r = none

section Invariants

variable {r : ρ} {d d' : Device ρ} {c : Call ρ}

/-- What a call says about the entry of `r`: an ended queueing or clearing shows
in it as long as no later call of the other kind has ended, and so does what a
call has read; a write puts or removes the entry. -/
structure CallFits (r : ρ) (d : Device ρ) (c : Call ρ) : Prop where
  started : c.started ≤ d.steps
  queued : Queues r c → ∀ time swipedAt, c.phase = .ended time swipedAt → Uncleared r d c.started →
    ∃ e, d.entry r = some e ∧ ∀ t ∈ swipedAt, e.swipedAt ≤ t
  queuedBefore : Queues r c → ∀ queue, c.phase = .decided queue → queue r ≠ none →
    Uncleared r d c.started → d.entry r ≠ none
  cleared : Clears r c → ∀ time swipedAt, c.phase = .ended time swipedAt → Unqueued r d c.started →
    d.entry r = none
  clearedBefore : Clears r c → ∀ queue, c.phase = .decided queue → queue r = none →
    Unqueued r d c.started → d.entry r = none
  puts : Queues r c → ∀ queue swipedAt, c.phase = .writing queue swipedAt →
    ∃ t, swipedAt = some t ∧ queue r = some ⟨r, t⟩
  removes : Clears r c → ∀ queue swipedAt, c.phase = .writing queue swipedAt → queue r = none

/-- A call that has ended, or has read that there is no entry, started before the
step `put`. -/
def NotAfter (r : ρ) (put : ℕ) (c : Call ρ) : Prop :=
  (∀ time swipedAt, c.phase = .ended time swipedAt → c.started ≤ put) ∧
    ∀ queue, c.phase = .decided queue → queue r = none → c.started ≤ put

/-- The entry was put by an ended queueing, and the clears of `r` are not after it. -/
def PutBy (r : ρ) (d : Device ρ) (e : QueuedRedeemConfirmation ρ) : Prop :=
  ∃ c ∈ d.calls, Queues r c ∧ ∃ put, c.phase = .ended put (some e.swipedAt) ∧
    ∀ other ∈ d.calls, Clears r other → NotAfter r put other

structure Holds (r : ρ) (d : Device ρ) : Prop where
  each : ∀ c ∈ d.calls, CallFits r d c
  entry : ∀ e, d.entry r = some e → PutBy r d e

/-- Calls that have ended stay as they are. -/
def Keeps (d d' : Device ρ) : Prop :=
  ∀ c ∈ d.calls, ∀ time swipedAt, c.phase = .ended time swipedAt → c ∈ d'.calls

theorem Keeps.uncleared (h : Keeps d d') {n : ℕ} (h' : Uncleared r d' n) : Uncleared r d n :=
  fun c hc hclears time swipedAt hended => h' c (h c hc time swipedAt hended) hclears time swipedAt hended

theorem Keeps.unqueued (h : Keeps d d') {n : ℕ} (h' : Unqueued r d' n) : Unqueued r d n :=
  fun c hc hqueues time swipedAt hended => h' c (h c hc time swipedAt hended) hqueues time swipedAt hended

/-- A step that leaves the entry leaves what a call says about it. -/
theorem CallFits.same (h : CallFits r d c) (hkeeps : Keeps d d') (hsteps : d.steps ≤ d'.steps)
    (hentry : d'.entry r = d.entry r) : CallFits r d' c := by
  refine ⟨h.started.trans hsteps, ?_, ?_, ?_, ?_, h.puts, h.removes⟩
  · intro hqueues time swipedAt hended huncleared
    rw [hentry]
    exact h.queued hqueues time swipedAt hended (hkeeps.uncleared huncleared)
  · intro hqueues queue hdecided hne huncleared
    rw [hentry]
    exact h.queuedBefore hqueues queue hdecided hne (hkeeps.uncleared huncleared)
  · intro hclears time swipedAt hended hunqueued
    rw [hentry]
    exact h.cleared hclears time swipedAt hended (hkeeps.unqueued hunqueued)
  · intro hclears queue hdecided hnone hunqueued
    rw [hentry]
    exact h.clearedBefore hclears queue hdecided hnone (hkeeps.unqueued hunqueued)

/-- After a queueing has put an entry, no later than the one before. -/
theorem CallFits.put (h : CallFits r d c) (hkeeps : Keeps d d') (hsteps : d'.steps = d.steps+1)
    {writer : Call ρ} {t : ℤ} (hwriter : writer ∈ d'.calls) (hqueues : Queues r writer)
    (hended : writer.phase = .ended (d.steps+1) (some t)) (hentry : d'.entry r = some ⟨r, t⟩)
    (hearlier : ∀ e ∈ d.entry r, t ≤ e.swipedAt) : CallFits r d' c := by
  have hstarted := h.started
  have hnot : ¬ Unqueued r d' c.started := fun hunqueued => by
    have hlt := hunqueued writer hwriter hqueues (d.steps+1) (some t) hended
    omega
  refine ⟨by omega, ?_, ?_, ?_, ?_, h.puts, h.removes⟩
  · intro hown time swipedAt hphase huncleared
    obtain ⟨e, he, hle⟩ := h.queued hown time swipedAt hphase (hkeeps.uncleared huncleared)
    exact ⟨⟨r, t⟩, hentry, fun t' ht' => (hearlier e he).trans (hle t' ht')⟩
  · intro _ _ _ _ _
    rw [hentry]
    exact Option.some_ne_none _
  · intro _ _ _ _ hunqueued
    exact absurd hunqueued hnot
  · intro _ _ _ _ hunqueued
    exact absurd hunqueued hnot

/-- After a clear has removed the entry. -/
theorem CallFits.removed (h : CallFits r d c) (hsteps : d'.steps = d.steps+1) {writer : Call ρ}
    {swipedAt : Option ℤ} (hwriter : writer ∈ d'.calls) (hclears : Clears r writer)
    (hended : writer.phase = .ended (d.steps+1) swipedAt) (hentry : d'.entry r = none) :
    CallFits r d' c := by
  have hstarted := h.started
  have hnot : ¬ Uncleared r d' c.started := fun huncleared => by
    have hlt := huncleared writer hwriter hclears (d.steps+1) swipedAt hended
    omega
  refine ⟨by omega, ?_, ?_, fun _ _ _ _ _ => hentry, fun _ _ _ _ _ => hentry, h.puts, h.removes⟩
  · intro _ _ _ _ huncleared
    exact absurd huncleared hnot
  · intro _ _ _ _ huncleared
    exact absurd huncleared hnot

theorem callFits_reading (hphase : c.phase = .reading) (hstarted : c.started ≤ d.steps) :
    CallFits r d c := by
  constructor <;> simp_all

theorem callFits_decided {queue : QueueMap ρ} (hphase : c.phase = .decided queue)
    (hstarted : c.started ≤ d.steps) (hentry : queue r = d.entry r) : CallFits r d c := by
  constructor <;> simp_all

theorem callFits_writing {queue : QueueMap ρ} {swipedAt : Option ℤ}
    (hphase : c.phase = .writing queue swipedAt) (hstarted : c.started ≤ d.steps)
    (hputs : Queues r c → ∃ t, swipedAt = some t ∧ queue r = some ⟨r, t⟩)
    (hremoves : Clears r c → queue r = none) : CallFits r d c := by
  constructor <;> simp_all

theorem callFits_ended {time : ℕ} {swipedAt : Option ℤ} (hphase : c.phase = .ended time swipedAt)
    (hstarted : c.started ≤ d.steps)
    (hqueued : Queues r c → Uncleared r d c.started →
      ∃ e, d.entry r = some e ∧ ∀ t ∈ swipedAt, e.swipedAt ≤ t)
    (hcleared : Clears r c → Unqueued r d c.started → d.entry r = none) : CallFits r d c := by
  constructor <;> simp_all

/-- A step that leaves the entry, and whose calls fit, keeps the invariant. -/
theorem Holds.same (h : Holds r d) (hkeeps : Keeps d d') (hsteps : d.steps ≤ d'.steps)
    (hentry : d'.entry r = d.entry r)
    (hcalls : ∀ c ∈ d'.calls, c ∈ d.calls ∨ CallFits r d' c ∧
      ∀ e, d.entry r = some e → Clears r c → ∀ put,
        (∀ other ∈ d.calls, Clears r other → NotAfter r put other) → NotAfter r put c) :
    Holds r d' := by
  refine ⟨fun c hc => ?_, fun e he => ?_⟩
  · cases hcalls c hc with
    | inl hold => exact (h.each c hold).same hkeeps hsteps hentry
    | inr hnew => exact hnew.1
  · rw [hentry] at he
    obtain ⟨c, hc, hqueues, put, hended, hothers⟩ := h.entry e he
    refine ⟨c, hkeeps c hc put _ hended, hqueues, put, hended, fun other hother hclears => ?_⟩
    cases hcalls other hother with
    | inl hold => exact hothers other hold hclears
    | inr hnew => exact hnew.2 e he hclears put hothers

/-- A step of a call that has not ended leaves the calls that have. -/
theorem keeps_moved {index : ℕ} (stored : Stored ρ) (phase : Phase ρ)
    (hget : d.calls[index]? = some c) (hopen : ∀ time swipedAt, c.phase ≠ .ended time swipedAt) :
    Keeps d (d.moved index c stored phase) := by
  intro a ha time swipedAt hended
  obtain ⟨j, hj⟩ := List.mem_iff_getElem?.mp ha
  have hne : index ≠ j := fun heq => by
    rw [heq, hj] at hget
    exact hopen time swipedAt (Option.some.inj hget ▸ hended)
  exact List.mem_of_getElem? ((List.getElem?_set_ne hne).trans hj)

end Invariants

section Steps

variable [DecidableEq ρ] {r : ρ} {d d' : Device ρ} {c : Call ρ} {index : ℕ} {queue : QueueMap ρ}
  {swipedAt : Option ℤ} {a : DeviceAction ρ}

theorem resume_eq_some (h : step d (.resume index) = some d') :
    ∃ c stored phase, d.calls[index]? = some c ∧ c.next d = some (stored, phase) ∧
      d' = d.moved index c stored phase := by
  simp only [step] at h
  cases hget : d.calls[index]? with
  | none => simp [hget] at h
  | some c =>
    simp only [hget] at h
    obtain ⟨⟨stored, phase⟩, hnext, heq⟩ := Option.map_eq_some_iff.mp h
    exact ⟨c, stored, phase, rfl, hnext, heq.symm⟩

/-- A call reads, decides, or its write takes effect. -/
theorem next_cases {stored : Stored ρ} {phase : Phase ρ} (h : c.next d = some (stored, phase)) :
    (c.phase = .reading ∧ stored = d.stored ∧ phase = .decided (readQueue d.stored)) ∨
    (∃ queue, c.phase = .decided queue ∧ stored = d.stored ∧
      phase = match c.decide d.clock queue with
        | .finish => .ended (d.steps+1) none
        | .writeQueue queue swipedAt => .writing queue swipedAt) ∨
    ∃ queue swipedAt, c.phase = .writing queue swipedAt ∧ stored = .queue queue ∧
      phase = .ended (d.steps+1) swipedAt := by
  unfold Call.next at h
  cases hphase : c.phase with
  | reading =>
    simp only [hphase, Option.some.injEq, Prod.mk.injEq] at h
    exact Or.inl ⟨rfl, h.1.symm, h.2.symm⟩
  | decided queue =>
    refine Or.inr (Or.inl ⟨queue, rfl, ?_⟩)
    simp only [hphase] at h
    cases hdecision : c.decide d.clock queue with
    | finish =>
      simp only [hdecision, Option.some.injEq, Prod.mk.injEq] at h
      exact ⟨h.1.symm, h.2.symm⟩
    | writeQueue queue' swipedAt =>
      simp only [hdecision, Option.some.injEq, Prod.mk.injEq] at h
      exact ⟨h.1.symm, h.2.symm⟩
  | writing queue swipedAt =>
    simp only [hphase, Option.some.injEq, Prod.mk.injEq] at h
    exact Or.inr (Or.inr ⟨queue, swipedAt, rfl, h.1.symm, h.2.symm⟩)
  | ended time swipedAt => simp [hphase] at h

omit [DecidableEq ρ] in
/-- A step of a call that leaves the entry keeps the invariant when the call fits. -/
theorem Holds.moved_same (h : Holds r d) {stored : Stored ρ} {phase : Phase ρ}
    (hget : d.calls[index]? = some c) (hopen : ∀ time swipedAt, c.phase ≠ .ended time swipedAt)
    (hentry : (d.moved index c stored phase).entry r = d.entry r)
    (hfits : CallFits r (d.moved index c stored phase) { c with phase := phase })
    (hafter : ∀ e, d.entry r = some e → Clears r c → ∀ put, NotAfter r put c →
      NotAfter r put { c with phase := phase }) : Holds r (d.moved index c stored phase) := by
  refine h.same (keeps_moved stored phase hget hopen) (Nat.le_succ d.steps) hentry fun b hb => ?_
  cases List.mem_or_eq_of_mem_set hb with
  | inl hold => exact Or.inl hold
  | inr heq =>
    rw [heq]
    exact Or.inr ⟨hfits, fun e he hclears put hothers =>
      hafter e he hclears put (hothers c (List.mem_of_getElem? hget) hclears)⟩

omit [DecidableEq ρ] in
theorem holds_read (h : Holds r d) (hget : d.calls[index]? = some c) (hphase : c.phase = .reading) :
    Holds r (d.moved index c d.stored (.decided (readQueue d.stored))) := by
  have hstarted := (h.each c (List.mem_of_getElem? hget)).started
  refine h.moved_same hget (fun _ _ heq => nomatch hphase.symm.trans heq) rfl
    (callFits_decided rfl (Nat.le_succ_of_le hstarted) rfl) fun e he _ put _ => ?_
  refine ⟨fun _ _ heq => (nomatch heq), fun queue heq hnone => ?_⟩
  cases heq
  exact nomatch he.symm.trans hnone

/-- A queueing ends without a write only on an entry it has read. -/
theorem queued_of_finish {now : ℤ} (h : c.decide now queue = .finish) (hqueues : Queues r c) :
    queue r ≠ none := by
  intro hnone
  rw [Call.decide, hqueues.1, hqueues.2] at h
  simp [queueLocalConfirmation, hnone] at h

theorem cleared_of_finish {now : ℤ} (h : c.decide now queue = .finish) (hclears : Clears r c) :
    queue r = none := by
  rw [Call.decide, hclears.1, hclears.2] at h
  cases hread : queue r with
  | none => rfl
  | some e => simp [clearQueuedConfirmation, hread] at h

theorem put_of_write {now : ℤ} {written : QueueMap ρ}
    (h : c.decide now queue = .writeQueue written swipedAt) (hqueues : Queues r c) :
    ∃ t, swipedAt = some t ∧ written r = some ⟨r, t⟩ := by
  rw [Call.decide, hqueues.1, hqueues.2] at h
  cases hread : queue r with
  | some e => simp [queueLocalConfirmation, hread] at h
  | none =>
    simp only [queueLocalConfirmation, hread, Decision.writeQueue.injEq] at h
    rw [← h.1, ← h.2]
    exact ⟨now, rfl, Function.update_self ..⟩

theorem removed_of_write {now : ℤ} {written : QueueMap ρ}
    (h : c.decide now queue = .writeQueue written swipedAt) (hclears : Clears r c) :
    written r = none := by
  rw [Call.decide, hclears.1, hclears.2] at h
  cases hread : queue r with
  | none => simp [clearQueuedConfirmation, hread] at h
  | some e =>
    simp only [clearQueuedConfirmation, hread, Decision.writeQueue.injEq] at h
    rw [← h.1]
    exact Function.update_self ..

theorem holds_decided (h : Holds r d) (hget : d.calls[index]? = some c)
    (hphase : c.phase = .decided queue) :
    Holds r (d.moved index c d.stored (match c.decide d.clock queue with
      | .finish => .ended (d.steps+1) none
      | .writeQueue queue swipedAt => .writing queue swipedAt)) := by
  have hopen : ∀ time swipedAt, c.phase ≠ .ended time swipedAt := fun _ _ heq =>
    nomatch hphase.symm.trans heq
  have hfits := h.each c (List.mem_of_getElem? hget)
  have hlater := Nat.le_succ_of_le hfits.started
  cases hdecision : c.decide d.clock queue with
  | finish =>
    have hkeeps := keeps_moved d.stored (.ended (d.steps+1) none) hget hopen
    refine h.moved_same hget hopen rfl (callFits_ended rfl hlater ?_ ?_) ?_
    · intro hqueues huncleared
      have hsome := hfits.queuedBefore hqueues queue hphase (queued_of_finish hdecision hqueues)
        (hkeeps.uncleared huncleared)
      obtain ⟨e, he⟩ := Option.ne_none_iff_exists'.mp hsome
      exact ⟨e, he, nofun⟩
    · intro hclears hunqueued
      exact hfits.clearedBefore hclears queue hphase (cleared_of_finish hdecision hclears)
        (hkeeps.unqueued hunqueued)
    · intro e he hclears put hnot
      have hread := cleared_of_finish hdecision hclears
      exact ⟨fun _ _ _ => hnot.2 queue hphase hread, fun _ heq => (nomatch heq)⟩
  | writeQueue written swipedAt =>
    refine h.moved_same hget hopen rfl (callFits_writing rfl hlater ?_ ?_) ?_
    · exact put_of_write hdecision
    · exact removed_of_write hdecision
    · intro _ _ _ put _
      exact ⟨fun _ _ heq => (nomatch heq), fun _ heq => (nomatch heq)⟩

omit [DecidableEq ρ] in
theorem mem_moved {stored : Stored ρ} {phase : Phase ρ} (hget : d.calls[index]? = some c) :
    { c with phase := phase } ∈ (d.moved index c stored phase).calls :=
  List.mem_set (List.getElem?_eq_some_iff.mp hget).1 _

omit [DecidableEq ρ] in
theorem holds_put (h : Holds r d) (hget : d.calls[index]? = some c)
    (hphase : c.phase = .writing queue swipedAt) (hqueues : Queues r c)
    (hearlier : ∀ e ∈ d.entry r, ∀ t ∈ swipedAt, t ≤ e.swipedAt) :
    Holds r (d.moved index c (.queue queue) (.ended (d.steps+1) swipedAt)) := by
  have hfits := h.each c (List.mem_of_getElem? hget)
  obtain ⟨t, hswiped, hentry⟩ := hfits.puts hqueues queue swipedAt hphase
  have hopen : ∀ time swipedAt, c.phase ≠ .ended time swipedAt := fun _ _ heq =>
    nomatch hphase.symm.trans heq
  have hkeeps := keeps_moved (.queue queue) (.ended (d.steps+1) swipedAt) hget hopen
  rw [hswiped] at hkeeps ⊢
  have heach : ∀ b ∈ (d.moved index c (.queue queue) (.ended (d.steps+1) (some t))).calls,
      CallFits r (d.moved index c (.queue queue) (.ended (d.steps+1) (some t))) b := by
    intro b hb
    cases List.mem_or_eq_of_mem_set hb with
    | inl hold =>
      exact (h.each b hold).put hkeeps rfl (mem_moved hget) hqueues rfl hentry
        fun e he => hearlier e he t hswiped
    | inr heq =>
      rw [heq]
      refine callFits_ended rfl (Nat.le_succ_of_le hfits.started) (fun _ _ => ?_) ?_
      · exact ⟨⟨r, t⟩, hentry, fun t' ht' => (Option.some.inj ht').le⟩
      · intro hclears
        exact nomatch hqueues.1.symm.trans hclears.1
  refine ⟨heach, fun e he => ?_⟩
  have hput : e = ⟨r, t⟩ := Option.some.inj (he.symm.trans hentry)
  rw [hput]
  refine ⟨_, mem_moved hget, hqueues, d.steps+1, rfl, fun other hother _ => ?_⟩
  have hstarted := (heach other hother).started
  exact ⟨fun _ _ _ => hstarted, fun _ _ _ => hstarted⟩

omit [DecidableEq ρ] in
theorem holds_removed (h : Holds r d) (hget : d.calls[index]? = some c)
    (hphase : c.phase = .writing queue swipedAt) (hclears : Clears r c) :
    Holds r (d.moved index c (.queue queue) (.ended (d.steps+1) swipedAt)) := by
  have hfits := h.each c (List.mem_of_getElem? hget)
  have hentry := hfits.removes hclears queue swipedAt hphase
  refine ⟨fun b hb => ?_, fun e he => nomatch he.symm.trans hentry⟩
  cases List.mem_or_eq_of_mem_set hb with
  | inl hold => exact (h.each b hold).removed rfl (mem_moved hget) hclears rfl hentry
  | inr heq =>
    rw [heq]
    refine callFits_ended rfl (Nat.le_succ_of_le hfits.started) ?_ fun _ _ => hentry
    intro hqueues
    exact nomatch hclears.1.symm.trans hqueues.1

omit [DecidableEq ρ] in
/-- A fitting write keeps the invariant of every reservation. -/
theorem holds_written (h : Holds r d) (hget : d.calls[index]? = some c)
    (hphase : c.phase = .writing queue swipedAt)
    (hothers : ∀ other, other ≠ c.reservationId → d.entry other = queue other)
    (hearlier : ∀ e ∈ d.entry c.reservationId, ∀ t ∈ swipedAt, t ≤ e.swipedAt) :
    Holds r (d.moved index c (.queue queue) (.ended (d.steps+1) swipedAt)) := by
  by_cases hown : c.reservationId = r
  · cases hkind : c.kind with
    | queueLocal =>
      rw [hown] at hearlier
      exact holds_put h hget hphase ⟨hkind, hown⟩ hearlier
    | clearQueued => exact holds_removed h hget hphase ⟨hkind, hown⟩
  · have hstarted := (h.each c (List.mem_of_getElem? hget)).started
    refine h.moved_same hget (fun _ _ heq => nomatch hphase.symm.trans heq)
      (hothers r fun heq => hown heq.symm).symm
      (callFits_ended rfl (Nat.le_succ_of_le hstarted) ?_ ?_) ?_
    · intro hqueues
      exact absurd hqueues.2 hown
    · intro hclears
      exact absurd hclears.2 hown
    · intro _ _ hclears
      exact absurd hclears.2 hown

/-- Each step keeps the invariant, if its write fits. -/
theorem holds_step (h : Holds r d) (hfits : WriteFits d a) (hstep : step d a = some d') :
    Holds r d' := by
  cases a with
  | call kind reservationId =>
    cases hstep
    refine h.same (fun c hc _ _ _ => List.mem_append_left _ hc) (Nat.le_succ d.steps) rfl fun c hc => ?_
    cases List.mem_append.mp hc with
    | inl hold => exact Or.inl hold
    | inr hnew =>
      rw [List.mem_singleton.mp hnew]
      refine Or.inr ⟨callFits_reading rfl le_rfl, fun _ _ _ _ _ => ?_⟩
      exact ⟨fun _ _ heq => (nomatch heq), fun _ heq => (nomatch heq)⟩
  | resume index =>
    obtain ⟨c, stored, phase, hget, hnext, heq⟩ := resume_eq_some hstep
    rw [heq]
    rcases next_cases hnext with ⟨hphase, hs, hp⟩ | ⟨queue, hphase, hs, hp⟩ |
      ⟨queue, swipedAt, hphase, hs, hp⟩
    · rw [hs, hp]
      exact holds_read h hget hphase
    · rw [hs, hp]
      exact holds_decided h hget hphase
    · rw [hs, hp]
      obtain ⟨hothers, hearlier⟩ := hfits index c queue swipedAt rfl hget hphase
      exact holds_written h hget hphase hothers hearlier
  | tick ms =>
    cases hstep
    exact h.same (fun c hc _ _ _ => hc) (Nat.le_succ d.steps) rfl fun c hc => Or.inl hc
  | restart =>
    cases hstep
    refine h.same (fun c hc _ _ hended => List.mem_filter.mpr ⟨hc, ?_⟩) (Nat.le_succ d.steps) rfl
      fun c hc => Or.inl (List.mem_of_mem_filter hc)
    rw [Call.isEnded, hended]

theorem holds_of_reachable (h : Reachable step WriteFits Started d) : Holds r d := by
  refine h.invariant (fun d hd => ?_) fun d a d' hd hok hstep => holds_step hd hok hstep
  refine ⟨fun c hc => ?_, fun e he => nomatch (hd.2 r).symm.trans he⟩
  rw [hd.1] at hc
  exact nomatch hc

/-- In every run whose writes fit: a reservation that was queued and not cleared
by a later call is stored, no later than its swipe; what is stored is the swipe of
a queueing that no later clear follows; a cleared reservation that was not queued
again is not stored. A step of a call leaves the entries of the other reservations
exactly when they are those it writes. -/
theorem queue_durable_when_fitting (d : Device ρ) (h : Reachable step WriteFits Started d) :
    (∀ r, ∀ q ∈ d.calls, Queues r q → ∀ time swipedAt, q.phase = .ended time swipedAt →
        Uncleared r d q.started →
          ∃ e, d.entry r = some e ∧ ∀ t ∈ swipedAt, e.swipedAt ≤ t) ∧
      (∀ r e, d.entry r = some e →
        ∃ q ∈ d.calls, Queues r q ∧ ∃ put, q.phase = .ended put (some e.swipedAt) ∧
          ∀ c ∈ d.calls, Clears r c → ∀ time swipedAt, c.phase = .ended time swipedAt →
            c.started ≤ put) ∧
      (∀ r, ∀ c ∈ d.calls, Clears r c → ∀ time swipedAt, c.phase = .ended time swipedAt →
        Unqueued r d c.started → d.entry r = none) ∧
      ∀ d' index c, step d (.resume index) = some d' → d.calls[index]? = some c →
        ((∀ other, other ≠ c.reservationId → d'.entry other = d.entry other) ↔
          ∀ queue swipedAt, c.phase = .writing queue swipedAt →
            ∀ other, other ≠ c.reservationId → d.entry other = queue other) := by
  refine ⟨?_, ?_, ?_, ?_⟩
  · intro r q hq hqueues time swipedAt hended huncleared
    exact ((holds_of_reachable h).each q hq).queued hqueues time swipedAt hended huncleared
  · intro r e he
    obtain ⟨q, hq, hqueues, put, hended, hothers⟩ := (holds_of_reachable h).entry e he
    exact ⟨q, hq, hqueues, put, hended, fun c hc hclears => (hothers c hc hclears).1⟩
  · intro r c hc hclears time swipedAt hended hunqueued
    exact ((holds_of_reachable h).each c hc).cleared hclears time swipedAt hended hunqueued
  · intro d' index c hstep hget
    obtain ⟨c', stored, phase, hget', hnext, heq⟩ := resume_eq_some hstep
    cases hget.symm.trans hget'
    rw [heq]
    rcases next_cases hnext with ⟨hphase, hs, _⟩ | ⟨_, hphase, hs, _⟩ | ⟨queue, swipedAt, hphase, hs, _⟩
    · rw [hs]
      exact ⟨fun _ _ _ hwriting => (nomatch hphase.symm.trans hwriting), fun _ _ _ => rfl⟩
    · rw [hs]
      exact ⟨fun _ _ _ hwriting => (nomatch hphase.symm.trans hwriting), fun _ _ _ => rfl⟩
    · rw [hs]
      constructor
      · intro hsame queue' swipedAt' hwriting other hne
        cases hphase.symm.trans hwriting
        exact (hsame other hne).symm
      · intro hsame other hne
        exact (hsame queue swipedAt hphase other hne).symm

/-- Nothing stored, nobody calls; the clock shows 100. -/
def freshDevice : Device ℕ := ⟨.missing, 100, 0, []⟩

theorem started_freshDevice : Started freshDevice := ⟨rfl, fun _ => rfl⟩

omit [DecidableEq ρ] in
theorem writeFits_of_not_writing (h : ∀ c ∈ d.calls, ∀ queue swipedAt, c.phase ≠ .writing queue swipedAt) :
    WriteFits d a := fun _ c queue swipedAt _ hget hphase =>
  absurd hphase (h c (List.mem_of_getElem? hget) queue swipedAt)

theorem queue_durable_when_fitting_sample :
    ∃ e, (after step freshDevice
      [.call .queueLocal 5, .resume 0, .resume 0, .resume 0]).entry 5 = some e ∧
        ∀ t ∈ some 100, e.swipedAt ≤ t := by
  have h1 : Reachable step WriteFits Started (after step freshDevice [.call .queueLocal 5]) :=
    .next (a := .call .queueLocal 5) (.start started_freshDevice) (writeFits_of_not_writing nofun) rfl
  have h2 : Reachable step WriteFits Started
      (after step freshDevice [.call .queueLocal 5, .resume 0]) := by
    refine .next (a := .resume 0) h1 (writeFits_of_not_writing fun c hc queue swipedAt hphase => ?_) rfl
    rw [List.mem_singleton.mp hc] at hphase
    exact nomatch hphase
  have h3 : Reachable step WriteFits Started
      (after step freshDevice [.call .queueLocal 5, .resume 0, .resume 0]) := by
    refine .next (a := .resume 0) h2 (writeFits_of_not_writing fun c hc queue swipedAt hphase => ?_) rfl
    rw [List.mem_singleton.mp hc] at hphase
    exact nomatch hphase
  have h4 : Reachable step WriteFits Started
      (after step freshDevice [.call .queueLocal 5, .resume 0, .resume 0, .resume 0]) := by
    refine .next h3 (a := .resume 0) (fun index c queue swipedAt ha hget hphase => ?_) rfl
    cases ha
    cases hget
    cases hphase
    refine ⟨fun other hne => ?_, fun e he => (nomatch he)⟩
    exact (Function.update_of_ne hne _ _).symm
  refine (queue_durable_when_fitting _ h4).1 5 ⟨.queueLocal, 5, 1, .ended 4 (some 100)⟩
    (List.mem_singleton.mpr rfl) ⟨rfl, rfl⟩ 4 (some 100) rfl fun c hc hclears => ?_
  rw [List.mem_singleton.mp hc] at hclears
  exact nomatch hclears.1

/-- Two swipes overlap: the second write loses the first. -/
theorem queue_durable_counterexample :
    ∃ d : Device ℕ, Reachable step anyStep Started d ∧ (∀ c ∈ d.calls, c.isEnded = true) ∧
      (∃ q ∈ d.calls, Queues 5 q) ∧ (∀ c ∈ d.calls, ¬ Clears 5 c) ∧ d.entry 5 = none := by
  refine ⟨after step freshDevice [.call .queueLocal 5, .call .queueLocal 6, .resume 0, .resume 1,
    .resume 0, .resume 1, .resume 0, .resume 1], reachable_after (.start started_freshDevice) rfl,
    ?_, ⟨_, List.mem_cons_self, rfl, rfl⟩, ?_, rfl⟩
  · intro c hc
    cases List.mem_pair.mp hc with
    | inl heq => rw [heq]; rfl
    | inr heq => rw [heq]; rfl
  · intro c hc hclears
    cases List.mem_pair.mp hc with
    | inl heq =>
      rw [heq] at hclears
      exact nomatch hclears.1
    | inr heq =>
      rw [heq] at hclears
      exact nomatch hclears.1

end Steps

end Kurtar.RedeemQueue

import Mathlib.Data.Finset.Card
import Mathlib.Data.Finset.Range
import Mathlib.Data.List.Nodup
import Kurtar.GuardedRuns

/-!
# A queue of jobs shared by concurrent workers

Workers take the jobs in order from one shared index, work on one job at a
time, and store each outcome at the job's own position, whichever ends first.
Every job is handed out once, and when no worker is busy any more every
position is filled.
-/

namespace Kurtar.WorkQueue

open GuardedRuns

/-- The jobs, the next one to take, the stored outcomes, and the job that each
busy worker is on. `taken` and `answers` record what was handed out and how it
ended. -/
structure Queue (α ε β : Type*) where
  jobs : List α
  next : ℕ
  slots : ℕ → Option β
  busy : List ℕ
  taken : List α
  answers : ℕ → Option ε

section Definitions

variable {α ε β : Type*} (handle : α → ε → β)

/-- Nothing taken yet. -/
def fresh (jobs : List α) : Queue α ε β := ⟨jobs, 0, fun _ => none, [], [], fun _ => none⟩

/-- A free worker takes the next job, if there is one. -/
def takeNext (q : Queue α ε β) : Queue α ε β :=
  match q.jobs[q.next]? with
  | some job => { q with next := q.next+1, busy := q.busy ++ [q.next], taken := q.taken ++ [job] }
  | none => q

/-- Workers set out one after the other. -/
def start : ℕ → Queue α ε β → Queue α ε β
  | 0, q => q
  | n+1, q => start n (takeNext q)

/-- The outcome of a job is stored and its worker is free. -/
def store (q : Queue α ε β) (index : ℕ) (job : α) (answer : ε) : Queue α ε β :=
  { q with
    slots := Function.update q.slots index (some (handle job answer))
    busy := q.busy.erase index
    answers := Function.update q.answers index (some answer) }

/-- A busy worker's job ends so, and the worker goes on to the next. -/
def complete (q : Queue α ε β) (index : ℕ) (answer : ε) : Option (Queue α ε β) :=
  if index ∈ q.busy then
    (q.jobs[index]?).map fun job => takeNext (store handle q index job answer)
  else none

def stepQueue (q : Queue α ε β) (a : ℕ × ε) : Option (Queue α ε β) := complete handle q a.1 a.2

/-- The queue's state after workers have set out. -/
def Started (workers : ℕ) (jobs : List α) (q : Queue α ε β) : Prop :=
  q = start workers (fresh jobs)

/-- The stored outcomes in the order of the jobs; positions without one are left out. -/
def outcomes (q : Queue α ε β) : List β := (List.range q.jobs.length).filterMap q.slots

/-- How many jobs have not ended. -/
def unanswered (q : Queue α ε β) : ℕ :=
  ((Finset.range q.jobs.length).filter fun k => (q.answers k).isNone = true).card

/-- What holds of the queue whatever ended in whatever order. -/
structure Sound (bound : ℕ) (q : Queue α ε β) : Prop where
  next_le : q.next ≤ q.jobs.length
  taken : q.taken = q.jobs.take q.next
  nodup : q.busy.Nodup
  busy : ∀ k, k ∈ q.busy ↔ k < q.next ∧ q.answers k = none
  untaken : ∀ k, q.next ≤ k → q.answers k = none
  slots : ∀ k job, q.jobs[k]? = some job → q.slots k = (q.answers k).map (handle job)
  bounded : q.busy.length ≤ bound

/-- Either all jobs are taken or somebody is busy. -/
def Manned (q : Queue α ε β) : Prop := q.next = q.jobs.length ∨ q.busy ≠ []

end Definitions

variable {α ε β : Type*} {handle : α → ε → β} {q q' : Queue α ε β} {bound n : ℕ} {jobs : List α}

theorem sound_fresh : Sound handle bound (fresh jobs) where
  next_le := Nat.zero_le _
  taken := rfl
  nodup := List.nodup_nil
  busy k := by simp [fresh]
  untaken _ _ := rfl
  slots _ _ _ := rfl
  bounded := Nat.zero_le _

@[simp]
theorem takeNext_jobs : (takeNext q).jobs = q.jobs := by
  unfold takeNext
  split <;> rfl

@[simp]
theorem takeNext_answers : (takeNext q).answers = q.answers := by
  unfold takeNext
  split <;> rfl

/-- A worker that is free may always take the next job. -/
theorem Sound.takeNext (h : Sound handle bound q) (hfree : q.busy.length < bound) :
    Sound handle bound (takeNext q) := by
  unfold WorkQueue.takeNext
  split
  case h_2 => exact h
  case h_1 job hjob =>
    have hlt := (List.getElem?_eq_some_iff.mp hjob).choose
    have hnew : q.next ∉ q.busy := fun hmem => by
      have hlater := ((h.busy q.next).mp hmem).1
      omega
    have hnone := h.untaken q.next (le_refl _)
    refine ⟨hlt, ?_, ?_, ?_, ?_, h.slots, ?_⟩
    · rw [h.taken, List.take_add_one, hjob]
      rfl
    · exact h.nodup.append (List.nodup_singleton _) (by simpa using hnew)
    · intro k
      simp only [List.mem_append, List.mem_singleton, h.busy k]
      constructor
      · intro hk
        cases hk with
        | inl hk => exact ⟨by omega, hk.2⟩
        | inr hk =>
          rw [hk]
          exact ⟨by omega, hnone⟩
      · intro hboth
        by_cases heq : k = q.next
        · exact Or.inr heq
        · have hk := hboth.1
          exact Or.inl ⟨by omega, hboth.2⟩
    · intro k hk
      exact h.untaken k (Nat.le_of_succ_le hk)
    · simp only [List.length_append, List.length_singleton]
      omega

theorem manned_takeNext (h : Sound handle bound q) : Manned (takeNext q) := by
  unfold takeNext
  split
  case h_1 => exact Or.inr (by simp)
  case h_2 hnone =>
    rw [List.getElem?_eq_none_iff] at hnone
    exact Or.inl (le_antisymm h.next_le hnone)

theorem busy_takeNext_le : (takeNext q).busy.length ≤ q.busy.length+1 := by
  unfold takeNext
  split
  · simp
  · omega

theorem sound_start (h : Sound handle bound q) (hfree : q.busy.length+n ≤ bound) :
    Sound handle bound (start n q) := by
  induction n generalizing q with
  | zero => exact h
  | succ n ih =>
    have hnext := busy_takeNext_le (q := q)
    exact ih (h.takeNext (by omega)) (by omega)

theorem manned_start (h : Sound handle bound q) (hfree : q.busy.length+n ≤ bound)
    (hq : Manned q ∨ 0 < n) : Manned (start n q) := by
  induction n generalizing q with
  | zero =>
    cases hq with
    | inl hq => exact hq
    | inr hn => omega
  | succ n ih =>
    have hnext := busy_takeNext_le (q := q)
    exact ih (h.takeNext (by omega)) (by omega) (Or.inl (manned_takeNext h))

@[simp]
theorem start_jobs : (start n q).jobs = q.jobs := by
  induction n generalizing q with
  | zero => rfl
  | succ n ih => rw [start, ih, takeNext_jobs]

/-- What the end of a job does. -/
theorem complete_eq_some {index : ℕ} {answer : ε} (h : complete handle q index answer = some q') :
    index ∈ q.busy ∧ ∃ job, q.jobs[index]? = some job ∧
      q' = takeNext (store handle q index job answer) := by
  unfold complete at h
  split_ifs at h with hbusy
  obtain ⟨job, hjob, heq⟩ := Option.map_eq_some_iff.mp h
  exact ⟨hbusy, job, hjob, heq.symm⟩

/-- Every busy worker's job may end, with any answer. -/
theorem complete_of_busy {index : ℕ} (h : Sound handle bound q) (hbusy : index ∈ q.busy)
    (answer : ε) : ∃ q', complete handle q index answer = some q' := by
  have hlt := ((h.busy index).mp hbusy).1.trans_le h.next_le
  refine ⟨takeNext (store handle q index q.jobs[index] answer), ?_⟩
  rw [complete, if_pos hbusy, List.getElem?_eq_getElem hlt, Option.map_some]

theorem Sound.store {index : ℕ} {job : α} (h : Sound handle bound q) (hbusy : index ∈ q.busy)
    (hjob : q.jobs[index]? = some job) (answer : ε) :
    Sound handle bound (store handle q index job answer) := by
  have htaken := (h.busy index).mp hbusy
  refine ⟨h.next_le, h.taken, h.nodup.erase index, ?_, ?_, ?_, ?_⟩
  · intro k
    simp only [WorkQueue.store, h.nodup.mem_erase_iff, h.busy k, Function.update_apply]
    split_ifs with heq
    · simp [heq]
    · simp [heq]
  · intro k hk
    have hne : k ≠ index := fun heq => by
      rw [heq] at hk
      exact absurd htaken.1 (Nat.not_lt.mpr hk)
    simp only [WorkQueue.store, Function.update_of_ne hne]
    exact h.untaken k hk
  · intro k job' hjob'
    by_cases heq : k = index
    · rw [heq] at hjob' ⊢
      rw [WorkQueue.store] at hjob'
      rw [hjob, Option.some.injEq] at hjob'
      simp only [WorkQueue.store, Function.update_self, hjob', Option.map_some]
    · simp only [WorkQueue.store, Function.update_of_ne heq]
      exact h.slots k job' hjob'
  · have hless := List.length_erase_of_mem hbusy
    have hbound := h.bounded
    simp only [WorkQueue.store]
    omega

/-- One job fewer has not ended. -/
theorem unanswered_store {index : ℕ} {job : α} {answer : ε} (h : Sound handle bound q)
    (hbusy : index ∈ q.busy) :
    unanswered (store handle q index job answer)+1 = unanswered q := by
  have htaken := (h.busy index).mp hbusy
  have hmem : index ∈ (Finset.range q.jobs.length).filter fun k => (q.answers k).isNone = true := by
    rw [Finset.mem_filter, Finset.mem_range, htaken.2]
    exact ⟨htaken.1.trans_le h.next_le, rfl⟩
  have herase : ((Finset.range q.jobs.length).filter fun k =>
        ((store handle q index job answer).answers k).isNone = true) =
      ((Finset.range q.jobs.length).filter fun k => (q.answers k).isNone = true).erase index := by
    ext k
    rw [Finset.mem_erase, Finset.mem_filter, Finset.mem_filter]
    simp only [store, Function.update_apply]
    split_ifs with hk
    · simp [hk]
    · simp [hk]
  have hcard := congrArg Finset.card herase
  rw [Finset.card_erase_of_mem hmem] at hcard
  have hpos := Finset.card_pos.mpr ⟨index, hmem⟩
  change (Finset.filter _ (Finset.range q.jobs.length)).card+1 = Finset.card _
  omega

/-- The end of a job keeps the queue sound and manned, and leaves one job fewer. -/
theorem sound_complete {index : ℕ} {answer : ε} (h : Sound handle bound q)
    (hstep : complete handle q index answer = some q') :
    Sound handle bound q' ∧ Manned q' ∧ q'.jobs = q.jobs ∧ unanswered q'+1 = unanswered q := by
  obtain ⟨hbusy, job, hjob, heq⟩ := complete_eq_some hstep
  have hstore := h.store hbusy hjob answer
  have hless := List.length_erase_of_mem hbusy
  have hpos := List.length_pos_of_mem hbusy
  have hfree : (store handle q index job answer).busy.length < bound := by
    have hbound := h.bounded
    simp only [store]
    omega
  rw [heq]
  refine ⟨hstore.takeNext hfree, manned_takeNext hstore, takeNext_jobs, ?_⟩
  rw [unanswered, takeNext_jobs, takeNext_answers]
  exact unanswered_store h hbusy

/-- The queue started by that many workers, after any jobs ended in any order. -/
theorem sound_of_reachable (hn : 0 < n ∨ jobs = [])
    (h : Reachable (stepQueue handle) anyStep (Started n jobs) q) :
    Sound handle n q ∧ Manned q ∧ q.jobs = jobs := by
  refine h.invariant (I := fun q => Sound handle n q ∧ Manned q ∧ q.jobs = jobs) ?_ ?_
  · intro s hs
    rw [hs]
    have hfresh : Sound handle n (fresh jobs) := sound_fresh
    have hfree : (fresh jobs : Queue α ε β).busy.length+n ≤ n := by simp [fresh]
    refine ⟨sound_start hfresh hfree, manned_start hfresh hfree ?_, start_jobs⟩
    cases hn with
    | inl hn => exact Or.inr hn
    | inr hnil => exact Or.inl (Or.inl (by rw [hnil]; rfl))
  · intro s a s' ⟨hs, _, hjobs⟩ _ hstep
    obtain ⟨hs', hmanned, hkept, _⟩ := sound_complete hs hstep
    exact ⟨hs', hmanned, hkept.trans hjobs⟩

/-- Every end of a job uses up one. -/
theorem length_of_run {events : List (ℕ × ε)} (h : Sound handle bound q)
    (hrun : run (stepQueue handle) q events = some q') :
    events.length+unanswered q' = unanswered q := by
  induction events generalizing q with
  | nil =>
    cases hrun
    exact Nat.zero_add _
  | cons a events ih =>
    unfold run at hrun
    cases hstep : stepQueue handle q a with
    | none => simp [hstep] at hrun
    | some t =>
      obtain ⟨ht, _, _, hless⟩ := sound_complete h hstep
      have hrest := ih ht (by simpa [hstep] using hrun)
      rw [List.length_cons]
      omega

/-- Reading the positions of a list one by one gives it back, each member changed at its place. -/
theorem filterMap_range_getElem? (l : List α) (g : ℕ → α → β) :
    (List.range l.length).filterMap (fun k => (l[k]?).map (g k)) = l.mapIdx g := by
  induction l generalizing g with
  | nil => rfl
  | cons a l ih =>
    rw [List.length_cons, List.range_succ_eq_map, List.mapIdx_cons, ← ih fun k => g (k+1)]
    simp [List.filterMap_map]

/-- With no worker busy, every job was taken and every outcome is in its place. -/
theorem outcomes_of_idle [Inhabited ε] (h : Sound handle bound q) (hmanned : Manned q)
    (hidle : q.busy = []) :
    q.taken = q.jobs ∧ (∀ k, k < q.jobs.length → ∃ answer, q.answers k = some answer) ∧
      outcomes q = q.jobs.mapIdx fun k job => handle job ((q.answers k).getD default) := by
  have hnext : q.next = q.jobs.length := hmanned.resolve_right fun hne => hne hidle
  have hanswer : ∀ k, k < q.jobs.length → ∃ answer, q.answers k = some answer := by
    intro k hk
    cases hnone : q.answers k with
    | some answer => exact ⟨answer, rfl⟩
    | none =>
      have hmem := (h.busy k).mpr ⟨by omega, hnone⟩
      rw [hidle] at hmem
      cases hmem
  refine ⟨by rw [h.taken, hnext, List.take_length], hanswer, ?_⟩
  have hslot : ∀ k ∈ List.range q.jobs.length, q.slots k =
      (q.jobs[k]?).map fun job => handle job ((q.answers k).getD default) := by
    intro k hk
    rw [List.mem_range] at hk
    obtain ⟨answer, hanswer⟩ := hanswer k hk
    have hjob := List.getElem?_eq_getElem hk
    rw [h.slots k _ hjob, hjob, hanswer]
    rfl
  rw [outcomes, List.filterMap_congr hslot, filterMap_range_getElem?]

end Kurtar.WorkQueue

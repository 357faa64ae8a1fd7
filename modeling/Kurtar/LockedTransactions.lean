import Mathlib.Logic.Function.Basic
import Kurtar.GuardedRuns

/-!
# Concurrent transactions under row locks

Transactions run statement by statement over committed data, as a database at
READ COMMITTED runs them. Every statement sees the committed data of the moment
and the transaction's own writes. An update whose row is locked waits, checks
its guard again when the row is free, and keeps its locks until the end. One
rule carries the invariants of committed data, of every transaction and of what
others commit meanwhile.
-/

namespace Kurtar.LockedTransactions

open GuardedRuns

variable {σ ρ κ : Type*}

/-- The strengths of row locks. -/
inductive LockMode where
  /-- A foreign-key check of the row referred to. -/
  | keyShare
  /-- An update that keeps the row's keys. -/
  | noKeyUpdate
  /-- A locking read, a deletion, or an entry of a unique index. -/
  | forUpdate
deriving DecidableEq, Repr

namespace LockMode

def conflicts : LockMode → LockMode → Bool
  | keyShare, m => decide (m = forUpdate)
  | noKeyUpdate, m => decide (m ≠ keyShare)
  | forUpdate, _ => true

theorem conflicts_symm (m n : LockMode) : m.conflicts n = n.conflicts m := by
  cases m <;> cases n <;> rfl

/-- The first lock excludes whatever the second one excludes. -/
def covers (m n : LockMode) : Prop := ∀ k, n.conflicts k = true → m.conflicts k = true

theorem covers_self (m : LockMode) : m.covers m := fun _ h => h

end LockMode

/-- What is left of a transaction. -/
inductive Program (σ ρ : Type*) where
  | commit
  | rollback
  | select (next : σ → Program σ ρ)
  /-- A write that waits for nobody, such as a row under a fresh key. -/
  | insert (change : σ → σ) (next : Program σ ρ)
  /-- A locking read. -/
  | acquire (row : ρ) (mode : LockMode) (next : Program σ ρ)
  /-- A guarded update of one row; goes on with whether it matched. -/
  | update (row : ρ) (mode : LockMode) (guard : σ → Bool) (change : σ → σ)
      (next : Bool → Program σ ρ)

/-- What the program commits when it runs alone. -/
def Program.alone : Program σ ρ → σ → Option σ
  | .commit, d => some d
  | .rollback, _ => none
  | .select next, d => (next d).alone d
  | .insert change next, d => next.alone (change d)
  | .acquire _ _ next, d => next.alone d
  | .update _ _ guard change next, d =>
    if guard d then (next true).alone (change d) else (next false).alone d

/-- A transaction under way. -/
structure Transaction (σ ρ : Type*) where
  program : Program σ ρ
  /-- Its own writes. -/
  effect : σ → σ
  held : List (ρ × LockMode)
  /-- Its next statement has been issued and wants its row. -/
  waiting : Bool

namespace Transaction

def begin (program : Program σ ρ) : Transaction σ ρ := ⟨program, id, [], false⟩

def ended : Transaction σ ρ := begin .rollback

/-- The row that the issued statement wants. -/
def wanted (x : Transaction σ ρ) : Option (ρ × LockMode) :=
  match x.waiting, x.program with
  | true, .acquire row mode _ => some (row, mode)
  | true, .update row mode _ _ _ => some (row, mode)
  | _, _ => none

/-- The row that the next statement will want if it is issued now. -/
def asks (d : σ) (x : Transaction σ ρ) : Option (ρ × LockMode) :=
  match x.program with
  | .acquire row mode _ => some (row, mode)
  | .update row mode guard _ _ => if guard (x.effect d) then some (row, mode) else none
  | _ => none

/-- Issue the next statement. An update that matches nothing waits for nobody. -/
def issue (d : σ) (x : Transaction σ ρ) : Transaction σ ρ :=
  match x.program with
  | .commit => ended
  | .rollback => ended
  | .select next => { x with program := next (x.effect d) }
  | .insert change next => { x with program := next, effect := fun d => change (x.effect d) }
  | .acquire _ _ _ => { x with waiting := true }
  | .update _ _ guard _ next =>
    if guard (x.effect d) then { x with waiting := true } else { x with program := next false }

/-- The row is free: lock it, and check the guard again before writing. -/
def grant (d : σ) (x : Transaction σ ρ) : Transaction σ ρ :=
  match x.program with
  | .acquire row mode next => ⟨next, x.effect, (row, mode) :: x.held, false⟩
  | .update row mode guard change next =>
    if guard (x.effect d) then
      ⟨next true, fun d => change (x.effect d), (row, mode) :: x.held, false⟩
    else ⟨next false, x.effect, (row, mode) :: x.held, false⟩
  | _ => x

/-- The committed data after the next statement. -/
def committing (d : σ) (x : Transaction σ ρ) : σ :=
  match x.program with
  | .commit => x.effect d
  | _ => d

/-- The locks of two transactions do not exclude each other. -/
def Apart (x y : Transaction σ ρ) : Prop :=
  ∀ h ∈ x.held, ∀ k ∈ y.held, h.1 = k.1 → h.2.conflicts k.2 = false

theorem Apart.symm {x y : Transaction σ ρ} (h : Apart x y) : Apart y x := by
  intro k hk j hj heq
  rw [LockMode.conflicts_symm]
  exact h j hj k hk heq.symm

/-- Nobody else holds the row in a mode that excludes this one. -/
def Leaves [DecidableEq ρ] (x : Transaction σ ρ) (want : ρ × LockMode) : Prop :=
  ∀ h ∈ x.held, h.1 = want.1 → h.2.conflicts want.2 = false

instance [DecidableEq ρ] (x : Transaction σ ρ) (want : ρ × LockMode) :
    Decidable (x.Leaves want) :=
  inferInstanceAs (Decidable (∀ h ∈ x.held, h.1 = want.1 → h.2.conflicts want.2 = false))

/-- The locks exclude everybody else's locks of this kind. -/
def Owns (held : List (ρ × LockMode)) (row : ρ) : Prop :=
  ∃ mode, (row, mode) ∈ held ∧ mode ≠ .keyShare

theorem owns_cons_self (held : List (ρ × LockMode)) (row : ρ) {mode : LockMode}
    (h : mode ≠ .keyShare) : Owns ((row, mode) :: held) row := ⟨mode, List.mem_cons_self, h⟩

theorem Owns.cons {held : List (ρ × LockMode)} {row : ρ} (h : Owns held row)
    (lock : ρ × LockMode) : Owns (lock :: held) row := by
  obtain ⟨mode, hmem, hmode⟩ := h
  exact ⟨mode, List.mem_cons_of_mem _ hmem, hmode⟩

theorem Apart.not_owns {x y : Transaction σ ρ} {row : ρ} (h : Apart x y) (hx : Owns x.held row) :
    ¬ Owns y.held row := by
  intro hy
  obtain ⟨m, hm, hshare⟩ := hx
  obtain ⟨n, hn, hshare'⟩ := hy
  have hfree : m.conflicts n = false := h _ hm _ hn rfl
  cases m <;> cases n <;> simp_all [LockMode.conflicts]

section Statements

variable {d : σ} {x : Transaction σ ρ} {row : ρ} {mode : LockMode} {want : ρ × LockMode}

theorem issue_select {next : σ → Program σ ρ} (h : x.program = .select next) :
    x.issue d = { x with program := next (x.effect d) } := by simp only [issue, h]

theorem issue_insert {change : σ → σ} {next : Program σ ρ} (h : x.program = .insert change next) :
    x.issue d = { x with program := next, effect := fun d => change (x.effect d) } := by
  simp only [issue, h]

theorem issue_acquire {next : Program σ ρ} (h : x.program = .acquire row mode next) :
    x.issue d = { x with waiting := true } := by simp only [issue, h]

theorem issue_update {guard : σ → Bool} {change : σ → σ} {next : Bool → Program σ ρ}
    (h : x.program = .update row mode guard change next) :
    x.issue d = { x with waiting := true } ∨ x.issue d = { x with program := next false } := by
  simp only [issue, h]
  cases guard (x.effect d) with
  | true => exact .inl (if_pos rfl)
  | false => exact .inr (if_neg (by simp))

theorem grant_acquire {next : Program σ ρ} (h : x.program = .acquire row mode next) :
    x.grant d = ⟨next, x.effect, (row, mode) :: x.held, false⟩ := by simp only [grant, h]

theorem grant_update {guard : σ → Bool} {change : σ → σ} {next : Bool → Program σ ρ}
    (h : x.program = .update row mode guard change next) :
    (guard (x.effect d) = true ∧
      x.grant d = ⟨next true, fun d => change (x.effect d), (row, mode) :: x.held, false⟩) ∨
    (guard (x.effect d) = false ∧
      x.grant d = ⟨next false, x.effect, (row, mode) :: x.held, false⟩) := by
  simp only [grant, h]
  cases guard (x.effect d) with
  | true => exact .inl ⟨rfl, if_pos rfl⟩
  | false => exact .inr ⟨rfl, if_neg (by simp)⟩

/-- Only statements that lock a row wait. -/
theorem wanted_eq_some (h : x.wanted = some want) :
    (∃ next, x.program = .acquire want.1 want.2 next) ∨
      ∃ guard change next, x.program = .update want.1 want.2 guard change next := by
  unfold wanted at h
  split at h
  · rename_i hprogram
    cases h
    exact .inl ⟨_, hprogram⟩
  · rename_i hprogram
    cases h
    exact .inr ⟨_, _, _, hprogram⟩
  · cases h

theorem wanted_select {next : σ → Program σ ρ} (h : x.program = .select next) :
    x.wanted = none := by
  unfold wanted
  rw [h]
  cases x.waiting <;> rfl

theorem wanted_insert {change : σ → σ} {next : Program σ ρ} (h : x.program = .insert change next) :
    x.wanted = none := by
  unfold wanted
  rw [h]
  cases x.waiting <;> rfl

theorem wanted_commit (h : x.program = .commit) : x.wanted = none := by
  unfold wanted
  rw [h]
  cases x.waiting <;> rfl

theorem wanted_rollback (h : x.program = .rollback) : x.wanted = none := by
  unfold wanted
  rw [h]
  cases x.waiting <;> rfl

end Statements

@[simp] theorem wanted_begin (program : Program σ ρ) : (begin program).wanted = none := by
  cases program <;> rfl

@[simp] theorem wanted_ended : (ended : Transaction σ ρ).wanted = none := rfl

theorem asks_of_issue {d : σ} {x : Transaction σ ρ} {want : ρ × LockMode}
    (hwaiting : x.waiting = false) (h : (x.issue d).wanted = some want) :
    x.asks d = some want := by
  unfold issue at h
  unfold asks
  split at h
  · cases h
  · cases h
  · rename_i hprogram
    simp [wanted, hwaiting] at h
  · rename_i hprogram
    simp [wanted, hwaiting] at h
  · rename_i hprogram
    simp only [hprogram]
    simpa [wanted, hprogram] using h
  · rename_i hprogram
    simp only [hprogram]
    split at h
    · rename_i hguard
      rw [if_pos hguard]
      simpa [wanted, hprogram] using h
    · simp [wanted, hwaiting] at h

@[simp] theorem waiting_grant {d : σ} {x : Transaction σ ρ} {want : ρ × LockMode}
    (h : x.wanted = some want) : (x.grant d).waiting = false := by
  unfold grant
  rcases wanted_eq_some h with ⟨next, hprogram⟩ | ⟨guard, change, next, hprogram⟩
  · rw [hprogram]
  · rw [hprogram]
    dsimp only
    split <;> rfl

theorem wanted_of_not_waiting {x : Transaction σ ρ} (h : x.waiting = false) : x.wanted = none := by
  unfold wanted
  rw [h]

/-- What a granted statement adds to the locks. -/
theorem held_grant {d : σ} {x : Transaction σ ρ} {want : ρ × LockMode}
    (h : x.wanted = some want) : (x.grant d).held = want :: x.held := by
  unfold grant
  rcases wanted_eq_some h with ⟨next, hprogram⟩ | ⟨guard, change, next, hprogram⟩
  · rw [hprogram]
  · rw [hprogram]
    dsimp only
    split <;> rfl

/-- Issuing a statement keeps the locks, or ends the transaction. -/
theorem held_issue_cases (d : σ) (x : Transaction σ ρ) :
    (x.issue d).held = x.held ∨ (x.issue d).held = [] := by
  unfold issue
  split
  · exact .inr rfl
  · exact .inr rfl
  · exact .inl rfl
  · exact .inl rfl
  · exact .inl rfl
  · split
    · exact .inl rfl
    · exact .inl rfl

theorem held_issue_of_wanted {d : σ} {x : Transaction σ ρ} {want : ρ × LockMode}
    (h : (x.issue d).wanted = some want) : (x.issue d).held = x.held := by
  unfold issue at h ⊢
  split at h
  · cases h
  · cases h
  · rfl
  · rfl
  · rfl
  · split_ifs
    · rfl
    · rfl

/-- Issuing a statement adds no lock. -/
theorem held_issue {d : σ} {x : Transaction σ ρ} {h : ρ × LockMode}
    (hh : h ∈ (x.issue d).held) : h ∈ x.held := by
  rcases held_issue_cases d x with heq | heq
  · exact heq ▸ hh
  · rw [heq] at hh
    cases hh

end Transaction

open Transaction

/-- The committed data and the transactions, numbered as they start. -/
structure World (σ ρ : Type*) where
  committed : σ
  started : ℕ
  transaction : ℕ → Transaction σ ρ

/-- The next thing to happen. -/
inductive Action (κ : Type*) where
  | start (request : κ)
  | issue (t : ℕ)
  | grant (t : ℕ)
  /-- An error, a crash or a timeout. -/
  | abort (t : ℕ)

namespace World

/-- Replace one transaction. -/
def put (w : World σ ρ) (t : ℕ) (x : Transaction σ ρ) : World σ ρ :=
  { w with transaction := Function.update w.transaction t x }

@[simp] theorem committed_put (w : World σ ρ) (t : ℕ) (x : Transaction σ ρ) :
    (w.put t x).committed = w.committed := rfl

@[simp] theorem transaction_put_self (w : World σ ρ) (t : ℕ) (x : Transaction σ ρ) :
    (w.put t x).transaction t = x := Function.update_self ..

theorem transaction_put_of_ne (w : World σ ρ) {t u : ℕ} (x : Transaction σ ρ) (h : u ≠ t) :
    (w.put t x).transaction u = w.transaction u := Function.update_of_ne h ..

/-- Nobody else is in the way of the lock. -/
def Free [DecidableEq ρ] (w : World σ ρ) (t : ℕ) (want : ρ × LockMode) : Prop :=
  ∀ u < w.started, u ≠ t → (w.transaction u).Leaves want

instance [DecidableEq ρ] (w : World σ ρ) (t : ℕ) (want : ρ × LockMode) :
    Decidable (w.Free t want) :=
  inferInstanceAs (Decidable (∀ u < w.started, u ≠ t → (w.transaction u).Leaves want))

/-- No transaction is under way. -/
def Quiet (w : World σ ρ) : Prop := w.started = 0 ∧ ∀ t, w.transaction t = ended

end World

open World

/-- One step: a new transaction, or the next one of a transaction under way. -/
def step [DecidableEq ρ] (program : κ → Program σ ρ) (w : World σ ρ) :
    Action κ → Option (World σ ρ)
  | .start request =>
    some { w.put w.started (begin (program request)) with started := w.started+1 }
  | .issue t =>
    if (w.transaction t).waiting then none
    else some { w.put t ((w.transaction t).issue w.committed) with
      committed := (w.transaction t).committing w.committed }
  | .grant t =>
    match (w.transaction t).wanted with
    | none => none
    | some want =>
      if w.Free t want then some (w.put t ((w.transaction t).grant w.committed)) else none
  | .abort t => some (w.put t ended)

/-- A condition on each statement that gets its row. -/
def GrantsMeet (C : σ → Transaction σ ρ → Prop) (w : World σ ρ) : Action κ → Prop
  | .grant t => C w.committed (w.transaction t)
  | _ => True

/-- Nobody gets a row in this run. -/
def NoGrants (as : List (Action κ)) : Prop := ∀ a ∈ as, ∀ t, a ≠ .grant t

theorem grantsMeet_of_ne {C : σ → Transaction σ ρ → Prop} {w : World σ ρ} {a : Action κ}
    (h : ∀ t, a ≠ .grant t) : GrantsMeet C w a := by
  cases a with
  | grant t => exact absurd rfl (h t)
  | start _ => trivial
  | issue _ => trivial
  | abort _ => trivial

section Steps

variable [DecidableEq ρ] {program : κ → Program σ ρ} {w w' : World σ ρ}

theorem issue_eq_some {t : ℕ} (h : step program w (.issue t) = some w') :
    (w.transaction t).waiting = false ∧
      w' = { w.put t ((w.transaction t).issue w.committed) with
        committed := (w.transaction t).committing w.committed } := by
  simp only [step] at h
  split_ifs at h with hwaiting
  exact ⟨by simpa using hwaiting, (Option.some.inj h).symm⟩

theorem grant_eq_some {t : ℕ} (h : step program w (.grant t) = some w') :
    ∃ want, (w.transaction t).wanted = some want ∧ w.Free t want ∧
      w' = w.put t ((w.transaction t).grant w.committed) := by
  simp only [step] at h
  cases hwanted : (w.transaction t).wanted with
  | none => simp [hwanted] at h
  | some want =>
    simp only [hwanted] at h
    split_ifs at h with hfree
    exact ⟨want, rfl, hfree, (Option.some.inj h).symm⟩

theorem runMeets_of_noGrants {C : σ → Transaction σ ρ → Prop} {as : List (Action κ)}
    (h : NoGrants as) (w : World σ ρ) : RunMeets (step program) (GrantsMeet C) w as := by
  induction as generalizing w with
  | nil => trivial
  | cons a as ih =>
    refine ⟨grantsMeet_of_ne (h a List.mem_cons_self), ?_⟩
    cases step program w a with
    | none => trivial
    | some w' => exact ih (fun b hb => h b (List.mem_cons_of_mem _ hb)) w'

/-- A step from a waiting transaction or another one, by its kind. -/
theorem step_cases {a : Action κ} (h : step program w a = some w') :
    (∃ request, a = .start request ∧
      w' = { w.put w.started (begin (program request)) with started := w.started+1 }) ∨
    (∃ t, a = .issue t ∧ (w.transaction t).waiting = false ∧
      w' = { w.put t ((w.transaction t).issue w.committed) with
        committed := (w.transaction t).committing w.committed }) ∨
    (∃ t want, a = .grant t ∧ (w.transaction t).wanted = some want ∧ w.Free t want ∧
      w' = w.put t ((w.transaction t).grant w.committed)) ∨
    ∃ t, a = .abort t ∧ w' = w.put t ended := by
  cases a with
  | start request => exact .inl ⟨request, rfl, (Option.some.inj h).symm⟩
  | issue t => exact .inr (.inl ⟨t, rfl, issue_eq_some h⟩)
  | grant t =>
    obtain ⟨want, hwant⟩ := grant_eq_some h
    exact .inr (.inr (.inl ⟨t, want, rfl, hwant⟩))
  | abort t => exact .inr (.inr (.inr ⟨t, rfl, (Option.some.inj h).symm⟩))

/-- Only a commit changes the committed data. -/
theorem committed_step {a : Action κ} (h : step program w a = some w') :
    w'.committed = w.committed ∨
      ∃ t, (w.transaction t).program = .commit ∧
        w'.committed = (w.transaction t).effect w.committed := by
  rcases step_cases h with ⟨_, _, rfl⟩ | ⟨t, _, _, rfl⟩ | ⟨_, _, _, _, _, rfl⟩ | ⟨_, _, rfl⟩
  · exact .inl rfl
  · by_cases hcommit : (w.transaction t).program = .commit
    · refine .inr ⟨t, hcommit, ?_⟩
      simp only [committing, hcommit]
    · refine .inl ?_
      unfold committing
      split
      · rename_i hprogram
        exact absurd hprogram hcommit
      · rfl
  · exact .inl rfl
  · exact .inl rfl

/-- The transactions of a world keep out of each other's way, and those that
have not started hold nothing. -/
structure Exclusive (w : World σ ρ) : Prop where
  later : ∀ t, w.started ≤ t → w.transaction t = ended
  apart : ∀ t u, t ≠ u → Apart (w.transaction t) (w.transaction u)

omit [DecidableEq ρ] in
theorem apart_ended (x : Transaction σ ρ) : Apart x ended := by
  intro h hh k hk
  cases hk

omit [DecidableEq ρ] in
/-- Replace a transaction by one that is apart from all others. -/
theorem Exclusive.put {t : ℕ} {x : Transaction σ ρ} (h : Exclusive w)
    (hx : ∀ u, u ≠ t → Apart x (w.transaction u)) (hlater : w.started ≤ t → x = ended) :
    Exclusive (w.put t x) := by
  refine ⟨?_, ?_⟩
  · intro u hu
    by_cases hut : u = t
    · rw [hut, transaction_put_self]
      exact hlater (hut ▸ hu)
    · rw [transaction_put_of_ne w x hut]
      exact h.later u hu
  · intro u v huv
    by_cases hut : u = t
    · have hvt : v ≠ t := fun heq => huv (hut.trans heq.symm)
      rw [hut, transaction_put_self, transaction_put_of_ne w x hvt]
      exact hx v hvt
    · rw [transaction_put_of_ne w x hut]
      by_cases hvt : v = t
      · rw [hvt, transaction_put_self]
        exact (hx u hut).symm
      · rw [transaction_put_of_ne w x hvt]
        exact h.apart u v huv

omit [DecidableEq ρ] in
/-- A transaction with no further lock stays apart. -/
theorem apart_of_held {x y z : Transaction σ ρ} (h : Apart x z) (hheld : ∀ k ∈ y.held, k ∈ x.held) :
    Apart y z := fun k hk => h k (hheld k hk)

theorem apart_grant {d : σ} {x y : Transaction σ ρ} {want : ρ × LockMode}
    (hwanted : x.wanted = some want) (h : Apart x y) (hfree : y.Leaves want) :
    Apart (x.grant d) y := by
  intro k hk j hj heq
  rw [held_grant hwanted] at hk
  rcases List.mem_cons.mp hk with hk | hk
  · rw [hk] at heq ⊢
    rw [LockMode.conflicts_symm]
    exact hfree j hj heq.symm
  · exact h k hk j hj heq

omit [DecidableEq ρ] in
theorem exclusive_of_quiet (h : w.Quiet) : Exclusive w := by
  refine ⟨fun t _ => h.2 t, ?_⟩
  intro t u _
  rw [h.2 u]
  exact apart_ended _

theorem exclusive_step {a : Action κ} (h : Exclusive w) (hstep : step program w a = some w') :
    Exclusive w' := by
  rcases step_cases hstep with ⟨request, _, rfl⟩ | ⟨t, _, _, rfl⟩ | ⟨t, want, _, hwanted, hfree, rfl⟩ |
    ⟨t, _, rfl⟩
  · refine ⟨?_, ?_⟩
    · intro u hu
      have hlt : w.started < u := hu
      exact (transaction_put_of_ne w _ hlt.ne').trans (h.later u hlt.le)
    · intro u v huv
      by_cases hu : u = w.started
      · have hv : v ≠ w.started := fun heq => huv (hu.trans heq.symm)
        change Apart ((w.put w.started _).transaction u) ((w.put w.started _).transaction v)
        rw [hu, transaction_put_self, transaction_put_of_ne w _ hv]
        exact fun k hk => absurd hk List.not_mem_nil
      · change Apart ((w.put w.started _).transaction u) ((w.put w.started _).transaction v)
        rw [transaction_put_of_ne w _ hu]
        by_cases hv : v = w.started
        · rw [hv, transaction_put_self]
          exact fun k _ j hj => absurd hj List.not_mem_nil
        · rw [transaction_put_of_ne w _ hv]
          exact h.apart u v huv
  · have hput : Exclusive (w.put t ((w.transaction t).issue w.committed)) := by
      refine h.put ?_ ?_
      · intro u hu
        exact apart_of_held (h.apart t u hu.symm) fun k hk => held_issue hk
      · intro ht
        rw [h.later t ht]
        rfl
    exact ⟨hput.later, hput.apart⟩
  · refine h.put ?_ ?_
    · intro u hu
      by_cases hlt : u < w.started
      · exact apart_grant hwanted (h.apart t u hu.symm) (hfree u hlt hu)
      · rw [h.later u (not_lt.mp hlt)]
        exact apart_ended _
    · intro ht
      rw [h.later t ht] at hwanted
      cases hwanted
  · exact h.put (fun u _ => (apart_ended _).symm) fun _ => rfl

/-- The worlds that runs reach. -/
theorem exclusive_of_reachable {ok : World σ ρ → Action κ → Prop} {init : World σ ρ → Prop}
    (hinit : ∀ w, init w → w.Quiet) (h : Reachable (step program) ok init w) : Exclusive w :=
  h.invariant (fun w hw => exclusive_of_quiet (hinit w hw))
    fun _ _ _ hI _ hstep => exclusive_step hI hstep

end Steps

section Invariants

/-- `I` of the committed data and `J` of every transaction are kept: by what a
transaction does, by what it commits, and by what others commit meanwhile. -/
structure Keeps (program : κ → Program σ ρ) (C : σ → Transaction σ ρ → Prop) (I : σ → Prop)
    (J : σ → Transaction σ ρ → Prop) : Prop where
  started : ∀ d request, I d → J d (begin (program request))
  ended : ∀ d, J d ended
  issued : ∀ d x, I d → J d x → x.waiting = false → x.program ≠ .commit → J d (x.issue d)
  granted : ∀ d x want, I d → J d x → x.wanted = some want → C d x → J d (x.grant d)
  committed : ∀ d x, I d → J d x → x.program = .commit → I (x.effect d)
  others : ∀ d x y, I d → J d x → J d y → Apart x y → x.program = .commit → J (x.effect d) y

/-- The committed data satisfies `I`, each transaction `J`. -/
def Holds (I : σ → Prop) (J : σ → Transaction σ ρ → Prop) (w : World σ ρ) : Prop :=
  I w.committed ∧ ∀ t, J w.committed (w.transaction t)

variable {I : σ → Prop} {J : σ → Transaction σ ρ → Prop} {C : σ → Transaction σ ρ → Prop}
  {program : κ → Program σ ρ} {w w' : World σ ρ}

theorem Holds.put {t : ℕ} {x : Transaction σ ρ} (h : Holds I J w) (hx : J w.committed x) :
    Holds I J (w.put t x) := by
  refine ⟨h.1, ?_⟩
  intro u
  by_cases hu : u = t
  · rw [hu, transaction_put_self]
    exact hx
  · rw [transaction_put_of_ne w x hu]
    exact h.2 u

theorem committing_of_ne {d : σ} {x : Transaction σ ρ} (h : x.program ≠ .commit) :
    x.committing d = d := by
  unfold committing
  split
  · rename_i hprogram
    exact absurd hprogram h
  · rfl

variable [DecidableEq ρ]

theorem Keeps.holds_step {a : Action κ} (hk : Keeps program C I J) (h : Holds I J w)
    (hex : Exclusive w) (hmeets : GrantsMeet C w a) (hstep : step program w a = some w') :
    Holds I J w' := by
  rcases step_cases hstep with ⟨request, _, rfl⟩ | ⟨t, _, hwaiting, rfl⟩ |
    ⟨t, want, rfl, hwanted, _, rfl⟩ | ⟨t, _, rfl⟩
  · exact h.put (hk.started _ request h.1)
  · by_cases hcommit : (w.transaction t).program = .commit
    · have hissue : (w.transaction t).issue w.committed = Transaction.ended := by
        unfold issue
        rw [hcommit]
      have hcommitting : (w.transaction t).committing w.committed =
          (w.transaction t).effect w.committed := by
        unfold committing
        rw [hcommit]
      rw [hissue, hcommitting]
      refine ⟨hk.committed _ _ h.1 (h.2 t) hcommit, ?_⟩
      intro u
      change J ((w.transaction t).effect w.committed) ((w.put t Transaction.ended).transaction u)
      by_cases hu : u = t
      · rw [hu, transaction_put_self]
        exact hk.ended _
      · rw [transaction_put_of_ne w _ hu]
        exact hk.others _ _ _ h.1 (h.2 t) (h.2 u) (hex.apart t u (Ne.symm hu)) hcommit
    · rw [committing_of_ne hcommit]
      exact h.put (hk.issued _ _ h.1 (h.2 t) hwaiting hcommit)
  · exact h.put (hk.granted _ _ want h.1 (h.2 t) hwanted hmeets)
  · exact h.put (hk.ended _)

/-- What is kept holds in every world that runs from quiet worlds reach. -/
theorem Keeps.holds {init : World σ ρ → Prop} (hk : Keeps program C I J)
    (hinit : ∀ w, init w → w.Quiet ∧ I w.committed)
    (h : Reachable (step program) (GrantsMeet C) init w) : Holds I J w := by
  refine h.invariant_of (fun w hw => exclusive_of_reachable (fun w hw => (hinit w hw).1) hw) ?_ ?_
  · intro w hw
    refine ⟨(hinit w hw).2, ?_⟩
    intro t
    rw [(hinit w hw).1.2 t]
    exact hk.ended _
  · intro w a w' hex _ hI hmeets hstep
    exact hk.holds_step hI hex hmeets hstep

end Invariants

section Writes

/-- Every write that the program may still make satisfies `P`. -/
def Writes (P : (σ → σ) → Prop) : Program σ ρ → Prop
  | .commit => True
  | .rollback => True
  | .select next => ∀ d, Writes P (next d)
  | .insert change next => P change ∧ Writes P next
  | .acquire _ _ next => Writes P next
  | .update _ _ _ change next => P change ∧ ∀ matched, Writes P (next matched)

variable {P : (σ → σ) → Prop} {d : σ} {x : Transaction σ ρ}

theorem Writes.issue (hid : P id) (hcomp : ∀ f g, P f → P g → P fun d => g (f d))
    (h : Writes P x.program) (heffect : P x.effect) :
    Writes P (x.issue d).program ∧ P (x.issue d).effect := by
  unfold Transaction.issue
  split
  · exact ⟨trivial, hid⟩
  · exact ⟨trivial, hid⟩
  · rename_i hprogram
    rw [hprogram] at h
    exact ⟨h _, heffect⟩
  · rename_i hprogram
    rw [hprogram] at h
    exact ⟨h.2, hcomp x.effect _ heffect h.1⟩
  · exact ⟨h, heffect⟩
  · rename_i hprogram
    split
    · exact ⟨h, heffect⟩
    · rw [hprogram] at h
      exact ⟨h.2 false, heffect⟩

theorem Writes.grant (hcomp : ∀ f g, P f → P g → P fun d => g (f d))
    (h : Writes P x.program) (heffect : P x.effect) :
    Writes P (x.grant d).program ∧ P (x.grant d).effect := by
  unfold Transaction.grant
  split
  · rename_i hprogram
    rw [hprogram] at h
    exact ⟨h, heffect⟩
  · rename_i hprogram
    rw [hprogram] at h
    split
    · exact ⟨h.2 true, hcomp x.effect _ heffect h.1⟩
    · exact ⟨h.2 false, heffect⟩
  · exact ⟨h, heffect⟩

end Writes

end Kurtar.LockedTransactions

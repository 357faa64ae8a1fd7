import Mathlib.Logic.Relation
import Mathlib.Tactic.TypeStar
import Kurtar.KeyedTable

/-!
# Runs of a guarded step function

A system is a partial step function and a predicate of initial states.
`Reachable step ok init` holds of the states reached by runs all of whose
steps satisfy the condition `ok` on the state before the step; with the
trivial condition it is plain reachability. One induction, packaged here,
gives every safety result over whole runs.
-/

namespace Kurtar.GuardedRuns

variable {σ α : Type*}

/-- States reached from an initial state by steps that satisfy `ok`. -/
inductive Reachable (step : σ → α → Option σ) (ok : σ → α → Prop) (init : σ → Prop) : σ → Prop
  | start {s : σ} (h : init s) : Reachable step ok init s
  | next {s s' : σ} {a : α} (hs : Reachable step ok init s) (hok : ok s a)
      (hstep : step s a = some s') : Reachable step ok init s'

/-- The condition that every step satisfies. -/
def anyStep (_ : σ) (_ : α) : Prop := True

/-- Execute a list of actions; every one of them has to be enabled. -/
def run (step : σ → α → Option σ) : σ → List α → Option σ
  | s, [] => some s
  | s, a :: as =>
    match step s a with
    | some s' => run step s' as
    | none => none

variable {step : σ → α → Option σ} {ok ok' : σ → α → Prop} {init : σ → Prop} {s s' : σ}

namespace Reachable

/-- An invariant that holds initially and that each admitted step preserves
holds of every reachable state. -/
theorem invariant {I : σ → Prop} (hinit : ∀ s, init s → I s)
    (hstep : ∀ s a s', I s → ok s a → step s a = some s' → I s')
    (h : Reachable step ok init s) : I s := by
  induction h with
  | start hi => exact hinit _ hi
  | next _ hok ht ih => exact hstep _ _ _ ih hok ht

/-- As `invariant`, for a step lemma that may use an invariant `J` proved before. -/
theorem invariant_of {I J : σ → Prop} (hJ : ∀ s, Reachable step ok init s → J s)
    (hinit : ∀ s, init s → I s)
    (hstep : ∀ s a s', J s → J s' → I s → ok s a → step s a = some s' → I s')
    (h : Reachable step ok init s) : I s := by
  induction h with
  | start hi => exact hinit _ hi
  | next hs hok ht ih => exact hstep _ _ _ (hJ _ hs) (hJ _ (hs.next hok ht)) ih hok ht

/-- A weaker condition on the steps reaches more states. -/
theorem mono (himp : ∀ s a, ok s a → ok' s a) (h : Reachable step ok init s) :
    Reachable step ok' init s := by
  induction h with
  | start hi => exact .start hi
  | next _ hok ht ih => exact ih.next (himp _ _ hok) ht

/-- A run that goes on from a reachable state. -/
theorem append (h : Reachable step ok init s) (h' : Reachable step ok (fun t => t = s) s') :
    Reachable step ok init s' := by
  induction h' with
  | start hs => exact hs ▸ h
  | next _ hok ht ih => exact ih.next hok ht

/-- Conditional reachability implies plain reachability. -/
theorem toAny (h : Reachable step ok init s) : Reachable step anyStep init s :=
  h.mono fun _ _ _ => trivial

end Reachable

/-- A state computed by executing actions is reachable. -/
theorem reachable_of_run {as : List α} (hs : Reachable step anyStep init s)
    (hrun : run step s as = some s') : Reachable step anyStep init s' := by
  induction as generalizing s with
  | nil =>
    cases hrun
    exact hs
  | cons a as ih =>
    unfold run at hrun
    cases ht : step s a with
    | none => simp [ht] at hrun
    | some t => exact ih (hs.next trivial ht) (by simpa [ht] using hrun)

/-- Every step of the run satisfies `ok`. -/
def RunMeets (step : σ → α → Option σ) (ok : σ → α → Prop) : σ → List α → Prop
  | _, [] => True
  | s, a :: as =>
    ok s a ∧
      match step s a with
      | some s' => RunMeets step ok s' as
      | none => True

instance RunMeets.decidable (step : σ → α → Option σ) (ok : σ → α → Prop)
    [∀ s a, Decidable (ok s a)] : ∀ s as, Decidable (RunMeets step ok s as)
  | _, [] => isTrue trivial
  | s, a :: as => by
    have hrest : ∀ o : Option σ, Decidable
        (match o with | some s' => RunMeets step ok s' as | none => True) := fun o =>
      match o with
      | some s' => RunMeets.decidable step ok s' as
      | none => isTrue trivial
    have := hrest (step s a)
    unfold RunMeets
    infer_instance

/-- A computed state is reached by steps that satisfy `ok` when its run does. -/
theorem reachable_of_guarded_run {as : List α} (hs : Reachable step ok init s)
    (hmeets : RunMeets step ok s as) (hrun : run step s as = some s') :
    Reachable step ok init s' := by
  induction as generalizing s with
  | nil =>
    cases hrun
    exact hs
  | cons a as ih =>
    unfold run at hrun
    unfold RunMeets at hmeets
    cases ht : step s a with
    | none => simp [ht] at hrun
    | some t =>
      simp only [ht] at hmeets hrun
      exact ih (hs.next hmeets.1 ht) hmeets.2 hrun

/-- The state after executing actions, or the start when one of them is not enabled. -/
def after (step : σ → α → Option σ) (s : σ) (as : List α) : σ := (run step s as).getD s

theorem run_append (s : σ) (as bs : List α) :
    run step s (as ++ bs) = (run step s as).bind fun t => run step t bs := by
  induction as generalizing s with
  | nil => rfl
  | cons a as ih =>
    simp only [List.cons_append, run]
    cases step s a with
    | none => rfl
    | some t => exact ih t

/-- The later actions lead from the state after the earlier ones. -/
theorem run_after {as bs : List α} (h : (run step s (as ++ bs)).isSome) :
    run step (after step s as) bs = some (after step s (as ++ bs)) := by
  obtain ⟨t, ht⟩ := Option.isSome_iff_exists.mp h
  have hlast := ht
  rw [run_append] at hlast
  obtain ⟨u, hu, hrest⟩ := Option.bind_eq_some_iff.mp hlast
  rw [after, after, hu, ht]
  exact hrest

/-- The last of the executed actions leads from the state before it. -/
theorem step_after {as : List α} {a : α} (h : (run step s (as ++ [a])).isSome) :
    step (after step s as) a = some (after step s (as ++ [a])) := by
  have hrun := run_after h
  unfold run at hrun
  cases hs : step (after step s as) a with
  | none => simp [hs] at hrun
  | some t =>
    simp only [hs] at hrun
    exact hrun

theorem reachable_after {as : List α} (hs : Reachable step anyStep init s)
    (h : (run step s as).isSome) : Reachable step anyStep init (after step s as) := by
  obtain ⟨t, ht⟩ := Option.isSome_iff_exists.mp h
  rw [after, ht]
  exact reachable_of_run hs ht

theorem reachable_after_guarded {as : List α} (hs : Reachable step ok init s)
    (hmeets : RunMeets step ok s as) (h : (run step s as).isSome) :
    Reachable step ok init (after step s as) := by
  obtain ⟨t, ht⟩ := Option.isSome_iff_exists.mp h
  rw [after, ht]
  exact reachable_of_guarded_run hs hmeets ht

end Kurtar.GuardedRuns

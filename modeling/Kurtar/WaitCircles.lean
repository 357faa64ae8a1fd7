import Mathlib.Data.Fintype.EquivFin
import Mathlib.Order.WellFounded
import Kurtar.LockedTransactions

/-!
# Circles of waiting transactions

Transactions that wait for each other's rows in a circle are deadlocked. When
every row that is wanted comes after the rows held, in one order of all rows,
there is no circle; so each circle has a transaction that departs from the
order. Runs that keep two kinds of waits apart reach no state with both.
-/

namespace Kurtar.WaitCircles

open GuardedRuns LockedTransactions Transaction World

variable {σ ρ κ : Type*}

section Deadlocks

/-- The first transaction wants a row that the second one holds. -/
def WaitsFor (w : World σ ρ) (t u : ℕ) : Prop :=
  t ≠ u ∧ ∃ want, (w.transaction t).wanted = some want ∧
    ∃ h ∈ (w.transaction u).held, h.1 = want.1 ∧ h.2.conflicts want.2 = true

/-- Some transactions wait for each other in a circle. -/
def Deadlocked (w : World σ ρ) : Prop := ∃ t, Relation.TransGen (WaitsFor w) t t

variable {ι : Type*} [Preorder ι] {level : ρ → ι} {w : World σ ρ}

/-- The row comes after all rows held, or is held already. -/
def Ahead (level : ρ → ι) (held : List (ρ × LockMode)) (want : ρ × LockMode) : Prop :=
  (∃ h ∈ held, h.1 = want.1 ∧ h.2.covers want.2) ∨ ∀ h ∈ held, level h.1 < level want.1

/-- What every statement of the program wants obeys the rule, given what is held by then. -/
def Obeys (R : List (ρ × LockMode) → ρ × LockMode → Prop) :
    Program σ ρ → List (ρ × LockMode) → Prop
  | .commit, _ => True
  | .rollback, _ => True
  | .select next, held => ∀ d, Obeys R (next d) held
  | .insert _ next, held => Obeys R next held
  | .acquire row mode next, held =>
    R held (row, mode) ∧ Obeys R next ((row, mode) :: held)
  | .update row mode _ _ next, held =>
    R held (row, mode) ∧ Obeys R (next false) held ∧
      ∀ matched, Obeys R (next matched) ((row, mode) :: held)

variable {R : List (ρ × LockMode) → ρ × LockMode → Prop}

theorem Obeys.wanted {x : Transaction σ ρ} {want : ρ × LockMode}
    (h : Obeys R x.program x.held) (hwanted : x.wanted = some want) : R x.held want := by
  rcases wanted_eq_some hwanted with ⟨next, hprogram⟩ | ⟨guard, change, next, hprogram⟩
  · rw [hprogram] at h
    exact h.1
  · rw [hprogram] at h
    exact h.1

theorem Obeys.issue {d : σ} {x : Transaction σ ρ} (h : Obeys R x.program x.held) :
    Obeys R (x.issue d).program (x.issue d).held := by
  unfold Transaction.issue
  split
  · trivial
  · trivial
  · rename_i hprogram
    rw [hprogram] at h
    exact h _
  · rename_i hprogram
    rw [hprogram] at h
    exact h
  · exact h
  · rename_i hprogram
    split
    · exact h
    · rw [hprogram] at h
      exact h.2.1

theorem Obeys.grant {d : σ} {x : Transaction σ ρ} (h : Obeys R x.program x.held) :
    Obeys R (x.grant d).program (x.grant d).held := by
  unfold Transaction.grant
  split
  · rename_i hprogram
    rw [hprogram] at h
    exact h.2
  · rename_i hprogram
    rw [hprogram] at h
    split
    · exact h.2.2 true
    · exact h.2.2 false
  · exact h

/-- What the transaction waits for is ahead of what it holds. -/
def Climbs (level : ρ → ι) (x : Transaction σ ρ) : Prop :=
  ∀ want, x.wanted = some want → Ahead level x.held want

/-- A transaction that waits behind another one has no lock on the row yet
that would do. -/
theorem WaitsFor.level_lt {t u : ℕ} {want : ρ × LockMode} (htu : WaitsFor w t u)
    (hex : Exclusive w) (hwant : (w.transaction t).wanted = some want)
    (hahead : Ahead level (w.transaction t).held want) :
    ∀ h ∈ (w.transaction t).held, level h.1 < level want.1 := by
  obtain ⟨hne, _, hwant', k, hk, hkrow, hconflict⟩ := htu
  rw [hwant] at hwant'
  cases hwant'
  rcases hahead with ⟨j, hj, hjrow, hcovers⟩ | hahead
  · have happart := hex.apart t u hne j hj k hk (hjrow.trans hkrow.symm)
    rw [LockMode.conflicts_symm] at hconflict
    rw [hcovers _ hconflict] at happart
    cases happart
  · exact hahead

/-- Between two waits the wanted rows ascend. -/
theorem level_lt {t u v : ℕ} (hex : Exclusive w) (hclimbs : Climbs level (w.transaction u))
    (htu : WaitsFor w t u) (huv : WaitsFor w u v) {want want' : ρ × LockMode}
    (ht : (w.transaction t).wanted = some want) (hu : (w.transaction u).wanted = some want') :
    level want.1 < level want'.1 := by
  obtain ⟨_, _, ht', h, hheld, hrow, _⟩ := htu
  rw [ht] at ht'
  cases ht'
  rw [← hrow]
  exact huv.level_lt hex hu (hclimbs want' hu) h hheld

/-- Whoever waits in a circle waits for somebody who waits in it. -/
theorem waits_of_cycle {t u : ℕ} (h : Relation.ReflTransGen (WaitsFor w) u t)
    (hcycle : Relation.TransGen (WaitsFor w) t t) :
    ∃ v, WaitsFor w u v ∧ Relation.ReflTransGen (WaitsFor w) v t := by
  rcases Relation.ReflTransGen.cases_head h with rfl | ⟨v, huv, hv⟩
  · exact Relation.TransGen.head'_iff.mp hcycle
  · exact ⟨v, huv, hv⟩

variable (level) in
/-- In every circle of waits some transaction wants a row that is not ahead of
those it holds. -/
theorem exists_not_climbs (hex : Exclusive w) (h : Deadlocked w) :
    ∃ t, Relation.TransGen (WaitsFor w) t t ∧ ¬ Climbs level (w.transaction t) := by
  by_contra hnone
  have hclimbs : ∀ t, Relation.TransGen (WaitsFor w) t t → Climbs level (w.transaction t) := by
    intro t ht
    by_contra hnot
    exact hnone ⟨t, ht, hnot⟩
  have hwants : ∀ t u, WaitsFor w t u → ∃ want, (w.transaction t).wanted = some want := by
    intro t u htu
    obtain ⟨_, want, hwant, _⟩ := htu
    exact ⟨want, hwant⟩
  obtain ⟨t, hcycle⟩ := h
  obtain ⟨u, htu, _⟩ := Relation.TransGen.head'_iff.mp hcycle
  obtain ⟨want, hwant⟩ := hwants t u htu
  have hlevels : ∀ v, Relation.TransGen (WaitsFor w) t v → Relation.TransGen (WaitsFor w) v t →
      ∀ want', (w.transaction v).wanted = some want' → level want.1 < level want'.1 := by
    intro v hv
    induction hv with
    | single hfirst =>
      intro hback want' hwant'
      obtain ⟨x, hx, _⟩ := Relation.TransGen.head'_iff.mp hback
      exact level_lt hex (hclimbs _ (hback.tail hfirst)) hfirst hx hwant hwant'
    | tail hpath hlast ih =>
      intro hback want' hwant'
      obtain ⟨x, hx, _⟩ := Relation.TransGen.head'_iff.mp hback
      obtain ⟨middle, hmiddle⟩ := hwants _ _ hlast
      have hbefore := ih (.head hlast hback) middle hmiddle
      have hloop := hback.trans (hpath.tail hlast)
      exact hbefore.trans (level_lt hex (hclimbs _ hloop) hlast hx hmiddle hwant')
  exact lt_irrefl _ (hlevels t hcycle hcycle want hwant)

/-- Without a circle every transaction has one ahead of it, or is one, that
waits behind nobody. -/
theorem exists_unblocked (hex : Exclusive w) (h : ¬ Deadlocked w) (t : ℕ) :
    ∃ u, Relation.ReflTransGen (WaitsFor w) t u ∧ ∀ v, ¬ WaitsFor w u v := by
  let behind : Fin (w.started+1) → Fin (w.started+1) → Prop :=
    fun u v => Relation.TransGen (WaitsFor w) v u
  have hstarted : ∀ u v, WaitsFor w u v → v < w.started+1 := by
    intro u v huv
    obtain ⟨_, _, _, lock, hlock, _⟩ := huv
    by_contra hle
    rw [hex.later v (by omega)] at hlock
    cases hlock
  have : Std.Irrefl behind := ⟨fun u hu => h ⟨u, hu⟩⟩
  have : IsTrans (Fin (w.started+1)) behind := ⟨fun _ _ _ huv hvx => hvx.trans huv⟩
  by_cases hwaits : ∃ v, WaitsFor w t v
  · obtain ⟨v, htv⟩ := hwaits
    have hwf := Finite.wellFounded_of_trans_of_irrefl behind
    obtain ⟨u, hu, hlast⟩ := hwf.has_min
      {u | Relation.ReflTransGen (WaitsFor w) t (u : ℕ)} ⟨⟨v, hstarted t v htv⟩, .single htv⟩
    refine ⟨u, hu, ?_⟩
    intro x hux
    exact hlast ⟨x, hstarted u x hux⟩ (Relation.ReflTransGen.tail hu hux) (.single hux)
  · exact ⟨t, .refl, fun v hv => hwaits ⟨v, hv⟩⟩

variable [DecidableEq ρ]

/-- What waits behind nobody has its row free. -/
theorem free_of_not_waits {t : ℕ} {want : ρ × LockMode} (h : ∀ u, ¬ WaitsFor w t u)
    (hwant : (w.transaction t).wanted = some want) : w.Free t want := by
  intro u _ hu lock hlock hrow
  by_contra hconflict
  exact h u ⟨hu.symm, want, hwant, lock, hlock, hrow, by simpa using hconflict⟩

/-- Without a circle some transaction ahead of every other one can go on. -/
theorem exists_free (hex : Exclusive w) (h : ¬ Deadlocked w) (t : ℕ) :
    ∃ u, Relation.ReflTransGen (WaitsFor w) t u ∧
      ∀ want ∈ (w.transaction u).wanted, w.Free u want := by
  obtain ⟨u, hu, hlast⟩ := exists_unblocked hex h t
  exact ⟨u, hu, fun _ hwant => free_of_not_waits hlast hwant⟩

variable {program : κ → Program σ ρ}

/-- When every program obeys a rule, every transaction under way does. -/
theorem obeys_of_reachable {ok : World σ ρ → Action κ → Prop}
    (hprogram : ∀ request, Obeys R (program request) [])
    (h : Reachable (step program) ok World.Quiet w) (t : ℕ) :
    Obeys R (w.transaction t).program (w.transaction t).held := by
  have hput : ∀ (w : World σ ρ) (s : ℕ) (x : Transaction σ ρ), Obeys R x.program x.held →
      (∀ t, Obeys R (w.transaction t).program (w.transaction t).held) →
      ∀ t, Obeys R ((w.put s x).transaction t).program ((w.put s x).transaction t).held := by
    intro w s x hx hw t
    by_cases hts : t = s
    · rw [hts, transaction_put_self]
      exact hx
    · rw [transaction_put_of_ne w x hts]
      exact hw t
  revert t
  refine h.invariant (I := fun w => ∀ t, Obeys R (w.transaction t).program (w.transaction t).held)
    ?_ ?_
  · intro w hw t
    rw [hw.2 t]
    trivial
  · intro w a w' hI _ hstep
    rcases step_cases hstep with ⟨request, _, rfl⟩ | ⟨s, _, _, rfl⟩ | ⟨s, _, _, _, _, rfl⟩ |
      ⟨s, _, rfl⟩
    · exact hput w _ _ (hprogram request) hI
    · exact hput w s _ (hI s).issue hI
    · exact hput w s _ (hI s).grant hI
    · exact hput w s _ trivial hI

end Deadlocks

section Clashes

variable {w w' : World σ ρ}

/-- Two waiting transactions clash, by what they hold and what they want. -/
def Clashing (C : List (ρ × LockMode) → ρ × LockMode → List (ρ × LockMode) → ρ × LockMode → Prop)
    (w : World σ ρ) : Prop :=
  ∃ t u want want', t ≠ u ∧ (w.transaction t).wanted = some want ∧
    (w.transaction u).wanted = some want' ∧ C (w.transaction t).held want (w.transaction u).held want'

/-- No statement is issued that would clash with one that waits. -/
def Avoids (C : List (ρ × LockMode) → ρ × LockMode → List (ρ × LockMode) → ρ × LockMode → Prop)
    (w : World σ ρ) : Action κ → Prop
  | .issue t =>
    ∀ u < w.started, u ≠ t → ∀ want ∈ (w.transaction t).asks w.committed,
      ∀ want' ∈ (w.transaction u).wanted,
        ¬ C (w.transaction t).held want (w.transaction u).held want' ∧
          ¬ C (w.transaction u).held want' (w.transaction t).held want
  | _ => True

variable {C : List (ρ × LockMode) → ρ × LockMode → List (ρ × LockMode) → ρ × LockMode → Prop}

instance [∀ held want held' want', Decidable (C held want held' want')] (w : World σ ρ) :
    ∀ a : Action κ, Decidable (Avoids C w a)
  | .start _ => isTrue trivial
  | .issue t => inferInstanceAs (Decidable (∀ u < w.started, u ≠ t →
      ∀ want ∈ (w.transaction t).asks w.committed, ∀ want' ∈ (w.transaction u).wanted,
        ¬ C (w.transaction t).held want (w.transaction u).held want' ∧
          ¬ C (w.transaction u).held want' (w.transaction t).held want))
  | .grant _ => isTrue trivial
  | .abort _ => isTrue trivial

/-- Only a transaction that goes on to wait can clash with the others. -/
theorem clashing_put {s : ℕ} {x : Transaction σ ρ} (h : Clashing C (w.put s x)) :
    Clashing C w ∨ ∃ u want want', u ≠ s ∧ x.wanted = some want ∧
      (w.transaction u).wanted = some want' ∧
      (C x.held want (w.transaction u).held want' ∨ C (w.transaction u).held want' x.held want) := by
  obtain ⟨t, u, want, want', hne, ht, hu, hclash⟩ := h
  by_cases hts : t = s
  · have hus : u ≠ s := fun heq => hne (hts.trans heq.symm)
    rw [hts, transaction_put_self] at ht hclash
    rw [transaction_put_of_ne w x hus] at hu hclash
    exact .inr ⟨u, want, want', hus, ht, hu, .inl hclash⟩
  · rw [transaction_put_of_ne w x hts] at ht hclash
    by_cases hus : u = s
    · rw [hus, transaction_put_self] at hu hclash
      exact .inr ⟨t, want', want, hts, hu, ht, .inr hclash⟩
    · rw [transaction_put_of_ne w x hus] at hu hclash
      exact .inl ⟨t, u, want, want', hne, ht, hu, hclash⟩

variable [DecidableEq ρ] {program : κ → Program σ ρ}

theorem not_clashing_step {a : Action κ} (hex : Exclusive w) (hnot : ¬ Clashing C w)
    (havoids : Avoids C w a) (hstep : step program w a = some w') : ¬ Clashing C w' := by
  intro hclash
  rcases step_cases hstep with ⟨request, _, rfl⟩ | ⟨s, rfl, hwaiting, rfl⟩ |
    ⟨s, _, _, hwanted, _, rfl⟩ | ⟨s, _, rfl⟩
  · rcases clashing_put hclash with hclash | ⟨_, want, _, _, hwant, _⟩
    · exact hnot hclash
    · rw [wanted_begin] at hwant
      cases hwant
  · rcases clashing_put hclash with hclash | ⟨u, want, want', hne, hwant, hwant', hclash⟩
    · exact hnot hclash
    · have hlt : u < w.started := by
        by_contra hle
        rw [hex.later u (not_lt.mp hle)] at hwant'
        cases hwant'
      rw [held_issue_of_wanted hwant] at hclash
      obtain ⟨hfirst, hsecond⟩ :=
        havoids u hlt hne want (asks_of_issue hwaiting hwant) want' hwant'
      rcases hclash with hclash | hclash
      · exact hfirst hclash
      · exact hsecond hclash
  · rcases clashing_put hclash with hclash | ⟨_, want, _, _, hwant, _⟩
    · exact hnot hclash
    · rw [wanted_of_not_waiting (waiting_grant hwanted)] at hwant
      cases hwant
  · rcases clashing_put hclash with hclash | ⟨_, want, _, _, hwant, _⟩
    · exact hnot hclash
    · cases hwant

/-- Runs that avoid clashes reach none. -/
theorem not_clashing_of_reachable (h : Reachable (step program) (Avoids C) World.Quiet w) :
    ¬ Clashing C w := by
  refine h.invariant_of (I := fun w => ¬ Clashing C w) (fun w hw => exclusive_of_reachable (fun w hw => hw) hw) ?_ ?_
  · intro w hw hclash
    obtain ⟨t, _, _, _, _, ht, _⟩ := hclash
    rw [hw.2 t] at ht
    cases ht
  · intro w a w' hex _ hnot havoids hstep
    exact not_clashing_step hex hnot havoids hstep

end Clashes

end Kurtar.WaitCircles

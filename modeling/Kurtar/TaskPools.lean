import Kurtar.GuardedRuns

/-!
# Pools of interleaved procedures

Procedures under way take turns on a shared state. A system says what an
event from outside does and which procedures it starts, and what the next
step of a procedure does and what is then left of it. An invariant of a pool
is one of the shared state, one of each procedure and one of each two of
them; a step keeps it when it keeps its own part and does not disturb that of
the others.
-/

namespace Kurtar.TaskPools

open GuardedRuns

variable {σ τ ε ι : Type*}

/-- A shared state and the procedures under way. -/
structure Pool (σ τ : Type*) where
  shared : σ
  tasks : List τ

/-- The next thing to happen in a pool. -/
inductive PoolAction (ε ι : Type*) where
  | event (e : ε)
  /-- A procedure takes its next step with what the outside supplies. -/
  | resume (index : ℕ) (input : ι)

/-- What events and procedures do; none when they have to wait. -/
structure System (σ τ ε ι : Type*) where
  event : σ → ε → Option (σ × List τ)
  /-- The step may depend on what the other procedures hold. -/
  resume : σ → List τ → ι → τ → Option (σ × List τ)

/-- One step of a pool. -/
def System.step (S : System σ τ ε ι) (p : Pool σ τ) : PoolAction ε ι → Option (Pool σ τ)
  | .event e => (S.event p.shared e).map fun (s, started) => ⟨s, started ++ p.tasks⟩
  | .resume index input =>
    match p.tasks[index]? with
    | none => none
    | some task =>
      (S.resume p.shared (p.tasks.eraseIdx index) input task).map fun (s, rest) =>
        ⟨s, rest ++ p.tasks.eraseIdx index⟩

section Steps

variable {S : System σ τ ε ι} {p p' : Pool σ τ}

theorem event_eq_some {e : ε} (h : S.step p (.event e) = some p') :
    ∃ s started, S.event p.shared e = some (s, started) ∧ p' = ⟨s, started ++ p.tasks⟩ := by
  obtain ⟨⟨s, started⟩, hevent, rfl⟩ := Option.map_eq_some_iff.mp h
  exact ⟨s, started, hevent, rfl⟩

theorem resume_eq_some {index : ℕ} {input : ι} (h : S.step p (.resume index input) = some p') :
    ∃ task s rest, p.tasks[index]? = some task ∧
      S.resume p.shared (p.tasks.eraseIdx index) input task = some (s, rest) ∧
        p' = ⟨s, rest ++ p.tasks.eraseIdx index⟩ := by
  simp only [System.step] at h
  cases hget : p.tasks[index]? with
  | none => simp [hget] at h
  | some task =>
    simp only [hget] at h
    obtain ⟨⟨s, rest⟩, hresume, rfl⟩ := Option.map_eq_some_iff.mp h
    exact ⟨task, s, rest, rfl, hresume, rfl⟩

/-- The resumed task and the others are all there is. -/
theorem tasks_perm {index : ℕ} {task : τ} {tasks : List τ} (h : tasks[index]? = some task) :
    (task :: tasks.eraseIdx index).Perm tasks := by
  obtain ⟨hlt, rfl⟩ := List.getElem?_eq_some_iff.mp h
  exact List.getElem_cons_eraseIdx_perm hlt

end Steps

section Invariants

variable {I : σ → Prop} {J : σ → τ → Prop} {R : σ → τ → τ → Prop}

/-- The shared state satisfies `I`, each procedure `J` and each two of them `R`. -/
structure Holds (I : σ → Prop) (J : σ → τ → Prop) (R : σ → τ → τ → Prop) (p : Pool σ τ) :
    Prop where
  shared : I p.shared
  each : ∀ task ∈ p.tasks, J p.shared task
  pairs : p.tasks.Pairwise (R p.shared)

/-- What a step from `s` to `s'` owes the procedures that did not move. -/
structure Undisturbed (J : σ → τ → Prop) (R : σ → τ → τ → Prop) (s s' : σ) (others : List τ) :
    Prop where
  each : ∀ other ∈ others, J s' other
  pairs : others.Pairwise (R s')

/-- A shared state with the same facts about every procedure disturbs nobody. -/
theorem Undisturbed.of_stable {s s' : σ} {others : List τ} (hJ : ∀ other ∈ others, J s other)
    (hR : others.Pairwise (R s)) (heach : ∀ other, J s other → J s' other)
    (hpairs : ∀ a b, R s a b → R s' a b) : Undisturbed J R s s' others where
  each := fun other hmem => heach other (hJ other hmem)
  pairs := hR.imp fun {a b} => hpairs a b

/-- New procedures beside undisturbed ones keep the invariant. -/
theorem holds_append {s s' : σ} {started others : List τ} (hI : I s')
    (hothers : Undisturbed J R s s' others) (heach : ∀ task ∈ started, J s' task)
    (hpairs : started.Pairwise (R s'))
    (hbetween : ∀ task ∈ started, ∀ other ∈ others, R s' task other) :
    Holds I J R ⟨s', started ++ others⟩ := by
  refine ⟨hI, ?_, ?_⟩
  · intro task hmem
    rcases List.mem_append.mp hmem with hmem | hmem
    · exact heach task hmem
    · exact hothers.each task hmem
  · exact List.pairwise_append.mpr ⟨hpairs, hothers.pairs, hbetween⟩

variable {p : Pool σ τ}

/-- What the invariant says when a task is about to be resumed. -/
structure AtTask (I : σ → Prop) (J : σ → τ → Prop) (R : σ → τ → τ → Prop) (s : σ) (task : τ)
    (others : List τ) : Prop where
  shared : I s
  own : J s task
  each : ∀ other ∈ others, J s other
  apart : ∀ other ∈ others, R s task other
  pairs : others.Pairwise (R s)

theorem Holds.atTask (h : Holds I J R p) (hsymm : ∀ s a b, R s a b → R s b a) {index : ℕ}
    {task : τ} (hget : p.tasks[index]? = some task) :
    AtTask I J R p.shared task (p.tasks.eraseIdx index) := by
  have hpairs : (task :: p.tasks.eraseIdx index).Pairwise (R p.shared) :=
    ((tasks_perm hget).pairwise_iff fun {a b} => hsymm p.shared a b).mpr h.pairs
  obtain ⟨hapart, hrest⟩ := List.pairwise_cons.mp hpairs
  exact ⟨h.shared, h.each task (List.mem_of_getElem? hget),
    fun other hmem => h.each other (List.mem_of_mem_eraseIdx hmem), hapart, hrest⟩

/-- One step keeps the invariant when events and single steps do. -/
theorem holds_step {S : System σ τ ε ι} {p' : Pool σ τ} {a : PoolAction ε ι}
    (hsymm : ∀ s a b, R s a b → R s b a) (h : Holds I J R p)
    (hevent : ∀ e s' started, a = .event e → S.event p.shared e = some (s', started) →
      Holds I J R ⟨s', started ++ p.tasks⟩)
    (hresume : ∀ index input task s' rest, a = .resume index input →
      p.tasks[index]? = some task →
      AtTask I J R p.shared task (p.tasks.eraseIdx index) →
      S.resume p.shared (p.tasks.eraseIdx index) input task = some (s', rest) →
        Holds I J R ⟨s', rest ++ p.tasks.eraseIdx index⟩)
    (hstep : S.step p a = some p') : Holds I J R p' := by
  cases a with
  | event e =>
    obtain ⟨s', started, he, rfl⟩ := event_eq_some hstep
    exact hevent e s' started rfl he
  | resume index input =>
    obtain ⟨task, s', rest, hget, hr, rfl⟩ := resume_eq_some hstep
    exact hresume index input task s' rest rfl hget (h.atTask hsymm hget) hr

end Invariants

end Kurtar.TaskPools

import Kurtar.GuardedRuns
import Kurtar.ExpiringStores
import Kurtar.RescuedBags

/-!
# The public impact figures

The platform's totals are computed by one aggregate and kept in a cache. In
each process the requests that miss the cache share one recompute, which is
forgotten when it settles. Processes share the cache, which may be out of
reach, and may stop at any moment; rows are inserted meanwhile.
-/

namespace Kurtar.PublicImpact

open GuardedRuns IstanbulCalendar ExpiringStores
open RescuedBags (ImpactLedger createRow)

def PUBLIC_IMPACT_CACHE_KEY : String := "impact:public:v1"

def PUBLIC_IMPACT_CACHE_TTL_SECONDS : ℤ := 5*60

structure ImpactTotals where
  mealsSaved : ℤ
  co2eGrams : ℤ
  moneySavedCents : ℤ
  count : ℕ
  deriving DecidableEq

structure PublicImpactTotals extends ImpactTotals where
  generatedAt : Instant
  deriving DecidableEq

/-- The aggregate over the rows; sums over no rows are zero. -/
def aggregate (rows : List ImpactLedger) : ImpactTotals where
  mealsSaved := (rows.map (·.line.mealsSaved)).sum
  co2eGrams := (rows.map (·.line.co2eGrams)).sum
  moneySavedCents := (rows.map (·.line.moneySavedCents)).sum
  count := rows.length

/-- The totals with the time after they came. -/
def publicTotals (totals : ImpactTotals) (now : Instant) : PublicImpactTotals :=
  { totals with generatedAt := now }

section Processes

/-- How far a recompute is. -/
inductive Phase where
  | computing
  | aggregated (totals : ImpactTotals)
  | computed (result : PublicImpactTotals)
  | saved (result : PublicImpactTotals)
  /-- Its promise is settled, with nothing when the aggregate failed. -/
  | settled (result : Option PublicImpactTotals)
  deriving DecidableEq

/-- A call of `recomputeAndCache`. -/
structure Recompute where
  process : ℕ
  /-- The process has not stopped. -/
  alive : Bool
  phase : Phase
  deriving DecidableEq

inductive Source where
  | recomputed
  /-- Read from the cache at this time. -/
  | cached (readAt : Instant)
  deriving DecidableEq

inductive Stage where
  | asked
  | missed
  | waiting (recompute : ℕ)
  | answered (result : PublicImpactTotals) (source : Source)
  | failed
  /-- The process stopped. -/
  | lost
  deriving DecidableEq

/-- A call of `getPublic`. -/
structure Request where
  process : ℕ
  stage : Stage
  deriving DecidableEq

/-- An aggregate that the database gave. -/
structure Counting where
  rows : List ImpactLedger
  countedAt : Instant

structure World where
  ledger : List ImpactLedger
  clock : Instant
  cache : Store String PublicImpactTotals Instant
  pendingRecompute : ℕ → Option ℕ
  recomputes : List Recompute
  requests : List Request
  /-- Every aggregate so far, newest first. -/
  countings : List Counting

inductive Action where
  | insert (row : ImpactLedger)
  | tick (clock : Instant)
  | getPublic (process : ℕ)
  | lookup (request : ℕ) (reached : Bool)
  /-- A request that missed starts a recompute or joins the pending one. -/
  | join (request : ℕ)
  /-- The database counts the rows of this moment. -/
  | aggregate (recompute : ℕ)
  | aggregateFails (recompute : ℕ)
  | stamp (recompute : ℕ)
  | save (recompute : ℕ) (written : Bool)
  | settle (recompute : ℕ)
  | deliver (request : ℕ)
  | forget (key : String)
  | stop (process : ℕ)

def World.setStage (w : World) (request : ℕ) (r : Request) (stage : Stage) : World :=
  { w with requests := w.requests.set request { r with stage } }

def World.setPhase (w : World) (recompute : ℕ) (c : Recompute) (phase : Phase) : World :=
  { w with recomputes := w.recomputes.set recompute { c with phase } }

def World.setPending (w : World) (process : ℕ) (recompute : Option ℕ) : World :=
  { w with pendingRecompute := Function.update w.pendingRecompute process recompute }

def lookup (w : World) (request : ℕ) (r : Request) (reached : Bool) : World :=
  match if reached then w.cache.get PUBLIC_IMPACT_CACHE_KEY w.clock else none with
  | some result => w.setStage request r (.answered result (.cached w.clock))
  | none => w.setStage request r .missed

def join (w : World) (request : ℕ) (r : Request) : World :=
  match w.pendingRecompute r.process with
  | some recompute => w.setStage request r (.waiting recompute)
  | none =>
    let recompute := w.recomputes.length
    { (w.setStage request r (.waiting recompute)).setPending r.process (some recompute) with
      recomputes := w.recomputes ++ [⟨r.process, true, .computing⟩] }

def save (w : World) (recompute : ℕ) (c : Recompute) (result : PublicImpactTotals)
    (written : Bool) : World :=
  { w.setPhase recompute c (.saved result) with
    cache := if written then w.cache.put PUBLIC_IMPACT_CACHE_KEY result
      (w.clock+PUBLIC_IMPACT_CACHE_TTL_SECONDS*1000) else w.cache }

/-- The promise settles, and `finally` clears the pending one. -/
def settle (w : World) (recompute : ℕ) (c : Recompute) (result : Option PublicImpactTotals) :
    World :=
  (w.setPhase recompute c (.settled result)).setPending c.process none

/-- The process and all it was doing is gone; a command already sent may still arrive. -/
def stop (w : World) (process : ℕ) : World :=
  { w.setPending process none with
    recomputes := w.recomputes.map fun c =>
      if c.process = process then { c with alive := false } else c
    requests := w.requests.map fun r =>
      if r.process = process then
        match r.stage with
        | .answered _ _ | .failed => r
        | _ => { r with stage := .lost }
      else r }

def step (w : World) : Action → Option World
  | .insert row => some { w with ledger := createRow w.ledger row }
  | .tick clock => if w.clock ≤ clock then some { w with clock } else none
  | .getPublic process => some { w with requests := w.requests ++ [⟨process, .asked⟩] }
  | .lookup request reached =>
    match w.requests[request]? with
    | some r => if r.stage = .asked then some (lookup w request r reached) else none
    | none => none
  | .join request =>
    match w.requests[request]? with
    | some r => if r.stage = .missed then some (join w request r) else none
    | none => none
  | .aggregate recompute =>
    match w.recomputes[recompute]? with
    | some c =>
      if c.phase = .computing then
        some { w.setPhase recompute c (.aggregated (aggregate w.ledger)) with
          countings := ⟨w.ledger, w.clock⟩ :: w.countings }
      else none
    | none => none
  | .aggregateFails recompute =>
    match w.recomputes[recompute]? with
    | some c => if c.alive ∧ c.phase = .computing then some (settle w recompute c none) else none
    | none => none
  | .stamp recompute =>
    match w.recomputes[recompute]? with
    | some c =>
      match c.phase with
      | .aggregated totals =>
        if c.alive then some (w.setPhase recompute c (.computed (publicTotals totals w.clock)))
        else none
      | _ => none
    | none => none
  | .save recompute written =>
    match w.recomputes[recompute]? with
    | some c =>
      match c.phase with
      | .computed result => some (save w recompute c result written)
      | _ => none
    | none => none
  | .settle recompute =>
    match w.recomputes[recompute]? with
    | some c =>
      match c.phase with
      | .saved result => if c.alive then some (settle w recompute c (some result)) else none
      | _ => none
    | none => none
  | .deliver request =>
    match w.requests[request]? with
    | some r =>
      match r.stage with
      | .waiting recompute =>
        match w.recomputes[recompute]? with
        | some c =>
          match c.phase with
          | .settled (some result) =>
            some (w.setStage request r (.answered result .recomputed))
          | .settled none => some (w.setStage request r .failed)
          | _ => none
        | none => none
      | _ => none
    | none => none
  | .forget key => some { w with cache := w.cache.forget key }
  | .stop process => some (stop w process)

/-- Nothing is cached and no request has come in. -/
structure Initial (w : World) : Prop where
  cache : w.cache = Store.empty
  pending : ∀ process, w.pendingRecompute process = none
  recomputes : w.recomputes = []
  requests : w.requests = []
  countings : w.countings = []

end Processes

section Steps

variable {w w' : World} {a : Action}

/-- The ways a world goes on. -/
inductive Stepped (w : World) : World → Prop where
  | inserted (row : ImpactLedger) : Stepped w { w with ledger := createRow w.ledger row }
  | tick {clock : Instant} (h : w.clock ≤ clock) : Stepped w { w with clock }
  | asked (process : ℕ) : Stepped w { w with requests := w.requests ++ [⟨process, .asked⟩] }
  | hit {request : ℕ} {r : Request} {result : PublicImpactTotals}
      (hr : w.requests[request]? = some r)
      (hget : w.cache.get PUBLIC_IMPACT_CACHE_KEY w.clock = some result) :
      Stepped w (w.setStage request r (.answered result (.cached w.clock)))
  | missed {request : ℕ} {r : Request} (hr : w.requests[request]? = some r) :
      Stepped w (w.setStage request r .missed)
  | joined {request recompute : ℕ} {r : Request} (hr : w.requests[request]? = some r)
      (hpending : w.pendingRecompute r.process = some recompute) :
      Stepped w (w.setStage request r (.waiting recompute))
  | started {request : ℕ} {r : Request} (hr : w.requests[request]? = some r)
      (hpending : w.pendingRecompute r.process = none) :
      Stepped w { (w.setStage request r (.waiting w.recomputes.length)).setPending r.process
          (some w.recomputes.length) with
        recomputes := w.recomputes ++ [⟨r.process, true, .computing⟩] }
  | aggregated {recompute : ℕ} {c : Recompute} (hc : w.recomputes[recompute]? = some c)
      (hphase : c.phase = .computing) :
      Stepped w { w.setPhase recompute c (.aggregated (aggregate w.ledger)) with
        countings := ⟨w.ledger, w.clock⟩ :: w.countings }
  | stamped {recompute : ℕ} {c : Recompute} {totals : ImpactTotals}
      (hc : w.recomputes[recompute]? = some c) (hphase : c.phase = .aggregated totals) :
      Stepped w (w.setPhase recompute c (.computed (publicTotals totals w.clock)))
  | saved {recompute : ℕ} {c : Recompute} {result : PublicImpactTotals} (written : Bool)
      (hc : w.recomputes[recompute]? = some c) (hphase : c.phase = .computed result) :
      Stepped w (save w recompute c result written)
  | settled {recompute : ℕ} {c : Recompute} {result : Option PublicImpactTotals}
      (hc : w.recomputes[recompute]? = some c) (halive : c.alive = true)
      (hphase : c.phase = .computing ∧ result = none ∨
        ∃ t, c.phase = .saved t ∧ result = some t) :
      Stepped w (settle w recompute c result)
  | delivered {request recompute : ℕ} {r : Request} {c : Recompute} {result : PublicImpactTotals}
      (hr : w.requests[request]? = some r) (hc : w.recomputes[recompute]? = some c)
      (hphase : c.phase = .settled (some result)) :
      Stepped w (w.setStage request r (.answered result .recomputed))
  | refused {request : ℕ} {r : Request} (hr : w.requests[request]? = some r) :
      Stepped w (w.setStage request r .failed)
  | forgot (key : String) : Stepped w { w with cache := w.cache.forget key }
  | stopped (process : ℕ) : Stepped w (stop w process)

theorem stepped_of_step (h : step w a = some w') : Stepped w w' := by
  cases a with
  | insert row =>
    cases h
    exact .inserted row
  | tick clock =>
    simp only [step] at h
    split_ifs at h with hclock
    cases h
    exact .tick hclock
  | getPublic process =>
    cases h
    exact .asked process
  | lookup request reached =>
    simp only [step] at h
    cases hr : w.requests[request]? with
    | none => simp [hr] at h
    | some r =>
      simp only [hr] at h
      split_ifs at h
      cases h
      unfold lookup
      cases hget : if reached then w.cache.get PUBLIC_IMPACT_CACHE_KEY w.clock else none with
      | none => exact .missed hr
      | some result =>
        split_ifs at hget
        exact .hit hr hget
  | join request =>
    simp only [step] at h
    cases hr : w.requests[request]? with
    | none => simp [hr] at h
    | some r =>
      simp only [hr] at h
      split_ifs at h
      cases h
      unfold join
      cases hpending : w.pendingRecompute r.process with
      | none => exact .started hr hpending
      | some recompute => exact .joined hr hpending
  | aggregate recompute =>
    simp only [step] at h
    cases hc : w.recomputes[recompute]? with
    | none => simp [hc] at h
    | some c =>
      simp only [hc] at h
      split_ifs at h with hphase
      cases h
      exact .aggregated hc hphase
  | aggregateFails recompute =>
    simp only [step] at h
    cases hc : w.recomputes[recompute]? with
    | none => simp [hc] at h
    | some c =>
      simp only [hc] at h
      split_ifs at h with hphase
      cases h
      exact .settled hc hphase.1 (Or.inl ⟨hphase.2, rfl⟩)
  | stamp recompute =>
    simp only [step] at h
    cases hc : w.recomputes[recompute]? with
    | none => simp [hc] at h
    | some c =>
      simp only [hc] at h
      cases hphase : c.phase with
      | aggregated totals =>
        simp only [hphase] at h
        split_ifs at h
        cases h
        exact .stamped hc hphase
      | _ => simp [hphase] at h
  | save recompute written =>
    simp only [step] at h
    cases hc : w.recomputes[recompute]? with
    | none => simp [hc] at h
    | some c =>
      simp only [hc] at h
      cases hphase : c.phase with
      | computed result =>
        simp only [hphase] at h
        cases h
        exact .saved written hc hphase
      | _ => simp [hphase] at h
  | settle recompute =>
    simp only [step] at h
    cases hc : w.recomputes[recompute]? with
    | none => simp [hc] at h
    | some c =>
      simp only [hc] at h
      cases hphase : c.phase with
      | saved result =>
        simp only [hphase] at h
        split_ifs at h with halive
        cases h
        exact .settled hc halive (Or.inr ⟨result, hphase, rfl⟩)
      | _ => simp [hphase] at h
  | deliver request =>
    simp only [step] at h
    cases hr : w.requests[request]? with
    | none => simp [hr] at h
    | some r =>
      simp only [hr] at h
      cases hstage : r.stage with
      | waiting recompute =>
        simp only [hstage] at h
        cases hc : w.recomputes[recompute]? with
        | none => simp [hc] at h
        | some c =>
          simp only [hc] at h
          cases hphase : c.phase with
          | settled result =>
            cases result with
            | none =>
              simp only [hphase] at h
              cases h
              exact .refused hr
            | some result =>
              simp only [hphase] at h
              cases h
              exact .delivered hr hc hphase
          | _ => simp [hphase] at h
      | _ => simp [hstage] at h
  | forget key =>
    cases h
    exact .forgot key
  | stop process =>
    cases h
    exact .stopped process

end Steps

section Shared

variable {w w' : World} {request recompute : ℕ} {r : Request} {c : Recompute}

/-- Its process runs and its promise is pending. -/
def Recompute.Unsettled (c : Recompute) : Prop :=
  c.alive = true ∧ ∀ result, c.phase ≠ .settled result

/-- The unsettled recompute of a process is the pending one, and whoever waits
does so for a recompute of its own process. -/
structure Coalesced (w : World) : Prop where
  pending : ∀ process i, w.pendingRecompute process = some i →
    ∃ c, w.recomputes[i]? = some c ∧ c.process = process ∧ c.Unsettled
  unsettled : ∀ i c, w.recomputes[i]? = some c → c.Unsettled →
    w.pendingRecompute c.process = some i
  waiting : ∀ r ∈ w.requests, ∀ i, r.stage = .waiting i →
    ∃ c, w.recomputes[i]? = some c ∧ c.process = r.process ∧ c.alive = true

theorem get_setPhase (hc : w.recomputes[recompute]? = some c) (phase : Phase) (i : ℕ) :
    (w.setPhase recompute c phase).recomputes[i]? =
      if i = recompute then some { c with phase } else w.recomputes[i]? := by
  unfold World.setPhase
  by_cases hi : i = recompute
  · rw [hi, if_pos rfl]
    exact List.getElem?_set_self (List.getElem?_eq_some_iff.mp hc).1
  · rw [if_neg hi]
    exact List.getElem?_set_ne (Ne.symm hi)

theorem get_setStage (hr : w.requests[request]? = some r) (stage : Stage) :
    (w.setStage request r stage).requests[request]? = some { r with stage } :=
  List.getElem?_set_self (List.getElem?_eq_some_iff.mp hr).1

/-- Requests that wait still find their recompute after it has gone on. -/
theorem waiting_setPhase (h : Coalesced w) (hc : w.recomputes[recompute]? = some c)
    (phase : Phase) : ∀ r ∈ w.requests, ∀ i, r.stage = .waiting i →
      ∃ c', (w.setPhase recompute c phase).recomputes[i]? = some c' ∧
        c'.process = r.process ∧ c'.alive = true := by
  intro r hr i hstage
  obtain ⟨c', hc', hprocess, halive⟩ := h.waiting r hr i hstage
  rw [get_setPhase hc]
  by_cases hi : i = recompute
  · rw [hi, hc] at hc'
    cases hc'
    exact ⟨{ c with phase }, if_pos hi, hprocess, halive⟩
  · exact ⟨c', (if_neg hi).trans hc', hprocess, halive⟩

theorem Coalesced.setStage {stage : Stage} (h : Coalesced w)
    (hwait : ∀ i, stage = .waiting i →
      ∃ c, w.recomputes[i]? = some c ∧ c.process = r.process ∧ c.alive = true) :
    Coalesced (w.setStage request r stage) where
  pending := h.pending
  unsettled := h.unsettled
  waiting := by
    intro r' hr' i hstage
    rcases List.mem_or_eq_of_mem_set hr' with hr' | rfl
    · exact h.waiting r' hr' i hstage
    · exact hwait i hstage

/-- A recompute that goes on without settling stays what it was. -/
theorem Coalesced.setPhase (h : Coalesced w) (phase : Phase)
    (hc : w.recomputes[recompute]? = some c) (hbefore : ∀ result, c.phase ≠ .settled result)
    (hafter : ∀ result, phase ≠ .settled result) : Coalesced (w.setPhase recompute c phase) where
  pending := by
    intro process i hpending
    obtain ⟨c', hc', hprocess, hunsettled⟩ := h.pending process i hpending
    rw [get_setPhase hc]
    by_cases hi : i = recompute
    · rw [hi, hc] at hc'
      cases hc'
      exact ⟨{ c with phase }, if_pos hi, hprocess, hunsettled.1, hafter⟩
    · exact ⟨c', (if_neg hi).trans hc', hprocess, hunsettled⟩
  unsettled := by
    intro i c' hc' hunsettled
    rw [get_setPhase hc] at hc'
    split_ifs at hc' with hi
    · cases hc'
      rw [hi]
      exact h.unsettled recompute c hc ⟨hunsettled.1, hbefore⟩
    · exact h.unsettled i c' hc' hunsettled
  waiting := waiting_setPhase h hc phase

theorem Coalesced.settle {result : Option PublicImpactTotals} (h : Coalesced w)
    (hc : w.recomputes[recompute]? = some c) (hunsettled : c.Unsettled) :
    Coalesced (settle w recompute c result) where
  pending := by
    intro process i hpending
    have hother : process ≠ c.process := by
      rintro rfl
      simp [PublicImpact.settle, World.setPending] at hpending
    have hbefore : w.pendingRecompute process = some i := by
      simpa [PublicImpact.settle, World.setPending, World.setPhase, Function.update_of_ne hother]
        using hpending
    obtain ⟨c', hc', hprocess, hunsettled'⟩ := h.pending process i hbefore
    refine ⟨c', ?_, hprocess, hunsettled'⟩
    refine (get_setPhase hc _ i).trans ((if_neg ?_).trans hc')
    rintro rfl
    rw [hc] at hc'
    cases hc'
    exact hother hprocess.symm
  unsettled := by
    intro i c' hc' hunsettled'
    have hget := (get_setPhase hc (.settled result) i).symm.trans hc'
    split_ifs at hget with hi
    · cases hget
      exact absurd rfl (hunsettled'.2 result)
    · have hpending := h.unsettled i c' hget hunsettled'
      have hother : c'.process ≠ c.process := by
        intro hsame
        rw [hsame, h.unsettled recompute c hc hunsettled] at hpending
        exact hi (Option.some.inj hpending).symm
      exact (Function.update_of_ne hother _ _).trans hpending
  waiting := waiting_setPhase h hc _

theorem Coalesced.start (h : Coalesced w)
    (hpending : w.pendingRecompute r.process = none) :
    Coalesced { (w.setStage request r (.waiting w.recomputes.length)).setPending r.process
        (some w.recomputes.length) with
      recomputes := w.recomputes ++ [⟨r.process, true, .computing⟩] } := by
  have hold : ∀ {i : ℕ} {c : Recompute}, w.recomputes[i]? = some c →
      (w.recomputes ++ [⟨r.process, true, .computing⟩])[i]? = some c := fun hc =>
    (List.getElem?_append_left (List.getElem?_eq_some_iff.mp hc).1).trans hc
  have hnew : (w.recomputes ++ [⟨r.process, true, .computing⟩])[w.recomputes.length]? =
      some ⟨r.process, true, .computing⟩ := List.getElem?_concat_length
  constructor
  · intro process i hset
    by_cases hp : process = r.process
    · rw [hp] at hset
      have hi := Option.some.inj ((Function.update_self r.process _ w.pendingRecompute).symm.trans
        hset)
      rw [← hi, hp]
      exact ⟨_, hnew, rfl, rfl, fun _ hphase => by cases hphase⟩
    · obtain ⟨c, hc, hrest⟩ := h.pending process i
        ((Function.update_of_ne hp _ w.pendingRecompute).symm.trans hset)
      exact ⟨c, hold hc, hrest⟩
  · intro i c hc hunsettled
    by_cases hi : i < w.recomputes.length
    · have hbefore := h.unsettled i c ((List.getElem?_append_left hi).symm.trans hc) hunsettled
      have hother : c.process ≠ r.process := by
        intro hsame
        rw [hsame, hpending] at hbefore
        cases hbefore
      exact (Function.update_of_ne hother _ _).trans hbefore
    · have hlength := (List.getElem?_eq_some_iff.mp hc).1
      rw [List.length_append, List.length_singleton] at hlength
      have hlast : i = w.recomputes.length := by omega
      rw [hlast, hnew] at hc
      cases hc
      rw [hlast]
      exact Function.update_self _ _ _
  · intro r' hr' i hstage
    rcases List.mem_or_eq_of_mem_set hr' with hr' | rfl
    · obtain ⟨c, hc, hrest⟩ := h.waiting r' hr' i hstage
      exact ⟨c, hold hc, hrest⟩
    · cases hstage
      exact ⟨_, hnew, rfl, rfl⟩

/-- The stage of a request whose process stops. -/
def Stage.lose : Stage → Stage
  | .answered result source => .answered result source
  | .failed => .failed
  | _ => .lost

theorem mem_requests_stop {process : ℕ} (hr : r ∈ (stop w process).requests) :
    r ∈ w.requests ∧ r.process ≠ process ∨
      ∃ q ∈ w.requests, r = { q with stage := q.stage.lose } := by
  obtain ⟨q, hq, hmap⟩ := List.mem_map.mp hr
  split_ifs at hmap with hprocess
  · right
    refine ⟨q, hq, ?_⟩
    obtain ⟨p, stage⟩ := q
    cases stage <;> exact hmap.symm
  · rw [← hmap]
    exact Or.inl ⟨hq, hprocess⟩

theorem get_stop {process i : ℕ} (hc : (stop w process).recomputes[i]? = some c) :
    ∃ c', w.recomputes[i]? = some c' ∧ c'.phase = c.phase ∧ c'.process = c.process ∧
      (c.alive = true → c = c' ∧ c.process ≠ process) := by
  rw [stop, List.getElem?_map] at hc
  obtain ⟨c', hc', heq⟩ := Option.map_eq_some_iff.mp hc
  refine ⟨c', hc', ?_⟩
  split_ifs at heq with hprocess
  · rw [← heq]
    exact ⟨rfl, rfl, fun halive => by cases halive⟩
  · rw [← heq]
    exact ⟨rfl, rfl, fun _ => ⟨rfl, hprocess⟩⟩

theorem get_stop_of_ne {process i : ℕ} (hc : w.recomputes[i]? = some c)
    (hprocess : c.process ≠ process) : (stop w process).recomputes[i]? = some c := by
  rw [stop, List.getElem?_map, hc, Option.map_some, if_neg hprocess]

theorem Coalesced.stop (h : Coalesced w) (process : ℕ) : Coalesced (stop w process) where
  pending := by
    intro p i hpending
    have hp : p ≠ process := by
      rintro rfl
      simp [PublicImpact.stop, World.setPending] at hpending
    have hbefore : w.pendingRecompute p = some i := by
      simpa [PublicImpact.stop, World.setPending, Function.update_of_ne hp] using hpending
    obtain ⟨c, hc, hprocess, hunsettled⟩ := h.pending p i hbefore
    exact ⟨c, get_stop_of_ne hc (hprocess ▸ hp), hprocess, hunsettled⟩
  unsettled := by
    intro i c hc hunsettled
    obtain ⟨c', hc', -, -, hlive⟩ := get_stop hc
    obtain ⟨rfl, hprocess⟩ := hlive hunsettled.1
    exact (Function.update_of_ne hprocess none _).trans (h.unsettled i c hc' hunsettled)
  waiting := by
    intro r hr i hstage
    rcases mem_requests_stop hr with ⟨hr, hprocess⟩ | ⟨q, hq, rfl⟩
    · obtain ⟨c, hc, hsame, halive⟩ := h.waiting r hr i hstage
      exact ⟨c, get_stop_of_ne hc (hsame ▸ hprocess), hsame, halive⟩
    · cases hq : q.stage <;> simp [hq, Stage.lose] at hstage

theorem coalesced_step (h : Coalesced w) (hstep : Stepped w w') : Coalesced w' := by
  cases hstep with
  | inserted row => exact ⟨h.pending, h.unsettled, h.waiting⟩
  | tick => exact ⟨h.pending, h.unsettled, h.waiting⟩
  | asked process =>
    refine ⟨h.pending, h.unsettled, fun r hr i hstage => ?_⟩
    rcases List.mem_append.mp hr with hr | hr
    · exact h.waiting r hr i hstage
    · rw [List.mem_singleton.mp hr] at hstage
      cases hstage
  | hit => exact h.setStage nofun
  | missed => exact h.setStage nofun
  | @joined _ recompute r hr hpending =>
    refine h.setStage fun i hi => ?_
    cases hi
    obtain ⟨c, hc, hprocess, hunsettled⟩ := h.pending r.process recompute hpending
    exact ⟨c, hc, hprocess, hunsettled.1⟩
  | started _ hpending => exact h.start hpending
  | aggregated hc hphase =>
    have hset := h.setPhase (.aggregated (aggregate w.ledger)) hc (by simp [hphase]) nofun
    exact ⟨hset.pending, hset.unsettled, hset.waiting⟩
  | stamped hc hphase => exact h.setPhase _ hc (by simp [hphase]) nofun
  | @saved _ _ result _ hc hphase =>
    have hset := h.setPhase (.saved result) hc (by simp [hphase]) nofun
    exact ⟨hset.pending, hset.unsettled, hset.waiting⟩
  | settled hc halive hphase =>
    refine h.settle hc ⟨halive, fun result => ?_⟩
    rcases hphase with ⟨hphase, -⟩ | ⟨t, hphase, -⟩ <;> simp [hphase]
  | delivered => exact h.setStage nofun
  | refused => exact h.setStage nofun
  | forgot key => exact ⟨h.pending, h.unsettled, h.waiting⟩
  | stopped process => exact h.stop process

end Shared

section Figures

variable {w w' : World} {request recompute : ℕ} {r : Request} {c : Recompute}
  {countings : List Counting} {clock clock' : Instant}

def ttl : ℤ := PUBLIC_IMPACT_CACHE_TTL_SECONDS*1000

/-- The totals that the database gave at some time. -/
def Totalled (countings : List Counting) (totals : ImpactTotals) (clock : Instant) : Prop :=
  ∃ x ∈ countings, totals = aggregate x.rows ∧ x.countedAt ≤ clock

/-- Totals that were given before they were dated, and dated by now. -/
def Dated (countings : List Counting) (clock : Instant) (t : PublicImpactTotals) : Prop :=
  Totalled countings t.toImpactTotals t.generatedAt ∧ t.generatedAt ≤ clock

/-- Read from the cache less than the time to live after it was saved. -/
def Recent (t : PublicImpactTotals) (readAt : Instant) : Prop :=
  ∃ savedAt, t.generatedAt ≤ savedAt ∧ savedAt ≤ readAt ∧ readAt < savedAt+ttl

/-- What the phase of a recompute holds. -/
def Phase.Holds (countings : List Counting) (clock : Instant) : Phase → Prop
  | .aggregated totals => Totalled countings totals clock
  | .computed t | .saved t | .settled (some t) => Dated countings clock t
  | .computing | .settled none => True

/-- What the stage of a request holds. -/
def Stage.Holds (countings : List Counting) (clock : Instant) : Stage → Prop
  | .answered t .recomputed => Dated countings clock t
  | .answered t (.cached readAt) => Dated countings clock t ∧ Recent t readAt
  | _ => True

/-- What an entry was put with. -/
def Came (countings : List Counting) (clock : Instant) (_ : String)
    (e : Entry PublicImpactTotals Instant) : Prop :=
  Dated countings clock e.value ∧ e.value.generatedAt+ttl ≤ e.expiresAt ∧ e.expiresAt ≤ clock+ttl

structure Sound (w : World) : Prop where
  countings : ∀ x ∈ w.countings, x.rows <:+ w.ledger ∧ x.countedAt ≤ w.clock
  cached : Each (Came w.countings w.clock) w.cache
  recomputes : ∀ c ∈ w.recomputes, c.phase.Holds w.countings w.clock
  requests : ∀ r ∈ w.requests, r.stage.Holds w.countings w.clock

theorem suffix_createRow (ledger : List ImpactLedger) (row : ImpactLedger) :
    ledger <:+ createRow ledger row := by
  unfold createRow IdempotentLedger.enter
  split_ifs
  · exact List.suffix_rfl
  · exact List.suffix_cons row ledger

/-- More aggregates, or a later time. -/
structure Further (countings countings' : List Counting) (clock clock' : Instant) : Prop where
  countings : countings ⊆ countings'
  clock : clock ≤ clock'

variable {countings' : List Counting}

theorem Totalled.mono {totals : ImpactTotals} (h : Totalled countings totals clock)
    (hfurther : Further countings countings' clock clock') :
    Totalled countings' totals clock' := by
  obtain ⟨x, hx, htotals, hbefore⟩ := h
  exact ⟨x, hfurther.countings hx, htotals, le_trans hbefore hfurther.clock⟩

theorem Dated.mono {t : PublicImpactTotals} (h : Dated countings clock t)
    (hfurther : Further countings countings' clock clock') : Dated countings' clock' t :=
  ⟨h.1.mono ⟨hfurther.countings, le_refl _⟩, le_trans h.2 hfurther.clock⟩

theorem Phase.Holds.mono {phase : Phase} (h : phase.Holds countings clock)
    (hfurther : Further countings countings' clock clock') : phase.Holds countings' clock' := by
  cases phase with
  | computing => trivial
  | aggregated totals => exact Totalled.mono h hfurther
  | computed t => exact Dated.mono h hfurther
  | saved t => exact Dated.mono h hfurther
  | settled result =>
    cases result with
    | none => trivial
    | some t => exact Dated.mono h hfurther

theorem Stage.Holds.mono {stage : Stage} (h : stage.Holds countings clock)
    (hfurther : Further countings countings' clock clock') : stage.Holds countings' clock' := by
  cases stage with
  | answered t source =>
    cases source with
    | recomputed => exact Dated.mono h hfurther
    | cached readAt => exact ⟨h.1.mono hfurther, h.2⟩
  | _ => trivial

theorem Stage.Holds.lose {stage : Stage} (h : stage.Holds countings clock) :
    stage.lose.Holds countings clock := by
  cases stage with
  | answered t source => exact h
  | _ => trivial

theorem Came.mono {key : String} {e : Entry PublicImpactTotals Instant}
    (h : Came countings clock key e) (hfurther : Further countings countings' clock clock') :
    Came countings' clock' key e :=
  ⟨h.1.mono hfurther, h.2.1, le_trans h.2.2 (Int.add_le_add_right hfurther.clock ttl)⟩

/-- An entry that is read is recent. -/
theorem Came.recent {key : String} {e : Entry PublicImpactTotals Instant}
    (h : Came countings clock key e) (hlive : clock < e.expiresAt) : Recent e.value clock := by
  refine ⟨e.expiresAt-ttl, le_sub_iff_add_le.mpr h.2.1, sub_le_iff_le_add.mpr h.2.2, ?_⟩
  rw [sub_add_cancel]
  exact hlive

theorem Sound.setStage {stage : Stage} (h : Sound w)
    (hstage : stage.Holds w.countings w.clock) : Sound (w.setStage request r stage) where
  countings := h.countings
  cached := h.cached
  recomputes := h.recomputes
  requests := by
    intro q hq
    rcases List.mem_or_eq_of_mem_set hq with hq | rfl
    · exact h.requests q hq
    · exact hstage

theorem Sound.setPhase {phase : Phase} (h : Sound w)
    (hphase : phase.Holds w.countings w.clock) : Sound (w.setPhase recompute c phase) where
  countings := h.countings
  cached := h.cached
  recomputes := by
    intro c' hc'
    rcases List.mem_or_eq_of_mem_set hc' with hc' | rfl
    · exact h.recomputes c' hc'
    · exact hphase
  requests := h.requests

theorem sound_step (h : Sound w) (hstep : Stepped w w') : Sound w' := by
  -- what a recompute has come to is known from its phase
  have hholds : ∀ {i : ℕ} {c : Recompute}, w.recomputes[i]? = some c →
      c.phase.Holds w.countings w.clock := fun hc => h.recomputes _ (List.mem_of_getElem? hc)
  cases hstep with
  | inserted row =>
    refine ⟨fun x hx => ?_, h.cached, h.recomputes, h.requests⟩
    exact ⟨(h.countings x hx).1.trans (suffix_createRow w.ledger row), (h.countings x hx).2⟩
  | tick hclock =>
    have hfurther : Further w.countings w.countings w.clock _ := ⟨List.Subset.refl _, hclock⟩
    refine ⟨fun x hx => ⟨(h.countings x hx).1, le_trans (h.countings x hx).2 hclock⟩, ?_, ?_, ?_⟩
    · exact h.cached.mono fun key e he => he.mono hfurther
    · exact fun c hc => (h.recomputes c hc).mono hfurther
    · exact fun r hr => (h.requests r hr).mono hfurther
  | asked process =>
    refine ⟨h.countings, h.cached, h.recomputes, fun r hr => ?_⟩
    rcases List.mem_append.mp hr with hr | hr
    · exact h.requests r hr
    · rw [List.mem_singleton.mp hr]
      trivial
  | hit hr hget =>
    obtain ⟨e, hcame, hvalue, hlive⟩ := h.cached.get hget
    refine h.setStage ?_
    rw [← hvalue]
    exact ⟨hcame.1, hcame.recent hlive⟩
  | missed => exact h.setStage trivial
  | joined => exact h.setStage trivial
  | @started request r hr hpending =>
    have hset : Sound (w.setStage request r (.waiting w.recomputes.length)) := h.setStage trivial
    refine ⟨hset.countings, hset.cached, fun c hc => ?_, hset.requests⟩
    rcases List.mem_append.mp hc with hc | hc
    · exact h.recomputes c hc
    · rw [List.mem_singleton.mp hc]
      trivial
  | @aggregated recompute c hc hphase =>
    have hfurther : Further w.countings (⟨w.ledger, w.clock⟩ :: w.countings) w.clock w.clock :=
      ⟨List.subset_cons_self _ _, le_refl _⟩
    refine ⟨fun x hx => ?_, ?_, fun c' hc' => ?_, ?_⟩
    · rcases List.mem_cons.mp hx with rfl | hx
      · exact ⟨List.suffix_rfl, le_refl _⟩
      · exact h.countings x hx
    · exact h.cached.mono fun key e he => he.mono hfurther
    · rcases List.mem_or_eq_of_mem_set hc' with hc' | rfl
      · exact (h.recomputes c' hc').mono hfurther
      · exact ⟨_, List.mem_cons_self, rfl, le_refl _⟩
    · exact fun r hr => (h.requests r hr).mono hfurther
  | stamped hc hphase =>
    have htotals := hholds hc
    rw [hphase] at htotals
    exact h.setPhase ⟨htotals, le_refl _⟩
  | @saved recompute c result written hc hphase =>
    have hdated := hholds hc
    rw [hphase] at hdated
    have hset : Sound (w.setPhase recompute c (.saved result)) := h.setPhase hdated
    refine ⟨hset.countings, ?_, hset.recomputes, hset.requests⟩
    unfold save
    dsimp only
    split_ifs
    · exact h.cached.put ⟨hdated, Int.add_le_add_right hdated.2 ttl, le_refl _⟩
    · exact h.cached
  | @settled recompute c result hc halive hphase =>
    have hset : Sound (w.setPhase recompute c (.settled result)) := by
      rcases hphase with ⟨-, rfl⟩ | ⟨t, hphase, rfl⟩
      · exact h.setPhase trivial
      · have hdated := hholds hc
        rw [hphase] at hdated
        exact h.setPhase hdated
    exact ⟨hset.countings, hset.cached, hset.recomputes, hset.requests⟩
  | delivered hr hc hphase =>
    have hdated := hholds hc
    rw [hphase] at hdated
    exact h.setStage hdated
  | refused => exact h.setStage trivial
  | forgot key => exact ⟨h.countings, h.cached.forget key, h.recomputes, h.requests⟩
  | stopped process =>
    refine ⟨h.countings, h.cached, fun c hc => ?_, fun r hr => ?_⟩
    · obtain ⟨i, hi⟩ := List.mem_iff_getElem?.mp hc
      obtain ⟨c', hc', hphase, -⟩ := get_stop hi
      rw [← hphase]
      exact hholds hc'
    · rcases mem_requests_stop hr with ⟨hr, -⟩ | ⟨q, hq, rfl⟩
      · exact h.requests r hr
      · exact (h.requests q hq).lose

theorem coalesced_of_reachable (h : Reachable step anyStep Initial w) :
    Coalesced w ∧ Sound w := by
  refine h.invariant (I := fun w => Coalesced w ∧ Sound w)
    (fun s hinit => ⟨⟨?_, ?_, ?_⟩, ⟨?_, ?_, ?_, ?_⟩⟩) fun s a s' hs _ hstep => ⟨coalesced_step hs.1 (stepped_of_step hstep), sound_step hs.2 (stepped_of_step hstep)⟩
  · intro process i hpending
    rw [hinit.pending] at hpending
    cases hpending
  · intro i c hc
    simp [hinit.recomputes] at hc
  · intro r hr
    simp [hinit.requests] at hr
  · intro x hx
    simp [hinit.countings] at hx
  · rw [hinit.cache]
    exact each_empty
  · intro c hc
    simp [hinit.recomputes] at hc
  · intro r hr
    simp [hinit.requests] at hr

end Figures

section Results

variable {w w' : World} {request recompute : ℕ} {r : Request} {c : Recompute}

/-- What is left to do for a request that waits; saving need not reach the cache. -/
def remaining (phase : Phase) (recompute request : ℕ) : List Action :=
  match phase with
  | .computing =>
    [.aggregate recompute, .stamp recompute, .save recompute false, .settle recompute,
      .deliver request]
  | .aggregated _ =>
    [.stamp recompute, .save recompute false, .settle recompute, .deliver request]
  | .computed _ => [.save recompute false, .settle recompute, .deliver request]
  | .saved _ => [.settle recompute, .deliver request]
  | .settled _ => [.deliver request]

/-- The request has the recompute's result, or failed with it. -/
def Ended (phase : Phase) (stage : Stage) : Prop :=
  if phase = .settled none then stage = .failed else ∃ t, stage = .answered t .recomputed

/-- A request that waits for a live recompute. -/
structure Waits (w : World) (request recompute : ℕ) (r : Request) (c : Recompute) : Prop where
  request : w.requests[request]? = some r
  stage : r.stage = .waiting recompute
  recompute : w.recomputes[recompute]? = some c
  alive : c.alive = true

theorem Waits.setPhase (h : Waits w request recompute r c) (phase : Phase) :
    Waits (w.setPhase recompute c phase) request recompute r { c with phase } where
  request := h.request
  stage := h.stage
  recompute := (get_setPhase h.recompute phase recompute).trans (if_pos rfl)
  alive := h.alive

theorem settled_ends {result : Option PublicImpactTotals} (h : Waits w request recompute r c)
    (hphase : c.phase = .settled result) :
    ∃ w' stage, run step w [.deliver request] = some w' ∧
      w'.requests[request]? = some { r with stage } ∧ Ended (.settled result) stage := by
  cases result with
  | none =>
    refine ⟨w.setStage request r .failed, .failed, ?_, get_setStage h.request _, ?_⟩
    · simp only [run, step, h.request, h.stage, h.recompute, hphase]
    · exact (if_pos rfl).mpr rfl
  | some t =>
    refine ⟨w.setStage request r (.answered t .recomputed), .answered t .recomputed, ?_,
      get_setStage h.request _, ?_⟩
    · simp only [run, step, h.request, h.stage, h.recompute, hphase]
    · exact (if_neg (by simp)).mpr ⟨t, rfl⟩

theorem saved_ends {t : PublicImpactTotals} (h : Waits w request recompute r c)
    (hphase : c.phase = .saved t) :
    ∃ w' stage, run step w [.settle recompute, .deliver request] = some w' ∧
      w'.requests[request]? = some { r with stage } ∧ Ended (.saved t) stage := by
  have hset := h.setPhase (.settled (some t))
  have hwaits : Waits (settle w recompute c (some t)) request recompute r
      { c with phase := .settled (some t) } := ⟨hset.request, hset.stage, hset.recompute, hset.alive⟩
  obtain ⟨w', stage, hrun, hget, hended⟩ := settled_ends hwaits rfl
  refine ⟨w', stage, ?_, hget, ?_⟩
  · unfold run
    simp only [step, h.recompute, hphase, if_pos h.alive]
    exact hrun
  · exact (if_neg (by simp)).mpr ((if_neg (by simp)).mp hended)

theorem computed_ends {t : PublicImpactTotals} (h : Waits w request recompute r c)
    (hphase : c.phase = .computed t) :
    ∃ w' stage, run step w [.save recompute false, .settle recompute, .deliver request] = some w' ∧
      w'.requests[request]? = some { r with stage } ∧ Ended (.computed t) stage := by
  have hset := h.setPhase (.saved t)
  have hwaits : Waits (save w recompute c t false) request recompute r
      { c with phase := .saved t } := ⟨hset.request, hset.stage, hset.recompute, hset.alive⟩
  obtain ⟨w', stage, hrun, hget, hended⟩ := saved_ends hwaits rfl
  refine ⟨w', stage, ?_, hget, ?_⟩
  · unfold run
    simp only [step, h.recompute, hphase]
    exact hrun
  · exact (if_neg (by simp)).mpr ((if_neg (by simp)).mp hended)

theorem aggregated_ends {totals : ImpactTotals} (h : Waits w request recompute r c)
    (hphase : c.phase = .aggregated totals) :
    ∃ w' stage, run step w [.stamp recompute, .save recompute false, .settle recompute,
        .deliver request] = some w' ∧
      w'.requests[request]? = some { r with stage } ∧ Ended (.aggregated totals) stage := by
  obtain ⟨w', stage, hrun, hget, hended⟩ :=
    computed_ends (h.setPhase (.computed (publicTotals totals w.clock))) rfl
  refine ⟨w', stage, ?_, hget, ?_⟩
  · unfold run
    simp only [step, h.recompute, hphase, if_pos h.alive]
    exact hrun
  · exact (if_neg (by simp)).mpr ((if_neg (by simp)).mp hended)

theorem computing_ends (h : Waits w request recompute r c) (hphase : c.phase = .computing) :
    ∃ w' stage, run step w [.aggregate recompute, .stamp recompute, .save recompute false,
        .settle recompute, .deliver request] = some w' ∧
      w'.requests[request]? = some { r with stage } ∧ Ended .computing stage := by
  have hset := h.setPhase (.aggregated (aggregate w.ledger))
  have hwaits : Waits { w.setPhase recompute c (.aggregated (aggregate w.ledger)) with
      countings := ⟨w.ledger, w.clock⟩ :: w.countings } request recompute r
      { c with phase := .aggregated (aggregate w.ledger) } :=
    ⟨hset.request, hset.stage, hset.recompute, hset.alive⟩
  obtain ⟨w', stage, hrun, hget, hended⟩ := aggregated_ends hwaits rfl
  refine ⟨w', stage, ?_, hget, ?_⟩
  · unfold run
    simp only [step, h.recompute, if_pos hphase]
    exact hrun
  · exact (if_neg (by simp)).mpr ((if_neg (by simp)).mp hended)

theorem waits_end (h : Waits w request recompute r c) :
    ∃ w' stage, run step w (remaining c.phase recompute request) = some w' ∧
      w'.requests[request]? = some { r with stage } ∧ Ended c.phase stage := by
  cases hphase : c.phase with
  | computing => exact computing_ends h hphase
  | aggregated totals => exact aggregated_ends h hphase
  | computed t => exact computed_ends h hphase
  | saved t => exact saved_ends h hphase
  | settled result => exact settled_ends h hphase

/-- In every run, however rows are inserted, the cache fails and processes
stop: a process has one recompute under way at most, and it is the pending one;
a request that waits does so for a recompute of its own process, and the
remaining steps of that recompute end the request even when the cache is out of
reach; and every answer is the aggregate over the rows of one moment, given
before its date and, from the cache, saved less than the time to live before it
was read. -/
theorem shared_figures (w : World) (h : Reachable step anyStep Initial w) :
    (∀ i c, w.recomputes[i]? = some c → c.Unsettled → w.pendingRecompute c.process = some i) ∧
      (∀ (request : ℕ) (r : Request) (recompute : ℕ), w.requests[request]? = some r →
        r.stage = .waiting recompute → ∃ c, w.recomputes[recompute]? = some c ∧
          c.process = r.process ∧ ∃ w' stage,
            run step w (remaining c.phase recompute request) = some w' ∧
              w'.requests[request]? = some { r with stage } ∧ Ended c.phase stage) ∧
      ∀ r ∈ w.requests, ∀ t source, r.stage = .answered t source →
        t.generatedAt ≤ w.clock ∧
          (∃ x ∈ w.countings, x.rows <:+ w.ledger ∧ t.toImpactTotals = aggregate x.rows ∧
            x.countedAt ≤ t.generatedAt) ∧
          ∀ readAt, source = .cached readAt → ∃ savedAt, t.generatedAt ≤ savedAt ∧
            savedAt ≤ readAt ∧ readAt < savedAt+PUBLIC_IMPACT_CACHE_TTL_SECONDS*1000 := by
  obtain ⟨hcoalesced, hsound⟩ := coalesced_of_reachable h
  refine ⟨hcoalesced.unsettled, ?_, ?_⟩
  · intro request r recompute hr hstage
    obtain ⟨c, hc, hprocess, halive⟩ := hcoalesced.waiting r (List.mem_of_getElem? hr) recompute
      hstage
    exact ⟨c, hc, hprocess, waits_end ⟨hr, hstage, hc, halive⟩⟩
  · intro r hr t source hstage
    have hholds := hsound.requests r hr
    rw [hstage] at hholds
    have hdated : Dated w.countings w.clock t := by
      cases source with
      | recomputed => exact hholds
      | cached readAt => exact hholds.1
    obtain ⟨⟨x, hx, htotals, hbefore⟩, hdate⟩ := hdated
    refine ⟨hdate, ⟨x, hx, (hsound.countings x hx).1, htotals, hbefore⟩, ?_⟩
    intro readAt hsource
    rw [hsource] at hholds
    exact hholds.2

/-- Two requests share a recompute, which saves before its process stops; a
row comes in, and a third request of another process reads the cache. -/
def landing : List Action :=
  [.getPublic 0, .getPublic 0, .lookup 0 true, .lookup 1 true, .join 0, .join 1, .aggregate 0,
    .insert ⟨7, 3, 2, ⟨2, 5000, 12000⟩⟩, .tick 10, .stamp 0, .save 0 true, .stop 0, .getPublic 1,
    .tick 299999, .lookup 2 true]

def atRest : World := ⟨[], 0, Store.empty, fun _ => none, [], [], []⟩

theorem shared_figures_landing :
    (after step atRest landing).requests.map (·.stage) =
        [.lost, .lost, .answered ⟨⟨0, 0, 0, 0⟩, 10⟩ (.cached 299999)] ∧
      (after step atRest landing).ledger.length = 1 ∧
        ∀ r ∈ (after step atRest landing).requests, ∀ t source, r.stage = .answered t source →
          t.generatedAt ≤ (after step atRest landing).clock := by
  have hreachable : Reachable step anyStep Initial (after step atRest landing) :=
    reachable_after (.start ⟨rfl, fun _ => rfl, rfl, rfl, rfl⟩) (by decide +kernel)
  refine ⟨by decide +kernel, by decide +kernel, fun r hr t source hstage => ?_⟩
  exact ((shared_figures _ hreachable).2.2 r hr t source hstage).1

end Results

end Kurtar.PublicImpact

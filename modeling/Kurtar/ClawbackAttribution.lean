import Mathlib.Data.List.Forall2
import Kurtar.SettlementMath

/-!
# Attribution of an applied clawback

The applied amount serves the external demand, then the candidates in their
order. What is left over is the excess over all demands, so the allocation
fails for an excess only. A candidate receives something only after everybody
before it is served in full.
-/

namespace Kurtar.ClawbackAttribution

open SettlementMath

/-- A candidate and its entry of the result. -/
structure EntryOf (c : ClawbackCandidate) (e : ClawbackAllocationLine) : Prop where
  reservationId : e.reservationId = c.reservationId
  nonneg : 0 ≤ e.absorbedCents
  within : e.absorbedCents ≤ remainingClawbackDemandCents c
  cumulative : e.cumulativeCents = c.otherBatchesRecoveredCents+e.absorbedCents
  /-- A line that others have not over-recovered is never over-recovered. -/
  notOver : c.otherBatchesRecoveredCents ≤ c.fullDemandCents → e.cumulativeCents ≤ c.fullDemandCents
  resolved : e.fullyResolved = true ↔ 0 < c.fullDemandCents ∧ c.fullDemandCents ≤ e.cumulativeCents

/-- Something of the remaining demand is absorbed, but not all of it. -/
def AbsorbedPartly (p : ClawbackCandidate × ClawbackAllocationLine) : Prop :=
  0 < p.2.absorbedCents ∧ p.2.absorbedCents < remainingClawbackDemandCents p.1

/-- The later entry is positive only if the earlier demand is fully absorbed. -/
def ServedBefore (p q : ClawbackCandidate × ClawbackAllocationLine) : Prop :=
  0 < q.2.absorbedCents → p.2.absorbedCents = remainingClawbackDemandCents p.1

/-- The external demand first, then the candidates in their order. -/
structure FirstInFirstOut (applied external : ℤ) (candidates : List ClawbackCandidate)
    (result : ClawbackAllocationResult) : Prop where
  entries : List.Forall₂ EntryOf candidates result.perCandidate
  exact :
    result.externalAbsorbedCents+(result.perCandidate.map (·.absorbedCents)).sum = applied
  externalPart : result.externalAbsorbedCents = min external applied
  externalFirst : ∀ e ∈ result.perCandidate, 0 < e.absorbedCents →
    result.externalAbsorbedCents = external
  served : (candidates.zip result.perCandidate).Pairwise ServedBefore
  onePartly : (candidates.zip result.perCandidate).Pairwise fun p q =>
    ¬ (AbsorbedPartly p ∧ AbsorbedPartly q)

variable {remaining : ℤ} {candidates : List ClawbackCandidate}

/-- What is left over is the excess over the candidates' demand. -/
theorem allocateCandidates_excess (h : 0 ≤ remaining) (candidates : List ClawbackCandidate) :
    (allocateCandidates remaining candidates).2 =
      max 0 (remaining-totalClawbackDemandCents candidates) := by
  induction candidates generalizing remaining with
  | nil =>
    have hz : totalClawbackDemandCents [] = 0 := rfl
    simp only [allocateCandidates]
    omega
  | cons c cs ih =>
    have hc := remainingClawbackDemandCents_nonneg c
    have ht := totalClawbackDemandCents_nonneg cs
    have hleft : 0 ≤ remaining-min remaining (remainingClawbackDemandCents c) := by omega
    have hrest := ih hleft
    simp only [allocateCandidates]
    rw [totalClawbackDemandCents_cons]
    omega

/-- One entry per candidate, in order. -/
theorem allocateCandidates_entries (h : 0 ≤ remaining) (candidates : List ClawbackCandidate) :
    List.Forall₂ EntryOf candidates (allocateCandidates remaining candidates).1 := by
  induction candidates generalizing remaining with
  | nil => exact .nil
  | cons c cs ih =>
    have hc := remainingClawbackDemandCents_nonneg c
    refine .cons ?_ (ih (by omega))
    have hdemand : remainingClawbackDemandCents c =
        max 0 (c.fullDemandCents-c.otherBatchesRecoveredCents) := rfl
    exact
      { reservationId := rfl
        nonneg := by dsimp only; omega
        within := min_le_right _ _
        cumulative := rfl
        notOver := by dsimp only; omega
        resolved := decide_eq_true_iff }

/-- Nothing offered, nothing absorbed. -/
theorem allocateCandidates_nothing (candidates : List ClawbackCandidate) :
    ∀ e ∈ (allocateCandidates 0 candidates).1, e.absorbedCents = 0 := by
  induction candidates with
  | nil => simp [allocateCandidates]
  | cons c cs ih =>
    have hc := remainingClawbackDemandCents_nonneg c
    have hz : min 0 (remainingClawbackDemandCents c) = 0 := by omega
    intro e he
    simp only [allocateCandidates, List.mem_cons, hz, sub_zero] at he
    rcases he with rfl | he
    · rfl
    · exact ih e he

/-- Once a candidate leaves something, it is served in full. -/
theorem allocateCandidates_served (h : 0 ≤ remaining) (candidates : List ClawbackCandidate) :
    (candidates.zip (allocateCandidates remaining candidates).1).Pairwise ServedBefore := by
  induction candidates generalizing remaining with
  | nil => simp [allocateCandidates]
  | cons c cs ih =>
    have hc := remainingClawbackDemandCents_nonneg c
    simp only [allocateCandidates, List.zip_cons_cons, List.pairwise_cons]
    refine ⟨?_, ih (by omega)⟩
    intro q hq hpositive
    have hentry := (List.of_mem_zip hq).2
    dsimp only
    by_cases hall : remaining ≤ remainingClawbackDemandCents c
    · -- this candidate takes all that is left, so the later ones get nothing
      have hrest : remaining-min remaining (remainingClawbackDemandCents c) = 0 := by omega
      rw [hrest] at hentry
      have hzero := allocateCandidates_nothing cs q.2 hentry
      omega
    · omega

theorem onePartly_of_served {pairs : List (ClawbackCandidate × ClawbackAllocationLine)}
    (h : pairs.Pairwise ServedBefore) :
    pairs.Pairwise fun p q => ¬ (AbsorbedPartly p ∧ AbsorbedPartly q) := by
  refine h.imp ?_
  intro p q hserved hpartly
  have hfull := hserved hpartly.2.1
  exact hpartly.1.2.ne hfull

/-- The allocation throws exactly when the applied amount exceeds all demands;
otherwise it is exact and first-in first-out. -/
theorem allocateClawback_firstInFirstOut {applied external : ℤ} (ha : 0 ≤ applied)
    (he : 0 ≤ external) (candidates : List ClawbackCandidate) :
    ((∃ error, allocateClawback applied external candidates = .error error) ↔
      external+totalClawbackDemandCents candidates < applied) ∧
    ∀ result, allocateClawback applied external candidates = .ok result →
      FirstInFirstOut applied external candidates result := by
  have hoffer : 0 ≤ applied-min external applied := by omega
  have htotal := totalClawbackDemandCents_nonneg candidates
  have hexcess := allocateCandidates_excess hoffer candidates
  have hsum := allocateCandidates_sum (applied-min external applied) candidates
  by_cases hfits : applied ≤ external+totalClawbackDemandCents candidates
  · have hok := allocateClawback_succeeds ha he hfits
    refine ⟨⟨?_, fun hover => absurd hfits (not_le.mpr hover)⟩, ?_⟩
    · rintro ⟨error, herror⟩
      rw [hok] at herror
      cases herror
    · intro result hresult
      rw [hok] at hresult
      have hvalue := (Except.ok.inj hresult).symm
      have hserved := allocateCandidates_served hoffer candidates
      rw [hvalue]
      exact
        { entries := allocateCandidates_entries hoffer candidates
          exact := by dsimp only; omega
          externalPart := rfl
          externalFirst := by
            intro e hmem hpositive
            by_cases hall : applied ≤ external
            · have hzero : applied-min external applied = 0 := by omega
              rw [hzero] at hmem
              have hnothing := allocateCandidates_nothing candidates e hmem
              omega
            · exact min_eq_left (by omega)
          served := hserved
          onePartly := onePartly_of_served hserved }
  · have hleft : (allocateCandidates (applied-min external applied) candidates).2 ≠ 0 := by omega
    have herror : allocateClawback applied external candidates =
        .error (.unattributedClawback
          (allocateCandidates (applied-min external applied) candidates).2 applied external) := by
      simp [allocateClawback, hleft, not_lt.mpr ha, not_lt.mpr he]
    refine ⟨⟨fun _ => by omega, fun _ => ⟨_, herror⟩⟩, ?_⟩
    intro result hresult
    rw [herror] at hresult
    cases hresult

/-- Three candidates, the second of them recovered in part before. -/
theorem allocateClawback_firstInFirstOut_three :
    FirstInFirstOut 1000 300 [⟨1, 500, 0⟩, ⟨2, 700, 100⟩, ⟨3, 9, 0⟩]
      ⟨300, [⟨1, 500, 500, true⟩, ⟨2, 200, 300, false⟩, ⟨3, 0, 0, false⟩]⟩ :=
  (allocateClawback_firstInFirstOut (by decide) (by decide) _).2 _ rfl

end Kurtar.ClawbackAttribution

import Mathlib.Algebra.Order.Group.Int
import Mathlib.Data.Int.Init

/-!
# Counting selected integers

How many integers of a half-open interval a predicate selects, and the first
end of the interval at which the count reaches a number. The end is monotone
in the start, strictly monotone in the number, and reached in two stages.
-/

namespace Kurtar.SelectedSteps

variable (p : ℤ → Bool)

/-- Number of selected integers of `(d, r]`. -/
def countIn (d r : ℤ) : ℕ := (List.range (r-d).toNat).countP fun i : ℕ => p (d+1+i)

/-- `r` is the first end, from `d` on, of an interval with `n` selected members. -/
structure NthAfter (d : ℤ) (n : ℕ) (r : ℤ) : Prop where
  start : d ≤ r
  count : countIn p d r = n
  first : ∀ s, d ≤ s → countIn p d s = n → r ≤ s

variable {p} {d e m r s : ℤ} {a b n : ℕ}

@[simp]
theorem countIn_self : countIn p d d = 0 := by
  simp [countIn]

/-- The last integer of the interval counts when it is selected. -/
theorem countIn_succ (h : d ≤ r) :
    countIn p d (r+1) = countIn p d r+if p (r+1) = true then 1 else 0 := by
  have hlength : (r+1-d).toNat = (r-d).toNat+1 := by omega
  have hlast : d+1+((r-d).toNat : ℤ) = r+1 := by omega
  rw [countIn, hlength, List.range_succ, List.countP_append, List.countP_singleton, hlast, countIn]

/-- Adjacent intervals add. -/
theorem countIn_add (hd : d ≤ m) (hm : m ≤ r) :
    countIn p d r = countIn p d m+countIn p m r := by
  induction r, hm using Int.leInduction with
  | base => rw [countIn_self, Nat.add_zero]
  | succ r hr ih =>
    have hleft := countIn_succ (p := p) (hd.trans hr)
    have hright := countIn_succ (p := p) hr
    omega

theorem countIn_first (h : d < r) :
    countIn p d r = (if p (d+1) = true then 1 else 0)+countIn p (d+1) r := by
  have hone := countIn_succ (p := p) (le_refl d)
  rw [countIn_self, Nat.zero_add] at hone
  rw [countIn_add (by omega : d ≤ d+1) (by omega : d+1 ≤ r), hone]

/-- A selected end makes the count exceed every shorter one. -/
theorem countIn_lt (hd : d ≤ s) (hs : s < r) (hp : p r = true) :
    countIn p d s < countIn p d r := by
  have hsplit := countIn_add (p := p) hd (by omega : s ≤ r-1)
  have hlast := countIn_succ (p := p) (by omega : d ≤ r-1)
  rw [sub_add_cancel, if_pos hp] at hlast
  omega

/-- The first end is the start itself or selected. -/
theorem nthAfter_iff : NthAfter p d n r ↔ d ≤ r ∧ countIn p d r = n ∧ (r = d ∨ p r = true) := by
  constructor
  · intro h
    refine ⟨h.start, h.count, ?_⟩
    by_contra hlast
    rw [not_or] at hlast
    have hstart := h.start
    have hstep := countIn_succ (p := p) (by omega : d ≤ r-1)
    rw [sub_add_cancel, if_neg hlast.2, h.count, Nat.add_zero] at hstep
    have hfirst := h.first (r-1) (by omega) hstep.symm
    omega
  · intro ⟨hstart, hcount, hlast⟩
    refine ⟨hstart, hcount, fun s hs hn => ?_⟩
    by_contra hlt
    cases hlast with
    | inl heq => omega
    | inr hp =>
      have hless := countIn_lt hs (by omega : s < r) hp
      omega

theorem NthAfter.zero : NthAfter p d 0 d :=
  nthAfter_iff.mpr ⟨le_refl d, countIn_self, Or.inl rfl⟩

/-- An end with at least that many members is not before the first. -/
theorem NthAfter.le_of_count (h : NthAfter p d n r) (hs : d ≤ s) (hn : n ≤ countIn p d s) :
    r ≤ s := by
  have hlast := (nthAfter_iff.mp h).2.2
  have hcount := h.count
  by_contra hlt
  cases hlast with
  | inl heq => omega
  | inr hp =>
    have hless := countIn_lt hs (by omega : s < r) hp
    omega

theorem NthAfter.unique (h : NthAfter p d n r) (h' : NthAfter p d n s) : r = s :=
  le_antisymm (h.first s h'.start h'.count) (h'.first r h.start h.count)

/-- Beyond no members at all, the first end is selected. -/
theorem NthAfter.selected (h : NthAfter p d n r) (hn : 0 < n) : p r = true := by
  have hcount := h.count
  cases (nthAfter_iff.mp h).2.2 with
  | inl heq =>
    rw [heq, countIn_self] at hcount
    omega
  | inr hp => exact hp

/-- Counting on from a first end. -/
theorem NthAfter.trans (h : NthAfter p d a m) (h' : NthAfter p m b r) : NthAfter p d (a+b) r := by
  have hsum := countIn_add (p := p) h.start h'.start
  rw [h.count, h'.count] at hsum
  refine nthAfter_iff.mpr ⟨h.start.trans h'.start, hsum, ?_⟩
  cases (nthAfter_iff.mp h').2.2 with
  | inl heq =>
    rw [heq]
    exact (nthAfter_iff.mp h).2.2
  | inr hp => exact Or.inr hp

/-- A later start does not end earlier. -/
theorem NthAfter.le_of_start (h : NthAfter p d n r) (h' : NthAfter p e n s) (hde : d ≤ e) :
    r ≤ s := by
  have hsum := countIn_add (p := p) hde h'.start
  have hcount := h'.count
  exact h.le_of_count (hde.trans h'.start) (by omega)

/-- More members end strictly later. -/
theorem NthAfter.lt_of_count (h : NthAfter p d a r) (h' : NthAfter p d b s) (hab : a < b) :
    r < s := by
  by_contra hle
  have hsum := countIn_add (p := p) h'.start (by omega : s ≤ r)
  have hr := h.count
  have hs := h'.count
  omega

/-- One step of the search: the next integer is counted or passed over. -/
theorem nthAfter_step : NthAfter p d (n+1) r ↔
    NthAfter p (d+1) (if p (d+1) = true then n else n+1) r := by
  have hrest (h : d < r) : countIn p d r = n+1 ↔
      countIn p (d+1) r = if p (d+1) = true then n else n+1 := by
    rw [countIn_first h]
    by_cases hp : p (d+1) = true
    · rw [if_pos hp, if_pos hp]
      omega
    · rw [if_neg hp, if_neg hp, Nat.zero_add]
  constructor
  · intro h
    have hcount := h.count
    have hstart := h.start
    have hne : r ≠ d := fun heq => by
      rw [heq, countIn_self] at hcount
      omega
    have hlt : d < r := by omega
    exact nthAfter_iff.mpr ⟨by omega, (hrest hlt).mp hcount, Or.inr (h.selected (Nat.succ_pos n))⟩
  · intro h
    have hstart := h.start
    have hcount := h.count
    refine nthAfter_iff.mpr ⟨by omega, (hrest (by omega)).mpr hcount, Or.inr ?_⟩
    cases (nthAfter_iff.mp h).2.2 with
    | inr hp => exact hp
    | inl heq =>
      by_contra hp
      rw [heq] at hp
      rw [if_neg hp, heq, countIn_self] at hcount
      omega

/-- Every count up to that of an interval is reached inside it. -/
theorem exists_of_le_count (hs : d ≤ s) (hn : n ≤ countIn p d s) : ∃ r, NthAfter p d n r := by
  induction s, hs using Int.leInduction with
  | base =>
    rw [countIn_self, Nat.le_zero] at hn
    rw [hn]
    exact ⟨d, NthAfter.zero⟩
  | succ s hs ih =>
    by_cases hbefore : n ≤ countIn p d s
    · exact ih hbefore
    · have hone := countIn_succ (p := p) hs
      by_cases hp : p (s+1) = true
      · rw [if_pos hp] at hone
        exact ⟨s+1, nthAfter_iff.mpr ⟨by omega, by omega, Or.inr hp⟩⟩
      · rw [if_neg hp] at hone
        omega

/-- Where selected integers never run out, every number is reached. -/
theorem exists_nthAfter (h : ∀ k, ∃ k', k < k' ∧ p k' = true) (d : ℤ) (n : ℕ) :
    ∃ r, NthAfter p d n r := by
  induction n with
  | zero => exact ⟨d, NthAfter.zero⟩
  | succ n ih =>
    obtain ⟨r, hr⟩ := ih
    obtain ⟨k, hk, hp⟩ := h r
    have hmore := countIn_lt hr.start hk hp
    rw [hr.count] at hmore
    have hstart := hr.start
    exact exists_of_le_count (by omega : d ≤ k) hmore

end Kurtar.SelectedSteps

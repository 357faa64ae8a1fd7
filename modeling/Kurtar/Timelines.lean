import Mathlib.Data.List.Basic

/-!
# Timelines of a changing state

A timeline keeps every value that a state has had, in order. A change adds a
value and moves none, so what was read at some moment stays the value of that
moment. The processes that see the values stand in a list, and one of them moves
at a time.
-/

namespace Kurtar.Timelines

variable {σ : Type*}

/-- What stands in a list with one element more. -/
theorem getElem?_concat_cases {l : List σ} {x y : σ} {k : ℕ}
    (h : (l ++ [x])[k]? = some y) : l[k]? = some y ∨ k = l.length ∧ y = x := by
  by_cases hk : k < l.length
  · exact Or.inl ((List.getElem?_append_left hk).symm.trans h)
  · rw [List.getElem?_append_right (Nat.le_of_not_lt hk)] at h
    obtain ⟨hlt, hget⟩ := List.getElem?_eq_some_iff.mp h
    have hlast : k-l.length = 0 := by simpa using hlt
    refine Or.inr ⟨by omega, ?_⟩
    simpa [hlast] using hget.symm

structure Timeline (σ : Type*) where
  past : List σ
  now : σ

namespace Timeline

variable {t : Timeline σ} {i : ℕ} {s s' : σ}

/-- The number of the present moment. -/
def moment (t : Timeline σ) : ℕ := t.past.length

/-- The value at a moment. -/
def at? (t : Timeline σ) (i : ℕ) : Option σ := (t.past ++ [t.now])[i]?

def change (t : Timeline σ) (s : σ) : Timeline σ := ⟨t.past ++ [t.now], s⟩

theorem at?_moment (t : Timeline σ) : t.at? t.moment = some t.now := List.getElem?_concat_length

theorem moment_change (t : Timeline σ) (s : σ) : (t.change s).moment = t.moment+1 :=
  List.length_append

theorem moment_le_change (t : Timeline σ) (s : σ) : t.moment ≤ (t.change s).moment := by
  rw [moment_change]
  exact Nat.le_succ _

/-- What was stays what it was. -/
theorem at?_change (h : t.at? i = some s) (s' : σ) : (t.change s').at? i = some s :=
  (List.getElem?_append_left (List.getElem?_eq_some_iff.mp h).1).trans h

theorem le_moment (h : t.at? i = some s) : i ≤ t.moment := by
  have hlt := (List.getElem?_eq_some_iff.mp h).1
  rw [List.length_append, List.length_singleton] at hlt
  exact Nat.le_of_lt_succ hlt

theorem exists_at? (h : i ≤ t.moment) : ∃ s, t.at? i = some s := by
  have hlt : i < (t.past ++ [t.now]).length := by
    rw [List.length_append, List.length_singleton]
    exact Nat.lt_succ_of_le h
  exact ⟨_, List.getElem?_eq_getElem hlt⟩

/-- Each value is related to all that come after it. -/
def Along (R : σ → σ → Prop) (t : Timeline σ) : Prop :=
  ∀ i j s s', i ≤ j → t.at? i = some s → t.at? j = some s' → R s s'

theorem along_of_past {R : σ → σ → Prop} (h : t.past = []) (hrefl : ∀ s, R s s) : t.Along R := by
  intro i j s s' _ hi hj
  rw [at?, h, List.nil_append] at hi hj
  rw [List.mem_singleton.mp (List.mem_of_getElem? hi),
    List.mem_singleton.mp (List.mem_of_getElem? hj)]
  exact hrefl _

/-- A change that is related to the present is related to all of the past. -/
theorem Along.change {R : σ → σ → Prop} (h : t.Along R) (hrefl : ∀ s, R s s)
    (htrans : ∀ s s' s'', R s s' → R s' s'' → R s s'') (hs : R t.now s) : (t.change s).Along R := by
  have hold : ∀ {i : ℕ} {s' : σ}, (t.change s).at? i = some s' →
      t.at? i = some s' ∨ i = t.moment+1 ∧ s' = s := by
    intro i s' hi
    rcases getElem?_concat_cases hi with hpast | ⟨hlast, hnow⟩
    · exact Or.inl hpast
    · exact Or.inr ⟨hlast.trans (moment_change t s), hnow⟩
  intro i j s₁ s₂ hij hi hj
  rcases hold hj with hold₂ | ⟨-, rfl⟩
  · rcases hold hi with hold₁ | ⟨hlast, rfl⟩
    · exact h i j s₁ s₂ hij hold₁ hold₂
    · rw [hlast] at hij
      exact absurd (Nat.le_trans hij (le_moment hold₂)) (Nat.not_succ_le_self _)
  · rcases hold hi with hold₁ | ⟨-, rfl⟩
    · exact htrans _ _ _ (h i t.moment s₁ t.now (le_moment hold₁) hold₁ t.at?_moment) hs
    · exact hrefl _

end Timeline

section Processes

variable {π : Type*}

/-- What a count of processes gains when one of them becomes another. -/
theorem countP_set_add (p : π → Bool) {l : List π} {n : ℕ} {a : π} (h : l[n]? = some a) (b : π) :
    (l.set n b).countP p+(p a).toNat = l.countP p+(p b).toNat := by
  induction l generalizing n with
  | nil => simp at h
  | cons c l ih =>
    cases n with
    | zero =>
      cases h
      rw [List.set_cons_zero, List.countP_cons, List.countP_cons]
      cases p b <;> cases p a <;> simp
    | succ n =>
      have hrest := ih h
      rw [List.set_cons_succ, List.countP_cons, List.countP_cons]
      omega

end Processes

end Kurtar.Timelines

import Mathlib.Data.List.MinMax
import Mathlib.Data.List.Nodup
import Mathlib.Algebra.BigOperators.Group.List.Basic
import Mathlib.Algebra.Order.BigOperators.Group.List
import Mathlib.Algebra.Order.Group.Int
import Mathlib.Algebra.BigOperators.Group.Finset.Basic
import Mathlib.Tactic.Ring

/-!
# Tables of keyed rows

A table is a list of rows whose keys are pairwise different, so that a
primary key or a unique index can never be violated by a stored value.
The write operations are those of a relational store: an insert that skips
duplicates, a guarded update that leaves keys alone, and a delete. The
aggregate `sumOn` is the conditional integer sum of a column; the lemmas
say how each write moves it.
-/

namespace Kurtar.KeyedTable

variable {κ ρ : Type*}

/-- The greatest row under a strict order, the first of several. -/
def greatest (lt : ρ → ρ → Prop) [DecidableRel lt] (rows : List ρ) : Option ρ :=
  rows.foldl (List.argAux fun a b => lt b a) none

theorem mem_of_greatest {lt : ρ → ρ → Prop} [DecidableRel lt] {rows : List ρ} {r : ρ}
    (h : greatest lt rows = some r) : r ∈ rows := by
  induction rows using List.reverseRecOn with
  | nil => cases h
  | append_singleton rows a ih =>
    rw [greatest, List.foldl_append] at h
    change List.argAux (fun a b => lt b a) (greatest lt rows) a = some r at h
    cases hg : greatest lt rows with
    | none =>
      rw [hg] at h
      cases h
      exact List.mem_append_right _ List.mem_cons_self
    | some c =>
      rw [hg] at h ih
      change (if lt c a then some a else some c) = some r at h
      split_ifs at h
      · cases h
        exact List.mem_append_right _ List.mem_cons_self
      · exact List.mem_append_left _ (ih h)

/-- Rows with pairwise different keys, in insertion order. -/
structure Table (key : ρ → κ) where
  /-- The stored rows. -/
  rows : List ρ
  /-- No two rows share a key. -/
  keys_nodup : (rows.map key).Nodup

namespace Table

variable {key : ρ → κ}

/-- The table without rows. -/
def empty : Table key := ⟨[], List.nodup_nil⟩

instance : Inhabited (Table key) := ⟨empty⟩

@[simp] theorem rows_empty : (empty : Table key).rows = [] := rfl

/-- Rows of one table with the same key are the same row. -/
theorem eq_of_key_eq (t : Table key) {r s : ρ} (hr : r ∈ t.rows) (hs : s ∈ t.rows)
    (h : key r = key s) : r = s :=
  List.inj_on_of_nodup_map t.keys_nodup hr hs h

/-- Guarded update: rows satisfying `p` are rewritten by a key-preserving map. -/
def updateMany (t : Table key) (p : ρ → Prop) [DecidablePred p] (f : ρ → ρ)
    (hf : ∀ r, key (f r) = key r) : Table key where
  rows := t.rows.map fun r => if p r then f r else r
  keys_nodup := by
    have hk : (t.rows.map fun r => if p r then f r else r).map key = t.rows.map key := by
      rw [List.map_map]
      apply List.map_congr_left
      intro r _
      by_cases hp : p r <;> simp [hp, hf]
    rw [hk]
    exact t.keys_nodup

/-- Delete every row satisfying `p`. -/
def deleteMany (t : Table key) (p : ρ → Prop) [DecidablePred p] : Table key where
  rows := t.rows.filter fun r => ¬ p r
  keys_nodup := (t.rows.filter_sublist.map key).nodup t.keys_nodup

theorem eq_of_rows_eq {t u : Table key} (h : t.rows = u.rows) : t = u := by
  cases t
  cases u
  cases h
  rfl

theorem mem_deleteMany {t : Table key} {p : ρ → Prop} [DecidablePred p] {r : ρ} :
    r ∈ (t.deleteMany p).rows ↔ r ∈ t.rows ∧ ¬ p r := by
  simp [deleteMany]

section DecidableKeys

variable [DecidableEq κ]

/-- The row stored under a key. -/
def find? (t : Table key) (k : κ) : Option ρ := t.rows.find? fun r => decide (key r = k)

/-- Insert a row unless its key is taken. -/
def insertNew (t : Table key) (r : ρ) : Table key :=
  if h : ∃ s ∈ t.rows, key s = key r then t
  else
    { rows := t.rows ++ [r]
      keys_nodup := by
        rw [List.map_append, List.map_singleton]
        refine List.nodup_append.mpr ⟨t.keys_nodup, List.nodup_singleton _, ?_⟩
        intro a ha b hb hab
        obtain ⟨s, hs, rfl⟩ := List.mem_map.mp ha
        exact h ⟨s, hs, hab.trans (List.mem_singleton.mp hb)⟩ }

/-- Insert the rows in order, skipping those whose key is taken. -/
def insertMany (t : Table key) (rs : List ρ) : Table key := rs.foldl insertNew t

theorem find?_eq_some {t : Table key} {k : κ} {r : ρ} :
    t.find? k = some r ↔ r ∈ t.rows ∧ key r = k := by
  constructor
  · intro h
    have hk := List.find?_some h
    exact ⟨List.mem_of_find?_eq_some h, by simpa using hk⟩
  · rintro ⟨hr, rfl⟩
    cases hs : t.find? (key r) with
    | none =>
      have hn := List.find?_eq_none.mp hs r hr
      simp at hn
    | some s =>
      have hk := List.find?_some hs
      have he : key s = key r := by simpa using hk
      rw [t.eq_of_key_eq (List.mem_of_find?_eq_some hs) hr he]

theorem find?_of_mem {t : Table key} {r : ρ} (hr : r ∈ t.rows) : t.find? (key r) = some r :=
  find?_eq_some.mpr ⟨hr, rfl⟩

theorem find?_eq_none {t : Table key} {k : κ} :
    t.find? k = none ↔ ∀ r ∈ t.rows, key r ≠ k := by
  simp [find?]

/-- A guarded update rewrites the row found, if any. -/
theorem find?_updateMany (t : Table key) (p : ρ → Prop) [DecidablePred p] (f : ρ → ρ)
    (hf : ∀ r, key (f r) = key r) (k : κ) :
    (t.updateMany p f hf).find? k = (t.find? k).map fun r => if p r then f r else r := by
  rw [find?, find?, updateMany, List.find?_map]
  congr 2
  funext r
  by_cases hp : p r <;> simp [hp, hf]

/-- An update of the row under one key. -/
theorem find?_updateMany_key (t : Table key) (k : κ) (f : ρ → ρ) (hf : ∀ r, key (f r) = key r)
    (k' : κ) : (t.updateMany (fun r => key r = k) f hf).find? k' =
      if k' = k then (t.find? k').map f else t.find? k' := by
  rw [find?_updateMany]
  cases hfind : t.find? k' with
  | none => simp
  | some r =>
    have hkey := (find?_eq_some.mp hfind).2
    by_cases hk : k' = k <;> simp [hkey, hk]

theorem insertNew_of_taken {t : Table key} {r : ρ} (h : ∃ s ∈ t.rows, key s = key r) :
    t.insertNew r = t := dif_pos h

theorem rows_insertNew_of_fresh {t : Table key} {r : ρ} (h : ∀ s ∈ t.rows, key s ≠ key r) :
    (t.insertNew r).rows = t.rows ++ [r] := by
  have hn : ¬ ∃ s ∈ t.rows, key s = key r := by
    rintro ⟨s, hs, hk⟩
    exact h s hs hk
  rw [insertNew, dif_neg hn]

theorem mem_insertNew {t : Table key} {r s : ρ} :
    s ∈ (t.insertNew r).rows ↔ s ∈ t.rows ∨ s = r ∧ ∀ q ∈ t.rows, key q ≠ key r := by
  by_cases h : ∃ q ∈ t.rows, key q = key r
  · rw [insertNew_of_taken h]
    obtain ⟨q, hq, hk⟩ := h
    constructor
    · exact Or.inl
    · rintro (hs | ⟨_, hn⟩)
      · exact hs
      · exact absurd hk (hn q hq)
  · have hn : ∀ q ∈ t.rows, key q ≠ key r := fun q hq hk => h ⟨q, hq, hk⟩
    rw [rows_insertNew_of_fresh hn, List.mem_append, List.mem_singleton]
    exact or_congr_right ⟨fun hs => ⟨hs, hn⟩, And.left⟩

theorem mem_of_mem_insertMany {t : Table key} {rs : List ρ} {s : ρ}
    (h : s ∈ (t.insertMany rs).rows) :
    s ∈ t.rows ∨ s ∈ rs ∧ ∀ q ∈ t.rows, key q ≠ key s := by
  induction rs generalizing t with
  | nil => exact Or.inl h
  | cons r rs ih =>
    rcases ih h with hs | ⟨hs, hn⟩
    · rcases mem_insertNew.mp hs with hs | ⟨rfl, hn⟩
      · exact Or.inl hs
      · exact Or.inr ⟨List.mem_cons_self, hn⟩
    · refine Or.inr ⟨List.mem_cons_of_mem r hs, fun q hq => hn q (mem_insertNew.mpr (Or.inl hq))⟩

theorem mem_insertMany_of_mem {t : Table key} {rs : List ρ} {s : ρ} (h : s ∈ t.rows) :
    s ∈ (t.insertMany rs).rows := by
  induction rs generalizing t with
  | nil => exact h
  | cons r rs ih => exact ih (mem_insertNew.mpr (Or.inl h))

/-- Rows whose keys are taken are skipped. -/
theorem insertMany_of_taken {t : Table key} {rs : List ρ}
    (h : ∀ r ∈ rs, ∃ s ∈ t.rows, key s = key r) : t.insertMany rs = t := by
  induction rs with
  | nil => rfl
  | cons r rs ih =>
    rw [insertMany, List.foldl_cons, insertNew_of_taken (h r List.mem_cons_self)]
    exact ih fun q hq => h q (List.mem_cons_of_mem r hq)

/-- Inserting rows whose keys are fresh and pairwise different appends them all. -/
theorem rows_insertMany_of_fresh {t : Table key} {rs : List ρ}
    (hfresh : ∀ r ∈ rs, ∀ s ∈ t.rows, key s ≠ key r) (hnodup : (rs.map key).Nodup) :
    (t.insertMany rs).rows = t.rows ++ rs := by
  induction rs generalizing t with
  | nil => simp [insertMany]
  | cons r rs ih =>
    rw [List.map_cons, List.nodup_cons] at hnodup
    have hr := rows_insertNew_of_fresh (hfresh r List.mem_cons_self)
    have hrest : ∀ q ∈ rs, ∀ s ∈ (t.insertNew r).rows, key s ≠ key q := by
      intro q hq s hs
      rw [hr] at hs
      rcases List.mem_append.mp hs with hs | hs
      · exact hfresh q (List.mem_cons_of_mem r hq) s hs
      · rw [List.mem_singleton.mp hs]
        intro hk
        exact hnodup.1 (List.mem_map.mpr ⟨q, hq, hk.symm⟩)
    change ((t.insertNew r).insertMany rs).rows = _
    rw [ih hrest hnodup.2, hr, List.append_assoc, List.singleton_append]

/-- After the inserts every key of the inserted rows is taken. -/
theorem exists_key_of_insertMany {t : Table key} {rs : List ρ} {r : ρ} (h : r ∈ rs) :
    ∃ s ∈ (t.insertMany rs).rows, key s = key r := by
  induction rs generalizing t with
  | nil => cases h
  | cons q rs ih =>
    rcases List.mem_cons.mp h with rfl | h
    · by_cases hr : ∃ s ∈ t.rows, key s = key r
      · obtain ⟨s, hs, hk⟩ := hr
        exact ⟨s, mem_insertMany_of_mem hs, hk⟩
      · have hn : ∀ s ∈ t.rows, key s ≠ key r := fun s hs hk => hr ⟨s, hs, hk⟩
        exact ⟨r, mem_insertMany_of_mem (t := t.insertNew r) (mem_insertNew.mpr (Or.inr ⟨rfl, hn⟩)),
          rfl⟩
    · exact ih h

/-- Inserted rows that are not selected leave the selection as it was. -/
theorem filter_insertMany {t : Table key} {rs : List ρ} {p : ρ → Prop} [DecidablePred p]
    (h : ∀ r ∈ rs, ¬ p r) :
    (t.insertMany rs).rows.filter (fun r => p r) = t.rows.filter fun r => p r := by
  induction rs generalizing t with
  | nil => rfl
  | cons r rs ih =>
    change ((t.insertNew r).insertMany rs).rows.filter (fun r => p r) = _
    rw [ih fun q hq => h q (List.mem_cons_of_mem r hq)]
    by_cases hr : ∃ s ∈ t.rows, key s = key r
    · rw [insertNew_of_taken hr]
    · have hn : ∀ s ∈ t.rows, key s ≠ key r := fun s hs hk => hr ⟨s, hs, hk⟩
      rw [rows_insertNew_of_fresh hn, List.filter_append, List.filter_singleton]
      simp [h r List.mem_cons_self]

/-- An insert does not disturb a key that is already taken. -/
theorem find?_insertNew_self {t : Table key} {r : ρ} (h : t.find? (key r) = none) :
    (t.insertNew r).find? (key r) = some r :=
  find?_eq_some.mpr ⟨mem_insertNew.mpr (Or.inr ⟨rfl, find?_eq_none.mp h⟩), rfl⟩

theorem find?_insertNew_of_ne {t : Table key} {k : κ} {r : ρ} (hk : key r ≠ k) :
    (t.insertNew r).find? k = t.find? k := by
  by_cases h : ∃ s ∈ t.rows, key s = key r
  · rw [insertNew_of_taken h]
  · have hfresh : ∀ s ∈ t.rows, key s ≠ key r := fun s hs he => h ⟨s, hs, he⟩
    rw [find?, find?, rows_insertNew_of_fresh hfresh, List.find?_append]
    simp [hk]

theorem find?_insertNew_of_some {t : Table key} {k : κ} {r s : ρ} (h : t.find? k = some s) :
    (t.insertNew r).find? k = some s := by
  obtain ⟨hs, hk⟩ := find?_eq_some.mp h
  exact find?_eq_some.mpr ⟨mem_insertNew.mpr (Or.inl hs), hk⟩

end DecidableKeys

/-- Conditional sum of an integer column. -/
def sumOn (t : Table key) (p : ρ → Prop) [DecidablePred p] (f : ρ → ℤ) : ℤ :=
  (t.rows.map fun r => if p r then f r else 0).sum

section Sums

variable {t : Table key} {p q : ρ → Prop} [DecidablePred p] [DecidablePred q] {f g : ρ → ℤ}

theorem sumOn_congr {u : Table key} (hrows : t.rows = u.rows)
    (h : ∀ r ∈ t.rows, (if p r then f r else 0) = if q r then g r else 0) :
    t.sumOn p f = u.sumOn q g := by
  rw [sumOn, sumOn, ← hrows, List.map_congr_left h]

/-- A conditional sum adds up the selected rows. -/
theorem sumOn_eq_sum_filter (t : Table key) (p : ρ → Prop) [DecidablePred p] (f : ρ → ℤ) :
    t.sumOn p f = ((t.rows.filter fun r => p r).map f).sum := by
  unfold sumOn
  induction t.rows with
  | nil => rfl
  | cons r rows ih =>
    by_cases hp : p r
    · rw [List.filter_cons_of_pos (by simpa using hp), List.map_cons, List.map_cons,
        List.sum_cons, List.sum_cons, ih, if_pos hp]
    · rw [List.filter_cons_of_neg (by simpa using hp), List.map_cons, List.sum_cons, ih,
        if_neg hp, zero_add]

/-- A conditional sum depends on the selected rows only, not on their order. -/
theorem sumOn_of_selected_iff {u : Table key} (h : ∀ r, p r → (r ∈ u.rows ↔ r ∈ t.rows)) :
    u.sumOn p f = t.sumOn p f := by
  have hu := (u.keys_nodup.of_map _).filter fun r => decide (p r)
  have ht := (t.keys_nodup.of_map _).filter fun r => decide (p r)
  rw [sumOn_eq_sum_filter, sumOn_eq_sum_filter]
  refine (((List.perm_ext_iff_of_nodup hu ht).mpr ?_).map f).sum_eq
  intro r
  rw [List.mem_filter, List.mem_filter]
  by_cases hp : p r
  · simp [hp, h r hp]
  · simp [hp]

theorem sumOn_of_mem_iff {u : Table key} (h : ∀ r, r ∈ u.rows ↔ r ∈ t.rows) :
    u.sumOn p f = t.sumOn p f := sumOn_of_selected_iff fun r _ => h r

theorem sumOn_eq_zero (h : ∀ r ∈ t.rows, ¬ p r) : t.sumOn p f = 0 := by
  apply List.sum_eq_zero
  intro x hx
  obtain ⟨r, hr, rfl⟩ := List.mem_map.mp hx
  exact if_neg (h r hr)

theorem sumOn_nonneg (h : ∀ r ∈ t.rows, p r → 0 ≤ f r) : 0 ≤ t.sumOn p f := by
  apply List.sum_nonneg
  intro x hx
  obtain ⟨r, hr, rfl⟩ := List.mem_map.mp hx
  by_cases hp : p r
  · simpa [hp] using h r hr hp
  · simp [hp]

theorem sumOn_le_sumOn
    (h : ∀ r ∈ t.rows, (if p r then f r else 0) ≤ if q r then g r else 0) :
    t.sumOn p f ≤ t.sumOn q g :=
  List.sum_le_sum h

/-- One selected row is at most the whole sum of a nonnegative column. -/
theorem le_sumOn {r : ρ} (h : ∀ s ∈ t.rows, p s → 0 ≤ f s) (hr : r ∈ t.rows) (hp : p r) :
    f r ≤ t.sumOn p f := by
  apply List.single_le_sum (l := t.rows.map fun s => if p s then f s else 0)
  · intro x hx
    obtain ⟨s, hs, rfl⟩ := List.mem_map.mp hx
    by_cases hps : p s
    · simpa [hps] using h s hs hps
    · simp [hps]
  · exact List.mem_map.mpr ⟨r, hr, if_pos hp⟩

/-- A sum splits along any predicate. -/
theorem sumOn_split (t : Table key) (p q : ρ → Prop) [DecidablePred p] [DecidablePred q]
    (f : ρ → ℤ) :
    t.sumOn p f = t.sumOn (fun r => p r ∧ q r) f + t.sumOn (fun r => p r ∧ ¬ q r) f := by
  unfold sumOn
  rw [← List.sum_map_add]
  congr 1
  apply List.map_congr_left
  intro r _
  by_cases hp : p r <;> by_cases hq : q r <;> simp [hp, hq]

theorem sumOn_deleteMany (t : Table key) (p q : ρ → Prop) [DecidablePred p] [DecidablePred q]
    (f : ρ → ℤ) :
    (t.deleteMany q).sumOn p f = t.sumOn (fun r => p r ∧ ¬ q r) f := by
  simp only [sumOn, deleteMany]
  induction t.rows with
  | nil => rfl
  | cons r rs ih =>
    by_cases hq : q r
    · simpa [hq] using ih
    · simpa [hq] using ih

end Sums

section DecidableKeys

variable [DecidableEq κ] {t : Table key}

theorem sumOn_insertNew {r : ρ} (hfresh : ∀ s ∈ t.rows, key s ≠ key r)
    (p : ρ → Prop) [DecidablePred p] (f : ρ → ℤ) :
    (t.insertNew r).sumOn p f = t.sumOn p f + if p r then f r else 0 := by
  rw [sumOn, rows_insertNew_of_fresh hfresh, List.map_append, List.sum_append]
  simp [sumOn]

end DecidableKeys

/-- A column summed over all selected rows equals its sum grouped by an
attribute, when the groups listed are pairwise different and cover the
selected rows. -/
theorem sumOn_fiberwise {γ : Type*} [DecidableEq γ] (t : Table key) (p : ρ → Prop)
    [DecidablePred p] (f : ρ → ℤ) (g : ρ → γ) {cs : List γ} (hnodup : cs.Nodup)
    (hcover : ∀ r ∈ t.rows, p r → g r ∈ cs) :
    (cs.map fun c => t.sumOn (fun r => p r ∧ g r = c) f).sum = t.sumOn p f := by
  simp only [sumOn]
  revert hcover
  generalize t.rows = rows
  intro hcover
  induction rows with
  | nil => simp
  | cons r rs ih =>
    have hrest := ih fun s hs => hcover s (List.mem_cons_of_mem r hs)
    simp only [List.map_cons, List.sum_cons]
    rw [List.sum_map_add, hrest]
    congr 1
    by_cases hp : p r
    · have hc := hcover r List.mem_cons_self hp
      simp only [hp, true_and, if_true, @eq_comm γ (g r)]
      rw [List.sum_map_ite_eq, List.count_eq_one_of_mem hnodup hc]
      simp
    · simp [hp]

/-- Summing over one key gives the row's value. -/
theorem sumOn_key [DecidableEq κ] (t : Table key) {r : ρ} (hr : r ∈ t.rows) (f : ρ → ℤ) :
    t.sumOn (fun s => key s = key r) f = f r := by
  have hcount : (t.rows.map key).count (key r) = 1 :=
    List.count_eq_one_of_mem t.keys_nodup (List.mem_map.mpr ⟨r, hr, rfl⟩)
  have hkeys := List.sum_map_ite_eq (t.rows.map key) (fun _ => f r) (fun _ => 0) (key r)
  rw [List.map_map] at hkeys
  have hconst : t.sumOn (fun s => key s = key r) f =
      (t.rows.map fun s => if key s = key r then f r else 0).sum := by
    unfold sumOn
    congr 1
    apply List.map_congr_left
    intro s hs
    by_cases hk : key s = key r
    · rw [if_pos hk, if_pos hk, t.eq_of_key_eq hs hr hk]
    · rw [if_neg hk, if_neg hk]
  rw [hconst]
  simpa [hcount, Function.comp_def] using hkeys

/-- Summing over the keys of some selected rows gives the sum over these rows. -/
theorem sumOn_members [DecidableEq κ] (t : Table key) (p : ρ → Prop) [DecidablePred p] (f : ρ → ℤ)
    {members : List ρ} (hnodup : (members.map key).Nodup)
    (hmem : ∀ r ∈ members, r ∈ t.rows ∧ p r) :
    t.sumOn (fun r => p r ∧ key r ∈ members.map key) f = (members.map f).sum := by
  rw [← t.sumOn_fiberwise _ f key hnodup fun _ _ h => h.2, List.map_map]
  congr 1
  apply List.map_congr_left
  intro r hr
  obtain ⟨hrow, hp⟩ := hmem r hr
  change t.sumOn (fun s => (p s ∧ key s ∈ members.map key) ∧ key s = key r) f = f r
  rw [← t.sumOn_key hrow f]
  apply sumOn_congr rfl
  intro s hs
  by_cases hk : key s = key r
  · have he := t.eq_of_key_eq hs hrow hk
    have hin : key r ∈ members.map key := List.mem_map.mpr ⟨r, hr, rfl⟩
    simp only [he, hp, hin, true_and]
  · simp [hk]

section Keys

variable [DecidableEq κ]

/-- The keys in use. -/
def keys (t : Table key) : Finset κ := (t.rows.map key).toFinset

theorem mem_keys {t : Table key} {k : κ} : k ∈ t.keys ↔ ∃ r ∈ t.rows, key r = k := by
  simp [keys]

theorem find?_of_not_mem_keys {t : Table key} {k : κ} (h : k ∉ t.keys) : t.find? k = none := by
  rw [find?_eq_none]
  intro r hr hk
  exact h (mem_keys.mpr ⟨r, hr, hk⟩)

/-- A conditional sum over the rows is a sum over the keys in use. -/
theorem sumOn_eq_sum_keys (t : Table key) (p : ρ → Prop) [DecidablePred p] (f : ρ → ℤ) :
    t.sumOn p f =
      ∑ k ∈ t.keys, ((t.find? k).map fun r => if p r then f r else 0).getD 0 := by
  rw [keys, List.sum_toFinset _ t.keys_nodup, List.map_map, sumOn]
  congr 1
  apply List.map_congr_left
  intro r hr
  simp [find?_of_mem hr]

end Keys

section Replacement

/-- The second table is the first with one row exchanged for another of the same key. -/
structure Replaces [DecidableEq κ] (t t' : Table key) (old new : ρ) : Prop where
  /-- The exchanged row was stored. -/
  mem_old : old ∈ t.rows
  /-- The key is kept. -/
  key_new : key new = key old
  /-- All other rows are kept in place. -/
  rows_eq : t'.rows = t.rows.map fun r => if key r = key old then new else r

variable [DecidableEq κ] {t t' : Table key} {old new : ρ}

/-- A guarded update that selects one row replaces it. -/
theorem replaces_updateMany (t : Table key) (p : ρ → Prop) [DecidablePred p] (f : ρ → ρ)
    (hf : ∀ r, key (f r) = key r) (hold : old ∈ t.rows) (hp : p old)
    (hkey : ∀ r, p r → key r = key old) : Replaces t (t.updateMany p f hf) old (f old) where
  mem_old := hold
  key_new := hf old
  rows_eq := by
    apply List.map_congr_left
    intro r hr
    by_cases hk : key r = key old
    · have he := t.eq_of_key_eq hr hold hk
      simp [he, hp]
    · have hn : ¬ p r := fun h => hk (hkey r h)
      simp [hn, hk]

/-- A row that stays as it is. -/
theorem replaces_self (hold : old ∈ t.rows) : Replaces t t old old where
  mem_old := hold
  key_new := rfl
  rows_eq := by
    have hfix : ∀ r ∈ t.rows, (if key r = key old then old else r) = r := by
      intro r hr
      by_cases hk : key r = key old
      · rw [if_pos hk, t.eq_of_key_eq hr hold hk]
      · rw [if_neg hk]
    rw [List.map_congr_left hfix, List.map_id']

/-- Guarded update of the row stored under one key; none when no row matched. -/
def updateOne (t : Table key) (k : κ) (p : ρ → Prop) [DecidablePred p] (f : ρ → ρ)
    (hf : ∀ r, key (f r) = key r) : Option (Table key) :=
  if ∃ r ∈ t.rows, key r = k ∧ p r then some (t.updateMany (fun r => key r = k ∧ p r) f hf)
  else none

section UpdateOne

variable {k : κ} {p : ρ → Prop} [DecidablePred p] {f : ρ → ρ} {hf : ∀ r, key (f r) = key r}

/-- A matching update replaces exactly the row it matched. -/
theorem updateOne_eq_some (h : t.updateOne k p f hf = some t') :
    ∃ r, key r = k ∧ p r ∧ Replaces t t' r (f r) := by
  unfold updateOne at h
  split_ifs at h with hex
  obtain ⟨r, hr, hk, hp⟩ := hex
  cases h
  refine ⟨r, hk, hp, ?_⟩
  exact t.replaces_updateMany (fun s => key s = k ∧ p s) f hf hr ⟨hk, hp⟩
    fun s hs => hs.1.trans hk.symm

theorem updateOne_of_mem (f : ρ → ρ) (hf : ∀ r, key (f r) = key r) {r : ρ} (hr : r ∈ t.rows)
    (hk : key r = k) (hp : p r) : ∃ t', t.updateOne k p f hf = some t' := by
  rw [updateOne, if_pos ⟨r, hr, hk, hp⟩]
  exact ⟨_, rfl⟩

theorem updateOne_eq_none :
    t.updateOne k p f hf = none ↔ ∀ r ∈ t.rows, key r = k → ¬ p r := by
  unfold updateOne
  split_ifs with hex
  · obtain ⟨r, hr, hk, hp⟩ := hex
    constructor
    · intro h
      cases h
    · intro h
      exact absurd hp (h r hr hk)
  · constructor
    · intro _ r hr hk hp
      exact hex ⟨r, hr, hk, hp⟩
    · intro _
      rfl

end UpdateOne

namespace Replaces

variable (h : Replaces t t' old new)

include h

theorem keys_eq : t'.keys = t.keys := by
  have hkeys : t'.rows.map key = t.rows.map key := by
    rw [h.rows_eq, List.map_map]
    apply List.map_congr_left
    intro r _
    by_cases hk : key r = key old
    · simp [hk, h.key_new]
    · simp [hk]
  rw [keys, keys, hkeys]

theorem mem_iff {r : ρ} : r ∈ t'.rows ↔ r = new ∨ r ∈ t.rows ∧ key r ≠ key old := by
  rw [h.rows_eq, List.mem_map]
  constructor
  · rintro ⟨s, hs, rfl⟩
    by_cases hk : key s = key old
    · simp [hk]
    · simpa [hk] using Or.inr hs
  · rintro (rfl | ⟨hr, hk⟩)
    · exact ⟨old, h.mem_old, if_pos rfl⟩
    · exact ⟨r, hr, if_neg hk⟩

theorem mem_new : new ∈ t'.rows := h.mem_iff.mpr (Or.inl rfl)

theorem mem_of_ne {r : ρ} (hr : r ∈ t.rows) (hk : key r ≠ key old) : r ∈ t'.rows :=
  h.mem_iff.mpr (Or.inr ⟨hr, hk⟩)

/-- Every row has a successor under its key. -/
theorem exists_new {r : ρ} (hr : r ∈ t.rows) :
    ∃ s ∈ t'.rows, key s = key r ∧ (s = r ∨ r = old ∧ s = new) := by
  by_cases hk : key r = key old
  · have he := t.eq_of_key_eq hr h.mem_old hk
    exact ⟨new, h.mem_new, h.key_new.trans hk.symm, Or.inr ⟨he, rfl⟩⟩
  · exact ⟨r, h.mem_of_ne hr hk, rfl, Or.inl rfl⟩

/-- Every row has a predecessor under its key. -/
theorem exists_old {s : ρ} (hs : s ∈ t'.rows) :
    ∃ r ∈ t.rows, key s = key r ∧ (s = r ∨ r = old ∧ s = new) := by
  rcases h.mem_iff.mp hs with rfl | ⟨hs, _⟩
  · exact ⟨old, h.mem_old, h.key_new, Or.inr ⟨rfl, rfl⟩⟩
  · exact ⟨s, hs, rfl, Or.inl rfl⟩

/-- A row exchanged for itself leaves the table as it is. -/
theorem eq_of_same (hsame : new = old) : t' = t := by
  apply eq_of_rows_eq
  rw [h.rows_eq, hsame, ← (replaces_self h.mem_old).rows_eq]

theorem find?_self : t'.find? (key old) = some new :=
  find?_eq_some.mpr ⟨h.mem_new, h.key_new⟩

theorem find?_of_ne {k : κ} (hk : k ≠ key old) : t'.find? k = t.find? k := by
  cases hf : t.find? k with
  | none =>
    rw [find?_eq_none] at hf ⊢
    intro r hr
    rcases h.mem_iff.mp hr with rfl | ⟨hr, _⟩
    · rw [h.key_new]
      exact hk.symm
    · exact hf r hr
  | some r =>
    obtain ⟨hr, rfl⟩ := find?_eq_some.mp hf
    exact find?_of_mem (h.mem_of_ne hr hk)

/-- A conditional sum changes by the exchanged row's contribution. -/
theorem sumOn_eq (p : ρ → Prop) [DecidablePred p] (f : ρ → ℤ) :
    t'.sumOn p f =
      t.sumOn p f+(if p new then f new else 0)-(if p old then f old else 0) := by
  have hrows : ∀ r ∈ t.rows, (if p (if key r = key old then new else r)
      then f (if key r = key old then new else r) else 0) =
      (if p r then f r else 0)+(if key r = key old then
        (if p new then f new else 0)-(if p old then f old else 0) else 0) := by
    intro r hr
    by_cases hk : key r = key old
    · rw [t.eq_of_key_eq hr h.mem_old hk]
      simp
    · simp [hk]
  have hone := t.sumOn_key h.mem_old fun _ =>
    (if p new then f new else 0)-(if p old then f old else 0)
  rw [sumOn] at hone
  rw [sumOn, h.rows_eq, List.map_map]
  change (t.rows.map fun r => if p (if key r = key old then new else r)
      then f (if key r = key old then new else r) else 0).sum = _
  rw [List.map_congr_left hrows, List.sum_map_add, hone, sumOn]
  ring

end Replaces

end Replacement

end Table

end Kurtar.KeyedTable

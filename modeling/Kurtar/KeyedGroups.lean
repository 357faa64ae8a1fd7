import Mathlib.Data.List.Induction
import Mathlib.Data.List.Sort
import Mathlib.Data.List.Perm.Basic
import Mathlib.Algebra.Order.Ring.Unbundled.Rat

/-!
# Groups by a key and sorting with a comparator

A map from keys to lists keeps its keys in the order of insertion. Filled one
member after another it holds, under each key that occurs, the members with
that key. Lists are sorted stably by the sign of a comparator.
-/

namespace Kurtar.KeyedGroups

variable {α κ : Type*} [DecidableEq κ] (key : α → κ)

/-- A member joins the list of its key; a new key comes last. -/
def addTo : List (κ × List α) → α → List (κ × List α)
  | [], a => [(key a, [a])]
  | g :: rest, a => if g.1 = key a then (g.1, g.2 ++ [a]) :: rest else g :: addTo rest a

/-- The groups of a list. -/
def groupsOf (l : List α) : List (κ × List α) := l.foldl (addTo key) []

variable {key} {groups : List (κ × List α)} {a : α} {l : List α} {g : κ × List α}

theorem mem_addTo_keys {k : κ} :
    k ∈ (addTo key groups a).map Prod.fst ↔ k ∈ groups.map Prod.fst ∨ k = key a := by
  induction groups with
  | nil => simp [addTo]
  | cons h rest ih =>
    rw [addTo]
    split_ifs with hkey
    · rw [← hkey]
      simp only [List.map_cons, List.mem_cons]
      tauto
    · simp only [List.map_cons, List.mem_cons, ih]
      tauto

theorem nodup_addTo (h : (groups.map Prod.fst).Nodup) :
    ((addTo key groups a).map Prod.fst).Nodup := by
  induction groups with
  | nil => simp [addTo]
  | cons g rest ih =>
    rw [List.map_cons, List.nodup_cons] at h
    rw [addTo]
    split_ifs with hkey
    · rw [List.map_cons, List.nodup_cons]
      exact h
    · rw [List.map_cons, List.nodup_cons, mem_addTo_keys]
      exact ⟨fun hmem => hmem.elim h.1 hkey, ih h.2⟩

/-- A group after one more member: the key's own is longer by it, the others
are as before. -/
theorem mem_addTo (h : (groups.map Prod.fst).Nodup) (hg : g ∈ addTo key groups a) :
    (g.1 ≠ key a ∧ g ∈ groups) ∨ (g.1 = key a ∧ ∃ before,
      g.2 = before ++ [a] ∧ ((g.1, before) ∈ groups ∨ before = [] ∧ g.1 ∉ groups.map Prod.fst)) := by
  induction groups with
  | nil =>
    rw [addTo, List.mem_singleton] at hg
    rw [hg]
    exact Or.inr ⟨rfl, [], rfl, Or.inr ⟨rfl, List.not_mem_nil⟩⟩
  | cons first rest ih =>
    rw [List.map_cons, List.nodup_cons] at h
    rw [addTo] at hg
    split_ifs at hg with hkey
    · cases List.mem_cons.mp hg with
      | inl heq =>
        rw [heq]
        exact Or.inr ⟨hkey, first.2, rfl, Or.inl List.mem_cons_self⟩
      | inr hrest =>
        have hne : g.1 ≠ key a := fun heq => by
          rw [← hkey] at heq
          exact h.1 (List.mem_map.mpr ⟨g, hrest, heq⟩)
        exact Or.inl ⟨hne, List.mem_cons_of_mem first hrest⟩
    · cases List.mem_cons.mp hg with
      | inl heq =>
        rw [heq]
        exact Or.inl ⟨hkey, List.mem_cons_self⟩
      | inr hrest =>
        cases ih h.2 hrest with
        | inl hother => exact Or.inl ⟨hother.1, List.mem_cons_of_mem first hother.2⟩
        | inr hown =>
          obtain ⟨heq, before, hlist, hfrom⟩ := hown
          refine Or.inr ⟨heq, before, hlist, ?_⟩
          cases hfrom with
          | inl hmem => exact Or.inl (List.mem_cons_of_mem first hmem)
          | inr hnew =>
            refine Or.inr ⟨hnew.1, ?_⟩
            rw [List.map_cons, List.mem_cons, not_or, heq]
            exact ⟨fun hfirst => hkey hfirst.symm, heq ▸ hnew.2⟩

theorem groupsOf_append_singleton (l : List α) (a : α) :
    groupsOf key (l ++ [a]) = addTo key (groupsOf key l) a := by
  rw [groupsOf, List.foldl_append]
  rfl

/-- What the groups of a list are. -/
structure Groups (key : α → κ) (l : List α) (groups : List (κ × List α)) : Prop where
  nodup : (groups.map Prod.fst).Nodup
  members : ∀ g ∈ groups, g.2 = l.filter (fun a => key a = g.1) ∧ g.2 ≠ []
  keys : ∀ k, k ∈ groups.map Prod.fst ↔ ∃ a ∈ l, key a = k

/-- The group of a member that came last: the members before it with its key,
then itself. -/
theorem Groups.own (h : Groups key l groups) {before : List α} (hkey : g.1 = key a)
    (hlist : g.2 = before ++ [a])
    (hfrom : (g.1, before) ∈ groups ∨ before = [] ∧ g.1 ∉ groups.map Prod.fst) :
    g.2 = (l ++ [a]).filter (fun a => key a = g.1) ∧ g.2 ≠ [] := by
  have hbefore : before = l.filter fun a => key a = g.1 := by
    cases hfrom with
    | inl hmem => exact (h.members _ hmem).1
    | inr hnew =>
      rw [hnew.1, eq_comm, List.filter_eq_nil_iff]
      intro b hb hb'
      exact hnew.2 ((h.keys g.1).mpr ⟨b, hb, of_decide_eq_true hb'⟩)
  constructor
  · rw [hlist, hbefore, List.filter_append, List.filter_singleton, hkey]
    simp
  · rw [hlist]
    simp

/-- One more member leaves the other groups. -/
theorem Groups.other (h : Groups key l groups) (hkey : g.1 ≠ key a) (hmem : g ∈ groups) :
    g.2 = (l ++ [a]).filter (fun a => key a = g.1) ∧ g.2 ≠ [] := by
  have hfalse : decide (key a = g.1) = false := decide_eq_false fun heq => hkey heq.symm
  rw [List.filter_append, List.filter_singleton]
  simp only [hfalse, cond_false, List.append_nil]
  exact h.members g hmem

theorem Groups.addTo (h : Groups key l groups) (a : α) :
    Groups key (l ++ [a]) (addTo key groups a) := by
  refine ⟨nodup_addTo h.nodup, fun g hg => ?_, fun k => ?_⟩
  · cases mem_addTo h.nodup hg with
    | inl hother => exact h.other hother.1 hother.2
    | inr hown =>
      obtain ⟨hkey, before, hlist, hfrom⟩ := hown
      exact h.own hkey hlist hfrom
  · rw [mem_addTo_keys, h.keys k]
    simp only [List.mem_append, List.mem_singleton]
    constructor
    · intro hk
      cases hk with
      | inl hold =>
        obtain ⟨b, hb, hkey⟩ := hold
        exact ⟨b, Or.inl hb, hkey⟩
      | inr hnew => exact ⟨a, Or.inr rfl, hnew.symm⟩
    · intro ⟨b, hb, hkey⟩
      cases hb with
      | inl hold => exact Or.inl ⟨b, hold, hkey⟩
      | inr hnew => exact Or.inr (hnew ▸ hkey.symm)

/-- Filling the map member by member gives the groups. -/
theorem groups_groupsOf (l : List α) : Groups key l (groupsOf key l) := by
  induction l using List.reverseRecOn with
  | nil => exact ⟨List.nodup_nil, nofun, fun k => by simp [groupsOf]⟩
  | append_singleton l a ih =>
    rw [groupsOf_append_singleton]
    exact ih.addTo a

theorem perm_addTo : ((addTo key groups a).flatMap Prod.snd).Perm
    (groups.flatMap Prod.snd ++ [a]) := by
  induction groups with
  | nil => exact List.Perm.refl _
  | cons g rest ih =>
    rw [addTo]
    split_ifs with hkey
    · simp only [List.flatMap_cons, List.append_assoc]
      exact List.Perm.append_left g.2 List.perm_append_comm
    · simp only [List.flatMap_cons, List.append_assoc]
      exact List.Perm.append_left g.2 ih

/-- The groups hold every member once. -/
theorem perm_groupsOf (l : List α) : ((groupsOf key l).flatMap Prod.snd).Perm l := by
  induction l using List.reverseRecOn with
  | nil => exact List.Perm.refl _
  | append_singleton l a ih =>
    rw [groupsOf_append_singleton]
    exact perm_addTo.trans (ih.append_right [a])

section Sorting

/-- A stable sort by the sign of a comparator. -/
def sortWith (compare : α → α → ℚ) (l : List α) : List α :=
  l.insertionSort fun a b => compare a b ≤ 0

variable {compare : α → α → ℚ}

theorem perm_sortWith (l : List α) : (sortWith compare l).Perm l := List.perm_insertionSort _ l

/-- A comparator whose sign is that of an order sorts by the order. -/
theorem pairwise_sortWith {r : α → α → Prop} (hsign : ∀ a b, compare a b ≤ 0 ↔ r a b)
    (htotal : ∀ a b, r a b ∨ r b a) (htrans : ∀ a b c, r a b → r b c → r a c) (l : List α) :
    (sortWith compare l).Pairwise r := by
  have htotal' : Std.Total fun a b => compare a b ≤ 0 :=
    ⟨fun a b => by rw [hsign, hsign]; exact htotal a b⟩
  have htrans' : IsTrans α fun a b => compare a b ≤ 0 :=
    ⟨fun a b c hab hbc => (hsign a c).mpr (htrans a b c ((hsign a b).mp hab) ((hsign b c).mp hbc))⟩
  exact (List.pairwise_insertionSort (fun a b => compare a b ≤ 0) l).imp fun h => (hsign _ _).mp h

end Sorting

end Kurtar.KeyedGroups

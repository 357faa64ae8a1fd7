import Mathlib.Data.List.Sort
import Mathlib.Data.List.Perm.Subperm
import Mathlib.Order.Basic
import Mathlib.Order.Lattice

/-!
# Paging by offset through rows in an order with ties

Every page is cut out of an execution of its own, and an execution may return
rows that tie in any order. The pages up to the end together hold each row
once, in every execution, exactly when no group of tied rows lies across the
end of a page.
-/

namespace Kurtar.OffsetPaging

variable {α D : Type*} [LinearOrder D] (d : α → D)

/-- A result of the query: the rows, none closer than one before it. -/
structure Ordered (rows order : List α) : Prop where
  perm : order.Perm rows
  sorted : order.Pairwise fun a b => d a ≤ d b

/-- `LIMIT p OFFSET k*p` -/
def page (p k : ℕ) (order : List α) : List α := (order.drop (k*p)).take p

/-- The first pages one after the other, each of an execution of its own. -/
def pages (p n : ℕ) (orders : ℕ → List α) : List α :=
  (List.range n).flatMap fun k => page p k (orders k)

/-- How many rows are closer than this one. -/
def closer (rows : List α) (r : α) : ℕ := rows.countP fun a => d a < d r

/-- How many rows are as close as this one. -/
def within (rows : List α) (r : α) : ℕ := rows.countP fun a => d a ≤ d r

/-- Rows that tie are all on one page. -/
def TiesOnOnePage (p : ℕ) (rows : List α) : Prop :=
  ∀ r ∈ rows, closer d rows r/p = (within d rows r-1)/p

instance (p : ℕ) (rows : List α) : Decidable (TiesOnOnePage d p rows) :=
  inferInstanceAs (Decidable (∀ r ∈ rows, closer d rows r/p = (within d rows r-1)/p))

section Counts

variable {d} {rows order : List α} {P : α → Bool} {i : ℕ} {r : α}

/-- The rows that satisfy a condition on the closeness come first. -/
theorem sat_iff_lt_countP (hmono : order.Pairwise fun a b => P b = true → P a = true)
    (hi : i < order.length) : P order[i] = true ↔ i < order.countP P := by
  induction order generalizing i with
  | nil => cases hi
  | cons a order ih =>
    obtain ⟨hhead, hrest⟩ := List.pairwise_cons.mp hmono
    by_cases ha : P a = true
    · rw [List.countP_cons_of_pos ha]
      cases i with
      | zero => simp [ha]
      | succ i =>
        have hi' : i < order.length := by simpa using hi
        rw [List.getElem_cons_succ, ih hrest hi']
        omega
    · have hnone : order.countP P = 0 := by
        refine List.countP_eq_zero.mpr ?_
        exact fun b hb hPb => ha (hhead b hb hPb)
      rw [List.countP_cons_of_neg ha, hnone]
      cases i with
      | zero => simp [ha]
      | succ i =>
        have hi' : i < order.length := by simpa using hi
        rw [List.getElem_cons_succ, ih hrest hi', hnone]
        omega

theorem Ordered.lt_iff (h : Ordered d rows order) (hi : i < order.length) :
    d order[i] < d r ↔ i < closer d rows r := by
  have hmono : order.Pairwise fun a b => decide (d b < d r) = true → decide (d a < d r) = true := by
    refine h.sorted.imp ?_
    intro a b hab hb
    exact decide_eq_true (lt_of_le_of_lt hab (of_decide_eq_true hb))
  have hsat := sat_iff_lt_countP hmono hi
  rw [decide_eq_true_eq, h.perm.countP_eq] at hsat
  exact hsat

theorem Ordered.le_iff (h : Ordered d rows order) (hi : i < order.length) :
    d order[i] ≤ d r ↔ i < within d rows r := by
  have hmono : order.Pairwise fun a b => decide (d b ≤ d r) = true → decide (d a ≤ d r) = true := by
    refine h.sorted.imp ?_
    intro a b hab hb
    exact decide_eq_true (hab.trans (of_decide_eq_true hb))
  have hsat := sat_iff_lt_countP hmono hi
  rw [decide_eq_true_eq, h.perm.countP_eq] at hsat
  exact hsat

/-- Where a row stands in any execution. -/
theorem Ordered.index_bounds (h : Ordered d rows order) (hi : i < order.length) :
    closer d rows order[i] ≤ i ∧ i < within d rows order[i] := by
  refine ⟨?_, (h.le_iff hi).mp le_rfl⟩
  exact Nat.le_of_not_lt fun hlt => absurd ((h.lt_iff hi).mpr hlt) (lt_irrefl _)

/-- The places of the rows that tie with this one. -/
theorem Ordered.tied (h : Ordered d rows order) (hi : i < order.length)
    (hlow : closer d rows r ≤ i) (hhigh : i < within d rows r) : d order[i] = d r := by
  refine le_antisymm ((h.le_iff hi).mpr hhigh) ?_
  exact le_of_not_gt fun hlt => absurd ((h.lt_iff hi).mp hlt) (Nat.not_lt.mpr hlow)

/-- The page of a row when ties do not matter. -/
theorem Ordered.page_eq {p : ℕ} (h : Ordered d rows order) (hties : TiesOnOnePage d p rows)
    (hi : i < order.length) : closer d rows order[i]/p = i/p := by
  have hmem : order[i] ∈ rows := h.perm.mem_iff.mp (List.getElem_mem hi)
  obtain ⟨hlow, hhigh⟩ := h.index_bounds hi
  have htie := hties _ hmem
  have hle := Nat.div_le_div_right (c := p) hlow
  have hge : i/p ≤ (within d rows order[i]-1)/p := Nat.div_le_div_right (by omega)
  omega

end Counts

section Pages

variable {rows order : List α} {p n k : ℕ} {r : α}

omit [LinearOrder D] in
theorem mem_page (hp : 0 < p) : r ∈ page p k order ↔
    ∃ i, ∃ hi : i < order.length, i/p = k ∧ order[i] = r := by
  have hplace : ∀ i, i/p = k ↔ k*p ≤ i ∧ i < k*p+p := by
    intro i
    rw [Nat.div_eq_iff hp]
    omega
  rw [page, List.mem_take_iff_getElem]
  constructor
  · intro h
    obtain ⟨j, hj, heq⟩ := h
    rw [List.length_drop] at hj
    rw [List.getElem_drop] at heq
    exact ⟨k*p+j, by omega, (hplace _).mpr (by omega), heq⟩
  · intro h
    obtain ⟨i, hi, hdiv, heq⟩ := h
    obtain ⟨hlow, hhigh⟩ := (hplace i).mp hdiv
    refine ⟨i-k*p, ?_, ?_⟩
    · rw [List.length_drop]
      omega
    · rw [List.getElem_drop]
      have hsum : k*p+(i-k*p) = i := by omega
      simpa only [hsum] using heq

omit [LinearOrder D] in
/-- A page past the end is empty, and only such a page. -/
theorem page_eq_nil (hp : 0 < p) : page p k order = [] ↔ order.length ≤ k*p := by
  rw [page, List.take_eq_nil_iff, List.drop_eq_nil_iff]
  exact or_iff_right hp.ne'

theorem pages_succ (orders : ℕ → List α) :
    pages p (n+1) orders = pages p n orders ++ page p n (orders n) := by
  rw [pages, pages, List.range_succ, List.flatMap_append, List.flatMap_singleton]

/-- The pages of one execution are its beginning. -/
theorem pages_const (order : List α) : pages p n (fun _ => order) = order.take (n*p) := by
  induction n with
  | zero => simp [pages]
  | succ n ih => rw [pages_succ, ih, Nat.succ_mul, List.take_add, page]

theorem map_pages {β : Type*} (f : α → β) (orders : ℕ → List α) :
    (pages p n orders).map f = pages p n fun k => (orders k).map f := by
  induction n with
  | zero => rfl
  | succ n ih => rw [pages_succ, pages_succ, List.map_append, ih, page, page, List.map_take,
      List.map_drop]

end Pages

section Partition

variable {d} {rows order : List α} {p n : ℕ} {orders : ℕ → List α}

/-- The distances along the pages do not depend on the executions. -/
theorem map_pages_of_ordered (h : ∀ k, Ordered d rows (orders k)) (hend : rows.length ≤ n*p) :
    (pages p n orders).map d = (orders 0).map d := by
  have hsame : ∀ k, (orders k).map d = (orders 0).map d := by
    intro k
    refine List.Perm.eq_of_pairwise' (r := fun a b : D => a ≤ b) ?_ ?_ ?_
    · exact List.pairwise_map.mpr (h k).sorted
    · exact List.pairwise_map.mpr (h 0).sorted
    · exact ((h k).perm.trans (h 0).perm.symm).map d
  have hconst : (fun k => (orders k).map d) = fun _ => (orders 0).map d := funext hsame
  have hlength : ((orders 0).map d).length ≤ n*p := by
    rw [List.length_map, (h 0).perm.length_eq]
    exact hend
  rw [map_pages, hconst, pages_const, List.take_of_length_le hlength]

/-- The pages never go back to a closer row. -/
theorem pages_sorted (h : ∀ k, Ordered d rows (orders k)) (hend : rows.length ≤ n*p) :
    (pages p n orders).Pairwise fun a b => d a ≤ d b := by
  have hsorted : ((pages p n orders).map d).Pairwise fun a b => a ≤ b := by
    rw [map_pages_of_ordered h hend]
    exact List.pairwise_map.mpr (h 0).sorted
  exact List.pairwise_map.mp hsorted

theorem length_pages (h : ∀ k, Ordered d rows (orders k)) (hend : rows.length ≤ n*p) :
    (pages p n orders).length = rows.length := by
  have hmap := congrArg List.length (map_pages_of_ordered h hend)
  rwa [List.length_map, List.length_map, (h 0).perm.length_eq] at hmap

theorem mem_of_mem_pages (h : ∀ k, Ordered d rows (orders k)) {r : α}
    (hr : r ∈ pages p n orders) : r ∈ rows := by
  obtain ⟨k, _, hpage⟩ := List.mem_flatMap.mp hr
  exact (h k).perm.mem_iff.mp (List.mem_of_mem_drop (List.mem_of_mem_take hpage))

/-- Pages of different executions share no row when ties do not matter. -/
theorem pages_nodup (hp : 0 < p) (hnodup : rows.Nodup) (h : ∀ k, Ordered d rows (orders k))
    (hties : TiesOnOnePage d p rows) : (pages p n orders).Nodup := by
  refine List.nodup_flatMap.mpr ⟨?_, ?_⟩
  · intro k _
    have horder := (h k).perm.nodup_iff.mpr hnodup
    exact (horder.sublist (List.drop_sublist _ _)).sublist (List.take_sublist _ _)
  · refine List.pairwise_lt_range.imp ?_
    intro j k hlt
    rw [Function.onFun_apply, List.disjoint_left]
    intro r hj hk
    obtain ⟨i, hi, hdiv, heq⟩ := (mem_page hp).mp hj
    obtain ⟨i', hi', hdiv', heq'⟩ := (mem_page hp).mp hk
    have hpage := (h j).page_eq hties hi
    have hpage' := (h k).page_eq hties hi'
    rw [heq] at hpage
    rw [heq'] at hpage'
    omega

/-- When ties do not matter, the pages hold each row once. -/
theorem pages_perm (hp : 0 < p) (hnodup : rows.Nodup) (h : ∀ k, Ordered d rows (orders k))
    (hend : rows.length ≤ n*p) (hties : TiesOnOnePage d p rows) :
    (pages p n orders).Perm rows := by
  have hsub : (pages p n orders).Subperm rows :=
    List.subperm_of_subset (pages_nodup hp hnodup h hties) fun _ hr => mem_of_mem_pages h hr
  exact hsub.perm_of_length_le (length_pages h hend).ge

theorem exists_ordered (d : α → D) (rows : List α) : ∃ order, Ordered d rows order := by
  have hsorted : (rows.mergeSort fun a b => decide (d a ≤ d b)).Pairwise
      fun a b => decide (d a ≤ d b) = true := by
    refine List.pairwise_mergeSort ?_ ?_ rows
    · intro a b c hab hbc
      exact decide_eq_true ((of_decide_eq_true hab).trans (of_decide_eq_true hbc))
    · intro a b
      simpa using le_total (d a) (d b)
  exact ⟨_, List.mergeSort_perm _ _, hsorted.imp fun hab => of_decide_eq_true hab⟩

/-- Two tied neighbours may come in either order. -/
theorem Ordered.swap {u v : List α} {x y : α} (h : Ordered d rows (u ++ x :: y :: v))
    (htie : d x = d y) : Ordered d rows (u ++ y :: x :: v) := by
  refine ⟨((List.Perm.swap x y v).append_left u).trans h.perm, ?_⟩
  have hsorted := h.sorted
  rw [List.pairwise_append] at hsorted ⊢
  obtain ⟨hu, hxy, hbetween⟩ := hsorted
  obtain ⟨hx, hyv⟩ := List.pairwise_cons.mp hxy
  obtain ⟨hy, hv⟩ := List.pairwise_cons.mp hyv
  refine ⟨hu, ?_, ?_⟩
  · refine List.pairwise_cons.mpr ⟨?_, List.pairwise_cons.mpr ⟨?_, hv⟩⟩
    · intro a ha
      rcases List.mem_cons.mp ha with heq | ha
      · rw [heq, htie]
      · exact hy a ha
    · intro a ha
      exact hx a (List.mem_cons_of_mem _ ha)
  · intro a ha b hb
    refine hbetween a ha b ?_
    simp only [List.mem_cons] at hb ⊢
    tauto

/-- A group of tied rows that is not on one page goes on after the end of one. -/
theorem Ordered.tied_across {order : List α} (hp : 0 < p) (h : Ordered d rows order)
    (hties : ¬ TiesOnOnePage d p rows) :
    ∃ k i, i+1 = (k+1)*p ∧ ∃ hi : i+1 < order.length, d order[i] = d order[i+1] := by
  unfold TiesOnOnePage at hties
  push Not at hties
  obtain ⟨r, hr, hne⟩ := hties
  obtain ⟨place, hplace, hrow⟩ := List.mem_iff_getElem.mp (h.perm.mem_iff.mpr hr)
  have hbounds := h.index_bounds hplace
  rw [hrow] at hbounds
  have hwithin : within d rows r ≤ order.length := by
    rw [h.perm.length_eq]
    exact List.countP_le_length
  generalize hk : closer d rows r/p = k at hne
  have hfirst : closer d rows r < (k+1)*p := by
    rw [← hk, ← Nat.div_lt_iff_lt_mul hp]
    omega
  have hlast : (k+1)*p ≤ within d rows r-1 := by
    rw [← Nat.le_div_iff_mul_le hp]
    have hle := Nat.div_le_div_right (c := p) (show closer d rows r ≤ within d rows r-1 by omega)
    omega
  obtain ⟨i, hi⟩ : ∃ i, i+1 = (k+1)*p := ⟨(k+1)*p-1, by omega⟩
  have hi₁ : i < order.length := by omega
  have hi₂ : i+1 < order.length := by omega
  have htie : d order[i] = d r := h.tied hi₁ (by omega) (by omega)
  have htie' : d order[i+1] = d r := h.tied hi₂ (by omega) (by omega)
  exact ⟨k, i, hi, hi₂, htie.trans htie'.symm⟩

/-- Another execution has two tied neighbours the other way round. -/
theorem Ordered.exists_swapped {order : List α} {i : ℕ} (h : Ordered d rows order)
    (hi : i+1 < order.length) (htie : d order[i] = d order[i+1]) :
    ∃ order', Ordered d rows order' ∧ ∃ hi' : i+1 < order'.length, order'[i+1] = order[i] := by
  have hsplit : order = order.take i ++ order[i] :: order[i+1] :: order.drop (i+2) := by
    rw [← List.drop_eq_getElem_cons hi, ← List.drop_eq_getElem_cons (by omega),
      List.take_append_drop]
  have hlength : (order.take i).length = i := by
    rw [List.length_take]
    omega
  refine ⟨order.take i ++ order[i+1] :: order[i] :: order.drop (i+2), ?_, ?_, ?_⟩
  · refine Ordered.swap ?_ htie
    rwa [← hsplit]
  · rw [List.length_append, hlength, List.length_cons, List.length_cons]
    omega
  · rw [List.getElem_append_right (by omega)]
    simp [hlength]

/-- When tied rows lie across the end of a page, two executions may show a row twice. -/
theorem exists_repeated (hp : 0 < p) (hend : rows.length ≤ n*p)
    (hties : ¬ TiesOnOnePage d p rows) :
    ∃ orders : ℕ → List α, (∀ k, Ordered d rows (orders k)) ∧ ¬ (pages p n orders).Nodup := by
  obtain ⟨order, horder⟩ := exists_ordered d rows
  obtain ⟨k, i, hlast, hi, htie⟩ := horder.tied_across hp hties
  obtain ⟨order', horder', hi', hsame⟩ := horder.exists_swapped hi htie
  refine ⟨fun m => if m = k then order else order', ?_, ?_⟩
  · intro m
    dsimp only
    split_ifs
    · exact horder
    · exact horder'
  · intro hnodup
    have hkn : k+1 < n := by
      have hrows := horder.perm.length_eq
      exact Nat.lt_of_mul_lt_mul_right (show (k+1)*p < n*p by omega)
    have hpairwise := List.pairwise_iff_getElem.mp (List.nodup_flatMap.mp hnodup).2 k (k+1)
      (by simp; omega) (by simpa using hkn) (Nat.lt_succ_self k)
    have hdisjoint : (page p k order).Disjoint (page p (k+1) order') := by
      rw [Function.onFun_apply, List.getElem_range, List.getElem_range] at hpairwise
      simpa using hpairwise
    have hsucc : (k+1)*p = k*p+p := Nat.succ_mul k p
    have hmem : order[i] ∈ page p k order :=
      (mem_page hp).mpr ⟨i, by omega, by rw [Nat.div_eq_iff hp]; omega, rfl⟩
    have hmem' : order[i] ∈ page p (k+1) order' :=
      (mem_page hp).mpr ⟨i+1, hi', by rw [hlast, Nat.mul_div_cancel _ hp], hsame⟩
    exact List.disjoint_left.mp hdisjoint hmem hmem'

end Partition

end Kurtar.OffsetPaging

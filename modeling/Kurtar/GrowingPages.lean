import Kurtar.OffsetPaging

/-!
# Paging by offset while rows are inserted

The rows have keys of their own, and each page is cut out of the rows as they
are when it is read. As long as no row goes away, a row that was there at the
first page is on one of them, wherever others were inserted; and when they were
all inserted behind, the pages hold each key of the last moment once, in order.
-/

namespace Kurtar.GrowingPages

open OffsetPaging

variable {α D : Type*} [LinearOrder D] {d : α → D}

/-- The rows and their listings along the pages; no key is lost. -/
structure Growing (d : α → D) (rows orders : ℕ → List α) (n : ℕ) : Prop where
  ordered : ∀ k ≤ n, Ordered d (rows k) (orders k)
  keys : ∀ k ≤ n, ((rows k).map d).Nodup
  kept : ∀ k < n, (rows k).map d ⊆ (rows (k+1)).map d

section Places

variable {rows order : List α} {r : α} {x : D}

/-- How many keys are smaller. -/
def rank (d : α → D) (rows : List α) (x : D) : ℕ := (rows.map d).countP (· < x)

theorem closer_eq_rank (rows : List α) (r : α) : closer d rows r = rank d rows (d r) := by
  rw [rank, List.countP_map]
  rfl

/-- A row stands where its key says. -/
theorem getElem_rank (h : Ordered d rows order) (hkeys : (rows.map d).Nodup) (hr : r ∈ rows) :
    ∃ hi : rank d rows (d r) < order.length, order[rank d rows (d r)] = r := by
  obtain ⟨i, hi, hget⟩ := List.mem_iff_getElem.mp (h.perm.mem_iff.mpr hr)
  obtain ⟨hlow, -⟩ := h.index_bounds hi
  rw [hget, closer_eq_rank] at hlow
  have hlt : rank d rows (d r) < order.length := lt_of_le_of_lt hlow hi
  have hnot : ¬ d order[rank d rows (d r)] < d r := by
    rw [h.lt_iff hlt, closer_eq_rank]
    exact lt_irrefl _
  refine ⟨hlt, ?_⟩
  rcases hlow.lt_or_eq with hearlier | heq
  · have hsorted := List.pairwise_iff_getElem.mp h.sorted _ _ hlt hi hearlier
    rw [hget] at hsorted
    have hsame : d order[rank d rows (d r)] = d r := le_antisymm hsorted (le_of_not_gt hnot)
    have hmem := h.perm.mem_iff.mp (List.getElem_mem hlt)
    exact List.inj_on_of_nodup_map hkeys hmem hr hsame
  · simpa only [heq] using hget

theorem rank_lt_length (hr : x ∈ rows.map d) : rank d rows x < rows.length := by
  have hlt : (rows.map d).countP (· < x) < (rows.map d).length := by
    refine lt_of_le_of_ne List.countP_le_length fun hall => ?_
    have hx := List.countP_eq_length.mp hall x hr
    exact lt_irrefl x (of_decide_eq_true hx)
  rwa [List.length_map] at hlt

theorem rank_mono {rows' : List α} (hkeys : (rows.map d).Nodup)
    (hkept : rows.map d ⊆ rows'.map d) (x : D) : rank d rows x ≤ rank d rows' x :=
  (List.subperm_of_subset hkeys hkept).countP_le _

/-- The row of a key is on the page of its rank. -/
theorem mem_page_rank {p k : ℕ} (hp : 0 < p) (h : Ordered d rows order)
    (hkeys : (rows.map d).Nodup) (hr : r ∈ rows) (hpage : rank d rows (d r)/p = k) :
    r ∈ page p k order := by
  obtain ⟨hi, hget⟩ := getElem_rank h hkeys hr
  exact (mem_page hp).mpr ⟨_, hi, hpage, hget⟩

end Places

section Covered

variable {rows orders : ℕ → List α} {p n : ℕ} {x : D}

/-- A key is still there at every later page. -/
theorem Growing.key (h : Growing d rows orders n) (hx : x ∈ (rows 0).map d) {k : ℕ} (hk : k ≤ n) :
    x ∈ (rows k).map d := by
  induction k with
  | zero => exact hx
  | succ k ih => exact h.kept k hk (ih (Nat.le_of_succ_le hk))

/-- Up to each page the key has been seen, or it is behind the page. -/
theorem Growing.seen_or_behind (hp : 0 < p) (h : Growing d rows orders n)
    (hx : x ∈ (rows 0).map d) {k : ℕ} (hk : k ≤ n) :
    (∃ j ≤ k, ∃ r ∈ page p j (orders j), d r = x) ∨ (k+1)*p ≤ rank d (rows k) x := by
  induction k with
  | zero =>
    by_cases hfirst : rank d (rows 0) x < p
    · obtain ⟨r, hr, rfl⟩ := List.mem_map.mp hx
      exact Or.inl ⟨0, le_refl 0, r, mem_page_rank hp (h.ordered 0 hk) (h.keys 0 hk) hr
        (Nat.div_eq_of_lt hfirst), rfl⟩
    · exact Or.inr (by omega)
  | succ k ih =>
    rcases ih (Nat.le_of_succ_le hk) with ⟨j, hj, hseen⟩ | hbehind
    · exact Or.inl ⟨j, Nat.le_succ_of_le hj, hseen⟩
    · have hmono := rank_mono (h.keys k (Nat.le_of_succ_le hk)) (h.kept k hk) x
      by_cases hnext : rank d (rows (k+1)) x < (k+1+1)*p
      · obtain ⟨r, hr, rfl⟩ := List.mem_map.mp (h.key hx hk)
        refine Or.inl ⟨k+1, le_refl _, r, mem_page_rank hp (h.ordered _ hk) (h.keys _ hk) hr ?_, rfl⟩
        exact Nat.div_eq_of_lt_le (hbehind.trans hmono) hnext
      · exact Or.inr (Nat.le_of_not_lt hnext)

/-- Pages to the end miss no key that was there at the first one. -/
theorem Growing.covered (hp : 0 < p) (h : Growing d rows orders n)
    (hend : (rows n).length < (n+1)*p) (hx : x ∈ (rows 0).map d) :
    ∃ k ≤ n, ∃ r ∈ page p k (orders k), d r = x := by
  rcases h.seen_or_behind hp hx (le_refl n) with hseen | hbehind
  · exact hseen
  · exact absurd hbehind (Nat.not_le.mpr ((rank_lt_length (h.key hx (le_refl n))).trans hend))

end Covered

section Appended

variable {rows orders : ℕ → List α} {p n : ℕ}

/-- Keys that come behind all of those that were there. -/
def Behind (before after : List D) : Prop := ∀ x ∈ before, ∀ y ∈ after, y ∉ before → x < y

/-- A listing goes on where the one before it ended. -/
theorem isPrefix_of_behind {before after : List D} (hbefore : before.Pairwise (· < ·))
    (hafter : after.Pairwise (· < ·)) (hkept : before ⊆ after) (hbehind : Behind before after) :
    before <+: after := by
  have hnodup : before.Nodup := hbefore.imp ne_of_lt
  have hnodup' : after.Nodup := hafter.imp ne_of_lt
  refine ⟨after.filter (· ∉ before), ?_⟩
  refine List.Perm.eq_of_pairwise' (r := fun x y : D => x < y) ?_ hafter ?_
  · refine List.pairwise_append.mpr ⟨hbefore, hafter.sublist List.filter_sublist, ?_⟩
    intro x hx y hy
    obtain ⟨hmem, hnew⟩ := List.mem_filter.mp hy
    exact hbehind x hx y hmem (of_decide_eq_true hnew)
  · refine (List.perm_ext_iff_of_nodup ?_ hnodup').mpr fun x => ?_
    · refine List.nodup_append.mpr ⟨hnodup, hnodup'.sublist List.filter_sublist, ?_⟩
      rintro x hx y hy rfl
      exact of_decide_eq_true (List.mem_filter.mp hy).2 hx
    · rw [List.mem_append, List.mem_filter]
      constructor
      · rintro (hx | hx)
        · exact hkept hx
        · exact hx.1
      · intro hx
        by_cases hold : x ∈ before
        · exact Or.inl hold
        · exact Or.inr ⟨hx, decide_eq_true hold⟩

/-- A listing of different keys is strictly ordered. -/
theorem pairwise_lt_of_ordered {rows order : List α} (h : Ordered d rows order)
    (hkeys : (rows.map d).Nodup) : (order.map d).Pairwise (· < ·) := by
  have hne : (order.map d).Pairwise (· ≠ ·) := (h.perm.map d).nodup_iff.mpr hkeys
  refine (List.pairwise_map.mpr h.sorted).imp₂ ?_ hne
  exact fun x y hle hne => lt_of_le_of_ne hle hne

omit [LinearOrder D] in
theorem page_of_isPrefix {l l' : List D} {k : ℕ} (h : l <+: l') (hfull : (k+1)*p ≤ l.length) :
    page p k l = page p k l' := by
  obtain ⟨rest, rfl⟩ := h
  rw [Nat.succ_mul] at hfull
  have hle : k*p ≤ l.length := by omega
  rw [page, page, List.drop_append_of_le_length hle, List.take_append_of_le_length]
  rw [List.length_drop]
  omega

/-- When rows are only inserted behind, full pages and a last one list the keys
of the last moment. -/
theorem Growing.pages_eq (h : Growing d rows orders n) (hfull : ∀ k < n, (k+1)*p ≤ (rows k).length)
    (hend : (rows n).length < (n+1)*p)
    (hbehind : ∀ k < n, Behind ((rows k).map d) ((rows (k+1)).map d)) :
    (pages p (n+1) orders).map d = (orders n).map d := by
  have hstep : ∀ k < n, (orders k).map d <+: (orders (k+1)).map d := by
    intro k hk
    have hperm := (h.ordered k hk.le).perm.map d
    have hperm' := (h.ordered (k+1) hk).perm.map d
    refine isPrefix_of_behind (pairwise_lt_of_ordered (h.ordered k hk.le) (h.keys k hk.le))
      (pairwise_lt_of_ordered (h.ordered (k+1) hk) (h.keys (k+1) hk)) ?_ ?_
    · exact fun x hx => hperm'.mem_iff.mpr (h.kept k hk (hperm.mem_iff.mp hx))
    · intro x hx y hy hnew
      exact hbehind k hk x (hperm.mem_iff.mp hx) y (hperm'.mem_iff.mp hy)
        fun hold => hnew (hperm.mem_iff.mpr hold)
  have hlater : ∀ j k, k+j = n → (orders k).map d <+: (orders n).map d := by
    intro j
    induction j with
    | zero =>
      rintro k rfl
      exact List.prefix_refl _
    | succ j ih =>
      intro k hk
      exact (hstep k (by omega)).trans (ih (k+1) (by omega))
  have hpages : pages p (n+1) (fun k => (orders k).map d) =
      pages p (n+1) (fun _ => (orders n).map d) := by
    refine List.flatMap_congr fun k hk => ?_
    have hkn : k ≤ n := Nat.le_of_lt_succ (List.mem_range.mp hk)
    rcases hkn.lt_or_eq with hlt | rfl
    · refine page_of_isPrefix (hlater (n-k) k (by omega)) ?_
      rw [List.length_map, (h.ordered k hkn).perm.length_eq]
      exact hfull k hlt
    · rfl
  rw [map_pages, hpages, pages_const, List.take_of_length_le]
  rw [List.length_map, (h.ordered n (le_refl n)).perm.length_eq]
  exact hend.le

end Appended

end Kurtar.GrowingPages

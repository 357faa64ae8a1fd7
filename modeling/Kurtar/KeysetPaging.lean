import Mathlib.Data.List.Sort
import Mathlib.Data.List.Perm.Subperm
import Mathlib.Data.List.Nodup

/-!
# Reading a table page by page by its keys

Rows are read in the order of their keys, each page from the last key read
on. A loop ends with the first page that is not full or at its limit of
pages. A row is on a page exactly when it is beyond the cursor and fewer rows
than a page holds lie between.
-/

namespace Kurtar.KeysetPaging

variable {ρ κ : Type*} [LinearOrder κ] (key : ρ → κ)

/-- The rows in the order of their keys. -/
def orderBy (rows : List ρ) : List ρ := rows.insertionSort fun a b => key a ≤ key b

/-- A key beyond a cursor; without a cursor every key is. -/
def Beyond (cursor : Option κ) (k : κ) : Prop := ∀ c ∈ cursor, c < k

instance (cursor : Option κ) (k : κ) : Decidable (Beyond cursor k) :=
  inferInstanceAs (Decidable (∀ c ∈ cursor, c < k))

/-- At most `size` rows beyond the cursor. -/
def pageAfter (cursor : Option κ) (size : ℕ) (rows : List ρ) : List ρ :=
  ((orderBy key rows).filter fun r => Beyond cursor (key r)).take size

/-- The rows beyond the cursor and before a row. -/
def between (cursor : Option κ) (w : ρ) (rows : List ρ) : List ρ :=
  rows.filter fun r => Beyond cursor (key r) ∧ key r < key w

/-- Where a loop with a limit of pages stands. -/
inductive Loop (ρ : Type*) where
  | reading (page : ℕ) (rows : List ρ)
  | finished (rows : List ρ)
deriving DecidableEq

/-- The rows read so far. -/
def Loop.rows : Loop ρ → List ρ
  | .reading _ rows => rows
  | .finished rows => rows

@[simp] theorem rows_reading {page : ℕ} {rows : List ρ} : (Loop.reading page rows).rows = rows := rfl

/-- The sizes of a loop; a page holds a row, and a page is read. -/
structure PageLimits where
  pageSize : ℕ
  maxPages : ℕ
  pageSize_pos : 0 < pageSize
  maxPages_pos : 0 < maxPages

/-- The next page is the last one allowed. -/
def Loop.isLast (limits : PageLimits) : Loop ρ → Bool
  | .reading page _ => ¬ page+1 < limits.maxPages
  | .finished _ => false

/-- The loop after a page. -/
def Loop.next (limits : PageLimits) (page : ℕ) (rows fetched : List ρ) : Loop ρ :=
  if fetched.length < limits.pageSize then .finished (rows ++ fetched)
  else if page+1 < limits.maxPages then .reading (page+1) (rows ++ fetched)
  else .finished (rows ++ fetched)

/-- The key of the last row read. -/
def lastKey (rows : List ρ) : Option κ := rows.getLast?.map key

/-- Rows in strictly increasing order of their keys. -/
def Increasing (rows : List ρ) : Prop := rows.Pairwise fun a b => key a < key b

section Pages

variable {key} {rows fetched l : List ρ} {w r : ρ} {cursor : Option κ} {size n : ℕ}

theorem perm_orderBy (rows : List ρ) : (orderBy key rows).Perm rows := List.perm_insertionSort _ rows

theorem increasing_orderBy (h : (rows.map key).Nodup) : Increasing key (orderBy key rows) := by
  have htotal : Std.Total fun a b : ρ => key a ≤ key b := ⟨fun a b => le_total (key a) (key b)⟩
  have htrans : IsTrans ρ fun a b => key a ≤ key b := ⟨fun a b c hab hbc => hab.trans hbc⟩
  have hsorted := List.pairwise_insertionSort (fun a b : ρ => key a ≤ key b) rows
  have hnodup : ((orderBy key rows).map key).Nodup := ((perm_orderBy rows).map key).nodup_iff.mpr h
  rw [List.Nodup, List.pairwise_map] at hnodup
  exact (hsorted.and hnodup).imp fun h => lt_of_le_of_ne h.1 h.2

theorem Increasing.nodup (h : Increasing key rows) : rows.Nodup :=
  List.Pairwise.imp (fun hlt => ne_of_apply_ne key hlt.ne) h

theorem Increasing.eq_of_key_eq (h : Increasing key rows) {a b : ρ} (ha : a ∈ rows) (hb : b ∈ rows)
    (heq : key a = key b) : a = b := by
  have hkeys : (rows.map key).Nodup := List.pairwise_map.mpr (h.imp fun {a b} hlt => hlt.ne)
  exact List.inj_on_of_nodup_map hkeys ha hb heq

/-- A row of an increasing list is among the first `n` when fewer than `n` precede it. -/
theorem mem_take_iff (h : Increasing key l) :
    w ∈ l.take n ↔ w ∈ l ∧ (l.filter fun r => key r < key w).length < n := by
  induction l generalizing n with
  | nil => simp
  | cons a rest ih =>
    have hrest : Increasing key rest := List.Pairwise.of_cons h
    have hhead : ∀ r ∈ rest, key a < key r := (List.pairwise_cons.mp h).1
    have hfirst (hlater : w ∈ rest) : (a :: rest).filter (fun r => key r < key w) =
        a :: rest.filter fun r => key r < key w :=
      List.filter_cons_of_pos (decide_eq_true (hhead w hlater))
    cases n with
    | zero => simp
    | succ n =>
      rw [List.take_succ_cons, List.mem_cons, List.mem_cons, ih hrest]
      constructor
      · intro hmem
        cases hmem with
        | inl heq =>
          have hnone : (a :: rest).filter (fun r => key r < key w) = [] := by
            rw [heq, List.filter_eq_nil_iff]
            intro r hr hlt
            cases List.mem_cons.mp hr with
            | inl hra => exact absurd (of_decide_eq_true hlt) (hra ▸ lt_irrefl (key a))
            | inr hr => exact absurd (of_decide_eq_true hlt) (not_lt.mpr (hhead r hr).le)
          rw [hnone]
          exact ⟨Or.inl heq, Nat.succ_pos n⟩
        | inr hlater =>
          refine ⟨Or.inr hlater.1, ?_⟩
          rw [hfirst hlater.1, List.length_cons]
          omega
      · intro ⟨hmem, hcount⟩
        cases hmem with
        | inl heq => exact Or.inl heq
        | inr hlater =>
          rw [hfirst hlater, List.length_cons] at hcount
          exact Or.inr ⟨hlater, by omega⟩

theorem increasing_beyond (h : (rows.map key).Nodup) :
    Increasing key ((orderBy key rows).filter fun r => Beyond cursor (key r)) :=
  (increasing_orderBy h).filter _

/-- What is on a page. -/
theorem mem_pageAfter_iff (h : (rows.map key).Nodup) :
    w ∈ pageAfter key cursor size rows ↔
      w ∈ rows ∧ Beyond cursor (key w) ∧ (between key cursor w rows).length < size := by
  have hbetween : (((orderBy key rows).filter fun r => Beyond cursor (key r)).filter
      fun r => key r < key w).length = (between key cursor w rows).length := by
    rw [List.filter_filter]
    have hperm : (orderBy key rows).Perm rows := perm_orderBy rows
    have hfilter := hperm.filter fun r => decide (key r < key w) && decide (Beyond cursor (key r))
    rw [hfilter.length_eq, between]
    congr 2
    funext r
    rw [Bool.decide_and, Bool.and_comm]
  rw [pageAfter, mem_take_iff (increasing_beyond h), hbetween, List.mem_filter,
    (perm_orderBy rows).mem_iff, decide_eq_true_iff, and_assoc]

theorem beyond_of_mem_pageAfter (h : (rows.map key).Nodup) (hr : r ∈ pageAfter key cursor size rows) :
    Beyond cursor (key r) := ((mem_pageAfter_iff h).mp hr).2.1

/-- A page that leaves a row out is full, and ends before the row. -/
theorem left_out (h : (rows.map key).Nodup) (hw : w ∈ rows) (hbeyond : Beyond cursor (key w))
    (hout : w ∉ pageAfter key cursor size rows) :
    (pageAfter key cursor size rows).length = size ∧
      ∀ r ∈ pageAfter key cursor size rows, key r < key w := by
  have hsplit : w ∈ pageAfter key cursor size rows ++
      ((orderBy key rows).filter fun r => Beyond cursor (key r)).drop size := by
    rw [pageAfter, List.take_append_drop, List.mem_filter, (perm_orderBy rows).mem_iff]
    exact ⟨hw, decide_eq_true hbeyond⟩
  have hdrop : w ∈ ((orderBy key rows).filter fun r => Beyond cursor (key r)).drop size :=
    (List.mem_append.mp hsplit).resolve_left hout
  have hpair : Increasing key ((orderBy key rows).filter fun r => Beyond cursor (key r)) :=
    increasing_beyond h
  rw [← List.take_append_drop size ((orderBy key rows).filter _)] at hpair
  refine ⟨?_, fun r hr => (List.pairwise_append.mp hpair).2.2 r hr w hdrop⟩
  have hpos := List.length_pos_of_mem hdrop
  rw [List.length_drop] at hpos
  rw [pageAfter, List.length_take]
  omega

end Pages

section Cursors

variable {key} {rows : List ρ} {w r : ρ} {cursor : Option κ} {size : ℕ}

/-- `findMany` with `orderBy`, `take` and, with a cursor, `skip: 1`: the rows
that satisfy `p` from the cursor's row on, without the first; none when no row
has the cursor's key. -/
def findMany (key : ρ → κ) (p : ρ → Prop) [DecidablePred p] (cursor : Option κ) (size : ℕ)
    (rows : List ρ) : List ρ :=
  match cursor with
  | none => (orderBy key (rows.filter p)).take size
  | some c =>
    if ∃ r ∈ rows, key r = c then
      (((orderBy key (rows.filter p)).filter fun r => c ≤ key r).drop 1).take size
    else []

/-- From a row on, without it, are the rows beyond it. -/
theorem drop_from {l : List ρ} (h : Increasing key l) (hr : r ∈ l) :
    (l.filter fun a => key r ≤ key a).drop 1 = l.filter fun a => key r < key a := by
  induction l with
  | nil => exact nomatch hr
  | cons a rest ih =>
    have hhead : ∀ b ∈ rest, key a < key b := (List.pairwise_cons.mp h).1
    cases List.mem_cons.mp hr with
    | inl heq =>
      rw [heq]
      simp only [List.filter_cons, le_refl, decide_true, if_true, lt_irrefl, decide_false,
        Bool.false_eq_true, if_false, List.drop_one, List.tail_cons]
      refine List.filter_congr fun b hb => ?_
      rw [decide_eq_decide]
      exact ⟨fun _ => hhead b hb, fun hlt => hlt.le⟩
    | inr hlater =>
      have hlt := hhead r hlater
      simp only [List.filter_cons, hlt.not_ge, decide_false, Bool.false_eq_true, if_false,
        hlt.not_gt]
      exact ih (List.Pairwise.of_cons h) hlater

variable {p : ρ → Prop} [DecidablePred p]

omit [LinearOrder κ] in
theorem nodup_filter_keys (h : (rows.map key).Nodup) : ((rows.filter p).map key).Nodup :=
  h.sublist (List.filter_sublist.map key)

/-- With its cursor's row still there the query is the page after the cursor. -/
theorem findMany_eq_pageAfter (h : (rows.map key).Nodup)
    (hkept : ∀ c ∈ cursor, ∃ r ∈ rows, p r ∧ key r = c) :
    findMany key p cursor size rows = pageAfter key cursor size (rows.filter p) := by
  cases cursor with
  | none =>
    have hall (r : ρ) : Beyond none (key r) := fun c hc => nomatch hc
    simp [findMany, pageAfter, hall]
  | some c =>
    obtain ⟨r, hr, hp, hkey⟩ := hkept c rfl
    have hmem : r ∈ orderBy key (rows.filter p) :=
      (perm_orderBy _).mem_iff.mpr (List.mem_filter.mpr ⟨hr, decide_eq_true hp⟩)
    have hdrop := drop_from (increasing_orderBy (nodup_filter_keys h)) hmem
    have hbeyond (a : ρ) : Beyond (some c) (key a) ↔ c < key a :=
      ⟨fun hb => hb c rfl, fun hlt d hd => Option.some.inj hd ▸ hlt⟩
    rw [hkey] at hdrop
    simp only [findMany, pageAfter, hbeyond, hdrop, if_pos (⟨r, hr, hkey⟩ : ∃ r ∈ rows, key r = c)]

theorem findMany_of_missing {c : κ} (h : ∀ r ∈ rows, key r ≠ c) :
    findMany key p (some c) size rows = [] := by
  rw [findMany, if_neg]
  intro ⟨r, hr, hkey⟩
  exact h r hr hkey

theorem findMany_sublist :
    (findMany key p cursor size rows).Sublist (orderBy key (rows.filter p)) := by
  cases cursor with
  | none => exact List.take_sublist size _
  | some c =>
    rw [findMany]
    split_ifs
    · exact ((List.take_sublist size _).trans (List.drop_sublist 1 _)).trans List.filter_sublist
    · exact List.nil_sublist _

theorem mem_of_mem_findMany (hr : r ∈ findMany key p cursor size rows) :
    r ∈ rows ∧ p r := by
  have hmem := (perm_orderBy _).mem_iff.mp (findMany_sublist.subset hr)
  rw [List.mem_filter] at hmem
  exact ⟨hmem.1, of_decide_eq_true hmem.2⟩

theorem increasing_findMany (h : (rows.map key).Nodup) :
    Increasing key (findMany key p cursor size rows) :=
  (increasing_orderBy (nodup_filter_keys h)).sublist findMany_sublist

theorem length_findMany_le : (findMany key p cursor size rows).length ≤ size := by
  cases cursor with
  | none => exact List.length_take_le size _
  | some c =>
    rw [findMany]
    split_ifs
    · exact List.length_take_le size _
    · exact Nat.zero_le size

/-- Whatever became of the cursor's row, the rows are beyond it. -/
theorem beyond_of_mem_findMany (h : (rows.map key).Nodup)
    (hr : r ∈ findMany key p cursor size rows) : Beyond cursor (key r) := by
  intro c hc
  cases hc
  by_cases hkept : ∃ a ∈ rows, p a ∧ key a = c
  · rw [findMany_eq_pageAfter h fun d hd => Option.some.inj hd ▸ hkept] at hr
    exact beyond_of_mem_pageAfter (nodup_filter_keys h) hr c rfl
  · have hmem := mem_of_mem_findMany hr
    rw [findMany] at hr
    split_ifs at hr with hcursor
    · have hle := List.mem_filter.mp (List.mem_of_mem_drop (List.mem_of_mem_take hr))
      have hne : c ≠ key r := fun heq => hkept ⟨r, hmem.1, hmem.2, heq.symm⟩
      exact lt_of_le_of_ne (of_decide_eq_true hle.2) hne
    · exact nomatch hr

end Cursors

section Loops

variable {key} {rows fetched stored : List ρ} {w : ρ} {k : κ} {limits : PageLimits} {page : ℕ}

theorem beyond_lastKey (h : ∀ r ∈ rows, key r < k) : Beyond (lastKey key rows) k := by
  intro c hc
  obtain ⟨r, hr, heq⟩ := Option.map_eq_some_iff.mp hc
  rw [← heq]
  exact h r (List.mem_of_getLast? hr)

/-- Beyond the last key of increasing rows is beyond all of them. -/
theorem beyond_lastKey_iff (h : Increasing key rows) :
    Beyond (lastKey key rows) k ↔ ∀ r ∈ rows, key r < k := by
  refine ⟨fun hbeyond r hr => ?_, beyond_lastKey⟩
  cases List.eq_nil_or_concat rows with
  | inl hnil => exact absurd hr (hnil ▸ List.not_mem_nil)
  | inr hconcat =>
    obtain ⟨before, last, heq⟩ := hconcat
    rw [List.concat_eq_append] at heq
    rw [heq, lastKey, List.getLast?_concat] at hbeyond
    have hlast : key last < k := hbeyond (key last) rfl
    rw [heq] at h hr
    cases List.mem_append.mp hr with
    | inl hbefore =>
      exact ((List.pairwise_append.mp h).2.2 r hbefore last (List.mem_singleton_self last)).trans hlast
    | inr hsame => rwa [List.mem_singleton.mp hsame]

theorem increasing_append (h : Increasing key rows) (hfetched : Increasing key fetched)
    (hbeyond : ∀ r ∈ fetched, Beyond (lastKey key rows) (key r)) : Increasing key (rows ++ fetched) :=
  List.pairwise_append.mpr ⟨h, hfetched, fun a ha b hb => (beyond_lastKey_iff h).mp (hbeyond b hb) a ha⟩

@[simp] theorem rows_next : (Loop.next limits page rows fetched).rows = rows ++ fetched := by
  unfold Loop.next
  split_ifs <;> rfl

/-- A row is read already or will be: the loop is not past it. -/
def Covers (key : ρ → κ) (w : ρ) : Loop ρ → Prop
  | .reading _ rows => w ∈ rows ∨ Beyond (lastKey key rows) (key w)
  | .finished rows => w ∈ rows

theorem covers_of_mem (h : w ∈ rows) : Covers key w (Loop.next limits page rows fetched) := by
  have hread : w ∈ rows ++ fetched := List.mem_append_left fetched h
  unfold Loop.next
  split_ifs
  · exact hread
  · exact Or.inl hread
  · exact hread

/-- A page after the cursor does not pass a stored row, unless it is the last
page allowed and more rows than it holds lie before the row. -/
theorem covers_next (hkeys : (stored.map key).Nodup) (h : Increasing key rows) (hw : w ∈ stored)
    (hbeyond : Beyond (lastKey key rows) (key w))
    (hlast : (Loop.reading page rows).isLast limits →
      (between key (lastKey key rows) w stored).length < limits.pageSize) :
    Covers key w
      (Loop.next limits page rows (pageAfter key (lastKey key rows) limits.pageSize stored)) := by
  by_cases hread : w ∈ pageAfter key (lastKey key rows) limits.pageSize stored
  · have hmem := List.mem_append_right rows hread
    unfold Loop.next
    split_ifs
    · exact hmem
    · exact Or.inl hmem
    · exact hmem
  · obtain ⟨hfull, hbefore⟩ := left_out hkeys hw hbeyond hread
    by_cases hmore : page+1 < limits.maxPages
    · rw [Loop.next, if_neg hfull.not_lt, if_pos hmore]
      refine Or.inr (beyond_lastKey fun r hr => ?_)
      cases List.mem_append.mp hr with
      | inl hr => exact (beyond_lastKey_iff h).mp hbeyond r hr
      | inr hr => exact hbefore r hr
    · have hroom := hlast (decide_eq_true hmore)
      exact absurd ((mem_pageAfter_iff hkeys).mpr ⟨hw, hbeyond, hroom⟩) hread

/-- The last page allowed ends the loop, without the rows that do not fit. -/
theorem next_last (hkeys : (stored.map key).Nodup) (h : Increasing key rows)
    (hbeyond : Beyond (lastKey key rows) (key w)) (hlast : (Loop.reading page rows).isLast limits)
    (hout : limits.pageSize ≤ (between key (lastKey key rows) w stored).length) :
    ∃ read, Loop.next limits page rows (pageAfter key (lastKey key rows) limits.pageSize stored) =
      .finished read ∧ w ∉ read := by
  refine ⟨rows ++ pageAfter key (lastKey key rows) limits.pageSize stored, ?_, ?_⟩
  · have hmore : ¬ page+1 < limits.maxPages := of_decide_eq_true hlast
    rw [Loop.next, if_neg hmore, ite_self]
  · rw [List.mem_append, not_or]
    refine ⟨fun hmem => lt_irrefl _ ((beyond_lastKey_iff h).mp hbeyond w hmem), fun hmem => ?_⟩
    exact absurd ((mem_pageAfter_iff hkeys).mp hmem).2.2 (not_lt.mpr hout)

/-- An empty page ends the loop with the rows read before. -/
theorem next_empty (h : Increasing key rows) (hbeyond : Beyond (lastKey key rows) (key w)) :
    ∃ read, Loop.next limits page rows [] = .finished read ∧ w ∉ read := by
  refine ⟨rows, ?_, fun hmem => lt_irrefl _ ((beyond_lastKey_iff h).mp hbeyond w hmem)⟩
  rw [Loop.next, List.length_nil, if_pos limits.pageSize_pos, List.append_nil]

/-- The rows read, those between and the row itself are different rows. -/
theorem length_before_lt {all : List ρ} (h : Increasing key rows) (hkeys : (stored.map key).Nodup)
    (hbeyond : Beyond (lastKey key rows) (key w)) (hw : w ∈ stored) (hrows : ∀ r ∈ rows, r ∈ all)
    (hall : ∀ r ∈ stored, r ∈ all) :
    rows.length+(between key (lastKey key rows) w stored).length < all.length := by
  have hbefore := (beyond_lastKey_iff h).mp hbeyond
  have hmem (r : ρ) (hr : r ∈ between key (lastKey key rows) w stored) :
      r ∈ stored ∧ Beyond (lastKey key rows) (key r) ∧ key r < key w := by
    rw [between, List.mem_filter, decide_eq_true_iff] at hr
    exact hr
  have hself : w ∉ between key (lastKey key rows) w stored := fun hr =>
    lt_irrefl (key w) (hmem w hr).2.2
  have hlater : (w :: between key (lastKey key rows) w stored).Nodup :=
    List.nodup_cons.mpr ⟨hself, (List.Nodup.of_map key hkeys).sublist List.filter_sublist⟩
  have happ : (rows ++ w :: between key (lastKey key rows) w stored).Nodup := by
    refine List.nodup_append.mpr ⟨h.nodup, hlater, fun a ha b hb heq => ?_⟩
    rw [← heq] at hb
    cases List.mem_cons.mp hb with
    | inl hsame => exact lt_irrefl (key w) (hbefore w (hsame ▸ ha))
    | inr hb => exact lt_irrefl (key a) ((beyond_lastKey_iff h).mp (hmem a hb).2.1 a ha)
  have hsub : (rows ++ w :: between key (lastKey key rows) w stored).Subperm all := by
    refine happ.subperm fun r hr => ?_
    cases List.mem_append.mp hr with
    | inl hr => exact hrows r hr
    | inr hr =>
      cases List.mem_cons.mp hr with
      | inl hsame => exact hall r (hsame ▸ hw)
      | inr hr => exact hall r (hmem r hr).1
  have hlength := hsub.length_le
  rw [List.length_append, List.length_cons] at hlength
  omega

end Loops

end Kurtar.KeysetPaging

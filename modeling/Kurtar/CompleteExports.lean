import Kurtar.AdminExports
import Kurtar.GrowingPages

/-!
# Complete exports

An export that ends without an error holds every row that was stored when it
was asked for, whatever is inserted and changed while its pages are read. The
calls on its response are those of the common helper, and an export of
merchants has its audit row before its first byte.
-/

namespace Kurtar.CompleteExports

open AdminExports CsvExport GrowingPages GuardedRuns IstanbulCalendar KeyedTable OffsetPaging
open Timelines

variable {ρ : Type} {report : CsvReport ρ}

section Rows

variable {t t' : Table report.id} {filter : DateTimeFilter} {row : ρ}

/-- Rows stay under their ids and creation dates. -/
def Kept (t t' : Table report.id) : Prop := t.rows.map report.key ⊆ t'.rows.map report.key

theorem kept_insertNew (t : Table report.id) (row : ρ) : Kept t (t.insertNew row) := by
  intro x hx
  obtain ⟨r, hr, rfl⟩ := List.mem_map.mp hx
  exact List.mem_map_of_mem (Table.mem_insertNew.mpr (Or.inl hr))

theorem keys_updateMany (t : Table report.id) (change : Change report) :
    (t.updateMany (fun _ => True) change.set change.id_eq).rows.map report.key =
      t.rows.map report.key := by
  rw [Table.updateMany, List.map_map]
  refine List.map_congr_left fun r _ => ?_
  simp [CsvReport.key, change.id_eq, change.createdAt_eq]

theorem mem_admitted : row ∈ report.admitted filter t ↔
    row ∈ t.rows ∧ filter.admits (report.createdAt row) = true := List.mem_filter

theorem mem_admittedKeys {x : Lex (ℤ × String)} : x ∈ (report.admitted filter t).map report.key ↔
    x ∈ t.rows.map report.key ∧ filter.admits (ofLex x).1 = true := by
  constructor
  · intro hx
    obtain ⟨r, hr, rfl⟩ := List.mem_map.mp hx
    obtain ⟨hr, hadmits⟩ := mem_admitted.mp hr
    exact ⟨List.mem_map_of_mem hr, hadmits⟩
  · rintro ⟨hx, hadmits⟩
    obtain ⟨r, hr, rfl⟩ := List.mem_map.mp hx
    exact List.mem_map_of_mem (mem_admitted.mpr ⟨hr, hadmits⟩)

/-- An id is part of a key, so no two rows share one. -/
theorem admittedKeys_nodup (filter : DateTimeFilter) (t : Table report.id) :
    ((report.admitted filter t).map report.key).Nodup := by
  have hids : ((t.rows.map report.key).map fun x => (ofLex x).2).Nodup := by
    rw [List.map_map]
    exact t.keys_nodup
  exact hids.of_map.sublist (List.filter_sublist.map report.key)

theorem Kept.admitted (h : Kept t t') (filter : DateTimeFilter) :
    (report.admitted filter t).map report.key ⊆ (report.admitted filter t').map report.key := by
  intro x hx
  obtain ⟨hx, hadmits⟩ := mem_admittedKeys.mp hx
  exact mem_admittedKeys.mpr ⟨h hx, hadmits⟩

theorem ordered_listing (filter : DateTimeFilter) (t : Table report.id) :
    Ordered report.key (report.admitted filter t) (report.listing filter t) :=
  ⟨List.perm_insertionSort _ _, List.pairwise_insertionSort _ _⟩

theorem mem_listing : row ∈ report.listing filter t ↔
    row ∈ t.rows ∧ filter.admits (report.createdAt row) = true :=
  (List.mem_insertionSort _).trans mem_admitted

end Rows

section Invariants

variable {newDate : String → Option Instant} {w w' : World report} {e e' : Export ρ}
  {a : Action report} {filter : DateTimeFilter} {n : ℕ}

/-- A page as it was at its moment. -/
def PageOf (w : World report) (e : Export ρ) (k : ℕ) (read : ℕ × List ρ) : Prop :=
  e.began ≤ read.1 ∧ ∃ filter, e.createdAt = some filter ∧ ∃ t, w.table.at? read.1 = some t ∧
    read.2 = page DEFAULT_CSV_PAGE_SIZE k (report.listing filter t)

/-- What holds of an export at every moment of its run. -/
structure Sound (newDate : String → Option Instant) (w : World report) (e : Export ρ) : Prop where
  createdAt : e.createdAt = createdAtWhere newDate e.range
  began : e.began ≤ w.table.moment
  pageOf : ∀ k read, e.pages[k]? = some read → PageOf w e k read
  inOrder : (e.pages.map Prod.fst).Pairwise (· ≤ ·)
  full : ∀ k read, e.pages[k]? = some read → k+1 < e.pages.length ∨ e.phase ≠ .ended →
    read.2.length = DEFAULT_CSV_PAGE_SIZE
  short : e.phase = .ended → ∃ read, e.pages.getLast? = some read ∧
    read.2.length < DEFAULT_CSV_PAGE_SIZE

/-- Every export is sound and no row has gone away. -/
structure Consistent (newDate : String → Option Instant) (w : World report) : Prop where
  kept : w.table.Along Kept
  sound : ∀ e ∈ w.exports, Sound newDate w e

/-- A change of the rows leaves the pages that have been read. -/
theorem Sound.change (h : Sound newDate w e) (t : Table report.id) :
    Sound newDate { w with table := w.table.change t } e := by
  refine ⟨h.createdAt, h.began.trans (w.table.moment_le_change t), ?_, h.inOrder, h.full, h.short⟩
  intro k read hread
  obtain ⟨hbegan, filter, hfilter, s, hs, hrows⟩ := h.pageOf k read hread
  exact ⟨hbegan, filter, hfilter, s, Timeline.at?_change hs t, hrows⟩

theorem sound_start (w : World report) (adminId : String) (range : ExportRange) :
    Sound newDate w ⟨adminId, range, createdAtWhere newDate range, w.table.moment, [],
      if report.audited then .auditing else .streaming⟩ where
  createdAt := rfl
  began := le_refl _
  pageOf k read hread := by cases hread
  inOrder := List.Pairwise.nil
  full k read hread := by cases hread
  short hended := by
    dsimp only at hended
    split at hended <;> cases hended

/-- The rows of full pages. -/
theorem length_flatMap_of_full {p : ℕ} {pages : List (ℕ × List ρ)}
    (h : ∀ read ∈ pages, read.2.length = p) : (pages.flatMap Prod.snd).length = pages.length*p := by
  induction pages with
  | nil => simp
  | cons read pages ih =>
    rw [List.flatMap_cons, List.length_append, h read List.mem_cons_self, List.length_cons,
      ih fun r hr => h r (List.mem_cons_of_mem _ hr), Nat.succ_mul, Nat.add_comm]

/-- What `skip` has come to is the place of the next page. -/
theorem Sound.nextPage_eq (h : Sound newDate w e) (hphase : e.phase = .streaming) :
    nextPage w e filter =
      page DEFAULT_CSV_PAGE_SIZE e.pages.length (report.listing filter w.table.now) := by
  have hlength : e.rows.length = e.pages.length*DEFAULT_CSV_PAGE_SIZE := by
    refine length_flatMap_of_full fun read hread => ?_
    obtain ⟨k, hk⟩ := List.getElem?_of_mem hread
    exact h.full k read hk (Or.inr (by simp [hphase]))
  rw [nextPage, page, hlength]

/-- One page more. -/
theorem Sound.fetched (h : Sound newDate w e) (hphase : e.phase = .streaming)
    (hfilter : e.createdAt = some filter) : Sound newDate w (AdminExports.fetched w e filter) where
  createdAt := h.createdAt
  began := h.began
  pageOf k read hread := by
    rcases getElem?_concat_cases hread with hold | ⟨rfl, rfl⟩
    · exact h.pageOf k read hold
    · exact ⟨h.began, filter, hfilter, w.table.now, w.table.at?_moment, h.nextPage_eq hphase⟩
  inOrder := by
    change ((e.pages ++ [(w.table.moment, nextPage w e filter)]).map Prod.fst).Pairwise (· ≤ ·)
    rw [List.map_append, List.map_singleton]
    refine List.pairwise_append.mpr ⟨h.inOrder, List.pairwise_singleton _ _, ?_⟩
    intro m hm m' hm'
    obtain ⟨read, hread, rfl⟩ := List.mem_map.mp hm
    obtain ⟨k, hk⟩ := List.getElem?_of_mem hread
    obtain ⟨-, -, -, t, ht, -⟩ := h.pageOf k read hk
    rw [List.mem_singleton.mp hm']
    exact Timeline.le_moment ht
  full k read hread hcase := by
    rcases getElem?_concat_cases hread with hold | ⟨rfl, rfl⟩
    · exact h.full k read hold (Or.inr (by simp [hphase]))
    · have hle : (nextPage w e filter).length ≤ DEFAULT_CSV_PAGE_SIZE := List.length_take_le _ _
      rcases hcase with hlater | hopen
      · simp [AdminExports.fetched] at hlater
      · have hnot : ¬ (nextPage w e filter).length < DEFAULT_CSV_PAGE_SIZE :=
          fun hshort => hopen (if_pos hshort)
        exact Nat.le_antisymm hle (Nat.le_of_not_lt hnot)
  short hended := by
    refine ⟨(w.table.moment, nextPage w e filter), List.getLast?_concat, ?_⟩
    simp only [AdminExports.fetched] at hended
    split at hended
    · next hshort => exact hshort
    · cases hended

/-- An export that is opened, or stops, keeps its pages. -/
theorem Sound.setPhase (h : Sound newDate w e) {phase : Phase} (hopen : e.phase ≠ .ended)
    (hended : phase ≠ .ended) : Sound newDate w { e with phase } where
  createdAt := h.createdAt
  began := h.began
  pageOf := h.pageOf
  inOrder := h.inOrder
  full k read hread _ := h.full k read hread (Or.inr hopen)
  short h := absurd h hended

theorem Sound.moved (h : Sound newDate w e) (hmoved : Moved w e e' a) : Sound newDate w e' := by
  have hopen : ∀ {phase : Phase}, e.phase = phase → phase ≠ .ended → e.phase ≠ .ended :=
    fun heq hne => heq ▸ hne
  cases hmoved with
  | audited n ha hphase heq =>
    rw [heq]
    exact h.setPhase (hopen hphase (by simp)) (by simp)
  | refused n ha hphase heq =>
    rw [heq]
    exact h.setPhase (hopen hphase (by simp)) (by simp)
  | fetched n filter ha hphase hfilter heq =>
    rw [heq]
    exact h.fetched hphase hfilter
  | failed n err ha hphase heq =>
    rw [heq]
    exact h.setPhase (hopen hphase (by simp)) (by simp)

/-- The exports see only the table. -/
theorem Sound.of_table (h : Sound newDate w e) (htable : w'.table = w.table) :
    Sound newDate w' e := by
  obtain ⟨table, auditLogs, exports⟩ := w
  obtain ⟨table', auditLogs', exports'⟩ := w'
  cases htable
  exact ⟨h.createdAt, h.began, h.pageOf, h.inOrder, h.full, h.short⟩

theorem Consistent.change (h : Consistent newDate w) {t : Table report.id}
    (hkept : Kept w.table.now t) : Consistent newDate { w with table := w.table.change t } where
  kept := h.kept.change (fun _ => List.Subset.refl _) (fun _ _ _ => List.Subset.trans) hkept
  sound e he := (h.sound e he).change t

theorem consistent_step (h : Consistent newDate w) (hstep : step newDate w a = some w') :
    Consistent newDate w' := by
  cases stepped_of_step hstep with
  | insert row ha heq =>
    rw [heq]
    exact h.change (kept_insertNew _ row)
  | update change heq =>
    rw [heq]
    refine h.change ?_
    rw [Kept, keys_updateMany]
    exact List.Subset.refl _
  | start adminId range heq =>
    rw [heq]
    refine ⟨h.kept, fun e he => ?_⟩
    rcases List.mem_append.mp he with hold | hnew
    · exact (h.sound e hold).of_table rfl
    · rw [List.mem_singleton.mp hnew]
      exact (sound_start w adminId range).of_table rfl
  | own n e e' he he' heq =>
    rw [heq]
    refine ⟨h.kept, fun f hf => ?_⟩
    rcases List.mem_or_eq_of_mem_set hf with hold | rfl
    · exact (h.sound f hold).of_table rfl
    · have hsound := h.sound e (List.mem_of_getElem? he)
      exact (hsound.moved (moved_of_exportStep he')).of_table rfl

theorem consistent_of_reachable (h : Reachable (step newDate) anyStep Initial w) :
    Consistent newDate w := by
  refine h.invariant ?_ fun s a s' hs _ hstep => consistent_step hs hstep
  intro w hw
  refine ⟨Timeline.along_of_past hw.past fun _ => List.Subset.refl _, fun e he => ?_⟩
  rw [hw.exports] at he
  cases he

end Invariants

section Streams

variable {newDate : String → Option Instant} {w : World report} {e : Export ρ}

/-- A mapper that does not throw writes every row of a page. -/
theorem writePage_ok {ν τ : Type} (numberToString : ν → String) (toRow : τ → List (CsvValue ν))
    (page : List τ) : writePage numberToString (fun item => .ok (toRow item)) page =
      (page.map fun item => csvRow numberToString (toRow item), none) := by
  induction page with
  | nil => rfl
  | cons item rest ih =>
    simp only [writePage, ih]
    rfl

/-- The loop over full pages, up to a short one or an error. -/
theorem writePages_of_pages {ν τ : Type} (numberToString : ν → String)
    (toRow : τ → List (CsvValue ν)) {fetchPage : ℕ → ℕ → Except Thrown (List τ)} {p : ℕ}
    {stop : Option Thrown} {lists : List (List τ)} {skip : ℕ}
    (hfetch : ∀ k page, lists[k]? = some page → fetchPage (skip+k*p) p = .ok page)
    (hstop : ∀ err, stop = some err → fetchPage (skip+lists.length*p) p = .error err)
    (hfull : ∀ k page, lists[k]? = some page → k+1 < lists.length ∨ stop ≠ none → page.length = p)
    (hshort : stop = none → ∃ page, lists.getLast? = some page ∧ page.length < p) :
    writePages numberToString fetchPage (fun item => .ok (toRow item)) p (lists.length+1) skip =
      some (lists.flatten.map (fun item => csvRow numberToString (toRow item)), stop) := by
  induction lists generalizing skip with
  | nil =>
    cases stop with
    | none =>
      obtain ⟨page, hlast, -⟩ := hshort rfl
      cases hlast
    | some err =>
      have herror := hstop err rfl
      rw [List.length_nil, Nat.zero_mul, Nat.add_zero] at herror
      simp [writePages, herror]
  | cons page rest ih =>
    have hpage := hfetch 0 page rfl
    rw [Nat.zero_mul, Nat.add_zero] at hpage
    rw [List.length_cons, writePages]
    simp only [hpage, writePage_ok]
    by_cases hend : rest = [] ∧ stop = none
    · obtain ⟨rfl, rfl⟩ := hend
      obtain ⟨last, hlast, hlt⟩ := hshort rfl
      have hsame : page = last := by simpa using hlast
      rw [if_pos (hsame ▸ hlt)]
      simp
    · have hnext : 0+1 < (page :: rest).length ∨ stop ≠ none := by
        by_cases hstop : stop = none
        · have hne : rest ≠ [] := fun hnil => hend ⟨hnil, hstop⟩
          exact Or.inl (Nat.succ_lt_succ (List.length_pos_iff.mpr hne))
        · exact Or.inr hstop
      have hlength := hfull 0 page rfl hnext
      have hrest : writePages numberToString fetchPage (fun item => .ok (toRow item)) p
          (rest.length+1) (skip+p) =
            some (rest.flatten.map (fun item => csvRow numberToString (toRow item)), stop) := by
        refine ih ?_ ?_ ?_ ?_
        · intro k page' hget
          have hlater := hfetch (k+1) page' hget
          rwa [Nat.succ_mul, Nat.add_comm (k*p), ← Nat.add_assoc] at hlater
        · intro err herr
          have hlater := hstop err herr
          rwa [List.length_cons, Nat.succ_mul, Nat.add_comm (rest.length*p), ← Nat.add_assoc]
            at hlater
        · intro k page' hget hcase
          exact hfull (k+1) page' hget (hcase.imp_left Nat.succ_lt_succ)
        · intro hnone
          obtain ⟨last, hlast, hlt⟩ := hshort hnone
          have hne : rest ≠ [] := fun hnil => hend ⟨hnil, hnone⟩
          rw [List.getLast?_cons_of_ne_nil hne] at hlast
          exact ⟨last, hlast, hlt⟩
      rw [if_neg (by omega), hlength, hrest]
      simp

/-- What the queries of an export returned. -/
def fetchPages (e : Export ρ) (skip _take : ℕ) : Except Thrown (List ρ) :=
  match e.pages[skip/DEFAULT_CSV_PAGE_SIZE]?, e.phase with
  | some read, _ => .ok read.2
  | none, .destroyed err => .error err
  | none, _ => .ok []

/-- The phase of an export that is over. -/
def closedBy : Option Thrown → Phase
  | none => .ended
  | some err => .destroyed err

/-- An export that is over made the calls of the common helper. -/
theorem Sound.streamCsv_eq_response (h : Sound newDate w e) (stop : Option Thrown)
    (hover : e.phase = closedBy stop) :
    streamCsv (toString : ℤ → String) (fetchPages e) (fun row => .ok (report.toRow row))
      DEFAULT_CSV_PAGE_SIZE (e.pages.length+1) report.filename report.header =
      some (response report e) := by
  have hdiv : ∀ k, (0+k*DEFAULT_CSV_PAGE_SIZE)/DEFAULT_CSV_PAGE_SIZE = k := by
    intro k
    rw [Nat.zero_add, Nat.mul_div_cancel k (by decide)]
  have hopen : stop ≠ none → e.phase ≠ .ended := by
    cases stop <;> simp [hover, closedBy]
  have hwritten : writePages (toString : ℤ → String) (fetchPages e)
      (fun row => .ok (report.toRow row)) DEFAULT_CSV_PAGE_SIZE
      ((e.pages.map Prod.snd).length+1) 0 =
        some ((e.pages.map Prod.snd).flatten.map (fun row => csvRow toString (report.toRow row)),
          stop) := by
    refine writePages_of_pages _ report.toRow ?_ ?_ ?_ ?_
    · intro k page hget
      rw [List.getElem?_map] at hget
      obtain ⟨read, hread, rfl⟩ := Option.map_eq_some_iff.mp hget
      simp only [fetchPages, hdiv, hread]
    · intro err herr
      rw [herr] at hover
      simp only [fetchPages, List.length_map, hdiv, List.getElem?_length, hover, closedBy]
    · intro k page hget hcase
      rw [List.getElem?_map] at hget
      obtain ⟨read, hread, rfl⟩ := Option.map_eq_some_iff.mp hget
      rw [List.length_map] at hcase
      exact h.full k read hread (hcase.imp_right hopen)
    · intro hnone
      rw [hnone] at hover
      obtain ⟨read, hlast, hlt⟩ := h.short hover
      exact ⟨read.2, by rw [List.getLast?_map, hlast, Option.map_some], hlt⟩
  rw [List.length_map, ← List.flatMap_def] at hwritten
  rw [streamCsv, hwritten]
  cases stop <;> simp [response, hover, closedBy, Export.rows, List.map_map, Function.comp_def]

end Streams

section Pages

variable {newDate : String → Option Instant} {w : World report} {e : Export ρ}
  {filter : DateTimeFilter} {n : ℕ} {tables : ℕ → Table report.id}

/-- The pages of an ended export, and the tables that they were read from. -/
structure ReadFrom (w : World report) (e : Export ρ) (filter : DateTimeFilter) (n : ℕ)
    (tables : ℕ → Table report.id) : Prop where
  length : e.pages.length = n+1
  pageOf : ∀ k ≤ n, ∃ read, e.pages[k]? = some read ∧ e.began ≤ read.1 ∧
    w.table.at? read.1 = some (tables k) ∧
    read.2 = page DEFAULT_CSV_PAGE_SIZE k (report.listing filter (tables k))
  last : (report.admitted filter (tables n)).length < (n+1)*DEFAULT_CSV_PAGE_SIZE

theorem Sound.readFrom (h : Sound newDate w e) (hended : e.phase = .ended) :
    ∃ filter, createdAtWhere newDate e.range = some filter ∧
      ∃ n tables, ReadFrom w e filter n tables := by
  obtain ⟨last, hlast, hshort⟩ := h.short hended
  have hne : e.pages ≠ [] := by
    intro hnil
    rw [hnil] at hlast
    cases hlast
  obtain ⟨n, hn⟩ := Nat.exists_eq_succ_of_ne_zero (List.length_pos_iff.mpr hne).ne'
  rw [List.getLast?_eq_getElem?, hn, Nat.succ_sub_one] at hlast
  obtain ⟨-, filter, hfilter, -⟩ := h.pageOf n last hlast
  -- past the last page any table will do
  have hread : ∀ k, ∃ t, k ≤ n → ∃ read, e.pages[k]? = some read ∧ e.began ≤ read.1 ∧
      w.table.at? read.1 = some t ∧
      read.2 = page DEFAULT_CSV_PAGE_SIZE k (report.listing filter t) := by
    intro k
    by_cases hk : k ≤ n
    · have hget : e.pages[k]? = some e.pages[k] := List.getElem?_eq_getElem (by omega)
      obtain ⟨hbegan, filter', hfilter', t, ht, hrows⟩ := h.pageOf k _ hget
      rw [hfilter] at hfilter'
      cases hfilter'
      exact ⟨t, fun _ => ⟨_, hget, hbegan, ht, hrows⟩⟩
    · exact ⟨w.table.now, fun hle => absurd hle hk⟩
  choose tables htables using hread
  refine ⟨filter, h.createdAt ▸ hfilter, n, tables, hn, htables, ?_⟩
  obtain ⟨read, hget, -, -, hrows⟩ := htables n (le_refl n)
  rw [hlast] at hget
  cases hget
  rw [hrows, page, List.length_take, List.length_drop,
    (ordered_listing filter (tables n)).perm.length_eq] at hshort
  rw [Nat.succ_mul]
  omega

/-- The tables of two pages one after the other. -/
theorem ReadFrom.along (h : ReadFrom w e filter n tables) (hsound : Sound newDate w e)
    {R : Table report.id → Table report.id → Prop} (hR : w.table.Along R) :
    ∀ k < n, R (tables k) (tables (k+1)) := by
  intro k hk
  obtain ⟨read, hread, -, ht, -⟩ := h.pageOf k hk.le
  obtain ⟨read', hread', -, ht', -⟩ := h.pageOf (k+1) hk
  obtain ⟨hlt, hget⟩ := List.getElem?_eq_some_iff.mp hread
  obtain ⟨hlt', hget'⟩ := List.getElem?_eq_some_iff.mp hread'
  have horder := List.pairwise_iff_getElem.mp hsound.inOrder k (k+1) (by simpa using hlt)
    (by simpa using hlt') (Nat.lt_succ_self k)
  rw [List.getElem_map, List.getElem_map, hget, hget'] at horder
  exact hR _ _ _ _ horder ht ht'

theorem growing_listings (filter : DateTimeFilter)
    (hkept : ∀ k < n, Kept (tables k) (tables (k+1))) :
    Growing report.key (fun k => report.admitted filter (tables k))
      (fun k => report.listing filter (tables k)) n where
  ordered _ _ := ordered_listing filter _
  keys _ _ := admittedKeys_nodup filter _
  kept k hk := (hkept k hk).admitted filter

/-- The rows of the file are those of the pages. -/
theorem ReadFrom.rows_eq (h : ReadFrom w e filter n tables) :
    e.rows = pages DEFAULT_CSV_PAGE_SIZE (n+1) fun k => report.listing filter (tables k) := by
  rw [Export.rows, pages, List.flatMap_def, List.flatMap_def]
  congr 1
  refine List.ext_getElem? fun k => ?_
  rw [List.getElem?_map, List.getElem?_map]
  by_cases hk : k ≤ n
  · obtain ⟨read, hread, -, -, heq⟩ := h.pageOf k hk
    rw [hread, List.getElem?_range (Nat.lt_succ_of_le hk)]
    exact congrArg some heq
  · have hlength := h.length
    rw [List.getElem?_eq_none (by omega), List.getElem?_eq_none (by simp; omega)]
    rfl

theorem ReadFrom.mem_rows (h : ReadFrom w e filter n tables) {row : ρ} : row ∈ e.rows ↔
    ∃ k ≤ n, row ∈ page DEFAULT_CSV_PAGE_SIZE k (report.listing filter (tables k)) := by
  rw [h.rows_eq, pages, List.mem_flatMap]
  simp only [List.mem_range, Nat.lt_succ_iff]

theorem endResponse_mem_iff : ResponseCall.endResponse ∈ response report e ↔ e.phase = .ended := by
  obtain ⟨adminId, range, createdAt, began, pages, phase⟩ := e
  cases phase <;> simp [response, opening, closing]

/-- A file that was ended holds every row that was stored at the request, and no
row that was not stored in its range at a moment since. -/
theorem ended_export_complete (h : Reachable (step newDate) anyStep Initial w) (he : e ∈ w.exports)
    (hended : ResponseCall.endResponse ∈ response report e) :
    streamCsv (toString : ℤ → String) (fetchPages e) (fun row => .ok (report.toRow row))
      DEFAULT_CSV_PAGE_SIZE (e.pages.length+1) report.filename report.header =
        some (response report e) ∧
    ∃ filter, createdAtWhere newDate e.range = some filter ∧
      (∃ t, w.table.at? e.began = some t ∧ ∀ row ∈ t.rows,
        filter.admits (report.createdAt row) = true →
        ∃ row' ∈ e.rows, report.id row' = report.id row ∧
          report.createdAt row' = report.createdAt row) ∧
      ∀ row ∈ e.rows, filter.admits (report.createdAt row) = true ∧
        ∃ m t, e.began ≤ m ∧ w.table.at? m = some t ∧ row ∈ t.rows := by
  have hconsistent := consistent_of_reachable h
  have hsound := hconsistent.sound e he
  have hphase := endResponse_mem_iff.mp hended
  obtain ⟨filter, hfilter, n, tables, hread⟩ := hsound.readFrom hphase
  refine ⟨hsound.streamCsv_eq_response none hphase, filter, hfilter, ?_, ?_⟩
  · obtain ⟨t, ht⟩ := Timeline.exists_at? hsound.began
    refine ⟨t, ht, fun row hrow hadmits => ?_⟩
    obtain ⟨first, -, hbegan, hfirst, -⟩ := hread.pageOf 0 (Nat.zero_le n)
    have hkept : Kept t (tables 0) := hconsistent.kept _ _ _ _ hbegan ht hfirst
    have hkey := hkept.admitted filter (List.mem_map_of_mem (mem_admitted.mpr ⟨hrow, hadmits⟩))
    have hgrowing := growing_listings filter (hread.along hsound hconsistent.kept)
    obtain ⟨k, hk, row', hpage, hsame⟩ := hgrowing.covered (by decide) hread.last hkey
    refine ⟨row', hread.mem_rows.mpr ⟨k, hk, hpage⟩, ?_, ?_⟩
    · exact congrArg (fun x => (ofLex x).2) hsame
    · exact congrArg (fun x => (ofLex x).1) hsame
  · intro row hrow
    obtain ⟨k, hk, hpage⟩ := hread.mem_rows.mp hrow
    obtain ⟨read, -, hbegan, ht, -⟩ := hread.pageOf k hk
    have hlisted := mem_listing.mp (List.mem_of_mem_drop (List.mem_of_mem_take hpage))
    exact ⟨hlisted.2, read.1, tables k, hbegan, ht, hlisted.1⟩

end Pages

section Appended

variable {newDate : String → Option Instant} {w w' : World report} {e : Export ρ}
  {a : Action report} {t t' t'' : Table report.id}

/-- The keys grow with time: a new row comes behind all others. -/
def Appends (w : World report) (a : Action report) : Prop :=
  ∀ row, a = .insert row → ∀ r ∈ w.table.now.rows, report.key r < report.key row

/-- Rows are kept, and others come behind them. -/
structure Extended (t t' : Table report.id) : Prop where
  kept : Kept t t'
  behind : Behind (t.rows.map report.key) (t'.rows.map report.key)

theorem Extended.refl (t : Table report.id) : Extended t t :=
  ⟨List.Subset.refl _, fun _ _ _ hy hnew => absurd hy hnew⟩

theorem Extended.trans (h : Extended t t') (h' : Extended t' t'') : Extended t t'' := by
  refine ⟨List.Subset.trans h.kept h'.kept, fun x hx y hy hnew => ?_⟩
  by_cases hmid : y ∈ t'.rows.map report.key
  · exact h.behind x hx y hmid hnew
  · exact h'.behind x (h.kept hx) y hy hmid

theorem extended_insertNew {row : ρ} (h : ∀ r ∈ t.rows, report.key r < report.key row) :
    Extended t (t.insertNew row) := by
  refine ⟨kept_insertNew t row, fun x hx y hy hnew => ?_⟩
  obtain ⟨r, hr, rfl⟩ := List.mem_map.mp hx
  obtain ⟨s, hs, rfl⟩ := List.mem_map.mp hy
  rcases Table.mem_insertNew.mp hs with hold | ⟨rfl, -⟩
  · exact absurd (List.mem_map_of_mem hold) hnew
  · exact h r hr

theorem extended_updateMany (t : Table report.id) (change : Change report) :
    Extended t (t.updateMany (fun _ => True) change.set change.id_eq) := by
  have hkeys := keys_updateMany t change
  refine ⟨?_, ?_⟩
  · rw [Kept, hkeys]
    exact List.Subset.refl _
  · rw [hkeys]
    exact (Extended.refl t).behind

theorem Extended.admitted (h : Extended t t') (filter : DateTimeFilter) :
    Behind ((report.admitted filter t).map report.key)
      ((report.admitted filter t').map report.key) := by
  intro x hx y hy hnew
  obtain ⟨hx, -⟩ := mem_admittedKeys.mp hx
  obtain ⟨hy, hadmits⟩ := mem_admittedKeys.mp hy
  exact h.behind x hx y hy fun hold => hnew (mem_admittedKeys.mpr ⟨hold, hadmits⟩)

theorem extended_of_reachable (h : Reachable (step newDate) Appends Initial w) :
    w.table.Along Extended := by
  refine h.invariant (I := fun w => w.table.Along Extended)
    (fun _ hw => Timeline.along_of_past hw.past Extended.refl) ?_
  intro w a w' hw hok hstep
  have hchange := fun t => hw.change (s := t) Extended.refl fun _ _ _ => Extended.trans
  cases stepped_of_step hstep with
  | insert row ha heq =>
    rw [heq]
    exact hchange _ (extended_insertNew (hok row ha))
  | update change heq =>
    rw [heq]
    exact hchange _ (extended_updateMany _ change)
  | start adminId range heq =>
    rw [heq]
    exact hw
  | own n e e' he he' heq =>
    rw [heq]
    exact hw

end Appended

section Audits

variable {newDate : String → Option Instant} {w w' : World report} {e e' : Export ρ}
  {a : Action report}

/-- Has this export been opened, and is this its audit row? -/
def opensUnder (log : AuditLog) (e : Export ρ) : Bool :=
  e.opened && decide (exportLog e.adminId e.range = log)

/-- As many audit rows as opened exports. -/
def Audited (w : World report) : Prop :=
  ∀ log, w.auditLogs.count log = w.exports.countP (opensUnder log)

/-- An export is opened and recorded in one step. -/
theorem count_logsOf (h : Moved w e e' a) (log : AuditLog) :
    (logsOf e a).count log+(opensUnder log e).toNat = (opensUnder log e').toNat := by
  cases h with
  | audited n ha hphase heq =>
    rw [ha, heq]
    by_cases hlog : exportLog e.adminId e.range = log <;>
      simp [logsOf, opensUnder, Export.opened, hphase, hlog]
  | refused n ha hphase heq =>
    rw [ha, heq]
    simp [logsOf, opensUnder, Export.opened, hphase]
  | fetched n filter ha hphase hfilter heq =>
    rw [ha, heq]
    by_cases hshort : (nextPage w e filter).length < DEFAULT_CSV_PAGE_SIZE <;>
      simp [logsOf, opensUnder, Export.opened, AdminExports.fetched, hphase, hshort]
  | failed n err ha hphase heq =>
    rw [ha, heq]
    simp [logsOf, opensUnder, Export.opened, hphase]

theorem audited_step (haudited : report.audited = true) (h : Audited w)
    (hstep : step newDate w a = some w') : Audited w' := by
  cases stepped_of_step hstep with
  | insert row ha heq =>
    rw [heq]
    exact h
  | update change heq =>
    rw [heq]
    exact h
  | start adminId range heq =>
    intro log
    rw [heq, List.countP_append, h log, haudited]
    simp [opensUnder, Export.opened]
  | own n e e' he he' heq =>
    intro log
    have hset := countP_set_add (opensUnder log) he e'
    have hlogs := count_logsOf (moved_of_exportStep he') log
    rw [heq, List.count_append, h log]
    dsimp only
    omega

theorem response_eq_nil (h : e.opened = false) : response report e = [] := by
  obtain ⟨adminId, range, createdAt, began, pages, phase⟩ := e
  cases phase with
  | auditing => rfl
  | refused => rfl
  | streaming => cases h
  | ended => cases h
  | destroyed err => cases h

end Audits

section Sample

def bakery : Merchant :=
  ⟨"m1", "Bakery Ltd", "Bakery", "1234567890", "TR330006100519786457841326", "VERIFIED", none,
    1767225600000⟩

def grocer : Merchant :=
  { bakery with id := "m2", tradeName := "=Grocer", createdAt := 1767229200000 }

/-- `new Date` of one date. -/
def newYear (date : String) : Option Instant :=
  if date = "2026-01-01" then some 1767225600000 else none

def noMerchants : World merchantsCsv := ⟨⟨[], .empty⟩, [], []⟩

/-- A merchant registers while the export is under way. -/
def merchantsExport : List (Action merchantsCsv) :=
  [.insert bakery, .start "admin" ⟨some "2026-01-01", none⟩, .audit 0, .insert grocer, .fetchPage 0]

def exported : Export Merchant :=
  ⟨"admin", ⟨some "2026-01-01", none⟩, some ⟨some 1767225600000, none⟩, 1,
    [(2, [bakery, grocer])], .ended⟩

theorem mem_merchantsExport :
    exported ∈ (after (step newYear) noMerchants merchantsExport).exports := by
  have hall : (after (step newYear) noMerchants merchantsExport).exports = [exported] := rfl
  rw [hall]
  exact List.mem_singleton_self _

theorem appends_merchantsExport :
    Reachable (step newYear) Appends Initial (after (step newYear) noMerchants merchantsExport) := by
  refine reachable_after_guarded (.start ⟨rfl, rfl, rfl⟩) ⟨?_, ?_, ?_, ?_, ?_, trivial⟩
    (by decide +kernel)
  · intro row _ r hr
    cases hr
  · intro row h
    cases h
  · intro row h
    cases h
  · intro row h r hr
    cases h
    rw [List.mem_singleton.mp (show r ∈ [bakery] from hr)]
    exact Prod.Lex.toLex_lt_toLex.mpr (Or.inl (by decide))
  · intro row h
    cases h

theorem ended_export_complete_merchantsExport :
    (∃ row ∈ exported.rows, row.id = bakery.id ∧ row.createdAt = bakery.createdAt) ∧
      ResponseCall.endResponse ∈ response merchantsCsv exported := by
  have hended : ResponseCall.endResponse ∈ response merchantsCsv exported :=
    endResponse_mem_iff.mpr rfl
  obtain ⟨-, filter, hfilter, ⟨t, ht, hrows⟩, -⟩ :=
    ended_export_complete appends_merchantsExport.toAny mem_merchantsExport hended
  have hsame : filter = ⟨some 1767225600000, none⟩ := (Option.some.inj hfilter).symm
  have hstored : Table.empty.insertNew bakery = t := Option.some.inj ht
  refine ⟨hrows bakery (hstored ▸ List.mem_cons_self) ?_, hended⟩
  rw [hsame]
  decide

end Sample

end Kurtar.CompleteExports

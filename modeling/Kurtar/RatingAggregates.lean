import Kurtar.StoreRatings

/-!
# The aggregate of a store is always right

A transaction that may change which ratings of a store are approved commits
only while it holds the store's row, with the aggregate of what it commits.
What others commit meanwhile concerns other stores, or adds ratings that are
not approved, so the aggregate it has read stays the right one.
-/

namespace Kurtar.RatingAggregates

open GuardedRuns KeyedTable LockedTransactions Transaction StoreRatings

/-- The ratings of a store. -/
def ratingsOf (d : Db) (storeId : ℕ) : List Rating :=
  d.ratings.rows.filter fun r => r.storeId = storeId

theorem approvedOf_eq (d : Db) (storeId : ℕ) :
    approvedOf d storeId = (ratingsOf d storeId).filter fun r => r.moderationStatus = .approved := by
  rw [ratingsOf, List.filter_filter, approvedOf]
  congr 1
  funext r
  rw [Bool.decide_and, Bool.and_comm]

/-- A change as it acts on the ratings of one store. -/
def onRatings (storeId : ℕ) : Change → List Rating → List Rating
  | .create r, ratings => if r.storeId = storeId then ratings ++ [r] else ratings
  | .update id status, ratings =>
    ratings.map fun r => if r.id = id then { r with moderationStatus := status } else r
  | .delete id, ratings => ratings.filter fun r => r.id ≠ id

/-- The rating that a change is about belongs to the store. -/
def Target (d : Db) (storeId : ℕ) : Change → Prop
  | .create r => r.storeId = storeId ∧ r.id ∉ d.ratingIds
  | .update id _ => id ∈ d.ratingIds ∧ ∀ r ∈ d.ratings.rows, r.id = id → r.storeId = storeId
  | .delete id => id ∈ d.ratingIds ∧ ∀ r ∈ d.ratings.rows, r.id = id → r.storeId = storeId

/-- Every stored rating has an id that was given out. -/
def KnownIds (d : Db) : Prop := ∀ r ∈ d.ratings.rows, r.id ∈ d.ratingIds

/-- Every store shows the count and the average of its approved ratings. -/
def ShowsAggregates (d : Db) : Prop :=
  ∀ store ∈ d.stores.rows, store.ratingCount = (aggregate d store.id).count ∧
    store.avgStars = (aggregate d store.id).avg.getD 0

section Changes

variable {d : Db} {c : Change} {s t : ℕ}

theorem rows_create {r : Rating} (hids : KnownIds d) (hfresh : r.id ∉ d.ratingIds) :
    ((Change.create r).apply d).ratings.rows = d.ratings.rows ++ [r] := by
  apply Table.rows_insertNew_of_fresh
  intro q hq heq
  exact hfresh (heq ▸ hids q hq)

theorem ratingsOf_apply (hids : KnownIds d) (htarget : Target d s c) (t : ℕ) :
    ratingsOf (c.apply d) t = onRatings t c (ratingsOf d t) := by
  cases c with
  | create r =>
    rw [ratingsOf, rows_create hids htarget.2, List.filter_append]
    by_cases hr : r.storeId = t <;> simp [onRatings, ratingsOf, hr]
  | update id status =>
    simp only [ratingsOf, onRatings, Change.apply, Table.updateMany, List.filter_map]
    congr 1
    apply List.filter_congr
    intro r _
    by_cases hr : r.id = id <;> simp [hr]
  | delete id =>
    simp only [ratingsOf, onRatings, Change.apply, Table.deleteMany, List.filter_filter]
    apply List.filter_congr
    intro r _
    simp [Bool.and_comm]

/-- A change leaves the other stores' ratings alone. -/
theorem ratingsOf_other (hids : KnownIds d) (htarget : Target d s c) (hne : t ≠ s) :
    ratingsOf (c.apply d) t = ratingsOf d t := by
  rw [ratingsOf_apply hids htarget]
  have hother : ∀ id, (∀ r ∈ d.ratings.rows, r.id = id → r.storeId = s) →
      ∀ r ∈ ratingsOf d t, r.id ≠ id := by
    intro id hid r hr heq
    obtain ⟨hmem, hstore⟩ := List.mem_filter.mp hr
    have hstore' : r.storeId = t := by simpa using hstore
    exact hne (hstore'.symm.trans (hid r hmem heq))
  cases c with
  | create r =>
    have hr : r.storeId ≠ t := fun heq => hne (heq.symm.trans htarget.1)
    simp only [onRatings, if_neg hr]
  | update id status =>
    have hmap : (ratingsOf d t).map (fun r =>
        if r.id = id then { r with moderationStatus := status } else r) =
          (ratingsOf d t).map fun r => r := by
      apply List.map_congr_left
      intro r hr
      rw [if_neg (hother id htarget.2 r hr)]
    simp only [onRatings, hmap, List.map_id']
  | delete id =>
    apply List.filter_eq_self.mpr
    intro r hr
    simpa using hother id htarget.2 r hr

/-- A rating that is not approved does not count, whatever else changes. -/
theorem approvedOf_create {r : Rating} (hids : KnownIds d) (hfresh : r.id ∉ d.ratingIds)
    (hstatus : r.moderationStatus ≠ .approved) :
    approvedOf ((Change.create r).apply d) t = approvedOf d t := by
  rw [approvedOf, rows_create hids hfresh, List.filter_append, ← approvedOf]
  simp [hstatus]

theorem approved_onRatings_append {r : Rating} {ratings : List Rating} (hid : r.id ≠ c.id)
    (hstatus : r.moderationStatus ≠ .approved) :
    (onRatings t c (ratings ++ [r])).filter (fun r => r.moderationStatus = .approved) =
      (onRatings t c ratings).filter fun r => r.moderationStatus = .approved := by
  cases c with
  | create q =>
    by_cases hq : q.storeId = t <;> simp [onRatings, hq, hstatus]
  | update id status =>
    have hr : r.id ≠ id := hid
    simp [onRatings, hr, hstatus]
  | delete id =>
    have hr : r.id ≠ id := hid
    simp [onRatings, hr, hstatus]

theorem knownIds_apply (hids : KnownIds d) (htarget : Target d s c) : KnownIds (c.apply d) := by
  intro r hr
  cases c with
  | create q =>
    rw [rows_create hids htarget.2] at hr
    rcases List.mem_append.mp hr with hr | hr
    · exact List.mem_cons_of_mem _ (hids r hr)
    · rw [List.mem_singleton.mp hr]
      exact List.mem_cons_self
  | update id status =>
    obtain ⟨q, hq, rfl⟩ := List.mem_map.mp hr
    have hmem := hids q hq
    by_cases hid : q.id = id
    · rw [if_pos hid]
      exact hmem
    · rw [if_neg hid]
      exact hmem
  | delete id => exact hids r (List.mem_filter.mp hr).1

end Changes

theorem target_create {d : Db} {r : Rating} (hfresh : r.id ∉ d.ratingIds) :
    Target d r.storeId (.create r) := ⟨rfl, hfresh⟩

/-- What follows the insert of a rating. -/
inductive AfterInsert (r : Rating) : Program Db Row → Prop
  | pending (h : r.moderationStatus = .pending) : AfterInsert r .commit
  | approved (h : r.moderationStatus = .approved) :
    AfterInsert r (recomputeStoreAggregate r.storeId .commit)

/-- What follows the recompute. -/
inductive AfterRecompute : Program Db Row → Prop
  | commit : AfterRecompute .commit
  | audit (log : AuditLog) : AfterRecompute (.insert (addAuditLog log) .commit)

/-- Where a transaction is, what it has written and what it owns. -/
inductive Stage (d : Db) (program : Program Db Row) (effect : Db → Db)
    (held : List (Row × LockMode)) : Prop
  | calling (request : Request) (hprogram : program = StoreRatings.program request)
    (heffect : effect = id)
  | idle (hprogram : program = .commit ∨ program = .rollback) (heffect : effect = id)
  | rolling (hprogram : program = .rollback)
  | locking (r : Rating) (next : Program Db Row)
    (hprogram : program = .acquire (.store r.storeId) .forUpdate (createRating r next))
    (heffect : effect = id) (hnext : AfterInsert r next)
  | creating (r : Rating) (next : Program Db Row) (hprogram : program = createRating r next)
    (heffect : effect = id) (hnext : AfterInsert r next)
  | indexing (r : Rating) (next : Program Db Row)
    (hprogram : program =
      .acquire (.ratedReservation r.reservationId) .forUpdate (checkRating r next))
    (heffect : effect = id) (hnext : AfterInsert r next) (howns : Owns held (.rating r.id))
  | checking (r : Rating) (next : Program Db Row) (hprogram : program = checkRating r next)
    (heffect : effect = id) (hnext : AfterInsert r next) (howns : Owns held (.rating r.id))
  | inserting (r : Rating) (next : Program Db Row) (hprogram : program = insertRating r next)
    (heffect : effect = id) (hnext : AfterInsert r next) (howns : Owns held (.rating r.id))
    (hfresh : r.id ∉ d.ratingIds)
  | referring (r : Rating) (next : Program Db Row)
    (hprogram : program = .acquire (.store r.storeId) .keyShare next)
    (heffect : effect = Change.apply (.create r)) (hnext : AfterInsert r next)
    (howns : Owns held (.rating r.id)) (hfresh : r.id ∉ d.ratingIds)
  | inserted (r : Rating) (hprogram : program = .commit)
    (heffect : effect = Change.apply (.create r)) (hstatus : r.moderationStatus = .pending)
    (howns : Owns held (.rating r.id)) (hfresh : r.id ∉ d.ratingIds)
  | changing (c : Change) (s : ℕ) (mode : LockMode) (guard : Db → Bool) (next : Program Db Row)
    (hprogram : program = .update (.rating c.id) mode guard c.apply fun matched =>
      if matched then recomputeStoreAggregate s next else .rollback)
    (heffect : effect = id) (hmode : mode ≠ .keyShare) (htarget : Target d s c)
    (hknown : c.id ∈ d.ratingIds) (hnext : AfterRecompute next)
  | changed (c : Change) (s : ℕ) (next : Program Db Row)
    (hprogram : program = recomputeStoreAggregate s next) (heffect : effect = c.apply)
    (htarget : Target d s c) (hnext : AfterRecompute next) (howns : Owns held (.rating c.id))
  | reading (c : Change) (s : ℕ) (next : Program Db Row)
    (hprogram : program = readAggregate s next) (heffect : effect = c.apply)
    (htarget : Target d s c) (hnext : AfterRecompute next) (howns : Owns held (.rating c.id))
    (hstore : Owns held (.store s))
  | storing (c : Change) (s : ℕ) (next : Program Db Row)
    (hprogram : program = storeAggregate s (aggregate (c.apply d) s) next)
    (heffect : effect = c.apply) (htarget : Target d s c) (hnext : AfterRecompute next)
    (howns : Owns held (.rating c.id)) (hstore : Owns held (.store s))
  | stored (c : Change) (s : ℕ) (hprogram : AfterRecompute program)
    (heffect : effect = fun d' => setAggregate s (aggregate (c.apply d) s) (c.apply d'))
    (htarget : Target d s c) (howns : Owns held (.rating c.id)) (hstore : Owns held (.store s))
  | audited (c : Change) (s : ℕ) (log : AuditLog) (hprogram : program = .commit)
    (heffect : effect = fun d' =>
      addAuditLog log (setAggregate s (aggregate (c.apply d) s) (c.apply d')))
    (htarget : Target d s c) (howns : Owns held (.rating c.id)) (hstore : Owns held (.store s))

/-- What a commit makes of the committed data. -/
inductive Outcome (d : Db) (held : List (Row × LockMode)) (d' : Db) : Prop
  | unchanged (h : d' = d)
  | uncounted (r : Rating) (h : d' = Change.apply (.create r) d) (hfresh : r.id ∉ d.ratingIds)
    (hstatus : r.moderationStatus = .pending) (howns : Owns held (.rating r.id))
  | counted (c : Change) (s : ℕ) (hratings : d'.ratings = (c.apply d).ratings)
    (hids : d'.ratingIds = (c.apply d).ratingIds)
    (hstores : d'.stores = (setAggregate s (aggregate (c.apply d) s) d).stores)
    (htarget : Target d s c) (howns : Owns held (.rating c.id)) (hstore : Owns held (.store s))

section Commits

variable {d d' : Db} {x y : Transaction Db Row} {held : List (Row × LockMode)} {s : ℕ}
  {effect : Db → Db}

theorem stores_apply (c : Change) (d : Db) : (c.apply d).stores = d.stores := by
  cases c <;> rfl

theorem outcome_of_commit (h : Stage d .commit effect held) : Outcome d held (effect d) := by
  cases h with
  | calling request hprogram =>
    cases request <;> cases hprogram
  | idle _ heffect => exact .unchanged (by rw [heffect]; rfl)
  | rolling hprogram => cases hprogram
  | locking _ _ hprogram => cases hprogram
  | creating _ _ hprogram => cases hprogram
  | indexing _ _ hprogram => cases hprogram
  | checking _ _ hprogram => cases hprogram
  | inserting _ _ hprogram => cases hprogram
  | referring _ _ hprogram => cases hprogram
  | inserted r _ heffect hstatus howns hfresh =>
    exact .uncounted r (by rw [heffect]) hfresh hstatus howns
  | changing _ _ _ _ _ hprogram => cases hprogram
  | changed _ _ _ hprogram => cases hprogram
  | reading _ _ _ hprogram => cases hprogram
  | storing _ _ _ hprogram => cases hprogram
  | stored c s _ heffect htarget howns hstore =>
    refine .counted c s ?_ ?_ ?_ htarget howns hstore
    · rw [heffect]
      rfl
    · rw [heffect]
      rfl
    · rw [heffect]
      simp only [setAggregate, stores_apply]
  | audited c s log _ heffect htarget howns hstore =>
    refine .counted c s ?_ ?_ ?_ htarget howns hstore
    · rw [heffect]
      rfl
    · rw [heffect]
      rfl
    · rw [heffect]
      simp only [addAuditLog, setAggregate, stores_apply]

/-- Only the owner of an id gives it out. -/
theorem outcome_ids (h : Outcome d held d') {id : ℕ} (hid : id ∈ d'.ratingIds) :
    id ∈ d.ratingIds ∨ Owns held (.rating id) := by
  cases h with
  | unchanged h =>
    rw [h] at hid
    exact .inl hid
  | uncounted r h _ _ howns =>
    rw [h] at hid
    rcases List.mem_cons.mp hid with hid | hid
    · rw [hid]
      exact .inr howns
    · exact .inl hid
  | counted c s _ hids _ _ howns _ =>
    rw [hids] at hid
    cases c with
    | create r =>
      rcases List.mem_cons.mp hid with hid | hid
      · rw [hid]
        exact .inr howns
      · exact .inl hid
    | update _ _ => exact .inl hid
    | delete _ => exact .inl hid

theorem outcome_ids_mono (h : Outcome d held d') {id : ℕ} (hid : id ∈ d.ratingIds) :
    id ∈ d'.ratingIds := by
  cases h with
  | unchanged h => exact h ▸ hid
  | uncounted r h =>
    rw [h]
    exact List.mem_cons_of_mem _ hid
  | counted c s _ hids =>
    rw [hids]
    cases c with
    | create r => exact List.mem_cons_of_mem _ hid
    | update _ _ => exact hid
    | delete _ => exact hid

/-- A stored rating keeps its store. -/
theorem rows_apply {c : Change} (hids : KnownIds d) (htarget : Target d s c) {r : Rating}
    (hr : r ∈ (c.apply d).ratings.rows) :
    (∃ q ∈ d.ratings.rows, q.id = r.id ∧ q.storeId = r.storeId) ∨ r.id ∉ d.ratingIds := by
  cases c with
  | create q =>
    rw [rows_create hids htarget.2] at hr
    rcases List.mem_append.mp hr with hr | hr
    · exact .inl ⟨r, hr, rfl, rfl⟩
    · rw [List.mem_singleton.mp hr]
      exact .inr htarget.2
  | update id status =>
    obtain ⟨q, hq, rfl⟩ := List.mem_map.mp hr
    refine .inl ⟨q, hq, ?_⟩
    by_cases hid : q.id = id <;> simp [hid]
  | delete id => exact .inl ⟨r, (List.mem_filter.mp hr).1, rfl, rfl⟩

theorem outcome_rows (hids : KnownIds d) (h : Outcome d held d') {r : Rating}
    (hr : r ∈ d'.ratings.rows) :
    (∃ q ∈ d.ratings.rows, q.id = r.id ∧ q.storeId = r.storeId) ∨ r.id ∉ d.ratingIds := by
  cases h with
  | unchanged h =>
    rw [h] at hr
    exact .inl ⟨r, hr, rfl, rfl⟩
  | uncounted q h hfresh =>
    rw [h] at hr
    exact rows_apply hids (target_create hfresh) hr
  | counted c s hratings _ _ htarget =>
    rw [hratings] at hr
    exact rows_apply hids htarget hr

/-- The rating of a change stays in its store while others commit. -/
theorem outcome_target (hids : KnownIds d) (h : Outcome d held d') {c : Change}
    (hc : c.id ∈ d.ratingIds ∨ ¬ Owns held (.rating c.id)) (htarget : Target d s c) :
    Target d' s c := by
  have hstays : ∀ id, (id ∈ d.ratingIds ∧ ∀ r ∈ d.ratings.rows, r.id = id → r.storeId = s) →
      id ∈ d'.ratingIds ∧ ∀ r ∈ d'.ratings.rows, r.id = id → r.storeId = s := by
    intro id hid
    refine ⟨outcome_ids_mono h hid.1, ?_⟩
    intro r hr heq
    rcases outcome_rows hids h hr with ⟨q, hq, hqid, hstore⟩ | hnew
    · rw [← hstore]
      exact hid.2 q hq (hqid.trans heq)
    · exact absurd (heq ▸ hid.1) hnew
  cases c with
  | create r =>
    refine ⟨htarget.1, ?_⟩
    intro hmem
    have hnot : ¬ Owns held (.rating r.id) := hc.resolve_left htarget.2
    rcases outcome_ids h hmem with hold | howns
    · exact htarget.2 hold
    · exact hnot howns
  | update id status => exact hstays id htarget
  | delete id => exact hstays id htarget

theorem knownIds_of_outcome (hids : KnownIds d) (h : Outcome d held d') : KnownIds d' := by
  cases h with
  | unchanged h =>
    rw [h]
    exact hids
  | uncounted r h hfresh =>
    rw [h]
    exact knownIds_apply hids (target_create hfresh)
  | counted c s hratings hids' _ htarget =>
    intro r hr
    rw [hratings] at hr
    rw [hids']
    exact knownIds_apply hids htarget r hr

/-- What a transaction has read under a store's lock stays right while others commit. -/
theorem outcome_aggregate (hids : KnownIds d) (h : Outcome d held d') {c : Change}
    (hc : c.id ∈ d.ratingIds ∨ ¬ Owns held (.rating c.id)) (hstore : ¬ Owns held (.store s))
    (htarget : Target d s c) : aggregate (c.apply d') s = aggregate (c.apply d) s := by
  have hids' := knownIds_of_outcome hids h
  have htarget' := outcome_target hids h hc htarget
  have happroved : approvedOf (c.apply d') s = approvedOf (c.apply d) s := by
    rw [approvedOf_eq, approvedOf_eq, ratingsOf_apply hids' htarget', ratingsOf_apply hids htarget]
    cases h with
    | unchanged h => rw [h]
    | uncounted r h hfresh hstatus howns =>
      have hne : r.id ≠ c.id := by
        intro heq
        rcases hc with hknown | hnot
        · exact hfresh (heq ▸ hknown)
        · exact hnot (heq ▸ howns)
      have hcounts : r.moderationStatus ≠ .approved := by
        rw [hstatus]
        decide
      rw [h, ratingsOf_apply hids (target_create hfresh)]
      by_cases hr : r.storeId = s
      · simp only [onRatings.eq_1, if_pos hr]
        exact approved_onRatings_append hne hcounts
      · simp only [onRatings.eq_1, if_neg hr]
    | counted c' s' hratings _ _ htarget'' _ hstore' =>
      have hne : s ≠ s' := fun heq => hstore (heq ▸ hstore')
      have hsame : ratingsOf d' s = ratingsOf (c'.apply d) s := by
        rw [ratingsOf, ratingsOf, hratings]
      rw [hsame, ratingsOf_other hids htarget'' hne]
  rw [aggregate, aggregate, happroved]

/-- Commits keep every store's aggregate right. -/
theorem showsAggregates_of_outcome (hids : KnownIds d) (hshows : ShowsAggregates d)
    (h : Outcome d held d') : ShowsAggregates d' := by
  cases h with
  | unchanged h =>
    rw [h]
    exact hshows
  | uncounted r h hfresh hstatus =>
    intro store hstore
    have hcounts : r.moderationStatus ≠ .approved := by
      rw [hstatus]
      decide
    rw [h, aggregate, approvedOf_create hids hfresh hcounts]
    rw [h] at hstore
    exact hshows store hstore
  | counted c s hratings _ hstores htarget =>
    intro store hstore
    have hagg : ∀ t, aggregate d' t = aggregate (c.apply d) t := by
      intro t
      rw [aggregate, aggregate, approvedOf, approvedOf, hratings]
    rw [hagg]
    rw [hstores] at hstore
    obtain ⟨old, hold, rfl⟩ := List.mem_map.mp hstore
    by_cases hid : old.id = s
    · simp [hid]
    · simp only [if_neg hid]
      rw [aggregate, approvedOf_eq, ratingsOf_other hids htarget hid, ← approvedOf_eq]
      exact hshows old hold

end Commits

section Stages

variable {d : Db} {x y : Transaction Db Row}

/-- The stage a transaction is in. -/
abbrev At (d : Db) (x : Transaction Db Row) : Prop := Stage d x.program x.effect x.held

/-- A stored rating has its store for good. -/
theorem target_of_stored (hids : KnownIds d) {r : Rating} {id : ℕ} (hr : d.ratings.find? id = some r) :
    id ∈ d.ratingIds ∧ ∀ q ∈ d.ratings.rows, q.id = id → q.storeId = r.storeId := by
  obtain ⟨hmem, hid⟩ := Table.find?_eq_some.mp hr
  refine ⟨hid ▸ hids r hmem, ?_⟩
  intro q hq hqid
  rw [d.ratings.eq_of_key_eq hq hmem (hqid.trans hid.symm)]

theorem stage_moderate (hids : KnownIds d) {adminId ratingId : ℕ} {toStatus : ModerationStatus}
    {action : String} (h : x.program = moderate adminId ratingId toStatus action)
    (heffect : x.effect = id) : At d (x.issue d) := by
  rw [issue_select h, heffect]
  dsimp only [At, id_eq]
  cases hfind : d.ratings.find? ratingId with
  | none => exact .rolling rfl
  | some rating =>
    dsimp only
    have htarget := target_of_stored hids hfind
    split_ifs with hsame
    · exact .idle (.inl rfl) rfl
    · exact .changing (.update ratingId toStatus) rating.storeId .noKeyUpdate _ _ rfl rfl
        (by decide) htarget htarget.1 (.audit _)

theorem stage_adminDelete (hids : KnownIds d) {adminId ratingId : ℕ}
    (h : x.program = adminDelete adminId ratingId) (heffect : x.effect = id) :
    At d (x.issue d) := by
  rw [issue_select h, heffect]
  dsimp only [At, id_eq]
  cases hfind : d.ratings.find? ratingId with
  | none => exact .rolling rfl
  | some rating =>
    have htarget := target_of_stored hids hfind
    exact .changing (.delete ratingId) rating.storeId .forUpdate _ _ rfl rfl (by decide) htarget
      htarget.1 (.audit _)

theorem stage_create {userId reservationId ratingId : ℕ} {dto : CreateRatingDto}
    (h : x.program = create userId reservationId dto ratingId) (heffect : x.effect = id) :
    At d (x.issue d) := by
  rw [issue_select h, heffect]
  dsimp only [At, id_eq]
  cases d.reservations.find? reservationId with
  | none => exact .rolling rfl
  | some reservation =>
    dsimp only
    split_ifs with huser hstatus hcomment happroved happroved
    · exact .rolling rfl
    · exact .rolling rfl
    · cases happroved
    · exact .creating _ _ rfl rfl (.pending rfl)
    · exact .locking ⟨ratingId, reservationId, userId, reservation.storeId, dto.overallStars,
        dto.foodQuality, dto.service, trimmedComment dto, .approved⟩ _ rfl rfl (.approved rfl)
    · exact absurd rfl happroved

/-- What follows an insert, with the rating written. -/
theorem stage_afterInsert {r : Rating} {next : Program Db Row} {effect : Db → Db}
    {held : List (Row × LockMode)} (hnext : AfterInsert r next)
    (heffect : effect = Change.apply (.create r)) (howns : Owns held (.rating r.id))
    (hfresh : r.id ∉ d.ratingIds) : Stage d next effect held := by
  cases hnext with
  | pending hstatus => exact .inserted r rfl heffect hstatus howns hfresh
  | approved _ =>
    exact .changed (.create r) r.storeId _ rfl heffect (target_create hfresh) .commit howns

/-- Issuing a statement leads to the next stage. -/
theorem stage_issue (hids : KnownIds d) (h : At d x) (hcommit : x.program ≠ .commit) :
    At d (x.issue d) := by
  cases h with
  | calling request hprogram heffect =>
    cases request with
    | create => exact stage_create hprogram heffect
    | adminApprove => exact stage_moderate hids hprogram heffect
    | rejectRating => exact stage_moderate hids hprogram heffect
    | adminDelete => exact stage_adminDelete hids hprogram heffect
  | idle hprogram heffect =>
    have hrollback := hprogram.resolve_left hcommit
    unfold issue
    rw [hrollback]
    exact .rolling rfl
  | rolling hprogram =>
    unfold issue
    rw [hprogram]
    exact .rolling rfl
  | locking r next hprogram heffect hnext =>
    rw [issue_acquire hprogram]
    exact .locking r next hprogram heffect hnext
  | creating r next hprogram heffect hnext =>
    rw [issue_acquire hprogram]
    exact .creating r next hprogram heffect hnext
  | indexing r next hprogram heffect hnext howns =>
    rw [issue_acquire hprogram]
    exact .indexing r next hprogram heffect hnext howns
  | checking r next hprogram heffect hnext howns =>
    rw [issue_select hprogram, heffect]
    by_cases htaken : r.id ∈ d.ratingIds ∨
        ∃ q ∈ d.ratings.rows, q.reservationId = r.reservationId
    · exact .rolling (if_pos htaken)
    · exact .inserting r next (if_neg htaken) rfl hnext howns fun hid => htaken (.inl hid)
  | inserting r next hprogram heffect hnext howns hfresh =>
    rw [issue_insert hprogram]
    exact .referring r next rfl (by rw [heffect]; rfl) hnext howns hfresh
  | referring r next hprogram heffect hnext howns hfresh =>
    rw [issue_acquire hprogram]
    exact .referring r next hprogram heffect hnext howns hfresh
  | inserted _ hprogram => exact absurd hprogram hcommit
  | changing c s mode guard next hprogram heffect hmode htarget hknown hnext =>
    rcases issue_update hprogram with hissue | hissue
    · rw [hissue]
      exact .changing c s mode guard next hprogram heffect hmode htarget hknown hnext
    · rw [hissue]
      exact .rolling rfl
  | changed c s next hprogram heffect htarget hnext howns =>
    rw [issue_acquire hprogram]
    exact .changed c s next hprogram heffect htarget hnext howns
  | reading c s next hprogram heffect htarget hnext howns hstore =>
    rw [issue_select hprogram]
    exact .storing c s next (by rw [heffect]) heffect htarget hnext howns hstore
  | storing c s next hprogram heffect htarget hnext howns hstore =>
    rcases issue_update hprogram with hissue | hissue
    · rw [hissue]
      exact .storing c s next hprogram heffect htarget hnext howns hstore
    · rw [hissue]
      exact .rolling rfl
  | stored c s hprogram heffect htarget howns hstore =>
    generalize hp : x.program = p at hprogram
    cases hprogram with
    | commit => exact absurd hp hcommit
    | audit log =>
      rw [issue_insert hp]
      exact .audited c s log rfl (by rw [heffect]) htarget howns hstore
  | audited _ _ _ hprogram => exact absurd hprogram hcommit

/-- Getting a row leads to the next stage. -/
theorem stage_grant {want : Row × LockMode} (h : At d x) (hwanted : x.wanted = some want) :
    At d (x.grant d) := by
  cases h with
  | calling request hprogram =>
    have hselect : ∃ next, x.program = .select next := by
      cases request <;> exact ⟨_, hprogram⟩
    obtain ⟨next, hselect⟩ := hselect
    rw [wanted_select hselect] at hwanted
    cases hwanted
  | idle hprogram =>
    rcases hprogram with hprogram | hprogram
    · rw [wanted_commit hprogram] at hwanted
      cases hwanted
    · rw [wanted_rollback hprogram] at hwanted
      cases hwanted
  | rolling hprogram =>
    rw [wanted_rollback hprogram] at hwanted
    cases hwanted
  | locking r next hprogram heffect hnext =>
    rw [grant_acquire hprogram]
    exact .creating r next rfl heffect hnext
  | creating r next hprogram heffect hnext =>
    rw [grant_acquire hprogram]
    exact .indexing r next rfl heffect hnext (owns_cons_self _ _ (by decide))
  | indexing r next hprogram heffect hnext howns =>
    rw [grant_acquire hprogram]
    exact .checking r next rfl heffect hnext (howns.cons _)
  | checking r next hprogram =>
    rw [wanted_select hprogram] at hwanted
    cases hwanted
  | inserting r next hprogram =>
    rw [wanted_insert hprogram] at hwanted
    cases hwanted
  | referring r next hprogram heffect hnext howns hfresh =>
    rw [grant_acquire hprogram]
    exact stage_afterInsert hnext heffect (howns.cons _) hfresh
  | inserted r hprogram =>
    rw [wanted_commit hprogram] at hwanted
    cases hwanted
  | changing c s mode guard next hprogram heffect hmode htarget hknown hnext =>
    rcases grant_update hprogram with ⟨_, hgrant⟩ | ⟨_, hgrant⟩
    · rw [hgrant]
      exact .changed c s next rfl (by rw [heffect]; rfl) htarget hnext
        (owns_cons_self _ _ hmode)
    · rw [hgrant]
      exact .rolling rfl
  | changed c s next hprogram heffect htarget hnext howns =>
    rw [grant_acquire hprogram]
    exact .reading c s next rfl heffect htarget hnext (howns.cons _)
      (owns_cons_self _ _ (by decide))
  | reading c s next hprogram =>
    rw [wanted_select hprogram] at hwanted
    cases hwanted
  | storing c s next hprogram heffect htarget hnext howns hstore =>
    rcases grant_update hprogram with ⟨_, hgrant⟩ | ⟨_, hgrant⟩
    · rw [hgrant]
      exact .stored c s hnext (by rw [heffect]) htarget (howns.cons _) (hstore.cons _)
    · rw [hgrant]
      exact .rolling rfl
  | stored c s hprogram =>
    generalize hp : x.program = p at hprogram
    cases hprogram with
    | commit =>
      rw [wanted_commit hp] at hwanted
      cases hwanted
    | audit log =>
      rw [wanted_insert hp] at hwanted
      cases hwanted
  | audited _ _ _ hprogram =>
    rw [wanted_commit hprogram] at hwanted
    cases hwanted

/-- A stage lasts while others commit. -/
theorem stage_outcome {d' : Db} {held : List (Row × LockMode)} (hids : KnownIds d)
    (hout : Outcome d held d') (hrow : ∀ row, Owns held row → ¬ Owns x.held row) (h : At d x) :
    At d' x := by
  have hfree : ∀ row, Owns x.held row → ¬ Owns held row := fun row hx hy => hrow row hy hx
  have hstays : ∀ id, Owns x.held (.rating id) → id ∉ d.ratingIds → id ∉ d'.ratingIds := by
    intro id howns hfresh hid
    rcases outcome_ids hout hid with hold | howns'
    · exact hfresh hold
    · exact hfree _ howns howns'
  cases h with
  | calling request hprogram heffect => exact .calling request hprogram heffect
  | idle hprogram heffect => exact .idle hprogram heffect
  | rolling hprogram => exact .rolling hprogram
  | locking r next hprogram heffect hnext => exact .locking r next hprogram heffect hnext
  | creating r next hprogram heffect hnext => exact .creating r next hprogram heffect hnext
  | indexing r next hprogram heffect hnext howns =>
    exact .indexing r next hprogram heffect hnext howns
  | checking r next hprogram heffect hnext howns =>
    exact .checking r next hprogram heffect hnext howns
  | inserting r next hprogram heffect hnext howns hfresh =>
    exact .inserting r next hprogram heffect hnext howns (hstays _ howns hfresh)
  | referring r next hprogram heffect hnext howns hfresh =>
    exact .referring r next hprogram heffect hnext howns (hstays _ howns hfresh)
  | inserted r hprogram heffect hstatus howns hfresh =>
    exact .inserted r hprogram heffect hstatus howns (hstays _ howns hfresh)
  | changing c s mode guard next hprogram heffect hmode htarget hknown hnext =>
    exact .changing c s mode guard next hprogram heffect hmode
      (outcome_target hids hout (.inl hknown) htarget) (outcome_ids_mono hout hknown) hnext
  | changed c s next hprogram heffect htarget hnext howns =>
    exact .changed c s next hprogram heffect
      (outcome_target hids hout (.inr (hfree _ howns)) htarget) hnext howns
  | reading c s next hprogram heffect htarget hnext howns hstore =>
    exact .reading c s next hprogram heffect
      (outcome_target hids hout (.inr (hfree _ howns)) htarget) hnext howns hstore
  | storing c s next hprogram heffect htarget hnext howns hstore =>
    have hagg := outcome_aggregate hids hout (.inr (hfree _ howns)) (hfree _ hstore) htarget
    exact .storing c s next (by rw [hagg, hprogram]) heffect
      (outcome_target hids hout (.inr (hfree _ howns)) htarget) hnext howns hstore
  | stored c s hprogram heffect htarget howns hstore =>
    have hagg := outcome_aggregate hids hout (.inr (hfree _ howns)) (hfree _ hstore) htarget
    exact .stored c s hprogram (by rw [hagg, heffect])
      (outcome_target hids hout (.inr (hfree _ howns)) htarget) howns hstore
  | audited c s log hprogram heffect htarget howns hstore =>
    have hagg := outcome_aggregate hids hout (.inr (hfree _ howns)) (hfree _ hstore) htarget
    exact .audited c s log hprogram (by rw [hagg, heffect])
      (outcome_target hids hout (.inr (hfree _ howns)) htarget) howns hstore

end Stages

/-- What every committed state satisfies. -/
def Right (d : Db) : Prop := KnownIds d ∧ ShowsAggregates d

theorem outcome_of_at {d : Db} {x : Transaction Db Row} (h : At d x) (hcommit : x.program = .commit) :
    Outcome d x.held (x.effect d) := by
  rw [At, hcommit] at h
  exact outcome_of_commit h

theorem keeps : Keeps StoreRatings.program (fun _ _ => True) Right At where
  started := fun _ request _ => .calling request rfl rfl
  ended := fun _ => .rolling rfl
  issued := fun _ _ hright hat _ hcommit => stage_issue hright.1 hat hcommit
  granted := fun _ _ _ _ hat hwanted _ => stage_grant hat hwanted
  committed := fun _ _ hright hat hcommit =>
    ⟨knownIds_of_outcome hright.1 (outcome_of_at hat hcommit),
      showsAggregates_of_outcome hright.1 hright.2 (outcome_of_at hat hcommit)⟩
  others := fun _ _ _ hright hx hy hapart hcommit =>
    stage_outcome hright.1 (outcome_of_at hx hcommit) (fun _ howns => hapart.not_owns howns) hy

/-- Nothing is under way, and the stored aggregates are right. -/
def Initial (w : World Db Row) : Prop := w.Quiet ∧ Right w.committed

/-- Every committed state shows, for every store, the number and the average
of its approved ratings. -/
theorem aggregates_right (w : World Db Row) (h : Reachable (step StoreRatings.program) anyStep Initial w) :
    ∀ store ∈ w.committed.stores.rows,
      store.ratingCount = (approvedOf w.committed store.id).length ∧
        store.avgStars =
          if (approvedOf w.committed store.id).length = 0 then 0
          else ((approvedOf w.committed store.id).map fun r => (r.overallStars : ℚ)).sum/
            (approvedOf w.committed store.id).length := by
  have hmeets : Reachable (step StoreRatings.program) (GrantsMeet fun _ _ => True) Initial w := by
    refine h.mono ?_
    intro _ a _
    cases a <;> trivial
  intro store hstore
  obtain ⟨hcount, havg⟩ := (keeps.holds (fun _ hw => hw) hmeets).1.2 store hstore
  refine ⟨hcount, havg.trans ?_⟩
  rw [aggregate, aggregateOf]
  split_ifs with hnone
  · rfl
  · rfl

section Sample

/-- One store without ratings, and two redeemed reservations of it. -/
def unrated : World Db Row where
  committed :=
    { reservations := Table.insertMany .empty [⟨1, 7, 1, .redeemed⟩, ⟨2, 8, 1, .redeemed⟩]
      ratings := .empty
      ratingIds := []
      stores := Table.insertMany .empty [⟨1, 0, 0⟩]
      auditLogs := [] }
  started := 0
  transaction := fun _ => ended

/-- Five stars without a comment beside two stars with one, which an admin
approves while the first rating waits for its commit. -/
def ratedTogether : List (Action Request) :=
  [.start (.create 7 1 ⟨5, none, none, none⟩ 11), .start (.create 8 2 ⟨2, none, none, some "late"⟩ 12),
    .issue 1, .issue 1, .grant 1, .issue 1, .grant 1, .issue 1, .issue 1, .issue 1, .grant 1,
    .issue 1, .start (.adminApprove 9 12), .issue 2, .issue 2, .grant 2,
    .issue 0, .issue 0, .grant 0, .issue 2, .issue 0, .grant 0, .issue 0, .grant 0, .issue 0,
    .issue 0, .issue 0, .grant 0, .issue 0, .grant 0, .issue 0, .issue 0, .grant 0, .issue 0,
    .grant 2, .issue 2, .issue 2, .grant 2, .issue 2, .issue 2]

theorem unrated_initial : Initial unrated := by
  refine ⟨⟨rfl, fun _ => rfl⟩, ?_, ?_⟩
  · intro r hr
    cases hr
  · intro store hstore
    rw [List.mem_singleton.mp hstore]
    exact ⟨rfl, rfl⟩

def ratedWorld : World Db Row := after (step StoreRatings.program) unrated ratedTogether

/-- Both ratings count in the end. -/
theorem aggregates_right_sample :
    ∃ store ∈ ratedWorld.committed.stores.rows,
      store.id = 1 ∧ store.ratingCount = 2 ∧ store.avgStars = 7/2 := by
  have hreach : Reachable (step StoreRatings.program) anyStep Initial ratedWorld :=
    reachable_after (.start unrated_initial) (by decide +kernel)
  have hsome : (ratedWorld.committed.stores.find? 1).isSome := by decide +kernel
  obtain ⟨store, hfind⟩ := Option.isSome_iff_exists.mp hsome
  obtain ⟨hmem, hid⟩ := Table.find?_eq_some.mp hfind
  obtain ⟨hcount, havg⟩ := aggregates_right ratedWorld hreach store hmem
  have hlength : (approvedOf ratedWorld.committed 1).length = 2 := by decide +kernel
  have hsum : ((approvedOf ratedWorld.committed 1).map fun r => (r.overallStars : ℚ)).sum = 7 := by
    decide +kernel
  rw [hid, hlength] at hcount havg
  rw [hsum] at havg
  exact ⟨store, hmem, hid, hcount, havg⟩

end Sample

end Kurtar.RatingAggregates

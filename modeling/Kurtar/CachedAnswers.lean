import Kurtar.CachedSearch

/-!
# What the cached search answers

Every result, in the cache or on its way, is one that the database gave under
the key it is kept by. One key is one cell and one set of filters, so the
answer is that of the plain search at a point of the same cell.
-/

namespace Kurtar.CachedAnswers

open KeyedTable GuardedRuns IstanbulCalendar Bisection Geohash OffsetPaging DiscoveryPages
open CacheKeys ExpiringStores CachedSearch

variable {Location Meters : Type} [LinearOrder Meters] {g : PostGIS Location Meters}
  {sha1Hex : String → String} {parseDate : String → Instant}

section Filters

variable {query query' : DiscoveryOffersQueryDto} {diet diet' : Option (List DietFlag)}

theorem categoryName_injective : Function.Injective categoryName := by
  intro a b h
  cases a <;> cases b <;> first | rfl | exact absurd h (by decide +kernel)

theorem dietFlagName_injective : Function.Injective dietFlagName := by
  intro a b h
  cases a <;> cases b <;> first | rfl | exact absurd h (by decide +kernel)

theorem mem_flags (diet : Option (List DietFlag)) {flag : DietFlag} :
    dietFlagName flag ∈ ((diet.map (·.map dietFlagName)).getD []) ↔ flag ∈ diet.getD [] := by
  cases diet with
  | none => exact ⟨fun h => absurd h List.not_mem_nil, fun h => absurd h List.not_mem_nil⟩
  | some flags => exact List.mem_map_of_injective dietFlagName_injective

/-- The filter on diet flags asks for a flag of the list unless it is empty. -/
theorem diet_iff {P : DietFlag → Prop} :
    (∀ flags ∈ diet, 0 < flags.length → ∃ flag ∈ flags, P flag) ↔
      ((∃ flag, flag ∈ diet.getD []) → ∃ flag ∈ diet.getD [], P flag) := by
  cases diet with
  | none =>
    refine ⟨fun _ ⟨flag, hflag⟩ => absurd hflag List.not_mem_nil, fun _ flags hflags => ?_⟩
    cases hflags
  | some flags =>
    simp only [Option.mem_some_iff, forall_eq', Option.getD_some, List.length_pos_iff_exists_mem]

theorem queryAt_congr (h : SameFilters (cacheParams query diet) (cacheParams query' diet'))
    (lat lng : ℚ) : queryAt parseDate query lat lng = queryAt parseDate query' lat lng := by
  have hcategory : query.category = query'.category :=
    Option.map_injective categoryName_injective h.category
  have hradius : query.radiusM = query'.radiusM := h.radiusM
  have hafter : query.pickupAfter = query'.pickupAfter := h.pickupAfter
  have hbefore : query.pickupBefore = query'.pickupBefore := h.pickupBefore
  have hq : query.q = query'.q := h.q
  have hpage : query.page = query'.page := h.page
  have hsize : query.pageSize = query'.pageSize := h.pageSize
  unfold queryAt
  rw [hcategory, hradius, hafter, hbefore, hq, hpage, hsize]

/-- The rows do not depend on the order of the diet flags. -/
theorem matchingRows_congr (h : SameFilters (cacheParams query diet) (cacheParams query' diet'))
    (db : DiscoveryDb Location) (q : DiscoveryOffersQuery) (now : Instant) :
    matchingRows g db q diet now = matchingRows g db q diet' now := by
  have hmem : ∀ flag, flag ∈ diet.getD [] ↔ flag ∈ diet'.getD [] := by
    intro flag
    rw [← mem_flags diet, ← mem_flags diet']
    exact h.diet.mem_iff
  have hclause : ∀ d s location bt m, whereClause g q diet now d s location bt m ↔
      whereClause g q diet' now d s location bt m := by
    intro d s location bt m
    unfold whereClause
    rw [diet_iff, diet_iff]
    simp only [hmem]
  have hrow : selectRow g db q diet now = selectRow g db q diet' now := by
    funext d
    unfold selectRow
    simp only [hclause]
  rw [matchingRows, matchingRows, hrow]

end Filters

section Steps

variable {w w' : World Location} {a : Action Location Meters}

/-- The ways a world goes on. -/
inductive Stepped (g : PostGIS Location Meters) (sha1Hex : String → String)
    (parseDate : String → Instant) (w : World Location) : World Location → Prop where
  | same : Stepped g sha1Hex parseDate w w
  | change (db : DiscoveryDb Location) : Stepped g sha1Hex parseDate w { w with db }
  | tick {clock : Instant} (h : w.clock ≤ clock) :
      Stepped g sha1Hex parseDate w { w with clock }
  | asked (query : DiscoveryOffersQueryDto) (diet : Option (List DietFlag)) :
      Stepped g sha1Hex parseDate w { w with searches := w.searches ++ [⟨query, diet, .asked⟩] }
  | hit {search : ℕ} {s : Search} {result : DiscoveryOffersResult}
      (hs : w.searches[search]? = some s)
      (hget : w.cache.get (s.key sha1Hex) w.clock = some result) :
      Stepped g sha1Hex parseDate w (w.setStage search s (.answered result (.cached w.clock)))
  | quiet {search : ℕ} {s : Search} {stage : CachedSearch.Stage} (hs : w.searches[search]? = some s)
      (hstage : stage = .missed ∨ stage = .failed ∨ ∃ now, stage = .querying now) :
      Stepped g sha1Hex parseDate w (w.setStage search s stage)
  | executed {search : ℕ} {s : Search} {now : Instant} {order : List (OfferRow Location Meters)}
      (hs : w.searches[search]? = some s)
      (horder : Ordered (fun r : OfferRow Location Meters => r.distanceM)
        (matchingRows g w.db (s.toQuery parseDate) s.diet now) order) :
      Stepped g sha1Hex parseDate w
        { w.setStage search s (.queried (queryOffers g (s.toQuery parseDate) order)) with
          executions := ⟨s.query, s.diet, w.db, now, w.clock,
            queryOffers g (s.toQuery parseDate) order⟩ :: w.executions }
  | saved {search : ℕ} {s : Search} {result : DiscoveryOffersResult} (written : Bool)
      (hs : w.searches[search]? = some s) (hstage : s.stage = .queried result) :
      Stepped g sha1Hex parseDate w (save sha1Hex w search s result written)
  | forgot (key : String) : Stepped g sha1Hex parseDate w { w with cache := w.cache.forget key }

theorem stepped_of_step [DecidableEq Location] (h : step g sha1Hex parseDate w a = some w') :
    Stepped g sha1Hex parseDate w w' := by
  cases a with
  | change db =>
    cases h
    exact .change db
  | tick clock =>
    simp only [step] at h
    split_ifs at h with hclock
    cases h
    exact .tick hclock
  | searchOffers query =>
    simp only [step] at h
    cases hdiet : parseDietFlags query.diet with
    | error e =>
      rw [hdiet] at h
      cases h
      exact .same
    | ok diet =>
      rw [hdiet] at h
      cases h
      exact .asked query diet
  | lookup search reached =>
    simp only [step] at h
    cases hs : w.searches[search]? with
    | none => simp [hs] at h
    | some s =>
      simp only [hs] at h
      split_ifs at h
      cases h
      unfold lookup
      cases hget : if reached then w.cache.get (s.key sha1Hex) w.clock else none with
      | none => exact .quiet hs (Or.inl rfl)
      | some result =>
        split_ifs at hget
        exact .hit hs hget
  | begin search =>
    simp only [step] at h
    cases hs : w.searches[search]? with
    | none => simp [hs] at h
    | some s =>
      simp only [hs] at h
      split_ifs at h
      cases h
      exact .quiet hs (Or.inr (Or.inr ⟨w.clock, rfl⟩))
  | execute search order =>
    simp only [step] at h
    cases hs : w.searches[search]? with
    | none => simp [hs] at h
    | some s =>
      simp only [hs] at h
      cases hstage : s.stage with
      | querying now =>
        simp only [hstage, execute] at h
        split_ifs at h with horder
        cases h
        exact .executed hs ⟨horder.1, horder.2⟩
      | _ => simp [hstage] at h
  | fail search =>
    simp only [step] at h
    cases hs : w.searches[search]? with
    | none => simp [hs] at h
    | some s =>
      simp only [hs] at h
      cases hstage : s.stage with
      | querying now =>
        simp only [hstage] at h
        cases h
        exact .quiet hs (Or.inr (Or.inl rfl))
      | _ => simp [hstage] at h
  | save search written =>
    simp only [step] at h
    cases hs : w.searches[search]? with
    | none => simp [hs] at h
    | some s =>
      simp only [hs] at h
      cases hstage : s.stage with
      | queried result =>
        simp only [hstage] at h
        cases h
        exact .saved written hs hstage
      | _ => simp [hstage] at h
  | forget key =>
    cases h
    exact .forgot key

end Steps

section Invariant

variable {w w' : World Location} {executions : List (Execution Location)}
  {key : String} {result : DiscoveryOffersResult}

def ttl : ℤ := OFFERS_CACHE_TTL_SECONDS*1000

def executionKey (sha1Hex : String → String) (x : Execution Location) : String :=
  buildDiscoveryOffersCacheKey sha1Hex (cacheParams x.query x.diet)

/-- The result is one of the answers that the database may give to the query. -/
def Executed (g : PostGIS Location Meters) (parseDate : String → Instant)
    (x : Execution Location) : Prop :=
  ∃ order, Ordered (fun r : OfferRow Location Meters => r.distanceM)
      (matchingRows g x.db (queryAt parseDate x.query x.query.lat x.query.lng) x.diet x.now) order ∧
    x.result = queryOffers g (queryAt parseDate x.query x.query.lat x.query.lng) order

/-- The result is one of the search's own execution. -/
def Own (executions : List (Execution Location)) (s : Search) (result : DiscoveryOffersResult) :
    Prop :=
  ∃ x ∈ executions, x.query = s.query ∧ x.diet = s.diet ∧ x.result = result

/-- The result was given under this key and saved less than the time to live ago. -/
def Kept (sha1Hex : String → String) (executions : List (Execution Location)) (key : String)
    (result : DiscoveryOffersResult) (readAt : Instant) : Prop :=
  ∃ x ∈ executions, executionKey sha1Hex x = key ∧ x.result = result ∧
    ∃ savedAt, x.executedAt ≤ savedAt ∧ savedAt ≤ readAt ∧ readAt < savedAt+ttl

/-- What a search knows of the result it holds. -/
def Holds (sha1Hex : String → String) (executions : List (Execution Location)) (s : Search) : Prop :=
  match s.stage with
  | .queried result | .answered result .own => Own executions s result
  | .answered result (.cached readAt) => Kept sha1Hex executions (s.key sha1Hex) result readAt
  | _ => True

/-- What an entry was put with. -/
def Came (sha1Hex : String → String) (executions : List (Execution Location)) (clock : Instant)
    (key : String) (e : Entry DiscoveryOffersResult Instant) : Prop :=
  ∃ x ∈ executions, executionKey sha1Hex x = key ∧ x.result = e.value ∧
    x.executedAt+ttl ≤ e.expiresAt ∧ e.expiresAt ≤ clock+ttl

structure Sound (g : PostGIS Location Meters) (sha1Hex : String → String)
    (parseDate : String → Instant) (w : World Location) : Prop where
  executed : ∀ x ∈ w.executions, Executed g parseDate x ∧ x.executedAt ≤ w.clock
  cached : Each (Came sha1Hex w.executions w.clock) w.cache
  searches : ∀ s ∈ w.searches, Holds sha1Hex w.executions s

theorem Own.cons {s : Search} (h : Own executions s result) (x : Execution Location) :
    Own (x :: executions) s result := by
  obtain ⟨y, hy, hrest⟩ := h
  exact ⟨y, List.mem_cons_of_mem x hy, hrest⟩

theorem Kept.cons {readAt : Instant} (h : Kept sha1Hex executions key result readAt)
    (x : Execution Location) : Kept sha1Hex (x :: executions) key result readAt := by
  obtain ⟨y, hy, hrest⟩ := h
  exact ⟨y, List.mem_cons_of_mem x hy, hrest⟩

theorem Holds.cons {s : Search} (h : Holds sha1Hex executions s) (x : Execution Location) :
    Holds sha1Hex (x :: executions) s := by
  obtain ⟨query, diet, stage⟩ := s
  cases stage with
  | queried result => exact Own.cons h x
  | answered result source =>
    cases source with
    | own => exact Own.cons h x
    | cached readAt => exact Kept.cons h x
  | _ => trivial

theorem Came.cons {clock : Instant} {e : Entry DiscoveryOffersResult Instant}
    (h : Came sha1Hex executions clock key e) (x : Execution Location) :
    Came sha1Hex (x :: executions) clock key e := by
  obtain ⟨y, hy, hrest⟩ := h
  exact ⟨y, List.mem_cons_of_mem x hy, hrest⟩

/-- An entry that is read has been kept. -/
theorem Came.kept {clock : Instant} {e : Entry DiscoveryOffersResult Instant}
    (h : Came sha1Hex executions clock key e) (hlive : clock < e.expiresAt) :
    Kept sha1Hex executions key e.value clock := by
  obtain ⟨x, hx, hkey, hresult, hafter, hbefore⟩ := h
  refine ⟨x, hx, hkey, hresult, e.expiresAt-ttl, le_sub_iff_add_le.mpr hafter,
    sub_le_iff_le_add.mpr hbefore, ?_⟩
  rw [sub_add_cancel]
  exact hlive

/-- One search goes on, the others hold what they held. -/
theorem Sound.setStage (h : Sound g sha1Hex parseDate w) {search : ℕ} {s : Search}
    {stage : CachedSearch.Stage} (hs : Holds sha1Hex w.executions { s with stage }) :
    Sound g sha1Hex parseDate (w.setStage search s stage) where
  executed := h.executed
  cached := h.cached
  searches := by
    intro r hr
    rcases List.mem_or_eq_of_mem_set hr with hr | rfl
    · exact h.searches r hr
    · exact hs

theorem sound_step {a : Action Location Meters} [DecidableEq Location]
    (h : Sound g sha1Hex parseDate w) (hstep : step g sha1Hex parseDate w a = some w') :
    Sound g sha1Hex parseDate w' := by
  cases stepped_of_step hstep with
  | same => exact h
  | change db => exact ⟨h.executed, h.cached, h.searches⟩
  | @tick clock hclock =>
    refine ⟨fun x hx => ⟨(h.executed x hx).1, le_trans (h.executed x hx).2 hclock⟩, ?_, h.searches⟩
    refine h.cached.mono fun key e ⟨x, hx, hkey, hresult, hafter, hbefore⟩ => ?_
    exact ⟨x, hx, hkey, hresult, hafter, le_trans hbefore (Int.add_le_add_right hclock ttl)⟩
  | asked query diet =>
    refine ⟨h.executed, h.cached, fun s hs => ?_⟩
    rcases List.mem_append.mp hs with hs | hs
    · exact h.searches s hs
    · rw [List.mem_singleton.mp hs]
      trivial
  | hit hs hget =>
    obtain ⟨e, hcame, hvalue, hlive⟩ := h.cached.get hget
    refine h.setStage ?_
    rw [← hvalue]
    exact hcame.kept hlive
  | quiet hs hstage =>
    refine h.setStage ?_
    rcases hstage with rfl | rfl | ⟨now, rfl⟩ <;> trivial
  | @executed search s now order hs horder =>
    constructor
    · intro x hx
      rcases List.mem_cons.mp hx with rfl | hx
      · exact ⟨⟨order, horder, rfl⟩, le_refl _⟩
      · exact h.executed x hx
    · exact h.cached.mono fun key e he => he.cons _
    · intro r hr
      rcases List.mem_or_eq_of_mem_set hr with hr | rfl
      · exact (h.searches r hr).cons _
      · exact ⟨_, List.mem_cons_self, rfl, rfl, rfl⟩
  | @saved search s result written hs hstage =>
    have hown : Own w.executions s result := by
      have hholds := h.searches s (List.mem_of_getElem? hs)
      unfold Holds at hholds
      rw [hstage] at hholds
      exact hholds
    have hset : Sound g sha1Hex parseDate (w.setStage search s (.answered result .own)) :=
      h.setStage hown
    refine ⟨hset.executed, ?_, hset.searches⟩
    unfold save
    dsimp only
    split_ifs
    · refine h.cached.put ?_
      obtain ⟨x, hx, hquery, hdiet, hresult⟩ := hown
      refine ⟨x, hx, ?_, hresult, ?_, le_refl _⟩
      · rw [executionKey, hquery, hdiet]
        rfl
      · exact Int.add_le_add_right (h.executed x hx).2 ttl
    · exact h.cached
  | forgot key => exact ⟨h.executed, h.cached.forget key, h.searches⟩

theorem sound_of_reachable [DecidableEq Location]
    (h : Reachable (step g sha1Hex parseDate) anyStep Initial w) :
    Sound g sha1Hex parseDate w := by
  refine h.invariant (fun s hinit => ⟨?_, ?_, ?_⟩) fun s a s' hsound _ hstep =>
    sound_step hsound hstep
  · intro x hx
    rw [hinit.executions] at hx
    cases hx
  · rw [hinit.cache]
    exact each_empty
  · intro r hr
    rw [hinit.searches] at hr
    cases hr

end Invariant

section Results

/-- The answer is one of the plain search with the filters asked for, at a
point of the same cell, from data not older than the cache allows. -/
structure Served (g : PostGIS Location Meters) (parseDate : String → Instant) (s : Search)
    (result : DiscoveryOffersResult) (source : Source) (x : Execution Location) : Prop where
  plain : ∃ order, Ordered (fun r : OfferRow Location Meters => r.distanceM)
      (matchingRows g x.db (queryAt parseDate s.query x.query.lat x.query.lng) s.diet x.now) order ∧
    result = queryOffers g (queryAt parseDate s.query x.query.lat x.query.lng) order
  near : |x.query.lng-s.query.lng| ≤ 360/2^13 ∧ |x.query.lat-s.query.lat| ≤ 180/2^12
  own : source = .own → x.query.lat = s.query.lat ∧ x.query.lng = s.query.lng
  recent : ∀ readAt, source = .cached readAt → ∃ savedAt, x.executedAt ≤ savedAt ∧
    savedAt ≤ readAt ∧ readAt < savedAt+OFFERS_CACHE_TTL_SECONDS*1000

/-- Digests of different texts are different, as far as they were compared. -/
def NoCollision (sha1Hex : String → String) (w : World Location) : Prop :=
  ∀ x ∈ w.executions, ∀ s ∈ w.searches,
    sha1Hex (canonicalText (cacheParams x.query x.diet)) =
        sha1Hex (canonicalText (cacheParams s.query s.diet)) →
      canonicalText (cacheParams x.query x.diet) = canonicalText (cacheParams s.query s.diet)

theorem served_of_filters {s : Search} {result : DiscoveryOffersResult} {source : Source}
    {x : Execution Location} (hexecuted : Executed g parseDate x)
    (hfilters : SameFilters (cacheParams x.query x.diet) (cacheParams s.query s.diet))
    (hcell : SameCell GEOHASH_PRECISION x.query.lat x.query.lng s.query.lat s.query.lng)
    (hresult : x.result = result)
    (hown : source = .own → x.query.lat = s.query.lat ∧ x.query.lng = s.query.lng)
    (hrecent : ∀ readAt, source = .cached readAt → ∃ savedAt, x.executedAt ≤ savedAt ∧
      savedAt ≤ readAt ∧ readAt < savedAt+OFFERS_CACHE_TTL_SECONDS*1000) :
    Served g parseDate s result source x where
  plain := by
    obtain ⟨order, horder, heq⟩ := hexecuted
    rw [queryAt_congr hfilters, matchingRows_congr hfilters] at horder
    rw [queryAt_congr hfilters] at heq
    exact ⟨order, horder, hresult.symm.trans heq⟩
  near := hcell.near
  own := hown
  recent := hrecent

theorem get_setStage {w : World Location} {search : ℕ} {s r : Search} {stage : CachedSearch.Stage}
    (hs : w.searches[search]? = some r) :
    (w.setStage search s stage).searches[search]? = some { s with stage } :=
  List.getElem?_set_self (List.getElem?_eq_some_iff.mp hs).1

variable [DecidableEq Location]

/-- A search that cannot reach the cache is the plain search. -/
theorem answered_without_cache {w : World Location} {search : ℕ} {s : Search}
    {order : List (OfferRow Location Meters)} (hs : w.searches[search]? = some s)
    (hstage : s.stage = .asked)
    (horder : Ordered (fun r : OfferRow Location Meters => r.distanceM)
      (matchingRows g w.db (s.toQuery parseDate) s.diet w.clock) order) :
    ∃ w', run (step g sha1Hex parseDate) w [.lookup search false, .begin search,
        .execute search order, .save search false] = some w' ∧
      w'.searches[search]? = some ⟨s.query, s.diet,
        .answered (queryOffers g (s.toQuery parseDate) order) .own⟩ := by
  let missed : Search := { s with stage := .missed }
  let querying : Search := { s with stage := .querying w.clock }
  let queried : Search := { s with stage := .queried (queryOffers g (s.toQuery parseDate) order) }
  let w₁ := w.setStage search s .missed
  let w₂ := w₁.setStage search missed (.querying w.clock)
  let w₃ : World Location :=
    { w₂.setStage search querying queried.stage with
      executions := ⟨s.query, s.diet, w.db, w.clock, w.clock,
        queryOffers g (s.toQuery parseDate) order⟩ :: w.executions }
  have h₁ : w₁.searches[search]? = some missed := get_setStage hs
  have h₂ : w₂.searches[search]? = some querying := get_setStage h₁
  have h₃ : w₃.searches[search]? = some queried := get_setStage h₂
  have hlookup : step g sha1Hex parseDate w (.lookup search false) = some w₁ := by
    simp only [step, hs, if_pos hstage, lookup, Bool.false_eq_true, if_false]
    rfl
  have hbegin : step g sha1Hex parseDate w₁ (.begin search) = some w₂ := by
    simp only [step, h₁]
    rfl
  have hexecute : step g sha1Hex parseDate w₂ (.execute search order) = some w₃ := by
    simp only [step, h₂]
    exact if_pos ⟨horder.perm, horder.sorted⟩
  have hsave : step g sha1Hex parseDate w₃ (.save search false) =
      some (save sha1Hex w₃ search queried (queryOffers g (s.toQuery parseDate) order) false) := by
    simp only [step, h₃]
    rfl
  refine ⟨save sha1Hex w₃ search queried (queryOffers g (s.toQuery parseDate) order) false, ?_,
    get_setStage h₃⟩
  simp only [run, hlookup, hbegin, hexecute, hsave]

/-- In every run, whatever the cache does and however the data changes: every
answer is one that the plain search gave with the same filters at a point of
the same cell, at its own point when it was not cached and otherwise saved
less than the time to live before it was read; and a search is answered from
the data of the moment when the cache is out of reach. -/
theorem cached_search_answers (g : PostGIS Location Meters) (sha1Hex : String → String)
    (parseDate : String → Instant) (w : World Location)
    (h : Reachable (step g sha1Hex parseDate) anyStep Initial w) (hdigest : NoCollision sha1Hex w) :
    (∀ s ∈ w.searches, ∀ result source, s.stage = .answered result source →
        ∃ x ∈ w.executions, x.executedAt ≤ w.clock ∧ Served g parseDate s result source x) ∧
      ∀ (search : ℕ) (s : Search) (order : List (OfferRow Location Meters)),
        w.searches[search]? = some s → s.stage = .asked →
          Ordered (fun r : OfferRow Location Meters => r.distanceM)
            (matchingRows g w.db (s.toQuery parseDate) s.diet w.clock) order →
          ∃ w', run (step g sha1Hex parseDate) w [.lookup search false, .begin search,
              .execute search order, .save search false] = some w' ∧
            w'.searches[search]? = some ⟨s.query, s.diet,
              .answered (queryOffers g (s.toQuery parseDate) order) .own⟩ := by
  have hsound := sound_of_reachable h
  constructor
  · intro s hs result source hstage
    have hholds := hsound.searches s hs
    unfold Holds at hholds
    rw [hstage] at hholds
    cases source with
    | own =>
      obtain ⟨x, hx, hquery, hdiet, hresult⟩ := hholds
      obtain ⟨hexecuted, hbefore⟩ := hsound.executed x hx
      refine ⟨x, hx, hbefore, served_of_filters hexecuted ?_ ?_ hresult (fun _ => ?_) nofun⟩
      · rw [hquery, hdiet]
        exact ⟨rfl, rfl, List.Perm.refl _, rfl, rfl, rfl, rfl, rfl⟩
      · rw [hquery]
        exact (encodeGeohash_eq_iff s.query.isLatitude s.query.isLongitude s.query.isLatitude
          s.query.isLongitude).mp rfl
      · rw [hquery]
        exact ⟨rfl, rfl⟩
    | cached readAt =>
      obtain ⟨x, hx, hkey, hresult, hrecent⟩ := hholds
      obtain ⟨hexecuted, hbefore⟩ := hsound.executed x hx
      have hsame := agree_of_key x.query.isLatitude x.query.isLongitude s.query.isLatitude
        s.query.isLongitude (hdigest x hx s hs) hkey
      refine ⟨x, hx, hbefore, served_of_filters hexecuted hsame.2 hsame.1 hresult nofun ?_⟩
      intro t ht
      cases ht
      exact hrecent
  · exact fun search s order hs hstage horder => answered_without_cache hs hstage horder

end Results

section Sample

/-- A search on the street, a tenth of a second of arc further on when asked so. -/
def streetSearch (further : Bool) : DiscoveryOffersQueryDto where
  lat := if further then 1/1000+1/36000 else 1/1000
  lng := 1/1000
  isLatitude := by cases further <;> norm_num [latitudes, Extent.Contains]
  isLongitude := by norm_num [longitudes, Extent.Contains]
  diet := some (if further then "VEGAN,VEGETARIAN" else " VEGETARIAN , VEGAN ")

def street : World ℤ := ⟨twoOffers, 0, Store.empty, [], []⟩

def streetRows : List (OfferRow ℤ ℤ) :=
  matchingRows streetGIS twoOffers (queryAt (fun _ => 0) (streetSearch false) (1/1000) (1/1000))
    (some [.vegetarian, .vegan]) 0

/-- A search is cached, the offers are taken down, and a neighbour asks the same. -/
def neighbours : List (CachedSearch.Action ℤ ℤ) :=
  [.searchOffers (streetSearch false), .lookup 0 true, .begin 0, .execute 0 streetRows,
    .save 0 true, .change { twoOffers with offers := .empty }, .tick 44999,
    .searchOffers (streetSearch true), .lookup 1 true]

theorem cached_search_answers_neighbours :
    ∃ w : World ℤ, (w.searches.map (·.stage)).drop 1 =
        [.answered (queryOffers streetGIS
          (queryAt (fun _ => 0) (streetSearch false) (1/1000) (1/1000)) streetRows)
            (.cached 44999)] ∧
      ∀ s ∈ w.searches, ∀ result source, s.stage = .answered result source →
        ∃ x ∈ w.executions, x.executedAt ≤ w.clock ∧
          Served streetGIS (fun _ => 0) s result source x := by
  have hreachable : Reachable (step streetGIS id fun _ => 0) anyStep Initial
      (after (step streetGIS id fun _ => 0) street neighbours) :=
    reachable_after (.start ⟨rfl, rfl, rfl⟩) (by decide +kernel)
  exact ⟨_, by decide +kernel,
    (cached_search_answers streetGIS id (fun _ => 0) _ hreachable fun _ _ _ _ h => h).1⟩

end Sample

end Kurtar.CachedAnswers

import Kurtar.GuardedRuns
import Kurtar.KeysetPaging

/-!
# The fan-out of a new offer

A published offer is pushed to the users who favorited its store and to the
users nearby who did not. Both audiences are read page by page while users add
and remove favorites. The favorites are read from the row of the last favorite
read, the nearby users beyond the last user read.
-/

namespace Kurtar.OfferFanout

open GuardedRuns KeysetPaging

structure Favorite (I U S : Type*) where
  id : I
  userId : U
  storeId : S
deriving DecidableEq

/-- The favorites; an id and a pair of user and store occur once. -/
structure Favorites (I U S : Type*) where
  rows : List (Favorite I U S)
  ids_nodup : (rows.map (·.id)).Nodup
  pairs_nodup : (rows.map fun r => (r.userId, r.storeId)).Nodup

/-- What does not change while an offer is fanned out. -/
structure Setting (U S : Type*) where
  /-- The users with status `ACTIVE`. -/
  active : U → Bool
  stores : S → Bool
  storeId : S
  favoritesLimits : PageLimits
  nearbyLimits : PageLimits

variable {I U S : Type*}

namespace Favorites

variable {favorites : Favorites I U S} {r row : Favorite I U S}

theorem ids_nodup_cons (h : row.id ∉ favorites.rows.map (·.id)) :
    ((row :: favorites.rows).map (·.id)).Nodup :=
  List.nodup_cons.mpr ⟨h, favorites.ids_nodup⟩

theorem pairs_nodup_cons
    (h : ¬ ∃ r ∈ favorites.rows, r.userId = row.userId ∧ r.storeId = row.storeId) :
    ((row :: favorites.rows).map fun r => (r.userId, r.storeId)).Nodup := by
  refine List.nodup_cons.mpr ⟨fun hmem => ?_, favorites.pairs_nodup⟩
  obtain ⟨r, hr, heq⟩ := List.mem_map.mp hmem
  exact h ⟨r, hr, congrArg Prod.fst heq, congrArg Prod.snd heq⟩

theorem eq_of_pair_eq (hr : r ∈ favorites.rows) (hrow : row ∈ favorites.rows)
    (huser : r.userId = row.userId) (hstore : r.storeId = row.storeId) : r = row :=
  List.inj_on_of_nodup_map favorites.pairs_nodup hr hrow (Prod.ext huser hstore)

variable [LinearOrder I] [LinearOrder U] [DecidableEq S]

/-- `upsert` by user and store with an empty update. -/
def upsert (favorites : Favorites I U S) (row : Favorite I U S) : Option (Favorites I U S) :=
  if hpair : ∃ r ∈ favorites.rows, r.userId = row.userId ∧ r.storeId = row.storeId then
    some favorites
  else if hid : row.id ∈ favorites.rows.map (·.id) then none
  else some ⟨row :: favorites.rows, ids_nodup_cons hid, pairs_nodup_cons hpair⟩

def deleteMany (favorites : Favorites I U S) (userId : U) (storeId : S) : Favorites I U S where
  rows := favorites.rows.filter fun r => ¬ (r.userId = userId ∧ r.storeId = storeId)
  ids_nodup := favorites.ids_nodup.sublist (List.filter_sublist.map _)
  pairs_nodup := favorites.pairs_nodup.sublist (List.filter_sublist.map _)

end Favorites

variable [LinearOrder I] [LinearOrder U] [DecidableEq S]

/-- The fan-out of one offer, with the tables it reads. -/
structure Fanout (I U S : Type*) where
  favorites : Favorites I U S
  /-- The users whom the query for nearby users matches now. -/
  nearby : List U
  favoritesLoop : Loop (Favorite I U S)
  nearbyLoop : Loop U
  /-- Every favorite that was stored at some time of the run. -/
  ever : List (Favorite I U S)

inductive FanoutAction (I U S : Type*) where
  /-- A user favorites a store; `row.id` is the fresh id. -/
  | add (row : Favorite I U S)
  | remove (userId : U) (storeId : S)
  /-- Users move, or change their settings. -/
  | moved (nearby : List U)
  | favoritesPage
  | nearbyPage
deriving DecidableEq

/-- `where: { storeId, user: { status: "ACTIVE" } }` -/
def Candidate (setting : Setting U S) (r : Favorite I U S) : Prop :=
  r.storeId = setting.storeId ∧ setting.active r.userId = true

instance (setting : Setting U S) : DecidablePred (Candidate (I := I) setting) := fun r =>
  inferInstanceAs (Decidable (r.storeId = setting.storeId ∧ setting.active r.userId = true))

/-- `FavoritesService.add`; an id is given once. -/
def add (setting : Setting U S) (s : Fanout I U S) (row : Favorite I U S) : Option (Fanout I U S) :=
  if setting.stores row.storeId = false then none
  else if row.id ∈ s.ever.map (·.id) then none
  else (s.favorites.upsert row).map fun favorites =>
    { s with favorites := favorites, ever := if row ∈ favorites.rows then row :: s.ever else s.ever }

/-- `FavoritesService.remove` -/
def remove (s : Fanout I U S) (userId : U) (storeId : S) : Fanout I U S :=
  { s with favorites := s.favorites.deleteMany userId storeId }

/-- The favorites that a page reads after `rows`. -/
def favoritesAfter (setting : Setting U S) (rows : List (Favorite I U S)) (s : Fanout I U S) :
    List (Favorite I U S) :=
  findMany Favorite.id (Candidate setting) (lastKey Favorite.id rows)
    setting.favoritesLimits.pageSize s.favorites.rows

def withPage (setting : Setting U S) (page : ℕ) (rows : List (Favorite I U S)) (s : Fanout I U S) :
    Fanout I U S :=
  let loop := Loop.next setting.favoritesLimits page rows (favoritesAfter setting rows s)
  { s with favoritesLoop := loop }

/-- A page of `fetchFavoriteUserIds`. -/
def fetchFavoriteUserIds (setting : Setting U S) (s : Fanout I U S) : Option (Fanout I U S) :=
  match s.favoritesLoop with
  | .finished _ => none
  | .reading page rows => some (withPage setting page rows s)

/-- A page of `queryNearbyUserIds`. -/
def queryNearbyUserIds (setting : Setting U S) (s : Fanout I U S) : Option (Fanout I U S) :=
  match s.nearbyLoop with
  | .finished _ => none
  | .reading page ids =>
    let fetched := pageAfter (fun id => id) (lastKey (fun id => id) ids)
      setting.nearbyLimits.pageSize s.nearby
    some { s with nearbyLoop := Loop.next setting.nearbyLimits page ids fetched }

def step (setting : Setting U S) (s : Fanout I U S) : FanoutAction I U S → Option (Fanout I U S)
  | .add row => add setting s row
  | .remove userId storeId => some (remove s userId storeId)
  | .moved nearby => some { s with nearby := nearby }
  | .favoritesPage => fetchFavoriteUserIds setting s
  | .nearbyPage => queryNearbyUserIds setting s

/-- The users notified: of a favorite store, and of a store nearby. -/
structure Audiences (U : Type*) where
  favoriteUserIds : List U
  onlyNearbyUserIds : List U
deriving DecidableEq

/-- The audiences once both loops are finished. -/
def audiences (s : Fanout I U S) : Option (Audiences U) :=
  match s.favoritesLoop, s.nearbyLoop with
  | .finished rows, .finished nearbyUserIds =>
    let favoriteUserIds := rows.map (·.userId)
    some ⟨favoriteUserIds, nearbyUserIds.filter (· ∉ favoriteUserIds)⟩
  | _, _ => none

section Conditions

/-- The run starts while `w` is stored, with nothing read. -/
def Started (w : Favorite I U S) (s : Fanout I U S) : Prop :=
  w ∈ s.favorites.rows ∧ s.favoritesLoop = .reading 0 [] ∧ s.nearbyLoop = .reading 0 [] ∧
    s.ever = s.favorites.rows

/-- The user of `w` does not remove it. -/
def ByOthers (w : Favorite I U S) (a : FanoutAction I U S) : Prop := a ≠ .remove w.userId w.storeId

/-- While `w` is still to be read, a page of favorites finds its cursor's row stored. -/
def CursorKept (w : Favorite I U S) (s : Fanout I U S) (a : FanoutAction I U S) : Prop :=
  a = .favoritesPage → Beyond (lastKey Favorite.id s.favoritesLoop.rows) w.id →
    ∀ r ∈ s.favoritesLoop.rows.getLast?, r ∈ s.favorites.rows

/-- While `w` is still to be read, the last page allowed has room for it: fewer
candidates than it holds lie between the cursor and `w`. -/
def RoomLeft (setting : Setting U S) (w : Favorite I U S) (s : Fanout I U S)
    (a : FanoutAction I U S) : Prop :=
  a = .favoritesPage → Beyond (lastKey Favorite.id s.favoritesLoop.rows) w.id →
    s.favoritesLoop.isLast setting.favoritesLimits →
      (between Favorite.id (lastKey Favorite.id s.favoritesLoop.rows) w
        (s.favorites.rows.filter fun r => Candidate setting r)).length <
          setting.favoritesLimits.pageSize

/-- At most as many candidates as the pages hold were stored during the run. -/
def WithinCeiling (setting : Setting U S) (s : Fanout I U S) : Prop :=
  (s.ever.filter fun r => Candidate setting r).length ≤
    setting.favoritesLimits.maxPages*setting.favoritesLimits.pageSize

end Conditions

section Decidability

instance (w : Favorite I U S) (a : FanoutAction I U S) : Decidable (ByOthers w a) :=
  inferInstanceAs (Decidable (a ≠ .remove w.userId w.storeId))

instance (w : Favorite I U S) (s : Fanout I U S) (a : FanoutAction I U S) :
    Decidable (CursorKept w s a) :=
  inferInstanceAs (Decidable (a = .favoritesPage →
    Beyond (lastKey Favorite.id s.favoritesLoop.rows) w.id →
      ∀ r ∈ s.favoritesLoop.rows.getLast?, r ∈ s.favorites.rows))

instance (setting : Setting U S) (w : Favorite I U S) (s : Fanout I U S) (a : FanoutAction I U S) :
    Decidable (RoomLeft setting w s a) :=
  inferInstanceAs (Decidable (a = .favoritesPage →
    Beyond (lastKey Favorite.id s.favoritesLoop.rows) w.id →
      s.favoritesLoop.isLast setting.favoritesLimits →
        (between Favorite.id (lastKey Favorite.id s.favoritesLoop.rows) w
          (s.favorites.rows.filter fun r => Candidate setting r)).length <
            setting.favoritesLimits.pageSize))

instance (setting : Setting U S) (s : Fanout I U S) : Decidable (WithinCeiling setting s) :=
  inferInstanceAs (Decidable ((s.ever.filter fun r => Candidate setting r).length ≤
    setting.favoritesLimits.maxPages*setting.favoritesLimits.pageSize))

end Decidability

section Invariants

variable {setting : Setting U S} {s s' : Fanout I U S} {w : Favorite I U S}
  {a : FanoutAction I U S}

/-- What holds in every state of a run. -/
structure Sound (setting : Setting U S) (s : Fanout I U S) : Prop where
  stored : ∀ r ∈ s.favorites.rows, r ∈ s.ever
  ids : (s.ever.map (·.id)).Nodup
  read : ∀ r ∈ s.favoritesLoop.rows, r ∈ s.ever ∧ Candidate setting r
  increasing : Increasing Favorite.id s.favoritesLoop.rows
  pages : ∀ page rows, s.favoritesLoop = .reading page rows →
    page < setting.favoritesLimits.maxPages ∧
      rows.length = page*setting.favoritesLimits.pageSize

omit [LinearOrder U] [DecidableEq S] in
theorem sound_of_started (h : Started w s) : Sound setting s := by
  obtain ⟨_, hloop, _, hever⟩ := h
  refine ⟨?_, ?_, ?_, ?_, ?_⟩
  · intro r hr
    rwa [hever]
  · rw [hever]
    exact s.favorites.ids_nodup
  · intro r hr
    rw [hloop] at hr
    exact nomatch hr
  · rw [hloop]
    exact List.Pairwise.nil
  · intro page rows hreading
    rw [hloop] at hreading
    cases hreading
    exact ⟨setting.favoritesLimits.maxPages_pos, (Nat.zero_mul _).symm⟩

theorem favoritesPage_eq_some (h : step setting s .favoritesPage = some s') :
    ∃ page rows, s.favoritesLoop = .reading page rows ∧ s' = withPage setting page rows s := by
  rw [step, fetchFavoriteUserIds] at h
  cases hloop : s.favoritesLoop with
  | finished rows =>
    rw [hloop] at h
    exact nomatch h
  | reading page rows =>
    rw [hloop] at h
    exact ⟨page, rows, rfl, (Option.some.inj h).symm⟩

/-- What a step does to the favorites: adds a fresh row, removes the rows of a
pair, or leaves them while a page of them is read or not. -/
theorem step_cases (hstored : ∀ r ∈ s.favorites.rows, r ∈ s.ever) (h : step setting s a = some s') :
    (∃ row, a = .add row ∧ row.id ∉ s.ever.map (·.id) ∧ s'.favoritesLoop = s.favoritesLoop ∧
      (s'.favorites.rows = s.favorites.rows ∧ s'.ever = s.ever ∨
        s'.favorites.rows = row :: s.favorites.rows ∧ s'.ever = row :: s.ever)) ∨
    (∃ userId storeId, a = .remove userId storeId ∧
      s' = remove s userId storeId) ∨
    (∃ page rows, a = .favoritesPage ∧ s.favoritesLoop = .reading page rows ∧
      s' = withPage setting page rows s) ∨
    (s'.favorites = s.favorites ∧ s'.favoritesLoop = s.favoritesLoop ∧ s'.ever = s.ever) := by
  cases a with
  | add row =>
    refine Or.inl ⟨row, rfl, ?_⟩
    rw [step, add] at h
    split_ifs at h with hstore hid
    obtain ⟨favorites, hupsert, heq⟩ := Option.map_eq_some_iff.mp h
    rw [← heq]
    refine ⟨hid, rfl, ?_⟩
    rw [Favorites.upsert] at hupsert
    split_ifs at hupsert with hpair hclash
    · have hsame := Option.some.inj hupsert
      have hout : row ∉ s.favorites.rows := fun hmem =>
        hid (List.mem_map.mpr ⟨row, hstored row hmem, rfl⟩)
      rw [← hsame, if_neg hout]
      exact Or.inl ⟨rfl, rfl⟩
    · rw [← Option.some.inj hupsert]
      exact Or.inr ⟨rfl, if_pos List.mem_cons_self⟩
  | remove userId storeId => exact Or.inr (Or.inl ⟨userId, storeId, rfl, (Option.some.inj h).symm⟩)
  | moved nearby =>
    rw [← Option.some.inj h]
    exact Or.inr (Or.inr (Or.inr ⟨rfl, rfl, rfl⟩))
  | favoritesPage =>
    obtain ⟨page, rows, hloop, heq⟩ := favoritesPage_eq_some h
    exact Or.inr (Or.inr (Or.inl ⟨page, rows, rfl, hloop, heq⟩))
  | nearbyPage =>
    rw [step, queryNearbyUserIds] at h
    cases hloop : s.nearbyLoop with
    | finished ids =>
      rw [hloop] at h
      exact nomatch h
    | reading page ids =>
      rw [hloop] at h
      rw [← Option.some.inj h]
      exact Or.inr (Or.inr (Or.inr ⟨rfl, rfl, rfl⟩))

omit [LinearOrder U] [DecidableEq S] in
/-- A fresh row is stored. -/
theorem Sound.added (h : Sound setting s) {row : Favorite I U S} (hfresh : row.id ∉ s.ever.map (·.id))
    (hloop : s'.favoritesLoop = s.favoritesLoop)
    (hstored : s'.favorites.rows = row :: s.favorites.rows) (hever : s'.ever = row :: s.ever) :
    Sound setting s' := by
  refine ⟨?_, ?_, ?_, hloop ▸ h.increasing, hloop ▸ h.pages⟩
  · intro r hr
    rw [hstored, List.mem_cons] at hr
    rw [hever, List.mem_cons]
    exact hr.imp_right (h.stored r)
  · rw [hever]
    exact List.nodup_cons.mpr ⟨hfresh, h.ids⟩
  · intro r hr
    rw [hloop] at hr
    rw [hever]
    exact ⟨List.mem_cons_of_mem row (h.read r hr).1, (h.read r hr).2⟩

omit [LinearOrder I] [LinearOrder U] [DecidableEq S] in
theorem rows_of_reading {page : ℕ} {rows : List (Favorite I U S)}
    (hloop : s.favoritesLoop = .reading page rows) : s.favoritesLoop.rows = rows := by
  rw [hloop]
  rfl

omit [LinearOrder U] in
/-- A page of the favorites is read. -/
theorem Sound.page (h : Sound setting s) {page : ℕ} {rows : List (Favorite I U S)}
    (hloop : s.favoritesLoop = .reading page rows) : Sound setting (withPage setting page rows s) := by
  have hkeys := s.favorites.ids_nodup
  have hread := h.read
  have hincreasing := h.increasing
  rw [rows_of_reading hloop] at hread hincreasing
  obtain ⟨hpage, hlength⟩ := h.pages page rows hloop
  refine ⟨h.stored, h.ids, ?_, ?_, ?_⟩
  · intro r hr
    rw [withPage, rows_next] at hr
    cases List.mem_append.mp hr with
    | inl hr => exact hread r hr
    | inr hr =>
      obtain ⟨hmem, hcandidate⟩ := mem_of_mem_findMany hr
      exact ⟨h.stored r hmem, hcandidate⟩
  · rw [withPage, rows_next]
    exact increasing_append hincreasing (increasing_findMany hkeys)
      fun r hr => beyond_of_mem_findMany hkeys hr
  · intro page' rows' hreading
    have hsize : (favoritesAfter setting rows s).length ≤ setting.favoritesLimits.pageSize :=
      length_findMany_le
    rw [withPage, Loop.next] at hreading
    split_ifs at hreading with hshort hmore
    cases hreading
    refine ⟨hmore, ?_⟩
    rw [List.length_append, hlength, Nat.succ_mul]
    omega

theorem Sound.next (h : Sound setting s) (hstep : step setting s a = some s') : Sound setting s' := by
  rcases step_cases h.stored hstep with
    ⟨row, _, hfresh, hloop, hcase⟩ | ⟨userId, storeId, _, heq⟩ | ⟨page, rows, _, hloop, heq⟩ |
      ⟨hfavorites, hloop, hever⟩
  · cases hcase with
    | inl hsame => exact ⟨hsame.1 ▸ hsame.2 ▸ h.stored, hsame.2 ▸ h.ids, hloop ▸ hsame.2 ▸ h.read,
        hloop ▸ h.increasing, hloop ▸ h.pages⟩
    | inr hnew => exact h.added hfresh hloop hnew.1 hnew.2
  · rw [heq]
    exact ⟨fun r hr => h.stored r (List.mem_of_mem_filter hr), h.ids, h.read, h.increasing, h.pages⟩
  · rw [heq]
    exact h.page hloop
  · exact ⟨hfavorites ▸ hever ▸ h.stored, hever ▸ h.ids, hloop ▸ hever ▸ h.read,
      hloop ▸ h.increasing, hloop ▸ h.pages⟩

/-- What holds while nobody but others removes favorites: `w` is stored, and no
other row of its user is read. -/
structure Follows (w : Favorite I U S) (s : Fanout I U S) : Prop where
  stored : w ∈ s.favorites.rows
  only : ∀ r ∈ s.favoritesLoop.rows, r.userId = w.userId → r = w

omit [LinearOrder I] [LinearOrder U] [DecidableEq S] in
theorem follows_of_started (h : Started w s) : Follows w s := by
  refine ⟨h.1, fun r hr => ?_⟩
  rw [h.2.1] at hr
  exact nomatch hr

theorem Follows.next (h : Follows w s) (hsound : Sound setting s) (hw : Candidate setting w)
    (hothers : ByOthers w a) (hstep : step setting s a = some s') : Follows w s' := by
  rcases step_cases hsound.stored hstep with
    ⟨row, _, _, hloop, hcase⟩ | ⟨userId, storeId, ha, heq⟩ | ⟨page, rows, _, hloop, heq⟩ |
      ⟨hfavorites, hloop, _⟩
  · refine ⟨?_, hloop ▸ h.only⟩
    cases hcase with
    | inl hsame => exact hsame.1 ▸ h.stored
    | inr hnew => exact hnew.1 ▸ List.mem_cons_of_mem row h.stored
  · rw [heq]
    refine ⟨List.mem_filter.mpr ⟨h.stored, decide_eq_true fun hpair => hothers ?_⟩, h.only⟩
    rw [ha, hpair.1, hpair.2]
  · have honly := h.only
    rw [rows_of_reading hloop] at honly
    rw [heq]
    refine ⟨h.stored, fun r hr huser => ?_⟩
    rw [withPage, rows_next] at hr
    cases List.mem_append.mp hr with
    | inl hr => exact honly r hr huser
    | inr hr =>
      obtain ⟨hmem, hcandidate⟩ := mem_of_mem_findMany hr
      exact Favorites.eq_of_pair_eq hmem h.stored huser (hcandidate.1.trans hw.1.symm)
  · exact ⟨hfavorites ▸ h.stored, hloop ▸ h.only⟩

omit [LinearOrder U] in
/-- With its cursor's row stored a page is the one after the cursor. -/
theorem favoritesAfter_eq (hsound : Sound setting s) {page : ℕ} {rows : List (Favorite I U S)}
    (hloop : s.favoritesLoop = .reading page rows)
    (hkept : ∀ r ∈ rows.getLast?, r ∈ s.favorites.rows) :
    favoritesAfter setting rows s = pageAfter Favorite.id (lastKey Favorite.id rows)
      setting.favoritesLimits.pageSize (s.favorites.rows.filter fun r => Candidate setting r) := by
  refine findMany_eq_pageAfter s.favorites.ids_nodup fun c hc => ?_
  obtain ⟨r, hr, heq⟩ := Option.map_eq_some_iff.mp hc
  have hread : r ∈ s.favoritesLoop.rows := by
    rw [hloop]
    exact List.mem_of_getLast? hr
  exact ⟨r, hkept r hr, (hsound.read r hread).2, heq⟩

/-- A step under the conditions does not pass `w`. -/
theorem covers_step (hcovers : Covers Favorite.id w s.favoritesLoop) (hsound : Sound setting s)
    (hfollows : Follows w s) (hw : Candidate setting w) (hkept : CursorKept w s a)
    (hroom : RoomLeft setting w s a) (hstep : step setting s a = some s') :
    Covers Favorite.id w s'.favoritesLoop := by
  rcases step_cases hsound.stored hstep with
    ⟨row, _, _, hloop, _⟩ | ⟨userId, storeId, _, heq⟩ | ⟨page, rows, ha, hloop, heq⟩ | ⟨_, hloop, _⟩
  · rwa [hloop]
  · rwa [heq]
  · rw [hloop] at hcovers
    rw [heq]
    cases hcovers with
    | inl hread => exact covers_of_mem hread
    | inr hbeyond =>
      have hincreasing := hsound.increasing
      have hkept' := hkept ha
      have hroom' := hroom ha
      rw [hloop] at hincreasing hkept' hroom'
      rw [withPage, favoritesAfter_eq hsound hloop (hkept' hbeyond)]
      exact covers_next (nodup_filter_keys s.favorites.ids_nodup) hincreasing
        (List.mem_filter.mpr ⟨hfollows.stored, decide_eq_true hw⟩) hbeyond (hroom' hbeyond)
  · rwa [hloop]

/-- A page that does not meet the conditions ends the loop without `w`. -/
theorem missed_step (hsound : Sound setting s)
    (hnot : ¬ (CursorKept w s .favoritesPage ∧ RoomLeft setting w s .favoritesPage))
    (hstep : step setting s .favoritesPage = some s') :
    ∃ rows, s'.favoritesLoop = .finished rows ∧ w ∉ rows := by
  obtain ⟨page, rows, hloop, heq⟩ := favoritesPage_eq_some hstep
  have hincreasing := hsound.increasing
  rw [hloop] at hincreasing
  rw [heq, withPage]
  by_cases hkept : CursorKept w s .favoritesPage
  · have hroom : ¬ RoomLeft setting w s .favoritesPage := fun hroom => hnot ⟨hkept, hroom⟩
    unfold RoomLeft at hroom
    simp only [true_imp_iff, Classical.not_imp, not_lt, hloop] at hroom
    obtain ⟨hbeyond, hlast, hfull⟩ := hroom
    have hkept' := hkept rfl
    rw [hloop] at hkept'
    simp only [favoritesAfter_eq hsound hloop (hkept' hbeyond)]
    exact next_last (nodup_filter_keys s.favorites.ids_nodup) hincreasing hbeyond hlast hfull
  · unfold CursorKept at hkept
    simp only [true_imp_iff, Classical.not_imp, not_forall, hloop] at hkept
    obtain ⟨hbeyond, r, hr, hgone⟩ := hkept
    have hread : r ∈ s.favoritesLoop.rows := by
      rw [hloop]
      exact List.mem_of_getLast? hr
    have hmissing : ∀ b ∈ s.favorites.rows, b.id ≠ r.id := fun b hb heq =>
      hgone (List.inj_on_of_nodup_map hsound.ids (hsound.stored b hb) (hsound.read r hread).1 heq ▸ hb)
    have hcursor : lastKey Favorite.id rows = some r.id := Option.map_eq_some_iff.mpr ⟨r, hr, rfl⟩
    have hempty : favoritesAfter setting rows s = [] := by
      rw [favoritesAfter, hcursor]
      exact findMany_of_missing hmissing
    simp only [hempty]
    exact next_empty hincreasing hbeyond

omit [LinearOrder U] in
/-- Within the ceiling the last page allowed has room for everybody left. -/
theorem roomLeft_of_withinCeiling (hsound : Sound setting s) (hstored : w ∈ s.favorites.rows)
    (hw : Candidate setting w) (h : WithinCeiling setting s) : RoomLeft setting w s a := by
  intro _ hbeyond hlast
  cases hloop : s.favoritesLoop with
  | finished rows =>
    rw [hloop] at hlast
    exact nomatch hlast
  | reading page rows =>
    have hincreasing := hsound.increasing
    have hread := hsound.read
    rw [hloop, rows_reading] at hincreasing hread
    rw [hloop] at hlast
    rw [hloop, rows_reading] at hbeyond
    have hreadEver : ∀ r ∈ rows, r ∈ s.ever.filter fun r => Candidate setting r := fun r hr =>
      List.mem_filter.mpr ⟨(hread r hr).1, decide_eq_true (hread r hr).2⟩
    have hstoredEver : ∀ r ∈ s.favorites.rows.filter fun r => Candidate setting r,
        r ∈ s.ever.filter fun r => Candidate setting r := fun r hr =>
      List.mem_filter.mpr ⟨hsound.stored r (List.mem_of_mem_filter hr), (List.mem_filter.mp hr).2⟩
    have hbefore := length_before_lt hincreasing (nodup_filter_keys s.favorites.ids_nodup) hbeyond
      (List.mem_filter.mpr ⟨hstored, decide_eq_true hw⟩)
      hreadEver hstoredEver
    obtain ⟨hpage, hlength⟩ := hsound.pages page rows hloop
    have hmore : ¬ page+1 < setting.favoritesLimits.maxPages := of_decide_eq_true hlast
    have hmax : setting.favoritesLimits.maxPages = page+1 := by omega
    rw [WithinCeiling, hmax, Nat.succ_mul] at h
    rw [rows_reading]
    omega

omit [LinearOrder I] [LinearOrder U] [DecidableEq S] in
theorem count_userId {rows : List (Favorite I U S)} [DecidableEq U] [DecidableEq (Favorite I U S)]
    (hnodup : rows.Nodup) (honly : ∀ r ∈ rows, r.userId = w.userId → r = w) :
    (rows.map (·.userId)).count w.userId = if w ∈ rows then 1 else 0 := by
  rw [← hnodup.count, List.count, List.count, List.countP_map]
  refine List.countP_congr fun r hr => ?_
  simp only [Function.comp_apply, beq_iff_eq]
  exact ⟨honly r hr, fun heq => heq ▸ rfl⟩

end Invariants

section Runs

variable {setting : Setting U S} {s s' : Fanout I U S} {w : Favorite I U S}
  {ok : Fanout I U S → FanoutAction I U S → Prop}

theorem sound_of_reachable (h : Reachable (step setting) ok (Started w) s) : Sound setting s :=
  h.invariant (fun _ hs => sound_of_started hs) fun _ _ _ hs _ hstep => hs.next hstep

theorem follows_of_reachable (hw : Candidate setting w) (hothers : ∀ s a, ok s a → ByOthers w a)
    (h : Reachable (step setting) ok (Started w) s) : Follows w s :=
  h.invariant_of (fun _ ht => sound_of_reachable ht) (fun _ hs => follows_of_started hs)
    fun t a _ hsound _ hs hok hstep => hs.next hsound hw (hothers t a hok) hstep

/-- The conditions on a run under which `w` is read. -/
def Kept (setting : Setting U S) (w : Favorite I U S) (s : Fanout I U S) (a : FanoutAction I U S) :
    Prop :=
  ByOthers w a ∧ CursorKept w s a ∧ RoomLeft setting w s a

instance (setting : Setting U S) (w : Favorite I U S) (s : Fanout I U S) (a : FanoutAction I U S) :
    Decidable (Kept setting w s a) :=
  inferInstanceAs (Decidable (ByOthers w a ∧ CursorKept w s a ∧ RoomLeft setting w s a))

theorem covers_of_reachable (hw : Candidate setting w)
    (h : Reachable (step setting) (Kept setting w) (Started w) s) :
    Covers Favorite.id w s.favoritesLoop := by
  have hothers : ∀ t a, Kept setting w t a → ByOthers w a := fun t a hok => hok.1
  refine h.invariant_of (I := fun t => Covers Favorite.id w t.favoritesLoop)
    (fun t ht => And.intro (sound_of_reachable ht) (follows_of_reachable hw hothers ht)) ?_ ?_
  · intro t ht
    rw [ht.2.1]
    exact Or.inr (beyond_lastKey nofun)
  · intro t a t' hinv _ hcovers hok hstep
    exact covers_step hcovers hinv.1 hinv.2 hw hok.2.1 hok.2.2 hstep

/-- A finished loop stays as it is. -/
theorem finished_of_reachable {rows : List (Favorite I U S)} (hsound : Sound setting s)
    (hloop : s.favoritesLoop = .finished rows)
    (h : Reachable (step setting) ok (fun t => t = s) s') : s'.favoritesLoop = .finished rows := by
  have hboth : Sound setting s' ∧ s'.favoritesLoop = .finished rows := by
    refine h.invariant (I := fun t => Sound setting t ∧ t.favoritesLoop = .finished rows) ?_ ?_
    · intro t ht
      rw [ht]
      exact ⟨hsound, hloop⟩
    intro t a t' hinv _ hstep
    refine ⟨hinv.1.next hstep, ?_⟩
    rcases step_cases hinv.1.stored hstep with
      ⟨row, _, _, hsame, _⟩ | ⟨userId, storeId, _, heq⟩ | ⟨page, rows, _, hreading, _⟩ | ⟨_, hsame, _⟩
    · rw [hsame, hinv.2]
    · rw [heq]
      exact hinv.2
    · exact nomatch hinv.2.symm.trans hreading
    · rw [hsame, hinv.2]
  exact hboth.2

omit [LinearOrder I] [DecidableEq S] in
theorem audiences_eq_some {audience : Audiences U} (h : audiences s = some audience) :
    ∃ (rows : List (Favorite I U S)) (nearbyUserIds : List U), s.favoritesLoop = .finished rows ∧
      audience = ⟨rows.map (·.userId), nearbyUserIds.filter (· ∉ rows.map (·.userId))⟩ := by
  rw [audiences] at h
  cases hfavorites : s.favoritesLoop with
  | reading page rows =>
    rw [hfavorites] at h
    exact nomatch h
  | finished rows =>
    cases hnearby : s.nearbyLoop with
    | reading page ids =>
      rw [hfavorites, hnearby] at h
      exact nomatch h
    | finished ids =>
      rw [hfavorites, hnearby] at h
      exact ⟨rows, ids, rfl, (Option.some.inj h).symm⟩

/-- How often the user of `w` is in the audience of the favorites. -/
theorem count_audience (hsound : Sound setting s) (hfollows : Follows w s) {audience : Audiences U}
    (h : audiences s = some audience) :
    ∃ rows, s.favoritesLoop = .finished rows ∧
      audience.favoriteUserIds.count w.userId = if w ∈ rows then 1 else 0 := by
  obtain ⟨rows, nearbyUserIds, hloop, heq⟩ := audiences_eq_some h
  have hincreasing := hsound.increasing
  have honly := hfollows.only
  rw [hloop] at hincreasing honly
  refine ⟨rows, hloop, ?_⟩
  rw [heq]
  exact count_userId hincreasing.nodup honly

theorem reached_once (hw : Candidate setting w)
    (h : Reachable (step setting) (Kept setting w) (Started w) s) {audience : Audiences U}
    (haudience : audiences s = some audience) : audience.favoriteUserIds.count w.userId = 1 := by
  obtain ⟨rows, hloop, hcount⟩ := count_audience (sound_of_reachable h)
    (follows_of_reachable hw (fun _ _ hok => hok.1) h) haudience
  have hcovers := covers_of_reachable hw h
  rw [hloop] at hcovers
  have hread : w ∈ rows := hcovers
  rw [hcount, if_pos hread]

/-- Within the ceiling only the cursors matter. -/
theorem kept_of_withinCeiling (hw : Candidate setting w)
    (h : Reachable (step setting)
      (fun t a => ByOthers w a ∧ CursorKept w t a ∧ WithinCeiling setting t) (Started w) s) :
    Reachable (step setting) (Kept setting w) (Started w) s := by
  induction h with
  | start hs => exact .start hs
  | next hs hok hstep ih =>
    have hsound := sound_of_reachable hs
    have hfollows := follows_of_reachable hw (fun _ _ hok => hok.1) hs
    exact ih.next ⟨hok.1, hok.2.1, roomLeft_of_withinCeiling hsound hfollows.stored hw hok.2.2⟩ hstep

/-- A user who keeps a favorite of the store during the whole run is in its
audience exactly once when every page read meets the conditions, and not at all
when one does not; within the ceiling the condition is on the cursors alone. No
user is in both audiences. -/
theorem followers_reached_when_kept (setting : Setting U S) {w : Favorite I U S}
    (hw : Candidate setting w) :
    (∀ (s : Fanout I U S) (audience : Audiences U),
        Reachable (step setting) (Kept setting w) (Started w) s → audiences s = some audience →
          audience.favoriteUserIds.count w.userId = 1) ∧
      (∀ (s : Fanout I U S) (audience : Audiences U),
        Reachable (step setting)
            (fun t a => ByOthers w a ∧ CursorKept w t a ∧ WithinCeiling setting t) (Started w) s →
          audiences s = some audience → audience.favoriteUserIds.count w.userId = 1) ∧
      (∀ s s' t : Fanout I U S,
        Reachable (step setting) (fun _ a => ByOthers w a) (Started w) s →
          ¬ Kept setting w s .favoritesPage → step setting s .favoritesPage = some s' →
          Reachable (step setting) (fun _ a => ByOthers w a) (fun r => r = s') t →
          ∀ audience, audiences t = some audience → audience.favoriteUserIds.count w.userId = 0) ∧
      ∀ (s : Fanout I U S) (audience : Audiences U), audiences s = some audience →
        ∀ u, ¬ (u ∈ audience.favoriteUserIds ∧ u ∈ audience.onlyNearbyUserIds) := by
  refine ⟨?_, ?_, ?_, ?_⟩
  · intro s audience h haudience
    exact reached_once hw h haudience
  · intro s audience h haudience
    exact reached_once hw (kept_of_withinCeiling hw h) haudience
  · intro s s' t h hnot hstep ht audience haudience
    have hothers : ByOthers w (.favoritesPage : FanoutAction I U S) := fun heq => nomatch heq
    have hrun := (h.next hothers hstep).append ht
    have hmissed : ¬ (CursorKept w s .favoritesPage ∧ RoomLeft setting w s .favoritesPage) :=
      fun hboth => hnot ⟨hothers, hboth⟩
    obtain ⟨read, hloop, hout⟩ := missed_step (sound_of_reachable h) hmissed hstep
    have hstays := finished_of_reachable ((sound_of_reachable h).next hstep) hloop ht
    obtain ⟨rows, hrows, hcount⟩ := count_audience (sound_of_reachable hrun)
      (follows_of_reachable hw (fun _ _ hok => hok) hrun) haudience
    have hsame : rows = read := Loop.finished.inj (hrows.symm.trans hstays)
    rw [hcount, if_neg (hsame ▸ hout)]
  · intro s audience haudience u hboth
    obtain ⟨rows, nearbyUserIds, _, heq⟩ := audiences_eq_some haudience
    rw [heq] at hboth
    have hnearby := List.mem_filter.mp hboth.2
    exact of_decide_eq_true hnearby.2 hboth.1

end Runs

section Samples

/-- One store, everybody active, two favorites a page. -/
def pairs : Setting ℕ ℕ where
  active := fun _ => true
  stores := fun _ => true
  storeId := 7
  favoritesLimits := ⟨2, 20, by decide, by decide⟩
  nearbyLimits := ⟨2, 20, by decide, by decide⟩

/-- The users 11, 12 and 13 favorite the store; 12 and 14 are nearby. -/
def threeFollowers : Fanout ℕ ℕ ℕ where
  favorites := ⟨[⟨1, 11, 7⟩, ⟨2, 12, 7⟩, ⟨3, 13, 7⟩], by decide, by decide⟩
  nearby := [12, 14]
  favoritesLoop := .reading 0 []
  nearbyLoop := .reading 0 []
  ever := [⟨1, 11, 7⟩, ⟨2, 12, 7⟩, ⟨3, 13, 7⟩]

/-- Between the two pages of favorites `userId` removes its favorite. -/
def removedBetween (userId : ℕ) : List (FanoutAction ℕ ℕ ℕ) :=
  [.favoritesPage, .remove userId 7, .favoritesPage, .nearbyPage, .nearbyPage]

theorem started_threeFollowers : Started ⟨3, 13, 7⟩ threeFollowers :=
  ⟨by decide, rfl, rfl, rfl⟩

/-- The first user of the first page removes its favorite: everybody else is reached. -/
theorem followers_reached_when_kept_sample :
    ∃ audience, audiences (after (step pairs) threeFollowers (removedBetween 11)) = some audience ∧
      audience.favoriteUserIds.count 13 = 1 := by
  have hw : Candidate pairs (⟨3, 13, 7⟩ : Favorite ℕ ℕ ℕ) := ⟨rfl, rfl⟩
  have hrun : Reachable (step pairs) (Kept pairs ⟨3, 13, 7⟩) (Started ⟨3, 13, 7⟩)
      (after (step pairs) threeFollowers (removedBetween 11)) := by
    refine reachable_after_guarded (.start started_threeFollowers) ?_ (by decide +kernel)
    decide +kernel
  exact ⟨⟨[11, 12, 13], [14]⟩, by decide +kernel,
    (followers_reached_when_kept pairs hw).1 _ ⟨[11, 12, 13], [14]⟩ hrun (by decide +kernel)⟩

/-- The last user of the first page removes its favorite: the second page is
empty, and the third user is in no audience. -/
theorem followers_reached_counterexample :
    ∃ s audience, Reachable (step pairs)
        (fun t a => ByOthers (⟨3, 13, 7⟩ : Favorite ℕ ℕ ℕ) a ∧ WithinCeiling pairs t)
        (Started ⟨3, 13, 7⟩) s ∧
      audiences s = some audience ∧ audience.favoriteUserIds.count 13 = 0 ∧
        13 ∉ audience.onlyNearbyUserIds := by
  refine ⟨after (step pairs) threeFollowers (removedBetween 12), ⟨[11, 12], [14]⟩, ?_,
    by decide +kernel, by decide, by decide⟩
  refine reachable_after_guarded (.start started_threeFollowers) ?_ (by decide +kernel)
  decide +kernel

end Samples

end Kurtar.OfferFanout

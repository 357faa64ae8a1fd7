import Kurtar.RefreshSessions

/-!
# Revoked families stay dead

A revocation writes the rows it found when it started. A rotation that
commits while it is under way inserts a successor that it does not see. In
runs without such a commit every unrevoked row of the family is one that the
revocation found, and after it no row of the family can be claimed.
-/

namespace Kurtar.SessionRevocation

open KeyedTable GuardedRuns IstanbulCalendar TaskPools RefreshSessions

section Rows

/-- A row and a later version of it, the same unless it was to be written. -/
structure RowLater (touched : List TokenHash) (r r' : RefreshToken) : Prop where
  same_hash : r'.tokenHash = r.tokenHash
  same_family : r'.familyId = r.familyId
  rotated : r.rotatedAt ≠ none → r'.rotatedAt ≠ none
  revoked : r.revokedAt ≠ none → r'.revokedAt ≠ none
  kept : r.tokenHash ∉ touched → r' = r

/-- Rows go on as later versions of themselves; what is added belongs to `added`. -/
structure Later (touched : List TokenHash) (added : FamilyId → Prop) (t t' : RefreshTokens) :
    Prop where
  forth : ∀ r ∈ t.rows, ∃ r' ∈ t'.rows, RowLater touched r r'
  back : ∀ r' ∈ t'.rows, (∃ r ∈ t.rows, RowLater touched r r') ∨ added r'.familyId

variable {touched touched' : List TokenHash} {added : FamilyId → Prop} {t t' t'' : RefreshTokens}

theorem RowLater.refl (r : RefreshToken) : RowLater touched r r :=
  ⟨rfl, rfl, fun h => h, fun h => h, fun _ => rfl⟩

theorem RowLater.trans {r r' r'' : RefreshToken} (h : RowLater touched r r')
    (h' : RowLater touched r' r'') : RowLater touched r r'' where
  same_hash := h'.same_hash.trans h.same_hash
  same_family := h'.same_family.trans h.same_family
  rotated := fun hr => h'.rotated (h.rotated hr)
  revoked := fun hr => h'.revoked (h.revoked hr)
  kept := fun hr => (h'.kept (h.same_hash ▸ hr)).trans (h.kept hr)

theorem Later.refl (t : RefreshTokens) : Later touched added t t :=
  ⟨fun r hr => ⟨r, hr, .refl r⟩, fun r hr => Or.inl ⟨r, hr, .refl r⟩⟩

theorem Later.trans (h : Later touched (fun _ => False) t t') (h' : Later touched added t' t'') :
    Later touched added t t'' := by
  constructor
  · intro r hr
    obtain ⟨r', hr', hrow⟩ := h.forth r hr
    obtain ⟨r'', hr'', hrow'⟩ := h'.forth r' hr'
    exact ⟨r'', hr'', hrow.trans hrow'⟩
  · intro r'' hr''
    rcases h'.back r'' hr'' with ⟨r', hr', hrow'⟩ | hadded
    · rcases h.back r' hr' with ⟨r, hr, hrow⟩ | hfalse
      · exact Or.inl ⟨r, hr, hrow.trans hrow'⟩
      · exact hfalse.elim
    · exact Or.inr hadded

theorem later_updateMany {p : RefreshToken → Prop} [DecidablePred p] {f : RefreshToken → RefreshToken}
    (hf : ∀ r, (f r).tokenHash = r.tokenHash) (hp : ∀ r, p r → r.tokenHash ∈ touched)
    (hlater : ∀ r, r.tokenHash ∈ touched → RowLater touched r (f r)) :
    Later touched (fun _ => False) t (t.updateMany p f hf) := by
  have hrow : ∀ r, RowLater touched r (if p r then f r else r) := by
    intro r
    split_ifs with h
    · exact hlater r (hp r h)
    · exact .refl r
  constructor
  · exact fun r hr => ⟨_, List.mem_map.mpr ⟨r, hr, rfl⟩, hrow r⟩
  · intro r' hr'
    obtain ⟨r, hr, rfl⟩ := List.mem_map.mp hr'
    exact Or.inl ⟨r, hr, hrow r⟩

theorem later_commitClaim (t : RefreshTokens) {tokenHash : TokenHash} {now : Instant}
    (h : tokenHash ∈ touched) :
    Later touched (fun _ => False) t (commitClaim t tokenHash now) := by
  apply later_updateMany (f := fun r => r.rotated now)
  · intro r hr
    rw [hr]
    exact h
  · exact fun r hr => ⟨rfl, rfl, fun _ => Option.some_ne_none _, fun h => h, fun hn => absurd hr hn⟩

theorem later_commitRevocation (t : RefreshTokens) {rows : List TokenHash} {now : Instant}
    (h : rows ⊆ touched) :
    Later touched (fun _ => False) t (commitRevocation t rows now) := by
  apply later_updateMany (f := fun r => r.revoked now)
  · exact fun r hr => h hr
  · exact fun r hr => ⟨rfl, rfl, fun h => h, fun _ => Option.some_ne_none _, fun hn => absurd hr hn⟩

theorem create_eq_some {row : RefreshToken} (h : create t row = some t') :
    (∀ r ∈ t.rows, r.tokenHash ≠ row.tokenHash) ∧ t' = t.insertNew row := by
  unfold create at h
  split_ifs at h with htaken
  refine ⟨?_, (Option.some.inj h).symm⟩
  intro r hr heq
  exact htaken ⟨r, hr, heq⟩

theorem later_create {row : RefreshToken} (h : create t row = some t')
    (hadded : added row.familyId) : Later touched added t t' := by
  obtain ⟨_, rfl⟩ := create_eq_some h
  constructor
  · exact fun r hr => ⟨r, Table.mem_insertNew.mpr (Or.inl hr), .refl r⟩
  · intro r hr
    rcases Table.mem_insertNew.mp hr with hr | ⟨rfl, _⟩
    · exact Or.inl ⟨r, hr, .refl r⟩
    · exact Or.inr hadded

end Rows

section Invariants

/-- A revocation that a logout or a detected reuse asked for. -/
def Demanded : RevokeCause → Prop
  | .inactive _ => False
  | _ => True

instance : DecidablePred Demanded := fun cause => by
  cases cause <;> unfold Demanded <;> infer_instance

/-- A demanded revocation of the family has been completed. -/
def RevokedBefore (history : List SessionRecord) (familyId : FamilyId) : Prop :=
  ∃ cause, Demanded cause ∧ .revoked cause familyId ∈ history

/-- The rows of a family that was revoked, of which there is at least one. -/
structure AllRevoked (tokens : RefreshTokens) (familyId : FamilyId) : Prop where
  known : ∃ r ∈ tokens.rows, r.familyId = familyId
  revoked : ∀ r ∈ tokens.rows, r.familyId = familyId → r.revokedAt ≠ none

def rotatedHash : SessionRecord → Option TokenHash
  | .refreshed call _ _ => some call.tokenHash
  | _ => none

/-- The tokens that were rotated with success. -/
def rotations (history : List SessionRecord) : List TokenHash := history.filterMap rotatedHash

/-- No refresh of a family comes after a demanded revocation of it. -/
def InOrder (newer older : SessionRecord) : Prop :=
  ∀ cause familyId, Demanded cause → older = .revoked cause familyId →
    ∀ call refreshToken, newer ≠ .refreshed call familyId refreshToken

structure Sound (s : SessionShared) : Prop where
  dead : ∀ familyId, RevokedBefore s.history familyId → AllRevoked s.tokens familyId
  once : (rotations s.history).Nodup
  used : ∀ tokenHash ∈ rotations s.history,
    ∃ r ∈ s.tokens.rows, r.tokenHash = tokenHash ∧ r.rotatedAt ≠ none
  order : s.history.Pairwise InOrder

/-- The committed version of a claimed row. -/
def Claimed (tokens : RefreshTokens) (call : RefreshCall) (stored : RefreshToken) : Prop :=
  ∃ r ∈ tokens.rows, r.tokenHash = call.tokenHash ∧ r.familyId = stored.familyId ∧
    r.rotatedAt = none ∧ r.revokedAt = none

/-- Every unrevoked row of the family was found by the revocation. -/
def Covers (tokens : RefreshTokens) (r : Revocation) (found locked : List TokenHash) : Prop :=
  ∀ row ∈ tokens.rows, Unrevoked r.familyId row → row.tokenHash ∈ found ∨ row.tokenHash ∈ locked

def Knows (s : SessionShared) : SessionTask → Prop
  | .resolvePrincipal call stored | .create call stored => Claimed s.tokens call stored
  | .revoke r => ∃ row ∈ s.tokens.rows, row.familyId = r.familyId
  | .revoking r found locked =>
    (∃ row ∈ s.tokens.rows, row.familyId = r.familyId) ∧
      (Demanded r.cause → Covers s.tokens r found locked)
  | _ => True

/-- Locks exclude each other. -/
def Apart (a b : SessionTask) : Prop := ∀ h ∈ a.locks, h ∉ b.locks

theorem Apart.symm {a b : SessionTask} (h : Apart a b) : Apart b a :=
  fun x hx hx' => h x hx' hx

/-- The call is in a demanded revocation of the family. -/
def Revoking (familyId : FamilyId) : SessionTask → Prop
  | .revoking r _ _ => Demanded r.cause ∧ r.familyId = familyId
  | _ => False

instance (familyId : FamilyId) : DecidablePred (Revoking familyId) := fun task => by
  cases task <;> unfold Revoking <;> infer_instance

variable {s s' : SessionShared} {task : SessionTask} {touched : List TokenHash}
  {added : FamilyId → Prop}

theorem known_later {familyId : FamilyId} (h : Later touched added s.tokens s'.tokens)
    (hknown : ∃ r ∈ s.tokens.rows, r.familyId = familyId) :
    ∃ r ∈ s'.tokens.rows, r.familyId = familyId := by
  obtain ⟨r, hr, hfamily⟩ := hknown
  obtain ⟨r', hr', hrow⟩ := h.forth r hr
  exact ⟨r', hr', hrow.same_family.trans hfamily⟩

theorem claimed_later {call : RefreshCall} {stored : RefreshToken}
    (h : Later touched added s.tokens s'.tokens) (hfree : call.tokenHash ∉ touched)
    (hclaimed : Claimed s.tokens call stored) : Claimed s'.tokens call stored := by
  obtain ⟨r, hr, hhash, hrest⟩ := hclaimed
  obtain ⟨r', hr', hrow⟩ := h.forth r hr
  rw [hrow.kept (hhash ▸ hfree)] at hr'
  exact ⟨r, hr', hhash, hrest⟩

/-- A call keeps what it knows when its rows are not written and its family does not grow. -/
theorem knows_later (h : Later touched added s.tokens s'.tokens)
    (hfree : ∀ x ∈ task.locks, x ∉ touched)
    (hadded : ∀ familyId, Revoking familyId task → ¬ added familyId) (hknows : Knows s task) :
    Knows s' task := by
  cases task with
  | resolvePrincipal call stored =>
    exact claimed_later h (hfree _ List.mem_cons_self) hknows
  | create call stored => exact claimed_later h (hfree _ List.mem_cons_self) hknows
  | revoke r => exact known_later h hknows
  | revoking r found locked =>
    refine ⟨known_later h hknows.1, ?_⟩
    intro hdemanded row' hrow' ⟨hfamily, hunrevoked⟩
    rcases h.back row' hrow' with ⟨row, hrow, hlater⟩ | hnew
    · rw [hlater.same_hash]
      refine hknows.2 hdemanded row hrow ⟨hlater.same_family.symm.trans hfamily, ?_⟩
      by_contra hrevoked
      exact hlater.revoked hrevoked hunrevoked
    · rw [hfamily] at hnew
      exact absurd hnew (hadded r.familyId ⟨hdemanded, rfl⟩)
  | _ => trivial

theorem allRevoked_later {familyId : FamilyId} (h : Later touched added s.tokens s'.tokens)
    (hadded : ¬ added familyId) (hall : AllRevoked s.tokens familyId) :
    AllRevoked s'.tokens familyId := by
  refine ⟨known_later h hall.known, ?_⟩
  intro r' hr' hfamily
  rcases h.back r' hr' with ⟨r, hr, hrow⟩ | hnew
  · exact hrow.revoked (hall.revoked r hr (hrow.same_family.symm.trans hfamily))
  · exact absurd (hfamily ▸ hnew) hadded

theorem used_later (h : Later touched added s.tokens s'.tokens) (hs : Sound s)
    {tokenHash : TokenHash} (hmem : tokenHash ∈ rotations s.history) :
    ∃ r ∈ s'.tokens.rows, r.tokenHash = tokenHash ∧ r.rotatedAt ≠ none := by
  obtain ⟨r, hr, hhash, hrotated⟩ := hs.used tokenHash hmem
  obtain ⟨r', hr', hrow⟩ := h.forth r hr
  exact ⟨r', hr', hrow.same_hash.trans hhash, hrow.rotated hrotated⟩

end Invariants

section Effects

variable {cfg : TokenConfig} {s s' : SessionShared} {task : SessionTask} {input : SessionInput}
  {rest others : List SessionTask}

/-- What a statement does to the committed rows and the history, and what it leaves of
its call. -/
inductive Effect (cfg : TokenConfig) (s : SessionShared) (others : List SessionTask) :
    SessionTask → SessionShared → List SessionTask → Prop where
  | ended {t : SessionTask} : Effect cfg s others t s []
  | answered {t : SessionTask} (request : RequestId) :
      Effect cfg s others t (s.note [.rejected request]) []
  /-- Locks are kept, or taken when nobody else holds them. -/
  | moved {t t' : SessionTask} (hknows : Knows s t → Knows s t')
      (hlocks : ∀ x ∈ t'.locks, x ∈ t.locks ∨ ¬ Locked others x) : Effect cfg s others t s [t']
  | issued {row : RefreshToken} {tokens : RefreshTokens}
      (hfresh : ∀ r ∈ s.tokens.rows, r.familyId ≠ row.familyId)
      (hcreate : create s.tokens row = some tokens) :
      Effect cfg s others (.issue row) (s.withTokens tokens) []
  | rotated {call : RefreshCall} {stored : RefreshToken} {tokens : RefreshTokens}
      (refreshToken : String)
      (hcreate : create (commitClaim s.tokens call.tokenHash call.now)
        (stored.successor (cfg.hashToken refreshToken) (call.now+cfg.refreshTtlMs)) =
          some tokens) :
      Effect cfg s others (.create call stored) ((s.withTokens tokens).note
        [.refreshed call stored.familyId refreshToken]) []
  | revoked {r : Revocation} {locked : List TokenHash} :
      Effect cfg s others (.revoking r [] locked) (finishRevocation s r locked) []

/-- A call goes on to a statement that needs to know nothing and has no locks. -/
theorem Effect.free {t t' : SessionTask} (hknows : Knows s t') (hlocks : t'.locks = []) :
    Effect cfg s others t s [t'] :=
  .moved (fun _ => hknows) fun x hx => by rw [hlocks] at hx; cases hx

/-- Of the rows found the one reached is locked, or was revoked by another. -/
theorem covers_reach {r : Revocation} {found locked : List TokenHash} {row : TokenHash}
    {stored : RefreshToken} (hfind : s.tokens.find? row = some stored)
    (hcovers : Covers s.tokens r found locked) {locked' : List TokenHash}
    (hlocked : locked ⊆ locked') (hreached : Unrevoked r.familyId stored → row ∈ locked') :
    Covers s.tokens r (found.erase row) locked' := by
  intro q hq hunrevoked
  by_cases hrow : q.tokenHash = row
  · have hsame : q = stored := Option.some.inj (by rw [← hfind, ← hrow, Table.find?_of_mem hq])
    rw [hrow]
    exact Or.inr (hreached (hsame ▸ hunrevoked))
  · rcases hcovers q hq hunrevoked with hfound | hmem
    · exact Or.inl ((List.mem_erase_of_ne hrow).mpr hfound)
    · exact Or.inr (hlocked hmem)

/-- An update that reaches its next row takes it or leaves it. -/
theorem reach_effect {r : Revocation} {found locked : List TokenHash} {row : TokenHash}
    (h : reachRow s others r found locked row = some rest) :
    Effect cfg s others (.revoking r found locked) s rest := by
  unfold reachRow at h
  split_ifs at h with hwait
  split at h
  · rename_i hnone
    cases h
    refine .moved (fun hknows => ⟨hknows.1, fun hdemanded q hq hunrevoked => ?_⟩)
      fun _ hx => Or.inl hx
    rcases hknows.2 hdemanded q hq hunrevoked with hfound | hmem
    · have hne : q.tokenHash ≠ row := Table.find?_eq_none.mp hnone q hq
      exact Or.inl ((List.mem_erase_of_ne hne).mpr hfound)
    · exact Or.inr hmem
  · rename_i stored hfind
    split_ifs at h with hunrevoked
    · cases h
      refine .moved (fun hknows => ⟨hknows.1, fun hdemanded => ?_⟩) fun x hx => ?_
      · exact covers_reach hfind (hknows.2 hdemanded) (List.subset_cons_self _ _)
          fun _ => List.mem_cons_self
      · rcases List.mem_append.mp hx with hx | hx
        · exact Or.inl (List.mem_append_left _ hx)
        · rcases List.mem_cons.mp hx with rfl | hx
          · exact Or.inr fun hlocked => hwait (Or.inr hlocked)
          · exact Or.inl (List.mem_append_right _ hx)
    · cases h
      refine .moved (fun hknows => ⟨hknows.1, fun hdemanded => ?_⟩) fun _ hx => Or.inl hx
      exact covers_reach hfind (hknows.2 hdemanded) (fun _ h => h) fun h => absurd h hunrevoked

theorem statement_effect (h : nextStatement cfg s others input task = some (s', rest)) :
    Effect cfg s others task s' rest := by
  cases task with
  | issue row =>
    simp only [nextStatement] at h
    split_ifs at h with htaken
    obtain ⟨tokens, hcreate, heq⟩ := Option.map_eq_some_iff.mp h
    cases heq
    exact .issued (fun r hr heq => htaken ⟨r, hr, heq⟩) hcreate
  | bound call =>
    simp only [nextStatement] at h
    split at h
    · cases h
      exact .free trivial rfl
    · split_ifs at h
      · cases h
        exact .free trivial rfl
      · cases h
        exact .answered _
  | claim call =>
    simp only [nextStatement, claimToken] at h
    split at h
    · cases h
      exact .free trivial rfl
    · rename_i r hfind
      obtain ⟨hr, hhash⟩ := Table.find?_eq_some.mp hfind
      split_ifs at h with hclaimable hlocked
      · cases h
        refine .moved (fun _ => ⟨r, hr, hhash, rfl, hclaimable.1, hclaimable.2.1⟩) fun x hx => ?_
        rw [List.mem_singleton.mp hx]
        exact Or.inr hlocked
      · cases h
        exact .free trivial rfl
  | resolvePrincipal call stored =>
    simp only [nextStatement] at h
    split_ifs at h
    · cases h
      exact .moved (fun hknows => hknows) fun _ hx => Or.inl hx
    · cases h
      exact .moved (fun ⟨r, hr, _, hfamily, _⟩ => ⟨r, hr, hfamily⟩) fun _ hx => Or.inl hx
  | create call stored =>
    obtain ⟨tokens, hcreate, heq⟩ := Option.map_eq_some_iff.mp h
    cases heq
    exact .rotated _ hcreate
  | handleClaimFailure call =>
    simp only [nextStatement] at h
    split at h
    · cases h
      exact .answered _
    · rename_i r hfind
      split_ifs at h
      · cases h
        exact .answered _
      · cases h
        exact .free ⟨r, (Table.find?_eq_some.mp hfind).1, rfl⟩ rfl
  | findForLogout tokenHash expectedActor =>
    simp only [nextStatement] at h
    split at h
    · cases h
      exact .ended
    · rename_i r hfind
      split_ifs at h
      · cases h
        exact .free ⟨r, (Table.find?_eq_some.mp hfind).1, rfl⟩ rfl
      · cases h
        exact .ended
  | revoke r =>
    cases h
    refine .moved (fun hknows => ⟨hknows, fun _ row hrow hunrevoked => Or.inl ?_⟩) fun x hx => ?_
    · exact List.mem_map_of_mem (List.mem_filter.mpr ⟨hrow, decide_eq_true hunrevoked⟩)
    · simp only [SessionTask.locks, List.append_nil] at hx
      exact Or.inl hx
  | revoking r found locked =>
    cases found with
    | nil =>
      cases h
      exact .revoked
    | cons row found =>
      obtain ⟨left, hreach, heq⟩ := Option.map_eq_some_iff.mp h
      cases heq
      exact reach_effect hreach

/-- The family that a statement adds a row to. -/
def Adds (s : SessionShared) : SessionTask → FamilyId → Prop
  | .issue row, familyId => row.familyId = familyId ∧ ∀ r ∈ s.tokens.rows, r.familyId ≠ familyId
  | .create _ stored, familyId => stored.familyId = familyId
  | _, _ => False

theorem effect_later (h : Effect cfg s others task s' rest) :
    Later task.locks (Adds s task) s.tokens s'.tokens := by
  cases h with
  | ended => exact .refl _
  | answered => exact .refl _
  | moved => exact .refl _
  | issued hfresh hcreate => exact later_create hcreate ⟨rfl, hfresh⟩
  | @rotated call stored tokens refreshToken hcreate =>
    have hclaim : Later [call.tokenHash] (fun _ => False) s.tokens
        (commitClaim s.tokens call.tokenHash call.now) :=
      later_commitClaim s.tokens List.mem_cons_self
    exact hclaim.trans (later_create hcreate rfl)
  | @revoked r locked =>
    have hlocked : locked ⊆ r.cause.claimed ++ locked := fun x hx => List.mem_append_right _ hx
    cases hcause : r.cause with
    | inactive call =>
      rw [hcause] at hlocked
      simp only [finishRevocation, SessionShared.note, SessionShared.withTokens, hcause,
        SessionTask.locks]
      have hclaim : Later (RevokeCause.claimed (.inactive call) ++ locked) (fun _ => False)
          s.tokens (commitClaim s.tokens call.tokenHash call.now) :=
        later_commitClaim s.tokens List.mem_cons_self
      exact hclaim.trans (later_commitRevocation _ hlocked)
    | logout =>
      rw [hcause] at hlocked
      simp only [finishRevocation, SessionShared.note, SessionShared.withTokens, hcause,
        SessionTask.locks]
      exact later_commitRevocation _ hlocked
    | reuse call =>
      rw [hcause] at hlocked
      simp only [finishRevocation, SessionShared.note, SessionShared.withTokens, hcause,
        SessionTask.locks]
      exact later_commitRevocation _ hlocked

/-- A rotation commits while no demanded revocation of its family is under way. -/
def CommitsAlone (others : List SessionTask) : SessionTask → Prop
  | .create _ stored => ∀ other ∈ others, ¬ Revoking stored.familyId other
  | _ => True

instance (others : List SessionTask) : DecidablePred (CommitsAlone others) := fun task => by
  cases task <;> unfold CommitsAlone <;> infer_instance

/-- A claimed row is not in a family that was revoked. -/
theorem not_revokedBefore_of_claimed (hs : Sound s) {call : RefreshCall} {stored : RefreshToken}
    (hclaimed : Claimed s.tokens call stored) : ¬ RevokedBefore s.history stored.familyId := by
  intro hbefore
  obtain ⟨r, hr, _, hfamily, _, hunrevoked⟩ := hclaimed
  exact (hs.dead _ hbefore).revoked r hr hfamily hunrevoked

theorem dead_kept (h : Effect cfg s others task s' rest) (hs : Sound s) (hknows : Knows s task)
    {familyId : FamilyId} (hbefore : RevokedBefore s.history familyId) :
    AllRevoked s'.tokens familyId := by
  have hall := hs.dead familyId hbefore
  refine allRevoked_later (effect_later h) ?_ hall
  intro hadds
  cases task with
  | issue row =>
    obtain ⟨r, hr, hfamily⟩ := hall.known
    exact hadds.2 r hr hfamily
  | create call stored =>
    have hsame : stored.familyId = familyId := hadds
    exact not_revokedBefore_of_claimed hs hknows (hsame ▸ hbefore)
  | _ => exact hadds

theorem finish_effect (s : SessionShared) (r : Revocation) (locked : List TokenHash) :
    Effect ⟨id, 0⟩ s [] (.revoking r [] locked) (finishRevocation s r locked) [] := .revoked

/-- A revocation that covers the family leaves no row of it unrevoked. -/
theorem allRevoked_finish {r : Revocation} {locked : List TokenHash}
    (hknows : Knows s (.revoking r [] locked)) (hdemanded : Demanded r.cause) :
    AllRevoked (finishRevocation s r locked).tokens r.familyId := by
  refine ⟨known_later (effect_later (finish_effect s r locked)) hknows.1, ?_⟩
  have htokens : (finishRevocation s r locked).tokens = commitRevocation s.tokens locked r.now := by
    cases hcause : r.cause with
    | inactive call =>
      rw [hcause] at hdemanded
      exact hdemanded.elim
    | logout => simp only [finishRevocation, SessionShared.note, SessionShared.withTokens, hcause]
    | reuse call =>
      simp only [finishRevocation, SessionShared.note, SessionShared.withTokens, hcause]
  rw [htokens]
  intro row' hrow' hfamily
  obtain ⟨row, hrow, rfl⟩ := List.mem_map.mp hrow'
  by_cases hin : row.tokenHash ∈ locked
  · rw [if_pos hin]
    exact Option.some_ne_none _
  · rw [if_neg hin] at hfamily ⊢
    intro hunrevoked
    rcases hknows.2 hdemanded row hrow ⟨hfamily, hunrevoked⟩ with hfound | hlocked
    · cases hfound
    · exact hin hlocked

theorem response_rejected {cause : RevokeCause} {record : SessionRecord}
    (h : record ∈ cause.response) : ∃ request, record = .rejected request := by
  cases cause with
  | logout => cases h
  | reuse call => exact ⟨call.request, List.mem_singleton.mp h⟩
  | inactive call => exact ⟨call.request, List.mem_singleton.mp h⟩

theorem rotations_revocation (s : SessionShared) (r : Revocation) (locked : List TokenHash) :
    rotations (finishRevocation s r locked).history = rotations s.history := by
  have hnone : r.cause.response.filterMap rotatedHash = [] := by
    rw [List.filterMap_eq_nil_iff]
    intro record hmem
    obtain ⟨request, rfl⟩ := response_rejected hmem
    rfl
  unfold rotations
  rw [history_revocation, List.filterMap_append, hnone, List.nil_append]
  exact List.filterMap_cons_none rfl

/-- Records that are no refresh come in any order. -/
theorem inOrder_of_not_refreshed {newer : SessionRecord}
    (h : ∀ call familyId refreshToken, newer ≠ .refreshed call familyId refreshToken)
    (older : SessionRecord) : InOrder newer older :=
  fun _ familyId _ _ call refreshToken => h call familyId refreshToken

/-- The successor of a claimed row: its family is not revoked, and the row was not
rotated before. -/
theorem rotated_sound {call : RefreshCall} {stored : RefreshToken} {tokens : RefreshTokens}
    {refreshToken : String} {expiresAt : Instant} (hs : Sound s)
    (hclaimed : Claimed s.tokens call stored)
    (hcreate : RefreshSessions.create (commitClaim s.tokens call.tokenHash call.now)
      (stored.successor (cfg.hashToken refreshToken) expiresAt) = some tokens)
    (hdead : ∀ familyId, RevokedBefore s.history familyId → AllRevoked tokens familyId)
    (hused : ∀ tokenHash ∈ rotations s.history,
      ∃ r ∈ tokens.rows, r.tokenHash = tokenHash ∧ r.rotatedAt ≠ none) :
    Sound ((s.withTokens tokens).note [.refreshed call stored.familyId refreshToken]) := by
  have hnot := not_revokedBefore_of_claimed hs hclaimed
  obtain ⟨r, hr, hhash, _, hunrotated, _⟩ := hclaimed
  refine ⟨?_, ?_, ?_, ?_⟩
  · intro familyId ⟨cause, hdemanded, hmem⟩
    rcases List.mem_cons.mp hmem with heq | hmem
    · cases heq
    · exact hdead familyId ⟨cause, hdemanded, hmem⟩
  · refine List.nodup_cons.mpr ⟨?_, hs.once⟩
    intro hmem
    obtain ⟨q, hq, hqhash, hrotated⟩ := hs.used _ hmem
    rw [s.tokens.eq_of_key_eq hq hr (hqhash.trans hhash.symm)] at hrotated
    exact hrotated hunrotated
  · intro tokenHash hmem
    rcases List.mem_cons.mp hmem with rfl | hmem
    · obtain ⟨_, rfl⟩ := create_eq_some hcreate
      have hrow : r.rotated call.now ∈ (commitClaim s.tokens call.tokenHash call.now).rows :=
        List.mem_map.mpr ⟨r, hr, if_pos hhash⟩
      exact ⟨_, Table.mem_insertNew.mpr (Or.inl hrow), hhash, Option.some_ne_none _⟩
    · exact hused tokenHash hmem
  · refine List.pairwise_cons.mpr ⟨?_, hs.order⟩
    intro older hmem cause familyId hdemanded heq call' refreshToken' hsame
    cases hsame
    exact hnot ⟨cause, hdemanded, heq ▸ hmem⟩

/-- A finished revocation leaves its family revoked and rotates nothing. -/
theorem revoked_sound {r : Revocation} {locked : List TokenHash} (hs : Sound s)
    (hknows : Knows s (.revoking r [] locked))
    (hdead : ∀ familyId, RevokedBefore s.history familyId →
      AllRevoked (finishRevocation s r locked).tokens familyId)
    (hused : ∀ tokenHash ∈ rotations s.history,
      ∃ r' ∈ (finishRevocation s r locked).tokens.rows, r'.tokenHash = tokenHash ∧
        r'.rotatedAt ≠ none) :
    Sound (finishRevocation s r locked) := by
  have hhistory := history_revocation s r locked
  refine ⟨?_, ?_, ?_, ?_⟩
  · intro familyId ⟨cause, hdemanded, hmem⟩
    rw [hhistory] at hmem
    rcases List.mem_append.mp hmem with hmem | hmem
    · obtain ⟨request, heq⟩ := response_rejected hmem
      cases heq
    · rcases List.mem_cons.mp hmem with heq | hmem
      · cases heq
        exact allRevoked_finish hknows hdemanded
      · exact hdead familyId ⟨cause, hdemanded, hmem⟩
  · rw [rotations_revocation]
    exact hs.once
  · rw [rotations_revocation]
    exact hused
  · have hrevoked : ∀ older, InOrder (.revoked r.cause r.familyId) older :=
      inOrder_of_not_refreshed fun _ _ _ => by intro heq; cases heq
    have hresponse : ∀ record ∈ r.cause.response, ∀ older, InOrder record older := by
      intro record hmem
      obtain ⟨request, rfl⟩ := response_rejected hmem
      exact inOrder_of_not_refreshed fun _ _ _ => by intro heq; cases heq
    rw [hhistory, List.pairwise_append]
    refine ⟨?_, List.pairwise_cons.mpr ⟨fun older _ => hrevoked older, hs.order⟩,
      fun record hmem older _ => hresponse record hmem older⟩
    exact List.pairwise_of_forall_mem_list fun record hmem older _ => hresponse record hmem older

theorem effect_sound (h : Effect cfg s others task s' rest) (hs : Sound s) (hknows : Knows s task) :
    Sound s' := by
  have hlater := effect_later h
  have hdead : ∀ familyId, RevokedBefore s.history familyId → AllRevoked s'.tokens familyId :=
    fun _ hbefore => dead_kept h hs hknows hbefore
  have hused : ∀ tokenHash ∈ rotations s.history,
      ∃ r ∈ s'.tokens.rows, r.tokenHash = tokenHash ∧ r.rotatedAt ≠ none :=
    fun _ hmem => used_later hlater hs hmem
  cases h with
  | ended => exact hs
  | moved => exact hs
  | answered request =>
    refine ⟨?_, hs.once, hs.used, ?_⟩
    · intro familyId ⟨cause, hdemanded, hmem⟩
      rcases List.mem_cons.mp hmem with heq | hmem
      · cases heq
      · exact hs.dead familyId ⟨cause, hdemanded, hmem⟩
    · refine List.pairwise_cons.mpr ⟨?_, hs.order⟩
      intro older _
      exact inOrder_of_not_refreshed (fun _ _ _ => by intro heq; cases heq) older
  | issued hfresh hcreate => exact ⟨hdead, hs.once, hused, hs.order⟩
  | rotated refreshToken hcreate => exact rotated_sound hs hknows hcreate hdead hused
  | revoked => exact revoked_sound hs hknows hdead hused

end Effects

section Pools

variable {cfg : TokenConfig} {p q : SessionPool} {s s' : SessionShared} {task : SessionTask}
  {others left : List SessionTask}

def PoolSound (p : SessionPool) : Prop := Holds Sound Knows (fun _ => Apart) p

/-- A statement adds no row to a family that another call is revoking. -/
theorem adds_apart (halone : CommitsAlone others task) {other : SessionTask}
    (hother : other ∈ others) (hknows : Knows s other) {familyId : FamilyId}
    (hrevoking : Revoking familyId other) : ¬ Adds s task familyId := by
  intro hadds
  cases task with
  | issue row =>
    cases other with
    | revoking r found locked =>
      obtain ⟨⟨row', hrow', hfamily⟩, _⟩ := hknows
      exact hadds.2 row' hrow' (hfamily.trans hrevoking.2)
    | _ => exact hrevoking
  | create call stored =>
    have hsame : stored.familyId = familyId := hadds
    exact halone other hother (hsame ▸ hrevoking)
  | _ => exact hadds

theorem effect_single (h : Effect cfg s others task s' left) : left.length ≤ 1 := by
  cases h with
  | moved => exact le_refl _
  | _ => exact Nat.zero_le _

theorem effect_knows (h : Effect cfg s others task s' left) (hknows : Knows s task) :
    ∀ t ∈ left, Knows s' t := by
  cases h with
  | moved hnext _ =>
    intro t ht
    rw [List.mem_singleton.mp ht]
    exact hnext hknows
  | _ => exact fun t ht => by cases ht

theorem effect_locks (h : Effect cfg s others task s' left) :
    ∀ t ∈ left, ∀ x ∈ t.locks, x ∈ task.locks ∨ ¬ Locked others x := by
  cases h with
  | moved _ hlocks =>
    intro t ht
    rw [List.mem_singleton.mp ht]
    exact hlocks
  | _ => exact fun t ht => by cases ht

theorem pairwise_of_single (h : left.length ≤ 1) : left.Pairwise Apart := by
  cases left with
  | nil => exact .nil
  | cons t left =>
    have hnil : left = [] := List.eq_nil_of_length_eq_zero (by simpa using h)
    rw [hnil]
    exact List.pairwise_singleton _ t

theorem poolSound_effect (h : AtTask Sound Knows (fun _ => Apart) s task others)
    (halone : CommitsAlone others task) (heffect : Effect cfg s others task s' left) :
    PoolSound ⟨s', left ++ others⟩ := by
  have hothers : Undisturbed Knows (fun _ => Apart) s' s' others := by
    refine ⟨?_, h.pairs⟩
    intro other hother
    have hknows := h.each other hother
    refine knows_later (effect_later heffect) ?_ ?_ hknows
    · exact fun x hx htask => h.apart other hother x htask hx
    · exact fun familyId hrevoking => adds_apart halone hother hknows hrevoking
  refine holds_append (s := s') (effect_sound heffect h.shared h.own) ⟨hothers.each, hothers.pairs⟩
    (effect_knows heffect h.own) (pairwise_of_single (effect_single heffect)) ?_
  intro t ht other hother x hx hx'
  rcases effect_locks heffect t ht x hx with hkept | hfree
  · exact h.apart other hother x hkept hx'
  · exact hfree ⟨other, hother, hx'⟩

/-- Every rotation commits while no demanded revocation of its family is under way. -/
def RunsAlone (p : SessionPool) : SessionAction → Prop
  | .event _ => True
  | .resume index input =>
    ∀ task ∈ p.tasks[index]?, input.fails = false → CommitsAlone p.tasks task

instance (p : SessionPool) (a : SessionAction) : Decidable (RunsAlone p a) := by
  unfold RunsAlone
  cases a <;> infer_instance

theorem commitsAlone_mono {tasks : List SessionTask} (hsub : others ⊆ tasks)
    (h : CommitsAlone tasks task) : CommitsAlone others task := by
  cases task with
  | create call stored => exact fun other hother => h other (hsub hother)
  | _ => trivial

theorem poolSound_event {e : SessionEvent} (h : PoolSound p)
    (hstart : startCall cfg p.shared e = some (s', left)) : PoolSound ⟨s', left ++ p.tasks⟩ := by
  have hs : Sound p.shared := h.shared
  have hnew : s'.tokens = p.shared.tokens ∧ s'.history = p.shared.history ∧ left.length ≤ 1 ∧
      ∀ t ∈ left, Knows s' t ∧ t.locks = [] := by
    cases e with
    | tick clock =>
      simp only [startCall] at hstart
      split_ifs at hstart
      cases hstart
      exact ⟨rfl, rfl, Nat.zero_le _, fun t ht => by cases ht⟩
    | _ =>
      cases hstart
      refine ⟨rfl, rfl, le_refl _, fun t ht => ?_⟩
      rw [List.mem_singleton.mp ht]
      exact ⟨trivial, rfl⟩
  obtain ⟨htokens, hhistory, hsingle, hleft⟩ := hnew
  have hlater : Later [] (fun _ => False) p.shared.tokens s'.tokens := by
    rw [htokens]
    exact .refl _
  refine holds_append (s := s') ?_ ⟨?_, h.pairs⟩ (fun t ht => (hleft t ht).1)
    (pairwise_of_single hsingle) ?_
  · refine ⟨?_, ?_, ?_, ?_⟩
    · rw [htokens, hhistory]
      exact hs.dead
    · rw [hhistory]
      exact hs.once
    · rw [htokens, hhistory]
      exact hs.used
    · rw [hhistory]
      exact hs.order
  · intro other hother
    exact knows_later hlater (fun _ _ hx => by cases hx) (fun _ _ h => h) (h.each other hother)
  · intro t ht other _ x hx
    rw [(hleft t ht).2] at hx
    cases hx

theorem poolSound_resume (h : AtTask Sound Knows (fun _ => Apart) s task others)
    {input : SessionInput} (halone : input.fails = false → CommitsAlone others task)
    (hresume : resumeCall cfg s others input task = some (s', left)) :
    PoolSound ⟨s', left ++ others⟩ := by
  unfold resumeCall at hresume
  split_ifs at hresume with hfails
  · cases hresume
    exact ⟨h.shared, h.each, h.pairs⟩
  · exact poolSound_effect h (halone (by simpa using hfails)) (statement_effect hresume)

theorem poolSound_step {a : SessionAction} (h : PoolSound p) (hok : RunsAlone p a)
    (hstep : (sessionSystem cfg).step p a = some q) : PoolSound q := by
  refine holds_step (fun _ _ _ hapart => hapart.symm) h ?_ ?_ hstep
  · exact fun e s' started _ hstart => poolSound_event h hstart
  · intro index input task s' left ha hget hat hresume
    refine poolSound_resume hat (fun hfails => ?_) hresume
    rw [ha] at hok
    exact commitsAlone_mono (fun _ hmem => List.mem_of_mem_eraseIdx hmem) (hok task hget hfails)

theorem initial_poolSound (h : Initial p) : PoolSound p := by
  refine ⟨⟨?_, ?_, ?_, ?_⟩, ?_, ?_⟩
  · rw [h.history]
    exact fun _ ⟨_, _, hmem⟩ => by cases hmem
  · rw [h.history]
    exact List.nodup_nil
  · rw [h.history]
    exact fun _ hmem => by cases hmem
  · rw [h.history]
    exact .nil
  · rw [h.tasks]
    exact fun _ hmem => by cases hmem
  · rw [h.tasks]
    exact .nil

/-- Each token is rotated once at most; after a demanded revocation no token of the family
can be claimed at any time and no refresh of it succeeds any more. -/
structure StaysDead (p : SessionPool) : Prop where
  once : (rotations p.shared.history).Nodup
  dead : ∀ familyId, RevokedBefore p.shared.history familyId → ∀ r ∈ p.shared.tokens.rows,
    r.familyId = familyId → ∀ now, ¬ Claimable now r
  final : p.shared.history.Pairwise InOrder

/-- In every run whose rotations commit alone, revoked families stay dead. -/
theorem revoked_stays_dead (cfg : TokenConfig)
    (h : Reachable (sessionSystem cfg).step RunsAlone Initial p) : StaysDead p := by
  have hpool : PoolSound p := h.invariant (fun _ hinit => initial_poolSound hinit)
    fun _ _ _ hs hok hstep => poolSound_step hs hok hstep
  have hs : Sound p.shared := hpool.shared
  refine ⟨hs.once, ?_, hs.order⟩
  intro familyId hbefore r hr hfamily now hclaimable
  exact (hs.dead familyId hbefore).revoked r hr hfamily hclaimable.2.1

end Pools

section SampleRuns

def plainConfig : TokenConfig := ⟨id, defaultRefreshTtlMs⟩

def samplePool : SessionPool := ⟨⟨Table.empty, 0, []⟩, []⟩

theorem samplePool_initial : Initial samplePool := ⟨rfl, rfl, rfl⟩

/-- The call that started last runs its next statement. -/
def statement (row : TokenHash) (rawRefreshToken : String) : SessionAction :=
  .resume 0 { row, rawRefreshToken }

def loginInOneGo : List SessionAction :=
  [.event (.login "t1" "f" .consumer "u"), statement "" ""]

def refreshInOneGo (request : RequestId) (presentedToken rawRefreshToken : String) :
    List SessionAction :=
  .event (.refresh request presentedToken .consumer) ::
    List.replicate 4 (statement "" rawRefreshToken)

/-- A rotation, a logout, and a refresh with the token that was current. -/
def loggedOut : List SessionAction :=
  loginInOneGo ++ refreshInOneGo 1 "t1" "t2" ++
    [.event (.logout "t2" .consumer), statement "" "", statement "" "", statement "t1" "",
      statement "t2" "", statement "" "",
      .event (.refresh 2 "t2" .consumer), statement "" "", statement "" "", statement "" "",
      statement "" "", statement "" ""]

theorem revoked_stays_dead_loggedOut :
    ∃ p, Reachable (sessionSystem plainConfig).step RunsAlone Initial p ∧
      rotations p.shared.history = ["t1"] ∧ RevokedBefore p.shared.history "f" ∧ StaysDead p := by
  have hp : Reachable (sessionSystem plainConfig).step RunsAlone Initial
      (after (sessionSystem plainConfig).step samplePool loggedOut) :=
    reachable_after_guarded (.start samplePool_initial) (by decide +kernel) (by decide +kernel)
  have hbefore : RevokedBefore (after (sessionSystem plainConfig).step samplePool
      loggedOut).shared.history "f" := ⟨.logout, by decide, by decide +kernel⟩
  exact ⟨_, hp, by decide +kernel, hbefore, revoked_stays_dead plainConfig hp⟩

/-- A logout starts to revoke between the claim and the commit of a rotation. -/
def loggedOutTooSoon : List SessionAction :=
  loginInOneGo ++
    [.event (.refresh 1 "t1" .consumer), statement "" "", statement "" "", statement "" "",
      .event (.logout "t1" .consumer), statement "" "", statement "" "",
      .resume 1 { rawRefreshToken := "t2" }, statement "t1" "", statement "" ""] ++
    refreshInOneGo 2 "t2" "t3"

theorem revoked_not_dead :
    ∃ p, Reachable (sessionSystem plainConfig).step anyStep Initial p ∧ p.tasks = [] ∧
      RevokedBefore p.shared.history "f" ∧
      (∃ r ∈ p.shared.tokens.rows, r.familyId = "f" ∧ Claimable p.shared.clock r) ∧
      rotations p.shared.history = ["t2", "t1"] ∧ ¬ p.shared.history.Pairwise InOrder := by
  have hp : Reachable (sessionSystem plainConfig).step anyStep Initial
      (after (sessionSystem plainConfig).step samplePool loggedOutTooSoon) :=
    reachable_after (.start samplePool_initial) (by decide +kernel)
  have hbefore : RevokedBefore (after (sessionSystem plainConfig).step samplePool
      loggedOutTooSoon).shared.history "f" := ⟨.logout, by decide, by decide +kernel⟩
  have hhistory : (after (sessionSystem plainConfig).step samplePool
      loggedOutTooSoon).shared.history = [.refreshed ⟨2, "t2", .consumer, 0⟩ "f" "t3",
        .revoked .logout "f", .refreshed ⟨1, "t1", .consumer, 0⟩ "f" "t2"] := by decide +kernel
  refine ⟨_, hp, by decide +kernel, hbefore, by decide +kernel, by decide +kernel, ?_⟩
  intro horder
  rw [hhistory, List.pairwise_cons] at horder
  exact horder.1 (.revoked .logout "f") List.mem_cons_self .logout "f" trivial rfl
    ⟨2, "t2", .consumer, 0⟩ "t3" rfl

end SampleRuns

end Kurtar.SessionRevocation

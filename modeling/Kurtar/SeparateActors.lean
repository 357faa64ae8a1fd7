import Kurtar.GuardedRuns
import Kurtar.BrowserSessions

/-!
# Actors kept apart

A statement made for one actor writes rows of that actor only, whatever token
was presented, as long as nobody presents a token before it is stored: the
check before the claim looks at the row that the claim will write, and a
family belongs to one actor. Each browser has at most the cookies that its own
exchanges were answered with, each under its actor's name and path.
-/

namespace Kurtar.SeparateActors

open KeyedTable GuardedRuns IstanbulCalendar CookieJars BrowserSessions
open RefreshSessions hiding Initial

section Rows

variable {t t' t'' : RefreshTokens} {a b : PrincipalType} {stored : Option TokenHash}
  {tokenHash : TokenHash} {familyId : FamilyId}

/-- A row of this hash was stored for the actor. -/
def Minted (t : RefreshTokens) (tokenHash : TokenHash) (a : PrincipalType) : Prop :=
  ∃ r ∈ t.rows, r.tokenHash = tokenHash ∧ r.principalType = a

/-- The family has a row of the actor. -/
def FamilyOf (t : RefreshTokens) (familyId : FamilyId) (a : PrincipalType) : Prop :=
  ∃ r ∈ t.rows, r.familyId = familyId ∧ r.principalType = a

/-- If there is a row of this hash it is one of the actor. -/
def Bound (t : RefreshTokens) (tokenHash : TokenHash) (a : PrincipalType) : Prop :=
  ∀ r ∈ t.rows, r.tokenHash = tokenHash → r.principalType = a

/-- A family belongs to one actor. -/
def Families (t : RefreshTokens) : Prop :=
  ∀ r ∈ t.rows, ∀ q ∈ t.rows, r.familyId = q.familyId → r.principalType = q.principalType

theorem Minted.bound (h : Minted t tokenHash a) : Bound t tokenHash a := by
  obtain ⟨r, hr, hhash, htype⟩ := h
  intro q hq hsame
  rw [t.eq_of_key_eq hq hr (hsame.trans hhash.symm)]
  exact htype

theorem FamilyOf.bound (h : FamilyOf t familyId a) (hfamilies : Families t) :
    ∀ r ∈ t.rows, r.familyId = familyId → r.principalType = a := by
  obtain ⟨r, hr, hfamily, htype⟩ := h
  intro q hq hsame
  exact (hfamilies q hq r hr (hsame.trans hfamily.symm)).trans htype

/-- A row and what has become of it; a row of another actor is the same. -/
structure RowWithin (a : PrincipalType) (r r' : RefreshToken) : Prop where
  same_hash : r'.tokenHash = r.tokenHash
  same_family : r'.familyId = r.familyId
  same_type : r'.principalType = r.principalType
  other : r.principalType ≠ a → r' = r

/-- A row that came in, with the hash that was to be stored. -/
structure NewWithin (a : PrincipalType) (stored : Option TokenHash) (t : RefreshTokens)
    (r : RefreshToken) : Prop where
  type : r.principalType = a
  hash : stored = some r.tokenHash
  fresh : ∀ q ∈ t.rows, q.tokenHash ≠ r.tokenHash
  family : ∀ q ∈ t.rows, q.familyId = r.familyId → q.principalType = a

/-- The rows change for one actor only. -/
structure Within (a : PrincipalType) (stored : Option TokenHash) (t t' : RefreshTokens) :
    Prop where
  forth : ∀ r ∈ t.rows, ∃ r' ∈ t'.rows, RowWithin a r r'
  back : ∀ r' ∈ t'.rows, (∃ r ∈ t.rows, RowWithin a r r') ∨ NewWithin a stored t r'

theorem RowWithin.refl (r : RefreshToken) : RowWithin a r r := ⟨rfl, rfl, rfl, fun _ => rfl⟩

theorem RowWithin.trans {r r' r'' : RefreshToken} (h : RowWithin a r r')
    (h' : RowWithin a r' r'') : RowWithin a r r'' where
  same_hash := h'.same_hash.trans h.same_hash
  same_family := h'.same_family.trans h.same_family
  same_type := h'.same_type.trans h.same_type
  other := fun hne => (h'.other (h.same_type ▸ hne)).trans (h.other hne)

theorem Within.refl (t : RefreshTokens) : Within a stored t t :=
  ⟨fun r hr => ⟨r, hr, .refl r⟩, fun r hr => Or.inl ⟨r, hr, .refl r⟩⟩

/-- An update of rows of the actor that keeps what a row is known by. -/
theorem within_updateMany {p : RefreshToken → Prop} [DecidablePred p]
    {f : RefreshToken → RefreshToken} (hf : ∀ r, (f r).tokenHash = r.tokenHash)
    (hfamily : ∀ r, (f r).familyId = r.familyId)
    (htype : ∀ r, (f r).principalType = r.principalType)
    (hp : ∀ r ∈ t.rows, p r → r.principalType = a) :
    Within a none t (t.updateMany p f hf) := by
  have hrow : ∀ r ∈ t.rows, RowWithin a r (if p r then f r else r) := by
    intro r hr
    split_ifs with h
    · exact ⟨hf r, hfamily r, htype r, fun hne => absurd (hp r hr h) hne⟩
    · exact .refl r
  constructor
  · exact fun r hr => ⟨_, List.mem_map.mpr ⟨r, hr, rfl⟩, hrow r hr⟩
  · intro r' hr'
    obtain ⟨r, hr, rfl⟩ := List.mem_map.mp hr'
    exact Or.inl ⟨r, hr, hrow r hr⟩

theorem within_commitClaim {now : Instant} (h : Bound t tokenHash a) :
    Within a none t (commitClaim t tokenHash now) :=
  within_updateMany (f := fun r => r.rotated now) (fun _ => rfl) (fun _ => rfl) (fun _ => rfl) h

theorem within_commitRevocation {rows : List TokenHash} {now : Instant}
    (h : ∀ x ∈ rows, Bound t x a) : Within a none t (commitRevocation t rows now) :=
  within_updateMany (f := fun r => r.revoked now) (fun _ => rfl) (fun _ => rfl) (fun _ => rfl)
    fun r hr hmem => h r.tokenHash hmem r hr rfl

/-- What is said of a hash stays true in later rows. -/
theorem Minted.later (h : Minted t tokenHash a) (hlater : Within b stored t t') :
    Minted t' tokenHash a := by
  obtain ⟨r, hr, hhash, htype⟩ := h
  obtain ⟨r', hr', hrow⟩ := hlater.forth r hr
  exact ⟨r', hr', hrow.same_hash.trans hhash, hrow.same_type.trans htype⟩

theorem FamilyOf.later (h : FamilyOf t familyId a) (hlater : Within b stored t t') :
    FamilyOf t' familyId a := by
  obtain ⟨r, hr, hfamily, htype⟩ := h
  obtain ⟨r', hr', hrow⟩ := hlater.forth r hr
  exact ⟨r', hr', hrow.same_family.trans hfamily, hrow.same_type.trans htype⟩

theorem Bound.later (h : Bound t tokenHash a) (hlater : Within b stored t t')
    (hstored : stored ≠ some tokenHash) : Bound t' tokenHash a := by
  intro r' hr' hhash
  rcases hlater.back r' hr' with ⟨r, hr, hrow⟩ | hnew
  · rw [hrow.same_type]
    exact h r hr (hrow.same_hash.symm.trans hhash)
  · rw [← hhash] at hstored
    exact absurd hnew.hash hstored

theorem Within.trans (h : Within a none t t') (h' : Within a stored t' t'') :
    Within a stored t t'' := by
  constructor
  · intro r hr
    obtain ⟨r', hr', hrow⟩ := h.forth r hr
    obtain ⟨r'', hr'', hrow'⟩ := h'.forth r' hr'
    exact ⟨r'', hr'', hrow.trans hrow'⟩
  · intro r'' hr''
    rcases h'.back r'' hr'' with ⟨r', hr', hrow'⟩ | hnew
    · rcases h.back r' hr' with ⟨r, hr, hrow⟩ | hfalse
      · exact Or.inl ⟨r, hr, hrow.trans hrow'⟩
      · cases hfalse.hash
    · refine Or.inr ⟨hnew.type, hnew.hash, ?_, ?_⟩
      · intro q hq
        obtain ⟨q', hq', hrow⟩ := h.forth q hq
        rw [← hrow.same_hash]
        exact hnew.fresh q' hq'
      · intro q hq hfamily
        obtain ⟨q', hq', hrow⟩ := h.forth q hq
        rw [← hrow.same_type]
        exact hnew.family q' hq' (hrow.same_family.trans hfamily)

/-- An insert in a family that is the actor's or nobody's. -/
theorem within_create {row : RefreshToken} (h : create t row = some t')
    (htype : row.principalType = a)
    (hfamily : ∀ q ∈ t.rows, q.familyId = row.familyId → q.principalType = a) :
    Within a (some row.tokenHash) t t' := by
  unfold create at h
  split_ifs at h with htaken
  cases h
  have hfresh : ∀ q ∈ t.rows, q.tokenHash ≠ row.tokenHash :=
    fun q hq heq => htaken ⟨q, hq, heq⟩
  constructor
  · exact fun r hr => ⟨r, Table.mem_insertNew.mpr (Or.inl hr), .refl r⟩
  · intro r hr
    rcases Table.mem_insertNew.mp hr with hr | ⟨rfl, _⟩
    · exact Or.inl ⟨r, hr, .refl r⟩
    · exact Or.inr ⟨htype, rfl, hfresh, hfamily⟩

theorem mem_of_create {row : RefreshToken} (h : create t row = some t') : row ∈ t'.rows := by
  unfold create at h
  split_ifs at h with htaken
  cases h
  exact Table.mem_insertNew.mpr (Or.inr ⟨rfl, fun q hq heq => htaken ⟨q, hq, heq⟩⟩)

/-- What comes into the rows of an actor leaves every family with one actor. -/
theorem Within.families (h : Within a stored t t') (hfamilies : Families t) : Families t' := by
  have hnew : ∀ r ∈ t'.rows, NewWithin a stored t r → ∀ q ∈ t'.rows, r.familyId = q.familyId →
      q.principalType = a := by
    intro r _ hr q hq hsame
    rcases h.back q hq with ⟨q', hq', hrow⟩ | hnew
    · rw [hrow.same_type]
      exact hr.family q' hq' (hrow.same_family.symm.trans hsame.symm)
    · exact hnew.type
  intro r hr q hq hsame
  rcases h.back r hr with ⟨r', hr', hrow⟩ | hfresh
  · rcases h.back q hq with ⟨q', hq', hrow'⟩ | hfresh
    · rw [hrow.same_type, hrow'.same_type]
      refine hfamilies r' hr' q' hq' ?_
      rw [← hrow.same_family, hsame, hrow'.same_family]
    · exact (hnew q hq hfresh r hr hsame.symm).trans hfresh.type.symm
  · exact hfresh.type.trans (hnew r hr hfresh q hq hsame).symm

/-- Rows of other actors are the same before and after. -/
theorem Within.mem_iff (h : Within a stored t t') {r : RefreshToken}
    (hother : r.principalType ≠ a) : r ∈ t'.rows ↔ r ∈ t.rows := by
  constructor
  · intro hr
    rcases h.back r hr with ⟨q, hq, hrow⟩ | hnew
    · rw [hrow.other (hrow.same_type ▸ hother)]
      exact hq
    · exact absurd hnew.type hother
  · intro hr
    obtain ⟨r', hr', hrow⟩ := h.forth r hr
    rw [hrow.other hother] at hr'
    exact hr'

end Rows

section Statements

variable {cfg : TokenConfig} {s s' : SessionShared} {others rest : List SessionTask}
  {input : SessionInput} {task : SessionTask} {t t' : RefreshTokens} {a b : PrincipalType}
  {token : Option String} {rawRefreshToken : String} {stored : Option TokenHash}

/-- The statement is one of a handler of the actor's routes that was sent this token. -/
def Fits (cfg : TokenConfig) (t : RefreshTokens) (a : PrincipalType) (token : Option String)
    (rawRefreshToken : String) : SessionTask → Prop
  | .issue row => row.principalType = a ∧ row.tokenHash = cfg.hashToken rawRefreshToken
  | .bound call => call.expectedActor = a ∧ call.tokenHash ∈ token.map cfg.hashToken
  | .claim call | .handleClaimFailure call =>
    call.tokenHash ∈ token.map cfg.hashToken ∧ Bound t call.tokenHash a
  | .resolvePrincipal call stored | .create call stored =>
    stored.principalType = a ∧ Minted t call.tokenHash a ∧ FamilyOf t stored.familyId a
  | .findForLogout _ expectedActor => expectedActor = a
  | .revoke r => FamilyOf t r.familyId a ∧ ∀ x ∈ r.cause.claimed, Minted t x a
  | .revoking r _ locked => FamilyOf t r.familyId a ∧ ∀ x ∈ r.cause.claimed ++ locked, Minted t x a

/-- Other statements leave a handler what it knows, when they store no token it was sent. -/
theorem Fits.later (h : Fits cfg t a token rawRefreshToken task) (hlater : Within b stored t t')
    (hstored : ∀ x ∈ token.map cfg.hashToken, stored ≠ some x) :
    Fits cfg t' a token rawRefreshToken task := by
  cases task with
  | issue row => exact h
  | bound call => exact h
  | claim call => exact ⟨h.1, h.2.later hlater (hstored _ h.1)⟩
  | handleClaimFailure call => exact ⟨h.1, h.2.later hlater (hstored _ h.1)⟩
  | resolvePrincipal call row => exact ⟨h.1, h.2.1.later hlater, h.2.2.later hlater⟩
  | create call row => exact ⟨h.1, h.2.1.later hlater, h.2.2.later hlater⟩
  | findForLogout tokenHash expectedActor => exact h
  | revoke r => exact ⟨h.1.later hlater, fun x hx => (h.2 x hx).later hlater⟩
  | revoking r found locked => exact ⟨h.1.later hlater, fun x hx => (h.2 x hx).later hlater⟩

/-- The tokens of a result are the actor's, and the refresh token was never stored before. -/
structure Issues (cfg : TokenConfig) (t t' : RefreshTokens) (a : PrincipalType)
    (result : IssuedTokens) : Prop where
  signed : result.accessToken.actor = a
  minted : Minted t' (cfg.hashToken result.refreshToken) a
  fresh : ∀ r ∈ t.rows, r.tokenHash ≠ cfg.hashToken result.refreshToken

/-- What a statement does for its actor and what it leaves of its call. -/
structure Advances (cfg : TokenConfig) (t t' : RefreshTokens) (a : PrincipalType)
    (token : Option String) (rawRefreshToken : String) (input : SessionInput)
    (task : SessionTask) (rest : List SessionTask) : Prop where
  within : Within a (storedHash cfg input task) t t'
  left : rest = [] ∨ ∃ next, rest = [next] ∧ Fits cfg t' a token rawRefreshToken next
  issued : rest = [] → ∀ result, callOutcome cfg rawRefreshToken input task = .issued result →
    Issues cfg t t' a result

/-- The call goes on and has written nothing. -/
theorem Advances.goes {next : SessionTask} (h : Fits cfg t a token rawRefreshToken next) :
    Advances cfg t t a token rawRefreshToken input task [next] where
  within := .refl t
  left := Or.inr ⟨next, rfl, h⟩
  issued := fun hrest => by cases hrest

/-- The call ends without a token. -/
theorem Advances.ends
    (h : ∀ result, callOutcome cfg rawRefreshToken input task ≠ .issued result)
    (hlater : Within a (storedHash cfg input task) t t') :
    Advances cfg t t' a token rawRefreshToken input task [] where
  within := hlater
  left := Or.inl rfl
  issued := fun _ result hresult => absurd hresult (h result)

/-- Only the statements that store a token end a call with one. -/
theorem outcome_ne_issued (hissue : ∀ row, task ≠ .issue row)
    (hcreate : ∀ call row, task ≠ .create call row) (result : IssuedTokens) :
    callOutcome cfg rawRefreshToken input task ≠ .issued result := by
  intro hresult
  unfold callOutcome at hresult
  by_cases hfails : input.fails = true
  · rw [if_pos hfails] at hresult
    cases hresult
  · rw [if_neg hfails] at hresult
    cases task with
    | issue row => exact hissue row rfl
    | create call row => exact hcreate call row rfl
    | revoking r found locked =>
      obtain ⟨cause, familyId, now⟩ := r
      cases cause <;> cases hresult
    | _ => cases hresult

theorem bound_of_find? {tokenHash : TokenHash} {r : RefreshToken} (h : t.find? tokenHash = some r)
    (htype : r.principalType = a) : Bound t tokenHash a := by
  obtain ⟨hr, hhash⟩ := Table.find?_eq_some.mp h
  exact Minted.bound ⟨r, hr, hhash, htype⟩

theorem bound_of_none {tokenHash : TokenHash} (h : t.find? tokenHash = none) :
    Bound t tokenHash a :=
  fun r hr hhash => absurd hhash (Table.find?_eq_none.mp h r hr)

theorem advances_issue {row : RefreshToken}
    (hfits : Fits cfg s.tokens a token rawRefreshToken (.issue row)) (hfails : input.fails = false)
    (h : nextStatement cfg s others input (.issue row) = some (s', rest)) :
    Advances cfg s.tokens s'.tokens a token rawRefreshToken input (.issue row) rest := by
  simp only [nextStatement] at h
  split_ifs at h with htaken
  obtain ⟨tokens, hcreate, heq⟩ := Option.map_eq_some_iff.mp h
  cases heq
  refine ⟨within_create hcreate hfits.1 fun q hq hfamily => absurd ⟨q, hq, hfamily⟩ htaken,
    Or.inl rfl, ?_⟩
  intro _ result hresult
  simp only [callOutcome, hfails, Bool.false_eq_true, if_false, Outcome.issued.injEq] at hresult
  cases hresult
  refine ⟨hfits.1, ⟨row, mem_of_create hcreate, hfits.2, hfits.1⟩, fun q hq hhash => ?_⟩
  unfold create at hcreate
  split_ifs at hcreate with htaken'
  exact htaken' ⟨q, hq, hhash.trans hfits.2.symm⟩

theorem advances_create {call : RefreshCall} {row : RefreshToken}
    (hfits : Fits cfg s.tokens a token rawRefreshToken (.create call row))
    (hfamilies : Families s.tokens) (hfails : input.fails = false)
    (h : nextStatement cfg s others input (.create call row) = some (s', rest)) :
    Advances cfg s.tokens s'.tokens a token rawRefreshToken input (.create call row) rest := by
  obtain ⟨tokens, hcreate, heq⟩ := Option.map_eq_some_iff.mp h
  cases heq
  obtain ⟨htype, hminted, hfamily⟩ := hfits
  have hclaim : Within a none s.tokens (commitClaim s.tokens call.tokenHash call.now) :=
    within_commitClaim hminted.bound
  have hinsert := within_create hcreate htype
    ((hfamily.later hclaim).bound (hclaim.families hfamilies))
  refine ⟨hclaim.trans hinsert, Or.inl rfl, ?_⟩
  intro _ result hresult
  simp only [callOutcome, hfails, Bool.false_eq_true, if_false, Outcome.issued.injEq] at hresult
  cases hresult
  refine ⟨htype, ⟨_, mem_of_create hcreate, rfl, htype⟩, fun q hq hhash => ?_⟩
  obtain ⟨q', hq', hrow⟩ := hclaim.forth q hq
  unfold create at hcreate
  split_ifs at hcreate with htaken
  exact htaken ⟨q', hq', hrow.same_hash.trans hhash⟩

/-- The rows that a revocation writes are the actor's. -/
theorem within_finishRevocation {r : Revocation} {locked : List TokenHash}
    (h : ∀ x ∈ r.cause.claimed ++ locked, Minted s.tokens x a) :
    Within a none s.tokens (finishRevocation s r locked).tokens := by
  have hlocked : ∀ x ∈ locked, Minted s.tokens x a :=
    fun x hx => h x (List.mem_append_right _ hx)
  have hplain : Within a none s.tokens (commitRevocation s.tokens locked r.now) :=
    within_commitRevocation fun x hx => (hlocked x hx).bound
  obtain ⟨cause, familyId, now⟩ := r
  cases cause with
  | logout => exact hplain
  | reuse call => exact hplain
  | inactive call =>
    have hminted : Minted s.tokens call.tokenHash a := h _ List.mem_cons_self
    have hclaim : Within a none s.tokens (commitClaim s.tokens call.tokenHash call.now) :=
      within_commitClaim hminted.bound
    exact hclaim.trans (within_commitRevocation fun x hx => ((hlocked x hx).later hclaim).bound)

theorem advances_revoking {r : Revocation} {found locked : List TokenHash}
    (hfits : Fits cfg s.tokens a token rawRefreshToken (.revoking r found locked))
    (hfamilies : Families s.tokens)
    (h : nextStatement cfg s others input (.revoking r found locked) = some (s', rest)) :
    Advances cfg s.tokens s'.tokens a token rawRefreshToken input (.revoking r found locked)
      rest := by
  cases found with
  | nil =>
    cases h
    exact .ends (outcome_ne_issued (fun _ => nofun) fun _ _ => nofun)
      (within_finishRevocation hfits.2)
  | cons row found =>
    obtain ⟨left, hreach, heq⟩ := Option.map_eq_some_iff.mp h
    cases heq
    unfold reachRow at hreach
    split_ifs at hreach with hwait
    split at hreach
    · cases hreach
      exact .goes hfits
    · rename_i stored hfind
      split_ifs at hreach with hunrevoked
      · cases hreach
        obtain ⟨hr, hhash⟩ := Table.find?_eq_some.mp hfind
        have htype : stored.principalType = a := hfits.1.bound hfamilies stored hr hunrevoked.1
        refine .goes ⟨hfits.1, fun x hx => ?_⟩
        rcases List.mem_append.mp hx with hx | hx
        · exact hfits.2 x (List.mem_append_left _ hx)
        · rcases List.mem_cons.mp hx with rfl | hx
          · exact ⟨stored, hr, hhash, htype⟩
          · exact hfits.2 x (List.mem_append_right _ hx)
      · cases hreach
        exact .goes hfits

/-- Every statement of a call goes on with its actor's rows only. -/
theorem advances_statement (hfits : Fits cfg s.tokens a token rawRefreshToken task)
    (hfamilies : Families s.tokens) (hfails : input.fails = false)
    (h : nextStatement cfg s others input task = some (s', rest)) :
    Advances cfg s.tokens s'.tokens a token rawRefreshToken input task rest := by
  cases task with
  | issue row => exact advances_issue hfits hfails h
  | bound call =>
    simp only [nextStatement] at h
    split at h
    · rename_i hnone
      cases h
      exact .goes ⟨hfits.2, bound_of_none hnone⟩
    · rename_i r hfind
      split_ifs at h with htype
      · cases h
        exact .goes ⟨hfits.2, bound_of_find? hfind (htype.trans hfits.1)⟩
      · cases h
        exact .ends (outcome_ne_issued (fun _ => nofun) fun _ _ => nofun) (.refl _)
  | claim call =>
    simp only [nextStatement, claimToken] at h
    split at h
    · cases h
      exact .goes hfits
    · rename_i r hfind
      obtain ⟨hr, hhash⟩ := Table.find?_eq_some.mp hfind
      have htype := hfits.2 r hr hhash
      split_ifs at h with hclaimable hlocked
      · cases h
        exact .goes ⟨htype, ⟨r, hr, hhash, htype⟩, ⟨r, hr, rfl, htype⟩⟩
      · cases h
        exact .goes hfits
  | resolvePrincipal call row =>
    simp only [nextStatement] at h
    split_ifs at h
    · cases h
      exact .goes hfits
    · cases h
      refine .goes ⟨hfits.2.2, fun x hx => ?_⟩
      rw [List.mem_singleton.mp hx]
      exact hfits.2.1
  | create call row => exact advances_create hfits hfamilies hfails h
  | handleClaimFailure call =>
    simp only [nextStatement] at h
    split at h
    · cases h
      exact .ends (outcome_ne_issued (fun _ => nofun) fun _ _ => nofun) (.refl _)
    · rename_i r hfind
      obtain ⟨hr, hhash⟩ := Table.find?_eq_some.mp hfind
      split_ifs at h with hexpired
      · cases h
        exact .ends (outcome_ne_issued (fun _ => nofun) fun _ _ => nofun) (.refl _)
      · cases h
        refine .goes ⟨⟨r, hr, rfl, hfits.2 r hr hhash⟩, fun x hx => ?_⟩
        cases hx
  | findForLogout tokenHash expectedActor =>
    simp only [nextStatement] at h
    split at h
    · cases h
      exact .ends (outcome_ne_issued (fun _ => nofun) fun _ _ => nofun) (.refl _)
    · rename_i r hfind
      split_ifs at h with htype
      · cases h
        refine .goes ⟨⟨r, (Table.find?_eq_some.mp hfind).1, rfl, htype.trans hfits⟩,
          fun x hx => ?_⟩
        cases hx
      · cases h
        exact .ends (outcome_ne_issued (fun _ => nofun) fun _ _ => nofun) (.refl _)
  | revoke r =>
    cases h
    refine .goes ⟨hfits.1, fun x hx => hfits.2 x ?_⟩
    rw [List.append_nil] at hx
    exact hx
  | revoking r found locked => exact advances_revoking hfits hfamilies h

/-- A statement that fails changes nothing and ends its call. -/
theorem advances_of_resume (hfits : Fits cfg s.tokens a token rawRefreshToken task)
    (hfamilies : Families s.tokens)
    (h : resumeCall cfg s others input task = some (s', rest)) :
    Advances cfg s.tokens s'.tokens a token rawRefreshToken input task rest := by
  unfold resumeCall at h
  split_ifs at h with hfails
  · cases h
    refine .ends (fun result hresult => ?_) (.refl _)
    unfold callOutcome at hresult
    rw [if_pos hfails] at hresult
    cases hresult
  · exact advances_statement hfits hfamilies (Bool.eq_false_iff.mpr hfails) h

end Statements

section Steps

variable {β : Type} {cfg : TokenConfig} {w w' : World β}

/-- A handler that calls the token service starts with one statement that fits. -/
theorem started_of_handle {e : Exchange β} {request : RequestId} {arrival : Arrival}
    {event : SessionEvent} {s s' : SessionShared} {started : List SessionTask}
    (hhandle : handle e request arrival = .call event)
    (hstart : startCall cfg s event = some (s', started)) :
    s' = s ∧ ∃ task, started = [task] ∧
      Fits cfg s.tokens e.actor e.token arrival.rawRefreshToken task := by
  have hlogin : ∀ actor, e.actor = actor → login arrival actor = .call event → s' = s ∧
      ∃ task, started = [task] ∧
        Fits cfg s.tokens e.actor e.token arrival.rawRefreshToken task := by
    intro actor hactor hcall
    unfold login at hcall
    split_ifs at hcall
    cases hcall
    cases hstart
    exact ⟨rfl, _, rfl, hactor.symm, rfl⟩
  unfold handle at hhandle
  cases hroute : e.request.route with
  | refresh actor =>
    simp only [hroute] at hhandle
    split_ifs at hhandle
    unfold rotate at hhandle
    cases htoken : e.token with
    | none =>
      rw [htoken] at hhandle
      cases hhandle
    | some token =>
      rw [htoken] at hhandle
      cases hhandle
      cases hstart
      refine ⟨rfl, _, rfl, ?_, rfl⟩
      simp only [Exchange.actor, hroute, Route.actor]
  | logout actor =>
    simp only [hroute] at hhandle
    split_ifs at hhandle
    unfold revoke at hhandle
    cases htoken : e.token with
    | none =>
      rw [htoken] at hhandle
      cases hhandle
    | some token =>
      rw [htoken] at hhandle
      cases hhandle
      cases hstart
      refine ⟨rfl, _, rfl, ?_⟩
      simp only [Fits, Exchange.actor, hroute, Route.actor]
  | verifyOtp =>
    simp only [hroute] at hhandle
    exact hlogin _ (by rw [Exchange.actor, hroute]) hhandle
  | merchantLogin =>
    simp only [hroute] at hhandle
    exact hlogin _ (by rw [Exchange.actor, hroute]) hhandle
  | adminLogin =>
    simp only [hroute] at hhandle
    exact hlogin _ (by rw [Exchange.actor, hroute]) hhandle
  | signup =>
    simp only [hroute] at hhandle
    exact hlogin _ (by rw [Exchange.actor, hroute]) hhandle

/-- A handler that does not call the token service hands out no token. -/
theorem answer_ne_issued {e : Exchange β} {request : RequestId} {arrival : Arrival}
    {outcome : Outcome} (h : handle e request arrival = .answer outcome) (result : IssuedTokens) :
    outcome ≠ .issued result := by
  have hlogin : ∀ actor, login arrival actor ≠ .answer (.issued result) := by
    intro actor hanswer
    unfold login at hanswer
    split_ifs at hanswer
    cases hanswer
  have hrotate : ∀ actor, rotate e request actor ≠ .answer (.issued result) := by
    intro actor hanswer
    unfold rotate at hanswer
    cases htoken : e.token <;> rw [htoken] at hanswer <;> cases hanswer
  have hrevoke : ∀ actor, revoke e actor ≠ .answer (.issued result) := by
    intro actor hanswer
    unfold revoke at hanswer
    cases htoken : e.token <;> rw [htoken] at hanswer <;> cases hanswer
  rintro rfl
  unfold handle at h
  cases hroute : e.request.route with
  | refresh actor =>
    simp only [hroute] at h
    split_ifs at h
    · exact hrotate actor h
    · cases h
  | logout actor =>
    simp only [hroute] at h
    split_ifs at h
    · exact hrevoke actor h
    · cases h
  | _ =>
    simp only [hroute] at h
    exact hlogin _ h

variable [DecidableEq β]

/-- The ways a world goes on. -/
inductive Stepped (cfg : TokenConfig) (w : World β) : Action β → World β → Prop where
  | tick {clock : Instant} (hclock : w.shared.clock ≤ clock) :
      Stepped cfg w (.tick clock) { w with shared := { w.shared with clock } }
  | send (request : Request β) (cookies : List Cookie)
      (hcookies : ∀ c ∈ cookies,
        c ∈ (w.jars request.browser).rows ∧ c.path <+: request.route.path) :
      Stepped cfg w (.send request)
        { w with exchanges := w.exchanges ++ [⟨request, cookies, .sent⟩] }
  | answered {exchange : ℕ} {e : Exchange β} {arrival : Arrival} {outcome : Outcome}
      (hget : w.exchanges[exchange]? = some e) (hstage : e.stage = .sent)
      (houtcome : ∀ result, outcome ≠ .issued result) :
      Stepped cfg w (.arrive exchange arrival) (w.setStage exchange e (.answered outcome))
  | started {exchange : ℕ} {e : Exchange β} {arrival : Arrival} {task : SessionTask}
      {event : SessionEvent} (hget : w.exchanges[exchange]? = some e) (hstage : e.stage = .sent)
      (hstart : startCall cfg w.shared event = some (w.shared, [task]))
      (hfits : Fits cfg w.tokens e.actor e.token arrival.rawRefreshToken task) :
      Stepped cfg w (.arrive exchange arrival)
        { w.setStage exchange e (.running arrival.rawRefreshToken) with
          tasks := (exchange, task) :: w.tasks }
  | moved {index : ℕ} {input : SessionInput} {exchange : ℕ} {e : Exchange β} {task : SessionTask}
      {rawRefreshToken : String} {shared : SessionShared} {rest : List SessionTask}
      (htask : w.tasks[index]? = some (exchange, task))
      (hget : w.exchanges[exchange]? = some e) (hstage : e.stage = .running rawRefreshToken)
      (hresume : resumeCall cfg w.shared ((w.tasks.eraseIdx index).map Prod.snd) input task =
        some (shared, rest)) :
      Stepped cfg w (.statement index input)
        { w.resumed exchange e (callOutcome cfg rawRefreshToken input task) rest with
          shared
          tasks := rest.map (Prod.mk exchange) ++ w.tasks.eraseIdx index }
  | delivered {exchange : ℕ} {e : Exchange β} {outcome : Outcome}
      (hget : w.exchanges[exchange]? = some e) (hstage : e.stage = .answered outcome) :
      Stepped cfg w (.deliver exchange) (deliver w exchange e outcome)
  | evicted (browser : β) (identity : String × Path) :
      Stepped cfg w (.evict browser identity)
        { w with jars := Function.update w.jars browser (remove (w.jars browser) identity) }

theorem stepped_of_step {a : Action β} (h : step cfg w a = some w') : Stepped cfg w a w' := by
  cases a with
  | tick clock =>
    simp only [step] at h
    split_ifs at h with hclock
    cases h
    exact .tick hclock
  | send request =>
    cases h
    refine .send request _ fun c hc => ?_
    split_ifs at hc
    · exact mem_attached.mp hc
    · cases hc
  | arrive exchange arrival =>
    simp only [step] at h
    cases hget : w.exchanges[exchange]? with
    | none => simp [hget] at h
    | some e =>
      simp only [hget] at h
      split_ifs at h with hstage
      unfold arrive at h
      cases hhandle : handle e exchange arrival with
      | answer outcome =>
        rw [hhandle] at h
        cases h
        exact .answered hget hstage (answer_ne_issued hhandle)
      | call event =>
        rw [hhandle] at h
        obtain ⟨⟨shared, started⟩, hstart, heq⟩ := Option.map_eq_some_iff.mp h
        cases heq
        obtain ⟨rfl, task, rfl, hfits⟩ := started_of_handle hhandle hstart
        exact .started hget hstage hstart hfits
  | statement index input =>
    simp only [step] at h
    cases htask : w.tasks[index]? with
    | none => simp [htask] at h
    | some x =>
      obtain ⟨exchange, task⟩ := x
      simp only [htask] at h
      cases hget : w.exchanges[exchange]? with
      | none => simp [hget] at h
      | some e =>
        simp only [hget] at h
        cases hstage : e.stage with
        | running rawRefreshToken =>
          simp only [hstage] at h
          obtain ⟨⟨shared, rest⟩, hresume, heq⟩ := Option.map_eq_some_iff.mp h
          cases heq
          exact .moved htask hget hstage hresume
        | _ => simp [hstage] at h
  | deliver exchange =>
    simp only [step] at h
    cases hget : w.exchanges[exchange]? with
    | none => simp [hget] at h
    | some e =>
      simp only [hget] at h
      cases hstage : e.stage with
      | answered outcome =>
        simp only [hstage] at h
        cases h
        exact .delivered hget hstage
      | _ => simp [hstage] at h
  | evict browser identity =>
    cases h
    exact .evicted browser identity

end Steps

section Invariant

variable {β : Type} {cfg : TokenConfig} {w w' : World β} {exchanges : List (Exchange β)}
  {exchange : ℕ} {e : Exchange β} {stage : Stage} {browser : β} {c : Cookie}

/-- The cookie that carries the token of a result. -/
def sessionCookie (actor : PrincipalType) (result : IssuedTokens) : Cookie :=
  ⟨refreshCookieName actor, refreshCookiePath actor, result.refreshToken,
    result.refreshTokenExpiresAt, true⟩

/-- The browser was answered with the cookie, or has it from former days. -/
def OwnCookie (exchanges : List (Exchange β)) (browser : β) (c : Cookie) : Prop :=
  c.name = legacyRefreshCookie ∨ ∃ e ∈ exchanges, e.request.browser = browser ∧
    ∃ result, e.outcome = some (.issued result) ∧ c = sessionCookie e.actor result

/-- The exchange has ended with these tokens. -/
def IssuedAt (exchanges : List (Exchange β)) (exchange : ℕ) (e : Exchange β)
    (result : IssuedTokens) : Prop :=
  exchanges[exchange]? = some e ∧ e.outcome = some (.issued result)

/-- What holds at every moment. -/
structure Sound (cfg : TokenConfig) (w : World β) : Prop where
  families : Families w.tokens
  owners : (w.tasks.map Prod.fst).Nodup
  running : ∀ x ∈ w.tasks, ∃ e rawRefreshToken, w.exchanges[x.1]? = some e ∧
    e.stage = .running rawRefreshToken ∧ Fits cfg w.tokens e.actor e.token rawRefreshToken x.2
  issued : ∀ i e result, IssuedAt w.exchanges i e result →
    result.accessToken.actor = e.actor ∧ Minted w.tokens (cfg.hashToken result.refreshToken) e.actor
  apart : ∀ i j e e' result result', IssuedAt w.exchanges i e result →
    IssuedAt w.exchanges j e' result' →
      cfg.hashToken result.refreshToken = cfg.hashToken result'.refreshToken → i = j
  sent : ∀ e ∈ w.exchanges, ∀ c ∈ e.cookies,
    OwnCookie w.exchanges e.request.browser c ∧ c.path <+: e.request.route.path
  jars : ∀ browser, ∀ c ∈ (w.jars browser).rows, OwnCookie w.exchanges browser c

/-- An exchange that goes on keeps its outcome, so its cookie stays its browser's. -/
theorem OwnCookie.set (h : OwnCookie exchanges browser c) (hget : exchanges[exchange]? = some e)
    (hkeeps : ∀ o, e.outcome = some o → Exchange.outcome { e with stage } = some o) :
    OwnCookie (exchanges.set exchange { e with stage }) browser c := by
  rcases h with hlegacy | ⟨d, hd, hbrowser, result, houtcome, hc⟩
  · exact Or.inl hlegacy
  obtain ⟨i, hi⟩ := List.mem_iff_getElem?.mp hd
  by_cases hsame : exchange = i
  · rw [hsame] at hget
    cases hget.symm.trans hi
    have hlt : exchange < exchanges.length := hsame ▸ (List.getElem?_eq_some_iff.mp hi).1
    exact Or.inr ⟨_, List.mem_iff_getElem?.mpr ⟨exchange, List.getElem?_set_self hlt⟩, hbrowser,
      result, hkeeps _ houtcome, hc⟩
  · exact Or.inr ⟨d, List.mem_iff_getElem?.mpr ⟨i, (List.getElem?_set_ne hsame).trans hi⟩,
      hbrowser, result, houtcome, hc⟩

theorem OwnCookie.append (h : OwnCookie exchanges browser c) (more : List (Exchange β)) :
    OwnCookie (exchanges ++ more) browser c := by
  rcases h with hlegacy | ⟨d, hd, hrest⟩
  · exact Or.inl hlegacy
  · exact Or.inr ⟨d, List.mem_append_left more hd, hrest⟩

/-- What an exchange that goes on may end with. -/
structure MayEnd (cfg : TokenConfig) (w : World β) (e : Exchange β) (stage : Stage) : Prop where
  keeps : ∀ o, e.outcome = some o → Exchange.outcome { e with stage } = some o
  ends : ∀ result, Exchange.outcome { e with stage } = some (.issued result) →
    e.outcome = some (.issued result) ∨
      (result.accessToken.actor = e.actor ∧
        Minted w.tokens (cfg.hashToken result.refreshToken) e.actor) ∧
        ∀ j d result', IssuedAt w.exchanges j d result' →
          cfg.hashToken result'.refreshToken ≠ cfg.hashToken result.refreshToken

theorem Sound.setStage (h : Sound cfg w) (hget : w.exchanges[exchange]? = some e)
    (hidle : ∀ x ∈ w.tasks, x.1 ≠ exchange) (hstage : MayEnd cfg w e stage) :
    Sound cfg (w.setStage exchange e stage) := by
  have hset : ∀ i d, (w.setStage exchange e stage).exchanges[i]? = some d →
      (exchange = i ∧ d = { e with stage }) ∨ (exchange ≠ i ∧ w.exchanges[i]? = some d) := by
    intro i d hd
    by_cases hi : exchange = i
    · rw [← hi] at hd
      have hlt : exchange < w.exchanges.length := (List.getElem?_eq_some_iff.mp hget).1
      exact Or.inl ⟨hi, Option.some.inj (hd.symm.trans (List.getElem?_set_self hlt))⟩
    · exact Or.inr ⟨hi, (List.getElem?_set_ne hi).symm.trans hd⟩
  constructor
  case families => exact h.families
  case owners => exact h.owners
  case running =>
    intro x hx
    obtain ⟨d, rawRefreshToken, hd, hrest⟩ := h.running x hx
    exact ⟨d, rawRefreshToken, (List.getElem?_set_ne (hidle x hx).symm).trans hd, hrest⟩
  case issued =>
    rintro i d result ⟨hd, houtcome⟩
    rcases hset i d hd with ⟨rfl, rfl⟩ | ⟨_, hd⟩
    · rcases hstage.ends result houtcome with hbefore | ⟨hnew, _⟩
      · exact h.issued _ e result ⟨hget, hbefore⟩
      · exact hnew
    · exact h.issued i d result ⟨hd, houtcome⟩
  case apart =>
    rintro i j d d' result result' ⟨hd, houtcome⟩ ⟨hd', houtcome'⟩ hhash
    rcases hset i d hd with ⟨rfl, rfl⟩ | ⟨_, hd⟩
    · rcases hset j d' hd' with ⟨rfl, rfl⟩ | ⟨_, hd'⟩
      · rfl
      · rcases hstage.ends result houtcome with hbefore | ⟨_, hfresh⟩
        · exact h.apart _ j e d' result result' ⟨hget, hbefore⟩ ⟨hd', houtcome'⟩ hhash
        · exact absurd hhash.symm (hfresh j d' result' ⟨hd', houtcome'⟩)
    · rcases hset j d' hd' with ⟨rfl, rfl⟩ | ⟨_, hd'⟩
      · rcases hstage.ends result' houtcome' with hbefore | ⟨_, hfresh⟩
        · exact h.apart i _ d e result result' ⟨hd, houtcome⟩ ⟨hget, hbefore⟩ hhash
        · exact absurd hhash (hfresh i d result ⟨hd, houtcome⟩)
      · exact h.apart i j d d' result result' ⟨hd, houtcome⟩ ⟨hd', houtcome'⟩ hhash
  case sent =>
    intro d hd c hc
    rcases List.mem_or_eq_of_mem_set hd with hd | rfl
    · exact ⟨(h.sent d hd c hc).1.set hget hstage.keeps, (h.sent d hd c hc).2⟩
    · have hsent := h.sent e (List.mem_of_getElem? hget) c hc
      exact ⟨hsent.1.set hget hstage.keeps, hsent.2⟩
  case jars => exact fun browser c hc => (h.jars browser c hc).set hget hstage.keeps

theorem Sound.setJars (h : Sound cfg w) {jars : β → Jar}
    (hjars : ∀ browser, ∀ c ∈ (jars browser).rows, OwnCookie w.exchanges browser c) :
    Sound cfg { w with jars } :=
  { families := h.families, owners := h.owners, running := h.running, issued := h.issued
    apart := h.apart, sent := h.sent, jars := hjars }

/-- An exchange that runs and has no statement waiting gets one. -/
theorem Sound.push (h : Sound cfg w) {task : SessionTask} {rawRefreshToken : String}
    (hget : w.exchanges[exchange]? = some e) (hstage : e.stage = .running rawRefreshToken)
    (hidle : ∀ x ∈ w.tasks, x.1 ≠ exchange)
    (hfits : Fits cfg w.tokens e.actor e.token rawRefreshToken task) :
    Sound cfg { w with tasks := (exchange, task) :: w.tasks } :=
  { families := h.families
    owners := by
      refine List.nodup_cons.mpr ⟨fun hmem => ?_, h.owners⟩
      obtain ⟨x, hx, hsame⟩ := List.mem_map.mp hmem
      exact hidle x hx hsame
    running := by
      intro x hx
      rcases List.mem_cons.mp hx with rfl | hx
      · exact ⟨e, rawRefreshToken, hget, hstage, hfits⟩
      · exact h.running x hx
    issued := h.issued, apart := h.apart, sent := h.sent, jars := h.jars }

/-- A statement's rows, seen by all other handlers. -/
theorem Sound.write (h : Sound cfg w) {a : PrincipalType} {stored : Option TokenHash}
    {shared : SessionShared} {others : List (ℕ × SessionTask)}
    (hwithin : Within a stored w.tokens shared.tokens) (hothers : others.Sublist w.tasks)
    (hunguessed : ∀ d ∈ w.exchanges, ∀ x ∈ d.token.map cfg.hashToken, stored ≠ some x) :
    Sound cfg { w with shared, tasks := others } :=
  { families := hwithin.families h.families
    owners := (hothers.map Prod.fst).nodup h.owners
    running := by
      intro x hx
      obtain ⟨d, rawRefreshToken, hd, hstage, hfits⟩ := h.running x (hothers.subset hx)
      exact ⟨d, rawRefreshToken, hd, hstage,
        hfits.later hwithin (hunguessed d (List.mem_of_getElem? hd))⟩
    issued := fun i d result hissued =>
      ⟨(h.issued i d result hissued).1, (h.issued i d result hissued).2.later hwithin⟩
    apart := h.apart, sent := h.sent, jars := h.jars }

/-- A new exchange has ended with nothing and carries what its jar held. -/
theorem Sound.send (h : Sound cfg w) (request : Request β) {cookies : List Cookie}
    (hcookies : ∀ c ∈ cookies,
      c ∈ (w.jars request.browser).rows ∧ c.path <+: request.route.path) :
    Sound cfg { w with exchanges := w.exchanges ++ [⟨request, cookies, .sent⟩] } := by
  have hissued : ∀ {i d result}, IssuedAt (w.exchanges ++ [⟨request, cookies, .sent⟩]) i d result →
      IssuedAt w.exchanges i d result := by
    rintro i d result ⟨hd, houtcome⟩
    by_cases hlt : i < w.exchanges.length
    · exact ⟨(List.getElem?_append_left hlt).symm.trans hd, houtcome⟩
    · rw [List.getElem?_append_right (Nat.le_of_not_lt hlt)] at hd
      rw [List.mem_singleton.mp (List.mem_of_getElem? hd)] at houtcome
      cases houtcome
  constructor
  case families => exact h.families
  case owners => exact h.owners
  case running =>
    intro x hx
    obtain ⟨d, rawRefreshToken, hd, hrest⟩ := h.running x hx
    have hlt := (List.getElem?_eq_some_iff.mp hd).1
    exact ⟨d, rawRefreshToken, (List.getElem?_append_left hlt).trans hd, hrest⟩
  case issued => exact fun i d result hd => h.issued i d result (hissued hd)
  case apart =>
    exact fun i j d d' result result' hd hd' => h.apart i j d d' result result' (hissued hd)
      (hissued hd')
  case sent =>
    intro d hd c hc
    rcases List.mem_append.mp hd with hd | hd
    · exact ⟨(h.sent d hd c hc).1.append _, (h.sent d hd c hc).2⟩
    · rw [List.mem_singleton.mp hd] at hc ⊢
      exact ⟨(h.jars _ c (hcookies c hc).1).append _, (hcookies c hc).2⟩
  case jars => exact fun browser c hc => (h.jars browser c hc).append _

/-- The response to an exchange sets no cookie but that of its result. -/
theorem cookie_of_respond {outcome : Outcome} (h : .set c ∈ (e.respond outcome).setCookies) :
    ∃ result, outcome = .issued result ∧ c = sessionCookie e.actor result := by
  cases outcome with
  | issued result =>
    rcases List.mem_cons.mp h with heq | hmem
    · cases heq
      exact ⟨result, rfl, rfl⟩
    · cases List.mem_singleton.mp hmem
  | revoked =>
    rcases List.mem_cons.mp h with heq | hmem
    · cases heq
    · cases List.mem_singleton.mp hmem
  | rejected => cases h
  | failed => cases h

/-- An exchange that is not running has no statement waiting. -/
theorem Sound.idle (h : Sound cfg w) (hget : w.exchanges[exchange]? = some e)
    (hstage : ∀ rawRefreshToken, e.stage ≠ .running rawRefreshToken) :
    ∀ x ∈ w.tasks, x.1 ≠ exchange := by
  intro x hx hsame
  obtain ⟨d, rawRefreshToken, hd, hrunning, _⟩ := h.running x hx
  rw [hsame] at hd
  cases hget.symm.trans hd
  exact hstage rawRefreshToken hrunning

theorem outcome_of_sent (h : e.stage = .sent) : e.outcome = none := by
  rw [Exchange.outcome, h]

theorem outcome_of_running {rawRefreshToken : String} (h : e.stage = .running rawRefreshToken) :
    e.outcome = none := by
  rw [Exchange.outcome, h]

theorem outcome_of_answered {outcome : Outcome} (h : e.stage = .answered outcome) :
    e.outcome = some outcome := by
  rw [Exchange.outcome, h]

/-- Before the first request. -/
theorem sound_of_initial (h : Initial w) : Sound cfg w := by
  have htokens : w.tokens.rows = [] := congrArg Table.rows h.tokens
  constructor
  case families =>
    intro r hr
    rw [htokens] at hr
    cases hr
  case owners =>
    rw [h.tasks]
    exact List.nodup_nil
  case running =>
    intro x hx
    rw [h.tasks] at hx
    cases hx
  case issued =>
    rintro i e result ⟨he, _⟩
    rw [h.exchanges] at he
    cases he
  case apart =>
    rintro i j e e' result result' ⟨he, _⟩
    rw [h.exchanges] at he
    cases he
  case sent =>
    intro e he
    rw [h.exchanges] at he
    cases he
  case jars => exact fun browser c hc => Or.inl (h.jars browser c hc)

theorem sound_moved (h : Sound cfg w) {index : ℕ} {input : SessionInput} {task : SessionTask}
    {rawRefreshToken : String} {shared : SessionShared} {rest : List SessionTask}
    (htask : w.tasks[index]? = some (exchange, task)) (hget : w.exchanges[exchange]? = some e)
    (hstage : e.stage = .running rawRefreshToken)
    (hunguessed : Unguessed cfg w (.statement index input))
    (hresume : resumeCall cfg w.shared ((w.tasks.eraseIdx index).map Prod.snd) input task =
      some (shared, rest)) :
    Sound cfg { w.resumed exchange e (callOutcome cfg rawRefreshToken input task) rest with
      shared
      tasks := rest.map (Prod.mk exchange) ++ w.tasks.eraseIdx index } := by
  obtain ⟨d, raw, hd, hrunning, hfits⟩ := h.running _ (List.mem_of_getElem? htask)
  cases hget.symm.trans hd
  cases hstage.symm.trans hrunning
  have hadvances := advances_of_resume hfits h.families hresume
  have hwrite : Sound cfg { w with shared, tasks := w.tasks.eraseIdx index } := by
    refine h.write hadvances.within (List.eraseIdx_sublist _ _) fun d hd x hx hstored => ?_
    obtain ⟨token, htoken, rfl⟩ := Option.map_eq_some_iff.mp hx
    exact hunguessed (exchange, task) htask _ hstored d hd token htoken rfl
  have hidle : ∀ x ∈ w.tasks.eraseIdx index, x.1 ≠ exchange := by
    have hperm := (TaskPools.tasks_perm htask).map Prod.fst
    have hnodup := hperm.nodup_iff.mpr h.owners
    intro x hx hsame
    exact (List.nodup_cons.mp hnodup).1 (List.mem_map.mpr ⟨x, hx, hsame⟩)
  rcases hadvances.left with hrest | ⟨next, hrest, hnext⟩
  · rw [hrest, World.resumed, if_pos rfl]
    refine hwrite.setStage hget hidle ⟨fun o ho => ?_, fun result hr => ?_⟩
    · rw [outcome_of_running hstage] at ho
      cases ho
    · obtain ⟨hsigned, hminted, hfresh⟩ := hadvances.issued hrest result (Option.some.inj hr)
      refine Or.inr ⟨⟨hsigned, hminted⟩, fun j d result' hd' hhash => ?_⟩
      obtain ⟨_, r, hr', hstored, _⟩ := h.issued j d result' hd'
      exact hfresh r hr' (hstored.trans hhash)
  · rw [hrest, World.resumed, if_neg (List.cons_ne_nil _ _)]
    exact hwrite.push hget hstage hidle hnext

variable [DecidableEq β]

theorem sound_deliver (h : Sound cfg w) {outcome : Outcome}
    (hget : w.exchanges[exchange]? = some e) (hstage : e.stage = .answered outcome) :
    Sound cfg (deliver w exchange e outcome) := by
  have houtcome := outcome_of_answered hstage
  have hset : Sound cfg (w.setStage exchange e (.delivered outcome)) := by
    refine h.setStage hget (h.idle hget fun _ hrunning => ?_) ⟨fun o ho => ?_, fun result hr => ?_⟩
    · rw [hstage] at hrunning
      cases hrunning
    · exact houtcome.symm.trans ho
    · exact Or.inl (houtcome.trans hr)
  refine hset.setJars fun browser c hc => ?_
  split_ifs at hc with hwith
  · by_cases hbrowser : browser = e.request.browser
    · rw [hbrowser, Function.update_self] at hc
      rw [hbrowser]
      rcases mem_of_receiveAll hc with hc | hc
      · exact hset.jars _ c hc
      · obtain ⟨result, rfl, rfl⟩ := cookie_of_respond hc
        have hlt := (List.getElem?_eq_some_iff.mp hget).1
        exact Or.inr ⟨_, List.mem_iff_getElem?.mpr ⟨exchange, List.getElem?_set_self hlt⟩, rfl,
          result, rfl, rfl⟩
    · rw [Function.update_of_ne hbrowser] at hc
      exact hset.jars browser c hc
  · exact hset.jars browser c hc

theorem sound_step {a : Action β} (h : Sound cfg w) (hunguessed : Unguessed cfg w a)
    (hstep : step cfg w a = some w') : Sound cfg w' := by
  cases stepped_of_step hstep with
  | tick hclock =>
    exact ⟨h.families, h.owners, h.running, h.issued, h.apart, h.sent, h.jars⟩
  | send request cookies hcookies => exact h.send request hcookies
  | answered hget hstage houtcome =>
    refine h.setStage hget (h.idle hget fun _ hrunning => ?_) ⟨fun o ho => ?_, fun result hr => ?_⟩
    · rw [hstage] at hrunning
      cases hrunning
    · rw [outcome_of_sent hstage] at ho
      cases ho
    · exact absurd (Option.some.inj hr) (houtcome result)
  | @started exchange e arrival task event hget hstage hstart hfits =>
    have hidle := h.idle hget fun _ hrunning => by rw [hstage] at hrunning; cases hrunning
    have hset : Sound cfg (w.setStage exchange e (.running arrival.rawRefreshToken)) := by
      refine h.setStage hget hidle ⟨fun o ho => ?_, fun result hr => ?_⟩
      · rw [outcome_of_sent hstage] at ho
        cases ho
      · cases hr
    have hlt := (List.getElem?_eq_some_iff.mp hget).1
    exact hset.push (List.getElem?_set_self hlt) rfl hidle hfits
  | moved htask hget hstage hresume =>
    exact sound_moved h htask hget hstage hunguessed hresume
  | delivered hget hstage => exact sound_deliver h hget hstage
  | evicted browser identity =>
    refine h.setJars fun b c hc => ?_
    by_cases hbrowser : b = browser
    · rw [hbrowser, Function.update_self] at hc
      rw [hbrowser]
      exact h.jars browser c (mem_remove.mp hc).1
    · rw [Function.update_of_ne hbrowser] at hc
      exact h.jars b c hc

theorem sound_of_reachable (h : Reachable (step cfg) (Unguessed cfg) Initial w) : Sound cfg w :=
  h.invariant (fun _ hinit => sound_of_initial hinit)
    fun _ _ _ hsound hunguessed hstep => sound_step hsound hunguessed hstep

end Invariant

section Frames

variable {β : Type} {cfg : TokenConfig} {w w' : World β} {exchanges : List (Exchange β)}
  {exchange : ℕ} {e : Exchange β} {browser : β} {c : Cookie} {a b : PrincipalType}

theorem actorSegment_injective (h : actorSegment a = actorSegment b) : a = b := by
  cases a <;> cases b <;> first | rfl | exact absurd h (by decide +kernel)

theorem refreshCookieName_injective (h : refreshCookieName a = refreshCookieName b) : a = b := by
  cases a <;> cases b <;> first | rfl | exact absurd h (by decide +kernel)

theorem refreshCookieName_ne_legacy (a : PrincipalType) :
    refreshCookieName a ≠ legacyRefreshCookie := by
  cases a <;> decide +kernel

/-- The path of an actor's cookie leads to routes of that actor only. -/
theorem actor_of_path {route : Route} (h : refreshCookiePath a <+: route.path) :
    a = route.actor := by
  have hsegment : route.path[2]? = some (actorSegment a) := by
    obtain ⟨rest, hrest⟩ := h
    rw [← hrest]
    rfl
  cases route with
  | refresh actor => exact (actorSegment_injective (Option.some.inj hsegment)).symm
  | logout actor => exact (actorSegment_injective (Option.some.inj hsegment)).symm
  | verifyOtp => cases a <;> exact absurd hsegment (by decide +kernel)
  | merchantLogin => cases a <;> first | rfl | exact absurd hsegment (by decide +kernel)
  | adminLogin => cases a <;> first | rfl | exact absurd hsegment (by decide +kernel)
  | signup => cases a <;> first | rfl | exact absurd hsegment (by decide +kernel)

/-- A cookie under an actor's name has that actor's path. -/
theorem OwnCookie.identity (h : OwnCookie exchanges browser c)
    (hname : c.name = refreshCookieName a) :
    c.identity = (refreshCookieName a, refreshCookiePath a) := by
  rcases h with hlegacy | ⟨e, _, _, result, _, rfl⟩
  · exact absurd (hname.symm.trans hlegacy) (refreshCookieName_ne_legacy a)
  · have hactor : e.actor = a := refreshCookieName_injective hname
    rw [← hactor]
    rfl

/-- The headers of a response are about its actor's cookie and the one of former days. -/
theorem identity_of_respond {outcome : Outcome} {header : SetCookie}
    (h : header ∈ (e.respond outcome).setCookies) :
    header.identity = (refreshCookieName e.actor, refreshCookiePath e.actor) ∨
      header.identity = (legacyRefreshCookie, legacyRefreshCookiePath) := by
  cases outcome with
  | issued result =>
    rcases List.mem_cons.mp h with rfl | hmem
    · exact Or.inl rfl
    · rw [List.mem_singleton.mp hmem]
      exact Or.inr rfl
  | revoked =>
    rcases List.mem_cons.mp h with rfl | hmem
    · exact Or.inl rfl
    · rw [List.mem_singleton.mp hmem]
      exact Or.inr rfl
  | rejected => cases h
  | failed => cases h

/-- The exchange that an action moves on. -/
def movedExchange (w : World β) : Action β → Option ℕ
  | .arrive exchange _ | .deliver exchange => some exchange
  | .statement index _ => (w.tasks[index]?).map Prod.fst
  | _ => none

/-- Rows and cookies of other actors are as they were. -/
structure Untouched (a : PrincipalType) (w w' : World β) : Prop where
  rows : ∀ r, r.principalType ≠ a → (r ∈ w'.tokens.rows ↔ r ∈ w.tokens.rows)
  cookies : ∀ browser c b, c.name = refreshCookieName b → b ≠ a →
    (c ∈ (w'.jars browser).rows ↔ c ∈ (w.jars browser).rows)

theorem jars_resumed (w : World β) (exchange : ℕ) (e : Exchange β) (outcome : Outcome)
    (rest : List SessionTask) : (w.resumed exchange e outcome rest).jars = w.jars := by
  unfold World.resumed
  split_ifs
  · rfl
  · rfl

variable [DecidableEq β]

theorem untouched_deliver {outcome : Outcome} :
    Untouched e.actor w (deliver w exchange e outcome) := by
  constructor
  · exact fun r _ => Iff.rfl
  · intro browser c b hname hne
    unfold deliver
    dsimp only
    split_ifs
    · by_cases hbrowser : browser = e.request.browser
      · rw [hbrowser, Function.update_self]
        refine mem_receiveAll_iff fun header hmem hsame => ?_
        have hidentity := identity_of_respond hmem
        rw [hsame] at hidentity
        rcases hidentity with hidentity | hidentity
        · exact hne (refreshCookieName_injective
            (hname.symm.trans (congrArg Prod.fst hidentity)))
        · exact refreshCookieName_ne_legacy b (hname.symm.trans (congrArg Prod.fst hidentity))
      · rw [Function.update_of_ne hbrowser]
    · exact Iff.rfl

/-- Whatever an exchange does, the other actors' sessions are as they were. -/
theorem untouched_of_step {action : Action β} (h : Sound cfg w)
    (hstep : step cfg w action = some w') (hmoved : movedExchange w action = some exchange)
    (hget : w.exchanges[exchange]? = some e) : Untouched e.actor w w' := by
  cases stepped_of_step hstep with
  | tick hclock => cases hmoved
  | send request cookies hcookies => cases hmoved
  | answered hget' hstage houtcome => exact ⟨fun r _ => Iff.rfl, fun _ _ _ _ _ => Iff.rfl⟩
  | started hget' hstage hstart hfits => exact ⟨fun r _ => Iff.rfl, fun _ _ _ _ _ => Iff.rfl⟩
  | @moved index input i d task rawRefreshToken shared rest htask hget' hstage hresume =>
    have hexchange : i = exchange := by
      simp only [movedExchange, htask, Option.map_some, Option.some.injEq] at hmoved
      exact hmoved
    rw [hexchange] at hget' htask
    cases hget.symm.trans hget'
    obtain ⟨d, raw, hd, _, hfits⟩ := h.running _ (List.mem_of_getElem? htask)
    cases hget.symm.trans hd
    have hadvances := advances_of_resume hfits h.families hresume
    constructor
    · exact fun r hother => hadvances.within.mem_iff hother
    · intro browser c b _ _
      rw [jars_resumed]
  | delivered hget' hstage =>
    cases hmoved
    cases hget.symm.trans hget'
    exact untouched_deliver
  | evicted browser identity => cases hmoved

/-- What a jar holds after its two headers. -/
theorem mem_deliver {outcome : Outcome} {first : SetCookie}
    (hheaders : (e.respond outcome).setCookies = [first, clearLegacyRefreshCookie])
    (hwith : e.request.withCookies = true) :
    c ∈ ((deliver w exchange e outcome).jars e.request.browser).rows ↔
      (first.kept = some c ∨ c ∈ (w.jars e.request.browser).rows ∧ c.identity ≠ first.identity) ∧
        c.identity ≠ (legacyRefreshCookie, legacyRefreshCookiePath) := by
  unfold deliver
  dsimp only
  rw [if_pos hwith, Function.update_self, hheaders, receiveAll, List.foldl_cons, List.foldl_cons,
    List.foldl_nil, mem_receive, mem_receive]
  constructor
  · rintro (hkept | ⟨hc, hne⟩)
    · cases hkept
    · exact ⟨hc, hne⟩
  · exact fun ⟨hc, hne⟩ => Or.inr ⟨hc, hne⟩

/-- After a token has reached its browser the next refresh presents it. -/
theorem presented_of_issued (h : Sound cfg w) {result : IssuedTokens}
    (hget : w.exchanges[exchange]? = some e) (hstage : e.stage = .answered (.issued result))
    (hwith : e.request.withCookies = true) :
    readRefreshCookie (attached ((deliver w exchange e (.issued result)).jars e.request.browser)
      (Route.refresh e.actor).path) e.actor = some result.refreshToken := by
  have hsound := sound_deliver h hget hstage
  have hcookie : sessionCookie e.actor result ∈
      ((deliver w exchange e (.issued result)).jars e.request.browser).rows := by
    refine (mem_deliver rfl hwith).mpr ⟨Or.inl rfl, fun hlegacy => ?_⟩
    exact refreshCookieName_ne_legacy e.actor (congrArg Prod.fst hlegacy)
  have hpath : (sessionCookie e.actor result).path <+: (Route.refresh e.actor).path :=
    ⟨["refresh"], rfl⟩
  cases hvalue : readRefreshCookie (attached
      ((deliver w exchange e (.issued result)).jars e.request.browser)
        (Route.refresh e.actor).path) e.actor with
  | none =>
    have hnone := List.find?_eq_none.mp (Option.map_eq_none_iff.mp hvalue) _
      (mem_attached.mpr ⟨hcookie, hpath⟩)
    exact absurd (decide_eq_true rfl) hnone
  | some value =>
    obtain ⟨c, hc, hname, rfl⟩ := exists_of_valueOf hvalue
    have hmem := (mem_attached.mp hc).1
    have hidentity := (hsound.jars _ c hmem).identity hname
    rw [Table.eq_of_key_eq _ hmem hcookie hidentity]
    rfl

/-- After a logout has been answered the browser presents no token of the actor. -/
theorem presented_of_revoked (h : Sound cfg w)
    (hget : w.exchanges[exchange]? = some e) (hstage : e.stage = .answered .revoked)
    (hwith : e.request.withCookies = true) (path : Path) :
    readRefreshCookie (attached ((deliver w exchange e .revoked).jars e.request.browser) path)
      e.actor = none := by
  have hsound := sound_deliver h hget hstage
  cases hvalue : readRefreshCookie (attached
      ((deliver w exchange e .revoked).jars e.request.browser) path) e.actor with
  | none => rfl
  | some value =>
    obtain ⟨c, hc, hname, rfl⟩ := exists_of_valueOf hvalue
    have hmem := (mem_attached.mp hc).1
    have hidentity := (hsound.jars _ c hmem).identity hname
    rcases ((mem_deliver rfl hwith).mp hmem).1 with hkept | ⟨_, hne⟩
    · cases hkept
    · exact absurd hidentity hne

end Frames

section Pools

variable {β : Type} [DecidableEq β] {cfg : TokenConfig} {w w' : World β}

/-- The calls of the token service without the exchanges they are for. -/
def pool (w : World β) : SessionPool := ⟨w.shared, w.tasks.map Prod.snd⟩

/-- A step over HTTP is a step of the token service's calls or leaves them alone. -/
theorem pool_of_step {action : Action β} (h : step cfg w action = some w') :
    pool w' = pool w ∨ ∃ b, (sessionSystem cfg).step (pool w) b = some (pool w') := by
  cases stepped_of_step h with
  | @tick clock hclock =>
    refine Or.inr ⟨.event (.tick clock), ?_⟩
    simp only [TaskPools.System.step, sessionSystem, startCall, pool, if_pos hclock,
      Option.map_some, List.nil_append]
  | send request cookies hcookies => exact Or.inl rfl
  | answered hget hstage houtcome => exact Or.inl rfl
  | @started exchange e arrival task event hget hstage hstart hfits =>
    refine Or.inr ⟨.event event, ?_⟩
    simp only [TaskPools.System.step, sessionSystem, pool, hstart, Option.map_some]
    rfl
  | @moved index input exchange e task rawRefreshToken shared rest htask hget hstage hresume =>
    refine Or.inr ⟨.resume index input, ?_⟩
    have htask' : (w.tasks.map Prod.snd)[index]? = some task := by
      rw [List.getElem?_map, htask]
      rfl
    simp only [TaskPools.System.step, sessionSystem, pool, htask', List.eraseIdx_map, hresume,
      Option.map_some, List.map_append, List.map_map]
    have hrest : List.map (Prod.snd ∘ Prod.mk exchange) rest = rest := List.map_id rest
    rw [hrest]
  | delivered hget hstage => exact Or.inl rfl
  | evicted browser identity => exact Or.inl rfl

/-- What is known of every run of the token service holds over HTTP. -/
theorem pool_reachable {ok : World β → Action β → Prop} (h : Reachable (step cfg) ok Initial w) :
    Reachable (sessionSystem cfg).step anyStep RefreshSessions.Initial (pool w) := by
  induction h with
  | start hinit =>
    refine .start ⟨hinit.tokens, hinit.history, ?_⟩
    rw [pool, hinit.tasks]
    rfl
  | next _ _ hstep ih =>
    rcases pool_of_step hstep with hsame | ⟨b, hb⟩
    · rw [hsame]
      exact ih
    · exact ih.next trivial hb

end Pools

section Results

variable {β : Type}

/-- The cookie of an actor, as its actor's token was stored. -/
def CookieOf (cfg : TokenConfig) (t : RefreshTokens) (a : PrincipalType) (c : Cookie) : Prop :=
  c.name = refreshCookieName a ∧ c.path = refreshCookiePath a ∧ c.httpOnly = true ∧
    Minted t (cfg.hashToken c.value) a

/-- What a browser presents to an actor's refresh route. -/
def presentedBy (w : World β) (browser : β) (a : PrincipalType) : Option String :=
  readRefreshCookie (attached (w.jars browser) (Route.refresh a).path) a

theorem cookieOf_of_own {cfg : TokenConfig} {w : World β} (h : Sound cfg w) {browser : β}
    {c : Cookie} (hc : OwnCookie w.exchanges browser c) (hname : c.name ≠ legacyRefreshCookie) :
    ∃ a, CookieOf cfg w.tokens a c := by
  rcases hc with hlegacy | ⟨e, he, _, result, houtcome, rfl⟩
  · exact absurd hlegacy hname
  obtain ⟨i, hi⟩ := List.mem_iff_getElem?.mp he
  exact ⟨e.actor, rfl, rfl, rfl, (h.issued i e result ⟨hi, houtcome⟩).2⟩

variable [DecidableEq β]

/-- In every run without a guessed token: a cookie in a jar carries a token of
the actor it is named for; a request carries no other actor's cookie; an access
token is signed for the actor of the route that answers with it; no exchange,
whatever token it presents, changes a row or a cookie of another actor; and a
browser presents next the token it was answered with, and none after a logout. -/
theorem actors_kept_apart (cfg : TokenConfig) (w : World β)
    (h : Reachable (step cfg) (Unguessed cfg) Initial w) :
    (∀ browser, ∀ c ∈ (w.jars browser).rows, c.name ≠ legacyRefreshCookie →
        ∃ a, CookieOf cfg w.tokens a c) ∧
      (∀ e ∈ w.exchanges, ∀ c ∈ e.cookies, c.name ≠ legacyRefreshCookie →
        CookieOf cfg w.tokens e.actor c) ∧
      (∀ e ∈ w.exchanges, ∀ result, e.outcome = some (.issued result) →
        result.accessToken.actor = e.actor) ∧
      (∀ action w' exchange e, step cfg w action = some w' →
        movedExchange w action = some exchange → w.exchanges[exchange]? = some e →
          Untouched e.actor w w') ∧
      ∀ exchange e outcome w', w.exchanges[exchange]? = some e → e.stage = .answered outcome →
        e.request.withCookies = true → step cfg w (.deliver exchange) = some w' →
          (∀ result, outcome = .issued result →
            presentedBy w' e.request.browser e.actor = some result.refreshToken) ∧
          (outcome = .revoked → presentedBy w' e.request.browser e.actor = none) := by
  have hsound := sound_of_reachable h
  refine ⟨fun browser c hc hname => cookieOf_of_own hsound (hsound.jars browser c hc) hname,
    ?_, ?_, ?_, ?_⟩
  · intro e he c hc hname
    obtain ⟨hown, hprefix⟩ := hsound.sent e he c hc
    obtain ⟨a, hcookie⟩ := cookieOf_of_own hsound hown hname
    have hactor : a = e.actor := actor_of_path (hcookie.2.1 ▸ hprefix)
    rw [← hactor]
    exact hcookie
  · intro e he result houtcome
    obtain ⟨i, hi⟩ := List.mem_iff_getElem?.mp he
    exact (hsound.issued i e result ⟨hi, houtcome⟩).1
  · exact fun action w' exchange e hstep hmoved hget => untouched_of_step hsound hstep hmoved hget
  · intro exchange e outcome w' hget hstage hwith hstep
    simp only [step, hget, hstage, Option.some.injEq] at hstep
    rw [← hstep]
    constructor
    · rintro result rfl
      exact presented_of_issued hsound hget hstage hwith
    · rintro rfl
      exact presented_of_revoked hsound hget hstage hwith _

/-- In every run without a guessed token, a refresh token that an exchange got
over cookie transport is in no body of any answer, in no jar but its browser's,
there under its actor's name and out of reach of scripts, and is sent along
from that browser to that actor's routes only. -/
theorem tokens_stay_in_cookies (cfg : TokenConfig) (w : World β)
    (h : Reachable (step cfg) (Unguessed cfg) Initial w) (e : Exchange β) (he : e ∈ w.exchanges)
    (result : IssuedTokens) (houtcome : e.outcome = some (.issued result))
    (hstrip : e.stripBody = true) :
    (∀ d ∈ w.exchanges, ∀ outcome, d.outcome = some outcome →
        (d.respond outcome).refreshToken ≠ some result.refreshToken) ∧
      (∀ browser, ∀ c ∈ (w.jars browser).rows, c.name ≠ legacyRefreshCookie →
        c.value = result.refreshToken →
          browser = e.request.browser ∧ c = sessionCookie e.actor result) ∧
      ∀ d ∈ w.exchanges, ∀ c ∈ d.cookies, c.name ≠ legacyRefreshCookie →
        c.value = result.refreshToken →
          d.request.browser = e.request.browser ∧ d.actor = e.actor := by
  have hsound := sound_of_reachable h
  obtain ⟨i, hi⟩ := List.mem_iff_getElem?.mp he
  -- a token is handed out once
  have honce : ∀ d ∈ w.exchanges, ∀ result', d.outcome = some (.issued result') →
      result'.refreshToken = result.refreshToken → d = e := by
    intro d hd result' houtcome' hsame
    obtain ⟨j, hj⟩ := List.mem_iff_getElem?.mp hd
    have hij := hsound.apart j i d e result' result ⟨hj, houtcome'⟩ ⟨hi, houtcome⟩
      (congrArg cfg.hashToken hsame)
    rw [hij] at hj
    exact Option.some.inj (hj.symm.trans hi)
  have hown : ∀ browser c, OwnCookie w.exchanges browser c → c.name ≠ legacyRefreshCookie →
      c.value = result.refreshToken →
        browser = e.request.browser ∧ c = sessionCookie e.actor result := by
    rintro browser c (hlegacy | ⟨d, hd, hbrowser, result', houtcome', rfl⟩) hname hvalue
    · exact absurd hlegacy hname
    · have hde := honce d hd result' houtcome' hvalue
      rw [hde] at houtcome' hbrowser ⊢
      cases houtcome.symm.trans houtcome'
      exact ⟨hbrowser.symm, rfl⟩
  refine ⟨?_, fun browser c hc => hown browser c (hsound.jars browser c hc), ?_⟩
  · intro d hd outcome houtcome' hbody
    cases outcome with
    | issued result' =>
      simp only [Exchange.respond, respondWithTokens] at hbody
      split_ifs at hbody with hplain
      have hde := honce d hd result' houtcome' (Option.some.inj hbody)
      rw [hde] at hplain
      exact hplain hstrip
    | revoked => cases hbody
    | rejected => cases hbody
    | failed => cases hbody
  · intro d hd c hc hname hvalue
    obtain ⟨hcookie, hprefix⟩ := hsound.sent d hd c hc
    obtain ⟨hbrowser, rfl⟩ := hown _ c hcookie hname hvalue
    exact ⟨hbrowser, (actor_of_path hprefix).symm⟩

end Results

section Sample

def plainConfig : TokenConfig := ⟨id, defaultRefreshTtlMs⟩

def emptyWorld : World ℕ := ⟨⟨Table.empty, 0, []⟩, [], [], fun _ => Table.empty⟩

theorem emptyWorld_initial : Initial emptyWorld :=
  ⟨rfl, rfl, rfl, rfl, fun _ _ hc => by cases hc⟩

def panelRequest (route : Route) : Request ℕ := ⟨0, route, true, some "Cookie", none⟩

def runCall (count : ℕ) (rawRefreshToken : String) : List (Action ℕ) :=
  List.replicate count (.statement 0 { rawRefreshToken })

/-- In one browser an admin and a merchant sign in; the admin's panel rotates its
token, and a script presents the merchant's token to the admin's route. -/
def twoPanels : List (Action ℕ) :=
  [.send (panelRequest .merchantLogin), .arrive 0 ⟨true, "m1", "fm", "mu"⟩] ++ runCall 1 "" ++
    [.deliver 0, .send (panelRequest .adminLogin), .arrive 1 ⟨true, "a1", "fa", "au"⟩] ++
    runCall 1 "" ++ [.deliver 1, .send (panelRequest (.refresh .admin)),
      .arrive 2 ⟨false, "", "", ""⟩] ++ runCall 4 "a2" ++
    [.deliver 2, .send ⟨1, .refresh .admin, true, none, some "m1"⟩,
      .arrive 3 ⟨false, "", "", ""⟩] ++ runCall 1 ""

instance (cfg : TokenConfig) (w : World ℕ) (a : Action ℕ) : Decidable (Unguessed cfg w a) := by
  unfold Unguessed
  cases a <;> infer_instance

theorem twoPanels_reachable : Reachable (step plainConfig) (Unguessed plainConfig) Initial
    (after (step plainConfig) emptyWorld twoPanels) :=
  reachable_after_guarded (.start emptyWorld_initial) (by decide +kernel) (by decide +kernel)

theorem actors_kept_apart_twoPanels :
    ∃ w : World ℕ, presentedBy w 0 .admin = some "a2" ∧ presentedBy w 0 .merchant = some "m1" ∧
      w.exchanges.map (·.outcome) = [some (.issued ⟨⟨"mu", .merchant⟩, "m1", 30*dayMs⟩),
        some (.issued ⟨⟨"au", .admin⟩, "a1", 30*dayMs⟩),
        some (.issued ⟨⟨"au", .admin⟩, "a2", 30*dayMs⟩), some .rejected] ∧
      ∀ browser, ∀ c ∈ (w.jars browser).rows, c.name ≠ legacyRefreshCookie →
        ∃ a, CookieOf plainConfig w.tokens a c := by
  have h := actors_kept_apart plainConfig _ twoPanels_reachable
  exact ⟨_, by decide +kernel, by decide +kernel, by decide +kernel, h.1⟩

theorem tokens_stay_in_cookies_twoPanels :
    presentedBy (after (step plainConfig) emptyWorld twoPanels) 0 .admin = some "a2" ∧
      ∀ d ∈ (after (step plainConfig) emptyWorld twoPanels).exchanges, ∀ outcome,
        d.outcome = some outcome → (d.respond outcome).refreshToken ≠ some "a2" := by
  have hget : (after (step plainConfig) emptyWorld twoPanels).exchanges[2]? =
      some ⟨panelRequest (.refresh .admin),
        [sessionCookie .admin ⟨⟨"au", .admin⟩, "a1", 30*dayMs⟩],
        .delivered (.issued ⟨⟨"au", .admin⟩, "a2", 30*dayMs⟩)⟩ := by decide +kernel
  exact ⟨by decide +kernel, (tokens_stay_in_cookies plainConfig _ twoPanels_reachable _
    (List.mem_of_getElem? hget) _ rfl (by decide +kernel)).1⟩

/-- A token is presented to the admin's route and only then stored for a merchant. -/
def guessedToken : List (Action ℕ) :=
  [.send ⟨1, .refresh .admin, true, none, some "m1"⟩, .arrive 0 ⟨false, "", "", ""⟩] ++
    runCall 1 "" ++
    [.send (panelRequest .merchantLogin), .arrive 1 ⟨true, "m1", "fm", "mu"⟩] ++
    runCall 1 "" ++ runCall 3 "a1"

/-- The check before the claim rests on tokens nobody can guess. -/
theorem guessed_token_crosses :
    ∃ w : World ℕ, Reachable (step plainConfig) anyStep Initial w ∧
      ∃ e ∈ w.exchanges, ∃ result, e.outcome = some (.issued result) ∧ e.actor = .admin ∧
        result.accessToken.actor = .merchant := by
  have hget : (after (step plainConfig) emptyWorld guessedToken).exchanges[0]? =
      some ⟨⟨1, .refresh .admin, true, none, some "m1"⟩, [],
        .answered (.issued ⟨⟨"mu", .merchant⟩, "a1", 30*dayMs⟩)⟩ := by decide +kernel
  exact ⟨_, reachable_after (.start emptyWorld_initial) (by decide +kernel), _,
    List.mem_of_getElem? hget, _, rfl, rfl, rfl⟩

end Sample

end Kurtar.SeparateActors

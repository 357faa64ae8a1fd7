import Kurtar.KeyedTable
import Kurtar.TaskPools
import Kurtar.IstanbulCalendar

/-!
# Refresh-token sessions

Each login starts a family of refresh tokens; a refresh rotates one token
into a successor, a logout or a detected reuse revokes the family. Calls are
interleaved statement by statement. A statement sees the rows committed when
it starts; a row it writes stays locked until its transaction ends, and
whoever finds the row locked waits and then looks at it again.
-/

namespace Kurtar.RefreshSessions

open KeyedTable IstanbulCalendar TaskPools

abbrev TokenHash := String
abbrev FamilyId := String
abbrev RequestId := ℕ

inductive PrincipalType where
  | consumer | merchant | admin
  deriving DecidableEq

/-- A stored token; the type says which of the account columns holds the id. -/
structure RefreshToken where
  tokenHash : TokenHash
  principalType : PrincipalType
  principalId : String
  familyId : FamilyId
  rotatedAt : Option Instant
  revokedAt : Option Instant
  expiresAt : Instant
  deriving DecidableEq

abbrev RefreshTokens := Table RefreshToken.tokenHash

/-- `hashToken` and the parsed `JWT_REFRESH_EXPIRES_IN`. -/
structure TokenConfig where
  hashToken : String → TokenHash
  refreshTtlMs : ℤ

def defaultRefreshTtlMs : ℤ := 30*dayMs

section Statements

/-- The guard of the claim. -/
def Claimable (now : Instant) (r : RefreshToken) : Prop :=
  r.rotatedAt = none ∧ r.revokedAt = none ∧ now < r.expiresAt

instance (now : Instant) : DecidablePred (Claimable now) := fun r => by
  unfold Claimable
  infer_instance

/-- The rows a revocation is after. -/
def Unrevoked (familyId : FamilyId) (r : RefreshToken) : Prop :=
  r.familyId = familyId ∧ r.revokedAt = none

instance (familyId : FamilyId) : DecidablePred (Unrevoked familyId) := fun r => by
  unfold Unrevoked
  infer_instance

def RefreshToken.rotated (now : Instant) (r : RefreshToken) : RefreshToken :=
  { r with rotatedAt := some now }

def RefreshToken.revoked (now : Instant) (r : RefreshToken) : RefreshToken :=
  { r with revokedAt := some now }

/-- The token that takes the place of a rotated one. -/
def RefreshToken.successor (r : RefreshToken) (tokenHash : TokenHash) (expiresAt : Instant) :
    RefreshToken :=
  { r with tokenHash, rotatedAt := none, revokedAt := none, expiresAt }

/-- The claim as it becomes visible when its transaction commits. -/
def commitClaim (tokens : RefreshTokens) (tokenHash : TokenHash) (now : Instant) : RefreshTokens :=
  tokens.updateMany (·.tokenHash = tokenHash) (·.rotated now) fun _ => rfl

def commitRevocation (tokens : RefreshTokens) (rows : List TokenHash) (now : Instant) :
    RefreshTokens :=
  tokens.updateMany (·.tokenHash ∈ rows) (·.revoked now) fun _ => rfl

/-- Insert under a unique hash; a taken one aborts the transaction. -/
def create (tokens : RefreshTokens) (row : RefreshToken) : Option RefreshTokens :=
  if ∃ r ∈ tokens.rows, r.tokenHash = row.tokenHash then none else some (tokens.insertNew row)

/-- The rows a revocation finds when it starts. -/
def revocable (tokens : RefreshTokens) (familyId : FamilyId) : List TokenHash :=
  (tokens.rows.filter (Unrevoked familyId)).map (·.tokenHash)

end Statements

section Calls

structure RefreshCall where
  request : RequestId
  tokenHash : TokenHash
  expectedActor : PrincipalType
  now : Instant
  deriving DecidableEq

/-- Why a family is revoked. -/
inductive RevokeCause where
  | logout
  | reuse (call : RefreshCall)
  /-- Inside the transaction of a claim whose account is not active. -/
  | inactive (call : RefreshCall)
  deriving DecidableEq

structure Revocation where
  cause : RevokeCause
  familyId : FamilyId
  now : Instant
  deriving DecidableEq

/-- The next statement of a call. -/
inductive SessionTask where
  | issue (row : RefreshToken)
  | bound (call : RefreshCall)
  | claim (call : RefreshCall)
  | resolvePrincipal (call : RefreshCall) (stored : RefreshToken)
  | create (call : RefreshCall) (stored : RefreshToken)
  | handleClaimFailure (call : RefreshCall)
  | findForLogout (tokenHash : TokenHash) (expectedActor : PrincipalType)
  | revoke (r : Revocation)
  /-- Rows found and not yet reached, and rows locked to be written. -/
  | revoking (r : Revocation) (found : List TokenHash) (locked : List TokenHash)

def RevokeCause.claimed : RevokeCause → List TokenHash
  | .inactive call => [call.tokenHash]
  | _ => []

/-- The rows a call keeps locked. -/
def SessionTask.locks : SessionTask → List TokenHash
  | .resolvePrincipal call _ | .create call _ => [call.tokenHash]
  | .revoke r => r.cause.claimed
  | .revoking r _ locked => r.cause.claimed ++ locked
  | _ => []

/-- What became of a call, newest first in the history. -/
inductive SessionRecord where
  /-- The presented token was rotated and the issued one returned. -/
  | refreshed (call : RefreshCall) (familyId : FamilyId) (refreshToken : String)
  /-- The uniform 401. -/
  | rejected (request : RequestId)
  | revoked (cause : RevokeCause) (familyId : FamilyId)
  deriving DecidableEq

structure SessionShared where
  tokens : RefreshTokens
  clock : Instant
  history : List SessionRecord

inductive SessionEvent where
  /-- Time passes. -/
  | tick (clock : Instant)
  | login (rawRefreshToken : String) (familyId : FamilyId) (principalType : PrincipalType)
      (principalId : String)
  | refresh (request : RequestId) (presentedToken : String) (expectedActor : PrincipalType)
  | logout (presentedToken : String) (expectedActor : PrincipalType)

structure SessionInput where
  /-- The account was found active. -/
  active : Bool := true
  rawRefreshToken : String := ""
  /-- The row the update comes to next. -/
  row : TokenHash := ""
  fails : Bool := false
  deriving DecidableEq

def SessionShared.withTokens (s : SessionShared) (tokens : RefreshTokens) : SessionShared :=
  { s with tokens }

def SessionShared.note (s : SessionShared) (records : List SessionRecord) : SessionShared :=
  { s with history := records ++ s.history }

variable (cfg : TokenConfig)

def startCall (s : SessionShared) : SessionEvent → Option (SessionShared × List SessionTask)
  | .tick clock => if s.clock ≤ clock then some ({ s with clock }, []) else none
  | .login rawRefreshToken familyId principalType principalId =>
    some (s, [.issue
      { tokenHash := cfg.hashToken rawRefreshToken
        principalType
        principalId
        familyId
        rotatedAt := none
        revokedAt := none
        expiresAt := s.clock+cfg.refreshTtlMs }])
  | .refresh request presentedToken expectedActor =>
    some (s, [.bound ⟨request, cfg.hashToken presentedToken, expectedActor, s.clock⟩])
  | .logout presentedToken expectedActor =>
    some (s, [.findForLogout (cfg.hashToken presentedToken) expectedActor])

/-- An update waits for a matching row that another transaction has locked. -/
def Locked (others : List SessionTask) (tokenHash : TokenHash) : Prop :=
  ∃ other ∈ others, tokenHash ∈ other.locks

instance (others : List SessionTask) (tokenHash : TokenHash) :
    Decidable (Locked others tokenHash) := by
  unfold Locked
  infer_instance

def claimToken (s : SessionShared) (others : List SessionTask) (call : RefreshCall) :
    Option (SessionShared × List SessionTask) :=
  match s.tokens.find? call.tokenHash with
  | none => some (s, [.handleClaimFailure call])
  | some r =>
    if ¬ Claimable call.now r then some (s, [.handleClaimFailure call])
    else if Locked others call.tokenHash then none
    else some (s, [.resolvePrincipal call (r.rotated call.now)])

def RevokeCause.response : RevokeCause → List SessionRecord
  | .logout => []
  | .reuse call | .inactive call => [.rejected call.request]

/-- The rows of a revocation become visible, with the claim it was part of. -/
def finishRevocation (s : SessionShared) (r : Revocation) (locked : List TokenHash) :
    SessionShared :=
  let tokens := match r.cause with
    | .inactive call => commitClaim s.tokens call.tokenHash call.now
    | _ => s.tokens
  (s.withTokens (commitRevocation tokens locked r.now)).note
    (r.cause.response ++ [.revoked r.cause r.familyId])

theorem history_revocation (s : SessionShared) (r : Revocation) (locked : List TokenHash) :
    (finishRevocation s r locked).history =
      r.cause.response ++ .revoked r.cause r.familyId :: s.history := by
  simp [finishRevocation, SessionShared.note, SessionShared.withTokens]

/-- An update reaches its next row, waits for it and looks at it again. -/
def reachRow (s : SessionShared) (others : List SessionTask) (r : Revocation)
    (found locked : List TokenHash) (row : TokenHash) : Option (List SessionTask) :=
  if row ∉ found ∨ Locked others row then none
  else
    match s.tokens.find? row with
    | none => some [.revoking r (found.erase row) locked]
    | some stored =>
      if Unrevoked r.familyId stored then some [.revoking r (found.erase row) (row :: locked)]
      else some [.revoking r (found.erase row) locked]

/-- The next statement of a call and what is then left of it. -/
def nextStatement (s : SessionShared) (others : List SessionTask) (input : SessionInput) :
    SessionTask → Option (SessionShared × List SessionTask)
  | .issue row =>
    -- Random family ids do not repeat.
    if ∃ r ∈ s.tokens.rows, r.familyId = row.familyId then none
    else (RefreshSessions.create s.tokens row).map fun tokens => (s.withTokens tokens, [])
  | .bound call =>
    match s.tokens.find? call.tokenHash with
    | none => some (s, [.claim call])
    | some r =>
      if r.principalType = call.expectedActor then some (s, [.claim call])
      else some (s.note [.rejected call.request], [])
  | .claim call => claimToken s others call
  | .resolvePrincipal call stored =>
    some (s, if input.active then [.create call stored]
      else [.revoke ⟨.inactive call, stored.familyId, call.now⟩])
  | .create call stored =>
    (RefreshSessions.create (commitClaim s.tokens call.tokenHash call.now)
      (stored.successor (cfg.hashToken input.rawRefreshToken)
        (call.now+cfg.refreshTtlMs))).map fun tokens =>
      ((s.withTokens tokens).note
        [.refreshed call stored.familyId input.rawRefreshToken], [])
  | .handleClaimFailure call =>
    match s.tokens.find? call.tokenHash with
    | none => some (s.note [.rejected call.request], [])
    | some stored =>
      if stored.expiresAt ≤ call.now then some (s.note [.rejected call.request], [])
      else some (s, [.revoke ⟨.reuse call, stored.familyId, call.now⟩])
  | .findForLogout tokenHash expectedActor =>
    match s.tokens.find? tokenHash with
    | none => some (s, [])
    | some stored =>
      some (s, if stored.principalType = expectedActor
        then [.revoke ⟨.logout, stored.familyId, s.clock⟩] else [])
  | .revoke r => some (s, [.revoking r (revocable s.tokens r.familyId) []])
  | .revoking r found locked =>
    match found with
    | [] => some (finishRevocation s r locked, [])
    | _ => (reachRow s others r found locked input.row).map fun rest => (s, rest)

/-- A failed statement ends its call and rolls its transaction back. -/
def resumeCall (s : SessionShared) (others : List SessionTask) (input : SessionInput)
    (task : SessionTask) : Option (SessionShared × List SessionTask) :=
  if input.fails then some (s, []) else nextStatement cfg s others input task

def sessionSystem : System SessionShared SessionTask SessionEvent SessionInput where
  event := startCall cfg
  resume := resumeCall cfg

abbrev SessionPool := Pool SessionShared SessionTask
abbrev SessionAction := PoolAction SessionEvent SessionInput

/-- Nobody has logged in yet and no call is under way. -/
structure Initial (p : SessionPool) : Prop where
  tokens : p.shared.tokens = Table.empty
  history : p.shared.history = []
  tasks : p.tasks = []

end Calls

end Kurtar.RefreshSessions

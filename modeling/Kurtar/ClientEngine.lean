import Kurtar.RefreshSessions

/-!
# The client's request engine

One client keeps a refresh token in its token store and refreshes it when a
request is answered with 401 or the application asks for it. One refresh is
in flight at a time, and everybody who needs one waits for it. Messages to
and from the server may be lost, and a fetch may fail at any time.
-/

namespace Kurtar.ClientEngine

open KeyedTable IstanbulCalendar TaskPools RefreshSessions

/-- A cookie is kept by the browser whatever the client does. -/
inductive ClientTransport where
  | cookie | body
  deriving DecidableEq

/-- Where a caller of the engine stands. -/
inductive CallPhase where
  | sent
  /-- Waits for the refresh, and sends its request again if it has one. -/
  | awaitingRefresh (retries : Bool)
  | retried
  deriving DecidableEq

structure Client where
  transport : ClientTransport
  actor : PrincipalType
  /-- The token store, or the cookie. -/
  refreshToken : Option String
  inFlightRefresh : Option RequestId
  calls : List CallPhase
  nextRequest : RequestId

inductive Message where
  | refreshRequest (request : RequestId) (presentedToken : Option String)
  | issued (request : RequestId) (refreshToken : String)
  /-- Any response that is not ok. -/
  | refused (request : RequestId)
  deriving DecidableEq

structure ClientWorld where
  server : SessionPool
  network : List Message
  client : Client

section Engine

/-- Start a refresh unless one is in flight. -/
def refreshOnce (c : Client) : Client × List Message :=
  match c.inFlightRefresh with
  | some _ => (c, [])
  | none =>
    ({ c with inFlightRefresh := some c.nextRequest, nextRequest := c.nextRequest+1 },
      [.refreshRequest c.nextRequest c.refreshToken])

/-- Callers go on when the refresh has settled. -/
def settleCalls (succeeded : Bool) (calls : List CallPhase) : List CallPhase :=
  calls.filterMap fun
    | .awaitingRefresh retries => if succeeded && retries then some .retried else none
    | phase => some phase

def settle (c : Client) (succeeded : Bool) (refreshToken : Option String) : Client :=
  { c with refreshToken, inFlightRefresh := none, calls := settleCalls succeeded c.calls }

def onTokensIssued (c : Client) (refreshToken : String) : Client :=
  settle c true (some refreshToken)

/-- The token store is emptied; a cookie stays. -/
def onUnauthorized (c : Client) : Client :=
  settle c false (match c.transport with
    | .body => none
    | .cookie => c.refreshToken)

/-- The session is left untouched. -/
def onNetworkFailure (c : Client) : Client := settle c false c.refreshToken

/-- The answer to a refresh that is still in flight. -/
def receive (c : Client) : Message → Client
  | .issued request refreshToken =>
    if c.inFlightRefresh = some request then onTokensIssued c refreshToken else c
  | .refused request => if c.inFlightRefresh = some request then onUnauthorized c else c
  | .refreshRequest _ _ => c

end Engine

section Server

/-- The response that a record stands for. -/
def responseOf : SessionRecord → Option Message
  | .refreshed call _ refreshToken => some (.issued call.request refreshToken)
  | .rejected request => some (.refused request)
  | .revoked _ _ => none

/-- The responses of what was recorded since. -/
def responses (s s' : SessionShared) : List Message :=
  (s'.history.take (s'.history.length-s.history.length)).filterMap responseOf

def causeRequest : RevokeCause → Option RequestId
  | .logout => none
  | .reuse call | .inactive call => some call.request

/-- The request a server call answers. -/
def requestOf : SessionTask → Option RequestId
  | .bound call | .claim call | .resolvePrincipal call _ | .create call _
  | .handleClaimFailure call => some call.request
  | .revoke r | .revoking r _ _ => causeRequest r.cause
  | .issue _ | .findForLogout _ _ => none

/-- A call whose statement fails is answered with an error. -/
def failureResponses (p : SessionPool) (index : ℕ) (input : SessionInput) : List Message :=
  if input.fails then ((p.tasks[index]?.bind requestOf).map .refused).toList else []

end Server

inductive ClientAction where
  /-- Time passes. -/
  | tick (clock : Instant)
  | request
  /-- The application asks for a refresh. -/
  | refresh
  /-- A request is answered. -/
  | answer (index : ℕ) (unauthorized : Bool)
  /-- The fetch of a request fails. -/
  | failRequest (index : ℕ)
  | deliver (index : ℕ)
  | lose (index : ℕ)
  /-- The fetch of the refresh fails. -/
  | networkFailure
  | serve (index : ℕ) (input : SessionInput)

variable (cfg : TokenConfig)

/-- A message arrives; a refresh without a token is refused at once. -/
def arrive (w : ClientWorld) : Message → Option ClientWorld
  | .refreshRequest request none => some { w with network := .refused request :: w.network }
  | .refreshRequest request (some presentedToken) =>
    ((sessionSystem cfg).step w.server
      (.event (.refresh request presentedToken w.client.actor))).map fun server =>
        { w with server }
  | message => some { w with client := receive w.client message }

def startRefresh (w : ClientWorld) (c : Client) : ClientWorld :=
  { w with client := (refreshOnce c).1, network := (refreshOnce c).2 ++ w.network }

def Client.withCalls (c : Client) (calls : List CallPhase) : Client := { c with calls }

def answerRequest (w : ClientWorld) (index : ℕ) (unauthorized : Bool) : Option ClientWorld :=
  match w.client.calls[index]? with
  | some .sent =>
    some (if unauthorized then
      startRefresh w (w.client.withCalls (w.client.calls.set index (.awaitingRefresh true)))
    else { w with client := w.client.withCalls (w.client.calls.eraseIdx index) })
  | some .retried => some { w with client := w.client.withCalls (w.client.calls.eraseIdx index) }
  | _ => none

def clientStep (w : ClientWorld) : ClientAction → Option ClientWorld
  | .tick clock =>
    ((sessionSystem cfg).step w.server (.event (.tick clock))).map fun server => { w with server }
  | .request => some { w with client := w.client.withCalls (.sent :: w.client.calls) }
  | .refresh =>
    some (startRefresh w (w.client.withCalls (.awaitingRefresh false :: w.client.calls)))
  | .answer index unauthorized => answerRequest w index unauthorized
  | .failRequest index =>
    match w.client.calls[index]? with
    | some (.awaitingRefresh _) | none => none
    | _ => some { w with client := w.client.withCalls (w.client.calls.eraseIdx index) }
  | .deliver index =>
    match w.network[index]? with
    | none => none
    | some message => arrive cfg { w with network := w.network.eraseIdx index } message
  | .lose index => some { w with network := w.network.eraseIdx index }
  | .networkFailure =>
    if w.client.inFlightRefresh = none then none
    else some { w with client := onNetworkFailure w.client }
  | .serve index input =>
    ((sessionSystem cfg).step w.server (.resume index input)).map fun server =>
      { w with
        server
        network := responses w.server.shared server.shared ++
          failureResponses w.server index input ++ w.network }

/-- The stored row of the client's token can be rotated. -/
def Current (tokens : RefreshTokens) (refreshToken : String) : Prop :=
  ∃ r ∈ tokens.rows, r.tokenHash = cfg.hashToken refreshToken ∧ r.rotatedAt = none ∧
    r.revokedAt = none

def TokenCurrent (w : ClientWorld) : Prop :=
  ∀ refreshToken ∈ w.client.refreshToken, Current cfg w.server.shared.tokens refreshToken

/-- The client has a session, and nothing has happened yet. -/
structure SignedIn (w : ClientWorld) : Prop where
  tasks : w.server.tasks = []
  history : w.server.shared.history = []
  network : w.network = []
  idle : w.client.inFlightRefresh = none
  current : TokenCurrent cfg w

end Kurtar.ClientEngine

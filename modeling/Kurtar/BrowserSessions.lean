import Kurtar.CookieJars
import Kurtar.RefreshSessions

/-!
# Browser sessions

The auth routes over HTTP. Browsers send requests with the cookies that match,
the handlers run the calls of the token service statement by statement among
each other, and answers come back late or never. A browser has one jar for
all its tabs; a page that declares cookie transport wants no refresh token in
the body of its answers.
-/

namespace Kurtar.BrowserSessions

open KeyedTable IstanbulCalendar CookieJars RefreshSessions

section Transport

def actorSegment : PrincipalType → String
  | .consumer => "consumer"
  | .merchant => "merchant"
  | .admin => "admin"

def refreshCookieName (actor : PrincipalType) : String := "refreshToken_" ++ actorSegment actor

def refreshCookiePath (actor : PrincipalType) : Path := ["api", "auth", actorSegment actor]

def legacyRefreshCookie : String := "refreshToken"

def legacyRefreshCookiePath : Path := ["api", "auth"]

def cookieTransportValue : String := "cookie"

/-- The claims of an access token. -/
structure AuthPrincipal where
  id : String
  actor : PrincipalType
  deriving DecidableEq

structure IssuedTokens where
  accessToken : AuthPrincipal
  refreshToken : String
  refreshTokenExpiresAt : Instant
  deriving DecidableEq

/-- An answer: the headers that set cookies and what the JSON body holds. -/
structure Response where
  setCookies : List SetCookie
  accessToken : Option AuthPrincipal
  refreshToken : Option String
  deriving DecidableEq

def clearLegacyRefreshCookie : SetCookie := .clear legacyRefreshCookie legacyRefreshCookiePath

def setRefreshCookie (actor : PrincipalType) (token : String) (expiresAt : Instant) :
    List SetCookie :=
  [.set ⟨refreshCookieName actor, refreshCookiePath actor, token, expiresAt, true⟩,
    clearLegacyRefreshCookie]

def clearRefreshCookie (actor : PrincipalType) : List SetCookie :=
  [.clear (refreshCookieName actor) (refreshCookiePath actor), clearLegacyRefreshCookie]

def respondWithTokens (actor : PrincipalType) (result : IssuedTokens) (stripBody : Bool) :
    Response where
  setCookies := setRefreshCookie actor result.refreshToken result.refreshTokenExpiresAt
  accessToken := some result.accessToken
  refreshToken := if stripBody then none else some result.refreshToken

end Transport

section Routes

/-- The routes that mint, rotate or revoke a refresh token. -/
inductive Route where
  | verifyOtp
  | merchantLogin
  | adminLogin
  /-- A merchant's registration, under its own controller. -/
  | signup
  | refresh (actor : PrincipalType)
  | logout (actor : PrincipalType)
  deriving DecidableEq

def Route.actor : Route → PrincipalType
  | .verifyOtp => .consumer
  | .merchantLogin | .signup => .merchant
  | .adminLogin => .admin
  | .refresh actor | .logout actor => actor

def Route.path : Route → Path
  | .verifyOtp => ["api", "auth", "otp", "verify"]
  | .merchantLogin => ["api", "auth", "merchant", "login"]
  | .adminLogin => ["api", "auth", "admin", "login"]
  | .signup => ["api", "merchants", "signup"]
  | .refresh actor => ["api", "auth", actorSegment actor, "refresh"]
  | .logout actor => ["api", "auth", actorSegment actor, "logout"]

structure Request (β : Type) where
  browser : β
  route : Route
  /-- Same-site and with credentials; otherwise cookies neither go nor come. -/
  withCookies : Bool
  /-- The header `X-Client-Transport`. -/
  transport : Option String
  /-- The token in the body. -/
  refreshToken : Option String
  deriving DecidableEq

variable {β : Type}

def wantsCookieOnlyTransport (req : Request β) : Bool :=
  req.transport.any fun value => value.toLower = cookieTransportValue

/-- What a handler ends with. -/
inductive Outcome where
  | issued (result : IssuedTokens)
  | revoked
  /-- 400 and 401. -/
  | rejected
  | failed
  deriving DecidableEq

inductive Stage where
  | sent
  /-- The handler runs; a login has drawn the token it stores. -/
  | running (rawRefreshToken : String)
  | answered (outcome : Outcome)
  /-- The browser has the answer. -/
  | delivered (outcome : Outcome)
  deriving DecidableEq

/-- A request under way, with the cookies sent along. -/
structure Exchange (β : Type) where
  request : Request β
  cookies : List Cookie
  stage : Stage
  deriving DecidableEq

def Exchange.actor (e : Exchange β) : PrincipalType := e.request.route.actor

def Exchange.outcome (e : Exchange β) : Option Outcome :=
  match e.stage with
  | .answered outcome | .delivered outcome => some outcome
  | _ => none

def readRefreshCookie (cookies : List Cookie) (actor : PrincipalType) : Option String :=
  valueOf cookies (refreshCookieName actor)

/-- The empty string counts as no token. -/
def present (token : Option String) : Option String := token.filter (· ≠ "")

def Exchange.fromCookie (e : Exchange β) : Option String :=
  present (readRefreshCookie e.cookies e.actor)

/-- The token that a refresh or a logout goes by. -/
def Exchange.token (e : Exchange β) : Option String :=
  e.fromCookie.or (present e.request.refreshToken)

/-- The bound that the body's validation puts on a token. -/
def Request.valid (req : Request β) : Bool := req.refreshToken.all (·.length ≤ 256)

/-- What a handler is given beside its request. -/
structure Arrival where
  /-- The credentials of a login were the account's. -/
  accepted : Bool
  rawRefreshToken : String
  familyId : FamilyId
  principalId : String
  deriving DecidableEq

/-- A handler answers at once or calls the token service. -/
inductive Handling where
  | answer (outcome : Outcome)
  | call (event : SessionEvent)

def rotate (e : Exchange β) (request : RequestId) (actor : PrincipalType) : Handling :=
  match e.token with
  | none => .answer .rejected
  | some token => .call (.refresh request token actor)

def revoke (e : Exchange β) (actor : PrincipalType) : Handling :=
  match e.token with
  | none => .answer .revoked
  | some token => .call (.logout token actor)

def login (arrival : Arrival) (actor : PrincipalType) : Handling :=
  if arrival.accepted then
    .call (.login arrival.rawRefreshToken arrival.familyId actor arrival.principalId)
  else .answer .rejected

def handle (e : Exchange β) (request : RequestId) (arrival : Arrival) : Handling :=
  match e.request.route with
  | .refresh actor => if e.request.valid then rotate e request actor else .answer .rejected
  | .logout actor => if e.request.valid then revoke e actor else .answer .rejected
  | route => login arrival route.actor

def Exchange.stripBody (e : Exchange β) : Bool :=
  match e.request.route with
  | .refresh _ => wantsCookieOnlyTransport e.request || e.fromCookie.isSome
  | _ => wantsCookieOnlyTransport e.request

def Exchange.respond (e : Exchange β) : Outcome → Response
  | .issued result => respondWithTokens e.actor result e.stripBody
  | .revoked => ⟨clearRefreshCookie e.actor, none, none⟩
  | .rejected | .failed => ⟨[], none, none⟩

/-- What a call ends with when a statement was its last. -/
def callOutcome (cfg : TokenConfig) (rawRefreshToken : String) (input : SessionInput)
    (task : SessionTask) : Outcome :=
  if input.fails then .failed
  else
    match task with
    | .issue row =>
      .issued ⟨⟨row.principalId, row.principalType⟩, rawRefreshToken, row.expiresAt⟩
    | .create call stored =>
      .issued ⟨⟨stored.principalId, stored.principalType⟩, input.rawRefreshToken,
        call.now+cfg.refreshTtlMs⟩
    | .findForLogout _ _ => .revoked
    | .revoking r _ _ =>
      match r.cause with
      | .logout => .revoked
      | _ => .rejected
    | _ => .rejected

end Routes

section Steps

variable {β : Type}

/-- The server, the requests under way and every browser's jar. -/
structure World (β : Type) where
  shared : SessionShared
  /-- Calls of the token service, each with the exchange it is for. -/
  tasks : List (ℕ × SessionTask)
  exchanges : List (Exchange β)
  jars : β → Jar

def World.tokens (w : World β) : RefreshTokens := w.shared.tokens

def World.setStage (w : World β) (exchange : ℕ) (e : Exchange β) (stage : Stage) : World β :=
  { w with exchanges := w.exchanges.set exchange { e with stage } }

inductive Action (β : Type) where
  | tick (clock : Instant)
  | send (request : Request β)
  | arrive (exchange : ℕ) (arrival : Arrival)
  /-- A call takes its next statement. -/
  | statement (index : ℕ) (input : SessionInput)
  | deliver (exchange : ℕ)
  /-- A browser drops a cookie that has expired or that its user removes. -/
  | evict (browser : β) (identity : String × Path)

/-- The handler starts. -/
def arrive (cfg : TokenConfig) (w : World β) (exchange : ℕ) (e : Exchange β)
    (arrival : Arrival) : Option (World β) :=
  match handle e exchange arrival with
  | .answer outcome => some (w.setStage exchange e (.answered outcome))
  | .call event =>
    (startCall cfg w.shared event).map fun (shared, started) =>
      { w.setStage exchange e (.running arrival.rawRefreshToken) with
        shared
        tasks := started.map (Prod.mk exchange) ++ w.tasks }

/-- The handler goes on when its call has more statements, and answers otherwise. -/
def World.resumed (w : World β) (exchange : ℕ) (e : Exchange β) (outcome : Outcome)
    (rest : List SessionTask) : World β :=
  if rest = [] then w.setStage exchange e (.answered outcome) else w

def statement (cfg : TokenConfig) (w : World β) (index : ℕ) (input : SessionInput)
    (exchange : ℕ) (task : SessionTask) (e : Exchange β) (rawRefreshToken : String) :
    Option (World β) :=
  let others := w.tasks.eraseIdx index
  (resumeCall cfg w.shared (others.map Prod.snd) input task).map fun (shared, rest) =>
    { w.resumed exchange e (callOutcome cfg rawRefreshToken input task) rest with
      shared
      tasks := rest.map (Prod.mk exchange) ++ others }

/-- The answer reaches its browser. -/
def deliver [DecidableEq β] (w : World β) (exchange : ℕ) (e : Exchange β) (outcome : Outcome) :
    World β :=
  let jar := w.jars e.request.browser
  let headers := (e.respond outcome).setCookies
  { w.setStage exchange e (.delivered outcome) with
    jars := if e.request.withCookies then
      Function.update w.jars e.request.browser (receiveAll jar headers) else w.jars }

def step [DecidableEq β] (cfg : TokenConfig) (w : World β) : Action β → Option (World β)
  | .tick clock =>
    if w.shared.clock ≤ clock then some { w with shared := { w.shared with clock } } else none
  | .send request =>
    let cookies :=
      if request.withCookies then attached (w.jars request.browser) request.route.path else []
    some { w with exchanges := w.exchanges ++ [⟨request, cookies, .sent⟩] }
  | .arrive exchange arrival =>
    match w.exchanges[exchange]? with
    | none => none
    | some e => if e.stage = .sent then arrive cfg w exchange e arrival else none
  | .statement index input =>
    match w.tasks[index]? with
    | none => none
    | some (exchange, task) =>
      match w.exchanges[exchange]? with
      | none => none
      | some e =>
        match e.stage with
        | .running rawRefreshToken =>
          statement cfg w index input exchange task e rawRefreshToken
        | _ => none
  | .deliver exchange =>
    match w.exchanges[exchange]? with
    | none => none
    | some e =>
      match e.stage with
      | .answered outcome => some (deliver w exchange e outcome)
      | _ => none
  | .evict browser identity =>
    some { w with jars := Function.update w.jars browser (remove (w.jars browser) identity) }

/-- Nobody has logged in; a jar holds at most the cookie of former days. -/
structure Initial (w : World β) : Prop where
  tokens : w.shared.tokens = Table.empty
  history : w.shared.history = []
  tasks : w.tasks = []
  exchanges : w.exchanges = []
  jars : ∀ browser, ∀ c ∈ (w.jars browser).rows, c.name = legacyRefreshCookie

/-- The hash of the token that a statement stores, if it stores one. -/
def storedHash (cfg : TokenConfig) (input : SessionInput) : SessionTask → Option TokenHash
  | .issue row => some row.tokenHash
  | .create _ _ => some (cfg.hashToken input.rawRefreshToken)
  | _ => none

/-- A token is random: nobody has presented it before it is stored. -/
def Unguessed (cfg : TokenConfig) (w : World β) : Action β → Prop
  | .statement index input =>
    ∀ x ∈ w.tasks[index]?, ∀ tokenHash ∈ storedHash cfg input x.2,
      ∀ e ∈ w.exchanges, ∀ token ∈ e.token, cfg.hashToken token ≠ tokenHash
  | _ => True

end Steps

end Kurtar.BrowserSessions

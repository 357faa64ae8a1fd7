import Kurtar.IstanbulCalendar
import Kurtar.PushBatches
import Kurtar.Timelines

/-!
# Push notifications

A dispatch asks the policy who of its candidates may be notified, fetches their
live device tokens, sends one message to each, and disables the tokens that
the provider says are gone. Users, preferences and tokens change between its
queries, and other dispatches run at the same time.
-/

namespace Kurtar.PushDispatch

open KeyedTable GuardedRuns IstanbulCalendar PushBatches Timelines

section Policy

inductive NotificationKind where
  | OFFER_FAVORITE
  | OFFER_NEARBY
  | RESERVATION_CONFIRMED
  | RESERVATION_CANCELLED_REFUND
  | PICKUP_REMINDER
  | RATING_INVITE
  deriving DecidableEq

inductive PreferenceField where
  | favoritesEnabled
  | nearbyEnabled
  deriving DecidableEq

structure NotificationPolicyRule where
  transactional : Bool
  preferenceField : Option PreferenceField := none

def NOTIFICATION_POLICY_TABLE : NotificationKind → NotificationPolicyRule
  | .OFFER_FAVORITE => { transactional := false, preferenceField := some .favoritesEnabled }
  | .OFFER_NEARBY => { transactional := false, preferenceField := some .nearbyEnabled }
  | .RESERVATION_CONFIRMED => { transactional := true }
  | .RESERVATION_CANCELLED_REFUND => { transactional := true }
  | .PICKUP_REMINDER => { transactional := true }
  | .RATING_INVITE => { transactional := false }

inductive UserStatus where
  | ACTIVE
  | BANNED
  | DELETED
  deriving DecidableEq

/-- What the policy reads of a preferences row; hours are checked when they are set. -/
structure NotificationPreference where
  favoritesEnabled : Bool
  nearbyEnabled : Bool
  quietHoursStart : Option (Fin 24)
  quietHoursEnd : Option (Fin 24)
  deriving DecidableEq

/-- The preferences of a user without a row. -/
def DEFAULT_PREFERENCES : NotificationPreference where
  favoritesEnabled := true
  nearbyEnabled := false
  quietHoursStart := none
  quietHoursEnd := none

def NotificationPreference.field (prefs : NotificationPreference) : PreferenceField → Bool
  | .favoritesEnabled => prefs.favoritesEnabled
  | .nearbyEnabled => prefs.nearbyEnabled

/-- The hour of the day in Istanbul, three hours ahead. -/
def istanbulHourOfDay (date : Instant) : ℤ := (date+3*hourMs)%dayMs/hourMs

def isWithinQuietHours (quietHoursStart quietHoursEnd : Option (Fin 24)) (now : Instant) : Bool :=
  match quietHoursStart, quietHoursEnd with
  | some start, some stop =>
    if start = stop then false
    else
      let hour := istanbulHourOfDay now
      if start < stop then decide ((start : ℤ) ≤ hour ∧ hour < stop)
      else decide ((start : ℤ) ≤ hour ∨ hour < stop)
  | _, _ => false

inductive NotificationDenyReason where
  | USER_NOT_FOUND
  | USER_NOT_ACTIVE
  | PREFERENCE_DISABLED
  | QUIET_HOURS
  deriving DecidableEq

inductive NotificationPolicyDecision where
  | allowed
  | denied (reason : NotificationDenyReason)
  deriving DecidableEq

/-- What is decided from the users' rows; nothing yet for a candidate whose
preferences have to be read. -/
def decideByStatus (rule : NotificationPolicyRule) :
    Option UserStatus → Option NotificationPolicyDecision
  | none => some (.denied .USER_NOT_FOUND)
  | some status =>
    if status ≠ .ACTIVE then some (.denied .USER_NOT_ACTIVE)
    else if rule.transactional then some .allowed
    else none

/-- What is decided from the preferences. -/
def decideByPreferences (rule : NotificationPolicyRule) (now : Instant)
    (row : Option NotificationPreference) : NotificationPolicyDecision :=
  let prefs := row.getD DEFAULT_PREFERENCES
  if rule.preferenceField.any fun f => !prefs.field f then .denied .PREFERENCE_DISABLED
  else if isWithinQuietHours prefs.quietHoursStart prefs.quietHoursEnd now then
    .denied .QUIET_HOURS
  else .allowed

end Policy

section Processes

variable {UserId Data : Type} [DecidableEq UserId]

inductive Platform where
  | IOS
  | ANDROID
  deriving DecidableEq

structure PushToken (UserId : Type) where
  userId : UserId
  expoPushToken : String
  platform : Platform
  lastSeenAt : Instant
  disabledAt : Option Instant
  deriving DecidableEq

/-- The tables that dispatches read. -/
structure PushDb (UserId : Type) where
  users : UserId → Option UserStatus
  preferences : UserId → Option NotificationPreference
  tokens : Table (@PushToken.expoPushToken UserId)
  clock : Instant

/-- Upsert: a known token goes to its new owner and is live again. -/
def register (db : PushDb UserId) (userId : UserId) (expoPushToken : String)
    (platform : Platform) : PushDb UserId :=
  { db with
    tokens := (db.tokens.updateMany (·.expoPushToken = expoPushToken)
      (fun r => { r with userId, platform, lastSeenAt := db.clock, disabledAt := none })
        fun _ => rfl).insertNew ⟨userId, expoPushToken, platform, db.clock, none⟩ }

def remove (db : PushDb UserId) (userId : UserId) (expoPushToken : String) : PushDb UserId :=
  { db with
    tokens := db.tokens.deleteMany fun r => r.expoPushToken = expoPushToken ∧ r.userId = userId }

def disable (db : PushDb UserId) (invalidTokens : List String) : PushDb UserId :=
  { db with
    tokens := db.tokens.updateMany (·.expoPushToken ∈ invalidTokens)
      (fun r => { r with disabledAt := some db.clock }) fun _ => rfl }

structure PushMessageContent (Data : Type) where
  title : String
  body : String
  data : Option Data

structure NotifyUsersResult where
  candidates : ℕ
  denied : ℕ
  sent : ℕ
  deriving DecidableEq

def MAX_TOKENS_PER_DISPATCH : ℕ := 10000

/-- A list without its repetitions, each value where it comes first. -/
def uniqueIds (ids : List UserId) : List UserId := ids.reverse.dedup.reverse

/-- The message to one token. -/
def messageTo (buildMessage : UserId → PushMessageContent Data) (token : PushToken UserId) :
    PushMessage Data :=
  let content := buildMessage token.userId
  ⟨token.expoPushToken, content.title, content.body, content.data⟩

/-- A send: the tokens it was made for and the call of the provider. -/
structure Sending (UserId Data : Type) where
  allowedUserIds : List UserId
  tokens : List (PushToken UserId)
  batch : SendBatch Data

/-- How far a dispatch is, with what it has read. -/
inductive Phase (UserId Data : Type) where
  | checking (now : Instant)
  | choosing (now : Instant) (users : UserId → Option UserStatus)
  | allowing (allowedUserIds : List UserId)
  | sending (s : Sending UserId Data)
  | disabling (s : Sending UserId Data) (results : List PushSendResult)
  /-- With the send, if there was one. -/
  | done (s : Option (Sending UserId Data)) (result : NotifyUsersResult)

/-- What `notifyUsers` is called with. -/
structure Call (UserId Data : Type) where
  candidateUserIds : List UserId
  kind : NotificationKind
  buildMessage : UserId → PushMessageContent Data
  /-- The moment of the call. -/
  began : ℕ

structure Dispatch (UserId Data : Type) extends Call UserId Data where
  phase : Phase UserId Data

/-- The send of a dispatch that has fetched tokens. -/
def Phase.sent : Phase UserId Data → Option (Sending UserId Data)
  | .sending s | .disabling s _ => some s
  | .done s _ => s
  | .checking _ | .choosing _ _ | .allowing _ => none

/-- What the call has returned. -/
def Phase.result : Phase UserId Data → Option NotifyUsersResult
  | .done _ result => some result
  | _ => none

structure World (UserId Data : Type) where
  db : Timeline (PushDb UserId)
  dispatches : List (Dispatch UserId Data)

inductive Action (UserId Data : Type) where
  | setUser (userId : UserId) (status : Option UserStatus)
  | setPreferences (userId : UserId) (prefs : NotificationPreference)
  | register (userId : UserId) (expoPushToken : String) (platform : Platform)
  | remove (userId : UserId) (expoPushToken : String)
  | tick (clock : Instant)
  | notifyUsers (candidateUserIds : List UserId) (kind : NotificationKind)
      (buildMessage : UserId → PushMessageContent Data)
  | readUsers (dispatch : ℕ)
  | readPreferences (dispatch : ℕ)
  /-- The live tokens, in the order the database gives them. -/
  | readTokens (dispatch : ℕ) (rows : List (PushToken UserId))
  | answer (dispatch : ℕ) (index : ℕ) (answer : Answer)
  | collect (dispatch : ℕ)
  | disableTokens (dispatch : ℕ)

def World.change (w : World UserId Data) (db : PushDb UserId) : World UserId Data :=
  { w with db := w.db.change db }

def World.setPhase (w : World UserId Data) (dispatch : ℕ) (d : Dispatch UserId Data)
    (phase : Phase UserId Data) : World UserId Data :=
  { w with dispatches := w.dispatches.set dispatch { d with phase } }

/-- The allowed among the candidates, or the end when there are none. -/
def decided (d : Call UserId Data) (decisions : UserId → NotificationPolicyDecision) :
    Phase UserId Data :=
  let unique := uniqueIds d.candidateUserIds
  let allowedUserIds := unique.filter fun id => decisions id = .allowed
  if allowedUserIds = [] then .done none ⟨unique.length, unique.length-allowedUserIds.length, 0⟩
  else .allowing allowedUserIds

/-- After the users' rows: the preferences are read only when somebody's are needed. -/
def afterUsers (d : Call UserId Data) (now : Instant) (users : UserId → Option UserStatus) :
    Phase UserId Data :=
  let rule := NOTIFICATION_POLICY_TABLE d.kind
  if ∀ id ∈ uniqueIds d.candidateUserIds, decideByStatus rule (users id) ≠ none then
    decided d fun id => (decideByStatus rule (users id)).getD (.denied .USER_NOT_FOUND)
  else .choosing now users

def afterPreferences (d : Call UserId Data) (now : Instant)
    (users : UserId → Option UserStatus)
    (preferences : UserId → Option NotificationPreference) : Phase UserId Data :=
  let rule := NOTIFICATION_POLICY_TABLE d.kind
  decided d fun id =>
    (decideByStatus rule (users id)).getD (decideByPreferences rule now (preferences id))

/-- The tokens that the query asks for. -/
def liveTokens (db : PushDb UserId) (allowedUserIds : List UserId) : List (PushToken UserId) :=
  db.tokens.rows.filter fun r => r.userId ∈ allowedUserIds ∧ r.disabledAt = none

def denied (d : Call UserId Data) (allowedUserIds : List UserId) : ℕ :=
  (uniqueIds d.candidateUserIds).length-allowedUserIds.length

def afterTokens (d : Call UserId Data) (allowedUserIds : List UserId)
    (tokens : List (PushToken UserId)) : Phase UserId Data :=
  if tokens = [] then
    .done none ⟨(uniqueIds d.candidateUserIds).length, denied d allowedUserIds, 0⟩
  else
    let chunks := chunkMessages (tokens.map (messageTo d.buildMessage)) EXPO_CHUNK_SIZE
    .sending ⟨allowedUserIds, tokens,
      WorkQueue.start (min EXPO_CHUNK_CONCURRENCY chunks.length) (WorkQueue.fresh chunks)⟩

def invalidTokens (results : List PushSendResult) : List String :=
  (results.filter fun r => r.outcome = .token_invalid).map (·.toToken)

def finished (d : Call UserId Data) (s : Sending UserId Data) (results : List PushSendResult) :
    Phase UserId Data :=
  .done (some s) ⟨(uniqueIds d.candidateUserIds).length, denied d s.allowedUserIds,
    (results.filter fun r => r.outcome = .ok).length⟩

def afterResults (d : Call UserId Data) (s : Sending UserId Data)
    (results : List PushSendResult) : Phase UserId Data :=
  if invalidTokens results = [] then finished d s results else .disabling s results

def notifyUsers (w : World UserId Data) (candidateUserIds : List UserId) (kind : NotificationKind)
    (buildMessage : UserId → PushMessageContent Data) : World UserId Data :=
  { w with
    dispatches := w.dispatches ++ [⟨⟨candidateUserIds, kind, buildMessage, w.db.moment⟩,
      if uniqueIds candidateUserIds = [] then .done none ⟨0, 0, 0⟩ else .checking w.db.now.clock⟩] }

/-- What a dispatch does next, with the world after it. -/
def dispatchStep (w : World UserId Data) (dispatch : ℕ) (d : Dispatch UserId Data) :
    Action UserId Data → Option (World UserId Data)
  | .readUsers _ =>
    match d.phase with
    | .checking now => some (w.setPhase dispatch d (afterUsers d.toCall now w.db.now.users))
    | _ => none
  | .readPreferences _ =>
    match d.phase with
    | .choosing now users =>
      some (w.setPhase dispatch d (afterPreferences d.toCall now users w.db.now.preferences))
    | _ => none
  | .readTokens _ rows =>
    match d.phase with
    | .allowing allowedUserIds =>
      if rows.Perm (liveTokens w.db.now allowedUserIds) then
        some (w.setPhase dispatch d
          (afterTokens d.toCall allowedUserIds (rows.take MAX_TOKENS_PER_DISPATCH)))
      else none
    | _ => none
  | .answer _ index answer =>
    match d.phase with
    | .sending s =>
      (sendStep s.batch (index, answer)).map fun batch =>
        w.setPhase dispatch d (.sending { s with batch })
    | _ => none
  | .collect _ =>
    match d.phase with
    | .sending s =>
      (batchResult s.batch).map fun results => w.setPhase dispatch d (afterResults d.toCall s results)
    | _ => none
  | .disableTokens _ =>
    match d.phase with
    | .disabling s results =>
      some ((w.change (disable w.db.now (invalidTokens results))).setPhase dispatch d
        (finished d.toCall s results))
    | _ => none
  | _ => none

def step (w : World UserId Data) (a : Action UserId Data) : Option (World UserId Data) :=
  match a with
  | .setUser userId status =>
    some (w.change { w.db.now with users := Function.update w.db.now.users userId status })
  | .setPreferences userId prefs =>
    some (w.change
      { w.db.now with preferences := Function.update w.db.now.preferences userId (some prefs) })
  | .register userId expoPushToken platform =>
    some (w.change (register w.db.now userId expoPushToken platform))
  | .remove userId expoPushToken => some (w.change (remove w.db.now userId expoPushToken))
  | .tick clock =>
    if w.db.now.clock ≤ clock then some (w.change { w.db.now with clock }) else none
  | .notifyUsers candidateUserIds kind buildMessage =>
    some (notifyUsers w candidateUserIds kind buildMessage)
  | .readUsers dispatch | .readPreferences dispatch | .readTokens dispatch _
  | .answer dispatch _ _ | .collect dispatch | .disableTokens dispatch =>
    match w.dispatches[dispatch]? with
    | some d => dispatchStep w dispatch d a
    | none => none

/-- No dispatch has begun and every token is live. -/
structure Initial (w : World UserId Data) : Prop where
  past : w.db.past = []
  live : ∀ r ∈ w.db.now.tokens.rows, r.disabledAt = none
  dispatches : w.dispatches = []

end Processes

end Kurtar.PushDispatch

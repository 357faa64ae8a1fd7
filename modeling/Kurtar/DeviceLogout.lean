import Kurtar.SingleFlight

/-!
# Logout on the device

Logout unregisters the push token, revokes the session, deletes the stored
refresh token and then empties the memory, each after the step before it has
ended. The refresh of another request stores its tokens whenever its response
arrives, so the session is over when no such response comes in after the
deletion has been issued, unless a later refresh is refused.
-/

namespace Kurtar.DeviceLogout

open GuardedRuns RequestEngine SingleFlight

inductive Status where
  | loading | signedOut | signedIn
  deriving DecidableEq

/-- What has happened to the session. -/
inductive SessionEvent where
  /-- A refresh brought tokens. -/
  | issued
  | refused
  /-- Logout issued its deletion. -/
  | deleted
  deriving DecidableEq

structure Device where
  /-- The token store in memory. -/
  accessToken : Option ℕ
  refreshToken : Option ℕ
  /-- The stored refresh token. -/
  secureStore : Option ℕ
  /-- Writes and deletes under way, which complete in this order. -/
  secureOperations : List (Option ℕ)
  status : Status
  /-- The newest one first. -/
  events : List SessionEvent
  deriving DecidableEq

section Client

namespace Device

def setStoredRefreshToken (d : Device) (token : ℕ) : Device :=
  { d with secureOperations := d.secureOperations ++ [some token] }

def clearStoredRefreshToken (d : Device) : Device :=
  { d with secureOperations := d.secureOperations ++ [none] }

/-- What the secure store holds when all operations have completed. -/
def stored (d : Device) : Option ℕ := d.secureOperations.getLast?.getD d.secureStore

def signOutLocally (d : Device) : Device :=
  { d with accessToken := none, refreshToken := none, status := .signedOut }

end Device

def onTokensIssued (t : AuthTokens) (d : Device) : Device :=
  { d.setStoredRefreshToken t.refreshToken with
    accessToken := some t.accessToken
    refreshToken := some t.refreshToken
    events := .issued :: d.events }

/-- The listeners set the status. -/
def onUnauthorized (d : Device) : Device :=
  { d.clearStoredRefreshToken with
    accessToken := none
    refreshToken := none
    status := .signedOut
    events := .refused :: d.events }

def client : CreateClientOptions Device where
  getAccessToken := (·.accessToken)
  getRefreshToken := (·.refreshToken)
  onTokensIssued := onTokensIssued
  onUnauthorized := onUnauthorized

/-- The results about the engine hold of the client of the app. -/
theorem synchronous_client : Synchronous client :=
  ⟨fun _ _ => rfl, fun _ _ => rfl, fun _ => rfl, fun _ => rfl⟩

end Client

section Logout

inductive LogoutPhase where
  | notCalled
  /-- The push token is being unregistered. -/
  | unregistering (call : ℕ)
  /-- The server is asked to revoke the session. -/
  | revoking (call : ℕ)
  /-- The stored token is being deleted, after so many operations. -/
  | clearing (ahead : ℕ)
  | ended
  deriving DecidableEq

/-- Logout has issued its deletion. -/
def LogoutPhase.cleared : LogoutPhase → Bool
  | .clearing _ | .ended => true
  | _ => false

structure DeviceWorld where
  engine : Engine Device
  logout : LogoutPhase

namespace DeviceWorld

def device (w : DeviceWorld) : Device := w.engine.store

def withDevice (w : DeviceWorld) (d : Device) : DeviceWorld :=
  { w with engine := { w.engine with store := d } }

/-- Send a request of the logout. -/
def send (w : DeviceWorld) (phase : ℕ → LogoutPhase) : DeviceWorld :=
  ⟨request client w.engine, phase w.engine.calls.length⟩

/-- Issue the deletion of the stored token. -/
def clear (w : DeviceWorld) : DeviceWorld :=
  { w.withDevice
      { w.device.clearStoredRefreshToken with events := .deleted :: w.device.events } with
    logout := .clearing (w.device.secureOperations.length+1) }

/-- The oldest operation of the secure store completes. -/
def completeOperation (w : DeviceWorld) (value : Option ℕ) (rest : List (Option ℕ)) :
    DeviceWorld :=
  { w.withDevice { w.device with secureStore := value, secureOperations := rest } with
    logout := match w.logout with
      | .clearing ahead => .clearing (ahead-1)
      | phase => phase }

end DeviceWorld

inductive DeviceAction where
  /-- A request of the app, or its refresh, goes on. -/
  | engine (a : EngineAction)
  | completeOperation
  /-- Logout is called; a push token may be registered. -/
  | logout (registered : Bool)
  /-- What logout waits for has ended. -/
  | continueLogout

/-- The logout goes on; errors of its requests are ignored. -/
def continueLogout (w : DeviceWorld) : Option DeviceWorld :=
  match w.logout with
  | .unregistering call =>
    if w.engine.callPhase call = some .ended then some (w.send .revoking) else none
  | .revoking call => if w.engine.callPhase call = some .ended then some w.clear else none
  | .clearing 0 => some { w.withDevice w.device.signOutLocally with logout := .ended }
  | _ => none

def deviceStep (w : DeviceWorld) : DeviceAction → Option DeviceWorld
  | .engine .refresh => none
  | .engine a => (engineStep client w.engine a).map fun engine => { w with engine }
  | .completeOperation =>
    match w.device.secureOperations with
    | [] => none
    | value :: rest => some (w.completeOperation value rest)
  | .logout registered =>
    if w.logout = .notCalled then
      some (w.send (if registered then .unregistering else .revoking))
    else none
  | .continueLogout => continueLogout w

/-- The app is signed in and no request has been sent. -/
structure SignedIn (w : DeviceWorld) : Prop where
  engine : Created client w.engine
  idle : w.device.secureOperations = []
  status : w.device.status = .signedIn
  events : w.device.events = []
  logout : w.logout = .notCalled

/-- The session goes on neither in this run nor after the next start. -/
structure SignedOut (d : Device) : Prop where
  access : d.accessToken = none
  refresh : d.refreshToken = none
  stored : d.stored = none
  status : d.status = .signedOut

/-- The logout and all requests have ended. -/
def AllEnded (w : DeviceWorld) : Prop :=
  w.logout = .ended ∧ ∀ c ∈ w.engine.calls, c.phase = .ended

end Logout

section Effects

variable {w w' : DeviceWorld}

theorem stored_setStored (d : Device) (token : ℕ) :
    (d.setStoredRefreshToken token).stored = some token := by
  simp [Device.stored, Device.setStoredRefreshToken]

theorem stored_clearStored (d : Device) : d.clearStoredRefreshToken.stored = none := by
  simp [Device.stored, Device.clearStoredRefreshToken]

/-- Completing the oldest operation does not change the last value. -/
theorem stored_complete {d : Device} {value : Option ℕ} {rest : List (Option ℕ)}
    (h : d.secureOperations = value :: rest) :
    Device.stored { d with secureStore := value, secureOperations := rest } = d.stored := by
  simp [Device.stored, h, List.getLast?_cons]

/-- Steps of the engine write to the store when a response to a refresh arrives. -/
theorem engineStep_store {e e' : Engine Device} {a : EngineAction}
    (h : engineStep client e a = some e') : e'.store = e.store ∨
      ∃ refresh tokens, a = .deliver refresh ∧ e.phaseOf refresh = some (.answered tokens) ∧
        e'.store = (deliver client e refresh tokens).store := by
  cases engineStep_effect h with
  | request => exact .inl rfl
  | refresh => exact .inl refreshOnce_store
  | awaitRefresh _ _ => exact .inl refreshOnce_store
  | ended _ call => exact .inl rfl
  | resend _ _ => exact .inl rfl
  | serve tokens _ => exact .inl rfl
  | deliver hanswered => exact .inr ⟨_, _, rfl, hanswered, rfl⟩
  | networkFailure _ _ => exact .inl rfl
  | clearMemo _ => exact .inl rfl

/-- What a step does to the device and the logout. -/
inductive DeviceEffect (w : DeviceWorld) : DeviceAction → DeviceWorld → Prop
  | engine {a : EngineAction} {engine : Engine Device} (hstore : engine.store = w.device) :
    DeviceEffect w (.engine a) ⟨engine, w.logout⟩
  | issued {refresh : ℕ} {t : AuthTokens} {engine : Engine Device}
    (hanswered : w.engine.phaseOf refresh = some (.answered (some t)))
    (hstore : engine.store = onTokensIssued t w.device) :
    DeviceEffect w (.engine (.deliver refresh)) ⟨engine, w.logout⟩
  | refused {refresh : ℕ} {engine : Engine Device}
    (hstore : engine.store = onUnauthorized w.device) :
    DeviceEffect w (.engine (.deliver refresh)) ⟨engine, w.logout⟩
  | completeOperation {value : Option ℕ} {rest : List (Option ℕ)}
    (hoperations : w.device.secureOperations = value :: rest) :
    DeviceEffect w .completeOperation (w.completeOperation value rest)
  | send (a : DeviceAction) {phase : ℕ → LogoutPhase}
    (hphase : ∀ n, (phase n).cleared = false) : DeviceEffect w a (w.send phase)
  | clear : DeviceEffect w .continueLogout w.clear
  | signOut (hlogout : w.logout = .clearing 0) : DeviceEffect w .continueLogout
    { w.withDevice w.device.signOutLocally with logout := .ended }

theorem engine_effect {a : EngineAction} {engine : Engine Device}
    (h : engineStep client w.engine a = some engine) :
    DeviceEffect w (.engine a) ⟨engine, w.logout⟩ := by
  rcases engineStep_store h with hstore | ⟨refresh, tokens, rfl, hanswered, hstore⟩
  · exact .engine hstore
  · cases tokens with
    | none => exact .refused hstore
    | some t => exact .issued hanswered hstore

theorem continueLogout_effect (h : continueLogout w = some w') :
    DeviceEffect w .continueLogout w' := by
  unfold continueLogout at h
  split at h
  · split_ifs at h
    cases h
    exact .send _ fun _ => rfl
  · split_ifs at h
    cases h
    exact .clear
  · rename_i hlogout
    cases h
    exact .signOut hlogout
  · cases h

theorem deviceStep_effect {a : DeviceAction} (h : deviceStep w a = some w') :
    DeviceEffect w a w' := by
  unfold deviceStep at h
  split at h
  · cases h
  · obtain ⟨engine, hengine, rfl⟩ := Option.map_eq_some_iff.mp h
    exact engine_effect hengine
  · split at h
    · cases h
    · rename_i hoperations
      cases h
      exact .completeOperation hoperations
  · split_ifs at h
    · cases h
      exact .send _ fun _ => rfl
    · cases h
      exact .send _ fun _ => rfl
  · exact continueLogout_effect h

end Effects

section Finality

variable {w w' : DeviceWorld} {a : DeviceAction} {logout : LogoutPhase} {d : Device}

/-- The newest event of the session brought tokens. -/
def Revived (d : Device) : Prop := d.events.head? = some .issued

/-- What holds of the stored token once logout has issued its deletion, and of
the rest once it has ended. -/
structure Settled (logout : LogoutPhase) (d : Device) : Prop where
  stored : logout.cleared = true → (d.stored = none ↔ ¬ Revived d)
  memory : logout = .ended → ¬ Revived d → d.accessToken = none ∧ d.refreshToken = none
  status : logout = .ended → d.status = .signedOut

theorem settled_of_not_cleared (h : logout.cleared = false) : Settled logout d := by
  have hended : logout ≠ .ended := by
    intro heq
    rw [heq] at h
    cases h
  refine ⟨fun hcleared => ?_, fun heq => absurd heq hended, fun heq => absurd heq hended⟩
  rw [h] at hcleared
  cases hcleared

theorem revived_onTokensIssued (t : AuthTokens) (d : Device) : Revived (onTokensIssued t d) := rfl

theorem not_revived_onUnauthorized (d : Device) : ¬ Revived (onUnauthorized d) := by
  simp [Revived, onUnauthorized]

theorem Settled.issued (h : Settled logout d) (t : AuthTokens) :
    Settled logout (onTokensIssued t d) := by
  have hrevived := revived_onTokensIssued t d
  have hstored : (onTokensIssued t d).stored = some t.refreshToken :=
    stored_setStored d t.refreshToken
  refine ⟨fun _ => ?_, fun _ hnot => absurd hrevived hnot, h.status⟩
  simp [hrevived, hstored]

theorem settled_refused : Settled logout (onUnauthorized d) := by
  have hstored : (onUnauthorized d).stored = none := stored_clearStored d
  refine ⟨fun _ => ?_, fun _ _ => ⟨rfl, rfl⟩, fun _ => rfl⟩
  simp [not_revived_onUnauthorized, hstored]

theorem cleared_completeOperation (value : Option ℕ) (rest : List (Option ℕ)) :
    (w.completeOperation value rest).logout.cleared = w.logout.cleared := by
  cases hlogout : w.logout <;>
    simp [DeviceWorld.completeOperation, hlogout, LogoutPhase.cleared]

theorem ended_of_completeOperation {value : Option ℕ} {rest : List (Option ℕ)}
    (h : (w.completeOperation value rest).logout = .ended) : w.logout = .ended := by
  revert h
  cases hlogout : w.logout <;> simp [DeviceWorld.completeOperation, hlogout]

theorem settled_step (h : Settled w.logout w.device) (heffect : DeviceEffect w a w') :
    Settled w'.logout w'.device := by
  cases heffect with
  | @engine _ engine hstore =>
    change Settled w.logout engine.store
    rw [hstore]
    exact h
  | @issued _ t engine _ hstore =>
    change Settled w.logout engine.store
    rw [hstore]
    exact h.issued t
  | @refused _ engine hstore =>
    change Settled w.logout engine.store
    rw [hstore]
    exact settled_refused
  | @completeOperation value rest hoperations =>
    have hstored : (w.completeOperation value rest).device.stored = w.device.stored :=
      stored_complete hoperations
    refine ⟨fun hcleared => ?_, fun hended => h.memory (ended_of_completeOperation hended),
      fun hended => h.status (ended_of_completeOperation hended)⟩
    rw [cleared_completeOperation] at hcleared
    rw [hstored]
    exact h.stored hcleared
  | send _ hphase => exact settled_of_not_cleared (hphase _)
  | clear =>
    have hstored : w.clear.device.stored = none := stored_clearStored w.device
    have hnot : ¬ Revived w.clear.device := by simp [Revived, DeviceWorld.clear, DeviceWorld.device,
      DeviceWorld.withDevice]
    refine ⟨fun _ => by simp [hstored, hnot], fun hended => ?_, fun hended => ?_⟩
    · cases hended
    · cases hended
  | signOut hlogout =>
    refine ⟨fun _ => ?_, fun _ _ => ⟨rfl, rfl⟩, fun _ => rfl⟩
    exact h.stored (by rw [hlogout]; rfl)

theorem not_cleared_of_signedIn (h : SignedIn w) : w.logout.cleared = false := by
  rw [h.logout]
  rfl

theorem settled_of_reachable {ok : DeviceWorld → DeviceAction → Prop}
    (h : Reachable deviceStep ok SignedIn w) : Settled w.logout w.device :=
  h.invariant (I := fun w => Settled w.logout w.device)
    (fun _ hw => settled_of_not_cleared (not_cleared_of_signedIn hw))
    fun _ _ _ hs _ hstep => settled_step hs (deviceStep_effect hstep)

theorem Settled.signedOut_iff (h : Settled .ended d) : SignedOut d ↔ ¬ Revived d := by
  have hstored := h.stored rfl
  refine ⟨fun hout => hstored.mp hout.stored, fun hnot => ?_⟩
  obtain ⟨haccess, hrefresh⟩ := h.memory rfl hnot
  exact ⟨haccess, hrefresh, hstored.mpr hnot, h.status rfl⟩

/-- No refresh brings tokens once logout has issued its deletion. -/
def Quiet (w : DeviceWorld) : DeviceAction → Prop
  | .engine (.deliver refresh) =>
    w.logout.cleared = true → (w.engine.phaseOf refresh).bind (·.tokens) = none
  | _ => True

instance (w : DeviceWorld) : DecidablePred (Quiet w)
  | .engine (.deliver refresh) => inferInstanceAs (Decidable
      (w.logout.cleared = true → (w.engine.phaseOf refresh).bind (·.tokens) = none))
  | .engine .request | .engine .refresh | .engine (.answer _ _) | .engine (.failRequest _)
  | .engine (.serve _ _) | .engine (.failRefresh _) | .engine (.clearMemo _)
  | .engine (.resume _) | .completeOperation | .logout _ | .continueLogout => isTrue trivial

theorem notRevived_step (h : w.logout.cleared = true → ¬ Revived w.device) (hok : Quiet w a)
    (heffect : DeviceEffect w a w') (hcleared : w'.logout.cleared = true) :
    ¬ Revived w'.device := by
  cases heffect with
  | @engine _ engine hstore =>
    change ¬ Revived engine.store
    rw [hstore]
    exact h hcleared
  | issued hanswered _ =>
    have htokens := hok hcleared
    rw [hanswered] at htokens
    cases htokens
  | @refused _ engine hstore =>
    change ¬ Revived engine.store
    rw [hstore]
    exact not_revived_onUnauthorized w.device
  | completeOperation _ =>
    rw [cleared_completeOperation] at hcleared
    exact h hcleared
  | @send _ phase hphase =>
    have hnot : (w.send phase).logout.cleared = false := hphase _
    rw [hnot] at hcleared
    cases hcleared
  | clear => simp [Revived, DeviceWorld.clear, DeviceWorld.device, DeviceWorld.withDevice]
  | signOut hlogout => exact h (by rw [hlogout]; rfl)

theorem notRevived_of_reachable (h : Reachable deviceStep Quiet SignedIn w) :
    w.logout.cleared = true → ¬ Revived w.device := by
  refine h.invariant (I := fun w => w.logout.cleared = true → ¬ Revived w.device) ?_ ?_
  · intro w hw hcleared
    rw [not_cleared_of_signedIn hw] at hcleared
    cases hcleared
  · intro w a w' hw hok hstep
    exact notRevived_step hw hok (deviceStep_effect hstep)

/-- After a logout the session is over unless the last that happened to it was
a refresh that brought tokens; so it is over in the runs in which no refresh
does once logout has issued its deletion. -/
theorem logout_final_when_quiet (w : DeviceWorld) :
    (Reachable deviceStep anyStep SignedIn w → w.logout = .ended →
      (SignedOut w.device ↔ ¬ Revived w.device)) ∧
    (Reachable deviceStep Quiet SignedIn w → w.logout = .ended → SignedOut w.device) := by
  refine ⟨fun hw hended => ?_, fun hw hended => ?_⟩
  · have hsettled := settled_of_reachable hw
    rw [hended] at hsettled
    exact hsettled.signedOut_iff
  · have hsettled := settled_of_reachable hw
    rw [hended] at hsettled
    exact hsettled.signedOut_iff.mpr (notRevived_of_reachable hw (by rw [hended]; rfl))

def sampleStart : DeviceWorld where
  engine := ⟨⟨some 1, some 2, some 2, [], .signedIn, []⟩, none, [], [], 2⟩
  logout := .notCalled

theorem sampleStart_signedIn : SignedIn sampleStart where
  engine := ⟨rfl, rfl, rfl, fun _ h => by cases h; decide, fun _ h => by cases h; decide⟩
  idle := rfl
  status := rfl
  events := rfl
  logout := rfl

/-- A request and the one that unregisters the push token share a refresh, and
the request that revokes the session is lost. -/
def quietRun : List DeviceAction :=
  [.engine .request, .logout true, .engine (.answer 0 true), .engine (.answer 1 true),
    .engine (.serve 0 (some ⟨3, 4⟩)), .engine (.deliver 0), .engine (.clearMemo 0),
    .engine (.resume 0), .engine (.resume 1), .engine (.answer 0 false),
    .engine (.answer 1 false), .continueLogout, .engine (.failRequest 2), .continueLogout,
    .completeOperation, .completeOperation, .continueLogout]

theorem logout_final_when_quiet_sample :
    SignedOut (after deviceStep sampleStart quietRun).device :=
  (logout_final_when_quiet _).2
    (reachable_after_guarded (.start sampleStart_signedIn) (by decide +kernel) (by decide +kernel))
    (by decide +kernel)

/-- The response to a refresh comes in when the logout has ended. -/
def lateRun : List DeviceAction :=
  [.engine .request, .engine (.answer 0 true), .engine (.serve 0 (some ⟨3, 4⟩)), .logout false,
    .engine (.answer 1 false), .continueLogout, .completeOperation, .continueLogout,
    .engine (.deliver 0), .engine (.clearMemo 0), .engine (.resume 0), .engine (.answer 0 false),
    .completeOperation]

theorem logout_final_counterexample : ∃ w, Reachable deviceStep anyStep SignedIn w ∧
    AllEnded w ∧ w.device.secureOperations = [] ∧ w.device.accessToken = some 3 ∧
    w.device.secureStore = some 4 ∧ ¬ SignedOut w.device := by
  refine ⟨after deviceStep sampleStart lateRun,
    reachable_after (.start sampleStart_signedIn) (by decide +kernel),
    ⟨by decide +kernel, by decide +kernel⟩, by decide +kernel, by decide +kernel,
    by decide +kernel, fun hout => ?_⟩
  have haccess : (after deviceStep sampleStart lateRun).device.accessToken = some 3 := by
    decide +kernel
  rw [hout.access] at haccess
  cases haccess

end Finality

end Kurtar.DeviceLogout

import Kurtar.GuardedRuns

/-!
# The request engine and its shared refresh

Requests answered with 401 and manual refreshes ask for one refresh at a time.
They share its promise, which a memo keeps until it has settled. The engine
runs over any token store, which it reads and writes through the callbacks of
the application. Responses arrive in any order, and every fetch may fail.
-/

namespace Kurtar.RequestEngine

open GuardedRuns

/-- Tokens are numbered in the order in which the server issues them. With
cookies, the refresh token is the one in the browser's jar. -/
structure AuthTokens where
  accessToken : ℕ
  refreshToken : ℕ
  deriving DecidableEq

/-- How the engine reads and writes the token store. -/
structure CreateClientOptions (σ : Type*) where
  getAccessToken : σ → Option ℕ
  getRefreshToken : σ → Option ℕ
  onTokensIssued : AuthTokens → σ → σ
  onUnauthorized : σ → σ

inductive RefreshPhase where
  | sent
  /-- A response is under way; without tokens when it is not ok. -/
  | answered (tokens : Option AuthTokens)
  /-- The callbacks have run after so many requests; the memo is still there. -/
  | ending (tokens : Option AuthTokens) (earlier : ℕ)
  | settled (tokens : Option AuthTokens)
  deriving DecidableEq

structure Refresh where
  /-- What it presents to the server. -/
  refreshToken : Option ℕ
  phase : RefreshPhase
  deriving DecidableEq

inductive CallPhase where
  | sent
  | awaiting (refresh : ℕ)
  | resent
  | ended
  deriving DecidableEq

structure Call where
  /-- The access tokens it was sent with, the first one first. -/
  sends : List (Option ℕ)
  phase : CallPhase
  deriving DecidableEq

structure Engine (σ : Type*) where
  store : σ
  inFlightRefresh : Option ℕ
  refreshes : List Refresh
  calls : List Call
  /-- The newest token known to have been issued. -/
  issued : ℕ

variable {σ : Type*}

section Phases

namespace RefreshPhase

/-- The request is on its way, or its response. -/
def InFlight : RefreshPhase → Prop
  | .sent | .answered _ => True
  | .ending _ _ | .settled _ => False

/-- The memo still holds the promise. -/
def Pending : RefreshPhase → Prop
  | .settled _ => False
  | _ => True

def tokens : RefreshPhase → Option AuthTokens
  | .sent => none
  | .answered tokens | .ending tokens _ | .settled tokens => tokens

/-- The response to this request may arrive. Once the callbacks have run, the
memo is cleared before a fetch that starts now has a response. -/
def admits (call : ℕ) : RefreshPhase → Bool
  | .sent | .answered _ => true
  | .ending _ earlier => call < earlier
  | .settled _ => false

end RefreshPhase

/-- The access token of its first send. -/
def Call.first (c : Call) : Option ℕ := c.sends.head?.join

end Phases

section Operations

namespace Engine

def setPhase (e : Engine σ) (refresh : ℕ) (phase : RefreshPhase) : Engine σ :=
  { e with refreshes := e.refreshes.modify refresh fun r => { r with phase } }

def setCall (e : Engine σ) (call : ℕ) (phase : CallPhase) : Engine σ :=
  { e with calls := e.calls.modify call fun c => { c with phase } }

def phaseOf (e : Engine σ) (refresh : ℕ) : Option RefreshPhase :=
  (e.refreshes[refresh]?).map (·.phase)

def callPhase (e : Engine σ) (call : ℕ) : Option CallPhase := (e.calls[call]?).map (·.phase)

def admits (e : Engine σ) (call : ℕ) : Bool :=
  match e.inFlightRefresh with
  | none => true
  | some refresh => ((e.phaseOf refresh).map (·.admits call)).getD true

end Engine

variable (options : CreateClientOptions σ)

/-- Present the stored refresh token. -/
def performRefresh (e : Engine σ) : Engine σ :=
  { e with refreshes := e.refreshes ++ [⟨options.getRefreshToken e.store, .sent⟩] }

/-- The refresh in flight, or a new one. -/
def refreshOnce (e : Engine σ) : Engine σ × ℕ :=
  match e.inFlightRefresh with
  | some refresh => (e, refresh)
  | none =>
    ({ performRefresh options e with inFlightRefresh := some e.refreshes.length },
      e.refreshes.length)

def request (e : Engine σ) : Engine σ :=
  { e with calls := e.calls ++ [⟨[options.getAccessToken e.store], .sent⟩] }

/-- A request answered with 401 waits for the refresh. -/
def awaitRefresh (e : Engine σ) (call : ℕ) : Engine σ :=
  (refreshOnce options e).1.setCall call (.awaiting (refreshOnce options e).2)

/-- The second send carries the token that the refresh brought. -/
def resend (e : Engine σ) (call : ℕ) (tokens : AuthTokens) : Engine σ :=
  { e with
    calls := e.calls.modify call fun c => ⟨c.sends ++ [some tokens.accessToken], .resent⟩ }

/-- The server answers a refresh. -/
def serve (e : Engine σ) (refresh : ℕ) (tokens : Option AuthTokens) : Engine σ :=
  { e.setPhase refresh (.answered tokens) with
    issued := (tokens.map fun t => max t.accessToken t.refreshToken).elim e.issued
      (max e.issued) }

/-- The response to a refresh has arrived. -/
def deliver (e : Engine σ) (refresh : ℕ) (tokens : Option AuthTokens) : Engine σ :=
  { e.setPhase refresh (.ending tokens e.calls.length) with
    store := match tokens with
      | some t => options.onTokensIssued t e.store
      | none => options.onUnauthorized e.store }

/-- The fetch of a refresh has failed; the session state is left untouched. -/
def networkFailure (e : Engine σ) (refresh : ℕ) : Engine σ :=
  e.setPhase refresh (.ending none e.calls.length)

/-- The promise settles and the memo is cleared. -/
def clearMemo (e : Engine σ) (refresh : ℕ) (tokens : Option AuthTokens) : Engine σ :=
  { e.setPhase refresh (.settled tokens) with inFlightRefresh := none }

inductive EngineAction where
  | request
  /-- A manual refresh. -/
  | refresh
  /-- The response to a request, to either send of it. -/
  | answer (call : ℕ) (unauthorized : Bool)
  /-- The fetch of a request fails. -/
  | failRequest (call : ℕ)
  | serve (refresh : ℕ) (tokens : Option AuthTokens)
  | deliver (refresh : ℕ)
  | failRefresh (refresh : ℕ)
  | clearMemo (refresh : ℕ)
  /-- The refresh that the request waits for has settled. -/
  | resume (call : ℕ)

def engineStep (e : Engine σ) : EngineAction → Option (Engine σ)
  | .request => some (request options e)
  | .refresh => some (refreshOnce options e).1
  | .answer call unauthorized =>
    match e.callPhase call with
    | some .sent =>
      if e.admits call then
        some (if unauthorized then awaitRefresh options e call else e.setCall call .ended)
      else none
    | some .resent => some (e.setCall call .ended)
    | _ => none
  | .failRequest call =>
    match e.callPhase call with
    | some .sent | some .resent => some (e.setCall call .ended)
    | _ => none
  | .serve refresh tokens =>
    match e.phaseOf refresh with
    | some .sent => some (serve e refresh tokens)
    | _ => none
  | .deliver refresh =>
    match e.phaseOf refresh with
    | some (.answered tokens) => some (deliver options e refresh tokens)
    | _ => none
  | .failRefresh refresh =>
    match e.phaseOf refresh with
    | some .sent | some (.answered _) => some (networkFailure e refresh)
    | _ => none
  | .clearMemo refresh =>
    match e.phaseOf refresh with
    | some (.ending tokens _) => some (clearMemo e refresh tokens)
    | _ => none
  | .resume call =>
    match e.callPhase call with
    | some (.awaiting refresh) =>
      match e.phaseOf refresh with
      | some (.settled (some tokens)) => some (resend e call tokens)
      | some (.settled none) => some (e.setCall call .ended)
      | _ => none
    | _ => none

/-- A new engine over a store whose tokens have been issued. -/
structure Created (e : Engine σ) : Prop where
  memo : e.inFlightRefresh = none
  refreshes : e.refreshes = []
  calls : e.calls = []
  access_le : ∀ m ∈ options.getAccessToken e.store, m ≤ e.issued
  refresh_le : ∀ v ∈ options.getRefreshToken e.store, v ≤ e.issued

end Operations

section Lookups

variable {options : CreateClientOptions σ} {e : Engine σ}

theorem phaseOf_setPhase (refresh r : ℕ) (phase : RefreshPhase) :
    (e.setPhase refresh phase).phaseOf r =
      if r = refresh then (e.phaseOf r).map fun _ => phase else e.phaseOf r := by
  simp only [Engine.phaseOf, Engine.setPhase, List.getElem?_modify]
  by_cases hr : refresh = r
  · simp [hr, Function.comp_def]
  · simp [hr, Ne.symm hr]

theorem phaseOf_lt {r : ℕ} {phase : RefreshPhase} (h : e.phaseOf r = some phase) :
    r < e.refreshes.length := by
  obtain ⟨x, hx, -⟩ := Option.map_eq_some_iff.mp h
  exact (List.getElem?_eq_some_iff.mp hx).1

variable (options e) in
theorem refreshOnce_eq : (e.inFlightRefresh = some (refreshOnce options e).2 ∧
      (refreshOnce options e).1 = e) ∨
    (e.inFlightRefresh = none ∧ (refreshOnce options e).2 = e.refreshes.length ∧
      (refreshOnce options e).1 =
        { performRefresh options e with inFlightRefresh := some e.refreshes.length }) := by
  unfold refreshOnce
  cases hmemo : e.inFlightRefresh with
  | none => exact .inr ⟨rfl, rfl, rfl⟩
  | some r => exact .inl ⟨rfl, rfl⟩

variable (options e) in
theorem refreshOnce_memo :
    (refreshOnce options e).1.inFlightRefresh = some (refreshOnce options e).2 := by
  rcases refreshOnce_eq options e with ⟨hmemo, he⟩ | ⟨-, hlength, he⟩
  · rw [he, hmemo]
  · rw [he, hlength]

theorem phaseOf_performRefresh (r : ℕ) : (performRefresh options e).phaseOf r =
    if r = e.refreshes.length then some .sent else e.phaseOf r := by
  simp only [Engine.phaseOf, performRefresh, List.getElem?_append]
  rcases lt_trichotomy r e.refreshes.length with hr | hr | hr
  · simp [hr, hr.ne]
  · simp [hr]
  · have hsub : r-e.refreshes.length ≠ 0 := by omega
    simp [hr.not_gt, hr.ne', hsub]

/-- The phases after a new refresh has started. -/
theorem phaseOf_performRefresh_some {r : ℕ} {phase : RefreshPhase}
    (h : (performRefresh options e).phaseOf r = some phase) :
    e.phaseOf r = some phase ∨ phase = .sent := by
  rw [phaseOf_performRefresh] at h
  split_ifs at h
  · exact .inr (Option.some.inj h).symm
  · exact .inl h

end Lookups

section Steps

variable {options : CreateClientOptions σ} {e e' : Engine σ} {a : EngineAction}

variable (options e) in
/-- What a step does. -/
inductive StepEffect : EngineAction → Engine σ → Prop
  | request : StepEffect .request (request options e)
  | refresh : StepEffect .refresh (refreshOnce options e).1
  | awaitRefresh {call : ℕ} {unauthorized : Bool} (hsent : e.callPhase call = some .sent)
    (hadmits : e.admits call = true) :
    StepEffect (.answer call unauthorized) (awaitRefresh options e call)
  | ended (a : EngineAction) (call : ℕ) : StepEffect a (e.setCall call .ended)
  | resend {call refresh : ℕ} {tokens : AuthTokens}
    (hawaiting : e.callPhase call = some (.awaiting refresh))
    (hsettled : e.phaseOf refresh = some (.settled (some tokens))) :
    StepEffect (.resume call) (resend e call tokens)
  | serve {refresh : ℕ} (tokens : Option AuthTokens) (hsent : e.phaseOf refresh = some .sent) :
    StepEffect (.serve refresh tokens) (serve e refresh tokens)
  | deliver {refresh : ℕ} {tokens : Option AuthTokens}
    (hanswered : e.phaseOf refresh = some (.answered tokens)) :
    StepEffect (.deliver refresh) (deliver options e refresh tokens)
  | networkFailure {refresh : ℕ} {phase : RefreshPhase} (hphase : e.phaseOf refresh = some phase)
    (hflight : phase.InFlight) : StepEffect (.failRefresh refresh) (networkFailure e refresh)
  | clearMemo {refresh earlier : ℕ} {tokens : Option AuthTokens}
    (hending : e.phaseOf refresh = some (.ending tokens earlier)) :
    StepEffect (.clearMemo refresh) (clearMemo e refresh tokens)

theorem engineStep_effect (h : engineStep options e a = some e') : StepEffect options e a e' := by
  cases a with
  | request =>
    cases h
    exact .request
  | refresh =>
    cases h
    exact .refresh
  | answer call unauthorized =>
    simp only [engineStep] at h
    split at h
    · rename_i hsent
      split at h
      · rename_i hadmits
        cases unauthorized
        · cases h
          exact .ended _ call
        · cases h
          exact .awaitRefresh hsent hadmits
      · cases h
    · cases h
      exact .ended _ call
    · cases h
  | failRequest call =>
    simp only [engineStep] at h
    split at h
    · cases h
      exact .ended _ call
    · cases h
      exact .ended _ call
    · cases h
  | serve refresh tokens =>
    simp only [engineStep] at h
    split at h
    · rename_i hsent
      cases h
      exact .serve tokens hsent
    · cases h
  | deliver refresh =>
    simp only [engineStep] at h
    split at h
    · rename_i hanswered
      cases h
      exact .deliver hanswered
    · cases h
  | failRefresh refresh =>
    simp only [engineStep] at h
    split at h
    · rename_i hphase
      cases h
      exact .networkFailure hphase trivial
    · rename_i hphase
      cases h
      exact .networkFailure hphase trivial
    · cases h
  | clearMemo refresh =>
    simp only [engineStep] at h
    split at h
    · rename_i hending
      cases h
      exact .clearMemo hending
    · cases h
  | resume call =>
    simp only [engineStep] at h
    split at h
    · rename_i hawaiting
      split at h
      · rename_i hsettled
        cases h
        exact .resend hawaiting hsettled
      · cases h
        exact .ended _ call
      · cases h
    · cases h

end Steps

section Memo

variable {options : CreateClientOptions σ} {e e' : Engine σ} {a : EngineAction}

/-- The memo holds the one refresh that has not settled. -/
def Memoized (e : Engine σ) : Prop :=
  ∀ r, e.inFlightRefresh = some r ↔ ∃ phase, e.phaseOf r = some phase ∧ phase.Pending

theorem memoized_created (h : Created options e) : Memoized e := by
  intro r
  simp [h.memo, h.refreshes, Engine.phaseOf]

theorem Memoized.congr (h : Memoized e) (hmemo : e'.inFlightRefresh = e.inFlightRefresh)
    (hrefreshes : e'.refreshes = e.refreshes) : Memoized e' := by
  intro r
  rw [hmemo, Engine.phaseOf, hrefreshes]
  exact h r

theorem Memoized.not_pending {r : ℕ} {phase : RefreshPhase} (h : Memoized e)
    (hmemo : e.inFlightRefresh = none) (hphase : e.phaseOf r = some phase) : ¬ phase.Pending := by
  intro hpending
  have hsome := (h r).mpr ⟨phase, hphase, hpending⟩
  rw [hmemo] at hsome
  cases hsome

variable (options) in
theorem Memoized.refreshOnce (h : Memoized e) : Memoized (refreshOnce options e).1 := by
  rcases refreshOnce_eq options e with ⟨-, he⟩ | ⟨hmemo, -, he⟩
  · rw [he]
    exact h
  rw [he]
  intro r
  change some e.refreshes.length = some r ↔
    ∃ phase, (performRefresh options e).phaseOf r = some phase ∧ phase.Pending
  rw [phaseOf_performRefresh]
  by_cases hr : r = e.refreshes.length
  · simp [hr, RefreshPhase.Pending]
  · have hsettled := (h r).not.mp (by simp [hmemo])
    simpa [hr, Ne.symm hr] using hsettled

/-- A refresh that has not settled goes on. -/
theorem Memoized.setPhase {refresh : ℕ} {phase : RefreshPhase} (phase' : RefreshPhase)
    (h : Memoized e) (hphase : e.phaseOf refresh = some phase) (hpending : phase.Pending)
    (hpending' : phase'.Pending) : Memoized (e.setPhase refresh phase') := by
  intro r
  change e.inFlightRefresh = some r ↔ _
  rw [phaseOf_setPhase]
  by_cases hr : r = refresh
  · have hmemo := (h refresh).mpr ⟨phase, hphase, hpending⟩
    simp [hr, hphase, hmemo, hpending']
  · rw [if_neg hr]
    exact h r

theorem Memoized.clearMemo {refresh earlier : ℕ} {tokens : Option AuthTokens} (h : Memoized e)
    (hending : e.phaseOf refresh = some (.ending tokens earlier)) :
    Memoized (clearMemo e refresh tokens) := by
  intro r
  change none = some r ↔ ∃ phase, (e.setPhase refresh (.settled tokens)).phaseOf r = some phase ∧ _
  rw [phaseOf_setPhase]
  by_cases hr : r = refresh
  · simp [hr, hending, RefreshPhase.Pending]
  · have hmemo := (h refresh).mpr ⟨_, hending, trivial⟩
    have hsettled := (h r).not.mp (by simp [hmemo, Ne.symm hr])
    simpa [hr] using hsettled

theorem RefreshPhase.InFlight.pending {phase : RefreshPhase} (h : phase.InFlight) :
    phase.Pending := by
  cases phase <;> trivial

theorem memoized_step (h : Memoized e) (heffect : StepEffect options e a e') : Memoized e' := by
  cases heffect with
  | request => exact h.congr rfl rfl
  | refresh => exact h.refreshOnce options
  | awaitRefresh _ _ => exact (h.refreshOnce options).congr rfl rfl
  | ended _ call => exact h.congr rfl rfl
  | resend _ _ => exact h.congr rfl rfl
  | serve tokens hsent => exact (h.setPhase (.answered tokens) hsent trivial trivial).congr rfl rfl
  | deliver hanswered => exact (h.setPhase (.ending _ _) hanswered trivial trivial).congr rfl rfl
  | networkFailure hphase hflight =>
    exact h.setPhase (.ending _ _) hphase hflight.pending trivial
  | clearMemo hending => exact h.clearMemo hending

theorem memoized_of_reachable {ok : Engine σ → EngineAction → Prop}
    (h : Reachable (engineStep options) ok (Created options) e) : Memoized e :=
  h.invariant (fun _ => memoized_created) fun _ _ _ hs _ hstep =>
    memoized_step hs (engineStep_effect hstep)

/-- No two refreshes that have not settled. -/
theorem Memoized.unique {r s : ℕ} {phase phase' : RefreshPhase} (h : Memoized e)
    (hr : e.phaseOf r = some phase) (hpending : phase.Pending) (hs : e.phaseOf s = some phase')
    (hpending' : phase'.Pending) : r = s := by
  have hmemo := (h r).mpr ⟨phase, hr, hpending⟩
  have hmemo' := (h s).mpr ⟨phase', hs, hpending'⟩
  rw [hmemo] at hmemo'
  exact Option.some.inj hmemo'

end Memo

section Sends

variable {options : CreateClientOptions σ} {e e' : Engine σ} {a : EngineAction}

/-- How often a request has been sent. -/
def Call.WellSent (c : Call) : Prop :=
  match c.phase with
  | .sent | .awaiting _ => c.sends.length = 1
  | .resent => c.sends.length = 2
  | .ended => c.sends.length ≤ 2

theorem Call.WellSent.le_two {c : Call} (h : c.WellSent) : c.sends.length ≤ 2 := by
  unfold Call.WellSent at h
  split at h <;> omega

def WellSent (e : Engine σ) : Prop := ∀ c ∈ e.calls, c.WellSent

/-- One call of the list has changed. -/
theorem exists_of_mem_modify {α : Type*} {l : List α} {i : ℕ} {f : α → α} {y : α}
    (h : y ∈ l.modify i f) : y ∈ l ∨ ∃ x, l[i]? = some x ∧ y = f x := by
  obtain ⟨j, hj⟩ := List.mem_iff_getElem?.mp h
  rw [List.getElem?_modify] at hj
  obtain ⟨x, hx, hy⟩ := Option.map_eq_some_iff.mp hj
  by_cases hij : i = j
  · exact .inr ⟨x, hij ▸ hx, by simpa [hij] using hy.symm⟩
  · rw [if_neg hij] at hy
    exact .inl (hy ▸ List.mem_of_getElem? hx)

theorem WellSent.setCall {call : ℕ} {phase : CallPhase} (h : WellSent e)
    (hcall : ∀ c, e.calls[call]? = some c → c.WellSent → ({ c with phase } : Call).WellSent) :
    WellSent (e.setCall call phase) := by
  intro c hc
  rcases exists_of_mem_modify hc with hc | ⟨c, hc', rfl⟩
  · exact h c hc
  · exact hcall c hc' (h c (List.mem_of_getElem? hc'))

theorem phase_of_callPhase {call : ℕ} {c : Call} {phase : CallPhase} (hc : e.calls[call]? = some c)
    (h : e.callPhase call = some phase) : c.phase = phase := by
  simpa [Engine.callPhase, hc] using h

/-- A request that waits for a refresh has been sent once. -/
theorem WellSent.of_awaiting {call refresh : ℕ} {c : Call} (h : WellSent e)
    (hc : e.calls[call]? = some c) (hphase : c.phase = .awaiting refresh) :
    c.sends.length = 1 := by
  have hsends := h c (List.mem_of_getElem? hc)
  unfold Call.WellSent at hsends
  rw [hphase] at hsends
  exact hsends

theorem refreshOnce_calls : (refreshOnce options e).1.calls = e.calls := by
  rcases refreshOnce_eq options e with ⟨-, he⟩ | ⟨-, -, he⟩
  · rw [he]
  · rw [he]
    rfl

theorem wellSent_step (h : WellSent e) (heffect : StepEffect options e a e') : WellSent e' := by
  cases heffect with
  | request =>
    intro c hc
    rcases List.mem_append.mp hc with hc | hc
    · exact h c hc
    · rw [List.mem_singleton.mp hc]
      rfl
  | refresh => rwa [WellSent, refreshOnce_calls]
  | @awaitRefresh call _ hsent _ =>
    have hcalls : WellSent (refreshOnce options e).1 := by rwa [WellSent, refreshOnce_calls]
    refine hcalls.setCall fun c hc hsends => ?_
    rw [refreshOnce_calls] at hc
    unfold Call.WellSent at hsends
    rw [phase_of_callPhase hc hsent] at hsends
    exact hsends
  | ended _ call => exact h.setCall fun c _ hsends => hsends.le_two
  | @resend call refresh tokens hawaiting _ =>
    intro c hc
    rcases exists_of_mem_modify hc with hc | ⟨c, hc', rfl⟩
    · exact h c hc
    · have hsends := h.of_awaiting hc' (phase_of_callPhase hc' hawaiting)
      change (c.sends ++ [some tokens.accessToken]).length = 2
      simp [hsends]
  | serve tokens _ => exact h
  | deliver _ => exact h
  | networkFailure _ _ => exact h
  | clearMemo _ => exact h

theorem wellSent_of_reachable {ok : Engine σ → EngineAction → Prop}
    (h : Reachable (engineStep options) ok (Created options) e) : WellSent e :=
  h.invariant (fun _ hs c hc => by simp [hs.calls] at hc) fun _ _ _ hs _ hstep =>
    wellSent_step hs (engineStep_effect hstep)

end Sends

end Kurtar.RequestEngine

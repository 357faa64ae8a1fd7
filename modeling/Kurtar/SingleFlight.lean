import Kurtar.RequestEngine

/-!
# One refresh, one replay

At most one refresh is in flight, and a request is sent at most twice. Its
second send carries a token issued after the one that was rejected. While
every refresh is answered, and with new tokens, no refresh token is presented
twice.
-/

namespace Kurtar.SingleFlight

open GuardedRuns RequestEngine

variable {σ : Type*}

/-- At any time at most one refresh is on its way. -/
def OneInFlight (e : Engine σ) : Prop :=
  ∀ r s phase phase', e.phaseOf r = some phase → phase.InFlight →
    e.phaseOf s = some phase' → phase'.InFlight → r = s

theorem oneInFlight_of_memoized {e : Engine σ} (h : Memoized e) : OneInFlight e :=
  fun _ _ _ _ hr hflight hs hflight' => h.unique hr hflight.pending hs hflight'.pending

/-- Callbacks whose effect is seen by the next read. -/
structure Synchronous (options : CreateClientOptions σ) : Prop where
  access_issued : ∀ t s, options.getAccessToken (options.onTokensIssued t s) = some t.accessToken
  refresh_issued : ∀ t s,
    options.getRefreshToken (options.onTokensIssued t s) = some t.refreshToken
  access_unauthorized : ∀ s, options.getAccessToken (options.onUnauthorized s) = none
  refresh_unauthorized : ∀ s, options.getRefreshToken (options.onUnauthorized s) = none

/-- The server answers with tokens it has not issued before. -/
def Rotates (e : Engine σ) : EngineAction → Prop
  | .serve _ (some t) => e.issued < t.accessToken ∧ e.issued < t.refreshToken
  | _ => True

/-- The fetch of a refresh does not fail. -/
def Answered : EngineAction → Prop
  | .failRefresh _ => False
  | _ => True

instance (e : Engine σ) : DecidablePred (Rotates e)
  | .serve _ (some t) =>
    inferInstanceAs (Decidable (e.issued < t.accessToken ∧ e.issued < t.refreshToken))
  | .serve _ none | .request | .refresh | .answer _ _ | .failRequest _ | .deliver _
  | .failRefresh _ | .clearMemo _ | .resume _ => isTrue trivial

instance : DecidablePred Answered
  | .failRefresh _ => isFalse id
  | .request | .refresh | .answer _ _ | .failRequest _ | .serve _ _ | .deliver _
  | .clearMemo _ | .resume _ => isTrue trivial

variable {options : CreateClientOptions σ} {e e' : Engine σ} {a : EngineAction}

section Bounds

variable (options) in
/-- All access tokens around have been issued. -/
structure Bounded (e : Engine σ) : Prop where
  access_le : ∀ m ∈ options.getAccessToken e.store, m ≤ e.issued
  first_le : ∀ c ∈ e.calls, ∀ m ∈ c.first, m ≤ e.issued
  tokens_le : ∀ r phase, e.phaseOf r = some phase → ∀ t ∈ phase.tokens, t.accessToken ≤ e.issued

theorem bounded_created (h : Created options e) : Bounded options e where
  access_le := h.access_le
  first_le c hc := by simp [h.calls] at hc
  tokens_le r phase hphase := by simp [Engine.phaseOf, h.refreshes] at hphase

theorem issued_le_serve (e : Engine σ) (refresh : ℕ) (tokens : Option AuthTokens) :
    e.issued ≤ (serve e refresh tokens).issued := by
  cases tokens with
  | none => exact le_rfl
  | some t => exact le_max_left _ _

theorem accessToken_le_serve (e : Engine σ) (refresh : ℕ) (t : AuthTokens) :
    t.accessToken ≤ (serve e refresh (some t)).issued :=
  le_trans (le_max_left _ _) (le_max_right _ _)

theorem refreshToken_le_serve (e : Engine σ) (refresh : ℕ) (t : AuthTokens) :
    t.refreshToken ≤ (serve e refresh (some t)).issued :=
  le_trans (le_max_right _ _) (le_max_right _ _)

theorem phaseOf_refreshOnce {r : ℕ} {phase : RefreshPhase}
    (h : (refreshOnce options e).1.phaseOf r = some phase) :
    e.phaseOf r = some phase ∨ phase = .sent := by
  rcases refreshOnce_eq options e with ⟨-, he⟩ | ⟨-, -, he⟩
  · exact .inl (he ▸ h)
  · rw [he] at h
    exact phaseOf_performRefresh_some h

theorem refreshOnce_store : (refreshOnce options e).1.store = e.store := by
  rcases refreshOnce_eq options e with ⟨-, he⟩ | ⟨-, -, he⟩
  · rw [he]
  · rw [he]
    rfl

theorem refreshOnce_issued : (refreshOnce options e).1.issued = e.issued := by
  rcases refreshOnce_eq options e with ⟨-, he⟩ | ⟨-, -, he⟩
  · rw [he]
  · rw [he]
    rfl

/-- The phases after one of them has changed. -/
theorem phaseOf_setPhase_some {refresh r : ℕ} {phase phase' : RefreshPhase}
    (h : (e.setPhase refresh phase').phaseOf r = some phase) :
    (r = refresh ∧ phase = phase') ∨ (r ≠ refresh ∧ e.phaseOf r = some phase) := by
  rw [phaseOf_setPhase] at h
  split_ifs at h with hr
  · obtain ⟨-, -, hphase⟩ := Option.map_eq_some_iff.mp h
    exact .inl ⟨hr, hphase.symm⟩
  · exact .inr ⟨hr, h⟩

theorem Bounded.refreshOnce (h : Bounded options e) : Bounded options (refreshOnce options e).1 where
  access_le := by
    rw [refreshOnce_store, refreshOnce_issued]
    exact h.access_le
  first_le := by
    rw [refreshOnce_calls, refreshOnce_issued]
    exact h.first_le
  tokens_le r phase hphase := by
    rw [refreshOnce_issued]
    rcases phaseOf_refreshOnce hphase with hphase | rfl
    · exact h.tokens_le r phase hphase
    · simp [RefreshPhase.tokens]

theorem Bounded.setCall {call : ℕ} {phase : CallPhase} (h : Bounded options e) :
    Bounded options (e.setCall call phase) where
  access_le := h.access_le
  first_le c hc := by
    rcases exists_of_mem_modify hc with hc | ⟨c, hc', rfl⟩
    · exact h.first_le c hc
    · exact h.first_le c (List.mem_of_getElem? hc')
  tokens_le := h.tokens_le

theorem first_append {c : Call} {sends : List (Option ℕ)} {phase : CallPhase}
    (h : c.sends.length ≠ 0) : (⟨c.sends ++ sends, phase⟩ : Call).first = c.first := by
  unfold Call.first
  rw [List.head?_append_of_ne_nil _ (List.ne_nil_of_length_pos (Nat.pos_of_ne_zero h))]

theorem bounded_step (hoptions : Synchronous options) (hsends : WellSent e)
    (h : Bounded options e) (hok : Rotates e a) (heffect : StepEffect options e a e') :
    Bounded options e' := by
  cases heffect with
  | request =>
    refine ⟨h.access_le, fun c hc => ?_, h.tokens_le⟩
    rcases List.mem_append.mp hc with hc | hc
    · exact h.first_le c hc
    · rw [List.mem_singleton.mp hc]
      exact h.access_le
  | refresh => exact h.refreshOnce
  | awaitRefresh _ _ => exact h.refreshOnce.setCall
  | ended _ call => exact h.setCall
  | @resend call refresh tokens hawaiting _ =>
    refine ⟨h.access_le, fun c hc => ?_, h.tokens_le⟩
    rcases exists_of_mem_modify hc with hc | ⟨c, hc', rfl⟩
    · exact h.first_le c hc
    · have hlength := hsends.of_awaiting hc' (phase_of_callPhase hc' hawaiting)
      rw [first_append (by omega)]
      exact h.first_le c (List.mem_of_getElem? hc')
  | @serve refresh tokens _ =>
    have hle := issued_le_serve e refresh tokens
    refine ⟨fun m hm => (h.access_le m hm).trans hle,
      fun c hc m hm => (h.first_le c hc m hm).trans hle, fun r phase hphase t ht => ?_⟩
    rcases phaseOf_setPhase_some hphase with ⟨-, rfl⟩ | ⟨-, hphase⟩
    · rw [show tokens = some t from ht]
      exact accessToken_le_serve e refresh t
    · exact (h.tokens_le r phase hphase t ht).trans hle
  | @deliver refresh tokens hanswered =>
    refine ⟨fun m hm => ?_, h.first_le, fun r phase hphase t ht => ?_⟩
    · cases tokens with
      | none =>
        have hnone := hoptions.access_unauthorized e.store
        simp [deliver, hnone] at hm
      | some t =>
        have hissued := hoptions.access_issued t e.store
        have hm' : t.accessToken = m := by simpa [deliver, hissued] using hm
        rw [← hm']
        exact h.tokens_le refresh _ hanswered t rfl
    · rcases phaseOf_setPhase_some hphase with ⟨-, rfl⟩ | ⟨-, hphase⟩
      · exact h.tokens_le refresh _ hanswered t ht
      · exact h.tokens_le r phase hphase t ht
  | networkFailure _ _ =>
    refine ⟨h.access_le, h.first_le, fun r phase hphase t ht => ?_⟩
    rcases phaseOf_setPhase_some hphase with ⟨-, rfl⟩ | ⟨-, hphase⟩
    · cases ht
    · exact h.tokens_le r phase hphase t ht
  | @clearMemo refresh earlier tokens hending =>
    refine ⟨h.access_le, h.first_le, fun r phase hphase t ht => ?_⟩
    rcases phaseOf_setPhase_some hphase with ⟨-, rfl⟩ | ⟨-, hphase⟩
    · exact h.tokens_le refresh _ hending t ht
    · exact h.tokens_le r phase hphase t ht

end Bounds

section Order

/-- The request may come to carry the tokens of this refresh. -/
def WaitsFor (call : ℕ) (c : Call) (r : ℕ) (phase : RefreshPhase) : Prop :=
  (c.phase = .sent ∧ phase.admits call = true) ∨ c.phase = .awaiting r

variable (options) in
/-- A refresh brings newer tokens than those that wait for it have been sent with. -/
structure Ordered (e : Engine σ) : Prop where
  store_lt : ∀ r t, e.phaseOf r = some (.answered (some t)) →
    ∀ m ∈ options.getAccessToken e.store, m < t.accessToken
  awaiting_lt : ∀ c ∈ e.calls, ∀ r, c.phase = .awaiting r → r < e.refreshes.length
  earlier_le : ∀ r tokens earlier, e.phaseOf r = some (.ending tokens earlier) →
    earlier ≤ e.calls.length
  first_lt : ∀ i c r phase, e.calls[i]? = some c → e.phaseOf r = some phase →
    WaitsFor i c r phase → ∀ t ∈ phase.tokens, ∀ m ∈ c.first, m < t.accessToken

theorem ordered_created (h : Created options e) : Ordered options e where
  store_lt r t hphase := by simp [Engine.phaseOf, h.refreshes] at hphase
  awaiting_lt c hc := by simp [h.calls] at hc
  earlier_le r tokens earlier hphase := by simp [Engine.phaseOf, h.refreshes] at hphase
  first_lt i c r phase hc := by simp [h.calls] at hc

theorem Ordered.request (h : Ordered options e) : Ordered options (request options e) where
  store_lt := h.store_lt
  awaiting_lt c hc r hphase := by
    rcases List.mem_append.mp hc with hc | hc
    · exact h.awaiting_lt c hc r hphase
    · rw [List.mem_singleton.mp hc] at hphase
      cases hphase
  earlier_le r tokens earlier hphase := by
    have hle := h.earlier_le r tokens earlier hphase
    simp only [RequestEngine.request, List.length_append]
    omega
  first_lt i c r phase hc hphase hwaits t ht m hm := by
    by_cases hi : i < e.calls.length
    · have hc' : e.calls[i]? = some c := by
        rw [← List.getElem?_append_left hi]
        exact hc
      exact h.first_lt i c r phase hc' hphase hwaits t ht m hm
    · have hlast : c = ⟨[options.getAccessToken e.store], .sent⟩ := by
        have hmem := List.mem_of_getElem? (List.getElem?_append_right (Nat.le_of_not_lt hi) ▸ hc)
        exact List.mem_singleton.mp hmem
      subst hlast
      cases phase with
      | sent => cases ht
      | answered tokens =>
        have ht' : tokens = some t := ht
        exact h.store_lt r t (ht' ▸ hphase) m hm
      | ending tokens earlier =>
        have hle := h.earlier_le r tokens earlier hphase
        rcases hwaits with ⟨-, hadmits⟩ | hwaits
        · have hlt : i < earlier := of_decide_eq_true hadmits
          omega
        · cases hwaits
      | settled tokens =>
        rcases hwaits with ⟨-, hadmits⟩ | hwaits
        · cases hadmits
        · cases hwaits

theorem Ordered.refreshOnce (h : Ordered options e) :
    Ordered options (refreshOnce options e).1 where
  store_lt r t hphase := by
    rw [refreshOnce_store]
    rcases phaseOf_refreshOnce hphase with hphase | hphase
    · exact h.store_lt r t hphase
    · cases hphase
  awaiting_lt c hc r hphase := by
    rw [refreshOnce_calls] at hc
    have hlt := h.awaiting_lt c hc r hphase
    have hle : e.refreshes.length ≤ (RequestEngine.refreshOnce options e).1.refreshes.length := by
      rcases refreshOnce_eq options e with ⟨-, he⟩ | ⟨-, -, he⟩
      · rw [he]
      · rw [he]
        simp [performRefresh]
    omega
  earlier_le r tokens earlier hphase := by
    rw [refreshOnce_calls]
    rcases phaseOf_refreshOnce hphase with hphase | hphase
    · exact h.earlier_le r tokens earlier hphase
    · cases hphase
  first_lt i c r phase hc hphase hwaits t ht := by
    rw [refreshOnce_calls] at hc
    rcases phaseOf_refreshOnce hphase with hphase | rfl
    · exact h.first_lt i c r phase hc hphase hwaits t ht
    · cases ht

/-- A request goes on and waits for less, or for the refresh in flight. -/
theorem Ordered.modify {call : ℕ} {f : Call → Call} (h : Ordered options e)
    (hfirst : ∀ c, e.calls[call]? = some c → (f c).first = c.first)
    (hawaiting : ∀ c r, e.calls[call]? = some c → (f c).phase = .awaiting r →
      r < e.refreshes.length)
    (hwaits : ∀ c r phase, e.calls[call]? = some c → e.phaseOf r = some phase →
      WaitsFor call (f c) r phase → WaitsFor call c r phase) :
    Ordered options { e with calls := e.calls.modify call f } where
  store_lt := h.store_lt
  awaiting_lt c hc r hphase := by
    rcases exists_of_mem_modify hc with hc | ⟨c, hc', rfl⟩
    · exact h.awaiting_lt c hc r hphase
    · exact hawaiting c r hc' hphase
  earlier_le r tokens earlier hphase := by
    simp only [List.length_modify]
    exact h.earlier_le r tokens earlier hphase
  first_lt i c r phase hc hphase hw t ht m hm := by
    simp only [List.getElem?_modify] at hc
    obtain ⟨c', hc', hc⟩ := Option.map_eq_some_iff.mp hc
    by_cases hi : call = i
    · subst hi
      rw [if_pos rfl] at hc
      subst hc
      rw [hfirst c' hc'] at hm
      exact h.first_lt call c' r phase hc' hphase (hwaits c' r phase hc' hphase hw) t ht m hm
    · rw [if_neg hi] at hc
      exact h.first_lt i c r phase (hc ▸ hc') hphase hw t ht m hm

/-- A refresh goes on and its tokens are newer than what waits for it. -/
theorem Ordered.setPhase {refresh : ℕ} {phase' : RefreshPhase} (h : Ordered options e)
    (hstore : ∀ t, phase' = .answered (some t) →
      ∀ m ∈ options.getAccessToken e.store, m < t.accessToken)
    (hearlier : ∀ tokens earlier, phase' = .ending tokens earlier → earlier ≤ e.calls.length)
    (hfirst : ∀ i c, e.calls[i]? = some c → WaitsFor i c refresh phase' →
      ∀ t ∈ phase'.tokens, ∀ m ∈ c.first, m < t.accessToken) :
    Ordered options (e.setPhase refresh phase') where
  store_lt r t hphase := by
    rcases phaseOf_setPhase_some hphase with ⟨-, hphase⟩ | ⟨-, hphase⟩
    · exact hstore t hphase.symm
    · exact h.store_lt r t hphase
  awaiting_lt c hc r hphase := by
    have hlt := h.awaiting_lt c hc r hphase
    simp only [Engine.setPhase, List.length_modify]
    exact hlt
  earlier_le r tokens earlier hphase := by
    rcases phaseOf_setPhase_some hphase with ⟨-, hphase⟩ | ⟨-, hphase⟩
    · exact hearlier tokens earlier hphase.symm
    · exact h.earlier_le r tokens earlier hphase
  first_lt i c r phase hc hphase hwaits t ht := by
    rcases phaseOf_setPhase_some hphase with ⟨rfl, rfl⟩ | ⟨-, hphase⟩
    · exact hfirst i c hc hwaits t ht
    · exact h.first_lt i c r phase hc hphase hwaits t ht

/-- The store may change while no tokens are under way. -/
theorem Ordered.congr (h : Ordered options e) (hcalls : e'.calls = e.calls)
    (hrefreshes : e'.refreshes = e.refreshes)
    (hstore : e'.store = e.store ∨ ∀ r t, e.phaseOf r ≠ some (.answered (some t))) :
    Ordered options e' := by
  have hphases : e'.phaseOf = e.phaseOf := by
    funext r
    rw [Engine.phaseOf, Engine.phaseOf, hrefreshes]
  constructor
  · rw [hphases]
    rcases hstore with hstore | hnone
    · rw [hstore]
      exact h.store_lt
    · exact fun r t hphase => absurd hphase (hnone r t)
  · rw [hcalls, hrefreshes]
    exact h.awaiting_lt
  · rw [hcalls, hphases]
    exact h.earlier_le
  · rw [hcalls, hphases]
    exact h.first_lt

variable (options) in
theorem admits_refreshOnce {call : ℕ} (h : e.admits call = true) :
    (refreshOnce options e).1.admits call = true := by
  rcases refreshOnce_eq options e with ⟨-, he⟩ | ⟨-, -, he⟩
  · rw [he]
    exact h
  · have hsent : ({ performRefresh options e with
        inFlightRefresh := some e.refreshes.length } : Engine σ).phaseOf e.refreshes.length =
        some .sent := by
      change (performRefresh options e).phaseOf _ = _
      rw [phaseOf_performRefresh, if_pos rfl]
    rw [he]
    simp only [Engine.admits, hsent]
    rfl

theorem Ordered.awaitRefresh {call : ℕ} (hmemo : Memoized e) (h : Ordered options e)
    (hsent : e.callPhase call = some .sent) (hadmits : e.admits call = true) :
    Ordered options (awaitRefresh options e call) := by
  have hadmits' := admits_refreshOnce options hadmits
  have hmemo' := hmemo.refreshOnce options
  have hlatest := refreshOnce_memo options e
  obtain ⟨current, hcurrent, -⟩ := (hmemo' _).mp hlatest
  refine (h.refreshOnce).modify (fun _ _ => rfl) (fun c r _ hphase => ?_)
    fun c r phase hc hphase hwaits => ?_
  · cases hphase
    exact phaseOf_lt hcurrent
  · rw [refreshOnce_calls] at hc
    rcases hwaits with ⟨hphase', -⟩ | hwaits
    · cases hphase'
    · cases hwaits
      refine .inl ⟨phase_of_callPhase hc hsent, ?_⟩
      simpa [Engine.admits, hlatest, hphase] using hadmits'

theorem ordered_step (hmemo : Memoized e) (hsends : WellSent e)
    (hbounded : Bounded options e) (h : Ordered options e) (hok : Rotates e a) (heffect : StepEffect options e a e') : Ordered options e' := by
  cases heffect with
  | request => exact h.request
  | refresh => exact h.refreshOnce
  | awaitRefresh hsent hadmits => exact h.awaitRefresh hmemo hsent hadmits
  | ended _ call =>
    refine h.modify (fun _ _ => rfl) (fun _ _ _ hphase => by cases hphase) ?_
    rintro c r phase - - (⟨hphase, -⟩ | hphase)
    · cases hphase
    · cases hphase
  | resend hawaiting _ =>
    refine h.modify (fun c hc => ?_) (fun _ _ _ hphase => by cases hphase) ?_
    · have hlength := hsends.of_awaiting hc (phase_of_callPhase hc hawaiting)
      exact first_append (by omega)
    · rintro c r phase - - (⟨hphase, -⟩ | hphase)
      · cases hphase
      · cases hphase
  | @serve refresh tokens hsent =>
    refine (h.setPhase (fun t ht m hm => ?_) (fun _ _ hphase => by cases hphase)
      fun i c hc _ t ht m hm => ?_).congr rfl rfl (.inl rfl)
    · have hle := hbounded.access_le m hm
      cases ht
      have hlt := hok.1
      omega
    · have hle := hbounded.first_le c (List.mem_of_getElem? hc) m hm
      cases (show tokens = some t from ht)
      have hlt := hok.1
      omega
  | @deliver refresh tokens hanswered =>
    refine (h.setPhase (fun t ht => by cases ht) (fun _ _ hphase => ?_)
      fun i c hc hwaits t ht => ?_).congr rfl rfl (.inr fun r t hphase => ?_)
    · cases hphase
      exact le_rfl
    · refine h.first_lt i c refresh _ hc hanswered ?_ t ht
      exact hwaits.imp_left fun hwaits => ⟨hwaits.1, rfl⟩
    · rcases phaseOf_setPhase_some hphase with ⟨-, hphase⟩ | ⟨hne, hphase⟩
      · cases hphase
      · exact hne (hmemo.unique hphase trivial hanswered trivial)
  | networkFailure _ _ =>
    refine h.setPhase (fun t ht => by cases ht) (fun _ _ hphase => ?_) fun i c _ _ t ht => ?_
    · cases hphase
      exact le_rfl
    · cases ht
  | @clearMemo refresh earlier tokens hending =>
    refine (h.setPhase (fun t ht => by cases ht) (fun _ _ hphase => by cases hphase)
      fun i c hc hwaits t ht => ?_).congr rfl rfl (.inl rfl)
    refine h.first_lt i c refresh _ hc hending ?_ t ht
    rcases hwaits with ⟨-, hadmits⟩ | hwaits
    · cases hadmits
    · exact .inr hwaits

theorem ordered_of_reachable (hoptions : Synchronous options)
    (h : Reachable (engineStep options) Rotates (Created options) e) : Ordered options e := by
  have hbounded : ∀ e, Reachable (engineStep options) Rotates (Created options) e →
      Bounded options e := fun e he =>
    he.invariant_of (J := WellSent) (fun _ => wellSent_of_reachable) (fun _ => bounded_created)
      fun _ _ _ hs _ hb hok hstep => bounded_step hoptions hs hb hok (engineStep_effect hstep)
  refine h.invariant_of (J := fun e => Memoized e ∧ WellSent e ∧ Bounded options e)
    (fun e he => ⟨memoized_of_reachable he, wellSent_of_reachable he, hbounded e he⟩)
    (fun _ => ordered_created) ?_
  intro e a e' hbefore _ ho hok hstep
  exact ordered_step hbefore.1 hbefore.2.1 hbefore.2.2 ho hok (engineStep_effect hstep)

end Order

section Replays

/-- The second send carries a token issued after the one of the first. -/
def Replays (c : Call) : Prop :=
  ∀ a b, c.sends = [a, b] → ∃ n, b = some n ∧ ∀ m ∈ a, m < n

theorem replays_resend {call refresh : ℕ} {c : Call} {tokens : AuthTokens}
    (hsends : WellSent e) (h : Ordered options e) (hc : e.calls[call]? = some c)
    (hawaiting : e.callPhase call = some (.awaiting refresh))
    (hsettled : e.phaseOf refresh = some (.settled (some tokens))) :
    Replays ⟨c.sends ++ [some tokens.accessToken], .resent⟩ := by
  have hphase := phase_of_callPhase hc hawaiting
  obtain ⟨first, hfirst⟩ := List.length_eq_one_iff.mp (hsends.of_awaiting hc hphase)
  intro a b hab
  have hpair : [first, some tokens.accessToken] = [a, b] := by
    rw [← hab, hfirst]
    rfl
  cases hpair
  refine ⟨tokens.accessToken, rfl, fun m hm => ?_⟩
  refine h.first_lt call c refresh _ hc hsettled (.inr hphase) tokens rfl m ?_
  rw [Call.first, hfirst]
  exact hm

theorem replays_step (hsends : WellSent e) (ho : Ordered options e)
    (h : ∀ c ∈ e.calls, Replays c) (heffect : StepEffect options e a e') :
    ∀ c ∈ e'.calls, Replays c := by
  intro c hc
  cases heffect with
  | request =>
    rcases List.mem_append.mp hc with hc | hc
    · exact h c hc
    · rw [List.mem_singleton.mp hc]
      intro a b hab
      cases hab
  | refresh =>
    rw [refreshOnce_calls] at hc
    exact h c hc
  | awaitRefresh _ _ =>
    rcases exists_of_mem_modify hc with hc | ⟨c, hc', rfl⟩
    · rw [refreshOnce_calls] at hc
      exact h c hc
    · rw [refreshOnce_calls] at hc'
      exact h c (List.mem_of_getElem? hc')
  | ended _ call =>
    rcases exists_of_mem_modify hc with hc | ⟨c, hc', rfl⟩
    · exact h c hc
    · exact h c (List.mem_of_getElem? hc')
  | resend hawaiting hsettled =>
    rcases exists_of_mem_modify hc with hc | ⟨c, hc', rfl⟩
    · exact h c hc
    · exact replays_resend hsends ho hc' hawaiting hsettled
  | serve tokens _ => exact h c hc
  | deliver _ => exact h c hc
  | networkFailure _ _ => exact h c hc
  | clearMemo _ => exact h c hc

theorem replays_of_reachable (hoptions : Synchronous options)
    (h : Reachable (engineStep options) Rotates (Created options) e) :
    ∀ c ∈ e.calls, Replays c := by
  refine h.invariant_of (J := fun e => WellSent e ∧ Ordered options e)
    (I := fun e => ∀ c ∈ e.calls, Replays c)
    (fun e he => ⟨wellSent_of_reachable he, ordered_of_reachable hoptions he⟩)
    (fun e he c hc => by simp [he.calls] at hc) ?_
  intro e a e' hbefore _ hr _ hstep
  exact replays_step hbefore.1 hbefore.2 hr (engineStep_effect hstep)

end Replays

section Presented

/-- The refresh tokens that have been presented. -/
def presented (e : Engine σ) : List ℕ := e.refreshes.filterMap (·.refreshToken)

variable (options) in
/-- The stored refresh token is new, and so are the tokens under way. -/
structure Fresh (e : Engine σ) : Prop where
  nodup : (presented e).Nodup
  presented_le : ∀ v ∈ presented e, v ≤ e.issued
  store_le : ∀ v ∈ options.getRefreshToken e.store, v ≤ e.issued
  tokens_le : ∀ r phase, e.phaseOf r = some phase → ∀ t ∈ phase.tokens,
    t.refreshToken ≤ e.issued
  unspent : (∀ r phase, e.phaseOf r = some phase → ¬ phase.InFlight) →
    ∀ v ∈ options.getRefreshToken e.store, v ∉ presented e
  newer : ∀ r t, e.phaseOf r = some (.answered (some t)) → ∀ v ∈ presented e, v < t.refreshToken

theorem fresh_created (h : Created options e) : Fresh options e where
  nodup := by simp [presented, h.refreshes]
  presented_le := by simp [presented, h.refreshes]
  store_le := h.refresh_le
  tokens_le r phase hphase := by simp [Engine.phaseOf, h.refreshes] at hphase
  unspent := by simp [presented, h.refreshes]
  newer r t hphase := by simp [Engine.phaseOf, h.refreshes] at hphase

theorem presented_setPhase (refresh : ℕ) (phase : RefreshPhase) :
    presented (e.setPhase refresh phase) = presented e := by
  have hmap : ∀ (l : List Refresh) (i : ℕ),
      (l.modify i fun r => { r with phase }).map (·.refreshToken) = l.map (·.refreshToken) := by
    intro l i
    refine List.ext_getElem? fun j => ?_
    simp only [List.getElem?_map, List.getElem?_modify]
    split_ifs <;> cases l[j]? <;> rfl
  have heq : ∀ l : List Refresh,
      l.filterMap (·.refreshToken) = (l.map (·.refreshToken)).filterMap id := by
    intro l
    rw [List.filterMap_map]
    rfl
  rw [presented, presented, heq, heq]
  exact congrArg _ (hmap e.refreshes refresh)

/-- The requests come and go. -/
theorem Fresh.congr (h : Fresh options e) (hstore : e'.store = e.store)
    (hissued : e'.issued = e.issued) (hrefreshes : e'.refreshes = e.refreshes) :
    Fresh options e' := by
  have hphases : e'.phaseOf = e.phaseOf := by
    funext r
    rw [Engine.phaseOf, Engine.phaseOf, hrefreshes]
  have hpresented : presented e' = presented e := by
    rw [presented, hrefreshes, presented]
  constructor
  · rw [hpresented]
    exact h.nodup
  · rw [hpresented, hissued]
    exact h.presented_le
  · rw [hstore, hissued]
    exact h.store_le
  · rw [hphases, hissued]
    exact h.tokens_le
  · rw [hphases, hstore, hpresented]
    exact h.unspent
  · rw [hphases, hpresented]
    exact h.newer

theorem Fresh.performRefresh (hmemo : Memoized e) (hnone : e.inFlightRefresh = none)
    (h : Fresh options e) : Fresh options
      { performRefresh options e with inFlightRefresh := some e.refreshes.length } := by
  have hpresented : presented (RequestEngine.performRefresh options e) =
      presented e ++ (options.getRefreshToken e.store).toList := by
    simp only [presented, RequestEngine.performRefresh, List.filterMap_append]
    cases options.getRefreshToken e.store <;> rfl
  have hunspent := h.unspent fun r phase hphase hflight =>
    hmemo.not_pending hnone hphase hflight.pending
  constructor
  · change (presented (RequestEngine.performRefresh options e)).Nodup
    rw [hpresented]
    refine List.nodup_append'.mpr ⟨h.nodup, ?_, ?_⟩
    · cases options.getRefreshToken e.store <;> simp
    · intro v hv hstore
      exact hunspent v (Option.mem_toList.mp hstore) hv
  · change ∀ v ∈ presented (RequestEngine.performRefresh options e), v ≤ e.issued
    rw [hpresented]
    intro v hv
    rcases List.mem_append.mp hv with hv | hv
    · exact h.presented_le v hv
    · exact h.store_le v (Option.mem_toList.mp hv)
  · exact h.store_le
  · intro r phase hphase t ht
    rcases phaseOf_performRefresh_some hphase with hphase | rfl
    · exact h.tokens_le r phase hphase t ht
    · cases ht
  · intro hflight
    refine absurd trivial (hflight e.refreshes.length .sent ?_)
    change (RequestEngine.performRefresh options e).phaseOf _ = _
    rw [phaseOf_performRefresh, if_pos rfl]
  · intro r t hphase
    rcases phaseOf_performRefresh_some hphase with hphase | hphase
    · exact absurd trivial (hmemo.not_pending hnone hphase)
    · cases hphase

theorem Fresh.refreshOnce (hmemo : Memoized e) (h : Fresh options e) :
    Fresh options (refreshOnce options e).1 := by
  rcases refreshOnce_eq options e with ⟨-, he⟩ | ⟨hnone, -, he⟩
  · rw [he]
    exact h
  · rw [he]
    exact h.performRefresh hmemo hnone

theorem Fresh.serve {refresh : ℕ} {tokens : Option AuthTokens} (h : Fresh options e)
    (hsent : e.phaseOf refresh = some .sent)
    (hok : ∀ t, tokens = some t → e.issued < t.refreshToken) :
    Fresh options (serve e refresh tokens) := by
  have hle := issued_le_serve e refresh tokens
  have hpresented : presented (RequestEngine.serve e refresh tokens) = presented e :=
    presented_setPhase refresh (.answered tokens)
  constructor
  · rw [hpresented]
    exact h.nodup
  · rw [hpresented]
    exact fun v hv => (h.presented_le v hv).trans hle
  · exact fun v hv => (h.store_le v hv).trans hle
  · intro r phase hphase t ht
    rcases phaseOf_setPhase_some hphase with ⟨-, rfl⟩ | ⟨-, hphase⟩
    · rw [show tokens = some t from ht]
      exact refreshToken_le_serve e refresh t
    · exact (h.tokens_le r phase hphase t ht).trans hle
  · intro hflight
    refine absurd trivial (hflight refresh (.answered tokens) ?_)
    change (e.setPhase refresh (.answered tokens)).phaseOf refresh = _
    rw [phaseOf_setPhase, if_pos rfl, hsent]
    rfl
  · intro r t hphase v hv
    rw [hpresented] at hv
    rcases phaseOf_setPhase_some hphase with ⟨-, hphase⟩ | ⟨-, hphase⟩
    · have hlt := hok t (RefreshPhase.answered.inj hphase).symm
      have hissued := h.presented_le v hv
      omega
    · exact h.newer r t hphase v hv

theorem Fresh.deliver {refresh : ℕ} {tokens : Option AuthTokens} (hoptions : Synchronous options)
    (hmemo : Memoized e) (h : Fresh options e)
    (hanswered : e.phaseOf refresh = some (.answered tokens)) :
    Fresh options (deliver options e refresh tokens) := by
  have hpresented : presented (RequestEngine.deliver options e refresh tokens) = presented e :=
    presented_setPhase refresh (.ending tokens e.calls.length)
  have hstore : ∀ v ∈ options.getRefreshToken (RequestEngine.deliver options e refresh tokens).store,
      ∃ t, tokens = some t ∧ v = t.refreshToken := by
    intro v hv
    cases tokens with
    | none => simp [RequestEngine.deliver, hoptions.refresh_unauthorized] at hv
    | some t =>
      have hv' : t.refreshToken = v := by
        simpa [RequestEngine.deliver, hoptions.refresh_issued] using hv
      exact ⟨t, rfl, hv'.symm⟩
  constructor
  · rw [hpresented]
    exact h.nodup
  · rw [hpresented]
    exact h.presented_le
  · intro v hv
    obtain ⟨t, rfl, rfl⟩ := hstore v hv
    exact h.tokens_le refresh _ hanswered t rfl
  · intro r phase hphase t ht
    rcases phaseOf_setPhase_some hphase with ⟨-, rfl⟩ | ⟨-, hphase⟩
    · exact h.tokens_le refresh _ hanswered t ht
    · exact h.tokens_le r phase hphase t ht
  · intro _ v hv hmem
    obtain ⟨t, rfl, rfl⟩ := hstore v hv
    rw [hpresented] at hmem
    exact lt_irrefl _ (h.newer refresh t hanswered _ hmem)
  · intro r t hphase
    rcases phaseOf_setPhase_some hphase with ⟨-, hphase⟩ | ⟨hne, hphase⟩
    · cases hphase
    · exact absurd (hmemo.unique hphase trivial hanswered trivial) hne

theorem Fresh.clearMemo {refresh earlier : ℕ} {tokens : Option AuthTokens}
    (h : Fresh options e) (hending : e.phaseOf refresh = some (.ending tokens earlier)) :
    Fresh options (clearMemo e refresh tokens) := by
  have hpresented : presented (RequestEngine.clearMemo e refresh tokens) = presented e :=
    presented_setPhase refresh (.settled tokens)
  constructor
  · rw [hpresented]
    exact h.nodup
  · rw [hpresented]
    exact h.presented_le
  · exact h.store_le
  · intro r phase hphase t ht
    rcases phaseOf_setPhase_some hphase with ⟨-, rfl⟩ | ⟨-, hphase⟩
    · exact h.tokens_le refresh _ hending t ht
    · exact h.tokens_le r phase hphase t ht
  · intro hflight
    rw [hpresented]
    refine h.unspent fun r phase hphase => ?_
    by_cases hr : r = refresh
    · rw [hr, hending] at hphase
      cases hphase
      exact id
    · refine hflight r phase ?_
      change (e.setPhase refresh (.settled tokens)).phaseOf r = _
      rw [phaseOf_setPhase, if_neg hr, hphase]
  · intro r t hphase
    rw [hpresented]
    rcases phaseOf_setPhase_some hphase with ⟨-, hphase⟩ | ⟨-, hphase⟩
    · cases hphase
    · exact h.newer r t hphase

theorem fresh_step (hoptions : Synchronous options) (hmemo : Memoized e) (h : Fresh options e)
    (hrotates : Rotates e a) (hanswered : Answered a) (heffect : StepEffect options e a e') :
    Fresh options e' := by
  cases heffect with
  | request => exact h.congr rfl rfl rfl
  | refresh => exact h.refreshOnce hmemo
  | awaitRefresh _ _ => exact (h.refreshOnce hmemo).congr rfl rfl rfl
  | ended _ call => exact h.congr rfl rfl rfl
  | resend _ _ => exact h.congr rfl rfl rfl
  | @serve refresh tokens hsent =>
    refine h.serve hsent fun t ht => ?_
    cases ht
    exact hrotates.2
  | deliver hphase => exact h.deliver hoptions hmemo hphase
  | networkFailure _ _ => exact hanswered.elim
  | clearMemo hending => exact h.clearMemo hending

theorem fresh_of_reachable (hoptions : Synchronous options)
    (h : Reachable (engineStep options) (fun e a => Rotates e a ∧ Answered a) (Created options) e) :
    Fresh options e := by
  refine h.invariant_of (J := Memoized) (fun _ => memoized_of_reachable)
    (fun _ => fresh_created) ?_
  intro e a e' hmemo _ hfresh hok hstep
  exact fresh_step hoptions hmemo hfresh hok.1 hok.2 (engineStep_effect hstep)

end Presented

/-- One refresh is in flight and requests are sent twice at most, whatever the
server answers and the application stores. With new tokens, stored at once, the
second send is newer than the first; when no refresh is lost either, each
refresh token is presented once. -/
theorem refreshes_once_and_replays_once (options : CreateClientOptions σ) :
    (∀ e, Reachable (engineStep options) anyStep (Created options) e →
      OneInFlight e ∧ ∀ c ∈ e.calls, c.sends.length ≤ 2) ∧
    (Synchronous options →
      (∀ e, Reachable (engineStep options) Rotates (Created options) e →
        ∀ c ∈ e.calls, Replays c) ∧
      ∀ e, Reachable (engineStep options) (fun e a => Rotates e a ∧ Answered a)
        (Created options) e → (presented e).Nodup) := by
  refine ⟨fun e he => ⟨?_, fun c hc => ?_⟩, fun hoptions => ⟨fun e he => ?_, fun e he => ?_⟩⟩
  · exact oneInFlight_of_memoized (memoized_of_reachable he)
  · exact (wellSent_of_reachable he c hc).le_two
  · exact replays_of_reachable hoptions he
  · exact (fresh_of_reachable hoptions he).nodup

/-- A store in memory: the access token and the refresh token. -/
def memoryStore : CreateClientOptions (Option ℕ × Option ℕ) where
  getAccessToken s := s.1
  getRefreshToken s := s.2
  onTokensIssued t _ := (some t.accessToken, some t.refreshToken)
  onUnauthorized _ := (none, none)

theorem synchronous_memoryStore : Synchronous memoryStore :=
  ⟨fun _ _ => rfl, fun _ _ => rfl, fun _ => rfl, fun _ => rfl⟩

def sampleStart : Engine (Option ℕ × Option ℕ) := ⟨(some 1, some 2), none, [], [], 2⟩

/-- Requests answered with 401 before, during and after a refresh, one of them
sent before the memo is cleared. The second refresh is refused. -/
def sampleRun : List EngineAction :=
  [.request, .request, .request, .answer 0 true, .refresh, .serve 0 (some ⟨3, 4⟩),
    .answer 1 true, .deliver 0, .request, .answer 2 true, .clearMemo 0, .resume 0, .resume 1,
    .resume 2, .answer 1 true, .answer 3 true, .serve 1 none, .deliver 1, .clearMemo 1, .resume 3]

def sampleEnd : Engine (Option ℕ × Option ℕ) := after (engineStep memoryStore) sampleStart sampleRun

example : sampleEnd.calls = [⟨[some 1, some 3], .resent⟩, ⟨[some 1, some 3], .ended⟩,
    ⟨[some 1, some 3], .resent⟩, ⟨[some 3], .ended⟩] ∧ presented sampleEnd = [2, 4] := by
  decide +kernel

theorem refreshes_once_and_replays_once_sample :
    OneInFlight sampleEnd ∧ (∀ c ∈ sampleEnd.calls, c.sends.length ≤ 2 ∧ Replays c) ∧
      (presented sampleEnd).Nodup := by
  have hstart : Created memoryStore sampleStart :=
    ⟨rfl, rfl, rfl, fun _ h => by cases h; decide, fun _ h => by cases h; decide⟩
  have h : Reachable (engineStep memoryStore) (fun e a => Rotates e a ∧ Answered a)
      (Created memoryStore) sampleEnd :=
    reachable_after_guarded (.start hstart) (by decide +kernel) (by decide +kernel)
  obtain ⟨hany, hsynchronous⟩ := refreshes_once_and_replays_once memoryStore
  obtain ⟨hreplays, hnodup⟩ := hsynchronous synchronous_memoryStore
  obtain ⟨hone, htwice⟩ := hany sampleEnd h.toAny
  refine ⟨hone, fun c hc => ⟨htwice c hc, ?_⟩, hnodup sampleEnd h⟩
  exact hreplays sampleEnd (h.mono fun _ _ hok => hok.1) c hc

end Kurtar.SingleFlight

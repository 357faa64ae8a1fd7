import Kurtar.ClientEngine

/-!
# An honest client is not treated as a thief

The refresh in flight is asked for, served or settled, and at most one of
its messages and calls is still of use to the server. As long as a failed
fetch means that the server has not rotated the presented token and will not
come to it any more, the client never presents a rotated token.
-/

namespace Kurtar.HonestClient

open KeyedTable GuardedRuns IstanbulCalendar TaskPools RefreshSessions ClientEngine

section Stages

/-- A refresh on its way to the server. -/
def IsRefresh : Message → Prop
  | .refreshRequest _ _ => True
  | _ => False

instance : DecidablePred IsRefresh := fun m => by
  cases m <;> unfold IsRefresh <;> infer_instance

def messageRequest : Message → RequestId
  | .refreshRequest request _ | .issued request _ | .refused request => request

/-- No response to the request is on its way. -/
def Unanswered (network : List Message) (id : RequestId) : Prop :=
  ∀ m ∈ network, ¬ IsRefresh m → messageRequest m ≠ id

/-- What is known of the call that serves the refresh. -/
def Serves (cfg : TokenConfig) (w : ClientWorld) (id : RequestId) (refreshToken : String) :
    SessionTask → Prop
  | .bound call | .claim call | .resolvePrincipal call _ | .create call _ =>
    call.request = id ∧ call.tokenHash = cfg.hashToken refreshToken
  | .handleClaimFailure call => call.request = id ∧
    ∀ r ∈ w.server.shared.tokens.rows, r.tokenHash = call.tokenHash → r.expiresAt ≤ call.now
  | .revoke r | .revoking r _ _ => w.client.transport = .body ∧
    ∃ call, r.cause = .inactive call ∧ call.request = id ∧
      call.tokenHash = cfg.hashToken refreshToken
  | .issue _ | .findForLogout _ _ => False

/-- The row of the client's token is stored, and only a rotation could have been revoked. -/
def TokenKnown (cfg : TokenConfig) (w : ClientWorld) : Prop :=
  ∀ refreshToken ∈ w.client.refreshToken, ∃ r ∈ w.server.shared.tokens.rows,
    r.tokenHash = cfg.hashToken refreshToken ∧ (r.rotatedAt = none → r.revokedAt = none)

/-- How far the refresh in flight has come. -/
inductive Stage (cfg : TokenConfig) (w : ClientWorld) : Prop where
  | idle (hflight : w.client.inFlightRefresh = none) (hquiet : ∀ m ∈ w.network, ¬ IsRefresh m)
      (htasks : w.server.tasks = []) (hcurrent : TokenCurrent cfg w)
  | asked (id : RequestId) (hflight : w.client.inFlightRefresh = some id)
      (hasked : ∀ m ∈ w.network, IsRefresh m → m = .refreshRequest id w.client.refreshToken)
      (hone : w.network.countP (fun m => IsRefresh m) ≤ 1) (hwaits : Unanswered w.network id)
      (htasks : w.server.tasks = []) (hcurrent : TokenCurrent cfg w)
  | serving (id : RequestId) (refreshToken : String) (task : SessionTask)
      (hflight : w.client.inFlightRefresh = some id)
      (htoken : w.client.refreshToken = some refreshToken)
      (hquiet : ∀ m ∈ w.network, ¬ IsRefresh m) (hwaits : Unanswered w.network id)
      (htasks : w.server.tasks = [task]) (hserves : Serves cfg w id refreshToken task)
      (hcurrent : TokenCurrent cfg w)
  | settled (id : RequestId) (hflight : w.client.inFlightRefresh = some id)
      (hquiet : ∀ m ∈ w.network, ¬ IsRefresh m) (htasks : w.server.tasks = [])
      (hissued : ∀ refreshToken, .issued id refreshToken ∈ w.network →
        Current cfg w.server.shared.tokens refreshToken)
      (hrefused : .refused id ∈ w.network → w.client.transport = .cookie → TokenCurrent cfg w)
      (hknown : TokenKnown cfg w)

/-- Only an inactive account had its family revoked. -/
def NeverSuspected (w : ClientWorld) : Prop :=
  ∀ cause familyId, .revoked cause familyId ∈ w.server.shared.history →
    ∃ call, cause = .inactive call

structure Honest (cfg : TokenConfig) (w : ClientWorld) : Prop where
  trusted : NeverSuspected w
  numbered : ∀ m ∈ w.network, messageRequest m < w.client.nextRequest
  flight : ∀ id ∈ w.client.inFlightRefresh, id < w.client.nextRequest
  stage : Stage cfg w

/-- A failed fetch was not served and will not be; with a cookie the account stays active. -/
def Heard (cfg : TokenConfig) (w : ClientWorld) : ClientAction → Prop
  | .networkFailure =>
    (∀ m ∈ w.network, ¬ IsRefresh m) ∧
      (∀ task ∈ w.server.tasks, requestOf task ≠ w.client.inFlightRefresh) ∧
      ∀ refreshToken ∈ w.client.refreshToken, ∀ r ∈ w.server.shared.tokens.rows,
        r.tokenHash = cfg.hashToken refreshToken → r.rotatedAt = none
  | .serve _ input => w.client.transport = .cookie → input.active = true
  | _ => True

instance (cfg : TokenConfig) (w : ClientWorld) (a : ClientAction) : Decidable (Heard cfg w a) := by
  cases a <;> unfold Heard <;> infer_instance

end Stages

section Network

variable {cfg : TokenConfig} {w : ClientWorld} {index : ℕ} {m : Message}

theorem tokenKnown_of_current (h : TokenCurrent cfg w) : TokenKnown cfg w := by
  intro refreshToken htoken
  obtain ⟨r, hr, hhash, _, hunrevoked⟩ := h refreshToken htoken
  exact ⟨r, hr, hhash, fun _ => hunrevoked⟩

/-- A world that knows the same tokens. -/
theorem serves_same {w' : ClientWorld} {id : RequestId} {refreshToken : String} {task : SessionTask}
    (htokens : w'.server.shared.tokens = w.server.shared.tokens)
    (htransport : w'.client.transport = w.client.transport)
    (h : Serves cfg w id refreshToken task) : Serves cfg w' id refreshToken task := by
  cases task with
  | handleClaimFailure call =>
    simp only [Serves, htokens]
    exact h
  | revoke r =>
    simp only [Serves, htransport]
    exact h
  | revoking r found locked =>
    simp only [Serves, htransport]
    exact h
  | _ => exact h

theorem request_of_serves {id : RequestId} {refreshToken : String} {task : SessionTask}
    (h : Serves cfg w id refreshToken task) : requestOf task = some id := by
  cases task with
  | issue row => exact h.elim
  | findForLogout tokenHash expectedActor => exact h.elim
  | revoke r =>
    obtain ⟨_, call, hcause, hid, _⟩ := h
    simp only [requestOf, hcause, causeRequest, hid]
  | revoking r found locked =>
    obtain ⟨_, call, hcause, hid, _⟩ := h
    simp only [requestOf, hcause, causeRequest, hid]
  | _ => exact congrArg some h.1

theorem countP_eraseIdx_le (network : List Message) (index : ℕ) :
    (network.eraseIdx index).countP (fun m => IsRefresh m) ≤
      network.countP fun m => IsRefresh m :=
  (List.eraseIdx_sublist network index).countP_le

/-- A lost message leaves the refresh as far as it was. -/
theorem honest_lose (h : Honest cfg w) :
    Honest cfg { w with network := w.network.eraseIdx index } := by
  have hsub : ∀ m ∈ w.network.eraseIdx index, m ∈ w.network :=
    fun m hm => List.mem_of_mem_eraseIdx hm
  refine ⟨h.trusted, fun m hm => h.numbered m (hsub m hm), h.flight, ?_⟩
  cases h.stage with
  | idle hflight hquiet htasks hcurrent =>
    exact .idle hflight (fun m hm => hquiet m (hsub m hm)) htasks hcurrent
  | asked id hflight hasked hone hwaits htasks hcurrent =>
    exact .asked id hflight (fun m hm => hasked m (hsub m hm))
      ((countP_eraseIdx_le w.network index).trans hone) (fun m hm => hwaits m (hsub m hm)) htasks
      hcurrent
  | serving id refreshToken task hflight htoken hquiet hwaits htasks hserves hcurrent =>
    exact .serving id refreshToken task hflight htoken (fun m hm => hquiet m (hsub m hm))
      (fun m hm => hwaits m (hsub m hm)) htasks (serves_same rfl rfl hserves) hcurrent
  | settled id hflight hquiet htasks hissued hrefused hknown =>
    exact .settled id hflight (fun m hm => hquiet m (hsub m hm)) htasks
      (fun refreshToken hm => hissued refreshToken (hsub _ hm)) (fun hm => hrefused (hsub _ hm))
      hknown

/-- Calls of the application do not matter to the refresh in flight. -/
theorem honest_withCalls (h : Honest cfg w) (calls : List CallPhase) :
    Honest cfg { w with client := w.client.withCalls calls } := by
  refine ⟨h.trusted, h.numbered, h.flight, ?_⟩
  cases h.stage with
  | idle hflight hquiet htasks hcurrent => exact .idle hflight hquiet htasks hcurrent
  | asked id hflight hasked hone hwaits htasks hcurrent =>
    exact .asked id hflight hasked hone hwaits htasks hcurrent
  | serving id refreshToken task hflight htoken hquiet hwaits htasks hserves hcurrent =>
    exact .serving id refreshToken task hflight htoken hquiet hwaits htasks
      (serves_same rfl rfl hserves) hcurrent
  | settled id hflight hquiet htasks hissued hrefused hknown =>
    exact .settled id hflight hquiet htasks hissued hrefused hknown

/-- A new refresh is the only one in flight. -/
theorem honest_startRefresh (h : Honest cfg w) : Honest cfg (startRefresh w w.client) := by
  cases hflight : w.client.inFlightRefresh with
  | some id =>
    have hsame : startRefresh w w.client = w := by
      simp only [startRefresh, refreshOnce, hflight, List.nil_append]
    rw [hsame]
    exact h
  | none =>
    have hstart : startRefresh w w.client = { w with
        client := { w.client with
          inFlightRefresh := some w.client.nextRequest
          nextRequest := w.client.nextRequest+1 }
        network := .refreshRequest w.client.nextRequest w.client.refreshToken :: w.network } := by
      simp only [startRefresh, refreshOnce, hflight, List.singleton_append]
    cases h.stage with
    | idle _ hquiet htasks hcurrent =>
      rw [hstart]
      refine ⟨h.trusted, ?_, ?_, ?_⟩
      · intro m hm
        rcases List.mem_cons.mp hm with rfl | hm
        · exact Nat.lt_succ_self _
        · exact Nat.lt_succ_of_lt (h.numbered m hm)
      · intro id hid
        rw [← Option.some.inj hid]
        exact Nat.lt_succ_self _
      · refine .asked w.client.nextRequest rfl ?_ ?_ ?_ htasks hcurrent
        · intro m hm hrefresh
          rcases List.mem_cons.mp hm with rfl | hm
          · rfl
          · exact absurd hrefresh (hquiet m hm)
        · rw [List.countP_cons]
          have hzero : w.network.countP (fun m => IsRefresh m) = 0 := by
            rw [List.countP_eq_zero]
            intro m hm
            simpa using hquiet m hm
          rw [hzero]
          split_ifs <;> omega
        · intro m hm hrefresh
          rcases List.mem_cons.mp hm with rfl | hm
          · exact absurd trivial hrefresh
          · exact (h.numbered m hm).ne
    | asked id hasked => rw [hflight] at hasked; cases hasked
    | serving id refreshToken task hserving => rw [hflight] at hserving; cases hserving
    | settled id hsettled => rw [hflight] at hsettled; cases hsettled

/-- The one message that was asked for is taken off the network. -/
theorem quiet_of_taken {network : List Message} (hone : network.countP (fun m => IsRefresh m) ≤ 1)
    (hget : network[index]? = some m) (hm : IsRefresh m) :
    ∀ other ∈ network.eraseIdx index, ¬ IsRefresh other := by
  have hcount := (tasks_perm hget).countP_eq fun m => decide (IsRefresh m)
  rw [List.countP_cons_of_pos (by simpa using hm)] at hcount
  have hzero : (network.eraseIdx index).countP (fun m => IsRefresh m) = 0 := by omega
  intro other hother
  simpa using List.countP_eq_zero.mp hzero other hother

/-- A refresh that arrives was asked for by the refresh in flight. -/
theorem asked_of_refresh {request : RequestId} {presentedToken : Option String}
    (h : Honest cfg w) (hm : .refreshRequest request presentedToken ∈ w.network) :
    w.client.inFlightRefresh = some request ∧ presentedToken = w.client.refreshToken ∧
      w.network.countP (fun m => IsRefresh m) ≤ 1 ∧ Unanswered w.network request ∧
        w.server.tasks = [] ∧ TokenCurrent cfg w := by
  cases h.stage with
  | idle _ hquiet => exact absurd trivial (hquiet _ hm)
  | asked id hflight hasked hone hwaits htasks hcurrent =>
    cases hasked _ hm trivial
    exact ⟨hflight, rfl, hone, hwaits, htasks, hcurrent⟩
  | serving id refreshToken task _ _ hquiet => exact absurd trivial (hquiet _ hm)
  | settled id _ hquiet => exact absurd trivial (hquiet _ hm)

/-- A response to the refresh in flight comes when the server is done with it. -/
theorem settled_of_response {id : RequestId} (h : Honest cfg w)
    (hflight : w.client.inFlightRefresh = some id) (hm : m ∈ w.network) (hnot : ¬ IsRefresh m)
    (hid : messageRequest m = id) :
    (∀ m ∈ w.network, ¬ IsRefresh m) ∧ w.server.tasks = [] ∧
      (∀ refreshToken, .issued id refreshToken ∈ w.network →
        Current cfg w.server.shared.tokens refreshToken) ∧
      (.refused id ∈ w.network → w.client.transport = .cookie → TokenCurrent cfg w) := by
  cases h.stage with
  | idle hnone => rw [hflight] at hnone; cases hnone
  | asked id' hflight' _ _ hwaits =>
    cases hflight.symm.trans hflight'
    exact absurd hid (hwaits m hm hnot)
  | serving id' _ _ hflight' _ _ hwaits =>
    cases hflight.symm.trans hflight'
    exact absurd hid (hwaits m hm hnot)
  | settled id' hflight' hquiet htasks hissued hrefused =>
    cases hflight.symm.trans hflight'
    exact ⟨hquiet, htasks, hissued, hrefused⟩

theorem honest_idle {c : Client} (h : Honest cfg w) (hflight : c.inFlightRefresh = none)
    (hnext : c.nextRequest = w.client.nextRequest) (hquiet : ∀ m ∈ w.network, ¬ IsRefresh m)
    (htasks : w.server.tasks = [])
    (hcurrent : ∀ refreshToken ∈ c.refreshToken,
      Current cfg w.server.shared.tokens refreshToken) :
    Honest cfg { w with client := c } := by
  refine ⟨h.trusted, ?_, ?_, .idle hflight hquiet htasks hcurrent⟩
  · intro m hm
    exact hnext ▸ h.numbered m hm
  · intro id hid
    rw [hflight] at hid
    cases hid

theorem honest_receive (h : Honest cfg w) (hm : m ∈ w.network) (hnot : ¬ IsRefresh m) :
    Honest cfg { w with client := receive w.client m } := by
  cases m with
  | refreshRequest request presentedToken => exact absurd trivial hnot
  | issued request refreshToken =>
    simp only [receive]
    split_ifs with hflight
    · obtain ⟨hquiet, htasks, hissued, _⟩ := settled_of_response h hflight hm hnot rfl
      refine honest_idle h rfl rfl hquiet htasks ?_
      intro refreshToken' htoken
      rw [← Option.some.inj htoken]
      exact hissued refreshToken hm
    · exact h
  | refused request =>
    simp only [receive]
    split_ifs with hflight
    · obtain ⟨hquiet, htasks, _, hrefused⟩ := settled_of_response h hflight hm hnot rfl
      refine honest_idle h rfl rfl hquiet htasks ?_
      intro refreshToken htoken
      cases htransport : w.client.transport with
      | body =>
        simp only [onUnauthorized, settle, htransport] at htoken
        cases htoken
      | cookie =>
        simp only [onUnauthorized, settle, htransport] at htoken
        exact hrefused hm htransport refreshToken htoken
    · exact h

/-- The message is read while it is still counted, and then taken off the network. -/
theorem honest_deliver_response (h : Honest cfg w) (hget : w.network[index]? = some m)
    (hnot : ¬ IsRefresh m) :
    Honest cfg { w with
      network := w.network.eraseIdx index
      client := receive w.client m } :=
  honest_lose (honest_receive h (List.mem_of_getElem? hget) hnot)

theorem honest_deliver {w' : ClientWorld} (h : Honest cfg w) (hget : w.network[index]? = some m)
    (harrive : arrive cfg { w with network := w.network.eraseIdx index } m = some w') :
    Honest cfg w' := by
  have hm : m ∈ w.network := List.mem_of_getElem? hget
  have hsub : ∀ m ∈ w.network.eraseIdx index, m ∈ w.network :=
    fun m hm => List.mem_of_mem_eraseIdx hm
  have hlost : Honest cfg { w with network := w.network.eraseIdx index } := honest_lose h
  cases m with
  | refreshRequest request presentedToken =>
    obtain ⟨hflight, htoken, hone, hwaits, htasks, hcurrent⟩ := asked_of_refresh h hm
    have hquiet := quiet_of_taken hone hget trivial
    have hwaits' : Unanswered (w.network.eraseIdx index) request :=
      fun m hm => hwaits m (hsub m hm)
    cases presentedToken with
    | none =>
      cases harrive
      refine ⟨h.trusted, ?_, h.flight, ?_⟩
      · intro m hm
        rcases List.mem_cons.mp hm with rfl | hm
        · exact h.flight request hflight
        · exact hlost.numbered m hm
      · refine .settled request hflight ?_ htasks ?_ (fun _ _ => hcurrent)
          (tokenKnown_of_current hcurrent)
        · intro m hm
          rcases List.mem_cons.mp hm with rfl | hm
          · exact fun h => h
          · exact hquiet m hm
        · intro refreshToken hm
          rcases List.mem_cons.mp hm with heq | hm
          · cases heq
          · exact absurd rfl (hwaits' _ hm fun h => h)
    | some presentedToken =>
      simp only [arrive] at harrive
      obtain ⟨server, hstep, heq⟩ := Option.map_eq_some_iff.mp harrive
      cases heq
      obtain ⟨s', started, hstart, rfl⟩ := event_eq_some hstep
      let call : RefreshCall :=
        ⟨request, cfg.hashToken presentedToken, w.client.actor, w.server.shared.clock⟩
      have hpair : (w.server.shared, [SessionTask.bound call]) = (s', started) :=
        Option.some.inj hstart
      cases hpair
      refine ⟨h.trusted, hlost.numbered, h.flight, ?_⟩
      refine .serving request presentedToken (.bound call) hflight htoken.symm hquiet hwaits' ?_
        ⟨rfl, rfl⟩ hcurrent
      simp only [htasks]
      rfl
  | issued request refreshToken =>
    cases harrive
    exact honest_deliver_response h hget fun h => h
  | refused request =>
    cases harrive
    exact honest_deliver_response h hget fun h => h

theorem honest_networkFailure (h : Honest cfg w) (hheard : Heard cfg w .networkFailure) :
    Honest cfg { w with client := onNetworkFailure w.client } := by
  obtain ⟨hquiet, hserved, hunrotated⟩ := hheard
  have hidle : w.server.tasks = [] → TokenCurrent cfg w →
      Honest cfg { w with client := onNetworkFailure w.client } :=
    fun htasks hcurrent => honest_idle h rfl rfl hquiet htasks hcurrent
  cases h.stage with
  | idle _ _ htasks hcurrent => exact hidle htasks hcurrent
  | asked _ _ _ _ _ htasks hcurrent => exact hidle htasks hcurrent
  | serving id refreshToken task hflight _ _ _ htasks hserves _ =>
    have hrequest := request_of_serves hserves
    have hmem : task ∈ w.server.tasks := by
      rw [htasks]
      exact List.mem_cons_self
    exact absurd (hrequest.trans hflight.symm) (hserved task hmem)
  | settled _ _ _ htasks _ _ hknown =>
    refine hidle htasks ?_
    intro refreshToken htoken
    obtain ⟨r, hr, hhash, hrest⟩ := hknown refreshToken htoken
    have hopen := hunrotated refreshToken htoken r hr hhash
    exact ⟨r, hr, hhash, hopen, hrest hopen⟩

end Network

section Server

variable {cfg : TokenConfig} {w : ClientWorld} {id : RequestId} {refreshToken : String}
  {task : SessionTask} {input : SessionInput} {s' : SessionShared} {left : List SessionTask}

/-- The refresh in flight is being served. -/
structure Serving (cfg : TokenConfig) (w : ClientWorld) (id : RequestId) (refreshToken : String)
    (task : SessionTask) : Prop where
  flight : w.client.inFlightRefresh = some id
  token : w.client.refreshToken = some refreshToken
  quiet : ∀ m ∈ w.network, ¬ IsRefresh m
  waits : Unanswered w.network id
  serves : Serves cfg w id refreshToken task
  current : TokenCurrent cfg w

/-- The world after a statement of the one call there is. -/
def served (w : ClientWorld) (s' : SessionShared) (left : List SessionTask)
    (answers : List Message) : ClientWorld :=
  { w with server := ⟨s', left⟩, network := answers ++ w.network }

theorem responses_records (s : SessionShared) (records : List SessionRecord)
    (h : s'.history = records ++ s.history) :
    responses s s' = records.filterMap responseOf := by
  unfold responses
  rw [h, List.length_append, Nat.add_sub_cancel, List.take_left']
  rfl

theorem Serving.known (hs : Serving cfg w id refreshToken task) :
    ∃ r ∈ w.server.shared.tokens.rows, r.tokenHash = cfg.hashToken refreshToken ∧
      r.rotatedAt = none ∧ r.revokedAt = none :=
  hs.current refreshToken hs.token

/-- A statement that only reads leaves a call that goes on. -/
theorem honest_goesOn (h : Honest cfg w) (hs : Serving cfg w id refreshToken task)
    {task' : SessionTask} (hserves : Serves cfg w id refreshToken task') :
    Honest cfg (served w w.server.shared [task']
      (responses w.server.shared w.server.shared)) := by
  rw [responses_records w.server.shared [] rfl]
  exact ⟨h.trusted, h.numbered, h.flight,
    .serving id refreshToken task' hs.flight hs.token hs.quiet hs.waits rfl
      (serves_same rfl rfl hserves) hs.current⟩

/-- A call that ends with its response settles the refresh. -/
theorem honest_answered (h : Honest cfg w) (hs : Serving cfg w id refreshToken task)
    {answer : Message} (hid : messageRequest answer = id) (hnot : ¬ IsRefresh answer)
    (htrusted : NeverSuspected (served w s' [] [answer]))
    (hissued : ∀ issuedToken, answer = .issued id issuedToken →
      Current cfg s'.tokens issuedToken)
    (hrefused : answer = .refused id → w.client.transport = .cookie →
      TokenCurrent cfg (served w s' [] [answer]))
    (hknown : TokenKnown cfg (served w s' [] [answer])) :
    Honest cfg (served w s' [] [answer]) := by
  have hold : ∀ m ∈ w.network, messageRequest m = id → IsRefresh m := by
    intro m hm heq
    by_contra hno
    exact hs.waits m hm hno heq
  refine ⟨htrusted, ?_, h.flight, .settled id hs.flight ?_ rfl ?_ ?_ hknown⟩
  · intro m hm
    rcases List.mem_cons.mp hm with rfl | hm
    · exact hid ▸ h.flight id hs.flight
    · exact h.numbered m hm
  · intro m hm
    rcases List.mem_cons.mp hm with rfl | hm
    · exact hnot
    · exact hs.quiet m hm
  · intro issuedToken hm
    rcases List.mem_cons.mp hm with heq | hm
    · exact hissued issuedToken heq.symm
    · exact (hold _ hm rfl).elim
  · intro hm
    rcases List.mem_cons.mp hm with heq | hm
    · exact hrefused heq.symm
    · exact (hold _ hm rfl).elim

/-- The call ends in a refusal that has changed no row. -/
theorem honest_refused (h : Honest cfg w) (hs : Serving cfg w id refreshToken task)
    (htokens : s'.tokens = w.server.shared.tokens)
    (htrusted : ∀ cause familyId, .revoked cause familyId ∈ s'.history →
      .revoked cause familyId ∈ w.server.shared.history) :
    Honest cfg (served w s' [] [.refused id]) := by
  have hcurrent : TokenCurrent cfg (served w s' [] [.refused id]) := by
    intro refreshToken htoken
    change Current cfg s'.tokens refreshToken
    rw [htokens]
    exact hs.current refreshToken htoken
  refine honest_answered h hs rfl (fun h => h) ?_ ?_ (fun _ _ => hcurrent)
    (tokenKnown_of_current hcurrent)
  · exact fun cause familyId hmem => h.trusted cause familyId (htrusted cause familyId hmem)
  · intro issuedToken heq
    cases heq

/-- A call that is rejected records it and changes nothing else. -/
theorem honest_rejected (h : Honest cfg w) (hs : Serving cfg w id refreshToken task) :
    Honest cfg (served w (w.server.shared.note [.rejected id]) []
      (responses w.server.shared (w.server.shared.note [.rejected id]))) := by
  rw [responses_records w.server.shared [.rejected id] rfl]
  refine honest_refused h hs rfl ?_
  intro cause familyId hmem
  rcases List.mem_cons.mp hmem with heq | hmem
  · cases heq
  · exact hmem

/-- A rotation makes the issued token the current one. -/
theorem honest_issued (h : Honest cfg w) {call : RefreshCall} {stored : RefreshToken}
    (hs : Serving cfg w id refreshToken (.create call stored)) {tokens : RefreshTokens}
    {issuedToken : String} {expiresAt : Instant}
    (hcreate : create (commitClaim w.server.shared.tokens call.tokenHash call.now)
      (stored.successor (cfg.hashToken issuedToken) expiresAt) = some tokens)
    (htokens : s'.tokens = tokens)
    (htrusted : ∀ cause familyId, .revoked cause familyId ∈ s'.history →
      .revoked cause familyId ∈ w.server.shared.history) :
    Honest cfg (served w s' [] [.issued id issuedToken]) := by
  obtain ⟨hid, hhash⟩ : call.request = id ∧ call.tokenHash = cfg.hashToken refreshToken := hs.serves
  unfold create at hcreate
  split_ifs at hcreate with htaken
  have hnew := Option.some.inj hcreate
  refine honest_answered h hs rfl (fun h => h) ?_ ?_ (fun heq => by cases heq) ?_
  · exact fun cause familyId hmem => h.trusted cause familyId (htrusted cause familyId hmem)
  · intro issuedToken' heq
    cases heq
    rw [htokens, ← hnew]
    refine ⟨_, Table.mem_insertNew.mpr (Or.inr ⟨rfl, ?_⟩), rfl, rfl, rfl⟩
    exact fun r hr heq => htaken ⟨r, hr, heq⟩
  · intro refreshToken' htoken
    have hsame : refreshToken = refreshToken' := Option.some.inj (hs.token.symm.trans htoken)
    obtain ⟨r, hr, hrhash, _⟩ := hs.known
    refine ⟨r.rotated call.now, ?_, hsame ▸ hrhash, fun hnone => by cases hnone⟩
    change r.rotated call.now ∈ s'.tokens.rows
    rw [htokens, ← hnew]
    refine Table.mem_insertNew.mpr (Or.inl (List.mem_map.mpr ⟨r, hr, if_pos ?_⟩))
    exact hrhash.trans hhash.symm

/-- The family of an inactive account is revoked, its claimed row with it. -/
theorem honest_inactive (h : Honest cfg w) {r : Revocation} {locked : List TokenHash}
    (hs : Serving cfg w id refreshToken (.revoking r [] locked)) :
    Honest cfg (served w (finishRevocation w.server.shared r locked) []
      (responses w.server.shared (finishRevocation w.server.shared r locked))) := by
  obtain ⟨hbody, call, hcause, hid, hhash⟩ : w.client.transport = .body ∧
      ∃ call, r.cause = .inactive call ∧ call.request = id ∧
        call.tokenHash = cfg.hashToken refreshToken := hs.serves
  have hhistory : (finishRevocation w.server.shared r locked).history =
      [.rejected id, .revoked r.cause r.familyId] ++ w.server.shared.history := by
    rw [history_revocation, hcause]
    simp only [RevokeCause.response, hid]
    rfl
  rw [responses_records w.server.shared _ hhistory]
  change Honest cfg (served w _ [] [.refused id])
  refine honest_answered h hs rfl (fun h => h) ?_ (fun _ heq => by cases heq) ?_ ?_
  · intro cause familyId hmem
    change .revoked cause familyId ∈ (finishRevocation w.server.shared r locked).history at hmem
    rw [hhistory] at hmem
    rcases List.mem_cons.mp hmem with heq | hmem
    · cases heq
    · rcases List.mem_cons.mp hmem with heq | hmem
      · cases heq
        exact ⟨call, hcause⟩
      · exact h.trusted cause familyId hmem
  · intro _ hcookie
    exact absurd (hbody.symm.trans hcookie) (by decide)
  · intro refreshToken' htoken
    have hsame : refreshToken = refreshToken' := Option.some.inj (hs.token.symm.trans htoken)
    obtain ⟨row, hrow, hrhash, _⟩ := hs.known
    let claimed := row.rotated call.now
    refine ⟨if claimed.tokenHash ∈ locked then claimed.revoked r.now else claimed, ?_, ?_, ?_⟩
    · simp only [served, finishRevocation, SessionShared.note, SessionShared.withTokens, hcause]
      refine List.mem_map.mpr ⟨claimed, List.mem_map.mpr ⟨row, hrow, if_pos ?_⟩, rfl⟩
      exact hrhash.trans hhash.symm
    · split_ifs
      · exact hsame ▸ hrhash
      · exact hsame ▸ hrhash
    · split_ifs
      · exact fun hnone => by cases hnone
      · exact fun hnone => by cases hnone

/-- The current row of the token is the one a statement finds. -/
theorem Serving.found {call : RefreshCall} {r : RefreshToken}
    (hs : Serving cfg w id refreshToken task)
    (hhash : call.tokenHash = cfg.hashToken refreshToken)
    (hfind : w.server.shared.tokens.find? call.tokenHash = some r) :
    r.rotatedAt = none ∧ r.revokedAt = none := by
  obtain ⟨q, hq, hqhash, hopen⟩ := hs.known
  obtain ⟨hr, hrhash⟩ := Table.find?_eq_some.mp hfind
  rw [w.server.shared.tokens.eq_of_key_eq hr hq (hrhash.trans (hhash.trans hqhash.symm))]
  exact hopen

/-- The claim of a current token fails only when the token has expired. -/
theorem honest_claim (h : Honest cfg w) {call : RefreshCall}
    (hs : Serving cfg w id refreshToken (.claim call))
    (hclaim : claimToken w.server.shared [] call = some (s', left)) :
    Honest cfg (served w s' left (responses w.server.shared s')) := by
  have hserves : call.request = id ∧ call.tokenHash = cfg.hashToken refreshToken := hs.serves
  simp only [claimToken] at hclaim
  cases hfind : w.server.shared.tokens.find? call.tokenHash with
  | none =>
    simp only [hfind] at hclaim
    cases hclaim
    refine honest_goesOn h hs ⟨hserves.1, ?_⟩
    intro r hr hhash
    exact absurd hhash (Table.find?_eq_none.mp hfind r hr)
  | some r =>
    simp only [hfind] at hclaim
    split_ifs at hclaim with hclaimable
    · cases hclaim
      exact honest_goesOn h hs hserves
    · cases hclaim
      refine honest_goesOn h hs ⟨hserves.1, ?_⟩
      intro q hq hhash
      obtain ⟨hr, hrhash⟩ := Table.find?_eq_some.mp hfind
      rw [w.server.shared.tokens.eq_of_key_eq hq hr (hhash.trans hrhash.symm)]
      obtain ⟨hunrotated, hunrevoked⟩ := hs.found hserves.2 hfind
      by_contra hlive
      exact hclaimable ⟨hunrotated, hunrevoked, not_le.mp hlive⟩

/-- What the world is after a statement that did not fail. -/
theorem honest_statement (h : Honest cfg w) (hs : Serving cfg w id refreshToken task)
    (hactive : w.client.transport = .cookie → input.active = true)
    (hstatement : nextStatement cfg w.server.shared [] input task = some (s', left)) :
    Honest cfg (served w s' left (responses w.server.shared s')) := by
  cases task with
  | issue row => exact hs.serves.elim
  | findForLogout tokenHash expectedActor => exact hs.serves.elim
  | bound call =>
    have hserves : call.request = id ∧ call.tokenHash = cfg.hashToken refreshToken := hs.serves
    simp only [nextStatement] at hstatement
    split at hstatement
    · cases hstatement
      exact honest_goesOn h hs hserves
    · split_ifs at hstatement
      · cases hstatement
        exact honest_goesOn h hs hserves
      · cases hstatement
        rw [hserves.1]
        exact honest_rejected h hs
  | claim call => exact honest_claim h hs hstatement
  | resolvePrincipal call stored =>
    have hserves : call.request = id ∧ call.tokenHash = cfg.hashToken refreshToken := hs.serves
    simp only [nextStatement] at hstatement
    split_ifs at hstatement with haccount
    · cases hstatement
      exact honest_goesOn h hs hserves
    · cases hstatement
      refine honest_goesOn h hs ⟨?_, call, rfl, hserves⟩
      cases htransport : w.client.transport with
      | body => rfl
      | cookie => exact absurd (hactive htransport) haccount
  | create call stored =>
    have hserves : call.request = id ∧ call.tokenHash = cfg.hashToken refreshToken := hs.serves
    obtain ⟨tokens, hcreate, heq⟩ := Option.map_eq_some_iff.mp hstatement
    cases heq
    rw [responses_records w.server.shared [.refreshed call stored.familyId input.rawRefreshToken] rfl]
    simp only [List.filterMap_cons, responseOf, List.filterMap_nil, hserves.1]
    refine honest_issued h hs hcreate rfl ?_
    intro cause familyId hmem
    rcases List.mem_cons.mp hmem with heq | hmem
    · cases heq
    · exact hmem
  | handleClaimFailure call =>
    obtain ⟨hid, hexpired⟩ : call.request = id ∧ ∀ r ∈ w.server.shared.tokens.rows,
      r.tokenHash = call.tokenHash → r.expiresAt ≤ call.now := hs.serves
    simp only [nextStatement] at hstatement
    split at hstatement
    · cases hstatement
      rw [hid]
      exact honest_rejected h hs
    · rename_i r hfind
      obtain ⟨hr, hrhash⟩ := Table.find?_eq_some.mp hfind
      rw [if_pos (hexpired r hr hrhash)] at hstatement
      cases hstatement
      rw [hid]
      exact honest_rejected h hs
  | revoke r =>
    cases hstatement
    exact honest_goesOn h hs hs.serves
  | revoking r found locked =>
    cases found with
    | nil =>
      cases hstatement
      exact honest_inactive h hs
    | cons row found =>
      obtain ⟨rest, hreach, heq⟩ := Option.map_eq_some_iff.mp hstatement
      cases heq
      unfold reachRow at hreach
      split_ifs at hreach
      split at hreach
      · cases hreach
        exact honest_goesOn h hs hs.serves
      · split_ifs at hreach
        · cases hreach
          exact honest_goesOn h hs hs.serves
        · cases hreach
          exact honest_goesOn h hs hs.serves

theorem honest_serve {w' : ClientWorld} {index : ℕ} (h : Honest cfg w)
    (hheard : Heard cfg w (.serve index input))
    (hstep : clientStep cfg w (.serve index input) = some w') : Honest cfg w' := by
  obtain ⟨server, hserver, heq⟩ := Option.map_eq_some_iff.mp hstep
  cases heq
  obtain ⟨task, s', left, hget, hresume, rfl⟩ := resume_eq_some hserver
  have hmem : task ∈ w.server.tasks := List.mem_of_getElem? hget
  cases h.stage with
  | idle _ _ htasks => rw [htasks] at hmem; cases hmem
  | asked _ _ _ _ _ htasks => rw [htasks] at hmem; cases hmem
  | settled _ _ _ htasks => rw [htasks] at hmem; cases hmem
  | serving id refreshToken task' hflight htoken hquiet hwaits htasks hserves hcurrent =>
    rw [htasks] at hget hresume
    obtain ⟨hindex, rfl⟩ : index = 0 ∧ task' = task := by
      cases index with
      | zero => exact ⟨rfl, Option.some.inj hget⟩
      | succ index => cases hget
    have hs : Serving cfg w id refreshToken task' :=
      ⟨hflight, htoken, hquiet, hwaits, hserves, hcurrent⟩
    have hothers : w.server.tasks.eraseIdx index = [] := by
      rw [htasks, hindex]
      rfl
    rw [hindex] at hresume
    have hresume' : resumeCall cfg w.server.shared [] input task' = some (s', left) := hresume
    have hgoal : Honest cfg (served w s' left (responses w.server.shared s' ++
        failureResponses w.server index input)) := by
      unfold resumeCall at hresume'
      split_ifs at hresume' with hfails
      · cases hresume'
        have hanswers : responses w.server.shared w.server.shared ++
            failureResponses w.server index input = [.refused id] := by
          rw [responses_records w.server.shared [] rfl]
          simp only [failureResponses, hfails, htasks, hindex, if_true,
            List.getElem?_cons_zero, Option.bind_some, request_of_serves hserves]
          rfl
        rw [hanswers]
        exact honest_refused h hs rfl fun _ _ hmem => hmem
      · have hnone : failureResponses w.server index input = [] := if_neg hfails
        rw [hnone, List.append_nil]
        exact honest_statement h hs hheard hresume'
    rw [hothers, List.append_nil]
    exact hgoal

end Server

section Runs

variable {cfg : TokenConfig} {w w' : ClientWorld}

theorem honest_tick {clock : Instant} (h : Honest cfg w)
    (hstep : clientStep cfg w (.tick clock) = some w') : Honest cfg w' := by
  obtain ⟨server, hserver, heq⟩ := Option.map_eq_some_iff.mp hstep
  cases heq
  obtain ⟨s', started, hstart, rfl⟩ := event_eq_some hserver
  have htick : startCall cfg w.server.shared (.tick clock) = some (s', started) := hstart
  simp only [startCall] at htick
  split_ifs at htick
  cases htick
  refine ⟨h.trusted, h.numbered, h.flight, ?_⟩
  cases h.stage with
  | idle hflight hquiet htasks hcurrent => exact .idle hflight hquiet htasks hcurrent
  | asked id hflight hasked hone hwaits htasks hcurrent =>
    exact .asked id hflight hasked hone hwaits htasks hcurrent
  | serving id refreshToken task hflight htoken hquiet hwaits htasks hserves hcurrent =>
    exact .serving id refreshToken task hflight htoken hquiet hwaits htasks
      (serves_same rfl rfl hserves) hcurrent
  | settled id hflight hquiet htasks hissued hrefused hknown =>
    exact .settled id hflight hquiet htasks hissued hrefused hknown

theorem honest_step {a : ClientAction} (h : Honest cfg w) (hheard : Heard cfg w a)
    (hstep : clientStep cfg w a = some w') : Honest cfg w' := by
  cases a with
  | tick clock => exact honest_tick h hstep
  | request =>
    cases hstep
    exact honest_withCalls h _
  | refresh =>
    cases hstep
    exact honest_startRefresh (honest_withCalls h (.awaitingRefresh false :: w.client.calls))
  | answer index unauthorized =>
    simp only [clientStep, answerRequest] at hstep
    split at hstep
    · split_ifs at hstep
      · cases hstep
        exact honest_startRefresh
          (honest_withCalls h (w.client.calls.set index (.awaitingRefresh true)))
      · cases hstep
        exact honest_withCalls h _
    · cases hstep
      exact honest_withCalls h _
    · cases hstep
  | failRequest index =>
    simp only [clientStep] at hstep
    split at hstep
    · cases hstep
    · cases hstep
    · cases hstep
      exact honest_withCalls h _
  | deliver index =>
    simp only [clientStep] at hstep
    split at hstep
    · cases hstep
    · rename_i m hget
      exact honest_deliver h hget hstep
  | lose index =>
    cases hstep
    exact honest_lose h
  | networkFailure =>
    simp only [clientStep] at hstep
    split_ifs at hstep
    cases hstep
    exact honest_networkFailure h hheard
  | serve index input => exact honest_serve h hheard hstep

theorem honest_signedIn (h : SignedIn cfg w) : Honest cfg w := by
  refine ⟨?_, ?_, ?_, .idle h.idle ?_ h.tasks h.current⟩
  · intro cause familyId hmem
    rw [h.history] at hmem
    cases hmem
  · rw [h.network]
    exact fun m hm => by cases hm
  · rw [h.idle]
    exact fun id hid => by cases hid
  · rw [h.network]
    exact fun m hm => by cases hm

/-- In every run in which a fetch fails only for a refresh that was not and will not be
served, the server suspects nothing and revokes a family for an inactive account alone. -/
theorem client_never_suspected (cfg : TokenConfig)
    (h : Reachable (clientStep cfg) (Heard cfg) (SignedIn cfg) w) : NeverSuspected w :=
  (h.invariant (fun _ hinit => honest_signedIn hinit)
    fun _ _ _ hs hok hstep => honest_step hs hok hstep).trusted

end Runs

section SampleRuns

def plainConfig : TokenConfig := ⟨id, defaultRefreshTtlMs⟩

def sampleToken : RefreshToken := ⟨"t1", .consumer, "u", "f", none, none, defaultRefreshTtlMs⟩

def sampleWorld : ClientWorld where
  server := ⟨⟨Table.empty.insertNew sampleToken, 0, []⟩, []⟩
  network := []
  client := ⟨.body, .consumer, some "t1", none, [], 0⟩

theorem sampleWorld_signedIn : SignedIn plainConfig sampleWorld := by
  refine ⟨rfl, rfl, rfl, rfl, ?_⟩
  intro refreshToken htoken
  rw [← Option.some.inj htoken]
  exact ⟨sampleToken, Table.mem_insertNew.mpr (Or.inr ⟨rfl, fun _ h => by cases h⟩), rfl, rfl, rfl⟩

/-- The server runs the statements of a refresh. -/
def serveAll (n : ℕ) (rawRefreshToken : String) : List ClientAction :=
  List.replicate n (.serve 0 { rawRefreshToken, row := "t1" })

/-- A request that is lost on its way is asked for again. -/
def requestLost : List ClientAction :=
  [.refresh, .lose 0, .networkFailure, .request, .answer 0 true, .deliver 0] ++
    serveAll 4 "t2" ++ [.deliver 0, .answer 0 false]

theorem client_never_suspected_requestLost :
    ∃ w, Reachable (clientStep plainConfig) (Heard plainConfig) (SignedIn plainConfig) w ∧
      w.client.refreshToken = some "t2" ∧ NeverSuspected w := by
  have hw : Reachable (clientStep plainConfig) (Heard plainConfig) (SignedIn plainConfig)
      (after (clientStep plainConfig) sampleWorld requestLost) :=
    reachable_after_guarded (.start sampleWorld_signedIn) (by decide +kernel) (by decide +kernel)
  exact ⟨_, hw, by decide +kernel, client_never_suspected plainConfig hw⟩

/-- The response to a rotation is lost and the client asks again. -/
def responseLost : List ClientAction :=
  [.refresh, .deliver 0] ++ serveAll 4 "t2" ++ [.lose 0, .networkFailure, .refresh, .deliver 0] ++
    serveAll 4 "t3" ++ [.serve 0 { row := "t1" }, .serve 0 { row := "t2" }, .serve 0 {}]

theorem client_suspected :
    ∃ w, Reachable (clientStep plainConfig) anyStep (SignedIn plainConfig) w ∧
      w.client.refreshToken = some "t1" ∧
      (∃ call, .revoked (.reuse call) "f" ∈ w.server.shared.history) ∧
      (∀ r ∈ w.server.shared.tokens.rows, r.revokedAt ≠ none) ∧ ¬ NeverSuspected w := by
  have hw : Reachable (clientStep plainConfig) anyStep (SignedIn plainConfig)
      (after (clientStep plainConfig) sampleWorld responseLost) :=
    reachable_after (.start sampleWorld_signedIn) (by decide +kernel)
  have hreuse : .revoked (.reuse ⟨1, "t1", .consumer, 0⟩) "f" ∈
      (after (clientStep plainConfig) sampleWorld responseLost).server.shared.history := by
    decide +kernel
  refine ⟨_, hw, by decide +kernel, ⟨_, hreuse⟩, by decide +kernel, ?_⟩
  intro htrusted
  obtain ⟨call, hcause⟩ := htrusted _ _ hreuse
  cases hcause

end SampleRuns

end Kurtar.HonestClient

import Kurtar.PushDispatch

/-!
# Who is notified, and which tokens are disabled

A message goes out only for a user who was allowed when the policy looked, to a
token that was live when it was fetched, and once to each. A token is disabled
only by the provider's own ticket for it, and stays so until it is registered
again.
-/

namespace Kurtar.DispatchedPushes

open KeyedTable GuardedRuns IstanbulCalendar PushBatches Timelines PushDispatch

section Policy

/-- Sent whatever the preferences are. -/
def Transactional (kind : NotificationKind) : Prop :=
  kind = .RESERVATION_CONFIRMED ∨ kind = .RESERVATION_CANCELLED_REFUND ∨ kind = .PICKUP_REMINDER

/-- The user has not turned this kind off. -/
def Wanted (kind : NotificationKind) (prefs : NotificationPreference) : Prop :=
  (kind = .OFFER_FAVORITE → prefs.favoritesEnabled = true) ∧
    (kind = .OFFER_NEARBY → prefs.nearbyEnabled = true)

/-- The hour lies on the way round the clock from the start to the end. -/
def Quiet (prefs : NotificationPreference) (now : Instant) : Prop :=
  ∃ start ∈ prefs.quietHoursStart, ∃ stop ∈ prefs.quietHoursEnd,
    (istanbulHourOfDay now-(start : ℕ))%24 < (((stop : ℕ) : ℤ)-(start : ℕ))%24

/-- A user with these rows may be notified. -/
def MayNotify (kind : NotificationKind) (now : Instant) (status : Option UserStatus)
    (row : Option NotificationPreference) : Prop :=
  status = some .ACTIVE ∧ (Transactional kind ∨
    Wanted kind (row.getD DEFAULT_PREFERENCES) ∧ ¬ Quiet (row.getD DEFAULT_PREFERENCES) now)

theorem istanbulHourOfDay_bounds (now : Instant) :
    0 ≤ istanbulHourOfDay now ∧ istanbulHourOfDay now < 24 := by
  unfold istanbulHourOfDay
  have hpos := Int.emod_nonneg (now+3*hourMs) (by decide : dayMs ≠ 0)
  have hlt := Int.emod_lt_of_pos (now+3*hourMs) (by decide : 0 < dayMs)
  generalize (now+3*hourMs)%dayMs = t at hpos hlt
  unfold dayMs at hlt
  unfold hourMs
  omega

/-- The quiet hours are those on the way round the clock. -/
theorem isWithinQuietHours_iff (prefs : NotificationPreference) (now : Instant) :
    isWithinQuietHours prefs.quietHoursStart prefs.quietHoursEnd now = true ↔ Quiet prefs now := by
  obtain ⟨hpos, hlt⟩ := istanbulHourOfDay_bounds now
  unfold Quiet isWithinQuietHours
  cases hstart : prefs.quietHoursStart with
  | none => simp
  | some start =>
    cases hstop : prefs.quietHoursEnd with
    | none => simp
    | some stop =>
      have h₁ := start.isLt
      have h₂ := stop.isLt
      simp only [Option.mem_some_iff, exists_eq_left']
      simp only [Fin.ext_iff, Fin.lt_def]
      split_ifs <;> simp only [false_iff, decide_eq_true_eq] <;> omega

theorem transactional_iff (kind : NotificationKind) :
    (NOTIFICATION_POLICY_TABLE kind).transactional = true ↔ Transactional kind := by
  unfold Transactional
  cases kind <;> simp [NOTIFICATION_POLICY_TABLE]

theorem wanted_iff (kind : NotificationKind) (prefs : NotificationPreference) :
    ((NOTIFICATION_POLICY_TABLE kind).preferenceField.any fun f => !prefs.field f) = false ↔
      Wanted kind prefs := by
  unfold Wanted
  cases kind <;> simp [NOTIFICATION_POLICY_TABLE, NotificationPreference.field]

theorem decideByPreferences_allowed (kind : NotificationKind) (now : Instant)
    (row : Option NotificationPreference) :
    decideByPreferences (NOTIFICATION_POLICY_TABLE kind) now row = .allowed ↔
      Wanted kind (row.getD DEFAULT_PREFERENCES) ∧ ¬ Quiet (row.getD DEFAULT_PREFERENCES) now := by
  unfold decideByPreferences
  dsimp only
  rw [← wanted_iff, ← isWithinQuietHours_iff]
  split_ifs with hfield hquiet
  · simp [hfield]
  · simp [hquiet]
  · simp [hfield, hquiet]

/-- The two queries together decide as the policy says. -/
theorem decision_allowed_iff (kind : NotificationKind) (now : Instant) (status : Option UserStatus)
    (row : Option NotificationPreference) :
    (decideByStatus (NOTIFICATION_POLICY_TABLE kind) status).getD
        (decideByPreferences (NOTIFICATION_POLICY_TABLE kind) now row) = .allowed ↔
      MayNotify kind now status row := by
  unfold MayNotify decideByStatus
  cases status with
  | none => simp
  | some status =>
    dsimp only
    rw [← decideByPreferences_allowed, ← transactional_iff]
    split_ifs with hactive htransactional
    · simp [hactive]
    · simp [not_not.mp hactive, htransactional]
    · simp [not_not.mp hactive, htransactional]

end Policy

section Steps

variable {UserId Data : Type} [DecidableEq UserId] {w w' : World UserId Data}
  {a : Action UserId Data}

/-- The ways a world goes on. -/
inductive Stepped (w : World UserId Data) (a : Action UserId Data) :
    World UserId Data → Prop where
  | changed {db : PushDb UserId} (h : db.tokens = w.db.now.tokens) : Stepped w a (w.change db)
  | registered {userId : UserId} {expoPushToken : String} {platform : Platform}
      (h : a = .register userId expoPushToken platform) :
      Stepped w a (w.change (register w.db.now userId expoPushToken platform))
  | removed (userId : UserId) (expoPushToken : String) :
      Stepped w a (w.change (remove w.db.now userId expoPushToken))
  | asked {candidateUserIds : List UserId} {kind : NotificationKind}
      {buildMessage : UserId → PushMessageContent Data}
      (h : a = .notifyUsers candidateUserIds kind buildMessage) :
      Stepped w a (notifyUsers w candidateUserIds kind buildMessage)
  | looked {dispatch : ℕ} {d : Dispatch UserId Data} {now : Instant}
      (hd : w.dispatches[dispatch]? = some d) (hphase : d.phase = .checking now) :
      Stepped w a (w.setPhase dispatch d (afterUsers d.toCall now w.db.now.users))
  | chosen {dispatch : ℕ} {d : Dispatch UserId Data} {now : Instant}
      {users : UserId → Option UserStatus} (hd : w.dispatches[dispatch]? = some d)
      (hphase : d.phase = .choosing now users) :
      Stepped w a (w.setPhase dispatch d (afterPreferences d.toCall now users w.db.now.preferences))
  | fetched {dispatch : ℕ} {d : Dispatch UserId Data} {allowedUserIds : List UserId}
      {rows : List (PushToken UserId)} (hd : w.dispatches[dispatch]? = some d)
      (hphase : d.phase = .allowing allowedUserIds)
      (hrows : rows.Perm (liveTokens w.db.now allowedUserIds)) :
      Stepped w a (w.setPhase dispatch d
        (afterTokens d.toCall allowedUserIds (rows.take MAX_TOKENS_PER_DISPATCH)))
  | answered {dispatch : ℕ} {d : Dispatch UserId Data} {s : Sending UserId Data}
      {event : ℕ × Answer} {batch : SendBatch Data} (hd : w.dispatches[dispatch]? = some d)
      (hphase : d.phase = .sending s) (hsend : sendStep s.batch event = some batch) :
      Stepped w a (w.setPhase dispatch d (.sending { s with batch }))
  | collected {dispatch : ℕ} {d : Dispatch UserId Data} {s : Sending UserId Data}
      {results : List PushSendResult} (hd : w.dispatches[dispatch]? = some d)
      (hphase : d.phase = .sending s) (hresults : batchResult s.batch = some results) :
      Stepped w a (w.setPhase dispatch d (afterResults d.toCall s results))
  | disabled {dispatch : ℕ} {d : Dispatch UserId Data} {s : Sending UserId Data}
      {results : List PushSendResult} (hd : w.dispatches[dispatch]? = some d)
      (hphase : d.phase = .disabling s results) :
      Stepped w a ((w.change (disable w.db.now (invalidTokens results))).setPhase dispatch d
        (finished d.toCall s results))

theorem stepped_of_dispatchStep {dispatch : ℕ} {d : Dispatch UserId Data}
    (hd : w.dispatches[dispatch]? = some d) (h : dispatchStep w dispatch d a = some w') :
    Stepped w a w' := by
  cases a with
  | readUsers _ =>
    simp only [dispatchStep] at h
    cases hphase : d.phase with
    | checking now =>
      simp only [hphase] at h
      cases h
      exact .looked hd hphase
    | _ => simp [hphase] at h
  | readPreferences _ =>
    simp only [dispatchStep] at h
    cases hphase : d.phase with
    | choosing now users =>
      simp only [hphase] at h
      cases h
      exact .chosen hd hphase
    | _ => simp [hphase] at h
  | readTokens _ rows =>
    simp only [dispatchStep] at h
    cases hphase : d.phase with
    | allowing allowedUserIds =>
      simp only [hphase] at h
      split_ifs at h with hrows
      cases h
      exact .fetched hd hphase hrows
    | _ => simp [hphase] at h
  | answer _ index answer =>
    simp only [dispatchStep] at h
    cases hphase : d.phase with
    | sending s =>
      simp only [hphase] at h
      obtain ⟨batch, hsend, hw⟩ := Option.map_eq_some_iff.mp h
      rw [← hw]
      exact .answered hd hphase hsend
    | _ => simp [hphase] at h
  | collect _ =>
    simp only [dispatchStep] at h
    cases hphase : d.phase with
    | sending s =>
      simp only [hphase] at h
      obtain ⟨results, hresults, hw⟩ := Option.map_eq_some_iff.mp h
      rw [← hw]
      exact .collected hd hphase hresults
    | _ => simp [hphase] at h
  | disableTokens _ =>
    simp only [dispatchStep] at h
    cases hphase : d.phase with
    | disabling s results =>
      simp only [hphase] at h
      cases h
      exact .disabled hd hphase
    | _ => simp [hphase] at h
  | _ => cases h

theorem stepped_of_step (h : step w a = some w') : Stepped w a w' := by
  cases a with
  | setUser userId status =>
    cases h
    exact .changed rfl
  | setPreferences userId prefs =>
    cases h
    exact .changed rfl
  | register userId expoPushToken platform =>
    cases h
    exact .registered rfl
  | remove userId expoPushToken =>
    cases h
    exact .removed userId expoPushToken
  | tick clock =>
    simp only [step] at h
    split_ifs at h
    cases h
    exact .changed rfl
  | notifyUsers candidateUserIds kind buildMessage =>
    cases h
    exact .asked rfl
  | readUsers dispatch | readPreferences dispatch | readTokens dispatch rows
  | answer dispatch index answer | collect dispatch | disableTokens dispatch =>
    cases hd : w.dispatches[dispatch]? with
    | none => simp [step, hd] at h
    | some d => exact stepped_of_dispatchStep hd (by simpa only [step, hd] using h)

end Steps

section Knowledge

variable {UserId Data : Type} {db : Timeline (PushDb UserId)} {d : Call UserId Data}
  {now : Instant} {allowedUserIds : List UserId} {i j k : ℕ} {b b' b'' : PushDb UserId}

/-- The time that a dispatch goes by is that of its beginning. -/
def Dated (db : Timeline (PushDb UserId)) (d : Call UserId Data) (now : Instant) : Prop :=
  ∃ b, db.at? d.began = some b ∧ now = b.clock

/-- The allowed are those that the policy allows with the users of one moment
and the preferences of a later one. -/
structure Chosen (db : Timeline (PushDb UserId)) (d : Call UserId Data) (now : Instant)
    (allowedUserIds : List UserId) (i j : ℕ) (b b' : PushDb UserId) : Prop where
  dated : Dated db d now
  users : db.at? i = some b
  preferences : db.at? j = some b'
  began_le : d.began ≤ i
  order : i ≤ j
  allowed : ∀ userId, userId ∈ allowedUserIds ↔ userId ∈ d.candidateUserIds ∧
    MayNotify d.kind now (b.users userId) (b'.preferences userId)

theorem Dated.change (h : Dated db d now) (b : PushDb UserId) : Dated (db.change b) d now := by
  obtain ⟨b₀, hb₀, hnow⟩ := h
  exact ⟨b₀, Timeline.at?_change hb₀ b, hnow⟩

theorem Chosen.change (h : Chosen db d now allowedUserIds i j b b') (c : PushDb UserId) :
    Chosen (db.change c) d now allowedUserIds i j b b' where
  dated := h.dated.change c
  users := Timeline.at?_change h.users c
  preferences := Timeline.at?_change h.preferences c
  began_le := h.began_le
  order := h.order
  allowed := h.allowed

variable [DecidableEq UserId]

/-- The tokens are those of the allowed that were live at one moment, and the
provider was called for them. -/
structure Fetched (db : Timeline (PushDb UserId)) (d : Call UserId Data)
    (s : Sending UserId Data) (k : ℕ) (b : PushDb UserId) : Prop where
  tokens : db.at? k = some b
  rows : ∃ rows : List (PushToken UserId), rows.Perm (liveTokens b s.allowedUserIds) ∧
    s.tokens = rows.take MAX_TOKENS_PER_DISPATCH
  batch : Reachable sendStep anyStep (sendBatch (s.tokens.map (messageTo d.buildMessage))) s.batch

def Sent (db : Timeline (PushDb UserId)) (d : Call UserId Data) (s : Sending UserId Data) :
    Prop :=
  ∃ now i j k b b' b'', Chosen db d now s.allowedUserIds i j b b' ∧ j ≤ k ∧ Fetched db d s k b''

/-- What a dispatch knows in each of its phases. -/
def Knows (db : Timeline (PushDb UserId)) (d : Call UserId Data) : Phase UserId Data → Prop
  | .checking now => Dated db d now
  | .choosing now users =>
    Dated db d now ∧ ∃ i b, db.at? i = some b ∧ d.began ≤ i ∧ users = b.users
  | .allowing allowedUserIds => ∃ now i j b b', Chosen db d now allowedUserIds i j b b'
  | .sending s => Sent db d s
  | .disabling s results => Sent db d s ∧ batchResult s.batch = some results
  | .done none _ => True
  | .done (some s) _ => Sent db d s

theorem Sent.change {s : Sending UserId Data} (h : Sent db d s) (c : PushDb UserId) :
    Sent (db.change c) d s := by
  obtain ⟨now, i, j, k, b, b', b'', hchosen, horder, hfetched⟩ := h
  exact ⟨now, i, j, k, b, b', b'', hchosen.change c, horder,
    Timeline.at?_change hfetched.tokens c, hfetched.rows, hfetched.batch⟩

/-- What a dispatch knows outlives every change. -/
theorem Knows.change {phase : Phase UserId Data} (h : Knows db d phase) (c : PushDb UserId) :
    Knows (db.change c) d phase := by
  cases phase with
  | checking now => exact Dated.change h c
  | choosing now users =>
    obtain ⟨hdated, i, b, hb, hbegan, husers⟩ := h
    exact ⟨hdated.change c, i, b, Timeline.at?_change hb c, hbegan, husers⟩
  | allowing allowedUserIds =>
    obtain ⟨now, i, j, b, b', hchosen⟩ := h
    exact ⟨now, i, j, b, b', hchosen.change c⟩
  | sending s => exact Sent.change h c
  | disabling s results => exact ⟨h.1.change c, h.2⟩
  | done s result =>
    cases s with
    | none => trivial
    | some s => exact Sent.change h c

theorem mem_uniqueIds (ids : List UserId) {userId : UserId} :
    userId ∈ uniqueIds ids ↔ userId ∈ ids := by
  simp [uniqueIds]

/-- Decisions that follow the policy are known ones. -/
theorem knows_decided {decisions : UserId → NotificationPolicyDecision} (hdated : Dated db d now)
    (hi : db.at? i = some b) (hj : db.at? j = some b') (hbegan : d.began ≤ i) (horder : i ≤ j)
    (hdecide : ∀ userId ∈ uniqueIds d.candidateUserIds, decisions userId = .allowed ↔
      MayNotify d.kind now (b.users userId) (b'.preferences userId)) :
    Knows db d (decided d decisions) := by
  unfold decided
  dsimp only
  split_ifs
  · trivial
  · refine ⟨now, i, j, b, b', hdated, hi, hj, hbegan, horder, fun userId => ?_⟩
    rw [List.mem_filter, decide_eq_true_eq, ← mem_uniqueIds d.candidateUserIds]
    exact and_congr_right fun hmem => hdecide userId hmem

theorem knows_afterUsers (hdated : Dated db d now) (hbegan : d.began ≤ db.moment) :
    Knows db d (afterUsers d now db.now.users) := by
  unfold afterUsers
  dsimp only
  split_ifs with hall
  · refine knows_decided hdated db.at?_moment db.at?_moment hbegan (le_refl _) fun userId hmem => ?_
    rw [← decision_allowed_iff]
    cases hdecision : decideByStatus (NOTIFICATION_POLICY_TABLE d.kind) (db.now.users userId) with
    | none => exact absurd hdecision (hall userId hmem)
    | some decision => rfl
  · exact ⟨hdated, db.moment, db.now, db.at?_moment, hbegan, rfl⟩

theorem knows_afterPreferences {users : UserId → Option UserStatus}
    (h : Knows db d (.choosing now users)) :
    Knows db d (afterPreferences d now users db.now.preferences) := by
  obtain ⟨hdated, i, b, hi, hbegan, rfl⟩ := h
  exact knows_decided hdated hi db.at?_moment hbegan (Timeline.le_moment hi) fun userId _ =>
    decision_allowed_iff d.kind now (b.users userId) (db.now.preferences userId)

theorem knows_afterTokens {rows : List (PushToken UserId)}
    (h : Knows db d (.allowing allowedUserIds))
    (hrows : rows.Perm (liveTokens db.now allowedUserIds)) :
    Knows db d (afterTokens d allowedUserIds (rows.take MAX_TOKENS_PER_DISPATCH)) := by
  obtain ⟨now, i, j, b, b', hchosen⟩ := h
  unfold afterTokens
  split_ifs
  · trivial
  · exact ⟨now, i, j, db.moment, b, b', db.now, hchosen, Timeline.le_moment hchosen.preferences,
      db.at?_moment, ⟨rows, hrows, rfl⟩, .start rfl⟩

theorem Sent.answered {s : Sending UserId Data} {event : ℕ × Answer} {batch : SendBatch Data}
    (h : Sent db d s) (hsend : sendStep s.batch event = some batch) :
    Sent db d { s with batch } := by
  obtain ⟨now, i, j, k, b, b', b'', hchosen, horder, hfetched⟩ := h
  exact ⟨now, i, j, k, b, b', b'', hchosen, horder, hfetched.tokens, hfetched.rows,
    hfetched.batch.next trivial hsend⟩

theorem knows_afterResults {s : Sending UserId Data} {results : List PushSendResult}
    (h : Sent db d s) (hresults : batchResult s.batch = some results) :
    Knows db d (afterResults d s results) := by
  unfold afterResults
  split_ifs
  · exact h
  · exact ⟨h, hresults⟩

end Knowledge

section Tokens

variable {UserId : Type} {db : PushDb UserId} {row : PushToken UserId}

theorem mem_register {userId : UserId} {expoPushToken : String} {platform : Platform}
    (h : row ∈ (register db userId expoPushToken platform).tokens.rows) :
    row.disabledAt = none ∨ row ∈ db.tokens.rows ∧ row.expoPushToken ≠ expoPushToken := by
  rcases Table.mem_insertNew.mp h with h | ⟨rfl, -⟩
  · obtain ⟨r, hr, heq⟩ := List.mem_map.mp h
    split_ifs at heq with htoken
    · rw [← heq]
      exact Or.inl rfl
    · rw [← heq]
      exact Or.inr ⟨hr, htoken⟩
  · exact Or.inl rfl

theorem mem_remove [DecidableEq UserId] {userId : UserId} {expoPushToken : String}
    (h : row ∈ (remove db userId expoPushToken).tokens.rows) : row ∈ db.tokens.rows :=
  (Table.mem_deleteMany.mp h).1

theorem mem_disable {invalid : List String} (h : row ∈ (disable db invalid).tokens.rows) :
    row.disabledAt ≠ none ∧ row.expoPushToken ∈ invalid ∨ row ∈ db.tokens.rows := by
  obtain ⟨r, hr, heq⟩ := List.mem_map.mp h
  split_ifs at heq with htoken
  · rw [← heq]
    exact Or.inl ⟨nofun, htoken⟩
  · rw [← heq]
    exact Or.inr hr

end Tokens

section Disabled

variable {UserId Data : Type} {w w' : World UserId Data}
  {dispatches : List (Dispatch UserId Data)} {db : Timeline (PushDb UserId)}
  {d : Dispatch UserId Data} {s : Sending UserId Data} {results : List PushSendResult}
  {expoPushToken : String}

/-- The provider's own ticket for the token says that its device is gone. -/
def Gone (s : Sending UserId Data) (expoPushToken : String) : Prop :=
  ∃ i row tickets ticket, s.tokens[i]? = some row ∧ row.expoPushToken = expoPushToken ∧
    s.batch.answers (i/EXPO_CHUNK_SIZE) = some (.json (some tickets)) ∧
      tickets[i%EXPO_CHUNK_SIZE]? = some ticket ∧ ticket.status = .error ∧
        ticket.details.bind (·.error) = some "DeviceNotRegistered"

/-- A dispatch that has ended was told that the token is gone. -/
def Reported (dispatches : List (Dispatch UserId Data)) (expoPushToken : String) : Prop :=
  ∃ d ∈ dispatches, ∃ s result, d.phase = .done (some s) result ∧ Gone s expoPushToken

/-- A dispatch that has ended is not touched again. -/
theorem Reported.set {dispatch : ℕ} {d' : Dispatch UserId Data}
    (h : Reported dispatches expoPushToken) (hd : dispatches[dispatch]? = some d)
    (hphase : ∀ s result, d.phase ≠ .done s result) :
    Reported (dispatches.set dispatch d') expoPushToken := by
  obtain ⟨e, he, s, result, hdone, hgone⟩ := h
  obtain ⟨n, hn⟩ := List.mem_iff_getElem?.mp he
  have hne : dispatch ≠ n := by
    rintro rfl
    rw [hd] at hn
    cases hn
    exact hphase _ _ hdone
  exact ⟨e, List.mem_of_getElem? ((List.getElem?_set_ne hne).trans hn), s, result, hdone, hgone⟩

theorem Reported.append (h : Reported dispatches expoPushToken)
    (others : List (Dispatch UserId Data)) : Reported (dispatches ++ others) expoPushToken := by
  obtain ⟨e, he, hrest⟩ := h
  exact ⟨e, List.mem_append_left others he, hrest⟩

variable [DecidableEq UserId]

/-- A token that counts as invalid has its own ticket. -/
theorem gone_of_invalid {c : Call UserId Data} (h : Sent db c s) (hresults : batchResult s.batch = some results)
    (hinvalid : expoPushToken ∈ invalidTokens results) : Gone s expoPushToken := by
  obtain ⟨_, _, _, _, _, _, _, _, _, hfetched⟩ := h
  have hidle : s.batch.busy = [] := by
    unfold batchResult at hresults
    split_ifs at hresults with hidle
    exact hidle
  obtain ⟨results', hresults', hlength, hown⟩ := batchResult_of_idle hfetched.batch hidle
  rw [hresults] at hresults'
  cases hresults'
  obtain ⟨r, hr, rfl⟩ := List.mem_map.mp hinvalid
  obtain ⟨hmem, houtcome⟩ := List.mem_filter.mp hr
  obtain ⟨i, hi⟩ := List.mem_iff_getElem?.mp hmem
  have hlt : i < s.tokens.length := by
    have hbound := (List.getElem?_eq_some_iff.mp hi).1
    rwa [hlength, List.length_map] at hbound
  have hrow := List.getElem?_eq_getElem hlt
  have hmessage : (s.tokens.map (messageTo c.buildMessage))[i]? =
      some (messageTo c.buildMessage s.tokens[i]) := by
    rw [List.getElem?_map, hrow, Option.map_some]
  obtain ⟨answer, r', hanswer, hr', hfor⟩ := hown i _ hmessage
  rw [hi] at hr'
  cases hr'
  obtain ⟨tickets, ticket, rfl, -, hticket, hstatus, herror⟩ :=
    hfor.invalid (by simpa using houtcome)
  exact ⟨i, _, tickets, ticket, hrow, hfor.recipient.symm, hanswer, hticket, hstatus, herror⟩

structure Sound (w : World UserId Data) : Prop where
  began : ∀ d ∈ w.dispatches, d.began ≤ w.db.moment
  knows : ∀ d ∈ w.dispatches, Knows w.db d.toCall d.phase
  disabled : ∀ row ∈ w.db.now.tokens.rows, row.disabledAt ≠ none →
    Reported w.dispatches row.expoPushToken

/-- The tables change; every disabled token is one that was disabled before. -/
theorem Sound.change (h : Sound w) {b : PushDb UserId}
    (hrows : ∀ row ∈ b.tokens.rows, row.disabledAt ≠ none → row ∈ w.db.now.tokens.rows) :
    Sound (w.change b) where
  began d hd := le_trans (h.began d hd) (Timeline.moment_le_change _ _)
  knows d hd := (h.knows d hd).change b
  disabled row hrow hdisabled := h.disabled row (hrows row hrow hdisabled) hdisabled

/-- A dispatch that has not ended goes on. -/
theorem Sound.setPhase {dispatch : ℕ} {phase : Phase UserId Data} (h : Sound w)
    (hd : w.dispatches[dispatch]? = some d) (hphase : ∀ s result, d.phase ≠ .done s result)
    (hknows : Knows w.db d.toCall phase) : Sound (w.setPhase dispatch d phase) where
  began := by
    intro e he
    rcases List.mem_or_eq_of_mem_set he with he | rfl
    · exact h.began e he
    · exact h.began d (List.mem_of_getElem? hd)
  knows := by
    intro e he
    rcases List.mem_or_eq_of_mem_set he with he | rfl
    · exact h.knows e he
    · exact hknows
  disabled row hrow hdisabled := (h.disabled row hrow hdisabled).set hd hphase

theorem sound_step {a : Action UserId Data} (h : Sound w) (hstep : Stepped w a w') : Sound w' := by
  have hknows : ∀ {n : ℕ} {d : Dispatch UserId Data}, w.dispatches[n]? = some d →
      Knows w.db d.toCall d.phase := fun hd => h.knows _ (List.mem_of_getElem? hd)
  cases hstep with
  | changed htokens => exact h.change fun row hrow _ => htokens ▸ hrow
  | registered =>
    refine h.change fun row hrow hdisabled => ?_
    rcases mem_register hrow with hlive | ⟨hrow, -⟩
    · exact absurd hlive hdisabled
    · exact hrow
  | removed userId expoPushToken => exact h.change fun row hrow _ => mem_remove hrow
  | asked =>
    refine ⟨fun d hd => ?_, fun d hd => ?_, fun row hrow hdisabled =>
      (h.disabled row hrow hdisabled).append _⟩
    · rcases List.mem_append.mp hd with hd | hd
      · exact h.began d hd
      · rw [List.mem_singleton.mp hd]
        exact le_refl w.db.moment
    · rcases List.mem_append.mp hd with hd | hd
      · exact h.knows d hd
      · rw [List.mem_singleton.mp hd]
        dsimp only
        split_ifs
        · trivial
        · exact ⟨w.db.now, w.db.at?_moment, rfl⟩
  | looked hd hphase =>
    have hknown := hknows hd
    rw [hphase] at hknown
    exact h.setPhase hd (by simp [hphase])
      (knows_afterUsers hknown (h.began _ (List.mem_of_getElem? hd)))
  | chosen hd hphase =>
    have hknown := hknows hd
    rw [hphase] at hknown
    exact h.setPhase hd (by simp [hphase]) (knows_afterPreferences hknown)
  | fetched hd hphase hrows =>
    have hknown := hknows hd
    rw [hphase] at hknown
    exact h.setPhase hd (by simp [hphase]) (knows_afterTokens hknown hrows)
  | answered hd hphase hsend =>
    have hknown := hknows hd
    rw [hphase] at hknown
    exact h.setPhase hd (by simp [hphase]) (Sent.answered hknown hsend)
  | collected hd hphase hresults =>
    have hknown := hknows hd
    rw [hphase] at hknown
    exact h.setPhase hd (by simp [hphase]) (knows_afterResults hknown hresults)
  | @disabled dispatch d s results hd hphase =>
    have hknown := hknows hd
    rw [hphase] at hknown
    obtain ⟨hsent, hresults⟩ := hknown
    have hset : Sound (w.setPhase dispatch d (finished d.toCall s results)) :=
      h.setPhase hd (by simp [hphase]) hsent
    refine ⟨fun e he => le_trans (hset.began e he) (Timeline.moment_le_change _ _),
      fun e he => (hset.knows e he).change _, fun row hrow hdisabled => ?_⟩
    rcases mem_disable hrow with ⟨-, hinvalid⟩ | hrow
    · have hlast : (w.dispatches.set dispatch { d with phase := finished d.toCall s results })[dispatch]? =
          some { d with phase := finished d.toCall s results } :=
        List.getElem?_set_self (List.getElem?_eq_some_iff.mp hd).1
      exact ⟨_, List.mem_of_getElem? hlast, s, _, rfl, gone_of_invalid hsent hresults hinvalid⟩
    · exact hset.disabled row hrow hdisabled

theorem sound_of_reachable (h : Reachable step anyStep Initial w) : Sound w := by
  refine h.invariant (fun s hinit => ⟨?_, ?_, ?_⟩) fun s a s' hsound _ hstep =>
    sound_step hsound (stepped_of_step hstep)
  · intro d hd
    simp [hinit.dispatches] at hd
  · intro d hd
    simp [hinit.dispatches] at hd
  · intro row hrow hdisabled
    exact absurd (hinit.live row hrow) hdisabled

end Disabled

section Dead

variable {UserId Data : Type} {w₀ w w' : World UserId Data}
  {a : Action UserId Data} {t : String} {d : Dispatch UserId Data} {dispatch : ℕ}

/-- The token is not stored, or it is disabled. -/
def Dead (db : PushDb UserId) (t : String) : Prop :=
  ∀ row ∈ db.tokens.rows, row.expoPushToken = t → row.disabledAt ≠ none

/-- The dispatch sends to these tokens. -/
def SendsTo (w : World UserId Data) (dispatch : ℕ) (tokens : List (PushToken UserId)) : Prop :=
  ∃ d s, w.dispatches[dispatch]? = some d ∧ d.phase.sent = some s ∧ s.tokens = tokens

/-- Since it was dead the token stayed so, and whoever sends to it did so before. -/
structure StillDead (w₀ : World UserId Data) (t : String) (w : World UserId Data) : Prop where
  dead : Dead w.db.now t
  sent : ∀ n tokens, SendsTo w n tokens → t ∈ tokens.map (·.expoPushToken) → SendsTo w₀ n tokens

/-- A dispatch goes on with no other tokens than it had. -/
theorem StillDead.setPhase {phase : Phase UserId Data} (h : StillDead w₀ t w)
    (hd : w.dispatches[dispatch]? = some d)
    (hsent : ∀ s, phase.sent = some s → t ∈ s.tokens.map (·.expoPushToken) →
      ∃ s', d.phase.sent = some s' ∧ s'.tokens = s.tokens) :
    StillDead w₀ t (w.setPhase dispatch d phase) where
  dead := h.dead
  sent := by
    rintro n tokens ⟨e, s, hn, hs, rfl⟩ ht
    by_cases hne : dispatch = n
    · rw [← hne] at hn ⊢
      have hself : (w.setPhase dispatch d phase).dispatches[dispatch]? = some { d with phase } :=
        List.getElem?_set_self (List.getElem?_eq_some_iff.mp hd).1
      rw [hself] at hn
      cases hn
      obtain ⟨s', hs', htokens⟩ := hsent s hs ht
      exact h.sent dispatch s.tokens ⟨d, s', hd, hs', htokens⟩ ht
    · exact h.sent n s.tokens ⟨e, s, (List.getElem?_set_ne hne).symm.trans hn, hs, rfl⟩ ht

variable [DecidableEq UserId]

theorem sent_decided {c : Call UserId Data} {decisions : UserId → NotificationPolicyDecision} :
    (decided c decisions).sent = none := by
  unfold decided
  dsimp only
  split_ifs <;> rfl

theorem sent_afterUsers {c : Call UserId Data} {now : Instant}
    {users : UserId → Option UserStatus} : (afterUsers c now users).sent = none := by
  unfold afterUsers
  dsimp only
  split_ifs
  · exact sent_decided
  · rfl

theorem stillDead_step (h : StillDead w₀ t w)
    (ha : ∀ userId platform, a ≠ .register userId t platform) (hstep : Stepped w a w') :
    StillDead w₀ t w' := by
  cases hstep with
  | changed htokens => exact ⟨fun row hrow => h.dead row (htokens ▸ hrow), h.sent⟩
  | @registered userId expoPushToken platform hregister =>
    refine ⟨fun row hrow ht hlive => ?_, h.sent⟩
    have hother : expoPushToken ≠ t := by
      rintro rfl
      exact ha userId platform hregister
    rcases Table.mem_insertNew.mp hrow with hrow | ⟨rfl, -⟩
    · obtain ⟨r, hr, heq⟩ := List.mem_map.mp hrow
      split_ifs at heq with htoken
      · rw [← heq] at ht
        exact hother (htoken.symm.trans ht)
      · rw [← heq] at ht hlive
        exact h.dead r hr ht hlive
    · exact hother ht
  | removed => exact ⟨fun row hrow => h.dead row (mem_remove hrow), h.sent⟩
  | asked =>
    refine ⟨h.dead, ?_⟩
    rintro n tokens ⟨d, s, hn, hs, rfl⟩ ht
    by_cases hlt : n < w.dispatches.length
    · exact h.sent n s.tokens ⟨d, s, (List.getElem?_append_left hlt).symm.trans hn, hs, rfl⟩ ht
    · have hnew := (List.getElem?_append_right (Nat.le_of_not_lt hlt)).symm.trans hn
      have hmem := List.mem_of_getElem? hnew
      rw [List.mem_singleton.mp hmem] at hs
      dsimp only at hs
      split_ifs at hs <;> cases hs
  | looked hd =>
    refine h.setPhase hd fun s hs => ?_
    rw [sent_afterUsers] at hs
    cases hs
  | chosen hd =>
    refine h.setPhase hd fun s hs => ?_
    rw [afterPreferences, sent_decided] at hs
    cases hs
  | @fetched _ _ allowedUserIds rows hd _ hrows =>
    refine h.setPhase hd fun s hs ht => ?_
    unfold afterTokens at hs
    split_ifs at hs
    · cases hs
    · cases hs
      obtain ⟨row, hrow, hkey⟩ := List.mem_map.mp ht
      have hlive := List.mem_filter.mp (hrows.mem_iff.mp (List.mem_of_mem_take hrow))
      exact absurd (by simpa using hlive.2 : _ ∧ row.disabledAt = none).2
        (h.dead row hlive.1 hkey)
  | @answered _ d s _ batch hd hphase =>
    refine h.setPhase hd fun s' hs _ => ?_
    cases hs
    exact ⟨s, by rw [hphase]; rfl, rfl⟩
  | @collected _ d s results hd hphase =>
    refine h.setPhase hd fun s' hs _ => ?_
    unfold afterResults at hs
    split_ifs at hs <;> cases hs <;> exact ⟨s, by rw [hphase]; rfl, rfl⟩
  | @disabled dispatch d s results hd hphase =>
    have hset : StillDead w₀ t (w.setPhase dispatch d (finished d.toCall s results)) := by
      refine h.setPhase hd fun s' hs _ => ?_
      cases hs
      exact ⟨s, by rw [hphase]; rfl, rfl⟩
    refine ⟨fun row hrow ht => ?_, hset.sent⟩
    rcases mem_disable hrow with ⟨hdisabled, -⟩ | hrow
    · exact hdisabled
    · exact h.dead row hrow ht

end Dead

section Results

variable {UserId Data : Type} {w : World UserId Data} {db : Timeline (PushDb UserId)}
  {c : Call UserId Data} {s : Sending UserId Data} {now : Instant} {b b' b'' : PushDb UserId}
  {i j k : ℕ}

/-- The tokens that messages have gone out to so far. -/
def recipients (s : Sending UserId Data) : List String :=
  (requests s.batch).flatten.map (·.toToken)

/-- The requests so far are the first messages. -/
theorem requests_isPrefix {messages : List (PushMessage Data)} {q : SendBatch Data}
    (h : Reachable sendStep anyStep (sendBatch messages) q) :
    (requests q).flatten <+: toExpoRequestBody messages := by
  obtain ⟨hsound, -, hjobs⟩ := sound_of_sendBatch h
  rw [flatten_requests, hsound.taken, hjobs]
  have hsplit : ((chunkMessages messages EXPO_CHUNK_SIZE).take q.next).flatten ++
      ((chunkMessages messages EXPO_CHUNK_SIZE).drop q.next).flatten = messages := by
    rw [← List.flatten_append, List.take_append_drop, flatten_chunkMessages]
  have hbegin : ((chunkMessages messages EXPO_CHUNK_SIZE).take q.next).flatten <+: messages :=
    ⟨_, hsplit⟩
  exact hbegin.map _

theorem requests_of_idle {messages : List (PushMessage Data)} {q : SendBatch Data}
    (h : Reachable sendStep anyStep (sendBatch messages) q) (hidle : q.busy = []) :
    (requests q).flatten = toExpoRequestBody messages := by
  obtain ⟨hsound, hmanned, hjobs⟩ := sound_of_sendBatch h
  have htaken := (WorkQueue.outcomes_of_idle hsound hmanned hidle).1
  rw [flatten_requests, htaken, hjobs, flatten_chunkMessages]

theorem map_toToken (tokens : List (PushToken UserId)) :
    (toExpoRequestBody (tokens.map (messageTo c.buildMessage))).map (·.toToken) =
      tokens.map (·.expoPushToken) := by
  rw [toExpoRequestBody, List.map_map, List.map_map]
  rfl

variable [DecidableEq UserId]

/-- Messages go to tokens that were live with users who were allowed, once to
each; and to every one of them unless there are too many. -/
structure Pushed (c : Call UserId Data) (s : Sending UserId Data) (now : Instant)
    (b b' b'' : PushDb UserId) : Prop where
  only : ∀ body ∈ (requests s.batch).flatten, ∃ token ∈ b''.tokens.rows,
    token.disabledAt = none ∧ token.userId ∈ c.candidateUserIds ∧
      MayNotify c.kind now (b.users token.userId) (b'.preferences token.userId) ∧
        [body] = toExpoRequestBody [messageTo c.buildMessage token]
  once : (recipients s).Nodup
  all : s.batch.busy = [] →
    (liveTokens b'' s.allowedUserIds).length ≤ MAX_TOKENS_PER_DISPATCH →
      ∀ token ∈ b''.tokens.rows, token.disabledAt = none → token.userId ∈ c.candidateUserIds →
        MayNotify c.kind now (b.users token.userId) (b'.preferences token.userId) →
          token.expoPushToken ∈ recipients s

/-- The tokens that were fetched are different ones. -/
theorem Fetched.nodup (h : Fetched db c s k b) : (s.tokens.map (·.expoPushToken)).Nodup := by
  obtain ⟨rows, hrows, htokens⟩ := h.rows
  have hlive : ((liveTokens b s.allowedUserIds).map (·.expoPushToken)).Nodup :=
    (List.filter_sublist.map _).nodup b.tokens.keys_nodup
  rw [htokens]
  exact ((List.take_sublist _ _).map _).nodup ((hrows.map _).nodup_iff.mpr hlive)

theorem pushed_of_fetched (hchosen : Chosen db c now s.allowedUserIds i j b b')
    (hfetched : Fetched db c s k b'') : Pushed c s now b b' b'' := by
  have hfirst := requests_isPrefix hfetched.batch
  obtain ⟨rows, hrows, htokens⟩ := hfetched.rows
  constructor
  · intro body hbody
    obtain ⟨m, hm, rfl⟩ := List.mem_map.mp (hfirst.subset hbody)
    obtain ⟨token, htoken, rfl⟩ := List.mem_map.mp hm
    rw [htokens] at htoken
    obtain ⟨hstored, hlive⟩ :=
      List.mem_filter.mp (hrows.mem_iff.mp (List.mem_of_mem_take htoken))
    obtain ⟨howner, hlive⟩ : token.userId ∈ s.allowedUserIds ∧ token.disabledAt = none := by
      simpa using hlive
    obtain ⟨hcandidate, hallowed⟩ := (hchosen.allowed token.userId).mp howner
    exact ⟨token, hstored, hlive, hcandidate, hallowed, rfl⟩
  · have hrecipients := (hfirst.map (·.toToken)).sublist
    rw [map_toToken] at hrecipients
    exact hrecipients.nodup hfetched.nodup
  · intro hidle hfew token hstored hlive hcandidate hallowed
    unfold recipients
    rw [requests_of_idle hfetched.batch hidle, map_toToken, htokens,
      List.take_of_length_le (hrows.length_eq.trans_le hfew)]
    refine List.mem_map_of_mem (hrows.mem_iff.mpr (List.mem_filter.mpr ⟨hstored, ?_⟩))
    simpa using And.intro ((hchosen.allowed token.userId).mpr ⟨hcandidate, hallowed⟩) hlive

theorem sent_of_knows {phase : Phase UserId Data} (h : Knows db c phase)
    (hs : phase.sent = some s) : Sent db c s := by
  cases phase with
  | sending _ =>
    cases hs
    exact h
  | disabling _ _ =>
    cases hs
    exact h.1
  | done _ _ =>
    cases hs
    exact h
  | _ => cases hs

/-- In every run: a token is disabled only after a dispatch that sent to it got
the provider's own ticket that its device is gone; and as long as it is not
registered again it stays disabled, and no dispatch fetches it. -/
theorem disabled_until_registered (w : World UserId Data) (h : Reachable step anyStep Initial w) :
    (∀ row ∈ w.db.now.tokens.rows, row.disabledAt ≠ none →
        Reported w.dispatches row.expoPushToken) ∧
      ∀ t, Dead w.db.now t → ∀ w', Reachable step
          (fun _ a => ∀ userId platform, a ≠ .register userId t platform) (fun s => s = w) w' →
        Dead w'.db.now t ∧ ∀ n tokens, SendsTo w' n tokens →
          t ∈ tokens.map (·.expoPushToken) → SendsTo w n tokens := by
  refine ⟨(sound_of_reachable h).disabled, fun t hdead w' hrun => ?_⟩
  have hstill : StillDead w t w' := by
    refine hrun.invariant ?_ fun u a u' hu ha hstep => stillDead_step hu ha (stepped_of_step hstep)
    rintro u rfl
    exact ⟨hdead, fun n tokens hsends _ => hsends⟩
  exact ⟨hstill.dead, hstill.sent⟩

end Results

section Sample

/-- Two users have a device each; the second wants no pushes about nearby offers. -/
def twoDevices : World ℕ Unit where
  db := ⟨[], {
    users := fun _ => some .ACTIVE
    preferences := fun id => if id = 1 then some ⟨true, true, some 22, some 8⟩ else none
    tokens := (Table.empty.insertNew ⟨1, "first", .IOS, 0, none⟩).insertNew
      ⟨2, "second", .ANDROID, 0, none⟩
    clock := 9*hourMs }⟩
  dispatches := []

def nearbyOffer : ℕ → PushMessageContent Unit := fun _ => ⟨"Yeni teklif", "", none⟩

/-- A nearby offer goes to the first user, whose device turns out to be gone;
the next one finds no live token. -/
def goneDevice : List (PushDispatch.Action ℕ Unit) :=
  [.notifyUsers [1, 2, 1] .OFFER_NEARBY nearbyOffer, .readUsers 0, .readPreferences 0,
    .readTokens 0 [⟨1, "first", .IOS, 0, none⟩],
    .answer 0 0 (.json (some [⟨.error, none, some ⟨some "DeviceNotRegistered"⟩⟩])), .collect 0,
    .disableTokens 0, .notifyUsers [1] .PICKUP_REMINDER nearbyOffer, .readUsers 1,
    .readTokens 1 []]

theorem reachable_goneDevice : Reachable step anyStep Initial (after step twoDevices goneDevice) :=
  reachable_after (.start ⟨rfl, by decide +kernel, rfl⟩) (by decide +kernel)

theorem disabled_until_registered_goneDevice :
    (after step twoDevices goneDevice).db.now.tokens.rows.map (·.disabledAt) =
        [some (9*hourMs), none] ∧
      ∀ row ∈ (after step twoDevices goneDevice).db.now.tokens.rows, row.disabledAt ≠ none →
        Reported (after step twoDevices goneDevice).dispatches row.expoPushToken :=
  ⟨by decide +kernel, (disabled_until_registered _ reachable_goneDevice).1⟩

end Sample

end Kurtar.DispatchedPushes

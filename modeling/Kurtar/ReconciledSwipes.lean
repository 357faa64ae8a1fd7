import Kurtar.RedeemReconciliation

/-!
# What a screen says about a swipe

Whatever is lost, late or stopped: a screen says that a reservation was
redeemed only when the server has redeemed it, at the time the server has
stored; it stops polling only when nothing can change any more; and a swipe
leaves the queue only after its reservation was redeemed.
-/

namespace Kurtar.ReconciledSwipes

open GuardedRuns StatusTransitions RedeemReconciliation
open RedeemQueue hiding step

variable {ρ : Type*}

section Server

theorem finalStatuses_eq (status : ReservationStatus) :
    status ∈ finalStatuses ↔ reservationTransitions status = [] := by
  cases status <;> decide

theorem redeemed_mem_finalStatuses : ReservationStatus.redeemed ∈ finalStatuses :=
  List.mem_cons_self

/-- A redeemed reservation has a redeem time. -/
def Dated (s : ServerReservation) : Prop := s.status = .redeemed → s.redeemedAt.isSome = true

/-- A final reservation stays as it is. -/
def Later (s s' : ServerReservation) : Prop :=
  s.status ∈ finalStatuses → s'.status = s.status ∧ s'.redeemedAt = s.redeemedAt

theorem Later.refl (s : ServerReservation) : Later s s := fun _ => ⟨rfl, rfl⟩

theorem not_final_of_allowed {status target : ReservationStatus}
    (h : target ∈ reservationTransitions status) : status ∉ finalStatuses := by
  rw [finalStatuses_eq]
  intro hnil
  rw [hnil] at h
  cases h

theorem mem_transitions_of_allowedFrom {status target : ReservationStatus}
    (h : status ∈ allowedReservationFrom target) : target ∈ reservationTransitions status := by
  have hallowed := (List.mem_filter.mp h).2
  simpa [isTransitionAllowed] using hallowed

/-- What a redeem call has been told is what the server has stored. -/
def Told (s : ServerReservation) : RedeemReply → Prop
  | .success redeemedAt => s.status = .redeemed ∧ s.redeemedAt = redeemedAt
  | .refused => True

theorem told_checkRedeem {s : ServerReservation} {now : ℤ} {reply : RedeemReply}
    (h : checkRedeem s now = some reply) : Told s reply := by
  unfold checkRedeem at h
  split_ifs at h with hredeemed
  · cases h
    exact ⟨hredeemed, rfl⟩
  all_goals
    cases h
    trivial

theorem writeRedeem_cases (s : ServerReservation) (attemptedAt : ℤ) :
    (s.status ∉ finalStatuses ∧ (writeRedeem s attemptedAt).1.status = .redeemed ∧
        (writeRedeem s attemptedAt).1.redeemedAt = some attemptedAt ∧
        (writeRedeem s attemptedAt).2 = .success (some attemptedAt)) ∨
      (writeRedeem s attemptedAt).1 = s ∧ Told s (writeRedeem s attemptedAt).2 := by
  unfold writeRedeem
  split_ifs with hfrom hredeemed
  · exact .inl ⟨not_final_of_allowed (mem_transitions_of_allowedFrom hfrom), rfl, rfl, rfl⟩
  · exact .inr ⟨rfl, hredeemed, rfl⟩
  · exact .inr ⟨rfl, trivial⟩

theorem later_writeRedeem (s : ServerReservation) (attemptedAt : ℤ) :
    Later s (writeRedeem s attemptedAt).1 := by
  rcases writeRedeem_cases s attemptedAt with ⟨hfinal, _⟩ | ⟨hsame, _⟩
  · exact fun h => absurd h hfinal
  · rw [hsame]
    exact .refl s

theorem told_writeRedeem (s : ServerReservation) (attemptedAt : ℤ) :
    Told (writeRedeem s attemptedAt).1 (writeRedeem s attemptedAt).2 := by
  rcases writeRedeem_cases s attemptedAt with ⟨_, hstatus, hat, hreply⟩ | ⟨hsame, htold⟩
  · rw [hreply]
    exact ⟨hstatus, hat⟩
  · rw [hsame]
    exact htold

theorem dated_writeRedeem {s : ServerReservation} (h : Dated s) (attemptedAt : ℤ) :
    Dated (writeRedeem s attemptedAt).1 := by
  rcases writeRedeem_cases s attemptedAt with ⟨_, _, hat, _⟩ | ⟨hsame, _⟩
  · intro _
    rw [hat]
    rfl
  · rw [hsame]
    exact h

theorem Told.later {s s' : ServerReservation} {reply : RedeemReply} (h : Told s reply) (hlater : Later s s') :
    Told s' reply := by
  cases reply with
  | refused => trivial
  | success redeemedAt =>
    obtain ⟨hstatus, hat⟩ := h
    obtain ⟨hstatus', hat'⟩ := hlater (hstatus ▸ redeemed_mem_finalStatuses)
    exact ⟨hstatus'.trans hstatus, hat'.trans hat⟩

end Server

section Snapshots

/-- What the data lists as final is what the server has stored. -/
def Behind (server : ρ → ServerReservation) (data : Snapshot ρ) : Prop :=
  ∀ r mine, data r = some mine → mine.status ∈ finalStatuses →
    (server r).status = mine.status ∧ (server r).redeemedAt = mine.redeemedAt

theorem behind_list (server : ρ → ServerReservation) (page : ρ → Bool) : Behind server (list server page) := by
  intro r mine hmine _
  unfold list at hmine
  split_ifs at hmine
  cases hmine
  exact ⟨rfl, rfl⟩

variable {server server' : ρ → ServerReservation} {data : Snapshot ρ} {r : ρ}

theorem Behind.later (h : Behind server data) (hlater : ∀ r, Later (server r) (server' r)) :
    Behind server' data := by
  intro r mine hmine hfinal
  obtain ⟨hstatus, hat⟩ := h r mine hmine hfinal
  obtain ⟨hstatus', hat'⟩ := hlater r (hstatus ▸ hfinal)
  exact ⟨hstatus'.trans hstatus, hat'.trans hat⟩

theorem Behind.redeemed (h : Behind server data) (hlisted : listedRedeemed data r = true) :
    ∃ mine, data r = some mine ∧ (server r).status = .redeemed ∧
      (server r).redeemedAt = mine.redeemedAt := by
  unfold listedRedeemed at hlisted
  cases hmine : data r with
  | none => simp [hmine] at hlisted
  | some mine =>
    have hredeemed : mine.status = .redeemed := by simpa [hmine] using hlisted
    obtain ⟨hstatus, hat⟩ := h r mine hmine (hredeemed ▸ redeemed_mem_finalStatuses)
    exact ⟨mine, rfl, hstatus.trans hredeemed, hat⟩

end Snapshots

/-- Every clear that was called, or will be by a sync, is of a redeemed reservation. -/
def ClearsRedeemed (server : ρ → ServerReservation) (d : Device ρ) : Prop :=
  ∀ c ∈ d.calls, c.kind = .clearQueued → (server c.reservationId).status = .redeemed

/-- What everybody has been told is true at the server. -/
structure Truthful (w : World ρ) : Prop where
  dated : ∀ r, Dated (w.server r)
  replies : ∀ c ∈ w.redeems, ∀ reply, c.stage = .answered reply →
    Told (w.server c.reservationId) reply
  callers : ∀ c ∈ w.redeems, c.awaited = true →
    ∃ s, w.screens[c.screen]? = some s ∧ s.reservationId = c.reservationId
  direct : ∀ s ∈ w.screens, ∀ t, s.redeemedAtDirect = some t →
    (w.server s.reservationId).status = .redeemed ∧ (w.server s.reservationId).redeemedAt = some t
  answers : ∀ c ∈ w.reads, ∀ data, c.answer = some data → Behind w.server data
  cache : Behind w.server w.cache
  clears : ClearsRedeemed w.server w.device
  syncs : ∀ s ∈ w.syncs, ∀ r ∈ s.rest, (w.server r).status = .redeemed

section Keeping

variable {w w' : World ρ} {d : Device ρ} {server server' : ρ → ServerReservation} {r : ρ}

theorem clearsRedeemed_enter (h : ClearsRedeemed server d) {kind : CallKind}
    (hr : kind = .clearQueued → (server r).status = .redeemed) :
    ClearsRedeemed server (enter kind d r) := by
  intro c hc hkind
  rcases List.mem_append.mp hc with hc | hc
  · exact h c hc hkind
  · rw [List.mem_singleton.mp hc] at hkind ⊢
    exact hr hkind

theorem clearsRedeemed_foldl (h : ClearsRedeemed server d) {rs : List ρ}
    (hrs : ∀ r ∈ rs, (server r).status = .redeemed) :
    ClearsRedeemed server (rs.foldl (enter .clearQueued) d) := by
  induction rs generalizing d with
  | nil => exact h
  | cons r rs ih =>
    exact ih (clearsRedeemed_enter h fun _ => hrs r List.mem_cons_self)
      fun s hs => hrs s (List.mem_cons_of_mem _ hs)

theorem status_later {s s' : ServerReservation} (hlater : Later s s') (h : s.status = .redeemed) :
    s'.status = .redeemed :=
  (hlater (h ▸ redeemed_mem_finalStatuses)).1.trans h

/-- Nobody is told anything when the server goes on. -/
theorem Truthful.later (h : Truthful w) (hdated : ∀ r, Dated (server' r))
    (hlater : ∀ r, Later (w.server r) (server' r)) : Truthful { w with server := server' } where
  dated := hdated
  replies := fun c hc reply hreply => (h.replies c hc reply hreply).later (hlater _)
  callers := h.callers
  direct := by
    intro s hs t ht
    obtain ⟨hstatus, hat⟩ := h.direct s hs t ht
    obtain ⟨_, hat'⟩ := hlater s.reservationId (hstatus ▸ redeemed_mem_finalStatuses)
    exact ⟨status_later (hlater _) hstatus, hat'.trans hat⟩
  answers := fun c hc data hdata => (h.answers c hc data hdata).later hlater
  cache := h.cache.later hlater
  clears := fun c hc hkind => status_later (hlater _) (h.clears c hc hkind)
  syncs := fun s hs r hr => status_later (hlater _) (h.syncs s hs r hr)

theorem Truthful.setDevice (h : Truthful w) (hclears : ClearsRedeemed w.server d) :
    Truthful { w with device := d } :=
  { dated := h.dated, replies := h.replies, callers := h.callers, direct := h.direct,
    answers := h.answers, cache := h.cache, clears := hclears, syncs := h.syncs }

/-- A screen keeps its reservation, and what it has been told is true. -/
theorem Truthful.setScreen (h : Truthful w) {screen : ℕ} {s b : Screen ρ}
    (hget : w.screens[screen]? = some s) (hsame : b.reservationId = s.reservationId)
    (hdirect : ∀ t, b.redeemedAtDirect = some t →
      (w.server s.reservationId).status = .redeemed ∧
        (w.server s.reservationId).redeemedAt = some t) :
    Truthful { w with screens := w.screens.set screen b } :=
  { h with
    callers := by
      intro c hc hawaited
      obtain ⟨a, ha, hid⟩ := h.callers c hc hawaited
      by_cases hscreen : screen = c.screen
      · rw [hscreen] at hget ⊢
        cases hget.symm.trans ha
        exact ⟨b, List.getElem?_set_self (List.getElem?_eq_some_iff.mp hget).1, hsame.trans hid⟩
      · exact ⟨a, (List.getElem?_set_ne hscreen).trans ha, hid⟩
    direct := by
      intro a ha t ht
      rcases List.mem_or_eq_of_mem_set ha with ha | ha
      · exact h.direct a ha t ht
      · rw [ha] at ht ⊢
        rw [hsame]
        exact hdirect t ht }

/-- A redeem call keeps its screen, and its reply is true. -/
theorem Truthful.setRedeem (h : Truthful w) {call : ℕ} {c c' : RedeemCall ρ}
    (hget : w.redeems[call]? = some c) (hscreen : c'.screen = c.screen)
    (hsame : c'.reservationId = c.reservationId)
    (hawaited : c'.awaited = true → c.awaited = true)
    (hreply : ∀ reply, c'.stage = .answered reply → Told (w.server c.reservationId) reply) :
    Truthful { w with redeems := w.redeems.set call c' } :=
  { h with
    replies := by
      intro a ha reply hr
      rcases List.mem_or_eq_of_mem_set ha with ha | ha
      · exact h.replies a ha reply hr
      · rw [ha] at hr ⊢
        rw [hsame]
        exact hreply reply hr
    callers := by
      intro a ha haw
      rcases List.mem_or_eq_of_mem_set ha with ha | ha
      · exact h.callers a ha haw
      · rw [ha] at haw ⊢
        rw [hscreen, hsame]
        exact h.callers c (List.mem_of_getElem? hget) (hawaited haw) }

/-- New data that the server has given at some time. -/
theorem Truthful.setQueryData (h : Truthful w) {data : Snapshot ρ} (hdata : Behind w.server data) :
    Truthful (w.setQueryData data) := by
  have hclears : ClearsRedeemed w.server (w.setQueryData data).device := by
    refine clearsRedeemed_foldl h.clears ?_
    intro r hr
    obtain ⟨s, hs, hsr⟩ := List.mem_map.mp hr
    have hlisted := (List.mem_filter.mp hs).2
    rw [Bool.and_eq_true] at hlisted
    obtain ⟨_, _, hstatus, _⟩ := hdata.redeemed hlisted.2
    exact hsr ▸ hstatus
  exact { dated := h.dated, replies := h.replies, callers := h.callers, direct := h.direct,
          answers := h.answers, cache := hdata, clears := hclears, syncs := h.syncs }

end Keeping

section Steps

variable {w w' : World ρ} {a : Action ρ}

theorem truthful_receive (h : Truthful w) {call : ℕ} {c : RedeemCall ρ} {s : Screen ρ}
    {reply : RedeemReply} (hget : w.redeems[call]? = some c) (hawaited : c.awaited = true)
    (hstage : c.stage = .answered reply) (hscreen : w.screens[c.screen]? = some s) :
    Truthful (receive w call c s reply) := by
  have htold := h.replies c (List.mem_of_getElem? hget) reply hstage
  have hsame : s.reservationId = c.reservationId := by
    obtain ⟨a, ha, hid⟩ := h.callers c (List.mem_of_getElem? hget) hawaited
    cases hscreen.symm.trans ha
    exact hid
  have hclosed : Truthful { w with redeems := w.redeems.set call { c with awaited := false } } :=
    h.setRedeem hget rfl rfl (fun hfalse => by cases hfalse) fun reply' hreply =>
      h.replies c (List.mem_of_getElem? hget) reply' hreply
  cases reply with
  | refused => exact hclosed
  | success redeemedAt =>
    have hshown := hclosed.setScreen (b := { s with redeemedAtDirect := redeemedAt }) hscreen rfl
      (fun t ht => by rw [hsame]; exact ⟨htold.1, htold.2.trans ht⟩)
    exact hshown.setDevice (clearsRedeemed_enter h.clears fun _ => htold.1)

theorem truthful_fail (h : Truthful w) {call : ℕ} {c : RedeemCall ρ} {s : Screen ρ}
    (hget : w.redeems[call]? = some c) (hscreen : w.screens[c.screen]? = some s) :
    Truthful (fail w call c s) := by
  have hclosed : Truthful { w with redeems := w.redeems.set call { c with awaited := false } } :=
    h.setRedeem hget rfl rfl (fun hfalse => by cases hfalse) fun reply hreply =>
      h.replies c (List.mem_of_getElem? hget) reply hreply
  have hqueueing := hclosed.setScreen
    (b := { s with queueing := w.device.calls.length :: s.queueing }) hscreen rfl
    (h.direct s (List.mem_of_getElem? hscreen))
  exact hqueueing.setDevice (clearsRedeemed_enter h.clears fun hkind => by cases hkind)

theorem truthful_receiveRead (h : Truthful w) {read : ℕ} {c : ReadCall ρ} {data : Snapshot ρ}
    (hget : w.reads[read]? = some c) (hanswer : c.answer = some data) :
    Truthful (receiveRead w read c data) := by
  have hdata := h.answers c (List.mem_of_getElem? hget) data hanswer
  have herased : Truthful { w with reads := w.reads.eraseIdx read } :=
    { h with answers := fun a ha => h.answers a (List.mem_of_mem_eraseIdx ha) }
  have hset := herased.setQueryData hdata
  unfold receiveRead
  cases hpending : c.pending with
  | none => exact hset
  | some pending =>
    refine { hset with syncs := ?_ }
    intro s hs r hr
    rcases List.mem_append.mp hs with hs | hs
    · exact hset.syncs s hs r hr
    · rw [List.mem_singleton.mp hs] at hr
      obtain ⟨_, _, hstatus, _⟩ := hdata.redeemed (List.mem_filter.mp hr).2
      exact hstatus

/-- A new screen knows nothing. -/
theorem truthful_openScreen (h : Truthful w) (r : ρ) : Truthful (openScreen w r) := by
  have hopened : Truthful { w with screens := w.screens ++ [⟨r, false, false, none, []⟩] } :=
    { h with
      callers := by
        intro c hc hawaited
        obtain ⟨s, hs, hid⟩ := h.callers c hc hawaited
        exact ⟨s, (List.getElem?_append_left (List.getElem?_eq_some_iff.mp hs).1).trans hs, hid⟩
      direct := by
        intro s hs t ht
        rcases List.mem_append.mp hs with hs | hs
        · exact h.direct s hs t ht
        · rw [List.mem_singleton.mp hs] at ht
          cases ht }
  refine hopened.setDevice ?_
  split_ifs with hlisted
  · obtain ⟨_, _, hstatus, _⟩ := h.cache.redeemed hlisted
    exact clearsRedeemed_enter h.clears fun _ => hstatus
  · exact h.clears

theorem Truthful.addRead (h : Truthful w) (pending : Option (List ρ)) :
    Truthful { w with reads := w.reads ++ [⟨pending, none⟩] } := by
  refine { h with answers := ?_ }
  intro c hc data hdata
  rcases List.mem_append.mp hc with hc | hc
  · exact h.answers c hc data hdata
  · rw [List.mem_singleton.mp hc] at hdata
    cases hdata

theorem truthful_restart (h : Truthful w) : Truthful (restart w) where
  dated := h.dated
  replies := by
    intro c hc reply hreply
    obtain ⟨b, hb, rfl⟩ := List.mem_map.mp hc
    exact h.replies b hb reply hreply
  callers := by
    intro c hc hawaited
    obtain ⟨b, _, rfl⟩ := List.mem_map.mp hc
    cases hawaited
  direct := fun s hs => absurd hs List.not_mem_nil
  answers := fun c hc => absurd hc List.not_mem_nil
  cache := fun r mine hmine => (nomatch hmine)
  clears := fun c hc hkind => h.clears c (List.mem_of_mem_filter hc) hkind
  syncs := fun s hs => absurd hs List.not_mem_nil

variable [DecidableEq ρ]

theorem Truthful.setServer (h : Truthful w) {r : ρ} {reservation : ServerReservation}
    (hdated : Dated reservation) (hlater : Later (w.server r) reservation) :
    Truthful (w.setServer r reservation) := by
  refine h.later ?_ ?_
  · intro s
    by_cases hs : s = r
    · rw [hs, Function.update_self]
      exact hdated
    · rw [Function.update_of_ne hs]
      exact h.dated s
  · intro s
    by_cases hs : s = r
    · rw [hs, Function.update_self]
      exact hlater
    · rw [Function.update_of_ne hs]
      exact .refl _

/-- The calls of a device after a step of one of them. -/
theorem clearsRedeemed_resume {server : ρ → ServerReservation} {d d' : Device ρ} {index : ℕ}
    (h : ClearsRedeemed server d) (hstep : RedeemQueue.step d (.resume index) = some d') :
    ClearsRedeemed server d' := by
  obtain ⟨c, stored, phase, hget, _, rfl⟩ := resume_eq_some hstep
  intro b hb hkind
  rcases List.mem_or_eq_of_mem_set hb with hb | hb
  · exact h b hb hkind
  · rw [hb] at hkind ⊢
    exact h c (List.mem_of_getElem? hget) hkind

/-- What a step can do. -/
inductive Stepped (w : World ρ) : Action ρ → World ρ → Prop
  | openScreen (r : ρ) : Stepped w (.openScreen r) (openScreen w r)
  | queueRead (screen : ℕ) (s : Screen ρ) (hget : w.screens[screen]? = some s) :
    Stepped w (.queueRead screen) (w.setScreen screen
      { s with queueChecked := true, queued := (w.device.entry s.reservationId).isSome })
  | confirm (screen : ℕ) (s : Screen ρ) (hget : w.screens[screen]? = some s) :
    Stepped w (.confirm screen)
      { w with redeems := w.redeems ++ [⟨screen, s.reservationId, .sent, true⟩] }
  | answered (call : ℕ) (now : ℤ) (c : RedeemCall ρ) (reply : RedeemReply)
    (hget : w.redeems[call]? = some c)
    (hcheck : checkRedeem (w.server c.reservationId) now = some reply) :
    Stepped w (.check call now) (w.setRedeem call { c with stage := .answered reply })
  | checked (call : ℕ) (now : ℤ) (c : RedeemCall ρ) (hget : w.redeems[call]? = some c) :
    Stepped w (.check call now) (w.setRedeem call { c with stage := .checked })
  | written (call : ℕ) (attemptedAt : ℤ) (c : RedeemCall ρ) (hget : w.redeems[call]? = some c) :
    Stepped w (.write call attemptedAt)
      ((w.setServer c.reservationId (writeRedeem (w.server c.reservationId) attemptedAt).1).setRedeem
        call { c with stage := .answered (writeRedeem (w.server c.reservationId) attemptedAt).2 })
  | failed (call : ℕ) (c : RedeemCall ρ) (s : Screen ρ) (hget : w.redeems[call]? = some c)
    (hscreen : w.screens[c.screen]? = some s) : Stepped w (.fail call) (fail w call c s)
  | received (call : ℕ) (c : RedeemCall ρ) (s : Screen ρ) (reply : RedeemReply)
    (hget : w.redeems[call]? = some c) (hawaited : c.awaited = true)
    (hstage : c.stage = .answered reply) (hscreen : w.screens[c.screen]? = some s) :
    Stepped w (.receive call) (receive w call c s reply)
  | setQueued (screen index : ℕ) (s : Screen ρ) (hget : w.screens[screen]? = some s) :
    Stepped w (.setQueued screen index)
      (w.setScreen screen { s with queued := true, queueing := s.queueing.erase index })
  | fetch : Stepped w .fetch { w with reads := w.reads ++ [⟨none, none⟩] }
  | reconcileOnce (pending : List ρ) :
    Stepped w (.reconcileOnce pending) { w with reads := w.reads ++ [⟨some pending, none⟩] }
  | answer (read : ℕ) (page : ρ → Bool) (c : ReadCall ρ) (hget : w.reads[read]? = some c) :
    Stepped w (.answer read page) (w.setRead read { c with answer := some (list w.server page) })
  | receivedRead (read : ℕ) (c : ReadCall ρ) (data : Snapshot ρ) (hget : w.reads[read]? = some c)
    (hanswer : c.answer = some data) : Stepped w (.receiveRead read) (receiveRead w read c data)
  | syncNext (sync : ℕ) (s : Sync ρ) (r : ρ) (rest : List ρ) (hget : w.syncs[sync]? = some s)
    (hrest : s.rest = r :: rest) :
    Stepped w (.syncNext sync)
      { w with
        syncs := w.syncs.set sync ⟨some w.device.calls.length, rest⟩
        device := enter .clearQueued w.device r }
  | serverMove (r : ρ) (target : ReservationStatus) (at_ : ℤ)
    (hallowed : target ∈ reservationTransitions (w.server r).status) :
    Stepped w (.serverMove r target at_) (w.setServer r
      { w.server r with
        status := target
        redeemedAt := if target = .redeemed then some at_ else (w.server r).redeemedAt })
  | resume (index : ℕ) (d : Device ρ)
    (hstep : RedeemQueue.step w.device (.resume index) = some d) :
    Stepped w (.resume index) { w with device := d }
  | tick (ms : ℤ) : Stepped w (.tick ms)
      { w with device := { w.device with clock := w.device.clock+ms, steps := w.device.steps+1 } }
  | restart : Stepped w .restart (restart w)

theorem stepped_of_step (h : step w a = some w') : Stepped w a w' := by
  cases a with
  | openScreen r =>
    cases h
    exact .openScreen r
  | queueRead screen =>
    simp only [step] at h
    cases hget : w.screens[screen]? with
    | none => simp [hget] at h
    | some s =>
      simp only [hget, Option.some.injEq] at h
      exact h ▸ .queueRead screen s hget
  | confirm screen =>
    simp only [step] at h
    cases hget : w.screens[screen]? with
    | none => simp [hget] at h
    | some s =>
      simp only [hget, Option.some.injEq] at h
      exact h ▸ .confirm screen s hget
  | check call now =>
    simp only [step] at h
    cases hget : w.redeems[call]? with
    | none => simp [hget] at h
    | some c =>
      simp only [hget] at h
      split_ifs at h
      cases hcheck : checkRedeem (w.server c.reservationId) now with
      | some reply =>
        simp only [hcheck, Option.some.injEq] at h
        exact h ▸ .answered call now c reply hget hcheck
      | none =>
        simp only [hcheck, Option.some.injEq] at h
        exact h ▸ .checked call now c hget
  | write call attemptedAt =>
    simp only [step] at h
    cases hget : w.redeems[call]? with
    | none => simp [hget] at h
    | some c =>
      simp only [hget] at h
      split_ifs at h
      cases h
      exact .written call attemptedAt c hget
  | fail call =>
    simp only [step] at h
    cases hget : w.redeems[call]? with
    | none => simp [hget] at h
    | some c =>
      simp only [hget] at h
      split_ifs at h
      obtain ⟨s, hs, rfl⟩ := Option.map_eq_some_iff.mp h
      exact .failed call c s hget hs
  | receive call =>
    simp only [step] at h
    cases hget : w.redeems[call]? with
    | none => simp [hget] at h
    | some c =>
      simp only [hget] at h
      cases hawaited : c.awaited with
      | false => simp [hawaited] at h
      | true =>
        cases hstage : c.stage with
        | sent => simp [hawaited, hstage] at h
        | checked => simp [hawaited, hstage] at h
        | answered reply =>
          simp only [hawaited, hstage] at h
          obtain ⟨s, hs, rfl⟩ := Option.map_eq_some_iff.mp h
          exact .received call c s reply hget hawaited hstage hs
  | setQueued screen index =>
    simp only [step] at h
    cases hget : w.screens[screen]? with
    | none => simp [hget] at h
    | some s =>
      simp only [hget] at h
      split_ifs at h
      cases h
      exact .setQueued screen index s hget
  | fetch =>
    cases h
    exact .fetch
  | reconcileOnce pending =>
    simp only [step] at h
    split_ifs at h
    cases h
    exact .reconcileOnce pending
  | answer read page =>
    simp only [step] at h
    cases hget : w.reads[read]? with
    | none => simp [hget] at h
    | some c =>
      simp only [hget, Option.some.injEq] at h
      exact h ▸ .answer read page c hget
  | receiveRead read =>
    simp only [step] at h
    cases hget : w.reads[read]? with
    | none => simp [hget] at h
    | some c =>
      simp only [hget] at h
      obtain ⟨data, hdata, rfl⟩ := Option.map_eq_some_iff.mp h
      exact .receivedRead read c data hget hdata
  | syncNext sync =>
    simp only [step] at h
    cases hget : w.syncs[sync]? with
    | none => simp [hget] at h
    | some s =>
      simp only [hget] at h
      cases hrest : s.rest with
      | nil => simp [hrest] at h
      | cons r rest =>
        simp only [hrest] at h
        split_ifs at h
        cases h
        exact .syncNext sync s r rest hget hrest
  | serverMove r target at_ =>
    by_cases hallowed : target ∈ reservationTransitions (w.server r).status
    · simp only [step, if_pos hallowed, Option.some.injEq] at h
      exact h ▸ .serverMove r target at_ hallowed
    · simp [step, hallowed] at h
  | resume index =>
    obtain ⟨d, hd, rfl⟩ := Option.map_eq_some_iff.mp h
    exact .resume index d hd
  | tick ms =>
    cases h
    exact .tick ms
  | restart =>
    cases h
    exact .restart

theorem truthful_step (h : Truthful w) (hstep : step w a = some w') : Truthful w' := by
  cases stepped_of_step hstep with
  | openScreen r => exact truthful_openScreen h r
  | queueRead screen s hget =>
    exact h.setScreen hget rfl (h.direct s (List.mem_of_getElem? hget))
  | confirm screen s hget =>
    refine { h with replies := ?_, callers := ?_ }
    · intro c hc reply hreply
      rcases List.mem_append.mp hc with hc | hc
      · exact h.replies c hc reply hreply
      · rw [List.mem_singleton.mp hc] at hreply
        cases hreply
    · intro c hc hawaited
      rcases List.mem_append.mp hc with hc | hc
      · exact h.callers c hc hawaited
      · rw [List.mem_singleton.mp hc]
        exact ⟨s, hget, rfl⟩
  | answered call now c reply hget hcheck =>
    refine h.setRedeem hget rfl rfl id ?_
    intro reply' hreply
    cases hreply
    exact told_checkRedeem hcheck
  | checked call now c hget =>
    exact h.setRedeem hget rfl rfl id fun reply hreply => (nomatch hreply)
  | written call attemptedAt c hget =>
    have hserver := h.setServer (dated_writeRedeem (h.dated c.reservationId) attemptedAt)
      (later_writeRedeem _ attemptedAt)
    refine hserver.setRedeem hget rfl rfl id ?_
    intro reply hreply
    cases hreply
    change Told (Function.update w.server c.reservationId _ c.reservationId) _
    rw [Function.update_self]
    exact told_writeRedeem _ attemptedAt
  | failed call c s hget hscreen => exact truthful_fail h hget hscreen
  | received call c s reply hget hawaited hstage hscreen =>
    exact truthful_receive h hget hawaited hstage hscreen
  | setQueued screen index s hget =>
    exact h.setScreen hget rfl (h.direct s (List.mem_of_getElem? hget))
  | fetch => exact h.addRead none
  | reconcileOnce pending => exact h.addRead (some pending)
  | answer read page c hget =>
    refine { h with answers := ?_ }
    intro b hb data hdata
    rcases List.mem_or_eq_of_mem_set hb with hb | hb
    · exact h.answers b hb data hdata
    · rw [hb] at hdata
      cases hdata
      exact behind_list w.server page
  | receivedRead read c data hget hanswer => exact truthful_receiveRead h hget hanswer
  | syncNext sync s r rest hget hrest =>
    have hsyncs := h.syncs s (List.mem_of_getElem? hget)
    rw [hrest] at hsyncs
    have hset : Truthful
        { w with syncs := w.syncs.set sync ⟨some w.device.calls.length, rest⟩ } :=
      { h with
        syncs := by
          intro a ha b hb
          rcases List.mem_or_eq_of_mem_set ha with ha | ha
          · exact h.syncs a ha b hb
          · rw [ha] at hb
            exact hsyncs b (List.mem_cons_of_mem _ hb) }
    exact hset.setDevice (clearsRedeemed_enter h.clears fun _ => hsyncs r List.mem_cons_self)
  | serverMove r target at_ hallowed =>
    refine h.setServer ?_ fun hfinal => absurd hfinal (not_final_of_allowed hallowed)
    intro hredeemed
    have htarget : target = .redeemed := hredeemed
    rw [if_pos htarget]
    rfl
  | resume index d hd => exact h.setDevice (clearsRedeemed_resume h.clears hd)
  | tick ms => exact h.setDevice h.clears
  | restart => exact truthful_restart h

end Steps

/-- The server's reservations have their dates; nobody has been told anything,
and nothing is queued. -/
structure Initial (w : World ρ) : Prop where
  dated : ∀ r, Dated (w.server r)
  device : Started w.device
  cache : w.cache = fun _ => none
  screens : w.screens = []
  redeems : w.redeems = []
  reads : w.reads = []
  syncs : w.syncs = []

section Runs

variable [DecidableEq ρ] {w w' : World ρ} {a : Action ρ} {ok : World ρ → Action ρ → Prop}

omit [DecidableEq ρ] in
theorem truthful_of_initial (h : Initial w) : Truthful w where
  dated := h.dated
  replies := by simp [h.redeems]
  callers := by simp [h.redeems]
  direct := by simp [h.screens]
  answers := by simp [h.reads]
  cache := by
    rw [h.cache]
    exact fun r mine hmine => (nomatch hmine)
  clears := by
    intro c hc
    rw [h.device.1] at hc
    cases hc
  syncs := by simp [h.syncs]

theorem truthful_of_reachable (h : Reachable step ok Initial w) : Truthful w :=
  h.invariant (fun _ hw => truthful_of_initial hw) fun _ _ _ hI _ hstep => truthful_step hI hstep

omit [DecidableEq ρ] in
/-- A screen that shows its reservation as redeemed shows what the server has stored. -/
theorem Truthful.reconciled (h : Truthful w) {s : Screen ρ} (hs : s ∈ w.screens)
    (hreconciled : s.reconciled w.cache = true) :
    (w.server s.reservationId).status = .redeemed ∧
      (w.server s.reservationId).redeemedAt = s.redeemedAt w.cache := by
  unfold Screen.reconciled at hreconciled
  unfold Screen.redeemedAt
  cases hdirect : s.redeemedAtDirect with
  | some t => exact h.direct s hs t hdirect
  | none =>
    rw [hdirect, Option.isSome_none, Bool.false_or] at hreconciled
    obtain ⟨mine, hmine, hstatus, hat⟩ := h.cache.redeemed hreconciled
    refine ⟨hstatus, ?_⟩
    rw [hat, hmine]
    rfl

omit [DecidableEq ρ] in
/-- Polling stops when nothing can change any more. -/
theorem Truthful.stopped (h : Truthful w) {r : ρ} (hstop : refetchInterval w.cache r = none) :
    reservationTransitions (w.server r).status = [] := by
  unfold refetchInterval at hstop
  cases hmine : w.cache r with
  | none => simp [hmine] at hstop
  | some mine =>
    simp only [hmine] at hstop
    split_ifs at hstop with hfinal
    rw [(h.cache r mine hmine hfinal).1]
    exact (finalStatuses_eq _).mp hfinal

/-- A read that is answered after the redemption reconciles the screen. -/
theorem read_reconciles {screen : ℕ} {s : Screen ρ} (hget : w.screens[screen]? = some s)
    (hredeemed : (w.server s.reservationId).status = .redeemed) {page : ρ → Bool}
    (hpage : page s.reservationId = true) :
    ∃ w', run step w [.fetch, .answer w.reads.length page, .receiveRead w.reads.length] = some w' ∧
      w'.screens[screen]? = some s ∧ s.reconciled w'.cache = true := by
  have hread : (w.reads ++ [(⟨none, none⟩ : ReadCall ρ)])[w.reads.length]? = some ⟨none, none⟩ :=
    List.getElem?_concat_length
  have hanswered : ((w.reads ++ [(⟨none, none⟩ : ReadCall ρ)]).set w.reads.length
      ⟨none, some (list w.server page)⟩)[w.reads.length]? =
        some ⟨none, some (list w.server page)⟩ :=
    List.getElem?_set_self (by simp)
  have hlisted : listedRedeemed (list w.server page) s.reservationId = true := by
    simp [listedRedeemed, list, hpage, hredeemed]
  simp only [run, step, hread, World.setRead, hanswered, Option.map_some, receiveRead]
  refine ⟨_, rfl, hget, ?_⟩
  change (s.redeemedAtDirect.isSome || listedRedeemed (list w.server page) s.reservationId) = true
  rw [hlisted, Bool.or_true]

/-- In each step of a call on the queue, its write fits. -/
def FittingWrites (w : World ρ) : Action ρ → Prop
  | .resume index => WriteFits w.device (.resume index)
  | _ => True

omit [DecidableEq ρ] in
theorem writeFits_of_ne {d : Device ρ} {b : DeviceAction ρ} (h : ∀ index, b ≠ .resume index) :
    WriteFits d b := fun index _ _ _ hb => absurd hb (h index)

/-- The runs of the device under the world. -/
abbrev DeviceRun : Device ρ → Prop := Reachable RedeemQueue.step WriteFits Started

theorem deviceRun_enter {d : Device ρ} (h : DeviceRun d) (kind : CallKind) (r : ρ) :
    DeviceRun (enter kind d r) :=
  h.next (a := .call kind r) (writeFits_of_ne fun _ => by simp) rfl

theorem deviceRun_foldl {d : Device ρ} (h : DeviceRun d) (kind : CallKind) (rs : List ρ) :
    DeviceRun (rs.foldl (enter kind) d) := by
  induction rs generalizing d with
  | nil => exact h
  | cons r rs ih => exact ih (deviceRun_enter h kind r)

theorem deviceRun_step (h : DeviceRun w.device) (hok : FittingWrites w a)
    (hstep : step w a = some w') : DeviceRun w'.device := by
  cases stepped_of_step hstep with
  | openScreen r =>
    change DeviceRun (if listedRedeemed w.cache r then _ else _)
    split_ifs
    · exact deviceRun_enter h .clearQueued r
    · exact h
  | queueRead screen s hget => exact h
  | confirm screen s hget => exact h
  | answered call now c reply hget hcheck => exact h
  | checked call now c hget => exact h
  | written call attemptedAt c hget => exact h
  | failed call c s hget hscreen => exact deviceRun_enter h .queueLocal c.reservationId
  | received call c s reply hget hawaited hstage hscreen =>
    cases reply with
    | success redeemedAt => exact deviceRun_enter h .clearQueued c.reservationId
    | refused => exact h
  | setQueued screen index s hget => exact h
  | fetch => exact h
  | reconcileOnce pending => exact h
  | answer read page c hget => exact h
  | receivedRead read c data hget hanswer =>
    unfold receiveRead
    cases c.pending with
    | none => exact deviceRun_foldl h .clearQueued _
    | some pending => exact deviceRun_foldl h .clearQueued _
  | syncNext sync s r rest hget hrest => exact deviceRun_enter h .clearQueued r
  | serverMove r target at_ hallowed => exact h
  | resume index d hd => exact h.next hok hd
  | tick ms => exact h.next (a := .tick ms) (writeFits_of_ne fun _ => by simp) rfl
  | restart => exact h.next (a := .restart) (writeFits_of_ne fun _ => by simp) rfl

theorem deviceRun_of_reachable (h : Reachable step FittingWrites Initial w) :
    DeviceRun w.device :=
  h.invariant (I := fun w => DeviceRun w.device) (fun _ hw => .start hw.device)
    fun _ _ _ hI hok hstep => deviceRun_step hI hok hstep

end Runs

section Sample

/-- Confirmed reservations in their pickup window, and a fresh device. -/
def atTheCounter : World ℕ :=
  { server := fun _ => ⟨.confirmed, none, 0, 1000⟩
    device := freshDevice
    cache := fun _ => none
    screens := []
    redeems := []
    reads := []
    syncs := [] }

theorem initial_atTheCounter : Initial atTheCounter where
  dated := fun _ hredeemed => (nomatch hredeemed)
  device := started_freshDevice
  cache := rfl
  screens := rfl
  redeems := rfl
  reads := rfl
  syncs := rfl

/-- The server redeems, the answer is lost, and a later read arrives. -/
def answerLost : World ℕ :=
  after step atTheCounter
    [.openScreen 5, .confirm 0, .check 0 100, .write 0 101, .fail 0, .fetch,
      .answer 0 (fun _ => true), .receiveRead 0]

/-- A swipe that never reached the server, queued on the device. -/
def queuedSwipe : List (Action ℕ) :=
  [.openScreen 5, .confirm 0, .fail 0, .resume 0, .resume 0, .resume 0]

theorem fittingWrites_of_not_writing {w : World ℕ} {a : Action ℕ}
    (h : ∀ c ∈ w.device.calls, ∀ queue swipedAt, c.phase ≠ .writing queue swipedAt) :
    FittingWrites w a := by
  cases a with
  | resume index => exact writeFits_of_not_writing h
  | _ => trivial

theorem queuedSwipe_run :
    Reachable step FittingWrites Initial (after step atTheCounter queuedSwipe) := by
  have hfailed : Reachable step FittingWrites Initial
      (after step atTheCounter [.openScreen 5, .confirm 0, .fail 0]) :=
    reachable_after_guarded (.start initial_atTheCounter) ⟨trivial, trivial, trivial, trivial⟩ rfl
  have hread : Reachable step FittingWrites Initial
      (after step atTheCounter [.openScreen 5, .confirm 0, .fail 0, .resume 0]) := by
    refine .next (a := .resume 0) hfailed (fittingWrites_of_not_writing ?_) rfl
    intro c hc queue swipedAt hphase
    rw [List.mem_singleton.mp hc] at hphase
    exact nomatch hphase
  have hdecided : Reachable step FittingWrites Initial
      (after step atTheCounter [.openScreen 5, .confirm 0, .fail 0, .resume 0, .resume 0]) := by
    refine .next (a := .resume 0) hread (fittingWrites_of_not_writing ?_) rfl
    intro c hc queue swipedAt hphase
    rw [List.mem_singleton.mp hc] at hphase
    exact nomatch hphase
  refine .next (a := .resume 0) hdecided ?_ rfl
  intro index c queue swipedAt ha hget hphase
  cases ha
  cases hget
  cases hphase
  exact ⟨fun other hne => (Function.update_of_ne hne _ _).symm, fun e he => (nomatch he)⟩

end Sample

end Kurtar.ReconciledSwipes

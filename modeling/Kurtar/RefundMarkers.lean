import Kurtar.ComplaintRefunds

/-!
# The refund marker of a complaint ticket

A marker is true when its refund was accepted or its call is still under way.
What the refund service throws ends a call without taking its marker back, so
markers stay true exactly as long as no call throws there and every marker
that is to be taken back can be written.
-/

namespace Kurtar.RefundMarkers

open KeyedTable GuardedRuns TaskPools StatusTransitions IstanbulCalendar Marketplace
open ReservationTransactions OfferLifecycle MarketService MarketEffects MarketInvariant
open ComplaintRefunds

/-- A call that holds the ticket's marker is under way. -/
def UnderWay (p : DeskPool) (ticketId : TicketId) : Prop :=
  ∃ task ∈ p.tasks, task.holder = some ticketId

/-- Each marker stands for an accepted refund of the ticket's reservation, or for a call
under way. -/
def MarkersTrue (p : DeskPool) : Prop :=
  ∀ t ∈ p.shared.tickets.rows, t.refundedAt ≠ none →
    UnderWay p t.id ∨ AcceptedFor p.shared t.id t.reservationId

/-- A new call for the ticket gets as far as the refund service. -/
def Retryable (s : Desk) (ticketId : TicketId) : Prop :=
  ∀ adminId, ∃ request, request.ticketId = ticketId ∧
    adminRefund s adminId ticketId false = (s, [.claimTicket request]) ∧
    ∀ input : StepInput, input.databaseFails = false →
      (claimTicket s request input).2 = [.claimPayment request]

/-- The step ends a call that had claimed its ticket and got no acceptance. -/
def EndsUnaccepted (p p' : DeskPool) (ticketId : TicketId) : Prop :=
  ∃ call, p'.shared.ended = call :: p.shared.ended ∧ call.ticketId = ticketId ∧
    call.claimed = true ∧ call.accepted = false

section Markers

variable {s s' : Desk} {input : StepInput} {task : DeskTask} {rest others : List DeskTask}
  {p p' : DeskPool}

theorem underWay_of_perm {tasks tasks' : List DeskTask} (hperm : tasks.Perm tasks')
    {ticketId : TicketId} (h : UnderWay ⟨s, tasks⟩ ticketId) : UnderWay ⟨s', tasks'⟩ ticketId := by
  obtain ⟨task, hmem, hholder⟩ := h
  exact ⟨task, hperm.mem_iff.mp hmem, hholder⟩

/-- Tickets that keep their rows keep their markers true when the resumed task's is handed on. -/
theorem markers_kept (hmarks : MarkersTrue ⟨s, task :: others⟩) (hgrows : Grows s s')
    (hheld : ∀ t ∈ s'.tickets.rows, task.holder = some t.id →
      UnderWay ⟨s', rest ++ others⟩ t.id ∨ AcceptedFor s' t.id t.reservationId)
    {t : ComplaintTicket} (hold : t ∈ s.tickets.rows) (hnew : t ∈ s'.tickets.rows)
    (hmark : t.refundedAt ≠ none) :
    UnderWay ⟨s', rest ++ others⟩ t.id ∨ AcceptedFor s' t.id t.reservationId := by
  rcases hmarks t hold hmark with ⟨holder, hmem, hholder⟩ | haccepted
  · rcases List.mem_cons.mp hmem with rfl | hmem
    · exact hheld t hnew hholder
    · exact Or.inl ⟨holder, List.mem_append_right _ hmem, hholder⟩
  · exact Or.inr (haccepted.grows hgrows)

/-- A served step of a call keeps the markers true. -/
theorem markers_of_moved
    (hat : AtTask (fun s => WorldSound s.world) DeskTaskSound ApartTasks s task others)
    (hmarks : MarkersTrue ⟨s, task :: others⟩) (hserved : ServedTask s input task)
    (h : Moved s input task s' rest) : MarkersTrue ⟨s', rest ++ others⟩ := by
  have hw := hat.shared
  intro t ht hmark
  cases h with
  | @goesOn _ next _ _ htickets _ hgrows _ hholder _ =>
    have hold : t ∈ s.tickets.rows := by
      rw [← htickets]
      exact ht
    refine markers_kept hmarks hgrows ?_ hold ht hmark
    intro t _ hheld
    exact Or.inl ⟨next, List.mem_append_left _ (List.mem_singleton_self _), hholder.trans hheld⟩
  | lost =>
    refine markers_kept hmarks (grows_same hw rfl fun _ ha => ha) ?_ ht ht hmark
    intro t _ hheld
    cases hheld
  | threw hunserved => exact absurd hserved hunserved
  | kept hunserved => exact absurd hserved hunserved
  | @claims request u tickets hid _ hrep =>
    have hgrows : Grows s { s with tickets } := grows_same hw rfl fun _ ha => ha
    rcases hrep.mem_iff.mp ht with rfl | ⟨hold, _⟩
    · exact Or.inl ⟨.claimPayment request, List.mem_cons_self, congrArg some hid.symm⟩
    · refine markers_kept hmarks hgrows ?_ hold ht hmark
      intro t _ hheld
      cases hheld
  | @released request u tickets _ hid hrep =>
    rcases hrep.mem_iff.mp ht with rfl | ⟨hold, hother⟩
    · exact absurd rfl hmark
    · rcases hmarks t hold hmark with ⟨holder, hmem, hholder⟩ | haccepted
      · rcases List.mem_cons.mp hmem with rfl | hmem
        · exact absurd ((Option.some.inj hholder).symm.trans hid.symm) hother
        · exact Or.inl ⟨holder, hmem, hholder⟩
      · exact Or.inr (haccepted.grows (grows_same hw rfl fun _ ha => ha))
  | @refunded request refundRef _ _ htickets hgrows _ =>
    have hold : t ∈ s.tickets.rows := by
      rw [← htickets]
      exact ht
    refine markers_kept hmarks hgrows ?_ hold ht hmark
    intro t hmem hheld
    obtain ⟨⟨u, hu, hid, hlink, _⟩, haccepted⟩ := hat.own
    have hticket : request.ticketId = t.id := Option.some.inj hheld
    rw [htickets] at hmem
    have hsame := s.tickets.eq_of_key_eq hu hmem (hid.trans hticket)
    rw [hsame] at hlink
    rw [hticket, ← hlink] at haccepted
    exact Or.inr (haccepted.grows hgrows)

theorem markers_of_happened (hmarks : MarkersTrue p) (hw : WorldSound p.shared.world)
    (h : Happened p.shared s' rest) : MarkersTrue ⟨s', rest ++ p.tasks⟩ := by
  have hkept : Grows p.shared s' → ∀ t ∈ p.shared.tickets.rows, t.refundedAt ≠ none →
      UnderWay ⟨s', rest ++ p.tasks⟩ t.id ∨ AcceptedFor s' t.id t.reservationId := by
    intro hgrows t ht hmark
    rcases hmarks t ht hmark with ⟨holder, hmem, hholder⟩ | haccepted
    · exact Or.inl ⟨holder, List.mem_append_right _ hmem, hholder⟩
    · exact Or.inr (haccepted.grows hgrows)
  intro t ht hmark
  cases h with
  | market htickets _ hgrows =>
    rw [htickets] at ht
    exact hkept hgrows t ht hmark
  | opened hunmarked =>
    rcases Table.mem_insertNew.mp ht with ht | ⟨rfl, _⟩
    · exact hkept (grows_same hw rfl fun _ ha => ha) t ht hmark
    · exact absurd hunmarked hmark
  | refused => exact hkept (grows_same hw rfl fun _ ha => ha) t ht hmark
  | started => exact hkept (grows_same hw rfl fun _ ha => ha) t ht hmark

theorem markers_step {a : DeskAction} (hp : DeskSound p) (hmarks : MarkersTrue p)
    (hserved : Served p a) (h : desk.step p a = some p') : MarkersTrue p' := by
  cases a with
  | event e =>
    obtain ⟨s', started, he, rfl⟩ := event_eq_some h
    exact markers_of_happened hmarks hp.shared (happened_of_event hp.shared he)
  | resume index input =>
    obtain ⟨task, s', rest, hget, hr, rfl⟩ := resume_eq_some h
    have hat := hp.atTask apartTasks_symm hget
    have hr : deskResume p.shared (p.tasks.eraseIdx index) input task = some (s', rest) := hr
    have hsplit : MarkersTrue ⟨p.shared, task :: p.tasks.eraseIdx index⟩ := by
      intro t ht hmark
      rcases hmarks t ht hmark with hway | haccepted
      · exact Or.inl (underWay_of_perm (tasks_perm hget).symm hway)
      · exact Or.inr haccepted
    exact markers_of_moved hat hsplit (hserved task hget)
      (moved_of_resume hat.shared hat.own hr)

theorem markers_true (h : Reachable desk.step Served Initial p) : MarkersTrue p := by
  refine h.invariant_of (fun _ hr => desk_sound hr) ?_ ?_
  · intro p hi t ht
    rw [hi.tickets] at ht
    cases ht
  · intro p a p' hsound _ hmarks hserved hstep
    exact markers_step hsound hmarks hserved hstep

end Markers

section Endings

variable {s s' : Desk} {input : StepInput} {task : DeskTask} {rest others : List DeskTask}
  {p p' : DeskPool}

/-- An unmarked ticket of a reservation can be claimed by a new call. -/
theorem retryable_of_unmarked {t : ComplaintTicket} {reservationId : ReservationId}
    (ht : t ∈ s.tickets.rows) (hlink : t.reservationId = some reservationId)
    (hunmarked : t.refundedAt = none) : Retryable s t.id := by
  intro adminId
  refine ⟨⟨adminId, t.id, reservationId⟩, rfl, ?_, ?_⟩
  · unfold adminRefund
    rw [if_neg (by decide), Table.find?_of_mem ht]
    dsimp only
    rw [hlink]
  · intro input hserved
    obtain ⟨tickets, hupdate⟩ := Table.updateOne_of_mem (p := fun t => t.refundedAt = none)
      (fun t => { t with refundedAt := some input.clock }) (by exact fun _ => rfl) ht rfl hunmarked
    unfold claimTicket
    rw [if_neg (by rw [hserved]; decide)]
    simp only [hupdate]

theorem not_cons_self {calls : List EndedCall} {call : EndedCall} : calls ≠ call :: calls :=
  fun h => absurd (congrArg List.length h) (by simp)

/-- A served call that ends without acceptance has taken its marker back. -/
theorem released_of_moved
    (hat : AtTask (fun s => WorldSound s.world) DeskTaskSound ApartTasks s task others)
    (hserved : ServedTask s input task) (h : Moved s input task s' rest) {call : EndedCall}
    (hended : s'.ended = call :: s.ended) (hclaimed : call.claimed = true)
    (haccepted : call.accepted = false) :
    ∃ t ∈ s'.tickets.rows, t.id = call.ticketId ∧ t.refundedAt = none ∧
      Retryable s' call.ticketId := by
  cases h with
  | goesOn _ _ hsame =>
    rw [hsame] at hended
    exact absurd hended not_cons_self
  | claims => exact absurd hended not_cons_self
  | lost =>
    cases hended
    cases hclaimed
  | threw hunserved => exact absurd hserved hunserved
  | kept hunserved => exact absurd hserved hunserved
  | refunded _ _ hrefunded =>
    rw [hrefunded] at hended
    cases hended
    cases haccepted
  | @released request u _ _ hid hrep =>
    cases hended
    obtain ⟨t, ht, htid, hlink, _⟩ := hat.own
    have hsame := s.tickets.eq_of_key_eq ht hrep.mem_old (htid.trans hid.symm)
    rw [hsame] at hlink
    refine ⟨_, hrep.mem_new, hid, rfl, ?_⟩
    rw [← hid]
    exact retryable_of_unmarked (t := { u with refundedAt := none }) hrep.mem_new hlink rfl

/-- A call that is not served ends there, and its ticket stays marked. -/
theorem stale_of_moved
    (hat : AtTask (fun s => WorldSound s.world) DeskTaskSound ApartTasks s task others)
    (hunserved : ¬ ServedTask s input task) (h : Moved s input task s' rest) :
    ∃ call, s'.ended = call :: s.ended ∧ call.claimed = true ∧ call.accepted = false ∧
      ∃ t ∈ s'.tickets.rows, t.id = call.ticketId ∧ t.refundedAt ≠ none := by
  cases h with
  | goesOn hserved => exact absurd hserved hunserved
  | lost => exact absurd trivial hunserved
  | claims => exact absurd trivial hunserved
  | released hserved => exact absurd hserved hunserved
  | refunded => exact absurd trivial hunserved
  | threw =>
    obtain ⟨t, ht, hid, _, hmark⟩ := hat.own
    exact ⟨_, rfl, rfl, rfl, t, ht, hid, hmark⟩
  | kept =>
    obtain ⟨t, ht, hid, _, hmark⟩ := hat.own
    exact ⟨_, rfl, rfl, rfl, t, ht, hid, hmark⟩

theorem released_of_step {a : DeskAction} (hp : DeskSound p) (hserved : Served p a)
    (h : desk.step p a = some p') {ticketId : TicketId} (hends : EndsUnaccepted p p' ticketId) :
    ∃ t ∈ p'.shared.tickets.rows, t.id = ticketId ∧ t.refundedAt = none ∧
      Retryable p'.shared ticketId := by
  obtain ⟨call, hended, rfl, hclaimed, haccepted⟩ := hends
  cases a with
  | event e =>
    obtain ⟨s', started, he, rfl⟩ := event_eq_some h
    cases happened_of_event hp.shared he with
    | market _ hsame _ =>
      dsimp only at hended
      rw [hsame] at hended
      exact absurd hended not_cons_self
    | opened => exact absurd hended not_cons_self
    | refused hunclaimed =>
      cases hended
      rw [hclaimed] at hunclaimed
      cases hunclaimed
    | started => exact absurd hended not_cons_self
  | resume index input =>
    obtain ⟨task, s', rest, hget, hr, rfl⟩ := resume_eq_some h
    have hat := hp.atTask apartTasks_symm hget
    have hr : deskResume p.shared (p.tasks.eraseIdx index) input task = some (s', rest) := hr
    exact released_of_moved hat (hserved task hget) (moved_of_resume hat.shared hat.own hr) hended
      hclaimed haccepted

theorem stale_of_step {a : DeskAction} (hp : DeskSound p) (hunserved : ¬ Served p a)
    (h : desk.step p a = some p') : ∃ ticketId, EndsUnaccepted p p' ticketId ∧
      ∃ t ∈ p'.shared.tickets.rows, t.id = ticketId ∧ t.refundedAt ≠ none := by
  cases a with
  | event e => exact absurd trivial hunserved
  | resume index input =>
    obtain ⟨task, s', rest, hget, hr, rfl⟩ := resume_eq_some h
    have hat := hp.atTask apartTasks_symm hget
    have hr : deskResume p.shared (p.tasks.eraseIdx index) input task = some (s', rest) := hr
    have htask : ¬ ServedTask p.shared input task := by
      intro hserved
      apply hunserved
      intro other hother
      cases hget.symm.trans hother
      exact hserved
    obtain ⟨call, hended, hclaimed, haccepted, t, ht, hid, hmark⟩ :=
      stale_of_moved hat htask (moved_of_resume hat.shared hat.own hr)
    exact ⟨call.ticketId, ⟨call, hended, rfl, hclaimed, haccepted⟩, t, ht, hid, hmark⟩

/-- While every call is served, markers are true, and a call that ends unaccepted leaves its
ticket unmarked and open to another call. The first call that is not served ends with its
ticket marked. -/
theorem markers_true_while_served (p : DeskPool) (h : Reachable desk.step Served Initial p) :
    MarkersTrue p ∧ ∀ a p', desk.step p a = some p' →
      (Served p a → ∀ ticketId, EndsUnaccepted p p' ticketId →
        ∃ t ∈ p'.shared.tickets.rows, t.id = ticketId ∧ t.refundedAt = none ∧
          Retryable p'.shared ticketId) ∧
      (¬ Served p a → ∃ ticketId, EndsUnaccepted p p' ticketId ∧
        ∃ t ∈ p'.shared.tickets.rows, t.id = ticketId ∧ t.refundedAt ≠ none) := by
  have hp := desk_sound h
  refine ⟨markers_true h, ?_⟩
  intro a p' hstep
  exact ⟨fun hserved _ hends => released_of_step hp hserved hstep hends,
    fun hunserved => stale_of_step hp hunserved hstep⟩

end Endings

section SampleRuns

/-- The sample market and no ticket. -/
def sampleDesk : DeskPool :=
  ⟨{ world := sampleWorld
     tickets := Table.empty
     auditLog := []
     accepted := []
     ended := [] }, []⟩

theorem sampleDesk_initial : ComplaintRefunds.Initial sampleDesk :=
  ⟨sampleWorld_initial, rfl, rfl, rfl, rfl⟩

/-- The newest call takes its next statement. -/
def serve (refundReply : RefundReply) : DeskAction := .resume 0 { clock := 0, refundReply }

/-- A customer has paid a bag, and complains. -/
def complained : List DeskAction :=
  (openOffer 2 ++ book 1 1 0 ++ pay 1 5000 0).map (fun a => .event (.market a))
    ++ [.event (.create 1 (some 1) 1)]

/-- The bag is collected, the provider refuses once, and the call has released the payment. -/
def refused : List DeskAction :=
  complained
    ++ [.event (.market (.redeem (.consumer 1) 1 (12*hourMs))),
      .event (.market (MarketService.proceed (12*hourMs))), .event (.adminRefund 7 1 false),
      serve .failed, serve .failed, serve .failed, serve .failed]

/-- The bag has not been collected yet, and the call has claimed its ticket. -/
def tooEarly : List DeskAction :=
  complained ++ [.event (.adminRefund 7 1 false), serve .failed]

/-- A refund of a bag that was not collected is refused, and the ticket stays marked. -/
theorem markers_true_counterexample :
    Reachable desk.step anyStep ComplaintRefunds.Initial
        (after desk.step sampleDesk (tooEarly ++ [serve .failed])) ∧
      EndsUnaccepted (after desk.step sampleDesk tooEarly)
        (after desk.step sampleDesk (tooEarly ++ [serve .failed])) 1 ∧
      (after desk.step sampleDesk (tooEarly ++ [serve .failed])).tasks = [] ∧
      (after desk.step sampleDesk (tooEarly ++ [serve .failed])).shared.accepted = [] ∧
      ∃ t ∈ (after desk.step sampleDesk (tooEarly ++ [serve .failed])).shared.tickets.rows,
        t.id = 1 ∧ t.refundedAt ≠ none :=
  ⟨reachable_after (.start sampleDesk_initial) (by decide +kernel),
    ⟨_, rfl, rfl, rfl, rfl⟩, rfl, rfl, by decide +kernel⟩

theorem markers_true_while_served_refused :
    MarkersTrue (after desk.step sampleDesk refused) ∧
      ∃ t ∈ (after desk.step sampleDesk (refused ++ [serve .failed])).shared.tickets.rows,
        t.id = 1 ∧ t.refundedAt = none ∧
          Retryable (after desk.step sampleDesk (refused ++ [serve .failed])).shared 1 :=
  have h := markers_true_while_served (after desk.step sampleDesk refused)
    (reachable_after_guarded (.start sampleDesk_initial) (by decide +kernel) (by decide +kernel))
  ⟨h.1, (h.2 (serve .failed) _ (step_after (by decide +kernel))).1 (by decide +kernel) 1
    ⟨_, rfl, rfl, rfl, rfl⟩⟩

end SampleRuns

end Kurtar.RefundMarkers

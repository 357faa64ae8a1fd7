import Kurtar.TaskPools
import Kurtar.MarketInvariant

/-!
# Refunds of complaint tickets

A refund call of the complaint desk claims its ticket by the refund marker and
then calls the refund service, which claims the payment, asks the provider and
keeps the books. Calls on the same or other tickets take turns with each other
and with the whole reservation side, and each statement may fail.
-/

namespace Kurtar.ComplaintRefunds

open KeyedTable GuardedRuns TaskPools StatusTransitions IstanbulCalendar Marketplace
open ReservationTransactions OfferLifecycle MarketService MarketEffects MarketProcedures
open MarketInvariant

abbrev TicketId := ℕ

/-- The columns of a ticket that a refund call reads and writes. -/
structure ComplaintTicket where
  id : TicketId
  reservationId : Option ReservationId
  refundedAt : Option Instant

inductive ComplaintError where
  | complaintNotFound
  | noLinkedReservation
  | alreadyRefunded
  /-- The refund service threw. -/
  | refundService (e : ReservationError)
  | database

/-- A refund the provider accepted on behalf of a ticket. -/
structure Acceptance where
  ticketId : TicketId
  merchantOid : MerchantOid
  amountCents : ℤ

/-- How a call ended: with an error, or else with the outcome of the refund. -/
structure EndedCall where
  ticketId : TicketId
  /-- The call had claimed the ticket. -/
  claimed : Bool
  /-- The provider's acceptance was known. -/
  accepted : Bool
  error : Option ComplaintError

/-- A row of the audit log. -/
structure RefundAudit where
  adminId : AdminId
  ticketId : TicketId
  reservationId : ReservationId
  refundRef : String

/-- The reservation side and the tickets, with what happened so far. -/
structure Desk where
  world : World
  tickets : Table ComplaintTicket.id
  auditLog : List RefundAudit
  accepted : List Acceptance
  /-- The newest one first. -/
  ended : List EndedCall

structure RefundRequest where
  adminId : AdminId
  ticketId : TicketId
  reservationId : ReservationId

/-- The rest of a refund call. -/
inductive DeskTask where
  | claimTicket (request : RefundRequest)
  /-- The refund service reads the reservation and claims its payment. -/
  | claimPayment (request : RefundRequest)
  | callProvider (request : RefundRequest) (call : RefundCall)
  | recordDone (request : RefundRequest) (call : RefundCall) (refundRef : String)
  /-- Store what the bookkeeping transaction failed to store. -/
  | recordSent (request : RefundRequest) (call : RefundCall) (refundRef : String)
  | movePayment (request : RefundRequest) (call : RefundCall) (refundRef : String)
  | releasePayment (request : RefundRequest)
  | releaseTicket (request : RefundRequest)
  | writeAudit (request : RefundRequest) (refundRef : String)

inductive DeskEvent where
  /-- Any step of the reservation side. -/
  | market (a : MarketService.Action)
  | create (userId : UserId) (reservationId : Option ReservationId) (freshId : TicketId)
  | adminRefund (adminId : AdminId) (ticketId : TicketId) (databaseFails : Bool)

namespace Desk

variable (s : Desk)

/-- The call is over. -/
def finish (call : EndedCall) : Desk := { s with ended := call :: s.ended }

/-- The provider takes the refund in. -/
def accept (request : RefundRequest) (call : RefundCall) : Desk :=
  { s with
    world :=
      { s.world with
        providerRefunds := (call.merchantOid, call.amountCents) :: s.world.providerRefunds }
    accepted := ⟨request.ticketId, call.merchantOid, call.amountCents⟩ :: s.accepted }

/-- Store a refund row unless the database fails. -/
def store (refund : Refund) (databaseFails : Bool) : Desk :=
  if databaseFails then s
  else { s with world := { s.world with market := storeRefund s.world.market refund } }

/-- Commit rows of the reservation side and go on, when no locked row is touched. -/
def commit (m : Market) (rest : List DeskTask) : Option (Desk × List DeskTask) :=
  (s.world.commit m).map fun world => ({ s with world }, rest)

end Desk

section Calls

variable (s : Desk) (request : RefundRequest) (input : StepInput)

/-- A ticket is opened for a reservation of the caller, or for none. -/
def create (userId : UserId) (reservationId : Option ReservationId) (freshId : TicketId) :
    Option Desk :=
  let opened := { s with tickets := s.tickets.insertNew ⟨freshId, reservationId, none⟩ }
  match reservationId with
  | none => some opened
  | some id =>
    match s.world.market.reservations.find? id with
    | none => none
    | some reservation => if reservation.userId = userId then some opened else none

def adminRefund (adminId : AdminId) (ticketId : TicketId) (databaseFails : Bool) :
    Desk × List DeskTask :=
  if databaseFails then (s.finish ⟨ticketId, false, false, some .database⟩, [])
  else
    match s.tickets.find? ticketId with
    | none => (s.finish ⟨ticketId, false, false, some .complaintNotFound⟩, [])
    | some complaint =>
      match complaint.reservationId with
      | none => (s.finish ⟨ticketId, false, false, some .noLinkedReservation⟩, [])
      | some reservationId => (s, [.claimTicket ⟨adminId, ticketId, reservationId⟩])

def claimTicket : Desk × List DeskTask :=
  if input.databaseFails then
    (s.finish ⟨request.ticketId, false, false, some .database⟩, [])
  else
    match s.tickets.updateOne request.ticketId (fun t => t.refundedAt = none)
        (fun t => { t with refundedAt := some input.clock }) fun _ => rfl with
    | none => (s.finish ⟨request.ticketId, false, false, some .alreadyRefunded⟩, [])
    | some tickets => ({ s with tickets }, [.claimPayment request])

/-- What the refund service throws leaves the call with the ticket claimed. -/
def claimPayment : Option (Desk × List DeskTask) :=
  if input.databaseFails then
    some (s.finish ⟨request.ticketId, true, false, some .database⟩, [])
  else
    match claimRefund s.world.market request.reservationId with
    | .error e => some (s.finish ⟨request.ticketId, true, false, some (.refundService e)⟩, [])
    | .ok (m, call) => s.commit m [.callProvider request call]

def callProvider (call : RefundCall) : Desk × List DeskTask :=
  let refused := refundRow call none .failed
  match input.refundReply with
  | .answered refundRef => (s.accept request call, [.recordDone request call refundRef])
  | .answerLost =>
    ((s.accept request call).store refused input.databaseFails, [.releasePayment request])
  | .failed => (s.store refused input.databaseFails, [.releasePayment request])

def recordDone (call : RefundCall) (refundRef : String) : Option (Desk × List DeskTask) :=
  if input.databaseFails then some (s, [.recordSent request call refundRef])
  else
    s.commit (ReservationTransactions.recordRefund s.world.market call refundRef)
      [.writeAudit request refundRef]

def recordSent (call : RefundCall) (refundRef : String) : Desk × List DeskTask :=
  (s.store (refundRow call (some refundRef) .sent) input.databaseFails,
    [.movePayment request call refundRef])

def movePayment (call : RefundCall) (refundRef : String) : Option (Desk × List DeskTask) :=
  if input.databaseFails then some (s, [.writeAudit request refundRef])
  else
    s.commit (ReservationTransactions.moveRefunded s.world.market call)
      [.writeAudit request refundRef]

def releasePayment : Option (Desk × List DeskTask) :=
  if input.databaseFails then some (s, [.releaseTicket request])
  else
    s.commit (ReservationTransactions.releaseRefundClaim s.world.market request.reservationId)
      [.releaseTicket request]

/-- Take the marker back and return the failure. -/
def releaseTicket : Desk :=
  let released :=
    if input.databaseFails then s
    else
      { s with
        tickets := s.tickets.updateMany
          (fun t => t.id = request.ticketId ∧ t.refundedAt ≠ none)
          (fun t => { t with refundedAt := none }) fun _ => rfl }
  released.finish ⟨request.ticketId, true, false, none⟩

def writeAudit (refundRef : String) : Desk :=
  if input.databaseFails then s.finish ⟨request.ticketId, true, true, some .database⟩
  else
    { s with
      auditLog := ⟨request.adminId, request.ticketId, request.reservationId, refundRef⟩
        :: s.auditLog }.finish ⟨request.ticketId, true, true, none⟩

end Calls

/-- Complaint tickets are the only way into the refund of a collected bag. -/
def deskEvent (s : Desk) : DeskEvent → Option (Desk × List DeskTask)
  | .market (.refundRedeemed _) => none
  | .market a => (MarketService.step s.world a).map fun world => ({ s with world }, [])
  | .create userId reservationId freshId =>
    (create s userId reservationId freshId).map fun s => (s, [])
  | .adminRefund adminId ticketId databaseFails => some (adminRefund s adminId ticketId databaseFails)

def deskResume (s : Desk) (_ : List DeskTask) (input : StepInput) :
    DeskTask → Option (Desk × List DeskTask)
  | .claimTicket request => some (claimTicket s request input)
  | .claimPayment request => claimPayment s request input
  | .callProvider request call => some (callProvider s request input call)
  | .recordDone request call refundRef => recordDone s request input call refundRef
  | .recordSent request call refundRef => some (recordSent s request input call refundRef)
  | .movePayment request call refundRef => movePayment s request input call refundRef
  | .releasePayment request => releasePayment s request input
  | .releaseTicket request => some (releaseTicket s request input, [])
  | .writeAudit request refundRef => some (writeAudit s request input refundRef, [])

def desk : System Desk DeskTask DeskEvent StepInput where
  event := deskEvent
  resume := deskResume

abbrev DeskPool := Pool Desk DeskTask
abbrev DeskAction := PoolAction DeskEvent StepInput

/-- No ticket was opened and nothing is under way. -/
structure Initial (p : DeskPool) : Prop where
  world : MarketService.Initial p.shared.world
  tickets : p.shared.tickets = Table.empty
  accepted : p.shared.accepted = []
  ended : p.shared.ended = []
  tasks : p.tasks = []

section Soundness

variable (s : Desk)

/-- The call a task belongs to. -/
def DeskTask.request : DeskTask → RefundRequest
  | .claimTicket request | .claimPayment request | .callProvider request _
  | .recordDone request _ _ | .recordSent request _ _ | .movePayment request _ _
  | .releasePayment request | .releaseTicket request | .writeAudit request _ => request

/-- The ticket whose marker the call holds. -/
def DeskTask.holder : DeskTask → Option TicketId
  | .claimTicket _ => none
  | task => some task.request.ticketId

/-- The ticket as the call read it. -/
def Linked (request : RefundRequest) : Prop :=
  ∃ t ∈ s.tickets.rows, t.id = request.ticketId ∧ t.reservationId = some request.reservationId

/-- The ticket is still marked. -/
def Claimed (request : RefundRequest) : Prop :=
  ∃ t ∈ s.tickets.rows, t.id = request.ticketId ∧ t.reservationId = some request.reservationId ∧
    t.refundedAt ≠ none

/-- The provider is asked to refund the payment of the reservation. -/
structure CallSound (request : RefundRequest) (call : RefundCall) : Prop where
  refund : RefundSound s.world.market call
  payment : ∃ p ∈ s.world.market.payments.rows, p.reservationId = request.reservationId ∧
    p.merchantOid = call.merchantOid ∧ p.amountCents = call.amountCents

/-- The provider accepted a refund of the reservation's payment on behalf of the ticket. -/
def AcceptedFor (ticketId : TicketId) (reservationId : Option ReservationId) : Prop :=
  ∃ a ∈ s.accepted, a.ticketId = ticketId ∧ ∃ p ∈ s.world.market.payments.rows,
    some p.reservationId = reservationId ∧ p.merchantOid = a.merchantOid ∧
      p.amountCents = a.amountCents

/-- The rest of a refund call agrees with the stored rows. -/
def DeskTaskSound : DeskTask → Prop
  | .claimTicket request => Linked s request
  | .callProvider request call => Claimed s request ∧ CallSound s request call
  | .recordDone request call _ | .recordSent request call _ | .movePayment request call _ =>
    Claimed s request ∧ CallSound s request call ∧
      AcceptedFor s request.ticketId (some request.reservationId)
  | .writeAudit request _ =>
    Claimed s request ∧ AcceptedFor s request.ticketId (some request.reservationId)
  | .claimPayment request | .releasePayment request | .releaseTicket request => Claimed s request

/-- No two calls hold the marker of one ticket. -/
def ApartTasks (_ : Desk) (a b : DeskTask) : Prop := ∀ id, a.holder = some id → b.holder ≠ some id

/-- The invariant of every run of the desk. -/
abbrev DeskSound (p : DeskPool) : Prop :=
  Holds (fun s => WorldSound s.world) DeskTaskSound ApartTasks p

theorem apartTasks_symm (s : Desk) (a b : DeskTask) (h : ApartTasks s a b) : ApartTasks s b a :=
  fun id hb ha => h id ha hb

/-- What the reservation side and the provider keep from one state to the next. -/
structure Grows (s s' : Desk) : Prop where
  sound : WorldSound s'.world
  effect : ∃ c, Effect s.world.market c s'.world.market
  accepted : ∀ a ∈ s.accepted, a ∈ s'.accepted

variable {s} {s' : Desk} {request : RefundRequest} {call : RefundCall}

theorem CallSound.grows (h : CallSound s request call) (hg : Grows s s') :
    CallSound s' request call := by
  obtain ⟨c, heffect⟩ := hg.effect
  obtain ⟨p, hp, hid, hoid, hamount⟩ := h.payment
  obtain ⟨p', hp', hsucc⟩ := payment_kept heffect hp
  exact ⟨refundSound_kept heffect h.refund, p', hp', hsucc.reservationId.trans hid,
    hsucc.merchantOid.trans hoid, hsucc.amountCents.trans hamount⟩

theorem AcceptedFor.grows {ticketId : TicketId} {reservationId : Option ReservationId}
    (h : AcceptedFor s ticketId reservationId) (hg : Grows s s') :
    AcceptedFor s' ticketId reservationId := by
  obtain ⟨c, heffect⟩ := hg.effect
  obtain ⟨a, ha, hticket, p, hp, hid, hoid, hamount⟩ := h
  obtain ⟨p', hp', hsucc⟩ := payment_kept heffect hp
  refine ⟨a, hg.accepted a ha, hticket, p', hp', ?_, hsucc.merchantOid.trans hoid,
    hsucc.amountCents.trans hamount⟩
  rw [hsucc.reservationId]
  exact hid

/-- A task stays sound while its own ticket does. -/
theorem taskSound_grows {task : DeskTask} (h : DeskTaskSound s task) (hg : Grows s s')
    (hlinked : Linked s task.request → Linked s' task.request)
    (hclaimed : task.holder = some task.request.ticketId → Claimed s task.request →
      Claimed s' task.request) : DeskTaskSound s' task := by
  cases task with
  | claimTicket r => exact hlinked h
  | claimPayment r | releasePayment r | releaseTicket r => exact hclaimed rfl h
  | callProvider r call => exact ⟨hclaimed rfl h.1, h.2.grows hg⟩
  | recordDone r call ref | recordSent r call ref | movePayment r call ref =>
    exact ⟨hclaimed rfl h.1, h.2.1.grows hg, h.2.2.grows hg⟩
  | writeAudit r ref => exact ⟨hclaimed rfl h.1, h.2.grows hg⟩

theorem taskSound_same {task : DeskTask} (h : DeskTaskSound s task) (hg : Grows s s')
    (htickets : s'.tickets = s.tickets) : DeskTaskSound s' task := by
  refine taskSound_grows h hg ?_ ?_
  · intro hlinked
    rwa [Linked, htickets]
  · intro _ hclaimed
    rwa [Claimed, htickets]

/-- Every holder's ticket is marked. -/
theorem claimed_of_holder {task : DeskTask} {id : TicketId} (h : DeskTaskSound s task)
    (hholder : task.holder = some id) : Claimed s task.request ∧ task.request.ticketId = id := by
  cases task with
  | claimTicket r => cases hholder
  | claimPayment r | releasePayment r | releaseTicket r => exact ⟨h, Option.some.inj hholder⟩
  | callProvider r call => exact ⟨h.1, Option.some.inj hholder⟩
  | recordDone r call ref | recordSent r call ref | movePayment r call ref =>
    exact ⟨h.1, Option.some.inj hholder⟩
  | writeAudit r ref => exact ⟨h.1, Option.some.inj hholder⟩

end Soundness

section Conditions

/-- The reservation was collected or missed, and its payment is paid. -/
def Refundable (m : Market) (reservationId : ReservationId) : Prop :=
  (∃ r ∈ m.reservations.rows, r.id = reservationId ∧ (r.status = .redeemed ∨ r.status = .noShow)) ∧
    ∃ p ∈ m.payments.rows, p.reservationId = reservationId ∧ p.status = .paid

instance (m : Market) (reservationId : ReservationId) : Decidable (Refundable m reservationId) := by
  unfold Refundable
  infer_instance

/-- The refund service can claim the payment, and a marker that is to be given back can be
written. -/
def ServedTask (s : Desk) (input : StepInput) : DeskTask → Prop
  | .claimPayment request =>
    input.databaseFails = false ∧ Refundable s.world.market request.reservationId
  | .releaseTicket _ => input.databaseFails = false
  | _ => True

instance (s : Desk) (input : StepInput) (task : DeskTask) : Decidable (ServedTask s input task) := by
  unfold ServedTask
  split <;> infer_instance

/-- The task that an action resumes is served. -/
def Served (p : DeskPool) : DeskAction → Prop
  | .event _ => True
  | .resume index input => ∀ task ∈ p.tasks[index]?, ServedTask p.shared input task

instance (p : DeskPool) (a : DeskAction) : Decidable (Served p a) := by
  unfold Served
  split <;> infer_instance

/-- The refund service refuses exactly what is not refundable. -/
theorem claimRefund_ok_iff {m : Market} {reservationId : ReservationId} :
    (∃ result, claimRefund m reservationId = .ok result) ↔ Refundable m reservationId := by
  constructor
  · rintro ⟨⟨m', call⟩, h⟩
    unfold claimRefund at h
    split at h
    · cases h
    · rename_i reservation hfind
      obtain ⟨hr, hid⟩ := Table.find?_eq_some.mp hfind
      split at h
      · cases h
      · split_ifs at h with hstatus
        split at h
        · cases h
        · rename_i claimed hclaimed
          obtain ⟨p, payments, hpid, hpaid, hrep, _⟩ := Market.updatePayment_eq_some hclaimed
          refine ⟨⟨reservation, hr, hid, ?_⟩, p, hrep.mem_old, hpid, hpaid⟩
          tauto
  · rintro ⟨⟨r, hr, hid, hstatus⟩, p, hp, hpid, hpaid⟩
    have hfind := Table.find?_of_mem hr
    have hpayment := Table.find?_of_mem hp
    rw [hid] at hfind
    rw [hpid] at hpayment
    have hcollected : ¬ (r.status ≠ .redeemed ∧ r.status ≠ .noShow) := by tauto
    obtain ⟨payments, hpayments⟩ := Table.updateOne_of_mem (p := fun p => p.status = .paid)
      markRefundPending (by exact fun _ => rfl) hp hpid hpaid
    cases h : claimRefund m reservationId with
    | ok result => exact ⟨result, rfl⟩
    | error e =>
      unfold claimRefund at h
      simp only [hfind, hpayment, if_neg hcollected, Market.updatePayment, hpayments,
        Option.map_some] at h
      cases h

end Conditions

section Moves

/-- What the next step of a refund call does. -/
inductive Moved (s : Desk) (input : StepInput) : DeskTask → Desk → List DeskTask → Prop
  /-- The call goes on and leaves all tickets as they are. -/
  | goesOn {task next : DeskTask} {s' : Desk} (hserved : ServedTask s input task)
    (htickets : s'.tickets = s.tickets) (hended : s'.ended = s.ended) (hgrows : Grows s s')
    (hrequest : next.request = task.request) (hholder : next.holder = task.holder)
    (hsound : DeskTaskSound s' next) : Moved s input task s' [next]
  | lost {request : RefundRequest} {e : ComplaintError} :
    Moved s input (.claimTicket request)
      (s.finish ⟨request.ticketId, false, false, some e⟩) []
  | claims {request : RefundRequest} {t : ComplaintTicket} {tickets : Table ComplaintTicket.id}
    (hid : t.id = request.ticketId) (hfree : t.refundedAt = none)
    (hrep : Table.Replaces s.tickets tickets t { t with refundedAt := some input.clock }) :
    Moved s input (.claimTicket request) { s with tickets } [.claimPayment request]
  | threw {request : RefundRequest} {e : ComplaintError}
    (hunserved : ¬ ServedTask s input (.claimPayment request)) :
    Moved s input (.claimPayment request)
      (s.finish ⟨request.ticketId, true, false, some e⟩) []
  | released {request : RefundRequest} {t : ComplaintTicket} {tickets : Table ComplaintTicket.id}
    (hserved : ServedTask s input (.releaseTicket request)) (hid : t.id = request.ticketId)
    (hrep : Table.Replaces s.tickets tickets t { t with refundedAt := none }) :
    Moved s input (.releaseTicket request)
      ({ s with tickets }.finish ⟨request.ticketId, true, false, none⟩) []
  | kept {request : RefundRequest} (hunserved : ¬ ServedTask s input (.releaseTicket request)) :
    Moved s input (.releaseTicket request)
      (s.finish ⟨request.ticketId, true, false, none⟩) []
  | refunded {request : RefundRequest} {refundRef : String} {s' : Desk}
    {error : Option ComplaintError} (htickets : s'.tickets = s.tickets)
    (hgrows : Grows s s')
    (hended : s'.ended = ⟨request.ticketId, true, true, error⟩ :: s.ended) :
    Moved s input (.writeAudit request refundRef) s' []

variable {s s' : Desk} {input : StepInput} {request : RefundRequest} {call : RefundCall}
  {rest tasks : List DeskTask}

theorem grows_same (hw : WorldSound s.world) (hworld : s'.world = s.world)
    (haccepted : ∀ a ∈ s.accepted, a ∈ s'.accepted) : Grows s s' := by
  refine ⟨by rw [hworld]; exact hw, ⟨.other, ?_⟩, haccepted⟩
  rw [hworld]
  exact .idle rfl rfl rfl

theorem grows_store (hw : WorldSound s.world) (refund : Refund) (databaseFails : Bool) :
    Grows s (s.store refund databaseFails) ∧
      (s.store refund databaseFails).tickets = s.tickets ∧
      (s.store refund databaseFails).ended = s.ended := by
  unfold Desk.store
  split_ifs
  · exact ⟨grows_same hw rfl fun _ ha => ha, rfl, rfl⟩
  · exact ⟨⟨sound_of_same hw rfl rfl rfl, ⟨.other, .idle rfl rfl rfl⟩, fun _ ha => ha⟩, rfl, rfl⟩

theorem grows_accept (hw : WorldSound s.world) (request : RefundRequest) (call : RefundCall) :
    Grows s (s.accept request call) :=
  ⟨⟨hw.consistent, hw.tasks, hw.cancellations⟩, ⟨.other, .idle rfl rfl rfl⟩,
    fun _ ha => List.mem_cons_of_mem _ ha⟩

theorem Grows.trans_idle {s₁ : Desk} (h : Grows s s₁) (h' : Grows s₁ s')
    (hmarket : s₁.world.market = s.world.market) : Grows s s' := by
  refine ⟨h'.sound, ?_, fun a ha => h'.accepted a (h.accepted a ha)⟩
  rw [← hmarket]
  exact h'.effect

/-- A commit of the reservation side's rows. -/
theorem grows_commit (hw : WorldSound s.world) {m : Market}
    (heffect : Effect s.world.market .other m) (h : s.commit m rest = some (s', tasks)) :
    Grows s s' ∧ s'.tickets = s.tickets ∧ s'.ended = s.ended ∧ s'.world.market = m ∧
      tasks = rest := by
  obtain ⟨world, hworld, he⟩ := Option.map_eq_some_iff.mp h
  cases he
  obtain ⟨hsteps, hmarket⟩ := steps_commit hw heffect hworld
  exact ⟨⟨hsteps.sound, ⟨.other, hsteps.effect⟩, fun _ ha => ha⟩, rfl, rfl, hmarket, rfl⟩

theorem Claimed.same (h : Claimed s request) (htickets : s'.tickets = s.tickets) :
    Claimed s' request := by
  rwa [Claimed, htickets]

/-- The call is for the payment that the service read. -/
theorem claimRefund_payment {m m' : Market} {reservationId : ReservationId}
    (h : claimRefund m reservationId = .ok (m', call)) :
    ∃ p ∈ m.payments.rows, p.reservationId = reservationId ∧ p.merchantOid = call.merchantOid ∧
      p.amountCents = call.amountCents := by
  unfold claimRefund at h
  split at h
  · cases h
  · split at h
    · cases h
    · rename_i payment hpayment
      obtain ⟨hp, hid⟩ := Table.find?_eq_some.mp hpayment
      split_ifs at h
      split at h
      · cases h
      · cases h
        exact ⟨payment, hp, hid, rfl, rfl⟩

theorem moved_claimTicket (h : claimTicket s request input = (s', rest)) :
    Moved s input (.claimTicket request) s' rest := by
  unfold claimTicket at h
  split_ifs at h
  · cases h
    exact .lost
  · split at h
    · cases h
      exact .lost
    · rename_i tickets hupdate
      cases h
      obtain ⟨t, hid, hfree, hrep⟩ := Table.updateOne_eq_some hupdate
      exact .claims hid hfree hrep

theorem moved_claimPayment (hw : WorldSound s.world) (hown : Claimed s request)
    (h : claimPayment s request input = some (s', rest)) :
    Moved s input (.claimPayment request) s' rest := by
  unfold claimPayment at h
  split_ifs at h with hfails
  · cases h
    refine .threw fun hserved => ?_
    rw [hserved.1] at hfails
    cases hfails
  · split at h
    · rename_i e herror
      cases h
      refine .threw fun hserved => ?_
      obtain ⟨result, hok⟩ := claimRefund_ok_iff.mpr hserved.2
      rw [hok] at herror
      cases herror
    · rename_i m call hclaim
      obtain ⟨heffect, hrefund⟩ := claimRefund_effect (c := .other) hclaim
      obtain ⟨hgrows, htickets, hended, hmarket, rfl⟩ := grows_commit hw heffect h
      obtain ⟨p, hp, hid, hoid, hamount⟩ := claimRefund_payment hclaim
      obtain ⟨p', hp', hsucc⟩ := payment_kept heffect hp
      refine .goesOn ⟨by simpa using hfails, claimRefund_ok_iff.mp ⟨_, hclaim⟩⟩ htickets hended
        hgrows rfl rfl ⟨hown.same htickets, ?_, p', ?_, ?_, ?_, ?_⟩
      · rw [hmarket]
        exact hrefund
      · rw [hmarket]
        exact hp'
      · exact hsucc.reservationId.trans hid
      · exact hsucc.merchantOid.trans hoid
      · exact hsucc.amountCents.trans hamount

theorem moved_callProvider (hw : WorldSound s.world)
    (hown : Claimed s request ∧ CallSound s request call)
    (h : callProvider s request input call = (s', rest)) :
    Moved s input (.callProvider request call) s' rest := by
  have haccept := grows_accept hw request call
  unfold callProvider at h
  dsimp only at h
  split at h
  · cases h
    obtain ⟨p, hp, hid, hoid, hamount⟩ := hown.2.payment
    refine .goesOn trivial rfl rfl haccept rfl rfl
      ⟨hown.1.same rfl, hown.2.grows haccept, _, List.mem_cons_self, rfl, p, hp, ?_, hoid, hamount⟩
    rw [hid]
  · cases h
    obtain ⟨hstore, htickets, hended⟩ := grows_store (s := s.accept request call) haccept.sound
      (refundRow call none .failed) input.databaseFails
    exact .goesOn trivial htickets hended (haccept.trans_idle hstore rfl) rfl rfl
      (hown.1.same htickets)
  · cases h
    obtain ⟨hstore, htickets, hended⟩ := grows_store hw (refundRow call none .failed)
      input.databaseFails
    exact .goesOn trivial htickets hended hstore rfl rfl (hown.1.same htickets)

/-- The statements after an acceptance keep the books and go on to the audit row. -/
theorem moved_booked {task next : DeskTask} {m : Market} (hw : WorldSound s.world)
    (h : s.commit m [next] = some (s', rest)) (heffect : Effect s.world.market .other m)
    (hserved : ServedTask s input task) (hrequest : next.request = task.request)
    (hholder : next.holder = task.holder)
    (hsound : ∀ s', Grows s s' → s'.tickets = s.tickets → DeskTaskSound s' next) :
    Moved s input task s' rest := by
  obtain ⟨hgrows, htickets, hended, _, rfl⟩ := grows_commit hw heffect h
  exact .goesOn hserved htickets hended hgrows hrequest hholder (hsound s' hgrows htickets)

theorem moved_recordDone {refundRef : String} (hw : WorldSound s.world)
    (hown : DeskTaskSound s (.recordDone request call refundRef))
    (h : recordDone s request input call refundRef = some (s', rest)) :
    Moved s input (.recordDone request call refundRef) s' rest := by
  unfold recordDone at h
  split_ifs at h
  · cases h
    exact .goesOn trivial rfl rfl (grows_same hw rfl fun _ ha => ha) rfl rfl hown
  · refine moved_booked hw h (moveRefunded_effect hown.2.1.refund _) trivial rfl rfl ?_
    exact fun s' hgrows htickets => ⟨hown.1.same htickets, hown.2.2.grows hgrows⟩

theorem moved_recordSent {refundRef : String} (hw : WorldSound s.world)
    (hown : DeskTaskSound s (.recordSent request call refundRef))
    (h : recordSent s request input call refundRef = (s', rest)) :
    Moved s input (.recordSent request call refundRef) s' rest := by
  unfold recordSent at h
  cases h
  obtain ⟨hstore, htickets, hended⟩ := grows_store hw (refundRow call (some refundRef) .sent)
    input.databaseFails
  exact .goesOn trivial htickets hended hstore rfl rfl
    ⟨hown.1.same htickets, hown.2.1.grows hstore, hown.2.2.grows hstore⟩

theorem moved_movePayment {refundRef : String} (hw : WorldSound s.world)
    (hown : DeskTaskSound s (.movePayment request call refundRef))
    (h : movePayment s request input call refundRef = some (s', rest)) :
    Moved s input (.movePayment request call refundRef) s' rest := by
  unfold movePayment at h
  split_ifs at h
  · cases h
    exact .goesOn trivial rfl rfl (grows_same hw rfl fun _ ha => ha) rfl rfl ⟨hown.1, hown.2.2⟩
  · refine moved_booked hw h (moveRefunded_effect hown.2.1.refund _) trivial rfl rfl ?_
    exact fun s' hgrows htickets => ⟨hown.1.same htickets, hown.2.2.grows hgrows⟩

theorem moved_releasePayment (hw : WorldSound s.world) (hown : Claimed s request)
    (h : releasePayment s request input = some (s', rest)) :
    Moved s input (.releasePayment request) s' rest := by
  unfold releasePayment at h
  split_ifs at h
  · cases h
    exact .goesOn trivial rfl rfl (grows_same hw rfl fun _ ha => ha) rfl rfl hown
  · refine moved_booked hw h (releaseRefundClaim_effect hw.consistent _) trivial rfl rfl ?_
    exact fun s' _ htickets => hown.same htickets

theorem moved_releaseTicket (hown : Claimed s request) :
    Moved s input (.releaseTicket request) (releaseTicket s request input) [] := by
  unfold releaseTicket
  cases hfails : input.databaseFails with
  | true =>
    rw [if_pos rfl]
    refine .kept fun hserved => ?_
    rw [ServedTask, hfails] at hserved
    cases hserved
  | false =>
    obtain ⟨t, ht, hid, _, hmarked⟩ := hown
    rw [if_neg (by decide)]
    exact .released hfails hid (Table.replaces_updateMany _ _ _ (by exact fun _ => rfl) ht
      ⟨hid, hmarked⟩ fun b hb => hb.1.trans hid.symm)

theorem moved_writeAudit {refundRef : String} (hw : WorldSound s.world) :
    Moved s input (.writeAudit request refundRef) (writeAudit s request input refundRef) [] := by
  unfold writeAudit
  split_ifs
  · exact .refunded rfl (grows_same hw rfl fun _ ha => ha) rfl
  · exact .refunded rfl (grows_same hw rfl fun _ ha => ha) rfl

/-- Every resumed task does one of the listed things. -/
theorem moved_of_resume {others : List DeskTask} {task : DeskTask} (hw : WorldSound s.world)
    (hown : DeskTaskSound s task) (h : deskResume s others input task = some (s', rest)) :
    Moved s input task s' rest := by
  cases task with
  | claimTicket r => exact moved_claimTicket (Option.some.inj h)
  | claimPayment r => exact moved_claimPayment hw hown h
  | callProvider r call => exact moved_callProvider hw hown (Option.some.inj h)
  | recordDone r call ref => exact moved_recordDone hw hown h
  | recordSent r call ref => exact moved_recordSent hw hown (Option.some.inj h)
  | movePayment r call ref => exact moved_movePayment hw hown h
  | releasePayment r => exact moved_releasePayment hw hown h
  | releaseTicket r =>
    cases h
    exact moved_releaseTicket hown
  | writeAudit r ref =>
    cases h
    exact moved_writeAudit hw

end Moves

section Invariant

variable {s s' : Desk} {input : StepInput} {task : DeskTask} {rest others : List DeskTask}

/-- A marker that is set or taken back leaves the other tickets and all links alone. -/
theorem linked_replaced {t t' : ComplaintTicket} {request : RefundRequest}
    (hrep : Table.Replaces s.tickets s'.tickets t t') (hlink : t'.reservationId = t.reservationId)
    (h : Linked s request) : Linked s' request := by
  obtain ⟨u, hu, hid, hres⟩ := h
  obtain ⟨u', hu', hkey, rfl | ⟨rfl, rfl⟩⟩ := hrep.exists_new hu
  · exact ⟨u', hu', hid, hres⟩
  · exact ⟨u', hu', hkey.trans hid, hlink.trans hres⟩

theorem claimed_replaced {t t' : ComplaintTicket} {request : RefundRequest}
    (hrep : Table.Replaces s.tickets s'.tickets t t')
    (hother : request.ticketId = t.id → Claimed s' request)
    (h : Claimed s request) : Claimed s' request := by
  obtain ⟨u, hu, hid, hres, hmark⟩ := h
  obtain ⟨u', hu', hkey, rfl | ⟨rfl, _⟩⟩ := hrep.exists_new hu
  · exact ⟨u', hu', hid, hres, hmark⟩
  · exact hother hid.symm

/-- The others go on as before. -/
theorem undisturbed (hat : AtTask (fun s => WorldSound s.world) DeskTaskSound ApartTasks s task others)
    (heach : ∀ other ∈ others, DeskTaskSound s' other) :
    Undisturbed DeskTaskSound ApartTasks s s' others :=
  ⟨heach, hat.pairs⟩

/-- A call that ends leaves the rest of the pool sound. -/
theorem sound_ended
    (hat : AtTask (fun s => WorldSound s.world) DeskTaskSound ApartTasks s task others)
    (hsound : WorldSound s'.world) (heach : ∀ other ∈ others, DeskTaskSound s' other) :
    DeskSound ⟨s', [] ++ others⟩ :=
  holds_append hsound (undisturbed hat heach) (fun _ hmem => by cases hmem) List.Pairwise.nil
    fun _ hmem => by cases hmem

/-- A call that goes on does so under the marker it held before. -/
theorem sound_went_on {next : DeskTask}
    (hat : AtTask (fun s => WorldSound s.world) DeskTaskSound ApartTasks s task others)
    (hsound : WorldSound s'.world) (heach : ∀ other ∈ others, DeskTaskSound s' other)
    (hnext : DeskTaskSound s' next) (hapart : ∀ other ∈ others, ApartTasks s' next other) :
    DeskSound ⟨s', [next] ++ others⟩ := by
  refine holds_append hsound (undisturbed hat heach) ?_ (List.pairwise_singleton _ _) ?_
  · intro t hmem
    rw [List.mem_singleton.mp hmem]
    exact hnext
  · intro t hmem other hother
    rw [List.mem_singleton.mp hmem]
    exact hapart other hother

/-- A step of a call keeps the invariant. -/
theorem sound_of_moved
    (hat : AtTask (fun s => WorldSound s.world) DeskTaskSound ApartTasks s task others)
    (h : Moved s input task s' rest) : DeskSound ⟨s', rest ++ others⟩ := by
  have hw := hat.shared
  have hfinish : ∀ call, ∀ other ∈ others, DeskTaskSound (s.finish call) other :=
    fun call other hmem =>
      taskSound_same (hat.each other hmem) (grows_same hw rfl fun _ ha => ha) rfl
  cases h with
  | goesOn _ htickets _ hgrows _ hholder hsound =>
    refine sound_went_on hat hgrows.sound
      (fun other hmem => taskSound_same (hat.each other hmem) hgrows htickets) hsound ?_
    intro other hmem id hid
    rw [hholder] at hid
    exact hat.apart other hmem id hid
  | lost => exact sound_ended hat hw (hfinish _)
  | threw => exact sound_ended hat hw (hfinish _)
  | kept => exact sound_ended hat hw (hfinish _)
  | refunded htickets hgrows _ =>
    exact sound_ended hat hgrows.sound
      fun other hmem => taskSound_same (hat.each other hmem) hgrows htickets
  | @claims request t tickets hid hfree hrep =>
    have hgrows : Grows s { s with tickets } := grows_same hw rfl fun _ ha => ha
    obtain ⟨u, hu, huid, hlink⟩ := hat.own
    have hsame := s.tickets.eq_of_key_eq hu hrep.mem_old (huid.trans hid.symm)
    have hown : ∀ r : RefundRequest, r.ticketId = t.id → Linked s r →
        Claimed { s with tickets } r := by
      rintro r hr ⟨v, hv, hvid, hvlink⟩
      have hv := s.tickets.eq_of_key_eq hv hrep.mem_old (hvid.trans hr)
      rw [hv] at hvlink
      exact ⟨_, hrep.mem_new, hr.symm, hvlink, by simp⟩
    have hlinked : ∀ r : RefundRequest, Claimed s r → Linked s r :=
      fun r ⟨v, hv, hvid, hvlink, _⟩ => ⟨v, hv, hvid, hvlink⟩
    refine sound_went_on hat hw ?_ (hown request hid.symm hat.own) ?_
    · intro other hmem
      refine taskSound_grows (hat.each other hmem) hgrows (linked_replaced hrep rfl) ?_
      intro _ hclaimed
      exact claimed_replaced hrep (fun he => hown _ he (hlinked _ hclaimed)) hclaimed
    · -- a holder of the same ticket would have it marked already
      intro other hmem id hholder hother
      obtain ⟨⟨v, hv, hvid, _, hmark⟩, hticket⟩ := claimed_of_holder (hat.each other hmem) hother
      have hidt : id = t.id := (Option.some.inj hholder).symm.trans hid.symm
      rw [s.tickets.eq_of_key_eq hv hrep.mem_old (hvid.trans (hticket.trans hidt))] at hmark
      exact hmark hfree
  | @released request t tickets hserved hid hrep =>
    have hgrows : Grows s ({ s with tickets }.finish ⟨request.ticketId, true, false, none⟩) :=
      grows_same hw rfl fun _ ha => ha
    refine sound_ended hat hw ?_
    intro other hmem
    refine taskSound_grows (hat.each other hmem) hgrows (linked_replaced hrep rfl) ?_
    intro hholder hclaimed
    refine claimed_replaced hrep (fun he => ?_) hclaimed
    exact absurd (hholder.trans (congrArg some (he.trans hid))) (hat.apart other hmem _ rfl)

/-- What an event does: a step of the reservation side, a new ticket, or a call that has
claimed nothing yet. -/
inductive Happened (s : Desk) : Desk → List DeskTask → Prop
  | market {s' : Desk} (htickets : s'.tickets = s.tickets) (hended : s'.ended = s.ended)
    (hgrows : Grows s s') : Happened s s' []
  | opened {t : ComplaintTicket} (hunmarked : t.refundedAt = none) :
    Happened s { s with tickets := s.tickets.insertNew t } []
  | refused {call : EndedCall} (hclaimed : call.claimed = false) : Happened s (s.finish call) []
  | started {request : RefundRequest} (hlinked : Linked s request) :
    Happened s s [.claimTicket request]

theorem happened_of_event {e : DeskEvent} (hw : WorldSound s.world)
    (h : deskEvent s e = some (s', rest)) : Happened s s' rest := by
  cases e with
  | market a =>
    have hstep : (MarketService.step s.world a).map (fun world => ({ s with world }, [])) =
        some (s', rest) := by
      cases a with
      | refundRedeemed => cases h
      | _ => exact h
    obtain ⟨world, hworld, he⟩ := Option.map_eq_some_iff.mp hstep
    cases he
    have hsteps := step_steps hw hworld
    exact .market rfl rfl ⟨hsteps.sound, ⟨_, hsteps.effect⟩, fun _ ha => ha⟩
  | create userId reservationId freshId =>
    obtain ⟨opened, hopened, he⟩ := Option.map_eq_some_iff.mp h
    cases he
    unfold create at hopened
    dsimp only at hopened
    repeat' split at hopened
    all_goals cases hopened
    · exact .opened rfl
    · exact .opened rfl
  | adminRefund adminId ticketId databaseFails =>
    replace h := Option.some.inj h
    unfold adminRefund at h
    split_ifs at h
    · cases h
      exact .refused rfl
    · split at h
      · cases h
        exact .refused rfl
      · rename_i complaint hfind
        obtain ⟨hmem, hid⟩ := Table.find?_eq_some.mp hfind
        split at h
        · cases h
          exact .refused rfl
        · rename_i reservationId hlink
          cases h
          exact .started ⟨complaint, hmem, hid, hlink⟩

theorem sound_of_happened {p : DeskPool} (hp : DeskSound p) (h : Happened p.shared s' rest) :
    DeskSound ⟨s', rest ++ p.tasks⟩ := by
  cases h with
  | market htickets _ hgrows =>
    exact ⟨hgrows.sound, fun task hmem => taskSound_same (hp.each task hmem) hgrows htickets,
      hp.pairs⟩
  | @opened t _ =>
    refine ⟨hp.shared, ?_, hp.pairs⟩
    intro task hmem
    refine taskSound_grows (hp.each task hmem) (grows_same hp.shared rfl fun _ ha => ha) ?_ ?_
    · rintro ⟨u, hu, hrest⟩
      exact ⟨u, Table.mem_insertNew.mpr (Or.inl hu), hrest⟩
    · rintro _ ⟨u, hu, hrest⟩
      exact ⟨u, Table.mem_insertNew.mpr (Or.inl hu), hrest⟩
  | refused =>
    exact ⟨hp.shared,
      fun task hmem => taskSound_same (hp.each task hmem)
        (grows_same hp.shared rfl fun _ ha => ha) rfl, hp.pairs⟩
  | started hlinked =>
    refine ⟨hp.shared, ?_, ?_⟩
    · intro task hmem
      rcases List.mem_cons.mp hmem with rfl | hmem
      · exact hlinked
      · exact hp.each task hmem
    · refine List.pairwise_cons.mpr ⟨?_, hp.pairs⟩
      intro other _ id hid
      cases hid

theorem sound_step {p p' : DeskPool} {a : DeskAction} (hp : DeskSound p)
    (h : desk.step p a = some p') : DeskSound p' := by
  refine holds_step apartTasks_symm hp ?_ ?_ h
  · intro e s' started _ he
    exact sound_of_happened hp (happened_of_event hp.shared he)
  · intro index input task s' rest _ _ hat hresume
    have hresumed : deskResume p.shared (p.tasks.eraseIdx index) input task = some (s', rest) :=
      hresume
    exact sound_of_moved hat (moved_of_resume hat.shared hat.own hresumed)

theorem desk_sound {ok : DeskPool → DeskAction → Prop} {p : DeskPool}
    (h : Reachable desk.step ok Initial p) : DeskSound p := by
  refine h.invariant ?_ fun _ _ _ hp _ hstep => sound_step hp hstep
  intro p hi
  refine ⟨sound_initial hi.world, ?_, ?_⟩
  · intro task hmem
    rw [hi.tasks] at hmem
    cases hmem
  · rw [hi.tasks]
    exact List.Pairwise.nil

end Invariant

end Kurtar.ComplaintRefunds

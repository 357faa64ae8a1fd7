import Kurtar.ReservationLocks
import Kurtar.WaitCircles

/-!
# Deadlocks of the reservation side

Every transaction but the cancellation of an offer asks for its rows in the
order payment, reservation, offer, code. In any circle of waits there is
therefore a cancelled offer whose cancellation wants a row of one of its
reservations, while the holder of such a row wants the offer.
-/

namespace Kurtar.ReservationDeadlocks

open GuardedRuns KeyedTable StatusTransitions IstanbulCalendar Marketplace LockedTransactions
open ReservationLocks WaitCircles
open ReservationTransactions (CommittedReservation CreateCall ProviderEvent)
open OfferLifecycle (Candidate RefundItem candidatesOf)

/-- The documented order of the rows. -/
def level : Row → ℕ
  | .payment _ _ => 0
  | .reservation _ _ => 1
  | .offer _ => 2
  | .code _ => 3

/-- Does the row belong to this reservation of this offer? -/
def OfReservation (offerId : OfferId) (reservationId : ReservationId) (row : Row) : Prop :=
  row = .payment offerId reservationId ∨ row = .reservation offerId reservationId

section Rules

/-- What a transaction is about. -/
inductive Subject where
  /-- One reservation of an offer. -/
  | reservation (offerId : OfferId) (reservationId : ReservationId)
  /-- A reservation that does not exist yet. -/
  | newReservation (offerId : OfferId)
  /-- An offer with all its reservations. -/
  | offer (offerId : OfferId)

/-- What a transaction may want, given what it holds. -/
def Rule : Subject → List (Row × LockMode) → Row × LockMode → Prop
  | .reservation o k, held, want =>
    want.2 = .noKeyUpdate ∧ (OfReservation o k want.1 ∨ want.1 = .offer o) ∧ Ahead level held want
  | .newReservation o, held, want =>
    (want.1 = .offer o ∨ ∃ c, want.1 = .code c) ∧ Ahead level held want
  | .offer o, held, want =>
    want.2 = .noKeyUpdate ∧
      (want.1 = .offer o ∧ (held = [] ∨ (.offer o, .noKeyUpdate) ∈ held) ∨
        (.offer o, .noKeyUpdate) ∈ held ∧
          ∃ k, OfReservation o k want.1 ∧ ∀ h ∈ held, h.1 ≠ .reservation o k)

/-- The rows that a transaction about the subject holds. -/
def Holding : Subject → List (Row × LockMode) → Prop
  | .reservation o k, held => ∀ h ∈ held, OfReservation o k h.1 ∨ h.1 = .offer o
  | .newReservation o, held => ∀ h ∈ held, h.1 = .offer o ∨ ∃ c, h.1 = .code c
  | .offer o, held =>
    ∀ h ∈ held, h.1 = .offer o ∨ (.offer o, .noKeyUpdate) ∈ held ∧ ∃ k, OfReservation o k h.1

theorem holding_nil (subject : Subject) : Holding subject [] := by
  cases subject <;> exact fun _ h => absurd h List.not_mem_nil

theorem Holding.cons {subject : Subject} {held : List (Row × LockMode)} {want : Row × LockMode}
    (h : Holding subject held) (hrule : Rule subject held want) :
    Holding subject (want :: held) := by
  cases subject with
  | reservation o k =>
    intro l hl
    rcases List.mem_cons.mp hl with heq | hl
    · rw [heq]
      exact hrule.2.1
    · exact h l hl
  | newReservation o =>
    intro l hl
    rcases List.mem_cons.mp hl with heq | hl
    · rw [heq]
      exact hrule.1
    · exact h l hl
  | offer o =>
    intro l hl
    rcases List.mem_cons.mp hl with heq | hl
    · rw [heq]
      rcases hrule.2 with ⟨hoffer, _⟩ | ⟨hheld, k, hrow, _⟩
      · exact .inl hoffer
      · exact .inr ⟨List.mem_cons_of_mem _ hheld, k, hrow⟩
    · rcases h l hl with hoffer | ⟨hheld, hrow⟩
      · exact .inl hoffer
      · exact .inr ⟨List.mem_cons_of_mem _ hheld, hrow⟩

/-- What is left of the transaction keeps to the rule of its subject. -/
def Lawful (x : Transaction Market Row) : Prop :=
  ∃ subject, Holding subject x.held ∧ Obeys (Rule subject) x.program x.held

/-- The transaction has still to read what it is about. -/
def Reading (x : Transaction Market Row) : Prop :=
  x.held = [] ∧ ∃ next, x.program = .select next ∧ ∀ m, ∃ subject, Obeys (Rule subject) (next m) []

theorem lawful_ended : Lawful Transaction.ended :=
  ⟨.newReservation 0, holding_nil _, trivial⟩

variable {x : Transaction Market Row}

theorem Lawful.issue (h : Lawful x) (m : Market) : Lawful (x.issue m) := by
  obtain ⟨subject, hholding, hobeys⟩ := h
  refine ⟨subject, ?_, hobeys.issue⟩
  rcases Transaction.held_issue_cases m x with hheld | hheld
  · rw [hheld]
    exact hholding
  · rw [hheld]
    exact holding_nil subject

theorem Lawful.grant {want : Row × LockMode} (h : Lawful x) (hwanted : x.wanted = some want)
    (m : Market) : Lawful (x.grant m) := by
  obtain ⟨subject, hholding, hobeys⟩ := h
  refine ⟨subject, ?_, hobeys.grant⟩
  rw [Transaction.held_grant hwanted]
  exact hholding.cons (hobeys.wanted hwanted)

theorem Reading.issue (h : Reading x) (m : Market) : Lawful (x.issue m) := by
  obtain ⟨hheld, next, hprogram, hnext⟩ := h
  obtain ⟨subject, hobeys⟩ := hnext (x.effect m)
  rw [Transaction.issue_select hprogram]
  refine ⟨subject, ?_, ?_⟩
  · change Holding subject x.held
    rw [hheld]
    exact holding_nil subject
  · change Obeys (Rule subject) (next (x.effect m)) x.held
    rw [hheld]
    exact hobeys

theorem Reading.wanted (h : Reading x) : x.wanted = none := by
  obtain ⟨_, _, hprogram, _⟩ := h
  exact Transaction.wanted_select hprogram

end Rules

section Programs

variable {R : List (Row × LockMode) → Row × LockMode → Prop} {held : List (Row × LockMode)}
  {o : OfferId} {k : ReservationId}

/-- A guarded update obeys when its row does and both ways on do. -/
theorem obeys_attempt {row : Row} {change : Market → Option Market} {next : Bool → Tx}
    (hrow : R held (row, .noKeyUpdate)) (hmissed : Obeys R (next false) held)
    (hnext : ∀ matched, Obeys R (next matched) ((row, .noKeyUpdate) :: held)) :
    Obeys R (attempt row change next) held := ⟨hrow, hmissed, hnext⟩

theorem obeys_ite {p : Prop} [Decidable p] {a b : Tx} (ha : Obeys R a held) (hb : Obeys R b held) :
    Obeys R (if p then a else b) held := by
  split_ifs
  · exact ha
  · exact hb

/-- No row but the payment and the reservation is held. -/
def Below (o : OfferId) (k : ReservationId) (held : List (Row × LockMode)) : Prop :=
  ∀ h ∈ held, h = (.payment o k, .noKeyUpdate) ∨ h = (.reservation o k, .noKeyUpdate)

theorem below_nil : Below o k [] := fun _ h => absurd h List.not_mem_nil

theorem below_payment : Below o k [(.payment o k, .noKeyUpdate)] :=
  fun _ h => .inl (List.mem_singleton.mp h)

theorem Below.reservation (h : Below o k held) :
    Below o k ((.reservation o k, .noKeyUpdate) :: held) := by
  intro l hl
  rcases List.mem_cons.mp hl with heq | hl
  · exact .inr heq
  · exact h l hl

theorem rule_payment : Rule (.reservation o k) [] (.payment o k, .noKeyUpdate) :=
  ⟨rfl, .inl (.inl rfl), .inr fun _ h => absurd h List.not_mem_nil⟩

theorem rule_reservation (h : Below o k held) :
    Rule (.reservation o k) held (.reservation o k, .noKeyUpdate) := by
  refine ⟨rfl, .inl (.inr rfl), ?_⟩
  by_cases hmem : ((.reservation o k, .noKeyUpdate) : Row × LockMode) ∈ held
  · exact .inl ⟨_, hmem, rfl, LockMode.covers_self _⟩
  · refine .inr ?_
    intro l hl
    rcases h l hl with heq | heq
    · rw [heq]
      change 0 < 1
      omega
    · exact absurd (heq ▸ hl) hmem

theorem rule_offer (h : Below o k held) :
    Rule (.reservation o k) held (.offer o, .noKeyUpdate) := by
  refine ⟨rfl, .inr rfl, .inr ?_⟩
  intro l hl
  rcases h l hl with heq | heq
  · rw [heq]
    change 0 < 2
    omega
  · rw [heq]
    change 1 < 2
    omega

theorem obeys_releaseOffer (h : Below o k held) (qty : ℤ) :
    Obeys (Rule (.reservation o k)) (releaseOffer o qty .commit) held :=
  obeys_attempt (rule_offer h) trivial fun _ => trivial

/-- The reservation ends, and then the offer gets its stock back. -/
theorem obeys_expire (h : Below o k held) (qty : ℤ) :
    Obeys (Rule (.reservation o k))
      (expireReservation o k fun expired =>
        if expired then releaseOffer o qty .commit else .commit) held := by
  refine obeys_attempt (rule_reservation h) trivial ?_
  intro matched
  cases matched with
  | false => trivial
  | true => exact obeys_releaseOffer h.reservation qty

theorem obeys_compensateFailedIntent (committed : CommittedReservation) :
    Obeys (Rule (.reservation committed.offerId committed.reservationId))
      (compensateFailedIntent committed) [] := by
  refine obeys_attempt rule_payment trivial ?_
  intro matched
  cases matched with
  | false => trivial
  | true => exact obeys_expire below_payment committed.qty

theorem obeys_expireAndRelease (r : Reservation) :
    Obeys (Rule (.reservation r.offerId r.id)) (expireAndRelease r) [] := by
  refine obeys_attempt rule_payment trivial ?_
  intro matched
  cases matched with
  | false => trivial
  | true => exact obeys_expire below_payment r.qty

theorem obeys_settleSuccess (r : Reservation) (offer : Offer) (clock : Instant) :
    Obeys (Rule (.reservation r.offerId r.id)) (settleSuccess r offer clock) [] := by
  refine obeys_attempt rule_payment (fun _ => trivial) ?_
  intro matched
  cases matched with
  | false => exact fun _ => trivial
  | true =>
    refine obeys_attempt (rule_reservation below_payment) trivial ?_
    intro confirmed
    cases confirmed with
    | false => trivial
    | true => trivial

/-- The loop tries one row, however often. -/
theorem obeys_cancelFromFirst (r : Reservation) (now : Instant) (statuses : List ReservationStatus)
    (h : Below r.offerId r.id held) :
    Obeys (Rule (.reservation r.offerId r.id)) (cancelFromFirst r now statuses) held := by
  induction statuses generalizing held with
  | nil => trivial
  | cons fromStatus rest ih =>
    refine obeys_attempt (rule_reservation h) (ih h) ?_
    intro matched
    cases matched with
    | false => exact ih h.reservation
    | true => exact obeys_releaseOffer h.reservation r.qty

theorem reads_cancel (userId : UserId) (reservationId : ReservationId) (now : Instant) :
    Reading (.begin (cancel userId reservationId now)) := by
  refine ⟨rfl, _, rfl, ?_⟩
  intro m
  split
  · exact ⟨.newReservation 0, trivial⟩
  · rename_i r _
    split_ifs with howner
    · exact ⟨.newReservation 0, trivial⟩
    · split
      · exact ⟨.newReservation 0, trivial⟩
      · refine ⟨.reservation r.offerId r.id, obeys_attempt rule_payment ?_ ?_⟩
        · exact obeys_cancelFromFirst r now _ below_nil
        · exact fun _ => obeys_cancelFromFirst r now _ below_payment

theorem reads_settle (event : ProviderEvent) (clock : Instant) :
    Reading (.begin (settle event clock)) := by
  refine ⟨rfl, _, rfl, ?_⟩
  intro m
  split
  · exact ⟨.newReservation 0, trivial⟩
  · rename_i payment r offer _
    refine ⟨.reservation r.offerId r.id, ?_⟩
    split
    · split_ifs with hamount
      · exact obeys_settleSuccess r offer clock
      · exact obeys_expireAndRelease r
    · exact obeys_expireAndRelease r

theorem reads_redeem (redeemer : Redeemer) (reservationId : ReservationId)
    (now attemptedAt : Instant) :
    Reading (.begin (redeem redeemer reservationId now attemptedAt)) := by
  refine ⟨rfl, _, rfl, ?_⟩
  intro m
  split
  · exact ⟨.newReservation 0, trivial⟩
  · exact ⟨.newReservation 0, trivial⟩
  · rename_i read _
    refine ⟨.reservation read.reservation.offerId read.reservation.id,
      obeys_attempt (rule_reservation below_nil) (fun _ => trivial) ?_⟩
    intro matched
    cases matched with
    | false => exact fun _ => trivial
    | true =>
      refine obeys_attempt (rule_offer below_nil.reservation) trivial ?_
      intro counted
      cases counted with
      | false => trivial
      | true => trivial

theorem reads_sweepNoShow (reservationId : ReservationId) :
    Reading (.begin (sweepNoShow reservationId)) := by
  refine ⟨rfl, _, rfl, ?_⟩
  intro m
  split
  · exact ⟨.newReservation 0, trivial⟩
  · rename_i r _
    exact ⟨.reservation r.offerId r.id,
      obeys_attempt (rule_reservation below_nil) trivial fun _ => trivial⟩

/-- The offer comes before the code, and nothing after it. -/
theorem reads_createReservation (call : CreateCall) (code : Code) :
    Reading (.begin (createReservation call code)) := by
  refine ⟨rfl, _, rfl, ?_⟩
  intro m
  refine ⟨.newReservation call.offerId, ?_⟩
  split
  · trivial
  · refine obeys_attempt ⟨.inl rfl, .inr fun _ h => absurd h List.not_mem_nil⟩ trivial ?_
    intro claimed
    cases claimed with
    | false => trivial
    | true =>
      refine ⟨⟨.inr ⟨code, rfl⟩, .inr ?_⟩, ?_⟩
      · intro h hh
        rw [List.mem_singleton.mp hh]
        change 2 < 3
        omega
      · intro m
        dsimp only
        split_ifs with htaken
        · trivial
        · trivial

end Programs

section Cancellation

variable {o : OfferId}

/-- The offer is held, and no reservation of the candidates that are left. -/
structure Ready (o : OfferId) (candidates : List Candidate) (held : List (Row × LockMode)) :
    Prop where
  offer : (.offer o, .noKeyUpdate) ∈ held
  distinct : (candidates.map fun c => c.1.id).Nodup
  fresh : ∀ c ∈ candidates, ∀ h ∈ held, h.1 ≠ .reservation o c.1.id

variable {candidate : Candidate} {rest : List Candidate} {held : List (Row × LockMode)}

theorem Ready.rule {row : Row} (h : Ready o (candidate :: rest) held)
    (hrow : OfReservation o candidate.1.id row) :
    Rule (.offer o) held (row, .noKeyUpdate) :=
  ⟨rfl, .inr ⟨h.offer, candidate.1.id, hrow, h.fresh candidate List.mem_cons_self⟩⟩

theorem Ready.tail (h : Ready o (candidate :: rest) held) : Ready o rest held where
  offer := h.offer
  distinct := (List.nodup_cons.mp h.distinct).2
  fresh := fun c hc => h.fresh c (List.mem_cons_of_mem _ hc)

/-- A lock on anything but a reservation that is left changes nothing. -/
theorem Ready.cons {candidates : List Candidate} {lock : Row × LockMode}
    (h : Ready o candidates held) (hlock : ∀ c ∈ candidates, lock.1 ≠ .reservation o c.1.id) :
    Ready o candidates (lock :: held) := by
  refine ⟨List.mem_cons_of_mem _ h.offer, h.distinct, ?_⟩
  intro c hc l hl
  rcases List.mem_cons.mp hl with heq | hl
  · rw [heq]
    exact hlock c hc
  · exact h.fresh c hc l hl

theorem Ready.reservation (h : Ready o (candidate :: rest) held) :
    Ready o rest ((.reservation o candidate.1.id, .noKeyUpdate) :: held) := by
  refine h.tail.cons ?_
  intro c hc heq
  have hid : candidate.1.id = c.1.id := (Row.reservation.inj heq).2
  exact (List.nodup_cons.mp h.distinct).1 (List.mem_map.mpr ⟨c, hc, hid.symm⟩)

theorem obeys_moveCandidate {change : Market → Option Market} {moved missed : Tx}
    (h : Ready o (candidate :: rest) held)
    (hmoved : ∀ held, Ready o rest held → Obeys (Rule (.offer o)) moved held)
    (hmissed : ∀ held, Ready o rest held → Obeys (Rule (.offer o)) missed held) :
    Obeys (Rule (.offer o)) (moveCandidate o candidate.1 change moved missed) held := by
  refine obeys_attempt (h.rule (.inr rfl)) (hmissed held h.tail) ?_
  intro updated
  cases updated with
  | false => exact hmissed _ h.reservation
  | true =>
    refine obeys_attempt ⟨rfl, .inl ⟨rfl, .inr h.reservation.offer⟩⟩ (hmoved _ h.reservation) ?_
    intro _
    exact hmoved _ (h.reservation.cons fun _ _ heq => Row.noConfusion heq)

theorem obeys_cancelAllForOffer {done : ℕ → List RefundItem → Tx} (candidates : List Candidate)
    (hdone : ∀ n items held, Obeys (Rule (.offer o)) (done n items) held) (n : ℕ)
    (items : List RefundItem) (h : Ready o candidates held) :
    Obeys (Rule (.offer o)) (cancelAllForOffer o done candidates n items) held := by
  induction candidates generalizing held n items with
  | nil => exact hdone n items held
  | cons candidate rest ih =>
    obtain ⟨r, payment⟩ := candidate
    cases payment with
    | none => exact ih n items h.tail
    | some payment =>
      refine obeys_attempt (h.rule (.inl rfl)) ?_ fun _ => ?_
      · exact obeys_ite (obeys_moveCandidate h (fun _ => ih _ _) fun _ => ih _ _)
          (obeys_moveCandidate h (fun _ => ih _ _) fun _ => ih _ _)
      · have hpayment : Ready o ((r, some payment) :: rest)
            ((.payment o r.id, .noKeyUpdate) :: held) := h.cons fun _ _ heq => Row.noConfusion heq
        exact obeys_ite (obeys_moveCandidate hpayment (fun _ => ih _ _) fun _ => ih _ _)
          (obeys_moveCandidate hpayment (fun _ => ih _ _) fun _ => ih _ _)

theorem ready_candidatesOf (m : Market) :
    Ready o (candidatesOf m o) [(.offer o, .noKeyUpdate)] := by
  refine ⟨List.mem_singleton_self _, ?_, ?_⟩
  · have hnodup := (m.reservations.rows.filter_sublist
      (p := fun r => r.offerId = o ∧ liveReservation r.status)).map Reservation.id
    rw [candidatesOf, List.map_map]
    exact hnodup.nodup m.reservations.keys_nodup
  · intro c _ l hl heq
    rw [List.mem_singleton.mp hl] at heq
    exact Row.noConfusion heq

theorem obeys_publishCancelled (offer : Offer) (reason : OfferCancelReason)
    (auditActorId : Option AdminId) (n : ℕ) (items : List RefundItem) :
    Obeys (Rule (.offer o)) (publishCancelled offer reason auditActorId n items) held := by
  cases auditActorId with
  | none => trivial
  | some actorId => trivial

theorem reads_cancelOne (offerId : OfferId) (reason : OfferCancelReason)
    (auditActorId : Option AdminId) : Reading (.begin (cancelOne offerId reason auditActorId)) := by
  refine ⟨rfl, _, rfl, ?_⟩
  intro m
  refine ⟨.offer offerId, ?_⟩
  split
  · trivial
  · rename_i offer _
    refine obeys_attempt ⟨rfl, .inl ⟨rfl, .inl rfl⟩⟩ trivial ?_
    intro cancelled
    cases cancelled with
    | false => trivial
    | true =>
      intro m
      exact obeys_cancelAllForOffer _ (fun n items _ => obeys_publishCancelled offer reason _ n items)
        0 [] (ready_candidatesOf m)

end Cancellation

section Stages

/-- Every transaction under way is of one of these kinds. -/
def Staged (x : Transaction Market Row) : Prop := Reading x ∨ Lawful x

theorem staged_begin (request : Request) : Staged (.begin (program request)) := by
  cases request with
  | createReservation call code => exact .inl (reads_createReservation call code)
  | compensateFailedIntent committed =>
    exact .inr ⟨_, holding_nil _, obeys_compensateFailedIntent committed⟩
  | cancel userId reservationId now => exact .inl (reads_cancel userId reservationId now)
  | settle event clock => exact .inl (reads_settle event clock)
  | redeem redeemer reservationId now attemptedAt =>
    exact .inl (reads_redeem redeemer reservationId now attemptedAt)
  | sweepNoShow reservationId => exact .inl (reads_sweepNoShow reservationId)
  | cancelOne offerId reason auditActorId => exact .inl (reads_cancelOne offerId reason auditActorId)

theorem keeps : Keeps program (fun _ _ => True) (fun _ => True) fun _ => Staged where
  started := fun _ request _ => staged_begin request
  ended := fun _ => .inr lawful_ended
  issued := fun m x _ h _ _ => by
    rcases h with hreading | hlawful
    · exact .inr (hreading.issue m)
    · exact .inr (hlawful.issue m)
  granted := fun m x want _ h hwanted _ => by
    rcases h with hreading | hlawful
    · exact absurd hwanted (by rw [hreading.wanted]; exact nofun)
    · exact .inr (hlawful.grant hwanted m)
  committed := fun _ _ _ _ _ => trivial
  others := fun _ _ _ _ _ h _ _ => h

variable {w : World Market Row} {ok : World Market Row → Action Request → Prop}

theorem staged_of_reachable (h : Reachable (step program) ok World.Quiet w) (t : ℕ) :
    Staged (w.transaction t) := by
  have hmeets : Reachable (step program) (GrantsMeet fun _ _ => True) World.Quiet w := by
    refine h.mono ?_
    intro _ a _
    cases a <;> trivial
  exact (keeps.holds (fun _ hw => ⟨hw, trivial⟩) hmeets).2 t

/-- What waits keeps to the rule of its subject. -/
theorem lawful_of_wanted {x : Transaction Market Row} {want : Row × LockMode} (h : Staged x)
    (hwanted : x.wanted = some want) :
    ∃ subject, Holding subject x.held ∧ Rule subject x.held want := by
  rcases h with hreading | ⟨subject, hholding, hobeys⟩
  · rw [hreading.wanted] at hwanted
    cases hwanted
  · exact ⟨subject, hholding, hobeys.wanted hwanted⟩

end Stages

section Circles

/-- The first transaction holds an offer and wants a row of one of its
reservations, of which the second one holds a row while it wants the offer. -/
def Crossing (held : List (Row × LockMode)) (want : Row × LockMode)
    (held' : List (Row × LockMode)) (want' : Row × LockMode) : Prop :=
  ∃ o k, (.offer o, .noKeyUpdate) ∈ held ∧ OfReservation o k want.1 ∧
    (∃ h ∈ held', OfReservation o k h.1) ∧ want'.1 = .offer o

variable {w : World Market Row}

/-- Only the cancellation of an offer wants a row out of order: one of its
reservations, when it holds the offer. -/
theorem exists_offer_of_not_climbs {x : Transaction Market Row} (h : Staged x)
    (hclimbs : ¬ Climbs level x) :
    ∃ want o k, x.wanted = some want ∧ (.offer o, .noKeyUpdate) ∈ x.held ∧
      OfReservation o k want.1 ∧ ∀ l ∈ x.held, l.1 ≠ .reservation o k := by
  unfold Climbs at hclimbs
  push Not at hclimbs
  obtain ⟨want, hwanted, hnot⟩ := hclimbs
  obtain ⟨subject, _, hrule⟩ := lawful_of_wanted h hwanted
  cases subject with
  | reservation o k => exact absurd hrule.2.2 hnot
  | newReservation o => exact absurd hrule.2 hnot
  | offer o =>
    rcases hrule.2 with ⟨hoffer, hheld⟩ | ⟨hheld, k, hrow, hfresh⟩
    · refine absurd ?_ hnot
      rcases hheld with hempty | hheld
      · rw [hempty]
        exact .inr fun _ hl => absurd hl List.not_mem_nil
      · refine .inl ⟨_, hheld, hoffer.symm, ?_⟩
        rw [hrule.1]
        exact LockMode.covers_self _
    · exact ⟨want, o, k, hwanted, hheld, hrow, hfresh⟩

/-- Somebody who holds a row of a reservation but not its offer, and waits,
goes on to the reservation or to the offer. -/
theorem wants_offer_of_holds {u v : ℕ} {o : OfferId} {k : ReservationId}
    {lock want : Row × LockMode} (hex : Exclusive w) (h : Staged (w.transaction u))
    (hnot : ¬ Transaction.Owns (w.transaction u).held (.offer o))
    (hlock : lock ∈ (w.transaction u).held) (hrow : OfReservation o k lock.1)
    (huv : WaitsFor w u v) (hwanted : (w.transaction u).wanted = some want) :
    want.1 = .offer o ∨
      want.1 = .reservation o k ∧ lock.1 = .payment o k := by
  obtain ⟨subject, hholding, hrule⟩ := lawful_of_wanted h hwanted
  cases subject with
  | reservation o' k' =>
    have hsame : o' = o ∧ k' = k := by
      rcases hholding lock hlock with (hl | hl) | hl <;> rcases hrow with hr | hr <;>
        rw [hl] at hr <;> cases hr <;> exact ⟨rfl, rfl⟩
    obtain ⟨rfl, rfl⟩ := hsame
    have hlevel := huv.level_lt hex hwanted hrule.2.2 lock hlock
    rcases hrule.2.1 with (hwant | hwant) | hwant
    · rw [hwant] at hlevel
      exact absurd hlevel (Nat.not_lt_zero _)
    · refine .inr ⟨hwant, ?_⟩
      rcases hrow with hr | hr
      · exact hr
      · rw [hwant, hr] at hlevel
        exact absurd hlevel (lt_irrefl _)
    · exact .inl hwant
  | newReservation o' =>
    rcases hholding lock hlock with hl | ⟨c, hl⟩ <;> rcases hrow with hr | hr <;>
      rw [hl] at hr <;> cases hr
  | offer o' =>
    refine absurd ?_ hnot
    rcases hholding lock hlock with hl | ⟨hoffer, k', hl⟩
    · rcases hrow with hr | hr <;> rw [hl] at hr <;> cases hr
    · have hsame : o' = o := by
        rcases hl with hl | hl <;> rcases hrow with hr | hr <;> rw [hl] at hr <;> cases hr <;> rfl
      rw [hsame] at hoffer
      exact ⟨_, hoffer, nofun⟩

/-- In every circle of waits two transactions cross. -/
theorem crossed_of_deadlocked (hex : Exclusive w) (hstaged : ∀ t, Staged (w.transaction t))
    (h : Deadlocked w) : Clashing Crossing w := by
  obtain ⟨t, hcycle, hclimbs⟩ := exists_not_climbs level hex h
  obtain ⟨want, o, k, hwanted, hoffer, hrow, hfresh⟩ :=
    exists_offer_of_not_climbs (hstaged t) hclimbs
  have howns : ∀ u, t ≠ u → ¬ Transaction.Owns (w.transaction u).held (.offer o) :=
    fun u hu => (hex.apart t u hu).not_owns ⟨_, hoffer, nofun⟩
  have hwants : ∀ a b, WaitsFor w a b → ∃ want', (w.transaction a).wanted = some want' :=
    fun a b hab => ⟨hab.2.choose, hab.2.choose_spec.1⟩
  obtain ⟨u, htu, hut⟩ := waits_of_cycle .refl hcycle
  obtain ⟨htne, want₁, hwanted₁, lock, hlock, hsame, _⟩ := id htu
  rw [hwanted] at hwanted₁
  cases hwanted₁
  rw [← hsame] at hrow
  obtain ⟨v, huv, hvt⟩ := waits_of_cycle hut hcycle
  obtain ⟨want', hwanted'⟩ := hwants u v huv
  have hrow' : OfReservation o k want.1 := hsame ▸ hrow
  rcases wants_offer_of_holds hex (hstaged u) (howns u htne) hlock hrow huv hwanted' with
    hwant' | ⟨hwant', _⟩
  · exact ⟨t, u, want, want', htne, hwanted, hwanted', o, k, hoffer, hrow',
      ⟨lock, hlock, hrow⟩, hwant'⟩
  -- The holder of the payment waits behind the holder of the reservation.
  · obtain ⟨_, want₂, hwanted₂, lock', hlock', hsame', _⟩ := id huv
    rw [hwanted'] at hwanted₂
    cases hwanted₂
    have hreservation : lock'.1 = .reservation o k := hsame'.trans hwant'
    have htv : t ≠ v := by
      intro heq
      rw [heq] at hfresh
      exact hfresh lock' hlock' hreservation
    obtain ⟨x, hvx, _⟩ := waits_of_cycle hvt hcycle
    obtain ⟨want'', hwanted''⟩ := hwants v x hvx
    rcases wants_offer_of_holds hex (hstaged v) (howns v htv) hlock' (.inr hreservation) hvx
        hwanted'' with hwant'' | ⟨_, hpayment⟩
    · exact ⟨t, v, want, want'', htv, hwanted, hwanted'', o, k, hoffer, hrow',
        ⟨lock', hlock', .inr hreservation⟩, hwant''⟩
    · rw [hreservation] at hpayment
      cases hpayment

/-- A deadlock is always a crossing, and runs that keep the cancellation of an
offer from crossing a transaction on one of its reservations reach none. -/
theorem deadlocks_are_crossings (w : World Market Row) :
    (Reachable (step program) anyStep World.Quiet w → Deadlocked w → Clashing Crossing w) ∧
      (Reachable (step program) (Avoids Crossing) World.Quiet w → ¬ Deadlocked w) := by
  have hcircles : ∀ ok, Reachable (step program) ok World.Quiet w → Deadlocked w →
      Clashing Crossing w := by
    intro ok h hdead
    exact crossed_of_deadlocked (exclusive_of_reachable (fun _ hw => hw) h)
      (staged_of_reachable h) hdead
  refine ⟨hcircles _, ?_⟩
  intro h hdead
  exact not_clashing_of_reachable h (hcircles _ h hdead)

end Circles

section Samples

/-- An offer with one reservation that is not paid yet. -/
def reserved : World Market Row where
  committed :=
    { merchants := .empty
      stores := .empty
      bagTemplates := .empty
      offers := Table.empty.insertNew
        { id := 1
          bagTemplateId := 1
          storeId := 1
          offerDate := 0
          qtyTotal := 3
          qtyReserved := 1
          pickupStartAt := 10*hourMs
          pickupEndAt := 20*hourMs
          status := .published }
      reservations := Table.empty.insertNew
        { id := 1
          code := 1
          userId := 7
          offerId := 1
          storeId := 1
          qty := 1
          unitPriceCents := 5000
          totalCents := 5000
          cancelDeadlineAt := 8*hourMs
          createdAt := 0 }
      payments := Table.empty.insertNew
        { reservationId := 1
          merchantOid := 1
          amountCents := 5000
          createdAt := 0 }
      refunds := []
      webhookEvents := []
      outbox := []
      auditLog := [] }
  started := 0
  transaction := fun _ => Transaction.ended

/-- The merchant cancels the offer while its customer cancels the reservation. -/
def bothCancel : List (Action Request) :=
  [.start (.cancelOne 1 .merchantCancel none), .start (.cancel 7 1 0),
    .issue 0, .issue 0, .grant 0, .issue 0,
    .issue 1, .issue 1, .grant 1, .issue 1, .grant 1, .issue 1, .issue 0]

def stuckWorld : World Market Row := after (step program) reserved bothCancel

theorem deadlocks_are_crossings_counterexample :
    Reachable (step program) anyStep World.Quiet stuckWorld ∧ Deadlocked stuckWorld := by
  have hreach : Reachable (step program) anyStep World.Quiet stuckWorld :=
    reachable_after (.start ⟨rfl, fun _ => rfl⟩) (by decide +kernel)
  have hmerchant : (stuckWorld.transaction 0).wanted = some (.payment 1 1, .noKeyUpdate) := by
    decide +kernel
  have hcustomer : (stuckWorld.transaction 1).wanted = some (.offer 1, .noKeyUpdate) := by
    decide +kernel
  have hoffer : (.offer 1, .noKeyUpdate) ∈ (stuckWorld.transaction 0).held := by decide +kernel
  have hpayment : (.payment 1 1, .noKeyUpdate) ∈ (stuckWorld.transaction 1).held := by
    decide +kernel
  have hfirst : WaitsFor stuckWorld 0 1 :=
    ⟨by decide, _, hmerchant, _, hpayment, rfl, rfl⟩
  have hsecond : WaitsFor stuckWorld 1 0 :=
    ⟨by decide, _, hcustomer, _, hoffer, rfl, rfl⟩
  exact ⟨hreach, 0, .head hfirst (.single hsecond)⟩

/-- The reservation that a row belongs to. -/
def reservationOf : Row → Option (OfferId × ReservationId)
  | .payment o k => some (o, k)
  | .reservation o k => some (o, k)
  | .offer _ => none
  | .code _ => none

theorem reservationOf_eq_some {o : OfferId} {k : ReservationId} {row : Row} :
    reservationOf row = some (o, k) ↔ OfReservation o k row := by
  cases row <;> simp [reservationOf, OfReservation]

instance (held : List (Row × LockMode)) (want : Row × LockMode) (held' : List (Row × LockMode))
    (want' : Row × LockMode) : Decidable (Crossing held want held' want') :=
  decidable_of_iff
    (∃ l ∈ held', reservationOf l.1 = reservationOf want.1 ∧
      ∃ s ∈ reservationOf want.1, (.offer s.1, .noKeyUpdate) ∈ held ∧ want'.1 = .offer s.1) (by
    constructor
    · rintro ⟨l, hl, hsame, ⟨o, k⟩, hs, hoffer, hwant'⟩
      exact ⟨o, k, hoffer, reservationOf_eq_some.mp hs,
        ⟨l, hl, reservationOf_eq_some.mp (hsame.trans hs)⟩, hwant'⟩
    · rintro ⟨o, k, hoffer, hrow, ⟨l, hl, hrow'⟩, hwant'⟩
      have hwant := reservationOf_eq_some.mpr hrow
      exact ⟨l, hl, (reservationOf_eq_some.mpr hrow').trans hwant.symm, (o, k), hwant, hoffer,
        hwant'⟩)

/-- The provider reports the payment while its customer cancels, and the
merchant waits for the offer that the customer gives back. -/
def customerFirst : List (Action Request) :=
  [.start (.cancel 7 1 0), .start (.settle ⟨1, .success, 5000, 1⟩ 0),
    .start (.cancelOne 1 .merchantCancel none), .issue 0, .issue 0, .grant 0, .issue 1, .issue 1,
    .issue 0, .grant 0, .issue 0, .grant 0, .issue 2, .issue 2]

def waitingWorld : World Market Row := after (step program) reserved customerFirst

/-- Two transactions wait for the customer's, which waits for nobody. -/
theorem deadlocks_are_crossings_sample :
    (waitingWorld.transaction 1).wanted = some (.payment 1 1, .noKeyUpdate) ∧
      (waitingWorld.transaction 2).wanted = some (.offer 1, .noKeyUpdate) ∧
      ¬ Deadlocked waitingWorld := by
  have hreach : Reachable (step program) (Avoids Crossing) World.Quiet waitingWorld :=
    reachable_after_guarded (.start ⟨rfl, fun _ => rfl⟩) (by decide +kernel) (by decide +kernel)
  have hdead := (deadlocks_are_crossings waitingWorld).2 hreach
  exact ⟨by decide +kernel, by decide +kernel, hdead⟩

end Samples

end Kurtar.ReservationDeadlocks

import Kurtar.PickupReminders

/-!
# Reminders are sent once

A reservation is claimed before its customer is notified, so however many
sweeps run, at most one reminder goes out for it. None is lost but the one that
a sweep had claimed and not handed on when it stopped.
-/

namespace Kurtar.ClaimedReminders

open KeyedTable GuardedRuns IstanbulCalendar PushBatches StatusTransitions Timelines PickupReminders
open PushDispatch hiding step World Action Initial
open DispatchedPushes hiding Stepped stepped_of_step

section Bookings

variable {b b' b'' : Db} {r r' : Reservation} {offer : DailyOffer} {id : String}

def claimed (b : Db) (id : String) : Bool :=
  (b.reservations.find? id).any (·.pickupReminderSentAt.isSome)

/-- One booking at two moments. -/
structure SameBooking (r r' : Reservation) : Prop where
  id : r.id = r'.id
  code : r.code = r'.code
  userId : r.userId = r'.userId
  offerId : r.offerId = r'.offerId
  storeId : r.storeId = r'.storeId

/-- Bookings and offers stay what they are, and claims are not taken back. -/
structure Later (b b' : Db) : Prop where
  offer : ∀ o ∈ b.offers.rows, o ∈ b'.offers.rows
  booking : ∀ r ∈ b.reservations.rows, ∃ r' ∈ b'.reservations.rows, SameBooking r r' ∧
    (r.pickupReminderSentAt.isSome → r'.pickupReminderSentAt.isSome)

theorem SameBooking.refl (r : Reservation) : SameBooking r r := ⟨rfl, rfl, rfl, rfl, rfl⟩

theorem SameBooking.trans {r'' : Reservation} (h : SameBooking r r') (h' : SameBooking r' r'') :
    SameBooking r r'' :=
  ⟨h.id.trans h'.id, h.code.trans h'.code, h.userId.trans h'.userId, h.offerId.trans h'.offerId,
    h.storeId.trans h'.storeId⟩

theorem SameBooking.select_eq (h : SameBooking r r') (offer : DailyOffer) :
    r.select offer = r'.select offer := by
  rw [Reservation.select, Reservation.select, h.id, h.userId, h.storeId, h.code]

theorem Later.refl (b : Db) : Later b b := ⟨fun _ ho => ho, fun r hr => ⟨r, hr, .refl r, id⟩⟩

theorem Later.trans (h : Later b b') (h' : Later b' b'') : Later b b'' := by
  refine ⟨fun o ho => h'.offer o (h.offer o ho), fun r hr => ?_⟩
  obtain ⟨r', hr', hsame, hkept⟩ := h.booking r hr
  obtain ⟨r'', hr'', hsame', hkept'⟩ := h'.booking r' hr'
  exact ⟨r'', hr'', hsame.trans hsame', fun hclaimed => hkept' (hkept hclaimed)⟩

theorem claimed_iff : claimed b id = true ↔
    ∃ r ∈ b.reservations.rows, r.id = id ∧ r.pickupReminderSentAt.isSome := by
  unfold claimed
  rw [Option.any_eq_true]
  constructor
  · rintro ⟨r, hfind, hsent⟩
    obtain ⟨hr, hid⟩ := Table.find?_eq_some.mp hfind
    exact ⟨r, hr, hid, hsent⟩
  · rintro ⟨r, hr, hid, hsent⟩
    exact ⟨r, Table.find?_eq_some.mpr ⟨hr, hid⟩, hsent⟩

theorem Later.claimed (h : Later b b') (hclaimed : claimed b id = true) : claimed b' id = true := by
  obtain ⟨r, hr, hid, hsent⟩ := claimed_iff.mp hclaimed
  obtain ⟨r', hr', hsame, hkept⟩ := h.booking r hr
  exact claimed_iff.mpr ⟨r', hr', hsame.id.symm.trans hid, hkept hsent⟩

/-- A row of the query is that of a stored booking and its offer. -/
theorem mem_dueRows {now windowMs : Instant} {row : Due} :
    row ∈ dueRows b now windowMs ↔ ∃ r ∈ b.reservations.rows, ∃ offer ∈ b.offers.rows,
      offer.id = r.offerId ∧ isDue now windowMs r offer = true ∧ r.select offer = row := by
  unfold dueRows
  rw [List.mem_filterMap]
  constructor
  · rintro ⟨r, hr, hrow⟩
    cases hfind : b.offers.find? r.offerId with
    | none => simp [hfind] at hrow
    | some offer =>
      obtain ⟨hoffer, hid⟩ := Table.find?_eq_some.mp hfind
      simp only [hfind, Option.ite_none_right_eq_some, Option.some.injEq] at hrow
      exact ⟨r, hr, offer, hoffer, hid, hrow⟩
  · rintro ⟨r, hr, offer, hoffer, hid, hdue, hrow⟩
    refine ⟨r, hr, ?_⟩
    rw [Table.find?_eq_some.mpr ⟨hoffer, hid⟩]
    simp only [hdue, if_true, hrow]

/-- A booking that cannot be claimed has been. -/
theorem claimed_of_not_claimable (hr : r ∈ b.reservations.rows)
    (hclaimable : claimable b r.id = false) : claimed b r.id = true := by
  unfold claimable at hclaimable
  unfold claimed
  rw [Table.find?_of_mem hr] at hclaimable ⊢
  cases hsent : r.pickupReminderSentAt with
  | none => simp [hsent] at hclaimable
  | some date => simp [hsent]

theorem not_claimed_of_claimable (h : claimable b id = true) : claimed b id = false := by
  obtain ⟨r, hfind, hsent⟩ := (Option.any_eq_true ..).mp h
  unfold claimed
  rw [hfind, Option.any_some, of_decide_eq_true hsent]
  rfl

theorem later_insertOffer (b : Db) (offer : DailyOffer) :
    Later b { b with offers := b.offers.insertNew offer } :=
  ⟨fun _ ho => Table.mem_insertNew.mpr (.inl ho), fun r hr => ⟨r, hr, .refl r, fun h => h⟩⟩

theorem later_insertReservation (b : Db) (r : Reservation) :
    Later b { b with reservations := b.reservations.insertNew r } :=
  ⟨fun _ ho => ho, fun s hs => ⟨s, Table.mem_insertNew.mpr (.inl hs), .refl s, fun h => h⟩⟩

theorem later_setStatus (b : Db) (id : String) (target : ReservationStatus) :
    Later b (setStatus b id target) := by
  refine ⟨fun _ ho => ho, fun r hr => ⟨_, List.mem_map_of_mem hr, ?_⟩⟩
  split_ifs
  · exact ⟨⟨rfl, rfl, rfl, rfl, rfl⟩, fun h => h⟩
  · exact ⟨.refl r, fun h => h⟩

theorem later_claimReservation (b : Db) (id : String) (date : Instant) :
    Later b (claimReservation b id date) := by
  refine ⟨fun _ ho => ho, fun r hr => ⟨_, List.mem_map_of_mem hr, ?_⟩⟩
  split_ifs
  · exact ⟨⟨rfl, rfl, rfl, rfl, rfl⟩, fun _ => rfl⟩
  · exact ⟨.refl r, fun h => h⟩

/-- A new reservation has not been claimed. -/
theorem claimed_insertReservation (hr : r.pickupReminderSentAt = none) :
    claimed { b with reservations := b.reservations.insertNew r } id = claimed b id := by
  rw [Bool.eq_iff_iff, claimed_iff, claimed_iff]
  constructor
  · rintro ⟨s, hs, hid, hsent⟩
    rcases Table.mem_insertNew.mp hs with hs | ⟨rfl, -⟩
    · exact ⟨s, hs, hid, hsent⟩
    · rw [hr] at hsent
      cases hsent
  · rintro ⟨s, hs, hrest⟩
    exact ⟨s, Table.mem_insertNew.mpr (.inl hs), hrest⟩

theorem claimed_setStatus (b : Db) (target : ReservationStatus) (id' : String) :
    claimed (setStatus b id target) id' = claimed b id' := by
  unfold claimed setStatus
  rw [Table.find?_updateMany, Option.any_map]
  congr 1
  funext r
  split_ifs <;> rfl

/-- The claim is of one reservation. -/
theorem claimed_claimReservation {date : Instant} (h : claimable b id = true) (id' : String) :
    claimed (claimReservation b id date) id' = (decide (id = id') || claimed b id') := by
  unfold claimed claimReservation
  dsimp only
  rw [Table.find?_updateMany]
  by_cases hid : id = id'
  · subst hid
    obtain ⟨r, hfind, hsent⟩ := (Option.any_eq_true ..).mp h
    have hkey := (Table.find?_eq_some.mp hfind).2
    simp [hfind, hkey, of_decide_eq_true hsent]
  · cases hfind : b.reservations.find? id' with
    | none => simp [hid]
    | some r =>
      have hkey := (Table.find?_eq_some.mp hfind).2
      simp [hkey, hid, Ne.symm hid]

end Bookings

section Steps

/-- The ways a world goes on. -/
inductive Stepped (w : World) : World → Prop where
  | changed {b : Db} (hlater : Later w.db.now b) (hclaims : ∀ id, claimed b id = claimed w.db.now id) :
      Stepped w (w.change b)
  | pushed {a : PushDispatch.Action String PushData} {push : PushDispatch.World String PushData}
      (ha : isReminder a = false) (hstep : PushDispatch.step w.push a = some push) :
      Stepped w { w with push }
  | began (now windowMs : Instant) :
      Stepped w { w with sweeps := w.sweeps ++ [⟨now, windowMs, w.db.moment, .selecting⟩] }
  | selected {n : ℕ} {s : Sweep} {rows : List Due} (hs : w.sweeps[n]? = some s) (hphase : s.phase = .selecting)
      (hrows : rows.Perm (dueRows w.db.now s.now s.windowMs)) :
      Stepped w (w.setPhase n s (.looping (rows.take PICKUP_REMINDER_BATCH_LIMIT) 0 0))
  | ended {n : ℕ} {s : Sweep} {due : List Due} {next reminded : ℕ} (hs : w.sweeps[n]? = some s)
      (hphase : s.phase = .looping due next reminded)
      (hnext : due[next]? = none) : Stepped w (w.setPhase n s (.done due reminded))
  | claimed {n : ℕ} {s : Sweep} {due : List Due} {next reminded : ℕ} {row : Due}
      (hs : w.sweeps[n]? = some s) (hphase : s.phase = .looping due next reminded)
      (hnext : due[next]? = some row) (hclaimable : claimable w.db.now row.id = true) :
      Stepped w ((w.change (claimReservation w.db.now row.id w.push.db.now.clock)).setPhase n s
        (.claimed due next reminded))
  | passed {n : ℕ} {s : Sweep} {due : List Due} {next reminded : ℕ} {row : Due}
      (hs : w.sweeps[n]? = some s) (hphase : s.phase = .looping due next reminded)
      (hnext : due[next]? = some row) (hclaimable : claimable w.db.now row.id = false) :
      Stepped w (w.setPhase n s (.looping due (next+1) reminded))
  | notified {n : ℕ} {s : Sweep} {due : List Due} {next reminded : ℕ} {row : Due}
      (hs : w.sweeps[n]? = some s) (hphase : s.phase = .claimed due next reminded)
      (hnext : due[next]? = some row) :
      Stepped w { w.setPhase n s (.pushing due next reminded w.push.dispatches.length) with
        push := notifyUsers w.push [row.userId] .PICKUP_REMINDER fun _ => reminder row }
  | resumed {n : ℕ} {s : Sweep} {due : List Due} {next reminded dispatch : ℕ}
      (hs : w.sweeps[n]? = some s)
      (hphase : s.phase = .pushing due next reminded dispatch) :
      Stepped w (w.setPhase n s (.looping due (next+1) (reminded+1)))
  | stopped {n : ℕ} {s : Sweep} (hs : w.sweeps[n]? = some s)
      (hdone : ∀ due reminded, s.phase ≠ .done due reminded)
      (hstopped : ∀ lost, s.phase ≠ .stopped lost) :
      Stepped w (w.setPhase n s (.stopped s.phase.lost))

variable {w w' : World} {a : Action} {n : ℕ} {s : Sweep}

theorem stepped_of_sweepStep (hs : w.sweeps[n]? = some s) (h : sweepStep w n s a = some w') :
    Stepped w w' := by
  cases a with
  | selectDue _ rows =>
    simp only [sweepStep] at h
    cases hphase : s.phase with
    | selecting =>
      simp only [hphase] at h
      split_ifs at h with hrows
      cases h
      exact .selected hs hphase hrows
    | _ => simp [hphase] at h
  | claim _ =>
    simp only [sweepStep] at h
    cases hphase : s.phase with
    | looping due next reminded =>
      simp only [hphase] at h
      cases hnext : due[next]? with
      | none =>
        simp only [hnext] at h
        cases h
        exact .ended hs hphase hnext
      | some row =>
        simp only [hnext] at h
        split_ifs at h with hclaimable
        · cases h
          exact .claimed hs hphase hnext hclaimable
        · cases h
          exact .passed hs hphase hnext (by simpa using hclaimable)
    | _ => simp [hphase] at h
  | notify _ =>
    simp only [sweepStep] at h
    cases hphase : s.phase with
    | claimed due next reminded =>
      simp only [hphase] at h
      obtain ⟨row, hnext, rfl⟩ := Option.map_eq_some_iff.mp h
      exact .notified hs hphase hnext
    | _ => simp [hphase] at h
  | resume _ =>
    simp only [sweepStep] at h
    cases hphase : s.phase with
    | pushing due next reminded dispatch =>
      simp only [hphase] at h
      split_ifs at h
      cases h
      exact .resumed hs hphase
    | _ => simp [hphase] at h
  | stop _ =>
    simp only [sweepStep] at h
    have hstop := @Stepped.stopped w n s hs
    cases hphase : s.phase with
    | done due reminded => simp [hphase] at h
    | stopped lost => simp [hphase] at h
    | _ =>
      simp only [hphase] at h hstop
      cases h
      exact hstop (by simp) (by simp)
  | _ => cases h

theorem stepped_of_step (h : step w a = some w') : Stepped w w' := by
  cases a with
  | createOffer offer =>
    cases h
    exact .changed (later_insertOffer _ _) fun _ => rfl
  | createReservation id code userId offerId storeId =>
    simp only [step] at h
    split_ifs at h
    cases h
    exact .changed (later_insertReservation _ _) fun _ => claimed_insertReservation rfl
  | setStatus id target =>
    cases h
    exact .changed (later_setStatus _ _ _) (claimed_setStatus _ _)
  | push a =>
    simp only [step] at h
    split_ifs at h with ha
    obtain ⟨push, hstep, rfl⟩ := Option.map_eq_some_iff.mp h
    exact .pushed (by simpa using ha) hstep
  | sweepOnce now windowMs =>
    cases h
    exact .began now windowMs
  | selectDue sweep _ | claim sweep | notify sweep | resume sweep | stop sweep =>
    cases hs : w.sweeps[sweep]? with
    | none => simp [step, hs] at h
    | some s => exact stepped_of_sweepStep hs (by simpa only [step, hs] using h)

end Steps

section Accounts

variable {w w' : World} {n : ℕ} {s : Sweep} {phase : SweepPhase} {id : String}

/-- The call is for a reminder of this reservation. -/
def remindsOf (id : String) (c : Call String PushData) : Bool :=
  decide (c.kind = .PICKUP_REMINDER) && c.candidateUserIds.any fun userId =>
    (c.buildMessage userId).data.any fun data => decide (data.lookup "reservationId" = some id)

/-- How many reminders of a reservation have been handed on. -/
def reminders (w : World) (id : String) : ℕ :=
  w.push.dispatches.countP fun d => remindsOf id d.toCall

/-- The sweep has claimed the reservation and not handed it on. -/
def holds (id : String) : SweepPhase → Bool
  | .claimed due next _ => due[next]?.any fun row => decide (row.id = id)
  | .stopped lost => lost.any fun row => decide (row.id = id)
  | _ => false

def held (w : World) (id : String) : ℕ := w.sweeps.countP fun s => holds id s.phase

/-- Every claim is accounted for. -/
def Balanced (w : World) : Prop :=
  ∀ id, reminders w id+held w id = (claimed w.db.now id).toNat

theorem held_setPhase (hs : w.sweeps[n]? = some s) (phase : SweepPhase) (id : String) :
    held (w.setPhase n s phase) id+(holds id s.phase).toNat = held w id+(holds id phase).toNat :=
  countP_set_add (fun s : Sweep => holds id s.phase) hs { s with phase }

/-- A sweep that neither held the reservation nor holds it now. -/
theorem held_setPhase_of_eq (hs : w.sweeps[n]? = some s) (h : holds id phase = holds id s.phase) :
    held (w.setPhase n s phase) id = held w id := by
  have hheld := held_setPhase hs phase id
  rw [h] at hheld
  exact Nat.add_right_cancel hheld

theorem remindsOf_reminder (row : Due) (began : ℕ) (id : String) :
    remindsOf id ⟨[row.userId], .PICKUP_REMINDER, fun _ => reminder row, began⟩ =
      decide (row.id = id) := by
  simp [remindsOf, reminder]

theorem remindsOf_eq_false {c : Call String PushData} (h : c.kind ≠ .PICKUP_REMINDER) :
    remindsOf id c = false := by
  simp [remindsOf, h]

/-- What the dispatches were called with. -/
def calls (push : PushDispatch.World String PushData) : List (Call String PushData) :=
  push.dispatches.map (·.toCall)

theorem reminders_eq (w : World) (id : String) :
    reminders w id = (calls w.push).countP (remindsOf id) := by
  rw [calls, List.countP_map]
  rfl

theorem calls_notifyUsers (push : PushDispatch.World String PushData)
    (candidateUserIds : List String) (kind : NotificationKind)
    (buildMessage : String → PushMessageContent PushData) :
    calls (notifyUsers push candidateUserIds kind buildMessage) =
      calls push ++ [⟨candidateUserIds, kind, buildMessage, push.db.moment⟩] := by
  rw [calls, notifyUsers, List.map_append]
  rfl

theorem calls_setPhase {push : PushDispatch.World String PushData}
    {d : Dispatch String PushData} {phase : Phase String PushData}
    (hd : push.dispatches[n]? = some d) : calls (push.setPhase n d phase) = calls push := by
  obtain ⟨hn, hget⟩ := List.getElem?_eq_some_iff.mp hd
  have hn' : n < (push.dispatches.map (·.toCall)).length := by rwa [List.length_map]
  have hcall : (push.dispatches.map (·.toCall))[n] = d.toCall := by rw [List.getElem_map, hget]
  rw [calls, PushDispatch.World.setPhase, List.map_set]
  change (push.dispatches.map (·.toCall)).set n d.toCall = _
  rw [← hcall, List.set_getElem_self]
  rfl

/-- The other steps of the pushes hand no reminder on. -/
theorem calls_step {push push' : PushDispatch.World String PushData}
    {a : PushDispatch.Action String PushData} (ha : isReminder a = false)
    (hstep : PushDispatch.step push a = some push') :
    ∃ others, calls push' = calls push ++ others ∧ ∀ c ∈ others, c.kind ≠ .PICKUP_REMINDER := by
  have hsame : ∀ {q : PushDispatch.World String PushData}, calls q = calls push →
      ∃ others, calls q = calls push ++ others ∧ ∀ c ∈ others, c.kind ≠ .PICKUP_REMINDER := by
    intro q hq
    exact ⟨[], by rw [hq, List.append_nil], by simp⟩
  cases DispatchedPushes.stepped_of_step hstep with
  | changed => exact hsame rfl
  | registered => exact hsame rfl
  | removed => exact hsame rfl
  | asked hasked =>
    refine ⟨_, calls_notifyUsers _ _ _ _, fun c hc hkind => ?_⟩
    rw [List.mem_singleton.mp hc] at hkind
    dsimp only at hkind
    rw [hasked, hkind] at ha
    cases ha
  | looked hd => exact hsame (calls_setPhase hd)
  | chosen hd => exact hsame (calls_setPhase hd)
  | fetched hd => exact hsame (calls_setPhase hd)
  | answered hd => exact hsame (calls_setPhase hd)
  | collected hd => exact hsame (calls_setPhase hd)
  | disabled hd => exact hsame (calls_setPhase hd)

end Accounts

section Knowledge

variable {w w' : World} {db : Timeline Db} {s : Sweep} {due : List Due} {b : Db} {row : Due}

/-- The rows that a sweep selected are the first of those that were due. -/
def Selected (db : Timeline Db) (s : Sweep) (due : List Due) : Prop :=
  ∃ k b, db.at? k = some b ∧ s.began ≤ k ∧ ∃ rows : List Due,
    rows.Perm (dueRows b s.now s.windowMs) ∧ due = rows.take PICKUP_REMINDER_BATCH_LIMIT

/-- The first rows have been claimed. -/
def ClaimedBelow (b : Db) (due : List Due) (next : ℕ) : Prop :=
  ∀ i < next, ∀ row, due[i]? = some row → claimed b row.id = true

/-- What a sweep knows in each of its phases. -/
def Knows (db : Timeline Db) (s : Sweep) : SweepPhase → Prop
  | .selecting => s.began ≤ db.moment
  | .looping due next _ => Selected db s due ∧ ClaimedBelow db.now due next
  | .claimed due next _ | .pushing due next _ _ => Selected db s due ∧ ClaimedBelow db.now due (next+1)
  | .done due _ => Selected db s due ∧ ∀ row ∈ due, claimed db.now row.id = true
  | .stopped _ => True

/-- The call is a reminder of a row that some sweep has selected. -/
def Reminds (w : World) (c : Call String PushData) : Prop :=
  ∃ s ∈ w.sweeps, ∃ due row, Selected w.db s due ∧ row ∈ due ∧ c.candidateUserIds = [row.userId] ∧
    c.buildMessage = fun _ => reminder row

theorem Selected.change (h : Selected db s due) (b : Db) : Selected (db.change b) s due := by
  obtain ⟨k, b', hk, hrest⟩ := h
  exact ⟨k, b', Timeline.at?_change hk b, hrest⟩

theorem ClaimedBelow.mono {b' : Db} {next : ℕ} (h : ClaimedBelow b due next) (hlater : Later b b') :
    ClaimedBelow b' due next :=
  fun i hi row hrow => hlater.claimed (h i hi row hrow)

theorem ClaimedBelow.succ {next : ℕ} (h : ClaimedBelow b due next) (hrow : due[next]? = some row)
    (hclaimed : claimed b row.id = true) : ClaimedBelow b due (next+1) := by
  intro i hi row' hrow'
  rcases Nat.lt_succ_iff_lt_or_eq.mp hi with hi | rfl
  · exact h i hi row' hrow'
  · rw [hrow] at hrow'
    cases hrow'
    exact hclaimed

theorem Knows.change {phase : SweepPhase} (h : Knows db s phase) (hlater : Later db.now b) :
    Knows (db.change b) s phase := by
  cases phase with
  | selecting => exact Nat.le_trans h (Timeline.moment_le_change _ _)
  | looping due next reminded => exact ⟨h.1.change b, h.2.mono hlater⟩
  | claimed due next reminded => exact ⟨h.1.change b, h.2.mono hlater⟩
  | pushing due next reminded dispatch => exact ⟨h.1.change b, h.2.mono hlater⟩
  | done due reminded => exact ⟨h.1.change b, fun row hrow => hlater.claimed (h.2 row hrow)⟩
  | stopped lost => trivial

theorem Reminds.setPhase {n : ℕ} {phase : SweepPhase} {c : Call String PushData} (h : Reminds w c)
    (hs : w.sweeps[n]? = some s) : Reminds (w.setPhase n s phase) c := by
  obtain ⟨s', hs', due, row, hselected, hrest⟩ := h
  obtain ⟨m, hm⟩ := List.mem_iff_getElem?.mp hs'
  by_cases hne : n = m
  · rw [← hne, hs] at hm
    cases hm
    have hself : (w.sweeps.set n { s with phase })[n]? = some { s with phase } :=
      List.getElem?_set_self (List.getElem?_eq_some_iff.mp hs).1
    exact ⟨_, List.mem_of_getElem? hself, due, row, hselected, hrest⟩
  · exact ⟨s', List.mem_of_getElem? ((List.getElem?_set_ne hne).trans hm), due, row, hselected, hrest⟩

/-- What sweeps and dispatches go by. -/
structure Sound (w : World) : Prop where
  later : ∀ k b, w.db.at? k = some b → Later b w.db.now
  knows : ∀ s ∈ w.sweeps, Knows w.db s s.phase
  reminds : ∀ c ∈ calls w.push, c.kind = .PICKUP_REMINDER → Reminds w c
  push : Reachable PushDispatch.step anyStep PushDispatch.Initial w.push

/-- The database goes on. -/
theorem Sound.change (h : Sound w) (hlater : Later w.db.now b) : Sound (w.change b) where
  later := by
    intro k b' hk
    by_cases hlt : k < (w.db.past ++ [w.db.now]).length
    · exact (h.later k b' ((List.getElem?_append_left hlt).symm.trans hk)).trans hlater
    · have hnew := (List.getElem?_append_right (Nat.le_of_not_lt hlt)).symm.trans hk
      rw [List.mem_singleton.mp (List.mem_of_getElem? hnew)]
      exact .refl b
  knows s hs := (h.knows s hs).change hlater
  reminds := by
    intro c hc hkind
    obtain ⟨s, hs, due, row, hselected, hrest⟩ := h.reminds c hc hkind
    exact ⟨s, hs, due, row, hselected.change b, hrest⟩
  push := h.push

/-- A sweep goes on. -/
theorem Sound.setPhase {n : ℕ} {phase : SweepPhase} (h : Sound w) (hs : w.sweeps[n]? = some s)
    (hknows : Knows w.db s phase) : Sound (w.setPhase n s phase) where
  later := h.later
  knows := by
    intro s' hs'
    rcases List.mem_or_eq_of_mem_set hs' with hs' | rfl
    · exact h.knows s' hs'
    · exact hknows
  reminds c hc hkind := (h.reminds c hc hkind).setPhase hs
  push := h.push

/-- The pushes go on. -/
theorem Sound.pushed {push : PushDispatch.World String PushData} {others : List (Call String PushData)}
    (h : Sound w) (hcalls : calls push = calls w.push ++ others)
    (hreminds : ∀ c ∈ others, c.kind = .PICKUP_REMINDER → Reminds w c)
    (hpush : Reachable PushDispatch.step anyStep PushDispatch.Initial push) :
    Sound { w with push } where
  later := h.later
  knows := h.knows
  reminds := by
    intro c hc hkind
    rw [hcalls] at hc
    rcases List.mem_append.mp hc with hc | hc
    · exact h.reminds c hc hkind
    · exact hreminds c hc hkind
  push := hpush

/-- A selected row is that of a stored booking. -/
theorem exists_booking (h : Sound w) (hselected : Selected w.db s due) (hrow : row ∈ due) :
    ∃ k b, w.db.at? k = some b ∧ s.began ≤ k ∧ ∃ r₀ ∈ b.reservations.rows,
      ∃ r ∈ w.db.now.reservations.rows, ∃ offer ∈ w.db.now.offers.rows, offer.id = r.offerId ∧
        SameBooking r₀ r ∧ isDue s.now s.windowMs r₀ offer = true ∧ r.select offer = row := by
  obtain ⟨k, b, hk, hbegan, rows, hrows, rfl⟩ := hselected
  have hmem := hrows.mem_iff.mp (List.mem_of_mem_take hrow)
  obtain ⟨r₀, hr₀, offer, hoffer, hid, hdue, hselect⟩ := mem_dueRows.mp hmem
  obtain ⟨r, hr, hsame, -⟩ := (h.later k b hk).booking r₀ hr₀
  exact ⟨k, b, hk, hbegan, r₀, hr₀, r, hr, offer, (h.later k b hk).offer offer hoffer,
    hid.trans hsame.offerId, hsame, hdue, (hsame.select_eq offer).symm.trans hselect⟩

/-- A selected row that cannot be claimed any more has been claimed. -/
theorem claimed_of_selected (h : Sound w) (hselected : Selected w.db s due) (hrow : row ∈ due)
    (hclaimable : claimable w.db.now row.id = false) : claimed w.db.now row.id = true := by
  obtain ⟨_, _, _, _, _, _, r, hr, _, _, _, _, _, rfl⟩ := exists_booking h hselected hrow
  exact claimed_of_not_claimable hr hclaimable

theorem sound_step (h : Sound w) (hstep : Stepped w w') : Sound w' := by
  have hknows : ∀ {n : ℕ} {s : Sweep} {phase : SweepPhase}, w.sweeps[n]? = some s →
      s.phase = phase → Knows w.db s phase := by
    rintro n s phase hs rfl
    exact h.knows s (List.mem_of_getElem? hs)
  cases hstep with
  | changed hlater => exact h.change hlater
  | pushed ha hstep =>
    obtain ⟨others, hcalls, hkinds⟩ := calls_step ha hstep
    exact h.pushed hcalls (fun c hc hkind => absurd hkind (hkinds c hc)) (h.push.next trivial hstep)
  | began now windowMs =>
    refine ⟨h.later, fun s hs => ?_, fun c hc hkind => ?_, h.push⟩
    · rcases List.mem_append.mp hs with hs | hs
      · exact h.knows s hs
      · rw [List.mem_singleton.mp hs]
        exact Nat.le_refl _
    · obtain ⟨s, hs, hrest⟩ := h.reminds c hc hkind
      exact ⟨s, List.mem_append_left _ hs, hrest⟩
  | selected hs hphase hrows =>
    refine h.setPhase hs ⟨⟨w.db.moment, w.db.now, w.db.at?_moment, hknows hs hphase, _, hrows, rfl⟩, ?_⟩
    intro i hi
    exact absurd hi (Nat.not_lt_zero i)
  | ended hs hphase hnext =>
    obtain ⟨hselected, hbelow⟩ := hknows hs hphase
    refine h.setPhase hs ⟨hselected, fun row hrow => ?_⟩
    obtain ⟨i, hi⟩ := List.mem_iff_getElem?.mp hrow
    have hlt := (List.getElem?_eq_some_iff.mp hi).1
    exact hbelow i (lt_of_lt_of_le hlt (List.getElem?_eq_none_iff.mp hnext)) row hi
  | @claimed n s due next reminded row hs hphase hnext hclaimable =>
    have hlater := later_claimReservation w.db.now row.id w.push.db.now.clock
    obtain ⟨hselected, hbelow⟩ := (hknows hs hphase).change hlater
    refine (h.change hlater).setPhase hs ⟨hselected, hbelow.succ hnext ?_⟩
    rw [Timeline.change, claimed_claimReservation hclaimable]
    simp
  | passed hs hphase hnext hclaimable =>
    obtain ⟨hselected, hbelow⟩ := hknows hs hphase
    exact h.setPhase hs ⟨hselected, hbelow.succ hnext
      (claimed_of_selected h hselected (List.mem_of_getElem? hnext) hclaimable)⟩
  | @notified n s due next reminded row hs hphase hnext =>
    obtain ⟨hselected, hbelow⟩ := hknows hs hphase
    have hset : Sound (w.setPhase n s (.pushing due next reminded w.push.dispatches.length)) :=
      h.setPhase hs ⟨hselected, hbelow⟩
    refine hset.pushed (calls_notifyUsers _ _ _ _) (fun c hc _ => ?_)
      (h.push.next (a := .notifyUsers [row.userId] .PICKUP_REMINDER fun _ => reminder row) trivial rfl)
    rw [List.mem_singleton.mp hc]
    have hreminds : Reminds w ⟨[row.userId], .PICKUP_REMINDER, fun _ => reminder row,
        w.push.db.moment⟩ :=
      ⟨s, List.mem_of_getElem? hs, due, row, hselected, List.mem_of_getElem? hnext, rfl, rfl⟩
    exact hreminds.setPhase hs
  | resumed hs hphase =>
    obtain ⟨hselected, hbelow⟩ := hknows hs hphase
    exact h.setPhase hs ⟨hselected, hbelow⟩
  | stopped hs => exact h.setPhase hs trivial

/-- Claims and reminders go together. -/
theorem balanced_step (h : Balanced w) (hstep : Stepped w w') : Balanced w' := by
  intro id
  have hid := h id
  cases hstep with
  | changed _ hclaims =>
    rw [PickupReminders.World.change, Timeline.change, hclaims]
    exact hid
  | pushed ha hstep =>
    obtain ⟨others, hcalls, hkinds⟩ := calls_step ha hstep
    have hnone : others.countP (remindsOf id) = 0 := by
      refine List.countP_eq_zero.mpr fun c hc => ?_
      rw [remindsOf_eq_false (hkinds c hc)]
      exact Bool.false_ne_true
    rw [reminders_eq] at hid ⊢
    rw [hcalls, List.countP_append, hnone]
    exact hid
  | began now windowMs =>
    rw [held, List.countP_append]
    exact hid
  | selected hs hphase =>
    rw [held_setPhase_of_eq hs (by rw [hphase]; rfl)]
    exact hid
  | ended hs hphase =>
    rw [held_setPhase_of_eq hs (by rw [hphase]; rfl)]
    exact hid
  | @claimed n s due next reminded row hs hphase hnext hclaimable =>
    have hheld := held_setPhase hs (.claimed due next reminded) id
    have hafter : holds id (.claimed due next reminded) = decide (row.id = id) := by
      rw [holds, hnext, Option.any_some]
    rw [hphase, hafter] at hheld
    change reminders w id+held (w.setPhase n s (.claimed due next reminded)) id =
      (claimed (claimReservation w.db.now row.id w.push.db.now.clock) id).toNat
    rw [claimed_claimReservation hclaimable]
    by_cases hrow : row.id = id
    · rw [← hrow, not_claimed_of_claimable hclaimable] at hid
      simp [holds, hrow] at hheld hid ⊢
      omega
    · simp [holds, hrow] at hheld ⊢
      omega
  | passed hs hphase =>
    rw [held_setPhase_of_eq hs (by rw [hphase]; rfl)]
    exact hid
  | @notified n s due next reminded row hs hphase hnext =>
    have hheld := held_setPhase hs (.pushing due next reminded w.push.dispatches.length) id
    have hbefore : holds id (.claimed due next reminded) = decide (row.id = id) := by
      rw [holds, hnext, Option.any_some]
    rw [hphase, hbefore] at hheld
    rw [reminders_eq] at hid ⊢
    rw [calls_notifyUsers, List.countP_append, List.countP_singleton, remindsOf_reminder]
    change _+held (w.setPhase n s (.pushing due next reminded w.push.dispatches.length)) id =
      (claimed w.db.now id).toNat
    by_cases hrow : row.id = id
    · simp [holds, hrow] at hheld ⊢
      omega
    · simp [holds, hrow] at hheld ⊢
      omega
  | resumed hs hphase =>
    rw [held_setPhase_of_eq hs (by rw [hphase]; rfl)]
    exact hid
  | @stopped n s hs hdone hstopped =>
    have hheld : holds id (.stopped s.phase.lost) = holds id s.phase := by
      cases hphase : s.phase with
      | stopped lost => exact absurd hphase (hstopped lost)
      | _ => rfl
    rw [held_setPhase_of_eq hs hheld]
    exact hid

theorem sound_of_reachable (h : Reachable step anyStep Initial w) : Sound w := by
  refine h.invariant (fun w hinit => ?_) fun _ _ _ hw _ hstep => sound_step hw (stepped_of_step hstep)
  refine ⟨fun k b hk => ?_, ?_, ?_, .start hinit.push⟩
  · rw [Timeline.at?, hinit.past, List.nil_append] at hk
    rw [List.mem_singleton.mp (List.mem_of_getElem? hk)]
    exact .refl _
  · simp [hinit.sweeps]
  · simp [calls, hinit.push.dispatches]

theorem balanced_of_reachable (h : Reachable step anyStep Initial w) : Balanced w := by
  refine h.invariant (fun w hinit id => ?_) fun _ _ _ hw _ hstep =>
    balanced_step hw (stepped_of_step hstep)
  have hclaimed : claimed w.db.now id = false := by
    rw [Bool.eq_false_iff]
    intro hclaimed
    obtain ⟨r, hr, -, hsent⟩ := claimed_iff.mp hclaimed
    rw [hinit.unclaimed r hr] at hsent
    cases hsent
  simp [reminders, held, hinit.sweeps, hinit.push.dispatches, hclaimed]

end Knowledge

section Results

variable {w : World} {s : Sweep}

/-- The reservation was confirmed, unclaimed and about to start at a moment
since the sweep began. -/
def WasDue (db : Timeline Db) (s : Sweep) (r : Reservation) (offer : DailyOffer) : Prop :=
  ∃ k b, db.at? k = some b ∧ s.began ≤ k ∧ ∃ r₀ ∈ b.reservations.rows, SameBooking r₀ r ∧
    r₀.status = .confirmed ∧ r₀.pickupReminderSentAt = none ∧ s.now ≤ offer.pickupStartAt ∧
      offer.pickupStartAt ≤ s.now+s.windowMs

theorem isDue_iff {now windowMs : Instant} {r : Reservation} {offer : DailyOffer} :
    isDue now windowMs r offer = true ↔ r.status = .confirmed ∧ r.pickupReminderSentAt = none ∧
      now ≤ offer.pickupStartAt ∧ offer.pickupStartAt ≤ now+windowMs :=
  decide_eq_true_iff

/-- What goes out for a reminder goes to devices of its customer. -/
theorem reminder_recipients (h : Sound w) {d : Dispatch String PushData} {userId : String}
    (hd : d ∈ w.push.dispatches) (hcandidates : d.candidateUserIds = [userId])
    {sending : Sending String PushData} (hsent : d.phase.sent = some sending) :
    (recipients sending).Nodup ∧ ∀ body ∈ (requests sending.batch).flatten,
      ∃ token : PushToken String, token.userId = userId ∧
        [body] = toExpoRequestBody [messageTo d.buildMessage token] := by
  obtain ⟨now, i, j, k, b, b', b'', hchosen, -, hfetched⟩ :=
    sent_of_knows ((DispatchedPushes.sound_of_reachable h.push).knows d hd) hsent
  have hpushed := pushed_of_fetched hchosen hfetched
  refine ⟨hpushed.once, fun body hbody => ?_⟩
  obtain ⟨token, -, -, hcandidate, -, hmessage⟩ := hpushed.only body hbody
  rw [hcandidates] at hcandidate
  exact ⟨token, List.mem_singleton.mp hcandidate, hmessage⟩

/-- In every run: a sweep that has come to its end has left no reservation that
it selected without its one reminder, in a dispatch or with a sweep that holds
it; and it selected every reservation that was due when it looked, or as many
as its limit allows. -/
theorem due_reminded (w : World) (h : Reachable step anyStep Initial w) (s : Sweep)
    (hs : s ∈ w.sweeps) (due : List Due) (reminded : ℕ) (hphase : s.phase = .done due reminded) :
    ∃ k b, w.db.at? k = some b ∧ s.began ≤ k ∧
      (∀ row ∈ due, row ∈ dueRows b s.now s.windowMs ∧ reminders w row.id+held w row.id = 1) ∧
        due.length = min PICKUP_REMINDER_BATCH_LIMIT (dueRows b s.now s.windowMs).length ∧
          ((dueRows b s.now s.windowMs).length ≤ PICKUP_REMINDER_BATCH_LIMIT →
            ∀ row ∈ dueRows b s.now s.windowMs, reminders w row.id+held w row.id = 1) := by
  have hknows := (sound_of_reachable h).knows s hs
  rw [hphase] at hknows
  obtain ⟨⟨k, b, hk, hbegan, rows, hrows, rfl⟩, hclaimed⟩ := hknows
  have hone : ∀ row ∈ rows.take PICKUP_REMINDER_BATCH_LIMIT, reminders w row.id+held w row.id = 1 := by
    intro row hrow
    rw [balanced_of_reachable h row.id, hclaimed row hrow]
    rfl
  refine ⟨k, b, hk, hbegan, fun row hrow => ⟨?_, hone row hrow⟩, ?_, fun hfew row hrow => ?_⟩
  · exact hrows.mem_iff.mp (List.mem_of_mem_take hrow)
  · rw [List.length_take, hrows.length_eq]
  · refine hone row ?_
    rw [List.take_of_length_le (hrows.length_eq.trans_le hfew)]
    exact hrows.mem_iff.mpr hrow

end Results

section Sample

/-- A user with one device. -/
def oneDevice : PushDispatch.World String PushData where
  db := ⟨[], {
    users := fun _ => some .ACTIVE
    preferences := fun _ => none
    tokens := Table.empty.insertNew ⟨"ada", "device", .IOS, 0, none⟩
    clock := 14*hourMs }⟩
  dispatches := []

def unreserved : World where
  db := ⟨[], ⟨Table.empty, Table.empty⟩⟩
  sweeps := []
  push := oneDevice

def evening : DailyOffer := ⟨"bread", 14*hourMs+20*60*1000, 15*hourMs⟩

def adaDue : Due := ⟨"r", "ada", "bakery", "K7", evening⟩

/-- Two sweeps select one reservation; the first one to claim it sends. -/
def twoSweeps : List PickupReminders.Action :=
  [.createOffer evening, .createReservation "r" "K7" "ada" "bread" "bakery",
    .setStatus "r" .confirmed, .sweepOnce (14*hourMs) PICKUP_REMINDER_WINDOW_MS,
    .sweepOnce (14*hourMs) PICKUP_REMINDER_WINDOW_MS, .selectDue 0 [adaDue],
    .selectDue 1 [adaDue], .claim 1, .claim 0, .notify 1, .push (.readUsers 0),
    .push (.readTokens 0 [⟨"ada", "device", .IOS, 0, none⟩]),
    .push (.answer 0 0 (.json (some [⟨.ok, none, none⟩]))), .push (.collect 0), .resume 1,
    .claim 1, .claim 0]

theorem reachable_twoSweeps : Reachable step anyStep Initial (after step unreserved twoSweeps) :=
  reachable_after (.start ⟨rfl, nofun, rfl, ⟨rfl, by decide +kernel, rfl⟩⟩) (by decide +kernel)

theorem due_reminded_twoSweeps :
    ∃ s ∈ (after step unreserved twoSweeps).sweeps, s.phase = .done [adaDue] 0 ∧
      ∃ k b, (after step unreserved twoSweeps).db.at? k = some b ∧
        ∀ row ∈ [adaDue], row ∈ dueRows b s.now s.windowMs := by
  refine ⟨⟨14*hourMs, PICKUP_REMINDER_WINDOW_MS, 3, .done [adaDue] 0⟩, List.mem_cons_self, rfl, ?_⟩
  obtain ⟨k, b, hk, -, hdue, -⟩ := due_reminded _ reachable_twoSweeps
    ⟨14*hourMs, PICKUP_REMINDER_WINDOW_MS, 3, .done [adaDue] 0⟩ List.mem_cons_self [adaDue] 0 rfl
  exact ⟨k, b, hk, fun row hrow => (hdue row hrow).1⟩

end Sample

end Kurtar.ClaimedReminders

import Kurtar.PickupFrame
import Kurtar.SettlementService

/-!
# The settlement day of collected and missed bags

The reservation side with a clock that only moves forward. A redeem call
checks the pickup window on one reading of the clock and stores a later one,
so the stored time is within the window only when the transaction is not
late. In runs without late redemptions all collected and missed bags of an
offer are earned on the offer's own day.
-/

namespace Kurtar.PickupDays

open KeyedTable GuardedRuns StatusTransitions IstanbulCalendar Marketplace ReservationTransactions
open OfferLifecycle MarketService MarketEffects MarketInvariant PickupFrame

section Clock

/-- The reservation side and the newest reading of the clock. -/
structure TimedWorld where
  world : World
  clock : Instant

/-- An action some milliseconds after the one before. -/
structure TimedAction where
  delay : ℕ
  action : Action

/-- The action as it reads the clock at the given instant. -/
def readingClock (now : Instant) : Action → Action
  | .create call codes => .create { call with now } codes
  | .sweepStaleIntents _ => .sweepStaleIntents now
  | .cancel userId reservationId _ => .cancel userId reservationId now
  | .redeem redeemer reservationId _ => .redeem redeemer reservationId now
  | .sweepNoShows _ => .sweepNoShows now
  | .createOffer merchantId dto freshId _ => .createOffer merchantId dto freshId now
  | .publish merchantId offerId _ => .publish merchantId offerId now
  | .schedule merchantId offerId publishAt _ => .schedule merchantId offerId publishAt now
  | .publishDueScheduled _ => .publishDueScheduled now
  | .resume index input => .resume index { input with clock := now }
  | a => a

def timedStep (s : TimedWorld) (a : TimedAction) : Option TimedWorld :=
  (step s.world (readingClock (s.clock+a.delay) a.action)).map fun world =>
    { world, clock := s.clock+a.delay }

def TimedInitial (s : TimedWorld) : Prop := Initial s.world

/-- A redeeming transaction that takes effect does so within the window that was checked. -/
def InTime (s : TimedWorld) (a : TimedAction) : Prop :=
  match a.action with
  | .resume index _ =>
    match s.world.tasks[index]? with
    | some (.redeemWrite _ read) =>
      (∃ r ∈ s.world.market.reservations.rows, r.id = read.reservation.id ∧
        r.status = .confirmed) → s.clock+a.delay ≤ read.offer.pickupEndAt
    | _ => True
  | _ => True

instance (s : TimedWorld) : DecidablePred (InTime s) := fun a => by
  unfold InTime
  split
  · split <;> infer_instance
  · infer_instance

variable {ok : TimedWorld → TimedAction → Prop} {s s' : TimedWorld} {a : TimedAction}

theorem timedStep_eq_some (h : timedStep s a = some s') :
    step s.world (readingClock (s.clock+a.delay) a.action) = some s'.world ∧
      s'.clock = s.clock+a.delay := by
  obtain ⟨world, hstep, rfl⟩ := Option.map_eq_some_iff.mp h
  exact ⟨hstep, rfl⟩

theorem sound_of_timed (h : Reachable timedStep ok TimedInitial s) : WorldSound s.world :=
  h.invariant (I := fun s => WorldSound s.world) (fun _ hi => sound_initial hi)
    fun _ _ _ hs _ ht => (step_steps hs (timedStep_eq_some ht).1).sound

end Clock

section Days

/-- What the window rules accept: one nonempty window on the offer's own day. -/
structure AcceptedWindow (o : Offer) : Prop where
  nonempty : o.pickupStartAt < o.pickupEndAt
  startDay : istanbulDateKey o.pickupStartAt = o.offerDate
  endDay : istanbulDateKey o.pickupEndAt = o.offerDate

theorem AcceptedWindow.of_same {o o' : Offer} (h : AcceptedWindow o) (hsame : SameWindow o o') :
    AcceptedWindow o' := by
  constructor
  · rw [hsame.pickupStartAt, hsame.pickupEndAt]
    exact h.nonempty
  · rw [hsame.pickupStartAt, hsame.offerDate]
    exact h.startDay
  · rw [hsame.pickupEndAt, hsame.offerDate]
    exact h.endDay

theorem accepted_of_validate {dto : CreateOfferDto} {now : Instant}
    (h : validateOfferWindow dto now = .ok ()) (bagTemplate : BagTemplate) (freshId : OfferId) :
    AcceptedWindow (newOffer dto bagTemplate freshId) := by
  simp only [validateOfferWindow] at h
  split_ifs at h with hstart hfuture hday
  push Not at hstart hday
  exact ⟨hstart, hday.1, hday.2⟩

/-- An instant within an accepted window is on the offer's day. -/
theorem AcceptedWindow.day {o : Offer} (h : AcceptedWindow o) {t : Instant}
    (hstart : o.pickupStartAt ≤ t) (hend : t ≤ o.pickupEndAt) :
    istanbulDateKey t = o.offerDate := by
  have hlow := istanbulDateKey_mono hstart
  have hhigh := istanbulDateKey_mono hend
  rw [h.startDay] at hlow
  rw [h.endDay] at hhigh
  exact Int.le_antisymm hhigh hlow

/-- The reservation joined with its offer, store and payment, as settlement reads it. -/
def settlementRow (m : Market) (r : Reservation) : Option SettlementLedger.Reservation :=
  (m.offers.find? r.offerId).bind fun offer =>
    (m.stores.find? r.storeId).bind fun store =>
      (m.payments.find? r.id).map fun payment =>
        { id := r.id
          merchantId := store.merchantId
          status := r.status
          redeemedAt := r.redeemedAt
          pickupEndAt := offer.pickupEndAt
          totalCents := r.totalCents
          qty := r.qty
          paymentStatus := payment.status
          refunds := (m.refunds.filter fun f => f.reservationId = r.id).map (·.status) }

theorem settlementRow_eq_some {m : Market} {r : Reservation} {row : SettlementLedger.Reservation}
    (h : settlementRow m r = some row) :
    row.status = r.status ∧ row.redeemedAt = r.redeemedAt ∧
      ∃ o ∈ m.offers.rows, o.id = r.offerId ∧ row.pickupEndAt = o.pickupEndAt := by
  obtain ⟨offer, hoffer, h⟩ := Option.bind_eq_some_iff.mp h
  obtain ⟨store, hstore, h⟩ := Option.bind_eq_some_iff.mp h
  obtain ⟨payment, hpayment, rfl⟩ := Option.map_eq_some_iff.mp h
  obtain ⟨ho, hid⟩ := Table.find?_eq_some.mp hoffer
  exact ⟨rfl, rfl, offer, ho, hid, rfl⟩

/-- The reservations that settlement pays out. -/
def settleable (s : ReservationStatus) : Prop := s = .redeemed ∨ s = .noShow

/-- A collected reservation has a redemption time within the window of its offer. -/
def CollectedInWindow (m : Market) (r : Reservation) : Prop :=
  ∃ o ∈ m.offers.rows, o.id = r.offerId ∧ ∃ t, r.redeemedAt = some t ∧
    o.pickupStartAt ≤ t ∧ t ≤ o.pickupEndAt

def AllCollectedInWindow (m : Market) : Prop :=
  ∀ r ∈ m.reservations.rows, r.status = .redeemed → CollectedInWindow m r

/-- Collected bags are collected in their windows and on the day of their offers, and the
collected and missed bags of an offer are earned on one day. -/
structure SettlesTogether (m : Market) : Prop where
  inWindow : AllCollectedInWindow m
  sameDay : ∀ r ∈ m.reservations.rows, r.status = .redeemed → ∀ o ∈ m.offers.rows,
    o.id = r.offerId → ∀ t, r.redeemedAt = some t →
      istanbulDateKey t = istanbulDateKey o.pickupEndAt ∧
        istanbulDateKey o.pickupEndAt = o.offerDate
  oneBatchDay : ∀ r ∈ m.reservations.rows, ∀ r' ∈ m.reservations.rows, r.offerId = r'.offerId →
    settleable r.status → settleable r'.status → ∀ row row', settlementRow m r = some row →
      settlementRow m r' = some row' →
        istanbulDateKey (SettlementService.settlementAnchorOf row) =
          istanbulDateKey (SettlementService.settlementAnchorOf row')

end Days

section Invariant

/-- Windows are accepted ones, and the redeem calls under way were checked against the stored
window, not before it started. -/
structure CallsChecked (s : TimedWorld) : Prop where
  windows : ∀ o ∈ s.world.market.offers.rows, AcceptedWindow o
  redeems : ∀ redeemer read, Redeeming s.world redeemer read →
    (∃ o ∈ s.world.market.offers.rows, o.id = read.reservation.offerId ∧
      SameWindow read.offer o) ∧ read.offer.pickupStartAt ≤ s.clock

variable {s s' : TimedWorld} {a : TimedAction} {m m' : Market}

theorem readingClock_redeem {t : Instant} {a : Action} {redeemer : Redeemer}
    {id : ReservationId} {now : Instant} (h : readingClock t a = .redeem redeemer id now) :
    now = t := by
  cases a <;> simp only [readingClock] at h <;> cases h
  rfl

theorem readingClock_resume {t : Instant} {a : Action} {index : ℕ} {input : StepInput}
    (h : readingClock t a = .resume index input) :
    input.clock = t ∧ ∃ input', a = .resume index input' := by
  cases a <;> simp only [readingClock] at h <;> cases h
  exact ⟨rfl, _, rfl⟩

/-- The window of a redeem call is kept while its offer and the clock move on. -/
theorem checked_kept {redeemer : Redeemer} {read : RedeemRead} (hs : CallsChecked s)
    (hkept : ∀ o ∈ s.world.market.offers.rows, ∃ o' ∈ m'.offers.rows, SameWindow o o')
    (hmem : Redeeming s.world redeemer read) {now : ℤ} (hclock : s.clock ≤ now) :
    (∃ o ∈ m'.offers.rows, o.id = read.reservation.offerId ∧ SameWindow read.offer o) ∧
      read.offer.pickupStartAt ≤ now := by
  obtain ⟨⟨o, ho, hid, hsame⟩, hstart⟩ := hs.redeems redeemer read hmem
  obtain ⟨o', ho', hsame'⟩ := hkept o ho
  exact ⟨⟨o', ho', hsame'.same_id.trans hid, hsame.trans hsame'⟩, Int.le_trans hstart hclock⟩

/-- Windows and redeem calls that come from before stay checked. -/
theorem checked_same (hs : CallsChecked s) (hle : s.clock ≤ s'.clock)
    (hold : ∀ o' ∈ s'.world.market.offers.rows,
      ∃ o ∈ s.world.market.offers.rows, SameWindow o o')
    (hkept : ∀ o ∈ s.world.market.offers.rows,
      ∃ o' ∈ s'.world.market.offers.rows, SameWindow o o')
    (hredeems : ∀ redeemer read, Redeeming s'.world redeemer read →
      Redeeming s.world redeemer read) : CallsChecked s' := by
  constructor
  · intro o' ho'
    obtain ⟨o, ho, hsame⟩ := hold o' ho'
    exact (hs.windows o ho).of_same hsame
  · intro redeemer read hmem
    exact checked_kept hs hkept (hredeems redeemer read hmem) hle

theorem checked_step (hw : WorldSound s.world) (hs : CallsChecked s)
    (h : timedStep s a = some s') : CallsChecked s' := by
  obtain ⟨hstep, hclock⟩ := timedStep_eq_some h
  have hle : s.clock ≤ s'.clock := by
    rw [hclock]
    exact Int.le_add_of_nonneg_right (Int.natCast_nonneg _)
  generalize ha : readingClock (s.clock+a.delay) a.action = act at hstep
  have hpickup := step_pickup hw hstep
  generalize hworld : s'.world = world at hpickup
  cases hpickup with
  | quiet hquiet =>
    rw [← hworld] at hquiet
    exact checked_same hs hle hquiet.framed.offers_old hquiet.framed.offers_kept hquiet.redeems
  | @checked redeemer id now read hcheck =>
    have hnow := readingClock_redeem ha
    have hread := checkedRead_of_check hcheck
    constructor
    · rw [hworld]
      exact hs.windows
    · rw [hworld]
      intro redeemer' read' hmem
      rcases List.mem_cons.mp hmem with he | hmem
      · cases he
        refine ⟨⟨read.offer, hread.offer, hread.offer_id, .refl _⟩, ?_⟩
        rw [hclock, ← hnow]
        exact hread.started
      · exact checked_kept hs (fun o ho => ⟨o, ho, .refl o⟩) hmem hle
  | @offerCreated merchantId dto freshId now bagTemplate _ hwindow hfresh hmarket htasks =>
    rw [← hworld] at hmarket htasks
    constructor
    · rw [hmarket]
      intro o ho
      rcases Table.mem_insertNew.mp ho with ho | ⟨rfl, _⟩
      · exact hs.windows o ho
      · exact accepted_of_validate hwindow bagTemplate freshId
    · rw [hmarket]
      intro redeemer read hmem
      have hold : Redeeming s.world redeemer read := by
        unfold Redeeming
        rwa [← htasks]
      exact checked_kept hs (fun o ho => ⟨o, Table.mem_insertNew.mpr (Or.inl ho), .refl o⟩)
        hold hle
  | @redeemed index input redeemer read r o _ htask hid hstatus hres hoffer hoffers houtbox htasks =>
    rw [← hworld] at hoffers htasks
    have hwindows := windows_of_replaces hoffers ⟨rfl, rfl, rfl, rfl⟩
    refine checked_same hs hle hwindows.2 hwindows.1 ?_
    intro redeemer' read' hmem
    unfold Redeeming at hmem
    rw [htasks] at hmem
    exact List.mem_of_mem_eraseIdx hmem

theorem checked_of_reachable {ok : TimedWorld → TimedAction → Prop}
    (h : Reachable timedStep ok TimedInitial s) : CallsChecked s := by
  refine h.invariant_of (J := fun s => WorldSound s.world) (fun _ hr => sound_of_timed hr) ?_ ?_
  · intro s hi
    constructor
    · simp [hi.offers]
    · simp [Redeeming, hi.tasks]
  · intro s a s' hw _ hs _ hstep
    exact checked_step hw hs hstep

end Invariant

section Redemptions

variable {s s' : TimedWorld} {a : TimedAction} {m m' : Market}

/-- Reservations that one step has made redeemed are collected in their windows. -/
def RedeemsInWindow (m m' : Market) : Prop :=
  ∀ r ∈ m'.reservations.rows, r.status = .redeemed → r ∉ m.reservations.rows →
    CollectedInWindow m' r

theorem CollectedInWindow.kept {r : Reservation} (h : CollectedInWindow m r)
    (hkept : ∀ o ∈ m.offers.rows, ∃ o' ∈ m'.offers.rows, SameWindow o o') :
    CollectedInWindow m' r := by
  obtain ⟨o, ho, hid, t, ht, hstart, hend⟩ := h
  obtain ⟨o', ho', hsame⟩ := hkept o ho
  refine ⟨o', ho', hsame.same_id.trans hid, t, ht, ?_, ?_⟩
  · rw [hsame.pickupStartAt]
    exact hstart
  · rw [hsame.pickupEndAt]
    exact hend

/-- The reservation that a redeem call has read still belongs to its offer. -/
theorem offerId_of_read {redeemer : Redeemer} {read : RedeemRead} {r : Reservation}
    (hw : WorldSound s.world) (hmem : Redeeming s.world redeemer read)
    (hr : r ∈ s.world.market.reservations.rows) (hid : r.id = read.reservation.id) :
    r.offerId = read.reservation.offerId := by
  have hsound : ReadSound s.world.market read := hw.tasks _ hmem
  obtain ⟨q, hq, hqid, hoffer, _⟩ := hsound
  rw [← s.world.market.reservations.eq_of_key_eq hq hr (hqid.trans hid.symm)]
  exact hoffer

/-- A redemption written within the window of its call is within the stored window. -/
theorem collected_of_inTime {redeemer : Redeemer} {read : RedeemRead} {r : Reservation}
    (hs : CallsChecked s) (hw : WorldSound s.world) (hmem : Redeeming s.world redeemer read)
    (hr : r ∈ s.world.market.reservations.rows) (hid : r.id = read.reservation.id)
    (hkept : ∀ o ∈ s.world.market.offers.rows, ∃ o' ∈ m'.offers.rows, SameWindow o o')
    {now : ℤ} (hclock : s.clock ≤ now) (hend : now ≤ read.offer.pickupEndAt) :
    CollectedInWindow m' (markRedeemed redeemer now r) := by
  obtain ⟨⟨o, ho, hoid, hsame⟩, hstart⟩ := checked_kept hs hkept hmem hclock
  have hoffer := offerId_of_read hw hmem hr hid
  refine ⟨o, ho, hoid.trans hoffer.symm, now, rfl, ?_, ?_⟩
  · rw [hsame.pickupStartAt]
    exact hstart
  · rw [hsame.pickupEndAt]
    exact hend

/-- What a step that redeems in time adds is collected in its window. -/
theorem redeemsInWindow_of_inTime (hw : WorldSound s.world) (hs : CallsChecked s)
    (h : timedStep s a = some s') (htime : InTime s a) :
    RedeemsInWindow s.world.market s'.world.market := by
  obtain ⟨hstep, hclock⟩ := timedStep_eq_some h
  have hle : s.clock ≤ s.clock+a.delay := Int.le_add_of_nonneg_right (Int.natCast_nonneg _)
  generalize ha : readingClock (s.clock+a.delay) a.action = act at hstep
  have hpickup := step_pickup hw hstep
  generalize hworld : s'.world = world at hpickup
  intro q hq hstatus hnew
  cases hpickup with
  | quiet hquiet => exact absurd ((hquiet.framed.collected q hstatus).mp hq) hnew
  | checked hcheck => exact absurd hq hnew
  | offerCreated hwindow hfresh hmarket htasks =>
    rw [hmarket] at hq
    exact absurd hq hnew
  | @redeemed index input redeemer read r o _ htask hid hconfirmed hres hoffer hoffers houtbox
      htasks =>
    obtain ⟨hnow, input', haction⟩ := readingClock_resume ha
    rcases hres.mem_iff.mp hq with rfl | ⟨hold, _⟩
    · have hend : s.clock+a.delay ≤ read.offer.pickupEndAt := by
        unfold InTime at htime
        simp only [haction, htask] at htime
        exact htime ⟨r, hres.mem_old, hid, hconfirmed⟩
      rw [hnow]
      exact collected_of_inTime hs hw (List.mem_of_getElem? htask) hres.mem_old hid
        (windows_of_replaces hoffers ⟨rfl, rfl, rfl, rfl⟩).1 hle hend
    · exact absurd hold hnew

theorem inTime_of (h : ∀ index input redeemer read, a.action = .resume index input →
    s.world.tasks[index]? = some (.redeemWrite redeemer read) →
      (∃ r ∈ s.world.market.reservations.rows, r.id = read.reservation.id ∧
        r.status = .confirmed) → s.clock+a.delay ≤ read.offer.pickupEndAt) : InTime s a := by
  unfold InTime
  split
  · rename_i index input haction
    split
    · rename_i redeemer read htask
      exact h index input redeemer read haction htask
    · trivial
  · trivial

/-- A late redemption is stored outside of its window. -/
theorem inTime_of_redeemsInWindow (hw : WorldSound s.world) (hs : CallsChecked s)
    (h : timedStep s a = some s') (hwindow : RedeemsInWindow s.world.market s'.world.market) :
    InTime s a := by
  obtain ⟨hstep, _⟩ := timedStep_eq_some h
  refine inTime_of ?_
  rintro index input redeemer read haction htask ⟨r, hr, hid, hconfirmed⟩
  have hmem : Redeeming s.world redeemer read := List.mem_of_getElem? htask
  simp only [haction, readingClock, step, htask] at hstep
  have hcases := redeemWrite_cases
    (w := { s.world with tasks := s.world.tasks.eraseIdx index }) (offer_of_read hw hmem) hstep
  rcases hcases with ⟨_, hnot⟩ | ⟨q, o, hqid, _, hres, hoid, hoffers, _, _⟩
  · exact absurd hconfirmed (hnot r hr hid)
  · have he := s.world.market.reservations.eq_of_key_eq hres.mem_old hr (hqid.trans hid.symm)
    rw [he] at hres
    have hnew : markRedeemed redeemer (s.clock+a.delay) r ∉ s.world.market.reservations.rows := by
      intro hold
      have hsame := s.world.market.reservations.eq_of_key_eq hold hr rfl
      rw [← hsame] at hconfirmed
      cases hconfirmed
    obtain ⟨o', ho', hid', t, ht, _, hend⟩ := hwindow _ hres.mem_new rfl hnew
    cases ht
    obtain ⟨⟨o₀, ho₀, hid₀, hsame⟩, _⟩ := checked_kept hs
      (windows_of_replaces hoffers ⟨rfl, rfl, rfl, rfl⟩).1 hmem (Int.le_refl _)
    have hoffer := offerId_of_read hw hmem hr hid
    have hoffer' := s'.world.market.offers.eq_of_key_eq ho' ho₀
      (hid'.trans (hoffer.trans hid₀.symm))
    rw [hoffer', hsame.pickupEndAt] at hend
    exact hend

/-- Collected reservations stay collected in their windows while every step redeems in time. -/
theorem collected_step (hw : WorldSound s.world) (hs : CallsChecked s)
    (hcollected : AllCollectedInWindow s.world.market) (h : timedStep s a = some s')
    (htime : InTime s a) : AllCollectedInWindow s'.world.market := by
  intro r hr hstatus
  by_cases hold : r ∈ s.world.market.reservations.rows
  · have hpickup := step_pickup hw (timedStep_eq_some h).1
    refine (hcollected r hold hstatus).kept ?_
    exact hpickup.offers_kept
  · exact redeemsInWindow_of_inTime hw hs h htime r hr hstatus hold

theorem collected_of_reachable (h : Reachable timedStep InTime TimedInitial s) :
    AllCollectedInWindow s.world.market := by
  refine h.invariant_of (I := fun s => AllCollectedInWindow s.world.market)
    (J := fun s => WorldSound s.world ∧ CallsChecked s)
    (fun _ hr => ⟨sound_of_timed hr, checked_of_reachable hr⟩) ?_ ?_
  · intro s hi
    simp [AllCollectedInWindow, hi.reservations]
  · intro s a s' hj _ hcollected htime hstep
    exact collected_step hj.1 hj.2 hcollected hstep htime

end Redemptions

section Settlement

variable {s : TimedWorld} {m : Market}

/-- The earning of a settleable reservation is on the day of its offer. -/
theorem anchor_day {r : Reservation} {row : SettlementLedger.Reservation}
    (hwindows : ∀ o ∈ m.offers.rows, AcceptedWindow o)
    (hcollected : r.status = .redeemed → CollectedInWindow m r)
    (hrow : settlementRow m r = some row) :
    ∃ o ∈ m.offers.rows, o.id = r.offerId ∧
      istanbulDateKey (SettlementService.settlementAnchorOf row) = o.offerDate := by
  obtain ⟨hstatus, hredeemedAt, o, ho, hid, hend⟩ := settlementRow_eq_some hrow
  refine ⟨o, ho, hid, ?_⟩
  have haccepted := hwindows o ho
  unfold SettlementService.settlementAnchorOf
  rw [hstatus, hredeemedAt, hend]
  by_cases hredeemed : r.status = .redeemed
  · obtain ⟨o', ho', hid', t, ht, hstart, hclose⟩ := hcollected hredeemed
    have he := m.offers.eq_of_key_eq ho' ho (hid'.trans hid.symm)
    rw [he] at hstart hclose
    rw [if_pos hredeemed, ht, Option.getD_some]
    exact haccepted.day hstart hclose
  · rw [if_neg hredeemed]
    exact haccepted.endDay

/-- Exactly the redemptions that are written in time are stored within their windows, and
when all of them are, collected and missed bags of an offer settle on one day. -/
theorem settles_together_when_inTime (s : TimedWorld) :
    (Reachable timedStep anyStep TimedInitial s → ∀ a s', timedStep s a = some s' →
      (RedeemsInWindow s.world.market s'.world.market ↔ InTime s a)) ∧
    (Reachable timedStep InTime TimedInitial s → SettlesTogether s.world.market) := by
  constructor
  · intro h a s' hstep
    have hw := sound_of_timed h
    have hs := checked_of_reachable h
    exact ⟨inTime_of_redeemsInWindow hw hs hstep, redeemsInWindow_of_inTime hw hs hstep⟩
  · intro h
    have hwindows := (checked_of_reachable h).windows
    have hcollected := collected_of_reachable h
    constructor
    · exact hcollected
    · intro r hr hstatus o ho hid t ht
      obtain ⟨o', ho', hid', t', ht', hstart, hend⟩ := hcollected r hr hstatus
      have he := s.world.market.offers.eq_of_key_eq ho' ho (hid'.trans hid.symm)
      rw [he] at hstart hend
      have htime : t' = t := Option.some.inj (ht'.symm.trans ht)
      rw [htime] at hstart hend
      have haccepted := hwindows o ho
      exact ⟨(haccepted.day hstart hend).trans haccepted.endDay.symm, haccepted.endDay⟩
    · intro r hr r' hr' hoffer _ _ row row' hrow hrow'
      obtain ⟨o, ho, hid, hday⟩ := anchor_day hwindows (hcollected r hr) hrow
      obtain ⟨o', ho', hid', hday'⟩ := anchor_day hwindows (hcollected r' hr') hrow'
      have he := s.world.market.offers.eq_of_key_eq ho ho'
        (hid.trans (hoffer.trans hid'.symm))
      rw [hday, hday', he]

end Settlement

section SampleRuns

/-- A clock that starts at zero. -/
def sampleTimed : TimedWorld := ⟨sampleWorld, 0⟩

/-- An offer that can be picked up until the last millisecond of its Istanbul day. -/
def lateOffer : CreateOfferDto := ⟨1, 0, 5, 10*hourMs, 21*hourMs-1⟩

/-- Two customers book and pay; the first redeem call is checked at the end of the window. -/
def untilCheck : List TimedAction :=
  ((.createOffer 1 lateOffer 1 0 :: .publish 1 1 0 :: book 1 1 0 ++ pay 1 5000 0 ++
    book 2 1 0 ++ pay 2 5000 0).map (TimedAction.mk 0)) ++
  [⟨75599999, .redeem (.consumer 1) 1 0⟩]

/-- The redemption is written a millisecond later, and the second bag is missed. -/
def lateRun : List TimedAction :=
  untilCheck ++ [⟨1, proceed 0⟩, ⟨2*3600000, .sweepNoShows 0⟩, ⟨0, proceed 0⟩]

/-- The redemption is written at once. -/
def promptRun : List TimedAction :=
  untilCheck ++ [⟨0, proceed 0⟩, ⟨2*3600000, .sweepNoShows 0⟩, ⟨0, proceed 0⟩]

def lateState : TimedWorld := after timedStep sampleTimed lateRun
def promptState : TimedWorld := after timedStep sampleTimed promptRun

/-- The first bag: its redemption is stored on the next day. -/
def lateBag : Reservation :=
  { id := 1, code := 1, userId := 1, offerId := 1, storeId := 1, qty := 1, unitPriceCents := 5000
    totalCents := 5000, status := .redeemed, cancelDeadlineAt := 8*hourMs
    redeemedAt := some (21*hourMs), redeemedBy := some (.consumer 1), createdAt := 0 }

/-- A redemption checked in the last millisecond of the window and written in the next one
is stored after the window, and settles a day later than a missed bag of the same offer. -/
theorem settles_together_counterexample :
    Reachable timedStep anyStep TimedInitial lateState ∧ ¬ SettlesTogether lateState.world.market ∧
      lateState.world.market.reservations.rows.map (fun r =>
        (settlementRow lateState.world.market r).map fun row =>
          istanbulDateKey (SettlementService.settlementAnchorOf row)) = [some 1, some 0] := by
  refine ⟨reachable_after (.start sampleWorld_initial) (by decide +kernel), ?_, by decide +kernel⟩
  intro h
  have hmem : lateBag ∈ lateState.world.market.reservations.rows := by decide +kernel
  obtain ⟨o, ho, _, t, ht, _, hend⟩ := h.inWindow lateBag hmem rfl
  have hclosed : ∀ o ∈ lateState.world.market.offers.rows, o.pickupEndAt < 21*hourMs := by
    decide +kernel
  cases ht
  exact absurd hend (Int.not_le.mpr (hclosed o ho))

theorem settles_together_when_inTime_prompt :
    (RedeemsInWindow (after timedStep sampleTimed untilCheck).world.market
        (after timedStep sampleTimed (untilCheck ++ [⟨0, proceed 0⟩])).world.market ↔
      InTime (after timedStep sampleTimed untilCheck) ⟨0, proceed 0⟩) ∧
    SettlesTogether promptState.world.market :=
  ⟨(settles_together_when_inTime (after timedStep sampleTimed untilCheck)).1
      (reachable_after (.start sampleWorld_initial) (by decide +kernel)) _ _
      (step_after (by decide +kernel)),
    (settles_together_when_inTime promptState).2
      (reachable_after_guarded (.start sampleWorld_initial) (by decide +kernel)
        (by decide +kernel))⟩

end SampleRuns

end Kurtar.PickupDays

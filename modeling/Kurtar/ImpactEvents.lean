import Kurtar.PickupFrame

/-!
# Each redemption is announced once

A redeeming transaction that wins publishes one impact event with the
quantity and the total of its reservation. The events in the outbox are thus
one for each redeemed reservation, and their quantities add up to what the
offers count as redeemed.
-/

namespace Kurtar.ImpactEvents

open KeyedTable GuardedRuns StatusTransitions IstanbulCalendar Marketplace ReservationTransactions
open MarketService MarketEffects MarketInvariant PickupFrame

/-- `ReservationRedeemedImpactV1Payload` -/
structure ImpactPayload where
  reservationId : ReservationId
  userId : UserId
  storeId : StoreId
  qty : ℤ
  totalCents : ℤ
  originalValueCentsMin : ℤ
  originalValueCentsMax : ℤ
  deriving DecidableEq

def impactPayload : OutboxEvent → Option ImpactPayload
  | .reservationRedeemedImpact reservationId userId storeId qty totalCents lowest highest =>
    some ⟨reservationId, userId, storeId, qty, totalCents, lowest, highest⟩
  | _ => none

/-- The payloads of the impact events that were published, the newest first. -/
def impactPayloads (m : Market) : List ImpactPayload := (impactEvents m).filterMap impactPayload

/-- The payload speaks of the reservation as it is stored. -/
structure Announces (p : ImpactPayload) (r : Reservation) : Prop where
  reservationId : p.reservationId = r.id
  userId : p.userId = r.userId
  storeId : p.storeId = r.storeId
  qty : p.qty = r.qty
  totalCents : p.totalCents = r.totalCents

/-- The impact events are those of the redeemed reservations, one for each. -/
structure Announced (m : Market) : Prop where
  once : ((impactPayloads m).map (·.reservationId)).Nodup
  collected : ∀ p ∈ impactPayloads m, ∃ r ∈ m.reservations.rows, r.status = .redeemed ∧
    Announces p r
  announced : ∀ r ∈ m.reservations.rows, r.status = .redeemed →
    ∃ p ∈ impactPayloads m, Announces p r
  total : ((impactPayloads m).map (·.qty)).sum =
    m.reservations.sumOn (fun r => r.status = .redeemed) (·.qty)

/-- What a redeem call has read is still what was reserved. -/
def ReadsKept (w : World) : Prop :=
  ∀ redeemer read, Redeeming w redeemer read →
    ∃ r ∈ w.market.reservations.rows, SameBag read.reservation r

/-- The payload of a redeem call. -/
def payloadOf (read : RedeemRead) : ImpactPayload where
  reservationId := read.reservation.id
  userId := read.reservation.userId
  storeId := read.reservation.storeId
  qty := read.reservation.qty
  totalCents := read.reservation.totalCents
  originalValueCentsMin := read.bagTemplate.originalValueCentsMin
  originalValueCentsMax := read.bagTemplate.originalValueCentsMax

section Steps

variable {m m' : Market} {w w' : World}

theorem impactPayloads_framed (h : Framed m m') : impactPayloads m' = impactPayloads m := by
  rw [impactPayloads, h.impact]
  rfl

theorem impactPayloads_redeemed {read : RedeemRead} {now : Instant}
    (h : m'.outbox = (publishRedeemed m read now).outbox) :
    impactPayloads m' = payloadOf read :: impactPayloads m := by
  rw [impactPayloads, impactEvents, h]
  rfl

theorem Announced.framed (h : Announced m) (hframed : Framed m m') : Announced m' := by
  have hpayloads := impactPayloads_framed hframed
  constructor
  · rw [hpayloads]
    exact h.once
  · rw [hpayloads]
    intro p hp
    obtain ⟨r, hr, hs, hannounces⟩ := h.collected p hp
    exact ⟨r, (hframed.collected r hs).mpr hr, hs, hannounces⟩
  · rw [hpayloads]
    exact fun r hr hs => h.announced r ((hframed.collected r hs).mp hr) hs
  · rw [hpayloads, h.total]
    exact (Table.sumOn_of_selected_iff hframed.collected).symm

theorem Announced.of_same (h : Announced m) (hreservations : m'.reservations = m.reservations)
    (hpayloads : impactPayloads m' = impactPayloads m) : Announced m' := by
  constructor
  · rw [hpayloads]
    exact h.once
  · rw [hpayloads, hreservations]
    exact h.collected
  · rw [hpayloads, hreservations]
    exact h.announced
  · rw [hpayloads, hreservations]
    exact h.total

theorem announces_redeemed {read : RedeemRead} {r : Reservation} {redeemer : Redeemer}
    {now : Instant} (h : SameBag read.reservation r) :
    Announces (payloadOf read) (markRedeemed redeemer now r) :=
  ⟨h.same_id.symm, h.userId.symm, h.storeId.symm, h.qty.symm, h.totalCents.symm⟩

/-- A redemption that took effect is announced with what its call had read. -/
theorem Announced.redeemed {redeemer : Redeemer} {read : RedeemRead} {now : Instant}
    {r : Reservation} (h : Announced m) (hsame : SameBag read.reservation r)
    (hstatus : r.status = .confirmed)
    (hreservations : Table.Replaces m.reservations m'.reservations r (markRedeemed redeemer now r))
    (houtbox : m'.outbox = (publishRedeemed m read now).outbox) : Announced m' := by
  have hpayloads := impactPayloads_redeemed houtbox
  have hother : ∀ s ∈ m.reservations.rows, s.status = .redeemed → s.id ≠ r.id := by
    intro s hs hredeemed hid
    rw [m.reservations.eq_of_key_eq hs hreservations.mem_old hid, hstatus] at hredeemed
    cases hredeemed
  constructor
  · rw [hpayloads, List.map_cons]
    refine List.nodup_cons.mpr ⟨?_, h.once⟩
    intro hmem
    obtain ⟨p, hp, hpid⟩ := List.mem_map.mp hmem
    obtain ⟨s, hs, hredeemed, hannounces⟩ := h.collected p hp
    exact hother s hs hredeemed
      (hannounces.reservationId.symm.trans (hpid.trans hsame.same_id.symm))
  · rw [hpayloads]
    intro p hp
    rcases List.mem_cons.mp hp with heq | hp
    · rw [heq]
      exact ⟨_, hreservations.mem_new, rfl, announces_redeemed hsame⟩
    · obtain ⟨s, hs, hredeemed, hannounces⟩ := h.collected p hp
      exact ⟨s, hreservations.mem_of_ne hs (hother s hs hredeemed), hredeemed, hannounces⟩
  · rw [hpayloads]
    intro s hs hredeemed
    rcases hreservations.mem_iff.mp hs with heq | ⟨hs, _⟩
    · rw [heq]
      exact ⟨_, List.mem_cons_self, announces_redeemed hsame⟩
    · obtain ⟨p, hp, hannounces⟩ := h.announced s hs hredeemed
      exact ⟨p, List.mem_cons_of_mem _ hp, hannounces⟩
  · have hsum := hreservations.sumOn_eq (fun r => r.status = .redeemed) (·.qty)
    have hnew : (markRedeemed redeemer now r).status = .redeemed := rfl
    have hold : r.status ≠ .redeemed := by
      rw [hstatus]
      decide
    have hqty : (markRedeemed redeemer now r).qty = read.reservation.qty := hsame.qty
    rw [if_pos hnew, if_neg hold, hqty] at hsum
    rw [hpayloads, List.map_cons, List.sum_cons, h.total, hsum]
    change read.reservation.qty + _ = _
    omega

/-- What one step of the reservation side does to reads and announcements. -/
structure ImpactStep (w w' : World) : Prop where
  reads : ReadsKept w → ReadsKept w'
  announced : ReadsKept w → Announced w.market → Announced w'.market
  /-- At most one event is published. -/
  published : impactPayloads w'.market = impactPayloads w.market ∨
    ∃ p, impactPayloads w'.market = p :: impactPayloads w.market

theorem ReadsKept.of_kept (h : ReadsKept w)
    (hbags : ∀ r ∈ w.market.reservations.rows, ∃ r' ∈ w'.market.reservations.rows, SameBag r r')
    (hredeems : ∀ redeemer read, Redeeming w' redeemer read → Redeeming w redeemer read) :
    ReadsKept w' := by
  intro redeemer read hmem
  obtain ⟨r, hr, hsame⟩ := h redeemer read (hredeems redeemer read hmem)
  obtain ⟨r', hr', hsame'⟩ := hbags r hr
  exact ⟨r', hr', hsame.trans hsame'⟩

theorem impactStep {a : Action} (hw : WorldSound w) (hstep : step w a = some w') :
    ImpactStep w w' := by
  have hpickup := step_pickup hw hstep
  cases hpickup with
  | quiet hquiet =>
    exact ⟨fun h => h.of_kept hquiet.framed.bags_kept hquiet.redeems,
      fun _ h => h.framed hquiet.framed, .inl (impactPayloads_framed hquiet.framed)⟩
  | @checked redeemer id now read hcheck =>
    refine ⟨?_, fun _ h => h, .inl rfl⟩
    intro h redeemer' read' hmem
    rcases List.mem_cons.mp hmem with heq | hmem
    · cases heq
      exact ⟨read.reservation, (checkedRead_of_check hcheck).reservation, .refl _⟩
    · exact h redeemer' read' hmem
  | offerCreated hwindow hfresh hmarket htasks =>
    have hreservations : w'.market.reservations = w.market.reservations := by rw [hmarket]
    have hpayloads : impactPayloads w'.market = impactPayloads w.market := by
      rw [impactPayloads, hmarket]
      rfl
    refine ⟨?_, fun _ h => h.of_same hreservations hpayloads, .inl hpayloads⟩
    intro h
    refine h.of_kept ?_ ?_
    · rw [hreservations]
      exact fun r hr => ⟨r, hr, .refl r⟩
    · intro redeemer read hmem
      rwa [Redeeming, htasks] at hmem
  | @redeemed index input redeemer read r o _ htask hid hstatus hreservations hoffer hoffers houtbox
      htasks =>
    refine ⟨?_, ?_, .inr ⟨payloadOf read, impactPayloads_redeemed houtbox⟩⟩
    · intro h
      refine h.of_kept (bags_of_replaces hreservations ⟨rfl, rfl, rfl, rfl, rfl, rfl⟩) ?_
      intro redeemer' read' hmem
      rw [Redeeming, htasks] at hmem
      exact List.mem_of_mem_eraseIdx hmem
    · intro h hannounced
      obtain ⟨s, hs, hsame⟩ := h redeemer read (List.mem_of_getElem? htask)
      have heq := w.market.reservations.eq_of_key_eq hs hreservations.mem_old
        (hsame.same_id.trans hid.symm)
      exact hannounced.redeemed (heq ▸ hsame) hstatus hreservations houtbox

end Steps

section Runs

variable {ok : World → Action → Prop} {w : World}

/-- Nothing was published yet. -/
def Unannounced (w : World) : Prop := Initial w ∧ w.market.outbox = []

theorem announced_of_empty {m : Market} (hreservations : m.reservations = Table.empty)
    (houtbox : m.outbox = []) : Announced m := by
  have hpayloads : impactPayloads m = [] := by
    rw [impactPayloads, impactEvents, houtbox]
    rfl
  constructor
  · rw [hpayloads]
    exact List.nodup_nil
  · rw [hpayloads]
    exact fun p hp => absurd hp List.not_mem_nil
  · rw [hreservations]
    exact fun r hr => absurd hr List.not_mem_nil
  · rw [hpayloads, hreservations]
    rfl

/-- The redeemed reservations of every run are announced. -/
theorem announced_of_reachable (h : Reachable step ok Unannounced w) :
    WorldSound w ∧ ReadsKept w ∧ Announced w.market := by
  refine h.invariant (I := fun w => WorldSound w ∧ ReadsKept w ∧ Announced w.market) ?_ ?_
  · intro w hw
    refine ⟨sound_initial hw.1, ?_, announced_of_empty hw.1.reservations hw.2⟩
    intro redeemer read hmem
    rw [Redeeming, hw.1.tasks] at hmem
    cases hmem
  · intro w a w' hI _ hstep
    obtain ⟨hw, hreads, hannounced⟩ := hI
    have himpact := impactStep hw hstep
    exact ⟨(step_steps hw hstep).sound, himpact.reads hreads,
      himpact.announced hreads hannounced⟩

/-- What the offers count as redeemed is what their redeemed reservations add up to. -/
theorem sum_qtyRedeemed {m : Market} (hc : Consistent m) :
    (m.offers.rows.map (·.qtyRedeemed)).sum =
      m.reservations.sumOn (fun r => r.status = .redeemed) (·.qty) := by
  have hcover : ∀ r ∈ m.reservations.rows, r.status = .redeemed →
      r.offerId ∈ m.offers.rows.map (·.id) := by
    intro r hr _
    obtain ⟨o, ho, hid⟩ := hc.has_offer r hr
    exact List.mem_map.mpr ⟨o, ho, hid⟩
  rw [← m.reservations.sumOn_fiberwise _ (·.qty) (·.offerId) m.offers.keys_nodup hcover,
    List.map_map]
  congr 1
  apply List.map_congr_left
  intro o ho
  refine (hc.stocked o ho).redeemed_eq.trans (Table.sumOn_congr rfl ?_)
  intro r _
  simp only [and_comm]

end Runs

end Kurtar.ImpactEvents

import Kurtar.MarketInvariant

/-!
# The books of refunds

For each payment the refund calls under way, the claims to give back and the
refunds the provider has accepted are counted together: there is at most one
of them, and none before the reservation was cancelled or its payment claimed.
Every effect on the rows and every statement of a refund keeps these books.
-/

namespace Kurtar.RefundBooks

open KeyedTable GuardedRuns StatusTransitions IstanbulCalendar Marketplace ReservationTransactions
open OfferLifecycle MarketService MarketEffects MarketConsistency MarketProcedures

section JointRows

/-- What one effect does to a reservation together with its payment. -/
inductive JointMove : Reservation → Payment → Reservation → Payment → Prop
  | same (r : Reservation) (p : Payment) : JointMove r p r p
  | moved {r r' : Reservation} {p p' : Payment} (h : Move r p r' p') : JointMove r p r' p'
  | cancelled {r : Reservation} {p : Payment} (hr : r.status = .confirmed) (hp : p.status = .paid) :
      JointMove r p (markCancelledByMerchant r) p

variable {c : Cause} {m m' : Market} {r r' : Reservation} {p p' : Payment}

theorem JointMove.keeps (h : JointMove r p r' p') : r'.id = r.id ∧
    p'.reservationId = p.reservationId ∧ p'.merchantOid = p.merchantOid ∧
      p'.amountCents = p.amountCents := by
  cases h with
  | same => exact ⟨rfl, rfl, rfl, rfl⟩
  | moved hmove => exact ⟨hmove.keeps_reservation.1, hmove.keeps_payment⟩
  | cancelled => exact ⟨rfl, rfl, rfl, rfl⟩

/-- A pair of rows that has just been inserted. -/
structure FreshPair (m : Market) (p' : Payment) : Prop where
  intent : p'.status = .intent
  fresh : ∀ q ∈ m.payments.rows,
    q.reservationId ≠ p'.reservationId ∧ q.merchantOid ≠ p'.merchantOid

/-- A reservation and its payment moved together, or both are new. -/
theorem joint_origin (hc : Consistent m) (h : Effect m c m') (hr : r' ∈ m'.reservations.rows)
    (hp : p' ∈ m'.payments.rows) (hid : p'.reservationId = r'.id) :
    (∃ r ∈ m.reservations.rows, ∃ p ∈ m.payments.rows, p.reservationId = r.id ∧
      JointMove r p r' p') ∨ FreshPair m p' := by
  cases h with
  | idle _ hreservations hpayments =>
    rw [hreservations] at hr
    rw [hpayments] at hp
    exact Or.inl ⟨r', hr, p', hp, hid, .same r' p'⟩
  | offerMoved _ _ _ hreservations hpayments =>
    rw [hreservations] at hr
    rw [hpayments] at hp
    exact Or.inl ⟨r', hr, p', hp, hid, .same r' p'⟩
  | offerCreated _ _ _ _ _ hreservations hpayments =>
    rw [hreservations] at hr
    rw [hpayments] at hp
    exact Or.inl ⟨r', hr, p', hp, hid, .same r' p'⟩
  | created _ _ _ _ hintent hpid hfresh hfreshPayment _ hreservations hpayments =>
    rw [hreservations] at hr
    rw [hpayments] at hp
    rcases Table.mem_insertNew.mp hp with hp | ⟨rfl, _⟩
    · rcases Table.mem_insertNew.mp hr with hr | ⟨rfl, _⟩
      · exact Or.inl ⟨r', hr, p', hp, hid, .same r' p'⟩
      · exact absurd (hid.trans hpid.symm) (hfreshPayment p' hp).1
    · exact Or.inr ⟨hintent, hfreshPayment⟩
  | moved hmove hpid _ hreservations hpayments =>
    have hkeys := hmove.keeps_reservation.1
    have hkeyp := hmove.keeps_payment.1
    rcases hreservations.mem_iff.mp hr with rfl | ⟨hr, hne⟩
    · rcases hpayments.mem_iff.mp hp with rfl | ⟨_, hne⟩
      · exact Or.inl ⟨_, hreservations.mem_old, _, hpayments.mem_old, hpid, .moved hmove⟩
      · exact absurd (by rw [hid, hkeys, hpid]) hne
    · rcases hpayments.mem_iff.mp hp with rfl | ⟨hp, _⟩
      · exact absurd (by rw [← hid, hkeyp, hpid]) hne
      · exact Or.inl ⟨r', hr, p', hp, hid, .same r' p'⟩
  | @cancelled tx hsound hdone =>
    obtain ⟨r, hrow, rfl⟩ := mem_commit_reservations.mp hr
    obtain ⟨p, hprow, rfl⟩ := mem_commit_payments.mp hp
    rw [(afterPayment_keeps tx p).1, (afterReservation_keeps tx r).1] at hid
    have hfailed := failed_iff_expired hsound hdone hrow
    have hj := hc.jointly_of hrow hprow hid
    refine Or.inl ⟨r, hrow, p, hprow, hid, ?_⟩
    unfold afterPayment
    rw [hid]
    rcases afterReservation_cases hsound hrow with ⟨h, he⟩ | ⟨h, he⟩ | ⟨h, he⟩
    · have hpending := (hsound.expired_rows r h).2.2.1
      rw [he, if_pos (hfailed.mpr h)]
      exact .moved (.expired hpending (hc.liveIntent_of_pending hrow hprow hid hpending))
    · have hconfirmed := (hsound.cancelled_rows r h).2.2
      have hnot : r ∉ tx.expired := by
        intro hexpired
        rw [(hsound.expired_rows r hexpired).2.2.1] at hconfirmed
        cases hconfirmed
      rw [hconfirmed] at hj
      rw [he, if_neg fun h => hnot (hfailed.mp h)]
      exact .cancelled hconfirmed hj
    · rw [he, if_neg fun hf => h (List.mem_append_left _ (hfailed.mp hf))]
      exact .same r p

end JointRows

section Books

/-- What a procedure under way still has to do about a refund. -/
inductive RefundWork where
  /-- A call the provider has not been sent. -/
  | due (call : RefundCall)
  /-- A call the provider has accepted, to be recorded. -/
  | accepted (call : RefundCall)
  /-- A claim to give back after the provider refused. -/
  | refused (reservationId : ReservationId)
  deriving DecidableEq

def RefundWork.reservationId : RefundWork → ReservationId
  | .due call => call.reservationId
  | .accepted call => call.reservationId
  | .refused reservationId => reservationId

/-- Does the work stand for a refund that was not accepted yet? -/
def RefundWork.unsettled (id : ReservationId) : RefundWork → Bool
  | .due call => call.reservationId = id
  | .accepted _ => false
  | .refused reservationId => reservationId = id

/-- The call describes the stored payment. -/
def Describes (call : RefundCall) (p : Payment) : Prop :=
  p.reservationId = call.reservationId ∧ p.merchantOid = call.merchantOid ∧
    p.amountCents = call.amountCents

/-- Refunds of a payment under way, to be given back or accepted. -/
def refundCount (works : List RefundWork) (accepted : List (MerchantOid × ℤ)) (p : Payment) : ℕ :=
  works.countP (·.unsettled p.reservationId)+accepted.countP fun entry => entry.1 = p.merchantOid

/-- The joint states in which a refund may be under way or accepted. -/
def refundable (r : ReservationStatus) (p : PaymentStatus) : Prop :=
  r = .cancelledByUser ∨ r = .cancelledByMerchant ∨ p = .refundPending ∨ p = .refunded

structure Balanced (m : Market) (works : List RefundWork)
    (accepted : List (MerchantOid × ℤ)) : Prop where
  once : ∀ p ∈ m.payments.rows, refundCount works accepted p ≤ 1
  none_yet : ∀ r ∈ m.reservations.rows, ∀ p ∈ m.payments.rows, p.reservationId = r.id →
    ¬ refundable r.status p.status → refundCount works accepted p = 0
  recorded : ∀ p ∈ m.payments.rows, p.status = .refunded →
    (p.merchantOid, p.amountCents) ∈ accepted
  of_payment : ∀ work ∈ works, ∃ p ∈ m.payments.rows, p.reservationId = work.reservationId
  described : ∀ call, .due call ∈ works ∨ .accepted call ∈ works →
    ∃ p ∈ m.payments.rows, Describes call p
  taken : ∀ call, .accepted call ∈ works → (call.merchantOid, call.amountCents) ∈ accepted
  rows : ∀ entry ∈ accepted, ∃ p ∈ m.payments.rows, (p.merchantOid, p.amountCents) = entry

variable {c : Cause} {m m' : Market} {works works' : List RefundWork}
  {accepted : List (MerchantOid × ℤ)} {r r' : Reservation} {p p' : Payment} {call : RefundCall}

theorem refundCount_cons (work : RefundWork) (works : List RefundWork)
    (accepted : List (MerchantOid × ℤ)) (p : Payment) :
    refundCount (work :: works) accepted p =
      refundCount works accepted p+(if work.unsettled p.reservationId then 1 else 0) := by
  rw [refundCount, refundCount, List.countP_cons]
  omega

theorem refundCount_congr (hid : p'.reservationId = p.reservationId)
    (hoid : p'.merchantOid = p.merchantOid) :
    refundCount works accepted p' = refundCount works accepted p := by
  rw [refundCount, refundCount, hid, hoid]

/-- A pair of rows leaves the refundable states only when a claim is given back. -/
theorem refundable_kept (h : JointMove r p r' p')
    (hback : p.status = .refundPending → p'.status ≠ .paid) (hs : refundable r.status p.status) :
    refundable r'.status p'.status := by
  cases h with
  | same => exact hs
  | cancelled hr hp => exact Or.inr (Or.inl rfl)
  | moved hmove =>
    cases hmove with
    | refundReleased hp => exact absurd rfl (hback hp)
    | refundClaimed _ _ => exact Or.inr (Or.inr (Or.inl rfl))
    | refunded _ _ => exact Or.inr (Or.inr (Or.inr rfl))
    | cancelled _ _ => exact Or.inl rfl
    | withdrawn _ _ => exact Or.inl rfl
    | confirmed hr hp | expired hr hp =>
      exfalso
      unfold liveIntent at hp
      rcases hp with hp | hp <;> simp [refundable, hr, hp] at hs
    | redeemed hr hp | missed hr hp => simp [refundable, hr, hp] at hs

namespace Balanced

/-- Dropping work keeps the books. -/
theorem fewer (hb : Balanced m works accepted) (hsub : works'.Subperm works) :
    Balanced m works' accepted := by
  have hle : ∀ p, refundCount works' accepted p ≤ refundCount works accepted p := by
    intro p
    have hcount := hsub.countP_le (·.unsettled p.reservationId)
    rw [refundCount, refundCount]
    omega
  have hmem : ∀ work ∈ works', work ∈ works := fun _ hwork => hsub.subset hwork
  refine ⟨?_, ?_, hb.recorded, ?_, ?_, ?_, hb.rows⟩
  · intro p hp
    exact (hle p).trans (hb.once p hp)
  · intro r hr p hp hid hs
    have hzero := hb.none_yet r hr p hp hid hs
    have hbound := hle p
    omega
  · intro work hwork
    exact hb.of_payment work (hmem work hwork)
  · intro call hcall
    exact hb.described call (hcall.imp (hmem _) (hmem _))
  · intro call hcall
    exact hb.taken call (hmem _ hcall)

/-- An effect keeps the books if what it records was accepted, and if nothing is
left of a claim it gives back. -/
theorem effect (hb : Balanced m works accepted) (hc : Consistent m) (h : Effect m c m')
    (hrecorded : ∀ p' ∈ m'.payments.rows, p'.status = .refunded →
      (p'.merchantOid, p'.amountCents) ∈ accepted)
    (hback : ∀ p ∈ m.payments.rows, ∀ p' ∈ m'.payments.rows,
      p'.reservationId = p.reservationId → p.status = .refundPending → p'.status = .paid →
        refundCount works accepted p = 0) : Balanced m' works accepted := by
  have hc' := effect_consistent hc h
  have horigin : ∀ r' ∈ m'.reservations.rows, ∀ p' ∈ m'.payments.rows, p'.reservationId = r'.id →
      (∃ r ∈ m.reservations.rows, ∃ p ∈ m.payments.rows, p.reservationId = r.id ∧
        JointMove r p r' p') ∨ refundCount works accepted p' = 0 := by
    intro r' hr' p' hp' hid
    refine (joint_origin hc h hr' hp' hid).imp_right fun hfresh => ?_
    rw [refundCount, Nat.add_eq_zero_iff, List.countP_eq_zero, List.countP_eq_zero]
    constructor
    · intro work hwork
      obtain ⟨q, hq, hqid⟩ := hb.of_payment work hwork
      have hne := (hfresh.fresh q hq).1
      rw [hqid] at hne
      cases work <;> simp_all [RefundWork.unsettled, RefundWork.reservationId]
    · intro entry hentry
      obtain ⟨q, hq, rfl⟩ := hb.rows entry hentry
      simpa using (hfresh.fresh q hq).2
  refine ⟨?_, ?_, hrecorded, ?_, ?_, hb.taken, ?_⟩
  · intro p' hp'
    obtain ⟨r', hr', hid⟩ := hc'.has_reservation p' hp'
    rcases horigin r' hr' p' hp' hid.symm with ⟨r, _, p, hp, _, hmove⟩ | hzero
    · rw [refundCount_congr hmove.keeps.2.1 hmove.keeps.2.2.1]
      exact hb.once p hp
    · omega
  · intro r' hr' p' hp' hid hs
    rcases horigin r' hr' p' hp' hid with ⟨r, hr, p, hp, hpid, hmove⟩ | hzero
    · rw [refundCount_congr hmove.keeps.2.1 hmove.keeps.2.2.1]
      by_cases hgiven : p.status = .refundPending ∧ p'.status = .paid
      · exact hback p hp p' hp' hmove.keeps.2.1 hgiven.1 hgiven.2
      · apply hb.none_yet r hr p hp hpid
        intro hold
        exact hs (refundable_kept hmove (fun h₁ h₂ => hgiven ⟨h₁, h₂⟩) hold)
    · exact hzero
  · intro work hwork
    obtain ⟨p, hp, hid⟩ := hb.of_payment work hwork
    obtain ⟨p', hp', hsucc⟩ := payment_kept h hp
    exact ⟨p', hp', hsucc.reservationId.trans hid⟩
  · intro call hcall
    obtain ⟨p, hp, hid, hoid, hamount⟩ := hb.described call hcall
    obtain ⟨p', hp', hsucc⟩ := payment_kept h hp
    exact ⟨p', hp', hsucc.reservationId.trans hid, hsucc.merchantOid.trans hoid,
      hsucc.amountCents.trans hamount⟩
  · intro entry hentry
    obtain ⟨p, hp, rfl⟩ := hb.rows entry hentry
    obtain ⟨p', hp', hsucc⟩ := payment_kept h hp
    exact ⟨p', hp', by rw [hsucc.merchantOid, hsucc.amountCents]⟩

/-- A new call for a payment without any refund so far. -/
theorem add_due (hb : Balanced m works accepted) (hr : r ∈ m.reservations.rows)
    (hp : p ∈ m.payments.rows) (hid : p.reservationId = r.id)
    (hs : refundable r.status p.status) (hcall : Describes call p)
    (hzero : refundCount works accepted p = 0) : Balanced m (.due call :: works) accepted := by
  have hother : ∀ q ∈ m.payments.rows, q ≠ p → (RefundWork.due call).unsettled q.reservationId =
      false := by
    intro q hq hne
    have hkey : call.reservationId ≠ q.reservationId := by
      rw [← hcall.1]
      exact fun h => hne (m.payments.eq_of_key_eq hq hp h.symm)
    simp [RefundWork.unsettled, hkey]
  refine ⟨?_, ?_, hb.recorded, ?_, ?_, ?_, hb.rows⟩
  · intro q hq
    rw [refundCount_cons]
    by_cases he : q = p
    · rw [he, hzero]
      split_ifs <;> omega
    · have hbound := hb.once q hq
      rw [hother q hq he]
      simpa using hbound
  · intro s hsr q hq hqid hnot
    have he : q ≠ p := by
      rintro rfl
      rw [m.reservations.eq_of_key_eq hsr hr (hqid.symm.trans hid)] at hnot
      exact hnot hs
    rw [refundCount_cons, hother q hq he]
    simpa using hb.none_yet s hsr q hq hqid hnot
  · intro work hwork
    rcases List.mem_cons.mp hwork with rfl | hwork
    · exact ⟨p, hp, hcall.1⟩
    · exact hb.of_payment work hwork
  · intro other hother
    simp only [List.mem_cons, reduceCtorEq, false_or] at hother
    rcases hother with (heq | hmem) | hmem
    · cases heq
      exact ⟨p, hp, hcall⟩
    · exact hb.described other (Or.inl hmem)
    · exact hb.described other (Or.inr hmem)
  · intro other hother
    exact hb.taken other (by simpa using hother)

/-- New calls for several payments without any refund so far. -/
theorem add_dues (hb : Balanced m works accepted) {calls : List RefundCall}
    (hnodup : (calls.map (·.reservationId)).Nodup)
    (hcalls : ∀ call ∈ calls, ∃ r ∈ m.reservations.rows, ∃ p ∈ m.payments.rows,
      p.reservationId = r.id ∧ refundable r.status p.status ∧ Describes call p ∧
        refundCount works accepted p = 0) :
    Balanced m (calls.map .due ++ works) accepted := by
  induction calls with
  | nil => exact hb
  | cons call calls ih =>
    obtain ⟨hfresh, hnodup⟩ := List.nodup_cons.mp hnodup
    have hrest := ih hnodup fun other hother => hcalls other (List.mem_cons_of_mem _ hother)
    obtain ⟨r, hr, p, hp, hid, hs, hcall, hzero⟩ := hcalls call List.mem_cons_self
    refine hrest.add_due hr hp hid hs hcall ?_
    have hnone : (calls.map RefundWork.due).countP (·.unsettled p.reservationId) = 0 := by
      rw [List.countP_eq_zero]
      intro work hwork
      obtain ⟨other, hother, rfl⟩ := List.mem_map.mp hwork
      have hne : other.reservationId ≠ call.reservationId := by
        intro heq
        exact hfresh (List.mem_map.mpr ⟨other, hother, heq⟩)
      simpa [RefundWork.unsettled, hcall.1] using hne
    rw [refundCount, List.countP_append, hnone, Nat.zero_add]
    exact hzero

/-- Only reservations and payments matter. -/
theorem congr (hb : Balanced m works accepted) (hreservations : m'.reservations = m.reservations)
    (hpayments : m'.payments = m.payments) : Balanced m' works accepted := by
  obtain ⟨h₁, h₂, h₃, h₄, h₅, h₆, h₇⟩ := hb
  refine ⟨?_, ?_, ?_, ?_, ?_, h₆, ?_⟩
  all_goals simp only [hreservations, hpayments]
  all_goals assumption

/-- The provider accepts a call. -/
theorem accept (hb : Balanced m (.due call :: works) accepted) (hc : Consistent m) :
    Balanced m (.accepted call :: works)
      ((call.merchantOid, call.amountCents) :: accepted) := by
  obtain ⟨p, hp, hcall⟩ := hb.described call (Or.inl List.mem_cons_self)
  have hcount : ∀ q ∈ m.payments.rows, refundCount (.accepted call :: works)
      ((call.merchantOid, call.amountCents) :: accepted) q =
        refundCount (.due call :: works) accepted q := by
    intro q hq
    have hsame : call.merchantOid = q.merchantOid ↔ call.reservationId = q.reservationId := by
      rw [← hcall.1, ← hcall.2.1]
      constructor
      · intro h
        rw [hc.oid_unique p hp q hq h]
      · intro h
        rw [m.payments.eq_of_key_eq hp hq h]
    simp only [refundCount, List.countP_cons, RefundWork.unsettled, decide_eq_true_eq, hsame]
    simp only [Bool.false_eq_true, if_false]
    omega
  have hmem : ∀ other, RefundWork.due other ∈ RefundWork.accepted call :: works ∨
      RefundWork.accepted other ∈ RefundWork.accepted call :: works →
        RefundWork.due other ∈ RefundWork.due call :: works ∨
          RefundWork.accepted other ∈ RefundWork.due call :: works := by
    intro other hother
    simp only [List.mem_cons, reduceCtorEq, false_or, RefundWork.accepted.injEq,
      RefundWork.due.injEq] at hother ⊢
    tauto
  refine ⟨?_, ?_, ?_, ?_, ?_, ?_, ?_⟩
  · intro q hq
    rw [hcount q hq]
    exact hb.once q hq
  · intro s hs q hq hid hnot
    rw [hcount q hq]
    exact hb.none_yet s hs q hq hid hnot
  · intro q hq hrefunded
    exact List.mem_cons_of_mem _ (hb.recorded q hq hrefunded)
  · intro work hwork
    rcases List.mem_cons.mp hwork with rfl | hwork
    · exact ⟨p, hp, hcall.1⟩
    · exact hb.of_payment work (List.mem_cons_of_mem _ hwork)
  · intro other hother
    exact hb.described other (hmem other hother)
  · intro other hother
    rcases List.mem_cons.mp hother with heq | hother
    · cases heq
      exact List.mem_cons_self
    · exact List.mem_cons_of_mem _ (hb.taken other (List.mem_cons_of_mem _ hother))
  · intro entry hentry
    rcases List.mem_cons.mp hentry with rfl | hentry
    · exact ⟨p, hp, by rw [hcall.2.1, hcall.2.2]⟩
    · exact hb.rows entry hentry

/-- The provider refuses a call whose claim is to be given back. -/
theorem refuse (hb : Balanced m (.due call :: works) accepted) :
    Balanced m (.refused call.reservationId :: works) accepted := by
  have hcount : ∀ q, refundCount (.refused call.reservationId :: works) accepted q =
      refundCount (.due call :: works) accepted q := by
    intro q
    rw [refundCount_cons, refundCount_cons]
    rfl
  refine ⟨?_, ?_, hb.recorded, ?_, ?_, ?_, hb.rows⟩
  · intro q hq
    rw [hcount]
    exact hb.once q hq
  · intro s hs q hq hid hnot
    rw [hcount]
    exact hb.none_yet s hs q hq hid hnot
  · intro work hwork
    rcases List.mem_cons.mp hwork with rfl | hwork
    · exact hb.of_payment (.due call) List.mem_cons_self
    · exact hb.of_payment work (List.mem_cons_of_mem _ hwork)
  · intro other hother
    apply hb.described other
    simpa using hother.imp_left (Or.inr (a := other = call))
  · intro other hother
    exact hb.taken other (by simpa using hother)

/-- The bookkeeping of an accepted refund. -/
theorem moveRefunded (hb : Balanced m (.accepted call :: works) accepted) (hc : Consistent m)
    (hs : RefundSound m call) (refunds : List Refund) :
    Balanced (ReservationTransactions.moveRefunded { m with refunds } call) works accepted := by
  have heffect := moveRefunded_effect (c := .other) hs refunds
  have htaken := hb.taken call List.mem_cons_self
  obtain ⟨p, hp, hcall⟩ := hb.described call (Or.inr List.mem_cons_self)
  have hpayments : ∀ q' ∈
      (ReservationTransactions.moveRefunded { m with refunds } call).payments.rows,
      q' ∈ m.payments.rows ∨ q' = markRefunded p := by
    intro q' hq'
    unfold ReservationTransactions.moveRefunded at hq'
    cases hu : { m with refunds }.updatePayment call.reservationId
        (fun p => p.status = call.fromStatus) markRefunded (fun _ => rfl) with
    | none =>
      rw [hu] at hq'
      exact Or.inl hq'
    | some moved =>
      obtain ⟨q, payments, hqid, _, hrep, rfl⟩ := Market.updatePayment_eq_some hu
      have he : q = p := m.payments.eq_of_key_eq hrep.mem_old hp (hqid.trans hcall.1.symm)
      rw [he] at hrep
      rw [hu] at hq'
      exact (hrep.mem_iff.mp hq').symm.imp_left And.left
  refine (hb.fewer (List.sublist_cons_self _ _).subperm).effect hc heffect ?_ ?_
  · intro q' hq' hrefunded
    rcases hpayments q' hq' with hold | rfl
    · exact hb.recorded q' hold hrefunded
    · rw [← hcall.2.1, ← hcall.2.2] at htaken
      exact htaken
  · intro q hq q' hq' hid hpending hpaid
    rcases hpayments q' hq' with hold | rfl
    · rw [m.payments.eq_of_key_eq hold hq hid, hpending] at hpaid
      cases hpaid
    · cases hpaid

/-- The claim of a refused refund is given back. -/
theorem release {id : ReservationId} (hb : Balanced m (.refused id :: works) accepted)
    (hc : Consistent m) :
    Balanced (ReservationTransactions.releaseRefundClaim m id) works accepted := by
  have heffect := releaseRefundClaim_effect (c := .other) hc id
  have hpayments : ∀ q' ∈ (ReservationTransactions.releaseRefundClaim m id).payments.rows,
      q' ∈ m.payments.rows ∨ ∃ q ∈ m.payments.rows, q.reservationId = id ∧
        q' = unmarkRefundPending q := by
    intro q' hq'
    unfold ReservationTransactions.releaseRefundClaim at hq'
    cases hu : m.updatePayment id (fun p => p.status = .refundPending) unmarkRefundPending
        (fun _ => rfl) with
    | none =>
      rw [hu] at hq'
      exact Or.inl hq'
    | some moved =>
      obtain ⟨q, payments, hqid, _, hrep, rfl⟩ := Market.updatePayment_eq_some hu
      rw [hu] at hq'
      rcases hrep.mem_iff.mp hq' with rfl | ⟨hold, _⟩
      · exact Or.inr ⟨q, hrep.mem_old, hqid, rfl⟩
      · exact Or.inl hold
  refine (hb.fewer (List.sublist_cons_self _ _).subperm).effect hc heffect ?_ ?_
  · intro q' hq' hrefunded
    rcases hpayments q' hq' with hold | ⟨q, _, _, rfl⟩
    · exact hb.recorded q' hold hrefunded
    · cases hrefunded
  · intro q hq q' hq' hid hpending hpaid
    rcases hpayments q' hq' with hold | ⟨s, hs, hsid, rfl⟩
    · rw [m.payments.eq_of_key_eq hold hq hid, hpending] at hpaid
      cases hpaid
    · have honce := hb.once q hq
      have hkey : q.reservationId = id := hid.symm.trans hsid
      rw [refundCount_cons, RefundWork.unsettled, hkey] at honce
      simpa using honce

end Balanced

end Books

end Kurtar.RefundBooks

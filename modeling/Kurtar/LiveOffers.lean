import Kurtar.CancelledOffers

/-!
# Offers that are shown and offers that can be reserved

Discovery and the claim statement spell the condition on an offer separately.
Whether a creation commits is characterised exactly; every offer that
discovery shows with enough stock can be reserved, and a reserved offer was
published, in stock and of an approved merchant. Hiding a store or a template
is a matter of discovery alone.
-/

namespace Kurtar.LiveOffers

open KeyedTable GuardedRuns StatusTransitions IstanbulCalendar Marketplace ReservationTransactions
open OfferLifecycle MarketService MarketEffects MarketInvariant

section Creation

variable {m : Market} {call : CreateCall}

/-- One of the attempts to create the reservation commits. -/
def CreateSucceeds (m : Market) (call : CreateCall) (codes : List Code) : Prop :=
  ∃ result, createReservationWithRetry m call (codes.take maxCodeAttempts) = .ok result

/-- The generated identities are unused, and so is one of the codes that are tried. -/
def UnusedIdentities (m : Market) (call : CreateCall) (codes : List Code) : Prop :=
  ¬ identityTaken m call ∧
    ∃ code ∈ codes.take maxCodeAttempts, ∀ r ∈ m.reservations.rows, r.code ≠ code

instance (m : Market) (call : CreateCall) (codes : List Code) :
    Decidable (UnusedIdentities m call codes) := by
  unfold UnusedIdentities
  infer_instance

theorem offerWithTemplate_eq_some {offerId : OfferId} {o : Offer} {bt : BagTemplate}
    (h : offerWithTemplate m offerId = some (o, bt)) :
    o ∈ m.offers.rows ∧ o.id = offerId ∧ bt ∈ m.bagTemplates.rows ∧ bt.id = o.bagTemplateId := by
  unfold offerWithTemplate at h
  obtain ⟨offer, hoffer, h⟩ := Option.bind_eq_some_iff.mp h
  obtain ⟨template, htemplate, h⟩ := Option.map_eq_some_iff.mp h
  cases h
  obtain ⟨ho, hid⟩ := Table.find?_eq_some.mp hoffer
  obtain ⟨hbt, hbid⟩ := Table.find?_eq_some.mp htemplate
  exact ⟨ho, hid, hbt, hbid⟩

/-- The claim statement matches exactly when the stored offer is claimable. -/
theorem claim_isSome_iff {o : Offer} (ho : o ∈ m.offers.rows) (qty : ℤ) :
    (claim m o.id qty).isSome ↔ claimable m qty o := by
  constructor
  · intro h
    obtain ⟨m', hm⟩ := Option.isSome_iff_exists.mp h
    obtain ⟨o', _, hid, hclaimable, hrep, _⟩ := Market.updateOffer_eq_some hm
    rwa [m.offers.eq_of_key_eq hrep.mem_old ho hid] at hclaimable
  · intro h
    obtain ⟨offers, hu⟩ := Table.updateOne_of_mem (claimRow qty) (fun _ => rfl) ho rfl h
    simp only [claim, Market.updateOffer, hu, Option.map_some, Option.isSome_some]

/-- When the retried creation of a stored offer commits. -/
theorem createReservationWithRetry_ok_iff {o : Offer} {bt : BagTemplate}
    (hjoin : offerWithTemplate m call.offerId = some (o, bt)) (codes : List Code) :
    (∃ result, createReservationWithRetry m call codes = .ok result) ↔
      claimable m call.qty o ∧ ¬ identityTaken m call ∧
        ∃ code ∈ codes, ∀ r ∈ m.reservations.rows, r.code ≠ code := by
  obtain ⟨ho, hid, _, _⟩ := offerWithTemplate_eq_some hjoin
  induction codes with
  | nil => simp [createReservationWithRetry]
  | cons code codes ih =>
    unfold createReservationWithRetry createReservation
    have hclaim := claim_isSome_iff ho call.qty
    rw [hid] at hclaim
    cases hc : claim m call.offerId call.qty with
    | none =>
      have hnot : ¬ claimable m call.qty o := by
        rw [← hclaim, hc]
        simp
      simp [hjoin, hnot]
    | some claimed =>
      have hclaimable : claimable m call.qty o := by
        rw [← hclaim, hc]
        rfl
      simp only [hjoin]
      by_cases hcode : ∃ r ∈ m.reservations.rows, r.code = code
      · simp only [if_pos hcode]
        rw [ih]
        obtain ⟨r, hr, hrc⟩ := hcode
        constructor
        · rintro ⟨h₁, h₂, c, hc, h₃⟩
          exact ⟨h₁, h₂, c, List.mem_cons_of_mem _ hc, h₃⟩
        · rintro ⟨h₁, h₂, c, hc, h₃⟩
          rcases List.mem_cons.mp hc with rfl | hc
          · exact absurd hrc (h₃ r hr)
          · exact ⟨h₁, h₂, c, hc, h₃⟩
      · by_cases htaken : identityTaken m call
        · simp [hcode, htaken]
        · simp only [if_neg hcode, if_neg htaken]
          constructor
          · intro _
            exact ⟨hclaimable, htaken, code, List.mem_cons_self, fun r hr h => hcode ⟨r, hr, h⟩⟩
          · intro _
            exact ⟨_, rfl⟩

theorem createSucceeds_iff {o : Offer} {bt : BagTemplate}
    (hjoin : offerWithTemplate m call.offerId = some (o, bt)) (codes : List Code) :
    CreateSucceeds m call codes ↔ claimable m call.qty o ∧ UnusedIdentities m call codes :=
  createReservationWithRetry_ok_iff hjoin _

/-- An offer that is not stored with its template cannot be reserved. -/
theorem offerWithTemplate_of_createSucceeds {codes : List Code}
    (h : CreateSucceeds m call codes) :
    ∃ o bt, offerWithTemplate m call.offerId = some (o, bt) := by
  cases hjoin : offerWithTemplate m call.offerId with
  | some joined => exact ⟨joined.1, joined.2, rfl⟩
  | none =>
    obtain ⟨result, hresult⟩ := h
    cases hcodes : codes.take maxCodeAttempts with
    | nil => simp [hcodes, createReservationWithRetry] at hresult
    | cons code rest =>
      simp [hcodes, createReservationWithRetry, createReservation, hjoin] at hresult

end Creation

section Discovery

variable {m : Market} {now : Instant} {o : Offer}

/-- What discovery shows is claimable as long as enough stock is left. -/
theorem claimable_of_shownLive {qty : ℤ} (h : shownLive m now o)
    (hroom : o.qtyReserved+qty ≤ o.qtyTotal) : claimable m qty o := by
  obtain ⟨s, hs, hsid, _, _, _, me, hme, hmid, hlive⟩ := h
  exact ⟨hlive.1, hroom, s, hs, hsid, me, hme, hmid, hlive.2.2.2.2.2⟩

/-- A claimable offer is shown while its window is open and nothing hides it. -/
theorem shownLive_of_claimable {qty : ℤ} {bt : BagTemplate} (hqty : 0 < qty)
    (h : claimable m qty o) (hbt : bt ∈ m.bagTemplates.rows) (hid : bt.id = o.bagTemplateId)
    (hwindow : now < o.pickupEndAt) (hactive : bt.active = true)
    (hstore : ∀ s ∈ m.stores.rows, s.id = o.storeId → s.active = true) : shownLive m now o := by
  obtain ⟨hstatus, hroom, s, hs, hsid, me, hme, hmid, happroved⟩ := h
  refine ⟨s, hs, hsid, bt, hbt, hid, me, hme, hmid, hstatus, ?_, hwindow, hstore s hs hsid,
    hactive, happroved⟩
  omega

end Discovery

/-- A creation that the services carry out has succeeded. -/
theorem createSucceeds_of_step {w w' : World} {call : CreateCall} {codes : List Code}
    (h : step w (.create call codes) = some w') : CreateSucceeds w.market call codes := by
  simp only [step, createEntry] at h
  split_ifs at h
  split at h
  · cases h
  · rename_i hcreate
    exact ⟨_, hcreate⟩

/-- When reservations can be created: only on a published offer of an approved merchant
with enough stock, which discovery shows while its window is open and nothing hides
it; whenever discovery shows the offer with enough stock; and on an offer whose window
is open whatever discovery hides. -/
theorem reservable_offers (w : World) (call : CreateCall) (codes : List Code)
    (hqty : 0 < call.qty) :
    (∀ w', step w (.create call codes) = some w' → CreateSucceeds w.market call codes) ∧
    (CreateSucceeds w.market call codes →
      ∃ o bt, offerWithTemplate w.market call.offerId = some (o, bt) ∧
        o.status = .published ∧ o.qtyReserved+call.qty ≤ o.qtyTotal ∧
        merchantApproved w.market o.storeId ∧
        (call.now < o.pickupEndAt → bt.active = true →
          (∀ s ∈ w.market.stores.rows, s.id = o.storeId → s.active = true) →
          shownLive w.market call.now o)) ∧
    ∀ o bt, offerWithTemplate w.market call.offerId = some (o, bt) →
      UnusedIdentities w.market call codes →
      (shownLive w.market call.now o → o.qtyReserved+call.qty ≤ o.qtyTotal →
        CreateSucceeds w.market call codes) ∧
      (call.now < o.pickupEndAt →
        (CreateSucceeds w.market call codes ↔ o.status = .published ∧
          o.qtyReserved+call.qty ≤ o.qtyTotal ∧ merchantApproved w.market o.storeId)) := by
  refine ⟨fun _ => createSucceeds_of_step, ?_, ?_⟩
  · intro h
    obtain ⟨o, bt, hjoin⟩ := offerWithTemplate_of_createSucceeds h
    obtain ⟨_, _, hbt, hid⟩ := offerWithTemplate_eq_some hjoin
    have hclaimable := ((createSucceeds_iff hjoin codes).mp h).1
    refine ⟨o, bt, hjoin, hclaimable.1, hclaimable.2.1, hclaimable.2.2, ?_⟩
    intro hwindow hactive hstore
    exact shownLive_of_claimable hqty hclaimable hbt hid hwindow hactive hstore
  · intro o bt hjoin hunused
    constructor
    · intro hshown hroom
      exact (createSucceeds_iff hjoin codes).mpr ⟨claimable_of_shownLive hshown hroom, hunused⟩
    · intro _
      rw [createSucceeds_iff hjoin codes]
      exact and_iff_left hunused

/-- An offer on sale whose store is hidden. -/
def hiddenStore : List Action := openOffer 3 ++ [.catalogue (.setStoreActive 1 false)]

theorem reservable_offers_hiddenStore :
    ∃ w, MarketReachable anyStep w ∧ CreateSucceeds w.market ⟨1, 1, 2, 0, 1, 1⟩ [1] ∧
      ∃ o ∈ w.market.offers.rows, o.id = 1 ∧ ¬ shownLive w.market 0 o := by
  have hw : MarketReachable anyStep (sampleState hiddenStore) :=
    sampleState_reachable (by decide +kernel)
  have hoffer : (offerWithTemplate (sampleState hiddenStore).market 1).any (fun joined =>
      decide (0 < joined.1.pickupEndAt ∧ ¬ shownLive (sampleState hiddenStore).market 0 joined.1 ∧
        claimable (sampleState hiddenStore).market 2 joined.1)) = true := by decide +kernel
  obtain ⟨⟨o, bt⟩, hjoin, hready⟩ := (Option.any_eq_true ..).mp hoffer
  obtain ⟨hwindow, hhidden, hclaimable⟩ := of_decide_eq_true hready
  obtain ⟨ho, hid, _⟩ := offerWithTemplate_eq_some hjoin
  have hreservable := (reservable_offers (sampleState hiddenStore) ⟨1, 1, 2, 0, 1, 1⟩ [1]
    (by decide)).2.2 o bt hjoin (by decide +kernel)
  exact ⟨_, hw, (hreservable.2 hwindow).mpr hclaimable, o, ho, hid, hhidden⟩

/-- A bag is sold an hour after its window has ended, and paid. -/
def soldAfterWindow : List Action :=
  openOffer 3 ++ book 1 1 (21*hourMs) ++ pay 1 5000 (21*hourMs) ++
    [.sweepNoShows (22*hourMs), proceed (22*hourMs)]

theorem hiddenStore_reserved :
    (∃ w, MarketReachable anyStep w ∧ ∃ o ∈ w.market.offers.rows, o.id = 1 ∧
      0 < o.pickupEndAt ∧ ¬ shownLive w.market 0 o ∧
      (step w (.create ⟨1, 1, 2, 0, 1, 1⟩ [1])).isSome) ∧
    ∃ w, MarketReachable anyStep w ∧ ∃ r ∈ w.market.reservations.rows, r.status = .noShow ∧
      (∃ o ∈ w.market.offers.rows, o.id = r.offerId ∧ o.pickupEndAt < r.createdAt) ∧
      ∃ p ∈ w.market.payments.rows, p.reservationId = r.id ∧ p.status = .paid := by
  constructor
  · exact ⟨sampleState hiddenStore, sampleState_reachable (by decide +kernel), by decide +kernel⟩
  · exact ⟨sampleState soldAfterWindow, sampleState_reachable (by decide +kernel),
      by decide +kernel⟩

end Kurtar.LiveOffers

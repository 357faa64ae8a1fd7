import Kurtar.TimedLedger

/-!
# Prices of past dates

A price is looked up as the version with the latest effective date by a given
date. Versions are only scheduled for dates still to come, so the versions in
force by a time that has passed are settled. Nothing keeps two versions from
sharing an effective date, though, and the lookup orders by that date alone:
of two such versions the database may return either, one today and the other
tomorrow.
-/

namespace Kurtar.PriceHistory

open KeyedTable GuardedRuns IstanbulCalendar SettlementLedger SettlementTransactions TimedLedger

/-- A row that the lookup may return: in force by the date, with no later one
in force. Among rows with one effective date there is no order. -/
structure MayResolve (pricing : List PlatformPricing) (asOf : Instant) (p : PlatformPricing) :
    Prop where
  stored : p ∈ pricing
  effective : p.effectiveFrom ≤ asOf
  latest : ∀ q ∈ pricing, q.effectiveFrom ≤ asOf → q.effectiveFrom ≤ p.effectiveFrom

/-- The answers that the price lookup may give. -/
inductive PricingAnswer (l : Ledger) (asOf : Instant) :
    Except SettlementError PlatformPricing → Prop
  | row {p : PlatformPricing} (h : MayResolve l.pricing asOf p) : PricingAnswer l asOf (.ok p)
  | missing (h : ∀ p ∈ l.pricing, asOf < p.effectiveFrom) :
    PricingAnswer l asOf (.error (.noPlatformPricing asOf))

/-- The answers that the bag fee lookup may give: the override, or else the
fee of a price answer. -/
def BagFeeAnswer (l : Ledger) (merchant : Merchant) (asOf : Instant)
    (fee : Except SettlementError ℤ) : Prop :=
  match merchant.bagFeeCentsOverride with
  | some override => fee = .ok override
  | none => ∃ answer, PricingAnswer l asOf answer ∧ fee = answer.map (·.bagFeeCents)

section Lookup

variable {l : Ledger} {asOf : Instant}

/-- The first of the latest rows is one of the answers. -/
theorem mayResolve_of_greatest {pricing : List PlatformPricing} {p : PlatformPricing}
    (h : greatest (fun p q : PlatformPricing => p.effectiveFrom < q.effectiveFrom)
      (pricing.filter fun p => p.effectiveFrom ≤ asOf) = some p) : MayResolve pricing asOf p := by
  have hmem := List.mem_filter.mp (mem_of_greatest h)
  refine ⟨hmem.1, by simpa using hmem.2, ?_⟩
  intro q hq heff
  have hq' : q ∈ pricing.filter fun p => p.effectiveFrom ≤ asOf :=
    List.mem_filter.mpr ⟨hq, by simpa using heff⟩
  have hirrefl : Std.Irrefl fun a b : PlatformPricing => b.effectiveFrom < a.effectiveFrom :=
    ⟨fun a => lt_irrefl _⟩
  have htrans : IsTrans PlatformPricing fun a b => b.effectiveFrom < a.effectiveFrom :=
    ⟨fun a b c hab hbc => lt_trans hbc hab⟩
  exact not_lt.mp (List.not_of_mem_foldl_argAux
    (fun a b : PlatformPricing => b.effectiveFrom < a.effectiveFrom) hirrefl htrans hq' h)

/-- What the code computes with one order of the rows is one of the answers. -/
theorem pricingAnswer_resolve (l : Ledger) (asOf : Instant) :
    PricingAnswer l asOf (l.resolvePlatformPricing asOf) := by
  unfold Ledger.resolvePlatformPricing
  split
  · next p hp => exact .row (mayResolve_of_greatest hp)
  · next hnone =>
    apply PricingAnswer.missing
    have hempty := (List.foldl_argAux_eq_none (fun a b : PlatformPricing =>
      b.effectiveFrom < a.effectiveFrom)).mp hnone
    intro p hp
    have hout := List.filter_eq_nil_iff.mp hempty.1 p hp
    exact not_le.mp (by simpa using hout)

/-- The same for the bag fee. -/
theorem bagFeeAnswer_resolve (l : Ledger) (merchant : Merchant) (asOf : Instant) :
    BagFeeAnswer l merchant asOf (l.resolveBagFeeCentsForMerchant merchant asOf) := by
  unfold BagFeeAnswer Ledger.resolveBagFeeCentsForMerchant
  cases merchant.bagFeeCentsOverride with
  | some override => rfl
  | none => exact ⟨_, pricingAnswer_resolve l asOf, rfl⟩

/-- The answers depend on the versions in force by the date. -/
theorem pricingAnswer_of_versions {l' : Ledger} {answer : Except SettlementError PlatformPricing}
    (h : ∀ p, p.effectiveFrom ≤ asOf → (p ∈ l.pricing ↔ p ∈ l'.pricing))
    (hanswer : PricingAnswer l asOf answer) : PricingAnswer l' asOf answer := by
  cases hanswer with
  | @row p hp =>
    refine .row ⟨(h p hp.effective).mp hp.stored, hp.effective, ?_⟩
    intro q hq heff
    exact hp.latest q ((h q heff).mpr hq) heff
  | missing hnone =>
    refine .missing ?_
    intro p hp
    by_contra hle
    have heff := not_lt.mp hle
    exact hle (hnone p ((h p heff).mpr hp))

/-- Two answers agree when versions with one effective date are equal. -/
theorem pricingAnswer_unique {answer answer' : Except SettlementError PlatformPricing}
    (h : ∀ p ∈ l.pricing, ∀ q ∈ l.pricing, p.effectiveFrom ≤ asOf →
      q.effectiveFrom = p.effectiveFrom → q = p)
    (hanswer : PricingAnswer l asOf answer) (hanswer' : PricingAnswer l asOf answer') :
    answer' = answer := by
  cases hanswer with
  | @row p hp =>
    cases hanswer' with
    | @row q hq =>
      have hle := hp.latest q hq.stored hq.effective
      have hge := hq.latest p hp.stored hp.effective
      rw [h p hp.stored q hq.stored hp.effective (le_antisymm hle hge)]
    | missing hnone => exact absurd hp.effective (hnone p hp.stored).not_ge
  | missing hnone =>
    cases hanswer' with
    | @row q hq => exact absurd hq.effective (hnone q hq.stored).not_ge
    | missing _ => rfl

end Lookup

/-- The price of a date has one answer, now and ever after. -/
structure PricedOnce (s : Timed) (asOf : Instant) : Prop where
  platform : ∃ answer, ∀ s', Later s s' → ∀ a, PricingAnswer s'.ledger asOf a ↔ a = answer
  bagFee : ∀ merchant, ∃ fee, ∀ s', Later s s' → ∀ f, BagFeeAnswer s'.ledger merchant asOf f ↔ f = fee

/-- No two different versions in force share their effective date. -/
def OneVersionPerDate (s : Timed) : Prop :=
  ∀ p ∈ s.ledger.pricing, ∀ q ∈ s.ledger.pricing, p.effectiveFrom ≤ s.clock →
    q.effectiveFrom = p.effectiveFrom → q = p

section PastPrices

variable {s s' : Timed} {asOf : Instant}

/-- Later states answer about a past date as this one does. -/
theorem pricingAnswer_later (h : Later s s') (hpast : asOf ≤ s.clock)
    (a : Except SettlementError PlatformPricing) :
    PricingAnswer s'.ledger asOf a ↔ PricingAnswer s.ledger asOf a := by
  have hsame := (past_versions h).2
  constructor
  · exact pricingAnswer_of_versions fun p hp => hsame p (hp.trans hpast)
  · exact pricingAnswer_of_versions fun p hp => (hsame p (hp.trans hpast)).symm

theorem bagFeeAnswer_later (h : Later s s') (hpast : asOf ≤ s.clock) (merchant : Merchant)
    (f : Except SettlementError ℤ) :
    BagFeeAnswer s'.ledger merchant asOf f ↔ BagFeeAnswer s.ledger merchant asOf f := by
  unfold BagFeeAnswer
  cases merchant.bagFeeCentsOverride with
  | some override => exact Iff.rfl
  | none => simp only [pricingAnswer_later h hpast]

/-- One version per date prices every past date once. -/
theorem pricedOnce (h : OneVersionPerDate s) (hpast : asOf ≤ s.clock) : PricedOnce s asOf := by
  have hunique : ∀ a, PricingAnswer s.ledger asOf a ↔ a = s.ledger.resolvePlatformPricing asOf := by
    intro a
    constructor
    · intro ha
      refine pricingAnswer_unique ?_ (pricingAnswer_resolve s.ledger asOf) ha
      intro p hp q hq heff hdate
      exact h p hp q hq (heff.trans hpast) hdate
    · intro ha
      rw [ha]
      exact pricingAnswer_resolve s.ledger asOf
  constructor
  · refine ⟨s.ledger.resolvePlatformPricing asOf, ?_⟩
    intro s' hlater a
    rw [pricingAnswer_later hlater hpast, hunique]
  · intro merchant
    refine ⟨s.ledger.resolveBagFeeCentsForMerchant merchant asOf, ?_⟩
    intro s' hlater f
    rw [bagFeeAnswer_later hlater hpast]
    constructor
    · intro hf
      unfold BagFeeAnswer at hf
      unfold Ledger.resolveBagFeeCentsForMerchant
      cases ho : merchant.bagFeeCentsOverride with
      | some override => simpa [ho] using hf
      | none =>
        rw [ho] at hf
        obtain ⟨answer, hanswer, hfee⟩ := hf
        rw [hfee, (hunique answer).mp hanswer]
    · intro hf
      rw [hf]
      exact bagFeeAnswer_resolve s.ledger merchant asOf

/-- A batch recomputed later is priced as it is priced now. -/
theorem PricedOnce.recomputed (h : PricedOnce s asOf) (hlater : Later s s')
    (merchant : Merchant) :
    s'.ledger.resolveBagFeeCentsForMerchant merchant asOf =
      s.ledger.resolveBagFeeCentsForMerchant merchant asOf := by
  obtain ⟨fee, hfee⟩ := h.bagFee merchant
  have hnow := (hfee s (.start rfl) _).mp (bagFeeAnswer_resolve s.ledger merchant asOf)
  have hthen := (hfee s' hlater _).mp (bagFeeAnswer_resolve s'.ledger merchant asOf)
  rw [hthen, hnow]

/-- Two versions of one date are both answers for it. -/
theorem oneVersionPerDate (h : ∀ asOf ≤ s.clock, PricedOnce s asOf) : OneVersionPerDate s := by
  intro p hp q hq heff hdate
  obtain ⟨answer, hanswer⟩ := (h p.effectiveFrom heff).platform
  have hfirst : PricingAnswer s.ledger p.effectiveFrom (.ok p) :=
    .row ⟨hp, le_refl _, fun r _ hr => hr⟩
  have hsecond : PricingAnswer s.ledger p.effectiveFrom (.ok q) :=
    .row ⟨hq, hdate.le, fun r _ hr => hr.trans hdate.ge⟩
  have hp' := (hanswer s (.start rfl) _).mp hfirst
  have hq' := (hanswer s (.start rfl) _).mp hsecond
  exact Except.ok.inj (hq'.trans hp'.symm)

end PastPrices

/-- A version is scheduled for a date that no other version has. -/
def SeparateDate (s : Timed) : TimedAction → Prop
  | .transact _ (.business (.scheduleFuturePricing p) _) =>
    ∀ q ∈ s.ledger.pricing, q.effectiveFrom = p.effectiveFrom → q = p
  | _ => True

/-- Versions with one effective date are equal, in force or not. -/
def DatesApart (s : Timed) : Prop :=
  ∀ p ∈ s.ledger.pricing, ∀ q ∈ s.ledger.pricing, q.effectiveFrom = p.effectiveFrom → q = p

/-- Before the first transaction, with the dates of the seeded versions apart. -/
def Seeded (s : Timed) : Prop := Initial s ∧ DatesApart s

/-- Separate dates stay apart. -/
theorem datesApart_of_reachable {s : Timed} (h : Reachable step SeparateDate Seeded s) :
    DatesApart s := by
  induction h with
  | start hs => exact hs.2
  | next _ hok hstep ih =>
    rcases pricing_step hstep with hsame | ⟨v, ha, _, hcons⟩
    · unfold DatesApart
      rw [hsame]
      exact ih
    · rw [ha] at hok
      intro p hp q hq hdate
      rw [hcons, List.mem_cons] at hp hq
      rcases hp with hp | hp <;> rcases hq with hq | hq
      · rw [hp, hq]
      · rw [hp] at hdate ⊢
        exact hok q hq hdate
      · rw [hq] at hdate ⊢
        exact (hok p hp hdate.symm).symm
      · exact ih p hp q hq hdate

/-- The price of every past date is settled exactly when no two different
versions in force share their effective date; schedulings for separate dates
keep it so. -/
theorem past_prices_settled_iff (s : Timed) :
    ((∀ asOf ≤ s.clock, PricedOnce s asOf) ↔ OneVersionPerDate s) ∧
      (Reachable step SeparateDate Seeded s →
        ∀ asOf ≤ s.clock, PricedOnce s asOf ∧ ∀ s', Later s s' → ∀ merchant,
          s'.ledger.resolveBagFeeCentsForMerchant merchant asOf =
            s.ledger.resolveBagFeeCentsForMerchant merchant asOf) := by
  constructor
  · exact ⟨oneVersionPerDate, fun h asOf hpast => pricedOnce h hpast⟩
  · intro hs asOf hpast
    have hapart := datesApart_of_reachable hs
    have honce : PricedOnce s asOf := by
      refine pricedOnce ?_ hpast
      intro p hp q hq _ hdate
      exact hapart p hp q hq hdate
    exact ⟨honce, fun s' hlater merchant => honce.recomputed hlater merchant⟩

section Sample

/-- A ledger with the seeded version only. -/
def seeded : Timed :=
  ⟨0, { (SettlementService.sampleWorld 2500).ledger with pricing := [⟨2500, 199000, 0⟩] }⟩

/-- An admin schedules a version. -/
def schedule (now : Instant) (bagFeeCents effectiveFrom : ℤ) : TimedAction :=
  .transact now (.business (.scheduleFuturePricing ⟨bagFeeCents, 199000, effectiveFrom⟩) now)

theorem seeded_initial : Seeded seeded := by
  refine ⟨⟨rfl, rfl, rfl, rfl, rfl, rfl⟩, ?_⟩
  intro p hp q hq _
  rw [List.mem_singleton.mp hp, List.mem_singleton.mp hq]

/-- Two dates, the second scheduled when the first has come. -/
theorem past_prices_settled_sample :
    ∃ s, run step seeded [schedule 1 3000 10, .wait 12, schedule 13 3500 20] = some s ∧
      PricedOnce s 11 := by
  have hmeets : RunMeets step SeparateDate seeded
      [schedule 1 3000 10, .wait 12, schedule 13 3500 20] := by
    refine ⟨?_, trivial, ?_, trivial⟩
    · intro q hq hdate
      rw [List.mem_singleton.mp hq] at hdate
      exact absurd hdate (by decide)
    · intro q hq hdate
      rcases List.mem_cons.mp hq with hq | hq
      · rw [hq] at hdate
        exact absurd hdate (by decide)
      · rw [List.mem_singleton.mp hq] at hdate
        exact absurd hdate (by decide)
  have hs := reachable_of_guarded_run (.start seeded_initial) hmeets rfl
  exact ⟨_, rfl, ((past_prices_settled_iff _).2 hs 11 (by decide)).1⟩

/-- Two versions scheduled for one date: from then on both are answers. -/
theorem past_prices_settled_counterexample :
    ∃ s, Reachable step anyStep Seeded s ∧ ∃ asOf ≤ s.clock, ¬ PricedOnce s asOf := by
  refine ⟨_, reachable_of_run (.start seeded_initial)
    (rfl : run step seeded [schedule 1 3000 10, schedule 2 3500 10, .wait 10] = some _), 10,
    by decide, ?_⟩
  intro h
  obtain ⟨fee, hfee⟩ := h.bagFee ⟨1, "TR00", none, none, none⟩
  have hanswer : ∀ p ∈ [(⟨3500, 199000, 10⟩ : PlatformPricing), ⟨3000, 199000, 10⟩],
      fee = .ok p.bagFeeCents := by
    intro p hp
    have hrow : MayResolve [⟨3500, 199000, 10⟩, ⟨3000, 199000, 10⟩, ⟨2500, 199000, 0⟩] 10 p := by
      rcases List.mem_cons.mp hp with hp | hp
      · rw [hp]
        exact ⟨by simp, by decide, fun q _ hq => hq⟩
      · rw [List.mem_singleton.mp hp]
        exact ⟨by simp, by decide, fun q _ hq => hq⟩
    exact ((hfee _ (.start rfl) _).mp ⟨.ok p, .row hrow, rfl⟩).symm
  have hfirst := hanswer _ List.mem_cons_self
  have hsecond := hanswer _ (List.mem_cons_of_mem _ List.mem_cons_self)
  rw [hfirst] at hsecond
  exact absurd (Except.ok.inj hsecond) (by decide)

end Sample

end Kurtar.PriceHistory

import Kurtar.ClawbackLedger

/-!
# Lines and the totals of their batch

A pass charges every stored line of its batch and adds up what it charged, so
a batch's stored totals are the sums over its stored lines. Lines enter the
table inside the pass that counts them and never move. An earned reservation
keeps its merchant and the instant at which it was earned, so a line stays in
the batch of its merchant and day.
-/

namespace Kurtar.SettlementLines

open KeyedTable GuardedRuns StatusTransitions IstanbulCalendar SettlementMath SettlementLedger
open SettlementRecompute SettlementTransactions SettlementService SettlementPass
open SettlementEffects ClawbackLedger

/-- What is charged on a stored line. -/
def chargesOf (line : SettlementLine) : SettlementLineResult :=
  { reservationId := line.reservationId
    grossCents := line.grossCents
    bagFeeCents := line.bagFeeCents
    bagFeeVatCents := line.bagFeeVatCents
    withholdingCents := line.withholdingCents }

/-- The stored lines of a batch, as charged. -/
def batchCharges (l : Ledger) (b : BatchId) : List SettlementLineResult :=
  (l.lines.rows.filter fun line => line.batchId = b).map chargesOf

/-- What a pass makes of a stored line. -/
def passLine (l' : Ledger) (now : Instant) (pass : RecomputePass) (line : SettlementLine) :
    SettlementLine :=
  if line.reservationId ∈ pass.lockedLines.map (·.reservationId) then
    projectLine l' now (chargeLine pass.result.perLine line)
  else chargeLine pass.result.perLine line

theorem passLine_keeps (l' : Ledger) (now : Instant) (pass : RecomputePass)
    (line : SettlementLine) :
    (passLine l' now pass line).reservationId = line.reservationId ∧
      (passLine l' now pass line).batchId = line.batchId ∧
      (passLine l' now pass line).redeemedAt = line.redeemedAt ∧
      (passLine l' now pass line).grossCents = line.grossCents := by
  have hkeeps := chargeLine_keeps pass.result.perLine line
  unfold passLine
  split_ifs
  · exact ⟨hkeeps.1, hkeeps.2.1, hkeeps.2.2.1, hkeeps.2.2.2.1⟩
  · exact ⟨hkeeps.1, hkeeps.2.1, hkeeps.2.2.1, hkeeps.2.2.2.1⟩

/-- The projection does not touch the charges. -/
theorem chargesOf_passLine (l' : Ledger) (now : Instant) (pass : RecomputePass)
    (line : SettlementLine) :
    chargesOf (passLine l' now pass line) =
      chargesOf (chargeLine pass.result.perLine line) := by
  unfold passLine
  split_ifs <;> rfl

/-- Mapping a filtered join is mapping the rows when every row joins. -/
theorem map_filterMap_of_forall {α β γ : Type*} {xs : List α} {g : α → Option β} {f : α → γ}
    {k : β → γ} (h : ∀ x ∈ xs, ∃ y, g x = some y ∧ f x = k y) :
    (xs.filterMap g).map k = xs.map f := by
  induction xs with
  | nil => rfl
  | cons x xs ih =>
    obtain ⟨y, hy, hk⟩ := h x List.mem_cons_self
    rw [List.filterMap_cons_some hy, List.map_cons, List.map_cons, hk,
      ih fun z hz => h z (List.mem_cons_of_mem x hz)]

section Pass

variable {l l' : Ledger} {batchId : BatchId} {now clock : Instant}
  {pendingLines : List PendingSettlementLine} {batch row : Batch} {pass : RecomputePass}
  (h : WrittenPass l batchId now pendingLines clock batch pass l' row)

include h

theorem lines_of_pass : l'.lines.rows =
    (insertPendingLines l batchId pendingLines).lines.rows.map (passLine l' now pass) :=
  h.lines_rows

/-- No line is lost, and every pending reservation has one. -/
theorem exists_line_of_pass {r : ReservationId}
    (hr : (∃ line ∈ l.lines.rows, line.reservationId = r) ∨
      ∃ pl ∈ pendingLines, pl.reservationId = r) :
    ∃ line ∈ l'.lines.rows, line.reservationId = r := by
  have hstored : ∃ line ∈ (insertPendingLines l batchId pendingLines).lines.rows,
      line.reservationId = r := by
    rcases hr with ⟨line, hline, hid⟩ | ⟨pl, hpl, hid⟩
    · exact ⟨line, mem_insertPendingLines_of_mem hline, hid⟩
    · obtain ⟨line, hline, hk⟩ := Table.exists_key_of_insertMany (t := l.lines)
        (List.mem_map_of_mem (f := fun pl : PendingSettlementLine =>
          ({ reservationId := pl.reservationId
             batchId
             redeemedAt := pl.redeemedAt
             grossCents := pl.grossCents
             bagFeeCents := pl.bagFeeCents
             bagFeeVatCents := pl.bagFeeVatCents
             withholdingCents := pl.withholdingCents } : SettlementLine)) hpl)
      exact ⟨line, hline, hk.trans hid⟩
  obtain ⟨line, hline, hid⟩ := hstored
  refine ⟨passLine l' now pass line, ?_, (passLine_keeps l' now pass line).1.trans hid⟩
  rw [lines_of_pass h]
  exact List.mem_map_of_mem hline

/-- The selected lines of a batch, before the pass maps them. -/
theorem batchCharges_of_pass (b : BatchId) : batchCharges l' b =
    ((insertPendingLines l batchId pendingLines).lines.rows.filter fun line =>
      line.batchId = b).map fun line => chargesOf (chargeLine pass.result.perLine line) := by
  unfold batchCharges
  rw [lines_of_pass h, List.filter_map, List.map_map]
  have hsel : ∀ line : SettlementLine,
      ((fun line : SettlementLine => decide (line.batchId = b)) ∘ passLine l' now pass) line =
        decide (line.batchId = b) := by
    intro line
    simp only [Function.comp_apply, (passLine_keeps l' now pass line).2.1]
  rw [List.filter_congr fun line _ => hsel line]
  apply List.map_congr_left
  intro line _
  exact chargesOf_passLine l' now pass line

/-- The lines of other batches are charged as before. -/
theorem batchCharges_of_ne {b : BatchId} (hb : b ≠ batchId) :
    batchCharges l' b = batchCharges l b := by
  have hsel : (insertPendingLines l batchId pendingLines).lines.rows.filter
      (fun line => line.batchId = b) = l.lines.rows.filter fun line => line.batchId = b := by
    apply Table.filter_insertMany
    intro line hline
    obtain ⟨pl, _, rfl⟩ := List.mem_map.mp hline
    exact hb.symm
  rw [batchCharges_of_pass h, batchCharges, ← hsel]
  apply List.map_congr_left
  intro line hline
  obtain ⟨hmem, hid⟩ := List.mem_filter.mp hline
  have hforeign : line.batchId ≠ batchId := by
    have hid' : line.batchId = b := by simpa using hid
    rw [hid']
    exact hb
  rw [h.chargeLine_of_foreign hmem hforeign]

/-- The lines of the batch are charged as the pass decided. -/
theorem batchCharges_self
    (hjoin : ∀ line ∈ (insertPendingLines l batchId pendingLines).lines.rows,
      line.batchId = batchId → ∃ r, l.reservations.find? line.reservationId = some r) :
    batchCharges l' batchId = pass.result.perLine := by
  let own := (insertPendingLines l batchId pendingLines).lines.rows.filter fun line =>
    line.batchId = batchId
  let input : SettlementLine → Option SettlementInputLine := fun line =>
    (l.reservations.find? line.reservationId).map fun reservation =>
      { reservationId := line.reservationId
        grossCents := line.grossCents
        qty := reservation.qty }
  have hinput : ∀ {line : SettlementLine} {i : SettlementInputLine}, input line = some i →
      i.reservationId = line.reservationId ∧ i.grossCents = line.grossCents := by
    intro line i hi
    obtain ⟨r, _, rfl⟩ := Option.map_eq_some_iff.mp hi
    exact ⟨rfl, rfl⟩
  have hper : pass.result.perLine =
      (own.filterMap input).map fun line => chargedLine line pass.bagFeeCents := by
    rw [h.planned.result]
    change pass.lines.map _ = _
    rw [h.planned.lines, h.batch_id]
    rfl
  rw [batchCharges_of_pass h]
  change own.map _ = _
  rw [hper]
  refine (map_filterMap_of_forall ?_).symm
  intro line hline
  obtain ⟨hmem, hown⟩ := List.mem_filter.mp hline
  obtain ⟨r, hr⟩ := hjoin line hmem (by simpa using hown)
  have hi : input line = some ⟨line.reservationId, line.grossCents, r.qty⟩ := by
    change (l.reservations.find? line.reservationId).map _ = _
    rw [hr]
    rfl
  refine ⟨_, hi, ?_⟩
  rw [← hper]
  unfold chargeLine
  cases hf : pass.result.perLine.find? fun pl => pl.reservationId = line.reservationId with
  | none =>
    have hn := List.find?_eq_none.mp hf (chargedLine
      ⟨line.reservationId, line.grossCents, r.qty⟩ pass.bagFeeCents)
      (by rw [hper]; exact List.mem_map.mpr ⟨_, List.mem_filterMap.mpr ⟨line, hline, hi⟩, rfl⟩)
    simp [chargedLine] at hn
  | some pl =>
    -- the charged entry of the reservation belongs to this very line
    have hkey : pl.reservationId = line.reservationId := by simpa using List.find?_some hf
    have hpl := List.mem_of_find?_eq_some hf
    rw [hper] at hpl
    obtain ⟨i, hi', rfl⟩ := List.mem_map.mp hpl
    obtain ⟨other, hother, hoi⟩ := List.mem_filterMap.mp hi'
    have hid : other.reservationId = line.reservationId := by
      rw [← (hinput hoi).1]
      exact hkey
    have hsame := (insertPendingLines l batchId pendingLines).lines.eq_of_key_eq
      (List.mem_filter.mp hother).1 hmem hid
    subst hsame
    rw [hi, Option.some.injEq] at hoi
    subst hoi
    rfl

end Pass

/-- The stored totals of a batch are the sums over its stored lines. -/
structure Totalled (l : Ledger) (b : Batch) : Prop where
  gross : b.grossCents = l.lines.sumOn (fun line => line.batchId = b.id) (·.grossCents)
  bagFee : b.bagFeeCents = l.lines.sumOn (fun line => line.batchId = b.id) (·.bagFeeCents)
  bagFeeVat : b.bagFeeVatCents =
    l.lines.sumOn (fun line => line.batchId = b.id) (·.bagFeeVatCents)
  withholding : b.withholdingCents =
    l.lines.sumOn (fun line => line.batchId = b.id) (·.withholdingCents)

/-- The stored totals of a batch, added up over a list of charges. -/
structure AddsUp (charges : List SettlementLineResult) (b : Batch) : Prop where
  gross : b.grossCents = (charges.map (·.grossCents)).sum
  bagFee : b.bagFeeCents = (charges.map (·.bagFeeCents)).sum
  bagFeeVat : b.bagFeeVatCents = (charges.map (·.bagFeeVatCents)).sum
  withholding : b.withholdingCents = (charges.map (·.withholdingCents)).sum

theorem sumOn_charges (l : Ledger) (b : BatchId) (f : SettlementLineResult → ℤ) :
    l.lines.sumOn (fun line => line.batchId = b) (fun line => f (chargesOf line)) =
      ((batchCharges l b).map f).sum := by
  rw [Table.sumOn_eq_sum_filter, batchCharges, List.map_map]
  rfl

theorem AddsUp.totalled {l : Ledger} {b : Batch} (h : AddsUp (batchCharges l b.id) b) :
    Totalled l b where
  gross := h.gross.trans (sumOn_charges l b.id (·.grossCents)).symm
  bagFee := h.bagFee.trans (sumOn_charges l b.id (·.bagFeeCents)).symm
  bagFeeVat := h.bagFeeVat.trans (sumOn_charges l b.id (·.bagFeeVatCents)).symm
  withholding := h.withholding.trans (sumOn_charges l b.id (·.withholdingCents)).symm

/-- The row of a pass adds up the charges of the pass. -/
theorem addsUp_of_pass {l l' : Ledger} {batchId : BatchId} {now clock : Instant}
    {pendingLines : List PendingSettlementLine} {batch row : Batch} {pass : RecomputePass}
    (h : WrittenPass l batchId now pendingLines clock batch pass l' row) :
    AddsUp pass.result.perLine row := by
  obtain ⟨vat, rfl⟩ := h.row_eq
  have hres := h.planned.result
  constructor <;> simp only [passRow] <;> rw [hres] <;> rfl

/-- The bag is earned: its status and its anchor stay. -/
def Earned (r : Reservation) : Prop := r.status = .redeemed ∨ r.status = .noShow

/-- An earned reservation of a merchant, on the day of a period. -/
def EarnedOn (l : Ledger) (merchantId : MerchantId) (periodStart : Instant)
    (id : ReservationId) : Prop :=
  ∃ r ∈ l.reservations.rows, r.id = id ∧ Earned r ∧ r.merchantId = merchantId ∧
    offerDateToDbDate (istanbulDateKey (settlementAnchorOf r)) = periodStart

/-- An update of one reservation keeps rows that the guard excludes. -/
theorem updateReservation_keeps {l l' : Ledger} {id : ReservationId} {guard : Reservation → Prop}
    [DecidablePred guard] {f : Reservation → Reservation} {hf : ∀ r, (f r).id = r.id}
    (h : updateReservation l id guard f hf = some l') {r : Reservation}
    (hr : r ∈ l.reservations.rows) :
    ∃ r' ∈ l'.reservations.rows, r' = r ∨ guard r ∧ r' = f r := by
  unfold updateReservation at h
  split_ifs at h
  cases h
  refine ⟨_, List.mem_map.mpr ⟨r, hr, rfl⟩, ?_⟩
  split_ifs with hg
  · exact Or.inr ⟨hg.2, rfl⟩
  · exact Or.inl rfl

/-- Reservations are never removed, and an earned one keeps what earned it. -/
theorem commit_keeps_reservation {l l' : Ledger} {t : Transaction} (h : commit l t = some l')
    {r : Reservation} (hr : r ∈ l.reservations.rows) :
    ∃ r' ∈ l'.reservations.rows, r'.id = r.id ∧ r'.merchantId = r.merchantId ∧
      r'.qty = r.qty ∧ r'.pickupEndAt = r.pickupEndAt ∧
      (Earned r → r'.status = r.status ∧ r'.redeemedAt = r.redeemedAt) := by
  have hsame : ∀ {l'' : Ledger}, l''.reservations = l.reservations →
      ∃ r' ∈ l''.reservations.rows, r'.id = r.id ∧ r'.merchantId = r.merchantId ∧
        r'.qty = r.qty ∧ r'.pickupEndAt = r.pickupEndAt ∧
        (Earned r → r'.status = r.status ∧ r'.redeemedAt = r.redeemedAt) := by
    intro l'' he
    rw [he]
    exact ⟨r, hr, rfl, rfl, rfl, rfl, fun _ => ⟨rfl, rfl⟩⟩
  have hfirst : r.status = .confirmed → ¬ Earned r := by
    intro hs he
    rcases he with he | he <;> simp [hs] at he
  cases commit_effect h with
  | unchanged => exact hsame rfl
  | created => exact hsame rfl
  | passed hp => exact hsame hp.frame.2.2
  | flipped _ _ hrest =>
    rw [hrest]
    exact hsame rfl
  | @business event clock =>
    change commitBusiness l clock event = some l' at h
    cases event with
    | addMerchant merchant =>
      cases h
      exact hsame rfl
    | editBagFeeOverride merchantId override =>
      cases h
      exact hsame rfl
    | grantExemption merchantId untilDate =>
      cases h
      exact hsame rfl
    | scheduleFuturePricing pricing =>
      simp only [commitBusiness] at h
      split_ifs at h
      cases h
      exact hsame rfl
    | createForApprovedMerchant merchantId approvedAt =>
      simp only [commitBusiness, createSubscription] at h
      repeat' split at h
      all_goals cases h <;> exact hsame rfl
    | renewOneLocked merchantId =>
      simp only [commitBusiness, renewSubscription] at h
      repeat' split at h
      all_goals cases h <;> exact hsame rfl
    | reserve reservation =>
      simp only [commitBusiness] at h
      split_ifs at h
      cases h
      exact ⟨r, Table.mem_insertNew.mpr (Or.inl hr), rfl, rfl, rfl, rfl, fun _ => ⟨rfl, rfl⟩⟩
    | redeem reservationId =>
      obtain ⟨r', hr', rfl | ⟨hg, rfl⟩⟩ := updateReservation_keeps h hr
      · exact ⟨r', hr', rfl, rfl, rfl, rfl, fun _ => ⟨rfl, rfl⟩⟩
      · exact ⟨_, hr', rfl, rfl, rfl, rfl, fun he => absurd he (hfirst hg)⟩
    | markNoShow reservationId =>
      obtain ⟨r', hr', rfl | ⟨hg, rfl⟩⟩ := updateReservation_keeps h hr
      · exact ⟨r', hr', rfl, rfl, rfl, rfl, fun _ => ⟨rfl, rfl⟩⟩
      · exact ⟨_, hr', rfl, rfl, rfl, rfl, fun he => absurd he (hfirst hg)⟩
    | setPayment reservationId status refunds =>
      obtain ⟨r', hr', rfl | ⟨_, rfl⟩⟩ := updateReservation_keeps h hr
      · exact ⟨r', hr', rfl, rfl, rfl, rfl, fun _ => ⟨rfl, rfl⟩⟩
      · exact ⟨_, hr', rfl, rfl, rfl, rfl, fun _ => ⟨rfl, rfl⟩⟩

theorem EarnedOn.kept {l l' : Ledger} {t : Transaction} (h : commit l t = some l')
    {merchantId : MerchantId} {periodStart : Instant} {id : ReservationId}
    (he : EarnedOn l merchantId periodStart id) : EarnedOn l' merchantId periodStart id := by
  obtain ⟨r, hr, hid, hearned, hm, hday⟩ := he
  obtain ⟨r', hr', hid', hm', _, hp, hkept⟩ := commit_keeps_reservation h hr
  obtain ⟨hs, hat⟩ := hkept hearned
  refine ⟨r', hr', hid'.trans hid, ?_, hm'.trans hm, ?_⟩
  · unfold Earned
    rw [hs]
    exact hearned
  · rw [← hday]
    unfold settlementAnchorOf
    rw [hs, hat, hp]

/-- A reservation belongs to a batch: its merchant and its day are the batch's. -/
def Housed (l : Ledger) (batchId : BatchId) (id : ReservationId) : Prop :=
  ∃ b ∈ l.batches.rows, b.id = batchId ∧ EarnedOn l b.merchantId b.periodStart id

theorem Housed.kept {l l' : Ledger} {t : Transaction} (h : commit l t = some l')
    {batchId : BatchId} {id : ReservationId} (hh : Housed l batchId id) :
    Housed l' batchId id := by
  obtain ⟨b, hb, hid, he⟩ := hh
  obtain ⟨b', hb', hid', hm, _, hp⟩ := commit_keeps h hb
  refine ⟨b', hb', hid'.trans hid, ?_⟩
  rw [hm, hp]
  exact he.kept h

/-- A pass is only handed lines that belong to its batch. -/
def HousesPending (l : Ledger) : Transaction → Prop
  | .recompute batchId _ pendingLines _ => ∀ pl ∈ pendingLines, Housed l batchId pl.reservationId
  | _ => True

/-- Every line is in a batch of its reservation's merchant and day, and every
batch stores the sums over its lines. -/
structure LinesSettled (l : Ledger) : Prop where
  housed : ∀ line ∈ l.lines.rows, Housed l line.batchId line.reservationId
  adds : ∀ b ∈ l.batches.rows, AddsUp (batchCharges l b.id) b

theorem linesSettled_of_empty {l : Ledger} (h : Empty l) : LinesSettled l := by
  constructor <;> simp [h.batches, h.lines]

/-- The lines a pass reads belong to their batches, the pending ones too. -/
theorem stored_housed {l : Ledger} {batchId : BatchId}
    {pendingLines : List PendingSettlementLine} (hinv : LinesSettled l)
    (hpending : ∀ pl ∈ pendingLines, Housed l batchId pl.reservationId) {line : SettlementLine}
    (hline : line ∈ (insertPendingLines l batchId pendingLines).lines.rows) :
    Housed l line.batchId line.reservationId := by
  rcases Table.mem_of_mem_insertMany hline with hl | ⟨hl, _⟩
  · exact hinv.housed line hl
  · obtain ⟨pl, hpl, rfl⟩ := List.mem_map.mp hl
    exact hpending pl hpl

/-- Every line a pass reads joins its reservation. -/
theorem stored_joins {l : Ledger} {batchId : BatchId}
    {pendingLines : List PendingSettlementLine} (hinv : LinesSettled l)
    (hpending : ∀ pl ∈ pendingLines, Housed l batchId pl.reservationId) :
    ∀ line ∈ (insertPendingLines l batchId pendingLines).lines.rows, line.batchId = batchId →
      ∃ r, l.reservations.find? line.reservationId = some r := by
  intro line hline _
  obtain ⟨_, _, _, r, hr, hid, _⟩ := stored_housed hinv hpending hline
  exact ⟨r, Table.find?_eq_some.mpr ⟨hr, hid⟩⟩

/-- A pass over lines that belong to its batch keeps them settled. -/
theorem linesSettled_of_pass {l l' : Ledger} {batchId : BatchId} {now clock : Instant}
    {pendingLines : List PendingSettlementLine} {batch row : Batch} {pass : RecomputePass}
    (hinv : LinesSettled l) (hpending : ∀ pl ∈ pendingLines, Housed l batchId pl.reservationId)
    (hkept : ∀ {b id}, Housed l b id → Housed l' b id)
    (h : WrittenPass l batchId now pendingLines clock batch pass l' row) : LinesSettled l' := by
  constructor
  · intro line hline
    rw [lines_of_pass h] at hline
    obtain ⟨old, hold, rfl⟩ := List.mem_map.mp hline
    obtain ⟨hr, hb, _⟩ := passLine_keeps l' now pass old
    rw [hr, hb]
    exact hkept (stored_housed hinv hpending hold)
  · intro b hb
    rcases h.replaces.mem_iff.mp hb with rfl | ⟨hb, hne⟩
    · rw [h.row_id, batchCharges_self h (stored_joins hinv hpending)]
      exact addsUp_of_pass h
    · rw [h.batch_id] at hne
      rw [batchCharges_of_ne h hne]
      exact hinv.adds b hb

theorem linesSettled_of_commit {l l' : Ledger} {t : Transaction} (hinv : LinesSettled l)
    (hok : HousesPending l t) (h : commit l t = some l') : LinesSettled l' := by
  have hkept : ∀ {b id}, Housed l b id → Housed l' b id := fun hh => hh.kept h
  cases commit_effect h with
  | unchanged => exact hinv
  | @created merchantId dayKey freshId clock hfresh =>
    refine ⟨fun line hline => hkept (hinv.housed line hline), ?_⟩
    intro b hb
    rcases Table.mem_insertNew.mp hb with hb | ⟨rfl, _⟩
    · exact hinv.adds b hb
    · -- no line refers to a batch that was not there
      have hnone : l.lines.rows.filter (fun line => line.batchId = freshId) = [] := by
        rw [List.filter_eq_nil_iff]
        intro line hline hb
        obtain ⟨sb, hsb, hid, _⟩ := hinv.housed line hline
        exact hfresh sb hsb (hid.trans (by simpa using hb))
      have hcharges : batchCharges l freshId = [] := by rw [batchCharges, hnone, List.map_nil]
      change AddsUp (batchCharges l freshId) _
      rw [hcharges]
      exact ⟨rfl, rfl, rfl, rfl⟩
  | passed hp => exact linesSettled_of_pass hinv hok hkept hp.toWrittenPass
  | @flipped _ old new _ hflip hrep hrest =>
    have hlines : l'.lines = l.lines := by rw [hrest]
    refine ⟨?_, ?_⟩
    · rw [hlines]
      exact fun line hline => hkept (hinv.housed line hline)
    · intro b hb
      have hcharges : batchCharges l' b.id = batchCharges l b.id := by
        rw [batchCharges, batchCharges, hlines]
      rw [hcharges]
      rcases hrep.mem_iff.mp hb with rfl | ⟨hb, _⟩
      · have hadds := hinv.adds old hrep.mem_old
        rw [hflip.keeps]
        exact ⟨hadds.gross, hadds.bagFee, hadds.bagFeeVat, hadds.withholding⟩
      · exact hinv.adds b hb
  | business hframe =>
    obtain ⟨hb, hl, _⟩ := hframe
    refine ⟨?_, ?_⟩
    · rw [hl]
      exact fun line hline => hkept (hinv.housed line hline)
    · rw [hb]
      intro b hb
      have hcharges : batchCharges l' b.id = batchCharges l b.id := by
        rw [batchCharges, batchCharges, hl]
      rw [hcharges]
      exact hinv.adds b hb

/-- A line is never removed. -/
theorem commit_keeps_line {l l' : Ledger} {t : Transaction} (h : commit l t = some l')
    {r : ReservationId} (hr : ∃ line ∈ l.lines.rows, line.reservationId = r) :
    ∃ line ∈ l'.lines.rows, line.reservationId = r := by
  cases commit_effect h with
  | unchanged => exact hr
  | created => exact hr
  | passed hp => exact exists_line_of_pass hp.toWrittenPass (Or.inl hr)
  | flipped _ _ hrest =>
    rw [hrest]
    exact hr
  | business hframe =>
    rw [hframe.2.1]
    exact hr

/-- A line is charged no negative fee, and the VAT on its fee. -/
def FairlyCharged (pl : SettlementLineResult) : Prop :=
  0 ≤ pl.bagFeeCents ∧
    pl.bagFeeVatCents = applyRateCents pl.bagFeeCents vatRateNumerator vatRateDenominator

/-- No fee, no VAT. -/
theorem FairlyCharged.vat_eq_zero {pl : SettlementLineResult} (h : FairlyCharged pl)
    (hz : pl.bagFeeCents = 0) : pl.bagFeeVatCents = 0 := by
  rw [h.2, hz]
  decide

theorem fairlyCharged_of_plan {l : Ledger} {batch : Batch} {pass : RecomputePass}
    (h : planPass l batch = .ok pass) : ∀ pl ∈ pass.result.perLine, FairlyCharged pl := by
  intro pl hpl
  have hfees := planPass_fees h pl hpl
  rw [(planPass_eq_ok h).result] at hpl
  obtain ⟨line, _, rfl⟩ := List.mem_map.mp hpl
  exact ⟨hfees, rfl⟩

/-- Every stored line is fairly charged. -/
def FairLines (l : Ledger) : Prop := ∀ b, ∀ pl ∈ batchCharges l b, FairlyCharged pl

theorem fairLines_of_commit {l l' : Ledger} {t : Transaction} (hinv : LinesSettled l)
    (hfair : FairLines l) (hok : HousesPending l t) (h : commit l t = some l') :
    FairLines l' := by
  have hsame : l'.lines = l.lines → FairLines l' := by
    intro he b
    have hcharges : batchCharges l' b = batchCharges l b := by
      rw [batchCharges, batchCharges, he]
    rw [hcharges]
    exact hfair b
  cases commit_effect h with
  | unchanged => exact hfair
  | created => exact hsame rfl
  | @passed batchId now clock pendingLines _ _ _ _ _ =>
    simp only [commit] at h
    cases hr : recomputeBatch l batchId now pendingLines clock with
    | error e => simp [hr] at h
    | ok result =>
      simp only [hr, Option.some.injEq] at h
      obtain ⟨batch, _, ⟨_, he, _⟩ | ⟨pass, hplan, hp⟩⟩ := recomputeBatch_planned hr
      · rw [← h, he]
        exact hfair
      · rw [← h]
        intro b pl hpl
        by_cases hb : b = batchId
        · rw [hb, batchCharges_self hp.toWrittenPass (stored_joins hinv hok)] at hpl
          exact fairlyCharged_of_plan hplan pl hpl
        · rw [batchCharges_of_ne hp.toWrittenPass hb] at hpl
          exact hfair b pl hpl
  | flipped _ _ hrest => exact hsame (by rw [hrest])
  | business hframe => exact hsame hframe.2.1

end Kurtar.SettlementLines

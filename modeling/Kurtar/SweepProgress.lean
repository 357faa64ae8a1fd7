import Kurtar.AlertSweeps

/-!
# What a commit does to claims

A row is claimed for an alert when its sentinel is set, or, for an escalation,
when the ticket is no longer unanswered. The claims of a sweep, the status
changes that the transition map allows, and all other writes of these tables
only ever add claims, each under the lock of its row, and write one audit row
for each escalation.
-/

namespace Kurtar.SweepProgress

open GuardedRuns KeyedTable LockedTransactions Transaction StatusTransitions AlertSweeps

/-- The sentinel of the alert is set, or the ticket is closed or escalated. -/
def claimed : Alert → Db → ℕ → Bool
  | .slaWarning, d, id => (d.tickets.find? id).any fun t => t.slaWarningSentAt.isSome
  | .slaBreach, d, id => (d.tickets.find? id).any fun t => !unanswered t
  | .staleSent, d, id => (d.batches.find? id).any fun b => b.reconciliationAlertSentAt.isSome
  | .approachingDue, d, id => (d.batches.find? id).any fun b => b.payoutDueWarningSentAt.isSome
  | .overdueUnsent, d, id => (d.batches.find? id).any fun b => b.payoutOverdueAlertSentAt.isSome
  | .takedownWarning, d, id => (d.reports.find? id).any fun r => r.takedownWarningSentAt.isSome
  | .takedownBreach, d, id => (d.reports.find? id).any fun r => r.takedownBreachedSentAt.isSome

def statusOf (d : Db) (id : ℕ) : Option ComplaintStatus := (d.tickets.find? id).map (·.status)

/-- The audit rows of a ticket's escalations, by an admin or by the sweep. -/
def isEscalation (id : ℕ) (log : AuditLog) : Bool :=
  decide (log.entity = "ComplaintTicket" ∧
    (log.action = "complaint.escalate" ∨ log.action = "complaint.sla_breach_escalate") ∧
      log.entityId = id)

def escalations (d : Db) (id : ℕ) : ℕ := d.auditLogs.countP (isEscalation id)

/-- How many escalations a ticket's status admits. -/
def Audited (status : Option ComplaintStatus) (count : ℕ) : Prop :=
  match status with
  | some .escalated => count = 1
  | some .resolved => count ≤ 1
  | _ => count = 0

/-- What a commit may do to claims, tickets and audit rows. -/
structure Progress (d d' : Db) (held : List (Row × LockMode)) : Prop where
  stores : ∀ row, d.stores row = true → d'.stores row = true
  claims : ∀ a id, claimed a d id = true → claimed a d' id = true
  owned : ∀ a id, claimed a d' id ≠ claimed a d id → Owns held (a.row id)
  status : ∀ id, statusOf d' id ≠ statusOf d id → statusOf d id = none ∨ Owns held (.ticket id)
  resolved : ∀ id, statusOf d id = some .resolved → statusOf d' id = some .resolved
  escalations : ∀ id, escalations d id ≤ escalations d' id
  audited : ∀ id, Audited (statusOf d id) (SweepProgress.escalations d id) →
    Audited (statusOf d' id) (SweepProgress.escalations d' id)
  returned : ∃ news, d'.returned = news ++ d.returned ∧ news.Nodup ∧
    ∀ p ∈ news, claimed p.1 d p.2 = false ∧ claimed p.1 d' p.2 = true

section Progress

variable {d d' d'' : Db} {held held' : List (Row × LockMode)}

theorem Progress.refl (d : Db) (held : List (Row × LockMode)) : Progress d d held where
  stores := fun _ h => h
  claims := fun _ _ h => h
  owned := fun _ _ h => absurd rfl h
  status := fun _ h => absurd rfl h
  resolved := fun _ h => h
  escalations := fun _ => le_rfl
  audited := fun _ h => h
  returned := ⟨[], rfl, List.nodup_nil, fun _ hp => absurd hp List.not_mem_nil⟩

theorem Progress.mono (h : Progress d d' held) (hheld : ∀ row, Owns held row → Owns held' row) :
    Progress d d' held' where
  stores := h.stores
  claims := h.claims
  owned := fun a id hne => hheld _ (h.owned a id hne)
  status := fun id hne => (h.status id hne).imp_right (hheld _)
  resolved := h.resolved
  escalations := h.escalations
  audited := h.audited
  returned := h.returned

theorem Progress.trans (h : Progress d d' held) (h' : Progress d' d'' held) :
    Progress d d'' held where
  stores := fun row hrow => h'.stores row (h.stores row hrow)
  claims := fun a id hclaimed => h'.claims a id (h.claims a id hclaimed)
  owned := by
    intro a id hne
    by_cases hfirst : claimed a d' id = claimed a d id
    · exact h'.owned a id (by rwa [hfirst])
    · exact h.owned a id hfirst
  status := by
    intro id hne
    by_cases hfirst : statusOf d' id = statusOf d id
    · rw [← hfirst]
      exact h'.status id (by rwa [hfirst])
    · exact h.status id hfirst
  resolved := fun id hid => h'.resolved id (h.resolved id hid)
  escalations := fun id => (h.escalations id).trans (h'.escalations id)
  audited := fun id hid => h'.audited id (h.audited id hid)
  returned := by
    obtain ⟨news, hreturned, hnodup, hnews⟩ := h.returned
    obtain ⟨news', hreturned', hnodup', hnews'⟩ := h'.returned
    refine ⟨news' ++ news, by rw [hreturned', hreturned, List.append_assoc], ?_, ?_⟩
    · refine List.nodup_append.mpr ⟨hnodup', hnodup, ?_⟩
      intro p hp q hq heq
      have hclaimed := (hnews q hq).2
      rw [← heq, (hnews' p hp).1] at hclaimed
      cases hclaimed
    · intro p hp
      rcases List.mem_append.mp hp with hp | hp
      · refine ⟨?_, (hnews' p hp).2⟩
        by_contra hclaimed
        have hlater := h.claims p.1 p.2 (by simpa using hclaimed)
        rw [(hnews' p hp).1] at hlater
        cases hlater
      · exact ⟨(hnews p hp).1, h'.claims _ _ (hnews p hp).2⟩

end Progress

section Claims

variable {d : Db} {now : Instant} {a b : Alert} {id : ℕ}

@[simp] theorem stores_claim (now : Instant) (a : Alert) (id : ℕ) (d : Db) (row : Row) :
    (claim now a id d).stores row = d.stores row := by
  cases a <;> cases row <;>
    simp [claim, stamp, setTicket, setBatch, setReport, Db.stores, Table.find?_updateMany]

theorem any_map_or {ρ : Type} {f : ρ → ρ} {p : ρ → Bool} {c : Bool} (o : Option ρ)
    (h : ∀ r, p (f r) = (p r || c)) : (o.map f).any p = (o.any p || c && o.isSome) := by
  cases o with
  | none => simp
  | some r => simp [h]

/-- A claim sets the claim of its own row and no other. -/
theorem claimed_claim (now : Instant) (a b : Alert) (id id' : ℕ) (d : Db) :
    claimed b (claim now a id d) id' =
      (claimed b d id' || decide (b = a ∧ id' = id) && d.stores (a.row id)) := by
  by_cases hid : id' = id
  · rw [hid]
    cases a <;> cases b <;>
      simp only [claimed, claim, stamp, setTicket, setBatch, setReport, Db.stores, Alert.row,
        Table.find?_updateMany_key, if_true] <;>
      first
      | exact any_map_or _ fun r => by simp [unanswered]
      | simp
  · cases a <;> cases b <;>
      simp [claimed, claim, stamp, setTicket, setBatch, setReport, hid,
        Table.find?_updateMany_key]

/-- The claims of a sweep, in the order of its rows. -/
def claimAll (now : Instant) (a : Alert) (ids : List ℕ) (d : Db) : Db :=
  ids.foldl (fun d id => claim now a id d) d

theorem claimAll_append (ids : List ℕ) :
    claimAll now a (ids ++ [id]) d = claim now a id (claimAll now a ids d) := by
  rw [claimAll, List.foldl_append]
  rfl

theorem stores_claimAll (ids : List ℕ) (d : Db) (row : Row) :
    (claimAll now a ids d).stores row = d.stores row := by
  induction ids generalizing d with
  | nil => rfl
  | cons i ids ih => exact (ih _).trans (stores_claim now a i d row)

theorem claimed_claimAll (ids : List ℕ) (d : Db) :
    claimed a (claimAll now a ids d) id =
      (claimed a d id || decide (id ∈ ids) && d.stores (a.row id)) := by
  induction ids generalizing d with
  | nil => simp [claimAll]
  | cons i ids ih =>
    have hstep : claimAll now a (i :: ids) d = claimAll now a ids (claim now a i d) := rfl
    rw [hstep, ih, claimed_claim, stores_claim]
    by_cases hi : id = i
    · rw [hi]
      cases claimed a d i <;> cases d.stores (a.row i) <;> simp
    · simp [hi]

theorem claim_addAuditLogs (logs : List AuditLog) :
    claim now a id (addAuditLogs logs d) = addAuditLogs logs (claim now a id d) := by
  cases a <;> rfl

theorem claimAll_addAuditLogs (logs : List AuditLog) (ids : List ℕ) (d : Db) :
    claimAll now a ids (addAuditLogs logs d) = addAuditLogs logs (claimAll now a ids d) := by
  induction ids generalizing d with
  | nil => rfl
  | cons i ids ih =>
    have hstep : ∀ d, claimAll now a (i :: ids) d = claimAll now a ids (claim now a i d) :=
      fun _ => rfl
    rw [hstep, hstep, claim_addAuditLogs, ih]

/-- A claim with its audit row, which only escalations have. -/
def claimLogged (now : Instant) (a : Alert) (id : ℕ) (d : Db) : Db :=
  if a = .slaBreach then addAuditLogs [escalationLog now id] (claim now a id d)
  else claim now a id d

/-- The audit rows of a sweep, written after the claims, go with them one by one. -/
theorem foldl_claimLogged (ids : List ℕ) (d : Db) :
    ids.foldl (fun d id => claimLogged now .slaBreach id d) d =
      addAuditLogs (ids.map (escalationLog now)) (claimAll now .slaBreach ids d) := by
  induction ids generalizing d with
  | nil => simp [claimAll, addAuditLogs]
  | cons i ids ih =>
    have hstep : claimAll now .slaBreach (i :: ids) d =
        claimAll now .slaBreach ids (claim now .slaBreach i d) := rfl
    rw [List.foldl_cons, ih, hstep, claimLogged, if_pos rfl, claimAll_addAuditLogs]
    simp [addAuditLogs, List.append_assoc]

theorem foldl_claimLogged_of_ne (ha : a ≠ .slaBreach) (ids : List ℕ) (d : Db) :
    ids.foldl (fun d id => claimLogged now a id d) d = claimAll now a ids d := by
  rw [claimAll]
  congr 1
  funext d id
  exact if_neg ha

end Claims

section Commits

variable {d : Db} {held : List (Row × LockMode)} {now : Instant} {a : Alert} {id : ℕ}

theorem statusOf_setTicket (set : ComplaintTicket → ComplaintTicket)
    (hset : ∀ t, (set t).id = t.id) (id' : ℕ) :
    statusOf (setTicket id set hset d) id' =
      if id' = id then (d.tickets.find? id').map fun t => (set t).status
      else statusOf d id' := by
  by_cases hid : id' = id
  · simp [statusOf, setTicket, hid, Table.find?_updateMany_key, Function.comp_def]
  · simp [statusOf, setTicket, hid, Table.find?_updateMany_key]

/-- Only an escalation changes a ticket's status. -/
theorem statusOf_claim (ha : a ≠ .slaBreach) (id' : ℕ) :
    statusOf (claim now a id d) id' = statusOf d id' := by
  cases a with
  | slaWarning =>
    refine (statusOf_setTicket (fun t => { t with slaWarningSentAt := some now })
      (fun _ => rfl) id').trans ?_
    split_ifs with hid
    · rw [statusOf]
    · rfl
  | slaBreach => exact absurd rfl ha
  | staleSent => rfl
  | approachingDue => rfl
  | overdueUnsent => rfl
  | takedownWarning => rfl
  | takedownBreach => rfl

theorem claimed_slaBreach : claimed .slaBreach d id = true ↔
    statusOf d id = some .escalated ∨ statusOf d id = some .resolved := by
  rw [claimed, statusOf]
  cases d.tickets.find? id with
  | none => simp
  | some t => cases hstatus : t.status <;> simp [unanswered, hstatus]

/-- Facts about one claimed row that the other claims leave as they are. -/
theorem returned_claim (hclaimed : claimed a d id = false) (hstores : d.stores (a.row id) = true) :
    ∃ news, (claim now a id d).returned = news ++ d.returned ∧ news.Nodup ∧
      ∀ p ∈ news, claimed p.1 d p.2 = false ∧ claimed p.1 (claim now a id d) p.2 = true := by
  refine ⟨[(a, id)], rfl, List.nodup_singleton _, ?_⟩
  intro p hp
  rw [List.mem_singleton.mp hp]
  refine ⟨hclaimed, ?_⟩
  rw [claimed_claim, hstores]
  simp

theorem progress_claim (ha : a ≠ .slaBreach) (hclaimed : claimed a d id = false)
    (hstores : d.stores (a.row id) = true) (howns : Owns held (a.row id)) :
    Progress d (claim now a id d) held where
  stores := fun row hrow => by rwa [stores_claim]
  claims := fun b i hb => by rw [claimed_claim, hb, Bool.true_or]
  owned := by
    intro b i hne
    rw [claimed_claim] at hne
    by_cases hrow : b = a ∧ i = id
    · rw [hrow.1, hrow.2]
      exact howns
    · simp [hrow] at hne
  status := fun i hne => absurd (statusOf_claim ha i) hne
  resolved := fun i hi => by rwa [statusOf_claim ha]
  escalations := fun i => by cases a <;> exact le_rfl
  audited := by
    intro i hi
    rw [statusOf_claim ha]
    cases a <;> exact hi
  returned := returned_claim hclaimed hstores

/-- A status change that the transition map allows, with as many escalation
rows as it makes. -/
theorem audited_move {source target : ComplaintStatus} {count : ℕ}
    (hallowed : source ∈ allowedComplaintFrom target) (h : Audited (some source) count) :
    Audited (some target) (count + if target = .escalated then 1 else 0) := by
  cases source <;> cases target <;> simp_all [Audited, allowedComplaintFrom, allowedFrom,
    isTransitionAllowed, complaintTransitions, complaintStatuses]

/-- The only change out of escalated or resolved is from the one to the other. -/
theorem allowed_of_claimed {source target : ComplaintStatus}
    (hallowed : source ∈ allowedComplaintFrom target)
    (hsource : source = .escalated ∨ source = .resolved) :
    source = .escalated ∧ target = .resolved := by
  cases source <;> cases target <;> simp_all [allowedComplaintFrom, allowedFrom,
    isTransitionAllowed, complaintTransitions, complaintStatuses]

/-- Write a ticket's status and audit rows, and return the row if a sweep does it. -/
def moveTicket (id : ℕ) (set : ComplaintTicket → ComplaintTicket) (hset : ∀ t, (set t).id = t.id)
    (logs : List AuditLog) (news : List (Alert × ℕ)) (d : Db) : Db :=
  { addAuditLogs logs (setTicket id set hset d) with returned := news ++ d.returned }

section Moves

variable {set : ComplaintTicket → ComplaintTicket} {hset : ∀ t, (set t).id = t.id}
  {logs : List AuditLog} {news : List (Alert × ℕ)} {source target : ComplaintStatus}

theorem statusOf_moveTicket (hstatus : statusOf d id = some source)
    (htarget : ∀ t, (set t).status = target) (i : ℕ) :
    statusOf (moveTicket id set hset logs news d) i =
      if i = id then some target else statusOf d i := by
  refine (statusOf_setTicket set hset i).trans ?_
  split_ifs with hi
  · rw [hi]
    rw [statusOf] at hstatus
    obtain ⟨t, ht, _⟩ := Option.map_eq_some_iff.mp hstatus
    rw [ht]
    exact congrArg some (htarget t)
  · rfl

/-- A status change claims its ticket for escalation, and nothing else. -/
theorem claimed_moveTicket (hwarned : ∀ t, (set t).slaWarningSentAt = t.slaWarningSentAt)
    (b : Alert) (i : ℕ) (hb : b ≠ .slaBreach ∨ i ≠ id) :
    claimed b (moveTicket id set hset logs news d) i = claimed b d i := by
  by_cases hi : i = id
  · have hne := hb.resolve_right (fun h => h hi)
    cases b with
    | slaWarning =>
      simp only [claimed, moveTicket, addAuditLogs, setTicket, Table.find?_updateMany_key, hi,
        if_true, Option.any_map, hwarned]
    | slaBreach => exact absurd rfl hne
    | staleSent => rfl
    | approachingDue => rfl
    | overdueUnsent => rfl
    | takedownWarning => rfl
    | takedownBreach => rfl
  · cases b <;> simp [claimed, moveTicket, addAuditLogs, setTicket, Table.find?_updateMany_key, hi]

theorem stores_moveTicket (row : Row) :
    (moveTicket id set hset logs news d).stores row = d.stores row := by
  cases row <;> simp [moveTicket, addAuditLogs, setTicket, Db.stores, Table.find?_updateMany]

theorem escalations_moveTicket
    (hlogs : ∀ i, logs.countP (isEscalation i) = if i = id ∧ target = .escalated then 1 else 0)
    (i : ℕ) : escalations (moveTicket id set hset logs news d) i =
      escalations d i + if i = id ∧ target = .escalated then 1 else 0 := by
  rw [← hlogs, escalations, escalations, ← List.countP_append]
  rfl

/-- The row that an escalation returns was not claimed, and is. -/
theorem returned_moveTicket (hstatus : statusOf d id = some source)
    (hallowed : source ∈ allowedComplaintFrom target) (htarget : ∀ t, (set t).status = target)
    (hnews : news = [] ∨ news = [(.slaBreach, id)] ∧ target = .escalated) :
    news.Nodup ∧ ∀ p ∈ news, claimed p.1 d p.2 = false ∧
      claimed p.1 (moveTicket id set hset logs news d) p.2 = true := by
  rcases hnews with hnews | ⟨hnews, hescalated⟩
  · rw [hnews]
    exact ⟨List.nodup_nil, fun p hp => absurd hp List.not_mem_nil⟩
  · rw [hnews]
    refine ⟨List.nodup_singleton _, ?_⟩
    intro p hp
    rw [List.mem_singleton.mp hp]
    refine ⟨?_, ?_⟩
    · rw [← Bool.not_eq_true, claimed_slaBreach, hstatus, Option.some.injEq, Option.some.injEq]
      intro hclaimed
      have hresolved := (allowed_of_claimed hallowed hclaimed).2
      rw [hescalated] at hresolved
      cases hresolved
    · refine claimed_slaBreach.mpr (.inl ?_)
      rw [statusOf_moveTicket hstatus htarget, if_pos rfl, hescalated]

/-- Allowed status changes under the ticket's lock are progress. -/
theorem progress_move (hstatus : statusOf d id = some source)
    (hallowed : source ∈ allowedComplaintFrom target) (howns : Owns held (.ticket id))
    (htarget : ∀ t, (set t).status = target)
    (hwarned : ∀ t, (set t).slaWarningSentAt = t.slaWarningSentAt)
    (hlogs : ∀ i, logs.countP (isEscalation i) = if i = id ∧ target = .escalated then 1 else 0)
    (hnews : news = [] ∨ news = [(.slaBreach, id)] ∧ target = .escalated) :
    Progress d (moveTicket id set hset logs news d) held where
  stores := fun row hrow => by rwa [stores_moveTicket]
  claims := by
    intro b i hb
    by_cases hrow : b = .slaBreach ∧ i = id
    · rw [hrow.1, hrow.2] at hb ⊢
      rw [claimed_slaBreach, statusOf_moveTicket hstatus htarget, if_pos rfl]
      rw [claimed_slaBreach, hstatus, Option.some.injEq, Option.some.injEq] at hb
      exact Or.inr (congrArg some (allowed_of_claimed hallowed hb).2)
    · rwa [claimed_moveTicket hwarned b i (not_and_or.mp hrow)]
  owned := by
    intro b i hne
    by_cases hrow : b = .slaBreach ∧ i = id
    · rw [hrow.1, hrow.2]
      exact howns
    · exact absurd (claimed_moveTicket hwarned b i (not_and_or.mp hrow)) hne
  status := by
    intro i hne
    rw [statusOf_moveTicket hstatus htarget] at hne
    by_cases hi : i = id
    · rw [hi]
      exact .inr howns
    · rw [if_neg hi] at hne
      exact absurd rfl hne
  resolved := by
    intro i hi
    rw [statusOf_moveTicket hstatus htarget]
    split_ifs with heq
    · rw [heq, hstatus] at hi
      have hresolved := Option.some.inj hi
      have hescalated := (allowed_of_claimed hallowed (Or.inr hresolved)).1
      rw [hresolved] at hescalated
      cases hescalated
    · exact hi
  escalations := by
    intro i
    rw [escalations_moveTicket hlogs]
    exact Nat.le_add_right _ _
  audited := by
    intro i hi
    rw [escalations_moveTicket hlogs, statusOf_moveTicket hstatus htarget]
    by_cases heq : i = id
    · rw [heq, hstatus] at hi
      simpa [heq] using audited_move hallowed hi
    · simpa [heq] using hi
  returned := ⟨news, rfl, returned_moveTicket hstatus hallowed htarget hnews⟩

end Moves

/-- A status change without audit rows. -/
theorem progress_setStatus {now : Instant} {target : ComplaintStatus}
    (hmoving : (∃ source, statusOf d id = some source ∧ source ∈ allowedComplaintFrom target) ∧
      Owns held (.ticket id)) (htarget : target ≠ .escalated) :
    Progress d (setStatus id target now d) held := by
  obtain ⟨⟨source, hsource, hallowed⟩, howns⟩ := hmoving
  have hmove : setStatus id target now d = moveTicket id (fun t =>
      { t with
        status := target
        resolvedAt := if target = .resolved then some now else t.resolvedAt
        updatedAt := now }) (fun _ => rfl) [] [] d := by
    simp [moveTicket, addAuditLogs, setStatus, setTicket]
  rw [hmove]
  refine progress_move hsource hallowed howns (fun _ => rfl) (fun _ => rfl) ?_ (.inl rfl)
  intro i
  simp [htarget]

theorem countP_escalationLog (i : ℕ) :
    [escalationLog now id].countP (isEscalation i) =
      if i = id ∧ ComplaintStatus.escalated = .escalated then 1 else 0 := by
  by_cases hi : i = id <;> simp [isEscalation, escalationLog, hi, Ne.symm]

/-- One row of a sweep, still unclaimed when the sweep gets it. -/
theorem progress_claimLogged (hclaimed : claimed a d id = false)
    (hstores : d.stores (a.row id) = true) (howns : Owns held (a.row id)) :
    Progress d (claimLogged now a id d) held := by
  by_cases ha : a = .slaBreach
  · rw [ha] at hclaimed hstores howns ⊢
    obtain ⟨t, ht⟩ := Option.isSome_iff_exists.mp hstores
    have hstatus : statusOf d id = some t.status := by rw [statusOf, ht]; rfl
    have hopen : t.status ∈ allowedComplaintFrom .escalated := by
      rw [claimed, ht] at hclaimed
      cases hs : t.status <;> simp_all [unanswered, allowedComplaintFrom, allowedFrom,
        isTransitionAllowed, complaintTransitions, complaintStatuses]
    rw [claimLogged, if_pos rfl]
    change Progress d (moveTicket id
      (fun t => { t with status := .escalated, updatedAt := now }) (fun _ => rfl)
      [escalationLog now id] [(.slaBreach, id)] d) held
    exact progress_move hstatus hopen howns (fun _ => rfl) (fun _ => rfl) countP_escalationLog
      (.inr ⟨rfl, rfl⟩)
  · rw [claimLogged, if_neg ha]
    exact progress_claim ha hclaimed hstores howns

/-- All rows of a sweep. -/
theorem progress_sweep {ids : List ℕ} (hnodup : ids.Nodup)
    (hids : ∀ i ∈ ids, claimed a d i = false ∧ d.stores (a.row i) = true ∧ Owns held (a.row i)) :
    Progress d (ids.foldl (fun d i => claimLogged now a i d) d) held := by
  induction ids generalizing d with
  | nil => exact Progress.refl _ _
  | cons i ids ih =>
    obtain ⟨hi, hnodup'⟩ := List.nodup_cons.mp hnodup
    obtain ⟨hclaimed, hstores, howns⟩ := hids i List.mem_cons_self
    have hfirst : Progress d (claimLogged now a i d) held :=
      progress_claimLogged hclaimed hstores howns
    refine hfirst.trans (ih hnodup' ?_)
    intro j hj
    obtain ⟨hclaimed', hstores', howns'⟩ := hids j (List.mem_cons_of_mem _ hj)
    refine ⟨?_, hfirst.stores _ hstores', howns'⟩
    have hne : j ≠ i := fun heq => hi (heq ▸ hj)
    have hsame : claimed a (claimLogged now a i d) j = claimed a (claim now a i d) j := by
      rw [claimLogged]
      split_ifs
      · cases a <;> rfl
      · rfl
    rw [hsame, claimed_claim, hclaimed']
    simp [hne]

/-- Writes that touch no claim and no ticket in use. -/
theorem progress_same {d' : Db} (hstores : ∀ row, d.stores row = true → d'.stores row = true)
    (hclaimed : ∀ a i, claimed a d' i = claimed a d i)
    (hstatus : ∀ i, statusOf d' i = statusOf d i ∨
      statusOf d i = none ∧ statusOf d' i = some .opened)
    (hlogs : ∀ i, escalations d' i = escalations d i) (hreturned : d'.returned = d.returned) :
    Progress d d' [] where
  stores := hstores
  claims := fun a i hi => by rwa [hclaimed]
  owned := fun a i hne => absurd (hclaimed a i) hne
  status := fun i hne => .inl ((hstatus i).resolve_left hne).1
  resolved := by
    intro i hi
    rcases hstatus i with hsame | ⟨hnone, _⟩
    · rwa [hsame]
    · rw [hnone] at hi
      cases hi
  escalations := fun i => (hlogs i).ge
  audited := by
    intro i hi
    rw [hlogs]
    rcases hstatus i with hsame | ⟨hnone, hopened⟩
    · rwa [hsame]
    · rw [hnone] at hi
      rw [hopened]
      exact hi
  returned := ⟨[], hreturned, List.nodup_nil, fun _ hp => absurd hp List.not_mem_nil⟩

end Commits

/-- A write that is progress wherever it commits, under no lock. -/
def Plain (e : Db → Db) : Prop := ∀ d, Progress d (e d) []

section PlainWrites

theorem plain_id : Plain id := fun d => Progress.refl d []

theorem plain_comp (f g : Db → Db) (hf : Plain f) (hg : Plain g) : Plain fun d => g (f d) :=
  fun d => (hf d).trans (hg (f d))

theorem plain_messages (messages : List ComplaintMessage) :
    Plain fun d => { d with messages := d.messages ++ messages } := by
  intro d
  refine progress_same (fun row hrow => ?_) (fun a i => ?_) (fun i => .inl rfl) (fun _ => rfl) rfl
  · cases row <;> exact hrow
  · cases a <;> rfl

theorem plain_addAuditLogs {logs : List AuditLog}
    (h : ∀ log ∈ logs, log.entity ≠ "ComplaintTicket") : Plain (addAuditLogs logs) := by
  intro d
  refine progress_same (fun row hrow => ?_) (fun a i => ?_) (fun i => .inl rfl) (fun i => ?_) rfl
  · cases row <;> exact hrow
  · cases a <;> rfl
  · have hnone : logs.countP (isEscalation i) = 0 := by
      rw [List.countP_eq_zero]
      intro log hlog
      simp [isEscalation, h log hlog]
    rw [escalations, addAuditLogs, List.countP_append, hnone, Nat.add_zero, escalations]

theorem plain_setReport {id : ℕ} {set : ContentReport → ContentReport}
    {hset : ∀ r, (set r).id = r.id}
    (hwarned : ∀ r, (set r).takedownWarningSentAt = r.takedownWarningSentAt)
    (hbreached : ∀ r, (set r).takedownBreachedSentAt = r.takedownBreachedSentAt) :
    Plain (setReport id set hset) := by
  intro d
  refine progress_same (fun row hrow => ?_) (fun a i => ?_) (fun i => .inl rfl) (fun _ => rfl) rfl
  · cases row with
    | ticket i => exact hrow
    | batch i => exact hrow
    | report i => simpa [Db.stores, setReport, Table.find?_updateMany] using hrow
  · by_cases hi : i = id
    · cases a <;> simp [claimed, setReport, Table.find?_updateMany_key, hi, Option.any_map,
        hwarned, hbreached]
    · cases a <;> simp [claimed, setReport, Table.find?_updateMany_key, hi]

theorem plain_setBatch {id : ℕ} {set : SettlementBatch → SettlementBatch}
    {hset : ∀ b, (set b).id = b.id}
    (hstale : ∀ b, (set b).reconciliationAlertSentAt = b.reconciliationAlertSentAt)
    (hdue : ∀ b, (set b).payoutDueWarningSentAt = b.payoutDueWarningSentAt)
    (hoverdue : ∀ b, (set b).payoutOverdueAlertSentAt = b.payoutOverdueAlertSentAt) :
    Plain (setBatch id set hset) := by
  intro d
  refine progress_same (fun row hrow => ?_) (fun a i => ?_) (fun i => .inl rfl) (fun _ => rfl) rfl
  · cases row with
    | ticket i => exact hrow
    | batch i => simpa [Db.stores, setBatch, Table.find?_updateMany] using hrow
    | report i => exact hrow
  · by_cases hi : i = id
    · cases a <;> simp [claimed, setBatch, Table.find?_updateMany_key, hi, Option.any_map,
        hstale, hdue, hoverdue]
    · cases a <;> simp [claimed, setBatch, Table.find?_updateMany_key, hi]

/-- A new row, or nothing when its key is taken. -/
theorem find?_insertNew_cases {ρ : Type} {key : ρ → ℕ} (t : Table key) (r : ρ) (i : ℕ) :
    (t.insertNew r).find? i = t.find? i ∨
      t.find? i = none ∧ (t.insertNew r).find? i = some r := by
  by_cases hi : key r = i
  · cases hfind : t.find? i with
    | none =>
      rw [← hi] at hfind ⊢
      exact .inr ⟨rfl, Table.find?_insertNew_self hfind⟩
    | some s => exact .inl (Table.find?_insertNew_of_some hfind)
  · exact .inl (Table.find?_insertNew_of_ne hi)

theorem plain_insertTicket {ticket : ComplaintTicket} (hstatus : ticket.status = .opened)
    (hwarned : ticket.slaWarningSentAt = none) :
    Plain fun d => { d with tickets := d.tickets.insertNew ticket } := by
  intro d
  refine progress_same (fun row hrow => ?_) (fun a i => ?_) (fun i => ?_) (fun _ => rfl) rfl
  · cases row with
    | ticket i =>
      obtain ⟨t, ht⟩ := Option.isSome_iff_exists.mp hrow
      simp [Db.stores, Table.find?_insertNew_of_some ht]
    | batch i => exact hrow
    | report i => exact hrow
  · rcases find?_insertNew_cases d.tickets ticket i with hsame | ⟨hnone, hnew⟩
    · cases a <;> simp [claimed, hsame]
    · cases a <;> simp [claimed, hnone, hnew, hwarned, hstatus, unanswered]
  · rcases find?_insertNew_cases d.tickets ticket i with hsame | ⟨hnone, hnew⟩
    · exact .inl (by rw [statusOf, hsame, statusOf])
    · exact .inr ⟨by rw [statusOf, hnone]; rfl, by rw [statusOf, hnew, Option.map_some, hstatus]⟩

theorem plain_insertReport {report : ContentReport} (hwarned : report.takedownWarningSentAt = none)
    (hbreached : report.takedownBreachedSentAt = none) :
    Plain fun d => { d with reports := d.reports.insertNew report } := by
  intro d
  refine progress_same (fun row hrow => ?_) (fun a i => ?_) (fun i => .inl rfl) (fun _ => rfl) rfl
  · cases row with
    | ticket i => exact hrow
    | batch i => exact hrow
    | report i =>
      obtain ⟨r, hr⟩ := Option.isSome_iff_exists.mp hrow
      simp [Db.stores, Table.find?_insertNew_of_some hr]
  · rcases find?_insertNew_cases d.reports report i with hsame | ⟨hnone, hnew⟩
    · cases a <;> simp [claimed, hsame]
    · cases a <;> simp [claimed, hnone, hnew, hwarned, hbreached]

theorem plain_insertBatch {batch : SettlementBatch}
    (hstale : batch.reconciliationAlertSentAt = none) (hdue : batch.payoutDueWarningSentAt = none)
    (hoverdue : batch.payoutOverdueAlertSentAt = none) :
    Plain fun d => { d with batches := d.batches.insertNew batch } := by
  intro d
  refine progress_same (fun row hrow => ?_) (fun a i => ?_) (fun i => .inl rfl) (fun _ => rfl) rfl
  · cases row with
    | ticket i => exact hrow
    | batch i =>
      obtain ⟨b, hb⟩ := Option.isSome_iff_exists.mp hrow
      simp [Db.stores, Table.find?_insertNew_of_some hb]
    | report i => exact hrow
  · rcases find?_insertNew_cases d.batches batch i with hsame | ⟨hnone, hnew⟩
    · cases a <;> simp [claimed, hsame]
    · cases a <;> simp [claimed, hnone, hnew, hstale, hdue, hoverdue]

theorem writes_adminAction (adminId reportId : ℕ) (note : Option String) (now : Instant) :
    Writes Plain (adminAction adminId reportId note now) := by
  intro d
  dsimp only
  cases d.reports.find? reportId with
  | none => trivial
  | some report =>
    dsimp only
    split_ifs
    · trivial
    · refine ⟨plain_setReport (fun _ => rfl) (fun _ => rfl), ?_⟩
      intro matched
      cases matched with
      | false => trivial
      | true =>
        refine ⟨plain_addAuditLogs ?_, trivial⟩
        intro log hlog
        rw [List.mem_singleton.mp hlog]
        exact ne_of_beq_false rfl

theorem writes_adminDismiss (adminId reportId : ℕ) (note : Option String) (now : Instant) :
    Writes Plain (adminDismiss adminId reportId note now) := by
  intro d
  dsimp only
  cases d.reports.find? reportId with
  | none => trivial
  | some report =>
    dsimp only
    split_ifs
    · trivial
    · refine ⟨plain_setReport (fun _ => rfl) (fun _ => rfl), ?_⟩
      intro matched
      cases matched with
      | false => trivial
      | true =>
        refine ⟨plain_addAuditLogs ?_, trivial⟩
        intro log hlog
        rw [List.mem_singleton.mp hlog]
        exact ne_of_beq_false rfl

end PlainWrites

end Kurtar.SweepProgress

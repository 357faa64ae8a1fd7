import Kurtar.SweepProgress

/-!
# Each row is claimed once

As long as every row that a sweep updates is still unclaimed when the sweep
gets it, no row is returned twice, every escalated ticket has one audit row,
and resolved tickets stay resolved. The code does not check this: the guards
of its sweeps stand in the sub-selects only.
-/

namespace Kurtar.SweepClaims

open GuardedRuns KeyedTable LockedTransactions Transaction StatusTransitions AlertSweeps
open SweepProgress

/-- The row that a sweep has just got is still unclaimed. -/
def Unclaimed (d : Db) (x : Transaction Db Row) : Prop :=
  ∀ now a id ids returned, x.program = sweepRows now a (id :: ids) returned →
    claimed a (x.effect d) id = false

/-- A row that a sweep has claimed and not yet committed. -/
def Claiming (d : Db) (held : List (Row × LockMode)) (a : Alert) (ids : List ℕ) : Prop :=
  ids.Nodup ∧
    ∀ i ∈ ids, claimed a d i = false ∧ d.stores (a.row i) = true ∧ Owns held (a.row i)

/-- A ticket about to be moved under its lock. -/
def Moving (d : Db) (held : List (Row × LockMode)) (id : ℕ) (target : ComplaintStatus) : Prop :=
  (∃ source, statusOf d id = some source ∧ source ∈ allowedComplaintFrom target) ∧
    Owns held (.ticket id)

/-- The audit row counts as an escalation exactly when the ticket is escalated. -/
def LogOf (id : ℕ) (target : ComplaintStatus) (log : AuditLog) : Prop :=
  ∀ i, [log].countP (isEscalation i) = if i = id ∧ target = .escalated then 1 else 0

/-- Where a transaction is, what it has written and what it owns. -/
inductive Stage (d : Db) (program : Program Db Row) (effect : Db → Db)
    (held : List (Row × LockMode)) : Prop
  | plain (hprogram : Writes Plain program) (heffect : Plain effect)
  | selecting (now : Instant) (a : Alert) (select : Db → List ℕ)
    (hprogram : program = sweep now a select) (heffect : effect = id)
  | sweeping (now : Instant) (a : Alert) (ids returned : List ℕ)
    (hprogram : program = sweepRows now a ids returned)
    (heffect : effect = claimAll now a returned) (hclaiming : Claiming d held a returned)
  | swept (now : Instant) (returned : List ℕ) (hprogram : program = .commit)
    (heffect : effect = fun d => addAuditLogs (returned.map (escalationLog now))
      (claimAll now .slaBreach returned d))
    (hclaiming : Claiming d held .slaBreach returned)
  | deciding (adminId id : ℕ) (target : ComplaintStatus) (action : String)
    (note : Option String) (now : Instant)
    (hprogram : program = transitionAsAdmin adminId id target action note now)
    (heffect : effect = fun d => d) (haction : ∀ source,
      LogOf id target ⟨some adminId, action, "ComplaintTicket", id, .transition source target note⟩)
  | transition (id : ℕ) (target : ComplaintStatus) (now : Instant) (log : AuditLog)
    (hprogram : program = .update (.ticket id) .noKeyUpdate (mayBecome id target)
      (setStatus id target now) fun updated =>
        if updated then .insert (addAuditLogs [log]) .commit else .rollback)
    (heffect : effect = fun d => d) (hlog : LogOf id target log)
  | logging (id : ℕ) (target : ComplaintStatus) (now : Instant) (log : AuditLog)
    (hprogram : program = .insert (addAuditLogs [log]) .commit)
    (heffect : effect = setStatus id target now) (hlog : LogOf id target log)
    (hmoving : Moving d held id target)
  | logged (id : ℕ) (target : ComplaintStatus) (now : Instant) (log : AuditLog)
    (hprogram : program = .commit)
    (heffect : effect = fun d => addAuditLogs [log] (setStatus id target now d))
    (hlog : LogOf id target log) (hmoving : Moving d held id target)
  | writing (user : Principal) (complaintId : ℕ) (body : String) (now : Instant)
    (hprogram : program = addMessage user complaintId body now) (heffect : effect = fun d => d)
  | messaging (messages : List ComplaintMessage) (user : Principal) (id : ℕ) (now : Instant)
    (hprogram : program =
      .insert (fun d => { d with messages := d.messages ++ messages }) (match user with
        | .merchant _ _ =>
          .update (.ticket id) .noKeyUpdate (mayBecome id .merchantResponded)
            (setStatus id .merchantResponded now) fun _ => .commit
        | _ => .commit))
    (heffect : effect = fun d => d)
  | responding (messages : List ComplaintMessage) (id : ℕ) (now : Instant)
    (hprogram : program = .update (.ticket id) .noKeyUpdate (mayBecome id .merchantResponded)
      (setStatus id .merchantResponded now) fun _ => .commit)
    (heffect : effect = fun d => { d with messages := d.messages ++ messages })
  | responded (messages : List ComplaintMessage) (id : ℕ) (now : Instant)
    (hprogram : program = .commit)
    (heffect : effect = fun d => setStatus id .merchantResponded now
      { d with messages := d.messages ++ messages })
    (hmoving : Moving d held id .merchantResponded)

section Stages

variable {d d' : Db} {x y : Transaction Db Row} {held : List (Row × LockMode)}

/-- The stage a transaction is in. -/
abbrev At (d : Db) (x : Transaction Db Row) : Prop := Stage d x.program x.effect x.held

theorem logOf_transition {adminId id : ℕ} {target source : ComplaintStatus} {action : String}
    {note : Option String} (haction : action = "complaint.escalate" ↔ target = .escalated)
    (hsystem : action ≠ "complaint.sla_breach_escalate") : LogOf id target
      ⟨some adminId, action, "ComplaintTicket", id, .transition source target note⟩ := by
  intro i
  by_cases hi : i = id
  · simp [isEscalation, hi, hsystem, haction]
  · simp [isEscalation, hi, Ne.symm hi]

theorem stage_started (d : Db) (request : Request) : At d (begin (program request)) := by
  cases request with
  | warnApproaching now tie => exact .selecting _ _ _ rfl rfl
  | escalateBreached now tie => exact .selecting _ _ _ rfl rfl
  | claimStaleSent now tie => exact .selecting _ _ _ rfl rfl
  | claimApproachingDue now warnThreshold tie => exact .selecting _ _ _ rfl rfl
  | claimOverdueUnsent now tie => exact .selecting _ _ _ rfl rfl
  | warnApproachingTakedown now tie => exact .selecting _ _ _ rfl rfl
  | warnBreached now tie => exact .selecting _ _ _ rfl rfl
  | adminResolve adminId id note now =>
    exact .deciding adminId id .resolved "complaint.resolve" note now rfl rfl fun _ =>
      logOf_transition (by decide) (by decide)
  | adminEscalate adminId id note now =>
    exact .deciding adminId id .escalated "complaint.escalate" note now rfl rfl fun _ =>
      logOf_transition (by decide) (by decide)
  | addMessage user complaintId body now => exact .writing user complaintId body now rfl rfl
  | adminAction adminId reportId note now =>
    exact .plain (writes_adminAction adminId reportId note now) plain_id
  | adminDismiss adminId reportId note now =>
    exact .plain (writes_adminDismiss adminId reportId note now) plain_id
  | writeBatch id status sentAt dueAt =>
    exact .plain ⟨plain_setBatch (fun _ => rfl) (fun _ => rfl) fun _ => rfl, fun _ => trivial⟩
      plain_id
  | createComplaint id userId merchantId now =>
    exact .plain ⟨plain_insertTicket rfl rfl, trivial⟩ plain_id
  | createReport id now => exact .plain ⟨plain_insertReport rfl rfl, trivial⟩ plain_id
  | createBatch id => exact .plain ⟨plain_insertBatch rfl rfl rfl, trivial⟩ plain_id

theorem plain_rolling (effect : Db → Db) (heffect : effect = fun d => d) :
    Stage d .rollback effect held := by
  refine .plain trivial ?_
  rw [heffect]
  exact plain_id

/-- The guard of a transition says what the ticket may become. -/
theorem moving_of_guard {id : ℕ} {target : ComplaintStatus} (h : mayBecome id target d = true)
    (howns : Owns held (.ticket id)) : Moving d held id target := by
  rw [mayBecome] at h
  cases hfind : d.tickets.find? id with
  | none => simp [hfind] at h
  | some t =>
    rw [hfind] at h
    exact ⟨⟨t.status, by rw [statusOf, hfind]; rfl, by simpa using h⟩, howns⟩

theorem stage_select {now : Instant} {a : Alert} {select : Db → List ℕ}
    (hprogram : x.program = sweep now a select) (heffect : x.effect = id) : At d (x.issue d) := by
  rw [issue_select hprogram]
  exact .sweeping now a (select (x.effect d)) [] rfl heffect
    ⟨List.nodup_nil, fun _ hi => absurd hi List.not_mem_nil⟩

/-- A sweep without further rows commits, after its audit rows if it has any. -/
theorem stage_finish {now : Instant} {a : Alert} {returned : List ℕ}
    (hprogram : x.program = finish now a returned) (heffect : x.effect = claimAll now a returned)
    (hclaiming : Claiming d x.held a returned) (hcommit : x.program ≠ .commit) :
    At d (x.issue d) := by
  by_cases ha : a = .slaBreach
  · rw [ha] at hprogram heffect hclaiming
    by_cases hsome : returned.length > 0
    · have hinsert := hprogram.trans (if_pos hsome)
      rw [issue_insert hinsert]
      exact .swept now returned rfl (by rw [heffect]) hclaiming
    · exact absurd (hprogram.trans (if_neg hsome)) hcommit
  · have hfinish : finish now a returned = .commit := by
      cases a <;> first | rfl | exact absurd rfl ha
    exact absurd (hprogram.trans hfinish) hcommit

theorem stage_issue (h : At d x) (hcommit : x.program ≠ .commit) : At d (x.issue d) := by
  cases h with
  | plain hprogram heffect =>
    have hissue := hprogram.issue (d := d) plain_id plain_comp heffect
    exact .plain hissue.1 hissue.2
  | selecting now a select hprogram heffect => exact stage_select hprogram heffect
  | sweeping now a ids returned hprogram heffect hclaiming =>
    cases ids with
    | nil => exact stage_finish hprogram heffect hclaiming hcommit
    | cons i ids =>
      rcases issue_update hprogram with hissue | hissue
      · rw [hissue]
        exact .sweeping now a (i :: ids) returned hprogram heffect hclaiming
      · rw [hissue]
        exact .sweeping now a ids returned rfl heffect hclaiming
  | swept _ _ hprogram => exact absurd hprogram hcommit
  | deciding adminId id target action note now hprogram heffect haction =>
    rw [issue_select hprogram]
    dsimp only [At]
    cases (x.effect d).tickets.find? id with
    | none => exact plain_rolling _ heffect
    | some current => exact .transition id target now _ rfl heffect (haction current.status)
  | transition id target now log hprogram heffect hlog =>
    rcases issue_update hprogram with hissue | hissue
    · rw [hissue]
      exact .transition id target now log hprogram heffect hlog
    · rw [hissue]
      exact plain_rolling _ heffect
  | logging id target now log hprogram heffect hlog hmoving =>
    rw [issue_insert hprogram]
    exact .logged id target now log rfl (by rw [heffect]) hlog hmoving
  | logged _ _ _ _ hprogram => exact absurd hprogram hcommit
  | writing user complaintId body now hprogram heffect =>
    rw [issue_select hprogram]
    dsimp only [At]
    cases (x.effect d).tickets.find? complaintId with
    | none => exact plain_rolling _ heffect
    | some complaint =>
      dsimp only
      split_ifs with hmay
      · exact .messaging _ user complaintId now rfl heffect
      · exact plain_rolling _ heffect
  | messaging messages user id now hprogram heffect =>
    rw [issue_insert hprogram]
    have hwritten : (fun d => { x.effect d with messages := (x.effect d).messages ++ messages }) =
        fun d : Db => { d with messages := d.messages ++ messages } := by rw [heffect]
    cases user with
    | merchant _ _ => exact .responding messages id now rfl hwritten
    | admin _ => exact .plain trivial (by rw [hwritten]; exact plain_messages messages)
    | consumer _ => exact .plain trivial (by rw [hwritten]; exact plain_messages messages)
  | responding messages id now hprogram heffect =>
    rcases issue_update hprogram with hissue | hissue
    · rw [hissue]
      exact .responding messages id now hprogram heffect
    · rw [hissue]
      exact .plain trivial (by rw [heffect]; exact plain_messages messages)
  | responded _ _ _ hprogram => exact absurd hprogram hcommit

/-- A sweep claims the unclaimed row it has got. -/
theorem claiming_append {now : Instant} {a : Alert} {i : ℕ} {returned : List ℕ}
    (hclaiming : Claiming d held a returned)
    (hunclaimed : claimed a (claimAll now a returned d) i = false)
    (hstores : (claimAll now a returned d).stores (a.row i) = true) :
    Claiming d ((a.row i, .noKeyUpdate) :: held) a (returned ++ [i]) := by
  rw [stores_claimAll] at hstores
  rw [claimed_claimAll, hstores, Bool.and_true] at hunclaimed
  obtain ⟨hclaimed, hnew⟩ := Bool.or_eq_false_iff.mp hunclaimed
  have hnew' : i ∉ returned := by simpa using hnew
  refine ⟨?_, ?_⟩
  · refine List.nodup_append.mpr ⟨hclaiming.1, List.nodup_singleton i, ?_⟩
    intro j hj k hk heq
    rw [List.mem_singleton.mp hk] at heq
    exact hnew' (heq ▸ hj)
  · intro j hj
    rcases List.mem_append.mp hj with hj | hj
    · obtain ⟨hclaimed', hstores', howns⟩ := hclaiming.2 j hj
      exact ⟨hclaimed', hstores', howns.cons _⟩
    · rw [List.mem_singleton.mp hj]
      exact ⟨hclaimed, hstores, owns_cons_self _ _ (by decide)⟩

theorem Claiming.cons {a : Alert} {ids : List ℕ} (h : Claiming d held a ids)
    (lock : Row × LockMode) : Claiming d (lock :: held) a ids := by
  refine ⟨h.1, ?_⟩
  intro i hi
  obtain ⟨hclaimed, hstores, howns⟩ := h.2 i hi
  exact ⟨hclaimed, hstores, howns.cons lock⟩

theorem stage_grant {want : Row × LockMode} (h : At d x) (hwanted : x.wanted = some want)
    (hunclaimed : Unclaimed d x) : At d (x.grant d) := by
  cases h with
  | plain hprogram heffect =>
    have hgrant := hprogram.grant (d := d) plain_comp heffect
    exact .plain hgrant.1 hgrant.2
  | selecting now a select hprogram =>
    rw [wanted_select hprogram] at hwanted
    cases hwanted
  | sweeping now a ids returned hprogram heffect hclaiming =>
    cases ids with
    | nil =>
      have hnone : x.wanted = none := by
        have hfinish : x.program = finish now a returned := hprogram
        cases a <;> first
          | exact wanted_commit hfinish
          | skip
        by_cases hsome : returned.length > 0
        · exact wanted_insert (hfinish.trans (if_pos hsome))
        · exact wanted_commit (hfinish.trans (if_neg hsome))
      rw [hnone] at hwanted
      cases hwanted
    | cons i ids =>
      have hrow := hunclaimed now a i ids returned hprogram
      rcases grant_update hprogram with ⟨hmatched, hgrant⟩ | ⟨_, hgrant⟩
      · rw [heffect] at hrow hmatched
        rw [hgrant]
        refine .sweeping now a ids (returned ++ [i]) rfl ?_
          (claiming_append hclaiming hrow hmatched)
        funext d'
        rw [heffect, claimAll_append]
      · rw [hgrant]
        exact .sweeping now a ids returned rfl heffect (hclaiming.cons _)
  | swept _ _ hprogram =>
    rw [wanted_commit hprogram] at hwanted
    cases hwanted
  | deciding _ _ _ _ _ _ hprogram =>
    rw [wanted_select hprogram] at hwanted
    cases hwanted
  | transition id target now log hprogram heffect hlog =>
    rcases grant_update hprogram with ⟨hmatched, hgrant⟩ | ⟨_, hgrant⟩
    · rw [heffect] at hmatched
      rw [hgrant]
      exact .logging id target now log rfl (by rw [heffect]) hlog
        (moving_of_guard hmatched (owns_cons_self _ _ (by decide)))
    · rw [hgrant]
      exact plain_rolling _ heffect
  | logging _ _ _ _ hprogram =>
    rw [wanted_insert hprogram] at hwanted
    cases hwanted
  | logged _ _ _ _ hprogram =>
    rw [wanted_commit hprogram] at hwanted
    cases hwanted
  | writing _ _ _ _ hprogram =>
    rw [wanted_select hprogram] at hwanted
    cases hwanted
  | messaging _ _ _ _ hprogram =>
    rw [wanted_insert hprogram] at hwanted
    cases hwanted
  | responding messages id now hprogram heffect =>
    rcases grant_update hprogram with ⟨hmatched, hgrant⟩ | ⟨_, hgrant⟩
    · rw [heffect] at hmatched
      rw [hgrant]
      exact .responded messages id now rfl (by rw [heffect])
        (moving_of_guard (d := d) hmatched (owns_cons_self _ _ (by decide)))
    · rw [hgrant]
      exact .plain trivial (by rw [heffect]; exact plain_messages messages)
  | responded _ _ _ hprogram =>
    rw [wanted_commit hprogram] at hwanted
    cases hwanted

/-- A stage lasts while others commit. -/
theorem stage_progress (hp : Progress d d' held) (hrow : ∀ row, Owns held row → ¬ Owns x.held row)
    (h : At d x) : At d' x := by
  have hclaims : ∀ a ids, Claiming d x.held a ids → Claiming d' x.held a ids := by
    intro a ids hclaiming
    refine ⟨hclaiming.1, ?_⟩
    intro i hi
    obtain ⟨hclaimed, hstores, howns⟩ := hclaiming.2 i hi
    refine ⟨?_, hp.stores _ hstores, howns⟩
    by_contra hnew
    have hne : claimed a d' i ≠ claimed a d i := by rwa [hclaimed]
    exact hrow _ (hp.owned a i hne) howns
  have hmoves : ∀ id target, Moving d x.held id target → Moving d' x.held id target := by
    intro id target hmoving
    obtain ⟨⟨source, hsource, hallowed⟩, howns⟩ := hmoving
    refine ⟨⟨source, ?_, hallowed⟩, howns⟩
    by_contra hne
    have hchanged : statusOf d' id ≠ statusOf d id := by rwa [hsource]
    rcases hp.status id hchanged with hnone | howns'
    · rw [hsource] at hnone
      cases hnone
    · exact hrow _ howns' howns
  cases h with
  | plain hprogram heffect => exact .plain hprogram heffect
  | selecting now a select hprogram heffect => exact .selecting now a select hprogram heffect
  | sweeping now a ids returned hprogram heffect hclaiming =>
    exact .sweeping now a ids returned hprogram heffect (hclaims a returned hclaiming)
  | swept now returned hprogram heffect hclaiming =>
    exact .swept now returned hprogram heffect (hclaims _ returned hclaiming)
  | deciding adminId id target action note now hprogram heffect haction =>
    exact .deciding adminId id target action note now hprogram heffect haction
  | transition id target now log hprogram heffect hlog =>
    exact .transition id target now log hprogram heffect hlog
  | logging id target now log hprogram heffect hlog hmoving =>
    exact .logging id target now log hprogram heffect hlog (hmoves _ _ hmoving)
  | logged id target now log hprogram heffect hlog hmoving =>
    exact .logged id target now log hprogram heffect hlog (hmoves _ _ hmoving)
  | writing user complaintId body now hprogram heffect =>
    exact .writing user complaintId body now hprogram heffect
  | messaging messages user id now hprogram heffect =>
    exact .messaging messages user id now hprogram heffect
  | responding messages id now hprogram heffect =>
    exact .responding messages id now hprogram heffect
  | responded messages id now hprogram heffect hmoving =>
    exact .responded messages id now hprogram heffect (hmoves _ _ hmoving)

/-- A sweep that commits right after its rows has no audit rows to write. -/
theorem sweepRows_commit {now : Instant} {a : Alert} {ids returned : List ℕ}
    (h : sweepRows now a ids returned = .commit) : a = .slaBreach → returned = [] := by
  intro ha
  cases ids with
  | nil =>
    rw [ha] at h
    by_contra hsome
    have hlength : returned.length > 0 := List.length_pos_iff.mpr hsome
    have hinsert : finish now .slaBreach returned = .insert _ _ := if_pos hlength
    have hcommit : finish now .slaBreach returned = .commit := h
    rw [hinsert] at hcommit
    cases hcommit
  | cons i ids => cases h

/-- Every commit is progress. -/
theorem progress_of_commit (h : At d x) (hcommit : x.program = .commit) :
    Progress d (x.effect d) x.held := by
  cases h with
  | plain _ heffect =>
    refine (heffect d).mono ?_
    intro row howns
    obtain ⟨_, hmem, _⟩ := howns
    cases hmem
  | selecting _ _ _ hprogram =>
    rw [hcommit] at hprogram
    cases hprogram
  | sweeping now a ids returned hprogram heffect hclaiming =>
    rw [hcommit] at hprogram
    have hempty := sweepRows_commit hprogram.symm
    rw [heffect]
    by_cases ha : a = .slaBreach
    · rw [hempty ha]
      exact Progress.refl _ _
    · rw [← foldl_claimLogged_of_ne ha]
      exact progress_sweep hclaiming.1 hclaiming.2
  | swept now returned _ heffect hclaiming =>
    rw [heffect]
    dsimp only
    rw [← foldl_claimLogged]
    exact progress_sweep hclaiming.1 hclaiming.2
  | deciding _ _ _ _ _ _ hprogram =>
    rw [hcommit] at hprogram
    cases hprogram
  | transition _ _ _ _ hprogram =>
    rw [hcommit] at hprogram
    cases hprogram
  | logging _ _ _ _ hprogram =>
    rw [hcommit] at hprogram
    cases hprogram
  | logged id target now log _ heffect hlog hmoving =>
    obtain ⟨⟨source, hsource, hallowed⟩, howns⟩ := hmoving
    rw [heffect]
    change Progress d (moveTicket id _ _ [log] [] d) x.held
    exact progress_move hsource hallowed howns (fun _ => rfl) (fun _ => rfl) hlog (.inl rfl)
  | writing _ _ _ _ hprogram =>
    rw [hcommit] at hprogram
    cases hprogram
  | messaging _ _ _ _ hprogram =>
    rw [hcommit] at hprogram
    cases hprogram
  | responding _ _ _ hprogram =>
    rw [hcommit] at hprogram
    cases hprogram
  | responded messages id now _ heffect hmoving =>
    obtain ⟨⟨source, hsource, hallowed⟩, howns⟩ := hmoving
    have hmessages : Progress d { d with messages := d.messages ++ messages } x.held := by
      refine (plain_messages messages d).mono ?_
      intro row howns'
      obtain ⟨_, hmem, _⟩ := howns'
      cases hmem
    refine hmessages.trans ?_
    rw [heffect]
    exact progress_setStatus ⟨⟨source, hsource, hallowed⟩, howns⟩ (by decide)

end Stages

/-- What every committed state satisfies. -/
structure Right (d : Db) : Prop where
  nodup : d.returned.Nodup
  claimed : ∀ p ∈ d.returned, claimed p.1 d p.2 = true
  audited : ∀ id, Audited (statusOf d id) (escalations d id)

theorem right_of_progress {d d' : Db} {held : List (Row × LockMode)} (h : Right d)
    (hp : Progress d d' held) : Right d' := by
  obtain ⟨news, hreturned, hnodup, hnews⟩ := hp.returned
  refine ⟨?_, ?_, fun id => hp.audited id (h.audited id)⟩
  · rw [hreturned]
    refine List.nodup_append.mpr ⟨hnodup, h.nodup, ?_⟩
    intro p hp' q hq heq
    have hclaimed := h.claimed q hq
    rw [← heq, (hnews p hp').1] at hclaimed
    cases hclaimed
  · intro p hmem
    rw [hreturned] at hmem
    rcases List.mem_append.mp hmem with hmem | hmem
    · exact (hnews p hmem).2
    · exact hp.claims _ _ (h.claimed p hmem)

theorem keeps : Keeps AlertSweeps.program Unclaimed Right At where
  started := fun d request _ => stage_started d request
  ended := fun _ => .plain trivial plain_id
  issued := fun _ _ _ hat _ hcommit => stage_issue hat hcommit
  granted := fun _ _ _ _ hat hwanted hunclaimed => stage_grant hat hwanted hunclaimed
  committed := fun _ _ hright hat hcommit => right_of_progress hright (progress_of_commit hat hcommit)
  others := fun _ _ _ _ hx hy hapart hcommit =>
    stage_progress (progress_of_commit hx hcommit) (fun _ howns => hapart.not_owns howns) hy

/-- Nothing is under way, nothing was returned yet, and the audit rows fit the tickets. -/
def Initial (w : World Db Row) : Prop :=
  w.Quiet ∧ w.committed.returned = [] ∧
    ∀ id, Audited (statusOf w.committed id) (escalations w.committed id)

/-- The runs in which each sweep finds the rows it updates unclaimed. -/
abbrev Run (init : World Db Row → Prop) : World Db Row → Prop :=
  Reachable (step AlertSweeps.program) (GrantsMeet Unclaimed) init

theorem holds_of_run {w : World Db Row} (h : Run Initial w) : Holds Right At w := by
  refine keeps.holds ?_ h
  intro w hw
  refine ⟨hw.1, ?_, ?_, hw.2.2⟩
  · rw [hw.2.1]
    exact List.nodup_nil
  · intro p hp
    rw [hw.2.1] at hp
    cases hp

/-- What later states of a run keep of a ticket. -/
theorem later_of_run {w w' : World Db Row} (h : Run Initial w) (h' : Run (fun v => v = w) w')
    (id : ℕ) :
    (statusOf w.committed id = some .resolved → statusOf w'.committed id = some .resolved) ∧
      escalations w.committed id ≤ escalations w'.committed id ∧
        (statusOf w.committed id = some .escalated →
          statusOf w'.committed id = some .escalated ∨ statusOf w'.committed id = some .resolved) := by
  induction h' with
  | start hs =>
    rw [hs]
    exact ⟨fun hid => hid, le_rfl, fun hid => .inl hid⟩
  | @next v v' a hv hok hstep ih =>
    obtain ⟨hresolved, hcount, hescalated⟩ := ih
    rcases committed_step hstep with hsame | ⟨t, hcommit, hcommitted⟩
    · rw [hsame]
      exact ⟨hresolved, hcount, hescalated⟩
    · have hat := (holds_of_run (h.append hv)).2 t
      have hp := progress_of_commit hat hcommit
      rw [← hcommitted] at hp
      refine ⟨fun hid => hp.resolved id (hresolved hid), hcount.trans (hp.escalations id), ?_⟩
      intro hid
      have hclaimed : claimed .slaBreach v.committed id = true :=
        claimed_slaBreach.mpr (hescalated hid)
      exact claimed_slaBreach.mp (hp.claims _ _ hclaimed)

/-- Each row is returned at most once for each alert, each escalated ticket has
exactly one escalation row from then on, and no resolved ticket changes, in
every run in which the sweeps find the rows they update unclaimed. -/
theorem claimed_once_when_unclaimed (w : World Db Row) (h : Run Initial w) :
    w.committed.returned.Nodup ∧
      (∀ id, escalations w.committed id ≤ 1) ∧
      ∀ w', Run (fun v => v = w) w' → ∀ id,
        (statusOf w.committed id = some .escalated → escalations w'.committed id = 1) ∧
          (statusOf w.committed id = some .resolved → statusOf w'.committed id = some .resolved) := by
  have hone : ∀ v, Run Initial v → ∀ id, escalations v.committed id ≤ 1 := by
    intro v hv id
    have haudited := (holds_of_run hv).1.audited id
    unfold Audited at haudited
    split at haudited
    · exact haudited.le
    · exact haudited
    · omega
  refine ⟨(holds_of_run h).1.nodup, hone w h, ?_⟩
  intro w' h' id
  obtain ⟨hresolved, hcount, _⟩ := later_of_run h h' id
  refine ⟨?_, hresolved⟩
  intro hescalated
  have haudited := (holds_of_run h).1.audited id
  rw [hescalated] at haudited
  have hnow : escalations w.committed id = 1 := haudited
  have hlater := hone w' (h.append h') id
  omega

section Sample

/-- A ticket near its deadline and one past it, at time 100. -/
def twoTickets : World Db Row where
  committed :=
    { tickets := Table.insertMany .empty
        [⟨1, 7, none, .opened, 150, none, none, 0⟩, ⟨2, 8, none, .opened, 50, none, none, 0⟩]
      batches := .empty
      reports := .empty
      messages := []
      auditLogs := []
      returned := [] }
  started := 0
  transaction := fun _ => ended

theorem twoTickets_initial : Initial twoTickets := by
  refine ⟨⟨rfl, fun _ => rfl⟩, rfl, ?_⟩
  intro id
  have hopened : ∀ t ∈ twoTickets.committed.tickets.rows, t.status = .opened := by decide +kernel
  rw [statusOf]
  cases hfind : twoTickets.committed.tickets.find? id with
  | none => rfl
  | some t =>
    have hstatus := hopened t (Table.find?_eq_some.mp hfind).1
    rw [Option.map_some, hstatus]
    rfl

/-- Two overlapping warning sweeps and two overlapping escalation sweeps have
selected their rows when an admin resolves the second ticket. -/
def selectedThenResolved : List (Action Request) :=
  [.start (.warnApproaching 100 id), .start (.warnApproaching 100 id),
    .start (.escalateBreached 100 id), .start (.escalateBreached 100 id),
    .issue 0, .issue 1, .issue 2, .issue 3,
    .start (.adminResolve 9 2 none 100), .issue 4, .issue 4, .grant 4, .issue 4, .issue 4]

/-- The sweeps update what they have selected. -/
def sweepsGoOn : List (Action Request) :=
  [.issue 0, .grant 0, .issue 0, .issue 1, .grant 1, .issue 1,
    .issue 2, .grant 2, .issue 2, .issue 2, .issue 3, .grant 3, .issue 3, .issue 3]

/-- The first ticket is returned twice; the resolved one is escalated, twice. -/
theorem claimed_once_counterexample :
    ∃ w w', Reachable (step AlertSweeps.program) anyStep Initial w ∧
      Reachable (step AlertSweeps.program) anyStep (fun v => v = w) w' ∧
        ¬ w'.committed.returned.Nodup ∧ statusOf w.committed 2 = some .resolved ∧
          statusOf w'.committed 2 = some .escalated ∧ escalations w'.committed 2 = 2 := by
  refine ⟨after (step AlertSweeps.program) twoTickets selectedThenResolved,
    after (step AlertSweeps.program) twoTickets (selectedThenResolved ++ sweepsGoOn), ?_, ?_, ?_⟩
  · exact reachable_after (.start twoTickets_initial) (by decide +kernel)
  · exact reachable_of_run (.start rfl) (run_after (by decide +kernel))
  · decide +kernel

/-- An escalation sweep that waits for the second ticket. -/
def escalationWaits : World Db Row :=
  after (step AlertSweeps.program) twoTickets [.start (.escalateBreached 100 id), .issue 0, .issue 0]

theorem escalationWaits_unclaimed :
    Unclaimed escalationWaits.committed (escalationWaits.transaction 0) := by
  intro now a i ids returned hprogram
  have hsweep : (escalationWaits.transaction 0).program = sweepRows 100 .slaBreach [2] [] := rfl
  rw [hsweep] at hprogram
  have hrow : Row.ticket 2 = a.row i := by
    injection hprogram
  cases a with
  | slaWarning =>
    rw [← Row.ticket.inj hrow]
    decide +kernel
  | slaBreach =>
    rw [← Row.ticket.inj hrow]
    decide +kernel
  | staleSent => cases hrow
  | approachingDue => cases hrow
  | overdueUnsent => cases hrow
  | takedownWarning => cases hrow
  | takedownBreach => cases hrow

/-- The same sweep, committed. -/
def escalatedOnce : World Db Row :=
  after (step AlertSweeps.program) escalationWaits [.grant 0, .issue 0, .issue 0]

theorem escalatedOnce_run : Run (fun v => v = escalationWaits) escalatedOnce := by
  refine reachable_after_guarded (.start rfl) ⟨escalationWaits_unclaimed, ?_⟩ (by decide +kernel)
  split
  · refine runMeets_of_noGrants ?_ _
    intro a ha t heq
    rw [heq] at ha
    simp at ha
  · trivial

/-- One escalation sweep alone writes one audit row. -/
theorem claimed_once_when_unclaimed_sample :
    statusOf escalatedOnce.committed 2 = some .escalated ∧
      escalations escalatedOnce.committed 2 = 1 := by
  have hwaits : Run Initial escalationWaits := by
    refine reachable_after_guarded (.start twoTickets_initial) ?_ (by decide +kernel)
    refine runMeets_of_noGrants ?_ _
    intro a ha t heq
    rw [heq] at ha
    simp at ha
  have hescalated : statusOf escalatedOnce.committed 2 = some .escalated := by decide +kernel
  have hrun : Run Initial escalatedOnce := hwaits.append escalatedOnce_run
  exact ⟨hescalated,
    ((claimed_once_when_unclaimed escalatedOnce hrun).2.2 _ (.start rfl) 2).1 hescalated⟩

end Sample

end Kurtar.SweepClaims

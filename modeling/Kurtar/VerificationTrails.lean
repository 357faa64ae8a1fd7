import Kurtar.MerchantOnboarding

/-!
# The verification trail of a merchant

Under every interleaving the statuses recorded for a merchant form a path of
the transition map that starts at DRAFT and ends at the stored status, and
each verification event has announced exactly its own outbox events. The
status a change has read before its update may be out of date by then; when
none is, every recorded change is one that the transition map allows.
-/

namespace Kurtar.VerificationTrails

open GuardedRuns KeyedTable LockedTransactions Transaction StatusTransitions UniqueInserts
open MerchantOnboarding
open AlertSweeps (Instant)

/-- The outbox events about a merchant. -/
def announced (d : Db) (merchantId : Id) : List OutboxEvent :=
  d.outbox.rows.filter fun e => e.merchantId = merchantId

/-- The statuses of a merchant with these verification events. -/
def path (events : List MerchantVerificationEvent) : List MerchantVerificationStatus :=
  .draft :: events.map (·.toStatus)

def Allowed (s t : MerchantVerificationStatus) : Prop := t ∈ merchantVerificationTransitions s

instance (s t : MerchantVerificationStatus) : Decidable (Allowed s t) :=
  inferInstanceAs (Decidable (t ∈ merchantVerificationTransitions s))

theorem allowed_of_mem {s t : MerchantVerificationStatus}
    (h : s ∈ allowedMerchantVerificationFrom t) : Allowed s t := by
  have hs := (List.mem_filter.mp h).2
  simpa [isTransitionAllowed, Allowed] using hs

/-- Every allowed change goes up. -/
def rank : MerchantVerificationStatus → ℕ
  | .draft => 0
  | .submitted => 1
  | .underReview => 2
  | .approved => 3
  | .rejected => 3
  | .suspended => 4

theorem rank_lt {s t : MerchantVerificationStatus} (h : Allowed s t) : rank s < rank t := by
  revert h
  cases s <;> cases t <;> decide

/-- No status is entered twice. -/
theorem nodup_of_isChain {path : List MerchantVerificationStatus} (h : path.IsChain Allowed) :
    path.Nodup := by
  have hrank : (path.map rank).IsChain (· < ·) := by
    rw [List.isChain_map]
    exact h.imp fun _ _ hst => rank_lt hst
  exact (List.isChain_iff_pairwise.mp hrank).nodup.of_map _

section Decisions

/-- What a status change writes. -/
inductive Decision where
  | submission (dto : MerchantSubmitDto) (now : Instant)
  | approval (adminId : Id) (note : Option String) (verifiedAt nextReverifyAt : Instant)
  | rejection (adminId : Id) (note : Option String)
  | suspension (adminId : Id) (note : Option String)

def Decision.target : Decision → MerchantVerificationStatus
  | .submission _ _ => .submitted
  | .approval _ _ _ _ => .approved
  | .rejection _ _ => .rejected
  | .suspension _ _ => .suspended

def Decision.set : Decision → Merchant → Merchant
  | .submission dto now, m =>
    { m with
      verificationStatus := .submitted
      sttAttestationAcceptedAt := some now
      intermediationAcceptedAt := some now
      intermediationContractVersion := some dto.intermediationContractVersion }
  | .approval _ _ verifiedAt nextReverifyAt, m =>
    { (ExtraData.verification verifiedAt nextReverifyAt).set m with
      verificationStatus := .approved }
  | .rejection _ _, m => { m with verificationStatus := .rejected }
  | .suspension _ _, m => { m with verificationStatus := .suspended }

@[simp] theorem Decision.set_id (decision : Decision) (m : Merchant) :
    (decision.set m).id = m.id := by
  cases decision <;> rfl

@[simp] theorem Decision.verificationStatus_set (decision : Decision) (m : Merchant) :
    (decision.set m).verificationStatus = decision.target := by
  cases decision <;> rfl

/-- The verification event of a change that had read the status `current`. -/
def Decision.event (merchantId eventId : Id) (current : MerchantVerificationStatus) :
    Decision → MerchantVerificationEvent
  | .submission dto _ => ⟨eventId, merchantId, current, .submitted, none, none, dto.docsJson⟩
  | .approval adminId note _ _ =>
    ⟨eventId, merchantId, current, .approved, some adminId, note, none⟩
  | .rejection adminId note =>
    ⟨eventId, merchantId, current, .rejected, some adminId, note, none⟩
  | .suspension adminId note =>
    ⟨eventId, merchantId, current, .suspended, some adminId, note, none⟩

variable (merchantId eventId : Id) (current : MerchantVerificationStatus) (decision : Decision)

@[simp] theorem Decision.event_id : (decision.event merchantId eventId current).id = eventId := by
  cases decision <;> rfl

@[simp] theorem Decision.event_merchantId :
    (decision.event merchantId eventId current).merchantId = merchantId := by
  cases decision <;> rfl

@[simp] theorem Decision.event_fromStatus :
    (decision.event merchantId eventId current).fromStatus = current := by
  cases decision <;> rfl

@[simp] theorem Decision.event_toStatus :
    (decision.event merchantId eventId current).toStatus = decision.target := by
  cases decision <;> rfl

/-- The rows that a change creates. -/
def creations : List (Creation Db Row) :=
  newVerificationEvent (decision.event merchantId eventId current) ::
    (announcements (decision.event merchantId eventId current)).map publish

/-- A change after its read. -/
def changeUpdate : Program Db Row :=
  .update (.merchant merchantId) .noKeyUpdate (mayBecome merchantId decision.target)
    (setMerchant merchantId decision.set decision.set_id) fun updated =>
      if updated then createAll Db.stores (creations merchantId eventId current decision)
      else .rollback

def change : Program Db Row :=
  .select fun d =>
    match d.merchants.find? merchantId with
    | none => .rollback
    | some m => changeUpdate merchantId eventId m.verificationStatus decision

variable {merchantId eventId}

theorem submit_eq (dto : MerchantSubmitDto) (now : Instant)
    (h : (!dto.sttAttestationAccepted || !dto.intermediationAccepted) = false) :
    submit merchantId dto now eventId = change merchantId eventId (.submission dto now) := by
  rw [submit, h]
  rfl

theorem adminApprove_eq (adminId : Id) (note : Option String)
    (verifiedAt nextReverifyAt : Instant) :
    adminApprove adminId merchantId note verifiedAt nextReverifyAt eventId =
      change merchantId eventId (.approval adminId note verifiedAt nextReverifyAt) := rfl

theorem adminReject_eq (adminId : Id) (note : Option String) :
    adminReject adminId merchantId note eventId =
      change merchantId eventId (.rejection adminId note) := rfl

theorem adminSuspend_eq (adminId : Id) (note : Option String) :
    adminSuspend adminId merchantId note eventId =
      change merchantId eventId (.suspension adminId note) := rfl

end Decisions

/-- A merchant as signup stores it. -/
structure New (m : Merchant) : Prop where
  draft : m.verificationStatus = .draft
  unverified : m.verifiedAt = none
  unattested : m.sttAttestationAcceptedAt = none

section Records

/-- The events and announcements fit the merchant. `exact` says that no event
has recorded a status that was out of date. -/
structure Recorded (exact : Prop) (events : List MerchantVerificationEvent)
    (published : List OutboxEvent) (m : Merchant) : Prop where
  allowed : (path events).IsChain Allowed
  current : (path events).getLast? = some m.verificationStatus
  earlier : ∀ before e after, events = before ++ e :: after → e.fromStatus ∈ path before
  published_eq : published = events.flatMap announcements
  verified : m.verifiedAt.isSome = true ↔ .approved ∈ path events
  attested : m.sttAttestationAcceptedAt.isSome = true ↔ .submitted ∈ path events
  documents : ∀ e ∈ events, e.docsJson.isSome = true → e.toStatus = .submitted
  exact_eq : exact → events.map (·.fromStatus) = (path events).dropLast

variable {exact : Prop} {events : List MerchantVerificationEvent} {published : List OutboxEvent}
  {m : Merchant}

theorem recorded_of_new (h : New m) : Recorded exact [] [] m where
  allowed := List.isChain_singleton _
  current := by rw [h.draft]; rfl
  earlier := by
    intro before e after hevents
    cases before <;> cases hevents
  published_eq := rfl
  verified := by simp [h.unverified, path]
  attested := by simp [h.unattested, path]
  documents := fun e he => absurd he List.not_mem_nil
  exact_eq := fun _ => rfl

theorem path_append (events : List MerchantVerificationEvent) (e : MerchantVerificationEvent) :
    path (events ++ [e]) = path events ++ [e.toStatus] := by
  rw [path, List.map_append, List.map_singleton]
  rfl

theorem verifiedAt_set (decision : Decision) (m : Merchant) :
    (decision.set m).verifiedAt.isSome = true ↔
      m.verifiedAt.isSome = true ∨ .approved = decision.target := by
  cases decision <;> simp [Decision.set, Decision.target, ExtraData.set]

theorem sttAttestationAcceptedAt_set (decision : Decision) (m : Merchant) :
    (decision.set m).sttAttestationAcceptedAt.isSome = true ↔
      m.sttAttestationAcceptedAt.isSome = true ∨ .submitted = decision.target := by
  cases decision <;> simp [Decision.set, Decision.target, ExtraData.set]

theorem target_of_docsJson {decision : Decision} {merchantId eventId : Id}
    {current : MerchantVerificationStatus}
    (h : (decision.event merchantId eventId current).docsJson.isSome = true) :
    decision.target = .submitted := by
  cases decision with
  | submission _ _ => rfl
  | approval _ _ _ _ => cases h
  | rejection _ _ => cases h
  | suspension _ _ => cases h

/-- A change appends its event to the trail. -/
theorem Recorded.change (h : Recorded exact events published m) (decision : Decision)
    (merchantId eventId : Id) {current : MerchantVerificationStatus}
    (hallowed : Allowed m.verificationStatus decision.target) (hcurrent : current ∈ path events)
    (hexact : exact → current = m.verificationStatus) :
    Recorded exact (events ++ [decision.event merchantId eventId current])
      (published ++ announcements (decision.event merchantId eventId current))
      (decision.set m) where
  allowed := by
    rw [path_append, Decision.event_toStatus]
    refine List.isChain_append.mpr ⟨h.allowed, List.isChain_singleton _, ?_⟩
    intro s hs t ht
    rw [h.current] at hs
    cases hs
    cases ht
    exact hallowed
  current := by
    rw [path_append, Decision.event_toStatus, Decision.verificationStatus_set]
    exact List.getLast?_concat
  earlier := by
    intro before e after hevents
    rcases List.eq_nil_or_concat after with hafter | ⟨rest, last, hafter⟩
    · rw [hafter] at hevents
      obtain ⟨hbefore, he⟩ := List.append_inj' hevents rfl
      rw [← hbefore, ← List.head_eq_of_cons_eq he, Decision.event_fromStatus]
      exact hcurrent
    · rw [hafter, List.concat_eq_append, ← List.cons_append, ← List.append_assoc] at hevents
      exact h.earlier before e rest (List.append_inj' hevents rfl).1
  published_eq := by
    rw [List.flatMap_append, ← h.published_eq, List.flatMap_singleton]
  verified := by
    rw [verifiedAt_set, h.verified, path_append, Decision.event_toStatus, List.mem_append,
      List.mem_singleton]
  attested := by
    rw [sttAttestationAcceptedAt_set, h.attested, path_append, Decision.event_toStatus,
      List.mem_append, List.mem_singleton]
  documents := by
    intro e he hdocs
    rcases List.mem_append.mp he with he | he
    · exact h.documents e he hdocs
    · rw [List.mem_singleton.mp he] at hdocs ⊢
      rw [Decision.event_toStatus]
      exact target_of_docsJson hdocs
  exact_eq := by
    intro hex
    have hlast : path events = (path events).dropLast ++ [m.verificationStatus] :=
      (List.dropLast_append_getLast? _ h.current).symm
    rw [List.map_append, h.exact_eq hex, path_append, List.dropLast_concat, List.map_singleton,
      Decision.event_fromStatus, hexact hex, ← hlast]

end Records

section Changes

/-- Nothing happens to the merchant, or it has just signed up. -/
structure Spared (d d' : Db) (id : Id) : Prop where
  trail_eq : trail d' id = trail d id
  announced_eq : announced d' id = announced d id
  merchant : d'.merchants.find? id = d.merchants.find? id ∨
    d.merchants.find? id = none ∧ ∃ m, d'.merchants.find? id = some m ∧ New m

/-- The status of the merchant changes, with its event and its announcements.
The event records a status that the merchant has had. -/
structure MovedBy (exact : Prop) (d d' : Db) (id : Id) (decision : Decision)
    (e : MerchantVerificationEvent) (m : Merchant) : Prop where
  before : d.merchants.find? id = some m
  after : d'.merchants.find? id = some (decision.set m)
  allowed : Allowed m.verificationStatus decision.target
  event_eq : e = decision.event id e.id e.fromStatus
  trail_eq : trail d' id = trail d id ++ [e]
  announced_eq : announced d' id = announced d id ++ announcements e
  current : e.fromStatus ∈ path (trail d id)
  exact_eq : exact → e.fromStatus = m.verificationStatus

def Moved (exact : Prop) (d d' : Db) (id : Id) : Prop :=
  ∃ decision e m, MovedBy exact d d' id decision e m

/-- What every committed state satisfies. -/
def Right (exact : Prop) (d : Db) : Prop :=
  ∀ id, match d.merchants.find? id with
    | none => trail d id = [] ∧ announced d id = []
    | some m => Recorded exact (trail d id) (announced d id) m

variable {exact : Prop} {d d' : Db} {id : Id}

theorem Right.recorded (h : Right exact d) {m : Merchant}
    (hm : d.merchants.find? id = some m) : Recorded exact (trail d id) (announced d id) m := by
  have hid := h id
  rw [hm] at hid
  exact hid

theorem right_of_changes (h : Right exact d)
    (hchange : ∀ id, Spared d d' id ∨ Moved exact d d' id) : Right exact d' := by
  intro id
  have hid := h id
  rcases hchange id with hspared | ⟨decision, e, m, hmoved⟩
  · rw [hspared.trail_eq, hspared.announced_eq]
    rcases hspared.merchant with hsame | ⟨hnone, m, hm, hnew⟩
    · rw [hsame]
      exact hid
    · rw [hnone] at hid
      rw [hm, hid.1, hid.2]
      exact recorded_of_new hnew
  · rw [hmoved.after, hmoved.trail_eq, hmoved.announced_eq, hmoved.event_eq]
    exact (h.recorded hmoved.before).change decision id e.id hmoved.allowed hmoved.current
      hmoved.exact_eq

/-- A later state has at least the events of an earlier one. -/
theorem path_prefix_of_change (h : Spared d d' id ∨ Moved exact d d' id) :
    path (trail d id) <+: path (trail d' id) := by
  rcases h with hspared | ⟨decision, e, m, hmoved⟩
  · rw [hspared.trail_eq]
  · rw [hmoved.trail_eq, path_append]
    exact List.prefix_append _ _

end Changes

section Tables

variable {κ ρ : Type*} [DecidableEq κ] {key : ρ → κ}

/-- An insert stores its own key and no other one. -/
theorem isSome_find?_insertNew (t : Table key) (r : ρ) (k : κ) :
    ((t.insertNew r).find? k).isSome = true ↔ (t.find? k).isSome = true ∨ k = key r := by
  by_cases hk : key r = k
  · rw [← hk]
    cases hfind : t.find? (key r) with
    | none => simp [Table.find?_insertNew_self hfind]
    | some s => simp [Table.find?_insertNew_of_some hfind]
  · rw [Table.find?_insertNew_of_ne hk]
    simp [Ne.symm hk]

theorem fresh_of_isSome {t : Table key} {k : κ} (h : (t.find? k).isSome = false) :
    ∀ s ∈ t.rows, key s ≠ k :=
  Table.find?_eq_none.mp (Option.isSome_eq_false_iff.mp h |> Option.isNone_iff_eq_none.mp)

end Tables

section Creations

theorem storesOwn_newMerchant (m : Merchant) : StoresOwn Db.stores (newMerchant m) := by
  intro d row
  cases row with
  | merchant id =>
    exact (isSome_find?_insertNew d.merchants m id).trans (or_congr_right (by simp [newMerchant]))
  | email email => simp [newMerchant, addMerchant, Db.stores]
  | verificationEvent id => simp [newMerchant, addMerchant, Db.stores]
  | idempotencyKey key => simp [newMerchant, addMerchant, Db.stores]

theorem storesOwn_newMerchantUser (u : MerchantUser) : StoresOwn Db.stores (newMerchantUser u) := by
  intro d row
  cases row with
  | merchant id => simp [newMerchantUser, addMerchantUser, Db.stores]
  | email email =>
    exact (isSome_find?_insertNew d.merchantUsers u email).trans
      (or_congr_right (by simp [newMerchantUser]))
  | verificationEvent id => simp [newMerchantUser, addMerchantUser, Db.stores]
  | idempotencyKey key => simp [newMerchantUser, addMerchantUser, Db.stores]

theorem storesOwn_newVerificationEvent (e : MerchantVerificationEvent) :
    StoresOwn Db.stores (newVerificationEvent e) := by
  intro d row
  cases row with
  | merchant id => simp [newVerificationEvent, addVerificationEvent, Db.stores]
  | email email => simp [newVerificationEvent, addVerificationEvent, Db.stores]
  | verificationEvent id =>
    exact (isSome_find?_insertNew d.verificationEvents e id).trans
      (or_congr_right (by simp [newVerificationEvent]))
  | idempotencyKey key => simp [newVerificationEvent, addVerificationEvent, Db.stores]

theorem storesOwn_publish (e : OutboxEvent) : StoresOwn Db.stores (publish e) := by
  intro d row
  cases row with
  | merchant id => simp [publish, addOutboxEvent, Db.stores]
  | email email => simp [publish, addOutboxEvent, Db.stores]
  | verificationEvent id => simp [publish, addOutboxEvent, Db.stores]
  | idempotencyKey key =>
    exact (isSome_find?_insertNew d.outbox e key).trans (or_congr_right (by simp [publish]))

theorem applyAll_publish (events : List OutboxEvent) (d : Db) :
    applyAll (events.map publish) d = { d with outbox := d.outbox.insertMany events } := by
  induction events generalizing d with
  | nil => rfl
  | cons e events ih =>
    rw [List.map_cons, applyAll_cons, ih]
    rfl

end Creations

/-- What a transaction does besides reading: a signup, or a change that had
read the status `current`. -/
inductive Work where
  | signup (m : Merchant) (u : MerchantUser)
  | change (merchantId eventId : Id) (current : MerchantVerificationStatus) (decision : Decision)

/-- The write before the creations. -/
def Work.base : Work → Db → Db
  | .signup _ _, d => d
  | .change merchantId _ _ decision, d => setMerchant merchantId decision.set decision.set_id d

def Work.creations : Work → List (Creation Db Row)
  | .signup m u => [newMerchant m, newMerchantUser u]
  | .change merchantId eventId current decision =>
    VerificationTrails.creations merchantId eventId current decision

/-- What the work may rely on while it owns its merchant. -/
def Claim (exact : Prop) (d : Db) (held : List (Row × LockMode)) : Work → Prop
  | .signup m _ => New m
  | .change merchantId _ current decision =>
    Owns held (.merchant merchantId) ∧ current ∈ path (trail d merchantId) ∧
      ∃ m, d.merchants.find? merchantId = some m ∧
        Allowed m.verificationStatus decision.target ∧ (exact → current = m.verificationStatus)

section Works

theorem stores_setMerchant (id : Id) (set : Merchant → Merchant) (hset : ∀ m, (set m).id = m.id)
    (d : Db) (row : Row) : (setMerchant id set hset d).stores row = d.stores row := by
  cases row with
  | merchant i =>
    simp only [Db.stores, setMerchant, Table.find?_updateMany]
    cases d.merchants.find? i <;> rfl
  | email email => rfl
  | verificationEvent i => rfl
  | idempotencyKey key => rfl

theorem Work.stores_base (work : Work) (d : Db) (row : Row) :
    (work.base d).stores row = d.stores row := by
  cases work with
  | signup m u => rfl
  | change merchantId eventId current decision => exact stores_setMerchant _ _ _ d row

theorem Work.storesOwn (work : Work) : ∀ c ∈ work.creations, StoresOwn Db.stores c := by
  intro c hc
  cases work with
  | signup m u =>
    rcases List.mem_cons.mp hc with hc | hc
    · exact hc ▸ storesOwn_newMerchant m
    · exact List.mem_singleton.mp hc ▸ storesOwn_newMerchantUser u
  | change merchantId eventId current decision =>
    rcases List.mem_cons.mp hc with hc | hc
    · exact hc ▸ storesOwn_newVerificationEvent _
    · obtain ⟨e, _, he⟩ := List.mem_map.mp hc
      exact he ▸ storesOwn_publish e

variable {exact : Prop} {d d' : Db} {effect : Db → Db} {held : List (Row × LockMode)} {id : Id}

theorem announcements_merchantId {a : MerchantVerificationEvent} {b : OutboxEvent}
    (h : b ∈ announcements a) : b.merchantId = a.merchantId := by
  unfold announcements at h
  rcases List.mem_append.mp h with h | h
  · cases htype : merchantStatusEventType a.toStatus with
    | none =>
      rw [htype] at h
      cases h
    | some eventType =>
      rw [htype] at h
      rw [List.mem_singleton.mp h]
  · split_ifs at h
    · rw [List.mem_singleton.mp h]
    · cases h

theorem filter_announcements (e : MerchantVerificationEvent) (id : Id) :
    (announcements e).filter (fun b => b.merchantId = id) =
      if e.merchantId = id then announcements e else [] := by
  split_ifs with hid
  · refine List.filter_eq_self.mpr ?_
    intro b hb
    simpa [announcements_merchantId hb] using hid
  · refine List.filter_eq_nil_iff.mpr ?_
    intro b hb
    simpa [announcements_merchantId hb] using hid

/-- A signup that commits spares everybody, itself included. -/
theorem spared_of_signup {m : Merchant} {u : MerchantUser} (hnew : New m)
    (h : Created Db.stores d (Work.signup m u).base effect held (Work.signup m u).creations)
    (id : Id) : Spared d (effect d) id := by
  have hfresh : d.merchants.find? m.id = none := by
    have hstored := h.fresh (newMerchant m) List.mem_cons_self
    exact Option.isNone_iff_eq_none.mp (Option.isSome_eq_false_iff.mp hstored)
  rw [h.effect_eq]
  refine ⟨rfl, rfl, ?_⟩
  change (d.merchants.insertNew m).find? id = d.merchants.find? id ∨ _
  by_cases hid : m.id = id
  · rw [← hid]
    exact .inr ⟨hfresh, m, Table.find?_insertNew_self hfresh, hnew⟩
  · exact .inl (Table.find?_insertNew_of_ne hid)

/-- A change that commits moves its own merchant and spares the others. -/
theorem moved_of_change {merchantId eventId : Id} {current : MerchantVerificationStatus}
    {decision : Decision} (hclaim : Claim exact d held (.change merchantId eventId current decision))
    (h : Created Db.stores d (Work.change merchantId eventId current decision).base effect held
      (Work.change merchantId eventId current decision).creations) (id : Id) :
    Spared d (effect d) id ∨
      Moved exact d (effect d) id ∧ Owns held (.merchant id) := by
  obtain ⟨howns, hcurrent, m, hm, hallowed, hexact⟩ := hclaim
  have hevents : ((effect d).verificationEvents).rows =
      d.verificationEvents.rows ++ [decision.event merchantId eventId current] := by
    have hfresh := h.fresh (newVerificationEvent (decision.event merchantId eventId current))
      List.mem_cons_self
    rw [h.effect_eq]
    simp only [Work.creations, creations, applyAll_cons, applyAll_publish]
    exact Table.rows_insertNew_of_fresh (fresh_of_isSome hfresh)
  have houtbox : (effect d).outbox.rows =
      d.outbox.rows ++ announcements (decision.event merchantId eventId current) := by
    have hnodup := (List.nodup_cons.mp h.nodup).2
    rw [List.map_map] at hnodup
    have hfresh : ∀ e ∈ announcements (decision.event merchantId eventId current),
        ∀ s ∈ d.outbox.rows, s.idempotencyKey ≠ e.idempotencyKey := by
      intro e he
      exact fresh_of_isSome (h.fresh (publish e) (List.mem_cons_of_mem _ (List.mem_map_of_mem he)))
    rw [h.effect_eq]
    simp only [Work.creations, creations, applyAll_cons, applyAll_publish]
    refine Table.rows_insertMany_of_fresh hfresh ?_
    refine List.Nodup.of_map Row.idempotencyKey ?_
    rw [List.map_map]
    exact hnodup
  have hmerchants : (effect d).merchants.find? id =
      if id = merchantId then (d.merchants.find? id).map decision.set
      else d.merchants.find? id := by
    have hsame : (effect d).merchants =
        (setMerchant merchantId decision.set decision.set_id d).merchants := by
      rw [h.effect_eq]
      simp only [Work.creations, creations, applyAll_cons, applyAll_publish]
      rfl
    rw [hsame, setMerchant, Table.find?_updateMany_key]
  have htrail : trail (effect d) id = trail d id ++
      if id = merchantId then [decision.event merchantId eventId current] else [] := by
    rw [trail, hevents, List.filter_append, List.filter_singleton, Decision.event_merchantId]
    by_cases hid : id = merchantId
    · simp [trail, hid]
    · simp [trail, hid, Ne.symm hid]
  have hannounced : announced (effect d) id = announced d id ++
      if id = merchantId then announcements (decision.event merchantId eventId current) else [] := by
    rw [announced, houtbox, List.filter_append, filter_announcements, Decision.event_merchantId]
    by_cases hid : id = merchantId
    · simp [announced, hid]
    · simp [announced, hid, Ne.symm hid]
  by_cases hid : id = merchantId
  · rw [if_pos hid] at hmerchants htrail hannounced
    rw [hid] at hmerchants htrail hannounced ⊢
    rw [hm, Option.map_some] at hmerchants
    refine .inr ⟨⟨decision, decision.event merchantId eventId current, m, ?_⟩, howns⟩
    exact ⟨hm, hmerchants, hallowed, by simp, htrail, hannounced, by simpa using hcurrent,
      by simpa using hexact⟩
  · rw [if_neg hid] at hmerchants htrail hannounced
    rw [List.append_nil] at htrail hannounced
    exact .inl ⟨htrail, hannounced, .inl hmerchants⟩

end Works

/-- Everything but the audit rows is left alone. -/
def Plain (f : Db → Db) : Prop :=
  ∀ d, (f d).merchants = d.merchants ∧ (f d).merchantUsers = d.merchantUsers ∧
    (f d).verificationEvents = d.verificationEvents ∧ (f d).outbox = d.outbox

/-- Where a transaction is, what it has written and what it owns. -/
inductive Stage (exact : Prop) (d : Db) (program : Program Db Row) (effect : Db → Db)
    (held : List (Row × LockMode)) : Prop
  | ended (hprogram : program = .rollback)
  | plain (hprogram : Writes Plain program) (heffect : Plain effect)
  | reading (merchantId eventId : Id) (decision : Decision)
    (hprogram : program = change merchantId eventId decision) (heffect : effect = fun d => d)
  | claiming (merchantId eventId : Id) (current : MerchantVerificationStatus)
    (decision : Decision)
    (hprogram : program = changeUpdate merchantId eventId current decision)
    (heffect : effect = fun d => d) (hcurrent : current ∈ path (trail d merchantId))
  | creating (work : Work)
    (hcreating : Creating Db.stores d work.base work.creations program effect held)
    (hclaim : Claim exact d held work)

/-- The status that a change has read is still there when it gets its row. -/
def FreshRead (d : Db) (x : Transaction Db Row) : Prop :=
  ∀ merchantId eventId current decision,
    x.program = changeUpdate merchantId eventId current decision →
      ∀ m, d.merchants.find? merchantId = some m → current = m.verificationStatus

section Stages

variable {exact : Prop} {d d' : Db} {x y : Transaction Db Row} {held : List (Row × LockMode)}
  {t : IbanChecks.CaseTable}

/-- The stage a transaction is in. -/
abbrev At (exact : Prop) (d : Db) (x : Transaction Db Row) : Prop :=
  Stage exact d x.program x.effect x.held

theorem plain_id : Plain fun d => d := fun _ => ⟨rfl, rfl, rfl, rfl⟩

theorem plain_comp (f g : Db → Db) (hf : Plain f) (hg : Plain g) : Plain fun d => g (f d) := by
  intro d
  obtain ⟨hm, hu, he, ho⟩ := hf d
  obtain ⟨hm', hu', he', ho'⟩ := hg (f d)
  exact ⟨hm'.trans hm, hu'.trans hu, he'.trans he, ho'.trans ho⟩

theorem writes_adminGetDetail (adminId merchantId : Id) :
    Writes Plain (adminGetDetail adminId merchantId) := by
  intro d
  dsimp only
  cases d.merchants.find? merchantId with
  | none => trivial
  | some m => exact ⟨fun _ => ⟨rfl, rfl, rfl, rfl⟩, trivial⟩

theorem stage_started (d : Db) (request : Request) :
    At exact d (begin (program t request)) := by
  cases request with
  | signup dto passwordHash merchantId =>
    change Stage exact d (signup t dto passwordHash merchantId) (fun d => d) []
    unfold signup
    split_ifs
    · exact .creating (.signup (signedUp dto merchantId) _) (.start rfl) ⟨rfl, rfl, rfl⟩
    · exact .ended rfl
    · exact .ended rfl
  | submit merchantId dto now eventId =>
    cases hrefused : (!dto.sttAttestationAccepted || !dto.intermediationAccepted) with
    | true => exact .ended (if_pos hrefused)
    | false => exact .reading merchantId eventId _ (submit_eq dto now hrefused) rfl
  | adminApprove adminId merchantId note verifiedAt nextReverifyAt eventId =>
    exact .reading merchantId eventId _ (adminApprove_eq adminId note verifiedAt nextReverifyAt) rfl
  | adminReject adminId merchantId note eventId =>
    exact .reading merchantId eventId _ (adminReject_eq adminId note) rfl
  | adminSuspend adminId merchantId note eventId =>
    exact .reading merchantId eventId _ (adminSuspend_eq adminId note) rfl
  | adminGetDetail adminId merchantId =>
    exact .plain (writes_adminGetDetail adminId merchantId) plain_id

theorem mem_path_of_find? (h : Right exact d) {merchantId : Id} {m : Merchant}
    (hm : d.merchants.find? merchantId = some m) :
    m.verificationStatus ∈ path (trail d merchantId) :=
  List.mem_of_getLast? (h.recorded hm).current

theorem stage_issue (hright : Right exact d) (h : At exact d x) (hcommit : x.program ≠ .commit) :
    At exact d (x.issue d) := by
  cases h with
  | ended hprogram =>
    refine .ended ?_
    unfold Transaction.issue
    rw [hprogram]
    rfl
  | plain hprogram heffect =>
    have hissue := hprogram.issue (d := d) plain_id plain_comp heffect
    exact .plain hissue.1 hissue.2
  | reading merchantId eventId decision hprogram heffect =>
    rw [issue_select hprogram, heffect]
    dsimp only [At]
    cases hm : d.merchants.find? merchantId with
    | none => exact .ended rfl
    | some m =>
      exact .claiming merchantId eventId m.verificationStatus decision rfl rfl
        (mem_path_of_find? hright hm)
  | claiming merchantId eventId current decision hprogram heffect hcurrent =>
    rcases issue_update hprogram with hissue | hissue
    · rw [hissue]
      exact .claiming merchantId eventId current decision hprogram heffect hcurrent
    · rw [hissue]
      exact .ended rfl
  | creating work hcreating hclaim =>
    rcases hcreating.issue work.stores_base work.storesOwn hcommit with hended | ⟨hnext, hheld⟩
    · exact .ended hended
    · refine .creating work hnext ?_
      rw [hheld]
      exact hclaim

theorem Claim.holds_more {work : Work} {held' : List (Row × LockMode)}
    (h : Claim exact d held work) (hheld : ∀ row, Owns held row → Owns held' row) :
    Claim exact d held' work := by
  cases work with
  | signup m u => exact h
  | change merchantId eventId current decision => exact ⟨hheld _ h.1, h.2⟩

theorem stage_grant {want : Row × LockMode} (h : At exact d x) (hwanted : x.wanted = some want)
    (hfresh : exact → FreshRead d x) : At exact d (x.grant d) := by
  cases h with
  | ended hprogram =>
    rw [wanted_rollback hprogram] at hwanted
    cases hwanted
  | plain hprogram heffect =>
    have hgrant := hprogram.grant (d := d) plain_comp heffect
    exact .plain hgrant.1 hgrant.2
  | reading merchantId eventId decision hprogram =>
    rw [wanted_select hprogram] at hwanted
    cases hwanted
  | claiming merchantId eventId current decision hprogram heffect hcurrent =>
    rcases grant_update hprogram with ⟨hguard, hgrant⟩ | ⟨_, hgrant⟩
    · rw [heffect] at hguard hgrant
      rw [hgrant]
      refine .creating (.change merchantId eventId current decision) ?_ ?_
      · have hprogram : (if true = true then
            createAll Db.stores (creations merchantId eventId current decision)
          else Program.rollback) = createAll Db.stores
            (Work.change merchantId eventId current decision).creations := if_pos rfl
        dsimp only
        rw [hprogram]
        exact .start rfl
      · refine ⟨owns_cons_self _ _ (by decide), hcurrent, ?_⟩
        cases hm : d.merchants.find? merchantId with
        | none => simp [mayBecome, hm] at hguard
        | some m =>
          have hfrom : m.verificationStatus ∈ allowedMerchantVerificationFrom decision.target := by
            simpa [mayBecome, hm] using hguard
          exact ⟨m, rfl, allowed_of_mem hfrom, fun hex => hfresh hex _ _ _ _ hprogram m hm⟩
    · rw [hgrant]
      exact .ended rfl
  | creating work hcreating hclaim =>
    refine .creating work (hcreating.grant hwanted) (hclaim.holds_more ?_)
    intro row hrow
    rw [held_grant hwanted]
    exact hrow.cons want

theorem Spared.of_plain {f : Db → Db} (hf : Plain f) (d : Db) (id : Id) : Spared d (f d) id := by
  obtain ⟨hm, _, he, ho⟩ := hf d
  exact ⟨by rw [trail, trail, he], by rw [announced, announced, ho], .inl (by rw [hm])⟩

/-- A commit spares each merchant, or moves it under its lock. -/
theorem change_of_commit (h : At exact d x) (hcommit : x.program = .commit) (id : Id) :
    Spared d (x.effect d) id ∨ Moved exact d (x.effect d) id ∧ Owns x.held (.merchant id) := by
  cases h with
  | ended hprogram =>
    rw [hcommit] at hprogram
    cases hprogram
  | plain _ heffect => exact .inl (.of_plain heffect d id)
  | reading _ _ _ hprogram =>
    rw [hcommit] at hprogram
    cases hprogram
  | claiming _ _ _ _ hprogram =>
    rw [hcommit] at hprogram
    cases hprogram
  | creating work hcreating hclaim =>
    have hcreated := hcreating.created_of_commit hcommit
    cases work with
    | signup m u => exact .inl (spared_of_signup hclaim hcreated id)
    | change merchantId eventId current decision => exact moved_of_change hclaim hcreated id

/-- A commit stores only rows that it owns. -/
theorem owns_of_commit (h : At exact d x) (hcommit : x.program = .commit) (row : Row)
    (hrow : (x.effect d).stores row = true) : d.stores row = true ∨ Owns x.held row := by
  cases h with
  | ended hprogram =>
    rw [hcommit] at hprogram
    cases hprogram
  | plain _ heffect =>
    obtain ⟨hm, hu, he, ho⟩ := heffect d
    refine .inl ?_
    cases row with
    | merchant id => simpa [Db.stores, hm] using hrow
    | email email => simpa [Db.stores, hu] using hrow
    | verificationEvent id => simpa [Db.stores, he] using hrow
    | idempotencyKey key => simpa [Db.stores, ho] using hrow
  | reading _ _ _ hprogram =>
    rw [hcommit] at hprogram
    cases hprogram
  | claiming _ _ _ _ hprogram =>
    rw [hcommit] at hprogram
    cases hprogram
  | creating work hcreating _ =>
    exact (hcreating.created_of_commit hcommit).owns_of_stored work.stores_base work.storesOwn hrow

/-- A stage lasts while others commit. -/
theorem stage_of_change
    (hchange : ∀ id, Spared d d' id ∨ Moved exact d d' id ∧ Owns held (.merchant id))
    (hstored : ∀ row, d'.stores row = true → d.stores row = true ∨ Owns held row)
    (hrow : ∀ row, Owns held row → ¬ Owns x.held row) (h : At exact d x) : At exact d' x := by
  have hpath : ∀ id status, status ∈ path (trail d id) → status ∈ path (trail d' id) :=
    fun id status hs => (path_prefix_of_change ((hchange id).imp_right And.left)).subset hs
  cases h with
  | ended hprogram => exact .ended hprogram
  | plain hprogram heffect => exact .plain hprogram heffect
  | reading merchantId eventId decision hprogram heffect =>
    exact .reading merchantId eventId decision hprogram heffect
  | claiming merchantId eventId current decision hprogram heffect hcurrent =>
    exact .claiming merchantId eventId current decision hprogram heffect (hpath _ _ hcurrent)
  | creating work hcreating hclaim =>
    refine .creating work (hcreating.of_others ?_) ?_
    · intro row hr
      exact (hstored row hr).imp_right fun howns => hrow row howns
    · cases work with
      | signup m u => exact hclaim
      | change merchantId eventId current decision =>
        obtain ⟨howns, hcurrent, m, hm, hrest⟩ := hclaim
        refine ⟨howns, hpath _ _ hcurrent, m, ?_, hrest⟩
        rcases hchange merchantId with hspared | ⟨_, hother⟩
        · rcases hspared.merchant with hsame | ⟨hnone, _⟩
          · rw [hsame]
            exact hm
          · rw [hm] at hnone
            cases hnone
        · exact absurd howns (hrow _ hother)

end Stages

theorem keeps (t : IbanChecks.CaseTable) (exact : Prop) :
    Keeps (program t) (fun d x => exact → FreshRead d x) (Right exact) (At exact) where
  started := fun d request _ => stage_started d request
  ended := fun _ => .ended rfl
  issued := fun _ _ hright hat _ hcommit => stage_issue hright hat hcommit
  granted := fun _ _ _ _ hat hwanted hfresh => stage_grant hat hwanted hfresh
  committed := fun _ _ hright hat hcommit =>
    right_of_changes hright fun id => (change_of_commit hat hcommit id).imp_right And.left
  others := fun _ _ _ _ hx hy hapart hcommit =>
    stage_of_change (change_of_commit hx hcommit) (owns_of_commit hx hcommit)
      (fun _ howns => hapart.not_owns howns) hy

/-- Nothing is under way, and the committed events fit the merchants. -/
def Initial (exact : Prop) (w : World Db Row) : Prop := w.Quiet ∧ Right exact w.committed

section Runs

variable {t : IbanChecks.CaseTable} {exact : Prop} {w w' : World Db Row} {id : Id}

/-- The runs in which, if `exact`, the status read by each change is still there
when it gets its row. -/
abbrev Run (t : IbanChecks.CaseTable) (exact : Prop) (init : World Db Row → Prop) :
    World Db Row → Prop :=
  Reachable (step (program t)) (GrantsMeet fun d x => exact → FreshRead d x) init

theorem holds_of_run (h : Run t exact (Initial exact) w) : Holds (Right exact) (At exact) w :=
  (keeps t exact).holds (fun _ hw => hw) h

/-- A step spares each merchant or moves it. -/
theorem change_of_step {a : Action Request} (h : Run t exact (Initial exact) w)
    (hstep : step (program t) w a = some w') (id : Id) :
    Spared w.committed w'.committed id ∨ Moved exact w.committed w'.committed id := by
  rcases committed_step hstep with hsame | ⟨i, hcommit, hcommitted⟩
  · rw [hsame]
    exact .inl ⟨rfl, rfl, .inl rfl⟩
  · rw [hcommitted]
    exact (change_of_commit ((holds_of_run h).2 i) hcommit id).imp_right And.left

theorem run_of_reachable (h : Reachable (step (program t)) anyStep (Initial False) w) :
    Run t False (Initial False) w := by
  refine h.mono ?_
  intro w a _
  cases a with
  | grant i => exact fun hfalse => hfalse.elim
  | start _ => trivial
  | issue _ => trivial
  | abort _ => trivial

/-- The types published with a change to this status. -/
def publishedTypes (status : MerchantVerificationStatus) : List String :=
  (merchantStatusEventType status).toList ++
    if status = .approved then [MERCHANT_APPROVED_MEMBERSHIP_V1] else []

theorem types_announcements (e : MerchantVerificationEvent) :
    (announcements e).map (·.type) = publishedTypes e.toStatus := by
  unfold announcements publishedTypes
  cases e.toStatus <;> rfl

theorem nodup_publishedTypes (s : MerchantVerificationStatus) : (publishedTypes s).Nodup := by
  cases s <;> decide

theorem not_mem_publishedTypes {s s' : MerchantVerificationStatus} (h : s ≠ s') :
    ∀ eventType ∈ publishedTypes s, eventType ∉ publishedTypes s' := by
  revert h
  cases s <;> cases s' <;> decide

variable {events : List MerchantVerificationEvent} {published : List OutboxEvent} {m : Merchant}

/-- Each type of event is published at most once about a merchant. -/
theorem Recorded.nodup_types (h : Recorded exact events published m) :
    (published.map (·.type)).Nodup := by
  have hpath := (List.nodup_cons.mp (nodup_of_isChain h.allowed)).2
  rw [h.published_eq, List.map_flatMap]
  refine List.nodup_flatMap.mpr ⟨?_, ?_⟩
  · intro e _
    rw [types_announcements]
    exact nodup_publishedTypes _
  · refine (List.pairwise_map.mp hpath).imp ?_
    intro e f hef
    dsimp only [Function.onFun]
    rw [types_announcements, types_announcements]
    exact fun eventType hs hs' => not_mem_publishedTypes hef eventType hs hs'

/-- The documents shown are those of the merchant's submission. -/
theorem latestDocsJson_eq {d : Db} (h : Recorded exact (trail d id) published m)
    {e : MerchantVerificationEvent} (he : e ∈ trail d id) (hto : e.toStatus = .submitted) :
    latestDocsJson d id = e.docsJson := by
  have hpath := (List.nodup_cons.mp (nodup_of_isChain h.allowed)).2
  have honly : ∀ f ∈ trail d id, f.docsJson.isSome = true → f = e := by
    intro f hf hdocs
    exact List.inj_on_of_nodup_map hpath hf he ((h.documents f hf hdocs).trans hto.symm)
  rw [latestDocsJson]
  cases hfind : (trail d id).reverse.find? fun e => e.docsJson.isSome with
  | none =>
    have hnone : e.docsJson = none := by
      simpa using List.find?_eq_none.mp hfind e (List.mem_reverse.mpr he)
    rw [hnone]
    rfl
  | some f =>
    have hf := List.mem_reverse.mp (List.mem_of_find?_eq_some hfind)
    have hdocs : f.docsJson.isSome = true := by simpa using List.find?_some hfind
    rw [honly f hf hdocs]
    rfl

/-- Events that recorded the status they left recorded allowed changes. -/
theorem allowed_of_exact {s : MerchantVerificationStatus}
    (hchain : (s :: events.map (·.toStatus)).IsChain Allowed)
    (hfrom : events.map (·.fromStatus) = (s :: events.map (·.toStatus)).dropLast) :
    ∀ e ∈ events, Allowed e.fromStatus e.toStatus := by
  induction events generalizing s with
  | nil => exact fun e he => absurd he List.not_mem_nil
  | cons f events ih =>
    rw [List.map_cons] at hchain
    rw [List.map_cons, List.map_cons, List.dropLast_cons_cons] at hfrom
    obtain ⟨hfirst, hrest⟩ := List.isChain_cons_cons.mp hchain
    obtain ⟨hf, hfroms⟩ := List.cons.inj hfrom
    intro e he
    rcases List.mem_cons.mp he with he | he
    · rw [he, hf]
      exact hfirst
    · exact ih hrest hfroms e he

end Runs

/-- In every run, whatever the interleaving: the statuses recorded for a
merchant are a path of the transition map from DRAFT to its status, no status
is entered twice, the outbox holds what its events announce and each type once,
the stamps of approval and attestation and the documents shown are those of the
path, and every step spares a merchant or appends one event to its trail. -/
theorem onboarding_trail (t : IbanChecks.CaseTable) (w : World Db Row)
    (h : Reachable (step (program t)) anyStep (Initial False) w) :
    (∀ id m, w.committed.merchants.find? id = some m →
      Recorded False (trail w.committed id) (announced w.committed id) m ∧
        (path (trail w.committed id)).Nodup ∧
        ((announced w.committed id).map (·.type)).Nodup ∧
        ∀ e ∈ trail w.committed id, e.toStatus = .submitted →
          latestDocsJson w.committed id = e.docsJson) ∧
      ∀ a w', step (program t) w a = some w' → ∀ id,
        Spared w.committed w'.committed id ∨ Moved False w.committed w'.committed id := by
  have hrun := run_of_reachable h
  refine ⟨?_, fun a w' hstep id => change_of_step hrun hstep id⟩
  intro id m hm
  have hrecorded := (holds_of_run hrun).1.recorded hm
  exact ⟨hrecorded, nodup_of_isChain hrecorded.allowed, hrecorded.nodup_types,
    fun e he hto => latestDocsJson_eq hrecorded he hto⟩

/-- In every run in which each change that gets its row finds the status it had
read, the recorded changes are allowed ones and follow on each other. -/
theorem recorded_changes_allowed (t : IbanChecks.CaseTable) (w : World Db Row)
    (h : Run t True (Initial True) w) (id : Id) (m : Merchant)
    (hm : w.committed.merchants.find? id = some m) :
    (trail w.committed id).map (·.fromStatus) = (path (trail w.committed id)).dropLast ∧
      ∀ e ∈ trail w.committed id, Allowed e.fromStatus e.toStatus := by
  have hrecorded := (holds_of_run h).1.recorded hm
  have hfrom := hrecorded.exact_eq trivial
  exact ⟨hfrom, allowed_of_exact hrecorded.allowed hfrom⟩

/-- What a waiting change had read can be recovered from its program. -/
theorem changeUpdate_inj {merchantId merchantId' eventId eventId' : Id}
    {current current' : MerchantVerificationStatus} {decision decision' : Decision}
    (h : changeUpdate merchantId eventId current decision =
      changeUpdate merchantId' eventId' current' decision') :
    merchantId = merchantId' ∧ current = current' := by
  injection h with hrow _ _ _ hnext
  have hchange := change_eq_of_createAll (congrFun hnext true) (d := ⟨.empty, .empty, .empty,
    .empty, []⟩) rfl
  have hdb := congrArg (fun d => d.verificationEvents.rows) (congrFun hchange ⟨.empty, .empty,
    .empty, .empty, []⟩)
  have hrows : [decision.event merchantId eventId current] =
      [decision'.event merchantId' eventId' current'] := hdb
  refine ⟨Row.merchant.inj hrow, ?_⟩
  have hevent := congrArg (·.fromStatus) (List.singleton_inj.mp hrows)
  simpa using hevent

section Sample

/-- One merchant that has just signed up. -/
def oneMerchant : World Db Row where
  committed :=
    { merchants := Table.insertMany .empty
        [⟨"m1", "Firin Ltd", "Firin", "1234567890", "TR00", .draft, none, none, none, none, none⟩]
      merchantUsers := .empty
      verificationEvents := .empty
      outbox := .empty
      auditLogs := [] }
  started := 0
  transaction := fun _ => ended

theorem oneMerchant_initial (exact : Prop) : Initial exact oneMerchant := by
  refine ⟨⟨rfl, fun _ => (by rfl)⟩, ?_⟩
  intro id
  have hnew : ∀ m ∈ oneMerchant.committed.merchants.rows, m.verificationStatus = .draft ∧
      m.verifiedAt = none ∧ m.sttAttestationAcceptedAt = none := by decide +kernel
  cases hfind : oneMerchant.committed.merchants.find? id with
  | none => exact ⟨rfl, rfl⟩
  | some m =>
    obtain ⟨hdraft, hverified, hattested⟩ := hnew m (Table.find?_eq_some.mp hfind).1
    exact recorded_of_new ⟨hdraft, hverified, hattested⟩

abbrev sampleStep : World Db Row → Action Request → Option (World Db Row) :=
  step (program IbanChecks.plainTable)

/-- An approval reads DRAFT, the submission is committed, the approval goes on. -/
def staleApproval : World Db Row :=
  after sampleStep oneMerchant
    [.start (.adminApprove "a1" "m1" none 100 200 "e2"), .issue 0,
      .start (.submit "m1" ⟨some "docs", true, true, "v1"⟩ 100 "e1"), .issue 1, .issue 1,
      .grant 1, .issue 1, .grant 1, .issue 1, .issue 1, .issue 1, .grant 1, .issue 1,
      .issue 0, .grant 0, .issue 0, .grant 0, .issue 0, .issue 0, .issue 0, .grant 0,
      .issue 0, .grant 0, .issue 0, .issue 0, .issue 0, .grant 0, .issue 0, .issue 0, .issue 0]

/-- Its event records a change from DRAFT to APPROVED, which no merchant has made. -/
theorem stale_approval_recorded :
    Reachable sampleStep anyStep (Initial False) staleApproval ∧
      ∃ e ∈ trail staleApproval.committed "m1", ¬ Allowed e.fromStatus e.toStatus :=
  ⟨reachable_after (.start (oneMerchant_initial False)) (by decide +kernel), by decide +kernel⟩

/-- The trail itself is in order. -/
theorem onboarding_trail_approved :
    path (trail staleApproval.committed "m1") = [.draft, .submitted, .approved] ∧
      ((announced staleApproval.committed "m1").map (·.type)).Nodup ∧
        ∀ e ∈ trail staleApproval.committed "m1", e.toStatus = .submitted →
          latestDocsJson staleApproval.committed "m1" = e.docsJson := by
  have hrun : Reachable sampleStep anyStep (Initial False) staleApproval :=
    reachable_after (.start (oneMerchant_initial False)) (by decide +kernel)
  obtain ⟨m, hm⟩ := Option.isSome_iff_exists.mp
    (show (staleApproval.committed.merchants.find? "m1").isSome = true by decide +kernel)
  have htrail := (onboarding_trail IbanChecks.plainTable staleApproval hrun).1 "m1" m hm
  exact ⟨by decide +kernel, htrail.2.2.1, htrail.2.2.2⟩

/-- A submission that waits for its merchant. -/
def submissionWaits : World Db Row :=
  after sampleStep oneMerchant
    [.start (.submit "m1" ⟨some "docs", true, true, "v1"⟩ 100 "e1"), .issue 0, .issue 0]

def submissionGranted : World Db Row := after sampleStep submissionWaits [.grant 0]

/-- The same submission, committed. -/
def submitted : World Db Row :=
  after sampleStep submissionGranted
    [.issue 0, .grant 0, .issue 0, .issue 0, .issue 0, .grant 0, .issue 0]

def isUpdate : Program Db Row → Bool
  | .update _ _ _ _ _ => true
  | _ => false

/-- No change gets its row in this step. -/
def calm (w : World Db Row) : Action Request → Prop
  | .grant i => isUpdate (w.transaction i).program = false
  | _ => True

instance (w : World Db Row) (a : Action Request) : Decidable (calm w a) :=
  match a with
  | .grant i => inferInstanceAs (Decidable (isUpdate (w.transaction i).program = false))
  | .start _ => isTrue trivial
  | .issue _ => isTrue trivial
  | .abort _ => isTrue trivial

theorem meets_of_calm {w : World Db Row} {a : Action Request} (h : calm w a) :
    GrantsMeet (fun d x => True → FreshRead d x) w a := by
  cases a with
  | grant i =>
    intro _ merchantId eventId current decision hprogram
    have hcalm : isUpdate (w.transaction i).program = false := h
    rw [hprogram] at hcalm
    cases hcalm
  | start _ => trivial
  | issue _ => trivial
  | abort _ => trivial

theorem submissionWaits_fresh :
    FreshRead submissionWaits.committed (submissionWaits.transaction 0) := by
  intro merchantId eventId current decision hprogram m hm
  have hupdate : (submissionWaits.transaction 0).program =
      changeUpdate "m1" "e1" .draft (.submission ⟨some "docs", true, true, "v1"⟩ 100) := rfl
  obtain ⟨hid, hcurrent⟩ := changeUpdate_inj (hupdate.symm.trans hprogram)
  have hdraft : ∀ m ∈ submissionWaits.committed.merchants.rows, m.verificationStatus = .draft := by
    decide +kernel
  rw [← hcurrent, hdraft m (Table.find?_eq_some.mp hm).1]

theorem submitted_run : Run IbanChecks.plainTable True (Initial True) submitted := by
  have hwaits : Reachable sampleStep calm (Initial True) submissionWaits :=
    reachable_after_guarded (.start (oneMerchant_initial True)) (by decide +kernel)
      (by decide +kernel)
  have hmeets : GrantsMeet (fun d x => True → FreshRead d x) submissionWaits
      (Action.grant 0 : Action Request) := fun _ => submissionWaits_fresh
  have hgrant := @step_after _ _ sampleStep submissionWaits [] (.grant 0) (by decide +kernel)
  have hgranted := (hwaits.mono fun _ _ => meets_of_calm).next hmeets hgrant
  have hrest : Reachable sampleStep calm (fun v => v = submissionGranted) submitted :=
    reachable_after_guarded (.start rfl) (by decide +kernel) (by decide +kernel)
  exact hgranted.append (hrest.mono fun _ _ => meets_of_calm)

/-- The submission alone records the change from DRAFT to SUBMITTED. -/
theorem recorded_changes_allowed_submitted :
    ∃ m, submitted.committed.merchants.find? "m1" = some m ∧
      m.verificationStatus = .submitted ∧
      (trail submitted.committed "m1").map (·.fromStatus) = [.draft] := by
  obtain ⟨m, hm⟩ := Option.isSome_iff_exists.mp
    (show (submitted.committed.merchants.find? "m1").isSome = true by decide +kernel)
  have hstatus : ∀ m ∈ submitted.committed.merchants.rows, m.verificationStatus = .submitted := by
    decide +kernel
  have hpath : (path (trail submitted.committed "m1")).dropLast = [.draft] := by decide +kernel
  refine ⟨m, hm, hstatus m (Table.find?_eq_some.mp hm).1, ?_⟩
  rw [← hpath]
  exact (recorded_changes_allowed IbanChecks.plainTable submitted submitted_run "m1" m hm).1

end Sample

end Kurtar.VerificationTrails

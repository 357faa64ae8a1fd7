import Kurtar.OtpInterleavings

/-!
# Codes are used once and superseded

Two statements can spoil this: consuming a code that another call has just
consumed, since the number of rows it matched is not looked at, and inserting
a code while another call's code is still live, since invalidating and
inserting are two statements. In runs without these two each code is accepted
at most once and only as long as no newer one was issued.
-/

namespace Kurtar.OtpSingleUse

open KeyedTable GuardedRuns IstanbulCalendar PhoneOtps TaskPools OtpInterleavings

section Succession

/-- A stored code and a later version of it. -/
structure RowLater (r r' : PhoneOtp) : Prop where
  same_id : r'.id = r.id
  phone : r'.phoneE164 = r.phoneE164
  created : r'.createdAt = r.createdAt
  expiry : r'.expiresAt ≤ r.expiresAt
  consumed : r.consumedAt ≠ none → r'.consumedAt ≠ none

theorem RowLater.refl (r : PhoneOtp) : RowLater r r := ⟨rfl, rfl, rfl, le_refl _, fun h => h⟩

/-- A code of the phone that cannot be verified any more. -/
def Retired (time : Instant) (r : PhoneOtp) : Prop := r.consumedAt ≠ none ∨ r.expiresAt ≤ time

instance (time : Instant) : DecidablePred (Retired time) := fun r => by
  unfold Retired
  infer_instance

theorem RowLater.retired {r r' : PhoneOtp} {time : Instant} (h : RowLater r r')
    (hr : Retired time r) : Retired time r' :=
  hr.imp h.consumed h.expiry.trans

/-- Codes go on as later versions of themselves, and one may be added. -/
structure Later (s s' : OtpShared) : Prop where
  clock : s.clock ≤ s'.clock
  length : s.codes.rows.length ≤ s'.codes.rows.length
  forth : ∀ r ∈ s.codes.rows, ∃ r' ∈ s'.codes.rows, RowLater r r'
  back : ∀ r' ∈ s'.codes.rows, (∃ r ∈ s.codes.rows, RowLater r r') ∨
    r'.id = s.codes.rows.length ∧ r'.createdAt = s.clock

variable {s s' : OtpShared} {codes' : Codes}

theorem later_of_same (hcodes : s'.codes = s.codes) (hclock : s.clock ≤ s'.clock) : Later s s' := by
  refine ⟨hclock, by rw [hcodes], ?_, ?_⟩
  all_goals rw [hcodes]
  · exact fun r hr => ⟨r, hr, .refl r⟩
  · exact fun r hr => Or.inl ⟨r, hr, .refl r⟩

theorem later_updateMany {p : PhoneOtp → Prop} [DecidablePred p] {f : PhoneOtp → PhoneOtp}
    (hf : ∀ r, (f r).id = r.id) (hcodes : s'.codes = s.codes.updateMany p f hf)
    (hclock : s'.clock = s.clock) (hlater : ∀ r, p r → RowLater r (f r)) : Later s s' := by
  have hrow : ∀ r, RowLater r (if p r then f r else r) := by
    intro r
    split_ifs with hp
    · exact hlater r hp
    · exact .refl r
  refine ⟨hclock.ge, by rw [hcodes]; exact (List.length_map _).ge, ?_, ?_⟩
  all_goals rw [hcodes]
  · exact fun r hr => ⟨_, List.mem_map.mpr ⟨r, hr, rfl⟩, hrow r⟩
  · intro r' hr'
    obtain ⟨r, hr, rfl⟩ := List.mem_map.mp hr'
    exact Or.inl ⟨r, hr, hrow r⟩

theorem later_replaces {old new : PhoneOtp} (h : Table.Replaces s.codes s'.codes old new)
    (hclock : s'.clock = s.clock) (hlater : RowLater old new) : Later s s' := by
  refine ⟨hclock.ge, by rw [h.rows_eq]; exact (List.length_map _).ge, ?_, ?_⟩
  · intro r hr
    obtain ⟨r', hr', _, rfl | ⟨rfl, rfl⟩⟩ := h.exists_new hr
    · exact ⟨r', hr', .refl r'⟩
    · exact ⟨_, hr', hlater⟩
  · intro r' hr'
    obtain ⟨r, hr, _, rfl | ⟨rfl, rfl⟩⟩ := h.exists_old hr'
    · exact Or.inl ⟨r', hr, .refl r'⟩
    · exact Or.inl ⟨_, hr, hlater⟩

theorem later_create (hnum : Numbered s.codes) (phone codeHash : String) (now : Instant) :
    Later s (s.withCodes (createCode s.codes phone codeHash now s.clock)) := by
  have hrows := hnum.rows_createCode phone codeHash now s.clock
  refine ⟨le_refl _, ?_, ?_, ?_⟩
  all_goals simp only [OtpShared.withCodes, hrows]
  · rw [List.length_append]
    exact Nat.le_add_right _ _
  · exact fun r hr => ⟨r, List.mem_append_left _ hr, .refl r⟩
  · intro r' hr'
    rcases List.mem_append.mp hr' with hr' | hr'
    · exact Or.inl ⟨r', hr', .refl r'⟩
    · rw [List.mem_singleton.mp hr']
      exact Or.inr ⟨rfl, rfl⟩

/-- A version of a row that was already stored. -/
theorem Later.old_of_lt (h : Later s s') {r' : PhoneOtp} (hr' : r' ∈ s'.codes.rows)
    (hlt : r'.id < s.codes.rows.length) : ∃ r ∈ s.codes.rows, RowLater r r' := by
  rcases h.back r' hr' with hold | ⟨hid, _⟩
  · exact hold
  · exact absurd hid hlt.ne

end Succession

section Invariants

/-- Attempts cover the comparisons, and no code comes from the future. -/
structure CodesSound (s : OtpShared) : Prop where
  books : Budgeted s.codes s.comparisons
  past : ∀ r ∈ s.codes.rows, r.createdAt ≤ s.clock

/-- A code is retired before a newer one of its phone is stored, and accepted ones are
consumed and were the newest. -/
structure Superseding (s : OtpShared) : Prop where
  retired : ∀ r ∈ s.codes.rows, ∀ newer ∈ s.codes.rows, newer.phoneE164 = r.phoneE164 →
    r.id < newer.id → Retired newer.createdAt r
  once : (s.acceptances.map (·.otpId)).Nodup
  consumed : ∀ a ∈ s.acceptances, ∃ r ∈ s.codes.rows, r.id = a.otpId ∧ r.consumedAt ≠ none
  newest : ∀ a ∈ s.acceptances, a.issued ≤ s.codes.rows.length ∧
    ∀ r ∈ s.codes.rows, r.phoneE164 = a.phone → r.id < a.issued → r.id ≤ a.otpId

/-- What a call knows of the codes stored when it started. -/
structure CallSound (s : OtpShared) (call : OtpCall) : Prop where
  started : call.now ≤ s.clock
  issued : call.issued ≤ s.codes.rows.length
  older : ∀ r ∈ s.codes.rows, r.id < call.issued → r.createdAt ≤ call.now

/-- The code a call has read is stored and was the newest of its phone. -/
structure Found (s : OtpShared) (call : OtpCall) (active : PhoneOtp) : Prop where
  stored : ∃ r ∈ s.codes.rows, r.id = active.id ∧ r.phoneE164 = call.phone
  newest : ∀ r ∈ s.codes.rows, r.phoneE164 = call.phone → r.id < call.issued → r.id ≤ active.id

def TaskFound (s : OtpShared) : OtpTask → Prop
  | .claim call active => Found s call active
  | .consume call active => Found s call active
  | _ => True

structure TaskSound (s : OtpShared) (task : OtpTask) : Prop where
  call : CallSound s task.call
  found : TaskFound s task

variable {s s' : OtpShared} {call : OtpCall} {active : PhoneOtp} {task : OtpTask}

theorem callSound_later (h : Later s s') (hs : CallSound s call) : CallSound s' call := by
  refine ⟨hs.started.trans h.clock, hs.issued.trans h.length, ?_⟩
  intro r' hr' hlt
  obtain ⟨r, hr, hlater⟩ := h.old_of_lt hr' (lt_of_lt_of_le hlt hs.issued)
  rw [hlater.created]
  exact hs.older r hr (by rwa [hlater.same_id] at hlt)

theorem found_later (h : Later s s') (hs : CallSound s call) (hf : Found s call active) :
    Found s' call active := by
  constructor
  · obtain ⟨r, hr, hid, hphone⟩ := hf.stored
    obtain ⟨r', hr', hlater⟩ := h.forth r hr
    exact ⟨r', hr', hlater.same_id.trans hid, hlater.phone.trans hphone⟩
  · intro r' hr' hphone hlt
    obtain ⟨r, hr, hlater⟩ := h.old_of_lt hr' (lt_of_lt_of_le hlt hs.issued)
    rw [hlater.same_id] at hlt ⊢
    exact hf.newest r hr (hlater.phone.symm.trans hphone) hlt

theorem taskSound_later (h : Later s s') (hs : TaskSound s task) : TaskSound s' task := by
  refine ⟨callSound_later h hs.call, ?_⟩
  have hfound := hs.found
  cases task with
  | claim call active => exact found_later h hs.call hfound
  | consume call active => exact found_later h hs.call hfound
  | _ => trivial

theorem codesSound_past (h : Later s s') (hs : CodesSound s) :
    ∀ r ∈ s'.codes.rows, r.createdAt ≤ s'.clock := by
  intro r' hr'
  rcases h.back r' hr' with ⟨r, hr, hlater⟩ | ⟨_, hcreated⟩
  · rw [hlater.created]
    exact (hs.past r hr).trans h.clock
  · rw [hcreated]
    exact h.clock

/-- Later versions stay superseded if what is added supersedes the rest. -/
theorem superseding_later (h : Later s s') (hs : Superseding s) (hnum : Numbered s.codes)
    (haccepted : s'.acceptances = s.acceptances)
    (hadded : ∀ newer ∈ s'.codes.rows, newer.id = s.codes.rows.length →
      ∀ r ∈ s.codes.rows, newer.phoneE164 = r.phoneE164 → Retired newer.createdAt r) :
    Superseding s' := by
  refine ⟨?_, by rw [haccepted]; exact hs.once, ?_, ?_⟩
  · intro r' hr' newer' hnewer' hphone hlt
    have hold : ∃ r ∈ s.codes.rows, RowLater r r' := by
      rcases h.back r' hr' with hold | ⟨hid, _⟩
      · exact hold
      · rcases h.back newer' hnewer' with ⟨newer, hnewer, hlater⟩ | ⟨hid', _⟩
        · have hbound := hnum newer hnewer
          rw [hid, hlater.same_id] at hlt
          exact absurd hlt hbound.asymm
        · rw [hid, hid'] at hlt
          exact absurd hlt (lt_irrefl _)
    obtain ⟨r, hr, hlater⟩ := hold
    apply hlater.retired
    rcases h.back newer' hnewer' with ⟨newer, hnewer, hlater'⟩ | ⟨hid', _⟩
    · rw [hlater'.created]
      apply hs.retired r hr newer hnewer
      · rw [← hlater'.phone, hphone, hlater.phone]
      · rwa [← hlater'.same_id, ← hlater.same_id]
    · exact hadded newer' hnewer' hid' r hr (hphone.trans hlater.phone)
  · intro a ha
    rw [haccepted] at ha
    obtain ⟨r, hr, hid, hconsumed⟩ := hs.consumed a ha
    obtain ⟨r', hr', hlater⟩ := h.forth r hr
    exact ⟨r', hr', hlater.same_id.trans hid, hlater.consumed hconsumed⟩
  · intro a ha
    rw [haccepted] at ha
    obtain ⟨hissued, hnewest⟩ := hs.newest a ha
    refine ⟨hissued.trans h.length, ?_⟩
    intro r' hr' hphone hlt
    obtain ⟨r, hr, hlater⟩ := h.old_of_lt hr' (lt_of_lt_of_le hlt hissued)
    rw [hlater.same_id] at hlt ⊢
    exact hnewest r hr (hlater.phone.symm.trans hphone) hlt

/-- The code found active is the newest of those stored when the call started. -/
theorem found_active (hs : Superseding s) (hcall : CallSound s call) (hr : active ∈ s.codes.rows)
    (hactive : isActive call.phone call.now active) : Found s call active := by
  obtain ⟨hphone, hunconsumed, hunexpired⟩ := hactive
  refine ⟨⟨active, hr, rfl, hphone⟩, ?_⟩
  intro newer hnewer hnewerPhone hlt
  by_contra hlater
  rcases hs.retired active hr newer hnewer (hnewerPhone.trans hphone.symm) (not_le.mp hlater) with
    hconsumed | hexpired
  · exact hconsumed hunconsumed
  · exact absurd (hexpired.trans (hcall.older newer hnewer hlt)) (not_le.mpr hunexpired)

end Invariants

section Guard

/-- The two statements that may spoil the single use are timely: the code to consume is
not consumed yet, and no code of the phone is live when a new one is inserted. -/
def Timely (s : OtpShared) : OtpTask → Prop
  | .consume _ active => ∀ r ∈ s.codes.rows, r.id = active.id → r.consumedAt = none
  | .create call => ∀ r ∈ s.codes.rows, r.phoneE164 = call.phone → Retired s.clock r
  | _ => True

instance (s : OtpShared) : DecidablePred (Timely s) := fun task => by
  cases task <;> unfold Timely <;> infer_instance

/-- Every statement that runs is timely. -/
def RunsTimely (p : OtpPool) : OtpAction → Prop
  | .event _ => True
  | .resume index input => ∀ task ∈ p.tasks[index]?, input.fails = false → Timely p.shared task

instance (p : OtpPool) (a : OtpAction) : Decidable (RunsTimely p a) := by
  unfold RunsTimely
  cases a <;> infer_instance

end Guard

section Statements

variable {hashOtp : String → String} {s s' : OtpShared} {input : OtpInput} {task : OtpTask}
  {rest : List OtpTask}

/-- What one statement does to the codes and to the two logs. -/
inductive StatementEffect (hashOtp : String → String) (s : OtpShared) :
    OtpTask → OtpShared → Prop
  | read {task : OtpTask} : StatementEffect hashOtp s task s
  | wrote {task : OtpTask} {codes : Codes} (hlater : Later s (s.withCodes codes))
      (hsame : SameAttempts s.codes codes) (hlength : codes.rows.length = s.codes.rows.length) :
    StatementEffect hashOtp s task (s.withCodes codes)
  | created {call : OtpCall} : StatementEffect hashOtp s (.create call)
      (s.withCodes (createCode s.codes call.phone (hashOtp call.code) call.now s.clock))
  | compared {call : OtpCall} {active : PhoneOtp} {codes : Codes}
      (hclaim : claimAttempt s.codes active.id = some codes) :
    StatementEffect hashOtp s (.claim call active)
      { s with codes, comparisons := ⟨active.id, call.phone, call.now⟩ :: s.comparisons }
  | accepted {call : OtpCall} {active : PhoneOtp} : StatementEffect hashOtp s (.consume call active)
      { s with
        codes := PhoneOtps.consume s.codes active.id call.now
        acceptances := ⟨active.id, call.phone, call.issued⟩ :: s.acceptances }

theorem wrote_updateMany {p : PhoneOtp → Prop} [DecidablePred p] {f : PhoneOtp → PhoneOtp}
    {hf : ∀ r, (f r).id = r.id}
    (hkeeps : ∀ r, (f r).phoneE164 = r.phoneE164 ∧ (f r).attemptCount = r.attemptCount)
    (hlater : ∀ r, p r → RowLater r (f r)) :
    StatementEffect hashOtp s task (s.withCodes (s.codes.updateMany p f hf)) :=
  .wrote (later_updateMany hf rfl rfl hlater) (sameAttempts_updateMany s.codes p f hf hkeeps)
    (List.length_map _)

theorem statement_effect (h : nextStatement hashOtp s input task = some (s', rest)) :
    StatementEffect hashOtp s task s' := by
  cases task with
  | findLatest call | findActive call | lockoutLatest call =>
    obtain ⟨found, _, heq⟩ := Option.map_eq_some_iff.mp h
    cases heq
    exact .read
  | invalidate call =>
    cases h
    apply wrote_updateMany
    · exact fun r => ⟨rfl, rfl⟩
    · intro r hactive
      exact ⟨rfl, rfl, rfl, le_of_lt hactive.2.2, fun h => h⟩
  | create call =>
    cases h
    exact .created
  | claim call active =>
    have heq : claimAndCompare hashOtp s call active = (s', rest) := by simpa [nextStatement] using h
    unfold claimAndCompare at heq
    split at heq
    · cases heq
      exact .read
    · rename_i codes hclaim
      cases heq
      exact .compared hclaim
  | consume call active =>
    cases h
    exact .accepted
  | lockoutUpdate call id =>
    cases h
    apply wrote_updateMany
    · exact fun r => ⟨rfl, rfl⟩
    · exact fun r _ => ⟨rfl, rfl, rfl, le_refl _, fun h => h⟩
  | _ =>
    cases h
    exact .read

theorem effect_later (h : StatementEffect hashOtp s task s') (hnum : Numbered s.codes) :
    Later s s' := by
  cases h with
  | read => exact later_of_same rfl (le_refl _)
  | wrote hlater _ _ => exact hlater
  | created => exact later_create hnum _ _ _
  | compared hclaim =>
    obtain ⟨r, _, _, _, hrep⟩ := claimAttempt_eq_some hclaim
    exact later_replaces hrep rfl ⟨rfl, rfl, rfl, le_refl _, fun h => h⟩
  | @accepted call active =>
    refine later_updateMany (p := fun r => r.id = active.id ∧ r.consumedAt = none)
      (f := fun r => { r with consumedAt := some call.now }) (fun _ => rfl) rfl rfl ?_
    exact fun r _ => ⟨rfl, rfl, rfl, le_refl _, fun _ => Option.some_ne_none _⟩

theorem effect_books (h : StatementEffect hashOtp s task s') (hs : CodesSound s)
    (htask : TaskSound s task) : CodesSound s' := by
  refine ⟨?_, codesSound_past (effect_later h hs.books.numbered) hs⟩
  cases h with
  | read => exact hs.books
  | wrote _ hsame _ => exact hs.books.same hsame
  | created => exact hs.books.create _ _ _ _
  | @compared call active codes hclaim =>
    obtain ⟨r, hr, hid, hphone⟩ := htask.found.stored
    rw [← hid] at hclaim ⊢
    exact (hs.books.claim hr hphone hclaim).2
  | accepted => exact hs.books.same (sameAttempts_consume s.codes _ _)

/-- No row is added by a statement that keeps the number of rows. -/
theorem superseding_kept (hlater : Later s s') (hs : Superseding s) (hnum : Numbered s.codes)
    (hnum' : Numbered s'.codes) (hlength : s'.codes.rows.length = s.codes.rows.length)
    (haccepted : s'.acceptances = s.acceptances) : Superseding s' := by
  refine superseding_later hlater hs hnum haccepted ?_
  intro newer hnewer hid
  have hlt := hnum' newer hnewer
  rw [hlength] at hlt
  exact absurd hid hlt.ne

theorem effect_superseding (h : StatementEffect hashOtp s task s') (hsound : CodesSound s)
    (hs : Superseding s) (htask : TaskSound s task) (htimely : Timely s task) :
    Superseding s' := by
  have hnum := hsound.books.numbered
  have hlater := effect_later h hnum
  have hnum' := (effect_books h hsound htask).books.numbered
  cases h with
  | read => exact hs
  | wrote _ _ hlength => exact superseding_kept hlater hs hnum hnum' hlength rfl
  | @created call =>
    refine superseding_later hlater hs hnum rfl ?_
    intro newer hnewer hid r hr hphone
    have hrows := hnum.rows_createCode call.phone (hashOtp call.code) call.now s.clock
    simp only [OtpShared.withCodes, hrows] at hnewer
    rcases List.mem_append.mp hnewer with hnewer | hnewer
    · exact absurd hid (hnum newer hnewer).ne
    · rw [List.mem_singleton.mp hnewer] at hphone ⊢
      exact htimely r hr hphone.symm
  | compared hclaim =>
    obtain ⟨_, _, _, _, hrep⟩ := claimAttempt_eq_some hclaim
    refine superseding_kept hlater hs hnum hnum' ?_ rfl
    exact (congrArg List.length hrep.rows_eq).trans (List.length_map _)
  | @accepted call active =>
    have hconsumed : ∀ r' ∈ (PhoneOtps.consume s.codes active.id call.now).rows,
        r'.id = active.id → r'.consumedAt ≠ none := by
      intro r' hr' hid
      obtain ⟨r, hr, rfl⟩ := List.mem_map.mp hr'
      have hsame : (if r.id = active.id ∧ r.consumedAt = none
          then { r with consumedAt := some call.now } else r).id = r.id := by
        split_ifs <;> rfl
      rw [hsame] at hid
      rw [if_pos ⟨hid, htimely r hr hid⟩]
      exact Option.some_ne_none _
    have hbase : Superseding
        (s.withCodes (PhoneOtps.consume s.codes active.id call.now)) := by
      refine superseding_kept ?_ hs hnum hnum' (List.length_map _) rfl
      exact ⟨hlater.clock, hlater.length, hlater.forth, hlater.back⟩
    obtain ⟨r, hr, hid, hphone⟩ := htask.found.stored
    obtain ⟨r', hr', hrow⟩ := hlater.forth r hr
    refine ⟨hbase.retired, ?_, ?_, ?_⟩
    · rw [List.map_cons, List.nodup_cons]
      refine ⟨?_, hs.once⟩
      intro hmem
      obtain ⟨a, ha, haid⟩ := List.mem_map.mp hmem
      obtain ⟨q, hq, hqid, hqconsumed⟩ := hs.consumed a ha
      exact hqconsumed (htimely q hq (hqid.trans haid))
    · intro a ha
      rcases List.mem_cons.mp ha with rfl | ha
      · have hrid := hrow.same_id.trans hid
        exact ⟨r', hr', hrid, hconsumed r' hr' hrid⟩
      · exact hbase.consumed a ha
    · intro a ha
      rcases List.mem_cons.mp ha with rfl | ha
      · have hfound := found_later hlater htask.call htask.found
        exact ⟨htask.call.issued.trans hlater.length, hfound.newest⟩
      · exact hbase.newest a ha

/-- What is left of a call is sound. -/
theorem rest_sound (h : nextStatement hashOtp s input task = some (s', rest))
    (hs : Superseding s) (hlater : Later s s') (htask : TaskSound s task) :
    ∀ next ∈ rest, TaskSound s' next := by
  have hcall := callSound_later hlater htask.call
  cases task with
  | findLock kind call =>
    cases h
    split_ifs
    · simp
    · simpa using ⟨hcall, trivial⟩
  | findAnchor kind call =>
    cases h
    simpa using ⟨hcall, trivial⟩
  | countBurned kind call windowStart =>
    cases h
    split_ifs
    · simp
    · cases kind <;> simpa using ⟨hcall, trivial⟩
  | findLatest call =>
    obtain ⟨latest, _, heq⟩ := Option.map_eq_some_iff.mp h
    cases heq
    split_ifs
    · simp
    · simpa using ⟨hcall, trivial⟩
  | invalidate call =>
    cases h
    simpa using ⟨hcall, trivial⟩
  | create call =>
    cases h
    simp
  | findActive call =>
    obtain ⟨found, hread, heq⟩ := Option.map_eq_some_iff.mp h
    cases heq
    intro next hnext
    cases found with
    | none => cases hnext
    | some active =>
      obtain ⟨hrow, hactive, _⟩ := newestOf_eq_some hread
      rw [List.mem_singleton.mp hnext]
      exact ⟨hcall, found_active hs htask.call hrow hactive⟩
  | claim call active =>
    have heq : claimAndCompare hashOtp s call active = (s', rest) := by
      simpa [nextStatement] using h
    have hfound := found_later hlater htask.call htask.found
    unfold claimAndCompare at heq
    split at heq
    · cases heq
      simpa using ⟨hcall, trivial⟩
    · cases heq
      split_ifs
      · simpa using ⟨hcall, hfound⟩
      · simpa using ⟨hcall, trivial⟩
  | consume call active =>
    cases h
    simp
  | lockoutAnchor call =>
    cases h
    simpa using ⟨hcall, trivial⟩
  | lockoutCount call windowStart =>
    cases h
    split_ifs
    · simp
    · simpa using ⟨hcall, trivial⟩
  | lockoutLatest call =>
    obtain ⟨latest, _, heq⟩ := Option.map_eq_some_iff.mp h
    cases heq
    intro next hnext
    obtain ⟨r, _, rfl⟩ := List.mem_map.mp hnext
    exact ⟨hcall, trivial⟩
  | lockoutUpdate call id =>
    cases h
    simp

end Statements

section Runs

variable {hashOtp : String → String} {p p' : OtpPool} {a : OtpAction}

/-- The invariant of runs whose statements are timely. -/
abbrev PoolSound (p : OtpPool) : Prop :=
  Holds (fun s => CodesSound s ∧ Superseding s) TaskSound (fun _ _ _ => True) p

theorem undisturbed {s s' : OtpShared} {others : List OtpTask} (h : Later s s')
    (hothers : ∀ other ∈ others, TaskSound s other) :
    Undisturbed TaskSound (fun _ _ _ => True) s s' others :=
  .of_stable hothers (List.pairwise_of_forall fun _ _ => trivial)
    (fun _ hs => taskSound_later h hs) fun _ _ _ => trivial

theorem event_sound {s s' : OtpShared} {e : OtpEvent} {started tasks : List OtpTask}
    (hp : PoolSound ⟨s, tasks⟩) (h : startCall s e = some (s', started)) :
    PoolSound ⟨s', started ++ tasks⟩ := by
  obtain ⟨hsound, hsup⟩ := hp.shared
  have hnew : ∀ phone code, CallSound s (newCall s phone code) := by
    intro phone code
    exact ⟨le_refl _, le_refl _, fun r hr _ => hsound.past r hr⟩
  have hbegin : ∀ task : OtpTask, TaskSound s task → PoolSound ⟨s, [task] ++ tasks⟩ := by
    intro task htask
    refine holds_append hp.shared (undisturbed (later_of_same rfl (le_refl _)) hp.each) ?_
      (List.pairwise_singleton _ _) fun _ _ _ _ => trivial
    intro t ht
    rw [List.mem_singleton.mp ht]
    exact htask
  cases e with
  | tick clock =>
    simp only [startCall] at h
    split_ifs at h with hclock
    cases h
    have hlater : Later s { s with clock } := later_of_same rfl hclock
    refine holds_append ?_ (undisturbed hlater hp.each) (by simp) .nil (by simp)
    exact ⟨⟨hsound.books, codesSound_past hlater hsound⟩, hsup.retired, hsup.once, hsup.consumed,
      hsup.newest⟩
  | request phone code =>
    cases h
    exact hbegin _ ⟨hnew phone code, trivial⟩
  | verify phone code =>
    cases h
    exact hbegin _ ⟨hnew phone code, trivial⟩

theorem sound_step (hp : PoolSound p) (htimely : RunsTimely p a)
    (h : (otpSystem hashOtp).step p a = some p') : PoolSound p' := by
  refine holds_step (fun _ _ _ _ => trivial) hp ?_ ?_ h
  · intro e s' started _ he
    exact event_sound hp he
  · intro index input task s' rest ha hget hat hr
    have hothers := hat.each
    simp only [otpSystem, resumeCall] at hr
    split_ifs at hr with hfails
    · cases hr
      exact holds_append hp.shared (undisturbed (later_of_same rfl (le_refl _)) hothers) (by simp)
        .nil (by simp)
    · obtain ⟨hsound, hsup⟩ := hp.shared
      have heffect := statement_effect hr
      have hlater := effect_later heffect hsound.books.numbered
      have hrun : Timely p.shared task := by
        subst ha
        exact htimely task hget (by simpa using hfails)
      refine holds_append
        ⟨effect_books heffect hsound hat.own, effect_superseding heffect hsound hsup hat.own hrun⟩
        (undisturbed hlater hothers) (rest_sound hr hsup hlater hat.own) ?_ fun _ _ _ _ => trivial
      exact List.pairwise_of_forall fun _ _ => trivial

theorem poolSound_of_reachable
    (h : Reachable (otpSystem hashOtp).step RunsTimely Initial p) : PoolSound p := by
  refine h.invariant ?_ fun _ _ _ hp htimely ht => sound_step hp htimely ht
  intro p hi
  refine ⟨⟨⟨⟨?_, ?_, ?_⟩, ?_⟩, ?_, ?_, ?_, ?_⟩, ?_, ?_⟩
  all_goals simp [hi.codes, hi.comparisons, hi.acceptances, hi.tasks, Numbered]

/-- A code is accepted once, compared with few guesses, not accepted by a verify that
started after a newer one was issued, and alone while no call is under way. -/
structure UsedOnce (p : OtpPool) : Prop where
  accepted_once : (p.shared.acceptances.map (·.otpId)).Nodup
  few_guesses : ∀ id, p.shared.comparisons.countP (fun g => g.otpId = id) ≤ otpMaxAttempts
  superseded : ∀ a ∈ p.shared.acceptances, ∀ r ∈ p.shared.codes.rows, r.phoneE164 = a.phone →
    r.id < a.issued → r.id ≤ a.otpId
  one_live : ∀ phone, (∀ task ∈ p.tasks, task.call.phone ≠ phone) →
    ∀ r ∈ p.shared.codes.rows, ∀ r' ∈ p.shared.codes.rows, isActive phone p.shared.clock r →
      isActive phone p.shared.clock r' → r = r'

/-- Of two live codes of a phone none was issued before the other. -/
theorem live_unique {s : OtpShared} (hsound : CodesSound s) (hs : Superseding s) {phone : String}
    {r r' : PhoneOtp} (hr : r ∈ s.codes.rows) (hr' : r' ∈ s.codes.rows)
    (hlive : isActive phone s.clock r) (hlive' : isActive phone s.clock r') : ¬ r.id < r'.id := by
  intro hlt
  rcases hs.retired r hr r' hr' (hlive'.1.trans hlive.1.symm) hlt with hconsumed | hexpired
  · exact hconsumed hlive.2.1
  · exact absurd (hexpired.trans (hsound.past r' hr')) (not_le.mpr hlive.2.2)

/-- In every run whose statements are timely, codes are used once and superseded. -/
theorem codes_used_once (hashOtp : String → String)
    (h : Reachable (otpSystem hashOtp).step RunsTimely Initial p) : UsedOnce p := by
  obtain ⟨⟨hsound, hs⟩, _, _⟩ := poolSound_of_reachable h
  refine ⟨hs.once, ?_, fun a ha => (hs.newest a ha).2, ?_⟩
  · intro id
    by_cases hrow : ∃ r ∈ p.shared.codes.rows, r.id = id
    · obtain ⟨r, hr, rfl⟩ := hrow
      obtain ⟨hcount, hmax⟩ := hsound.books.counted r hr
      exact hcount.trans hmax
    · have hnone : p.shared.comparisons.countP (fun g => g.otpId = id) = 0 := by
        rw [List.countP_eq_zero]
        intro g hg
        obtain ⟨r, hr, hid, _⟩ := hsound.books.owned g hg
        have hne : g.otpId ≠ id := fun heq => hrow ⟨r, hr, hid.trans heq⟩
        simpa using hne
      rw [hnone]
      exact Nat.zero_le _
  · intro phone _ r hr r' hr' hlive hlive'
    have hid : r.id = r'.id :=
      le_antisymm (not_lt.mp (live_unique hsound hs hr' hr hlive' hlive))
        (not_lt.mp (live_unique hsound hs hr hr' hlive hlive'))
    exact p.shared.codes.eq_of_key_eq hr hr' hid

end Runs

section SampleRuns

/-- A stand-in for the digest that tells codes apart. -/
def plainHash (code : String) : String := "digest:" ++ code

def samplePool : OtpPool := ⟨⟨Table.empty, 0, [], []⟩, []⟩

theorem samplePool_initial : Initial samplePool := ⟨rfl, rfl, rfl, rfl⟩

/-- The newest call runs some of its statements. -/
def statements (count : ℕ) (pick : OtpId) : List OtpAction :=
  List.replicate count (.resume 0 { pick })

def requestInOneGo (code : String) (pick : OtpId) : List OtpAction :=
  .event (.request "+905550000001" code) :: statements 6 pick

def verifyInOneGo (code : String) (pick : OtpId) : List OtpAction :=
  .event (.verify "+905550000001" code) :: statements 6 pick

/-- A code is requested again after a minute and the newer one is accepted. -/
def requestedAgain : List OtpAction :=
  requestInOneGo "111111" 0 ++ [.event (.tick 60000)] ++ requestInOneGo "222222" 0 ++
    verifyInOneGo "222222" 1

theorem codes_used_once_requestedAgain :
    ∃ p, Reachable (otpSystem plainHash).step RunsTimely Initial p ∧
      p.shared.acceptances.map (·.otpId) = [1] ∧ p.shared.codes.rows.length = 2 ∧ UsedOnce p := by
  have hp : Reachable (otpSystem plainHash).step RunsTimely Initial
      (after (otpSystem plainHash).step samplePool requestedAgain) :=
    reachable_after_guarded (.start samplePool_initial) (by decide +kernel) (by decide +kernel)
  exact ⟨_, hp, by decide +kernel, by decide +kernel, codes_used_once plainHash hp⟩

/-- Two verifies of the right code both pass the comparison before either consumes it. -/
def verifiedTwice : List OtpAction :=
  requestInOneGo "111111" 0 ++ [.event (.verify "+905550000001" "111111")] ++ statements 5 0 ++
    [.event (.verify "+905550000001" "111111")] ++ statements 5 0 ++
    [.resume 0 {}, .resume 0 {}]

/-- Two requests both invalidate the earlier codes before either inserts its own. -/
def requestedTwice : List OtpAction :=
  [.event (.request "+905550000001" "111111")] ++ statements 5 0 ++
    [.event (.request "+905550000001" "222222")] ++ statements 5 0 ++
    [.resume 1 {}, .resume 0 {}]

theorem codes_not_used_once :
    (∃ p, Reachable (otpSystem plainHash).step anyStep Initial p ∧
      ¬ (p.shared.acceptances.map (·.otpId)).Nodup) ∧
    (∃ p, Reachable (otpSystem plainHash).step anyStep Initial p ∧ p.tasks = [] ∧
      ∃ r ∈ p.shared.codes.rows, ∃ r' ∈ p.shared.codes.rows, r ≠ r' ∧
        isActive "+905550000001" p.shared.clock r ∧
          isActive "+905550000001" p.shared.clock r') ∧
    ∃ p, Reachable (otpSystem plainHash).step anyStep Initial p ∧
      ∃ a ∈ p.shared.acceptances, ∃ r ∈ p.shared.codes.rows, r.phoneE164 = a.phone ∧
        r.id < a.issued ∧ a.otpId < r.id := by
  refine ⟨⟨after (otpSystem plainHash).step samplePool verifiedTwice, ?_, ?_⟩,
    ⟨after (otpSystem plainHash).step samplePool requestedTwice, ?_, ?_, ?_⟩,
    ⟨after (otpSystem plainHash).step samplePool
      (requestedTwice ++ verifyInOneGo "222222" 1 ++ verifyInOneGo "111111" 0), ?_, ?_⟩⟩
  · exact reachable_after (.start samplePool_initial) (by decide +kernel)
  · decide +kernel
  · exact reachable_after (.start samplePool_initial) (by decide +kernel)
  · rfl
  · decide +kernel
  · exact reachable_after (.start samplePool_initial) (by decide +kernel)
  · decide +kernel

end SampleRuns

end Kurtar.OtpSingleUse

import Kurtar.TaskPools
import Kurtar.PhoneOtps

/-!
# Concurrent calls for one-time codes

Each call runs statement by statement while others come between. What a call
has read travels with it; the time it started is read from one clock. Any
statement may fail, which ends its call. The history notes which code each
comparison was made with and which code each accepted verify used.
-/

namespace Kurtar.OtpInterleavings

open KeyedTable GuardedRuns IstanbulCalendar PhoneOtps TaskPools

/-- A call under way, with the number of codes stored when it started. -/
structure OtpCall where
  phone : String
  now : Instant
  code : String
  issued : ℕ

/-- A verify that accepted a code. -/
structure Acceptance where
  otpId : OtpId
  phone : String
  issued : ℕ

structure OtpShared where
  codes : Codes
  clock : Instant
  /-- Guesses that were compared with a code. -/
  comparisons : List Guess
  acceptances : List Acceptance

/-- Which of the two calls goes on after the lock was checked. -/
inductive CallKind where
  | request | verify
  deriving DecidableEq

/-- The next statement of a call. -/
inductive OtpTask where
  | findLock (kind : CallKind) (call : OtpCall)
  | findAnchor (kind : CallKind) (call : OtpCall)
  | countBurned (kind : CallKind) (call : OtpCall) (windowStart : Instant)
  | findLatest (call : OtpCall)
  | invalidate (call : OtpCall)
  | create (call : OtpCall)
  | findActive (call : OtpCall)
  | claim (call : OtpCall) (active : PhoneOtp)
  | consume (call : OtpCall) (active : PhoneOtp)
  | lockoutAnchor (call : OtpCall)
  | lockoutCount (call : OtpCall) (windowStart : Instant)
  | lockoutLatest (call : OtpCall)
  | lockoutUpdate (call : OtpCall) (id : OtpId)

def OtpTask.call : OtpTask → OtpCall
  | .findLock _ call | .findAnchor _ call | .countBurned _ call _ | .findLatest call
  | .invalidate call | .create call | .findActive call | .claim call _ | .consume call _
  | .lockoutAnchor call | .lockoutCount call _ | .lockoutLatest call | .lockoutUpdate call _ => call

inductive OtpEvent where
  /-- Time passes. -/
  | tick (clock : Instant)
  | request (phone code : String)
  | verify (phone code : String)

structure OtpInput where
  /-- The row a query for the first one returns. -/
  pick : OtpId := 0
  fails : Bool := false
  deriving DecidableEq

def newCall (s : OtpShared) (phone code : String) : OtpCall :=
  ⟨phone, s.clock, code, s.codes.rows.length⟩

def startCall (s : OtpShared) : OtpEvent → Option (OtpShared × List OtpTask)
  | .tick clock => if s.clock ≤ clock then some ({ s with clock }, []) else none
  | .request phone code => some (s, [.findLock .request (newCall s phone code)])
  | .verify phone code => some (s, [.findLock .verify (newCall s phone code)])

def OtpShared.withCodes (s : OtpShared) (codes : Codes) : OtpShared := { s with codes }

/-- Count an attempt and compare the guess with the code as it was read. -/
def claimAndCompare (hashOtp : String → String) (s : OtpShared) (call : OtpCall)
    (active : PhoneOtp) : OtpShared × List OtpTask :=
  match claimAttempt s.codes active.id with
  | none => (s, [.lockoutAnchor call])
  | some codes =>
    ({ s with codes, comparisons := ⟨active.id, call.phone, call.now⟩ :: s.comparisons },
      if hashOtp call.code = active.codeHash then [.consume call active]
      else [.lockoutAnchor call])

/-- The query after the lock check. -/
def afterLockCheck (call : OtpCall) : CallKind → OtpTask
  | .request => .findLatest call
  | .verify => .findActive call

/-- The next statement of a call and what is then left of it. -/
def nextStatement (hashOtp : String → String) (s : OtpShared) (input : OtpInput) :
    OtpTask → Option (OtpShared × List OtpTask)
  | .findLock kind call =>
    some (s, if activeLock s.codes call.phone call.now then [] else [.findAnchor kind call])
  | .findAnchor kind call =>
    some (s, [.countBurned kind call (windowAnchor s.codes call.phone call.now)])
  | .countBurned kind call windowStart =>
    some (s,
      if otpFailedCodeLockoutThreshold ≤ burnedCount s.codes call.phone windowStart then []
      else [afterLockCheck call kind])
  | .findLatest call =>
    (newestOf s.codes (fun r => r.phoneE164 = call.phone) input.pick).map fun latest =>
      (s, if ∃ r ∈ latest, call.now-r.createdAt < otpResendCooldownMs then []
        else [.invalidate call])
  | .invalidate call =>
    some (s.withCodes (PhoneOtps.invalidate s.codes call.phone call.now), [.create call])
  | .create call =>
    some (s.withCodes (createCode s.codes call.phone (hashOtp call.code) call.now s.clock), [])
  | .findActive call =>
    (newestOf s.codes (isActive call.phone call.now) input.pick).map fun active =>
      (s, active.toList.map (.claim call))
  | .claim call active => some (claimAndCompare hashOtp s call active)
  | .consume call active =>
    some ({ s with
      codes := PhoneOtps.consume s.codes active.id call.now
      acceptances := ⟨active.id, call.phone, call.issued⟩ :: s.acceptances }, [])
  | .lockoutAnchor call =>
    some (s, [.lockoutCount call (windowAnchor s.codes call.phone call.now)])
  | .lockoutCount call windowStart =>
    some (s,
      if burnedCount s.codes call.phone windowStart < otpFailedCodeLockoutThreshold then []
      else [.lockoutLatest call])
  | .lockoutLatest call =>
    (newestOf s.codes (fun r => r.phoneE164 = call.phone) input.pick).map fun latest =>
      (s, latest.toList.map fun r => .lockoutUpdate call r.id)
  | .lockoutUpdate call id =>
    some (s.withCodes (lock s.codes id (call.now+otpLockoutDurationMs)), [])

/-- A failed statement ends its call. -/
def resumeCall (hashOtp : String → String) (s : OtpShared) (_ : List OtpTask) (input : OtpInput)
    (task : OtpTask) : Option (OtpShared × List OtpTask) :=
  if input.fails then some (s, []) else nextStatement hashOtp s input task

def otpSystem (hashOtp : String → String) : System OtpShared OtpTask OtpEvent OtpInput where
  event := startCall
  resume := resumeCall hashOtp

abbrev OtpPool := Pool OtpShared OtpTask
abbrev OtpAction := PoolAction OtpEvent OtpInput

section Undisturbed

variable {hashOtp : String → String} {s s' : OtpShared} {task : OtpTask}
  {rest tasks : List OtpTask} {q : OtpPool}

/-- Some steps lead from one pool to the other. -/
def LeadsTo (hashOtp : String → String) (p q : OtpPool) : Prop :=
  ∃ actions, run (otpSystem hashOtp).step p actions = some q

theorem LeadsTo.refl (p : OtpPool) : LeadsTo hashOtp p p := ⟨[], rfl⟩

/-- The first task runs one statement. -/
theorem LeadsTo.head (input : OtpInput) (hfails : input.fails = false)
    (h : nextStatement hashOtp s input task = some (s', rest))
    (hrest : LeadsTo hashOtp ⟨s', rest ++ tasks⟩ q) : LeadsTo hashOtp ⟨s, task :: tasks⟩ q := by
  obtain ⟨actions, hrun⟩ := hrest
  refine ⟨.resume 0 input :: actions, ?_⟩
  have hstep : (otpSystem hashOtp).step ⟨s, task :: tasks⟩ (.resume 0 input) =
      some ⟨s', rest ++ tasks⟩ := by
    simp [System.step, otpSystem, resumeCall, hfails, h]
  unfold run
  rw [hstep]
  exact hrun

/-- The statements of the lock check lead to the next query, or end a locked call. -/
theorem lockCheck_leadsTo {kind : CallKind} {call : OtpCall}
    (hlocked : isLocked s.codes call.phone call.now → LeadsTo hashOtp ⟨s, tasks⟩ q)
    (hopen : ¬ isLocked s.codes call.phone call.now →
      LeadsTo hashOtp ⟨s, afterLockCheck call kind :: tasks⟩ q) :
    LeadsTo hashOtp ⟨s, .findLock kind call :: tasks⟩ q := by
  by_cases hlock : activeLock s.codes call.phone call.now
  · have hstep : nextStatement hashOtp s {} (.findLock kind call) = some (s, []) := by
      simp only [nextStatement, if_pos hlock]
    exact .head {} rfl hstep (hlocked (Or.inl hlock))
  · have hstep : nextStatement hashOtp s {} (.findLock kind call) =
        some (s, [.findAnchor kind call]) := by
      simp only [nextStatement, if_neg hlock]
    refine .head {} rfl hstep (.head {} rfl rfl ?_)
    by_cases hburned : otpFailedCodeLockoutThreshold ≤
        burnedCount s.codes call.phone (windowAnchor s.codes call.phone call.now)
    · have hcount : nextStatement hashOtp s {} (.countBurned kind call
          (windowAnchor s.codes call.phone call.now)) = some (s, []) := by
        simp only [nextStatement, if_pos hburned]
      exact .head {} rfl hcount (hlocked (Or.inr hburned))
    · have hcount : nextStatement hashOtp s {} (.countBurned kind call
          (windowAnchor s.codes call.phone call.now)) = some (s, [afterLockCheck call kind]) := by
        simp only [nextStatement, if_neg hburned]
      exact .head {} rfl hcount (hopen fun h => h.elim hlock hburned)

/-- A request that nobody disturbs does what `requestOtp` says. -/
theorem request_undisturbed {call : RequestCall} {codes : Codes} {issued : ℕ}
    {result : Except OtpError Instant} (hclock : s.clock = call.createdAt)
    (h : requestOtp hashOtp s.codes call = some (codes, result)) :
    LeadsTo hashOtp ⟨s, .findLock .request ⟨call.phone, call.now, call.code, issued⟩ :: tasks⟩
      ⟨s.withCodes codes, tasks⟩ := by
  let own : OtpCall := ⟨call.phone, call.now, call.code, issued⟩
  unfold requestOtp at h
  apply lockCheck_leadsTo
  · intro hlocked
    rw [if_pos hlocked] at h
    cases h
    exact .refl _
  · intro hopen
    rw [if_neg hopen] at h
    split at h
    · cases h
    · rename_i latest hread
      split_ifs at h with hsoon
      · cases h
        have hstep : nextStatement hashOtp s { pick := call.pick } (.findLatest own) =
            some (s, []) := by
          simp only [nextStatement, own, hread, Option.map_some, if_pos hsoon]
        exact .head { pick := call.pick } rfl hstep (.refl ⟨s, tasks⟩)
      · cases h
        have hstep : nextStatement hashOtp s { pick := call.pick } (.findLatest own) =
            some (s, [.invalidate own]) := by
          simp only [nextStatement, own, hread, Option.map_some, if_neg hsoon]
        refine .head { pick := call.pick } rfl hstep (.head {} rfl rfl (.head {} rfl rfl ?_))
        simp only [OtpShared.withCodes, hclock]
        exact .refl _

theorem lockout_leadsTo {call : OtpCall} {codes : Codes} {pick : OtpId}
    (h : maybeTriggerLockout s.codes call.phone call.now pick = some codes) :
    LeadsTo hashOtp ⟨s, .lockoutAnchor call :: tasks⟩ ⟨s.withCodes codes, tasks⟩ := by
  let windowStart := windowAnchor s.codes call.phone call.now
  unfold maybeTriggerLockout at h
  refine .head {} rfl rfl ?_
  split_ifs at h with hfew
  · cases h
    have hcount : nextStatement hashOtp s {} (.lockoutCount call windowStart) = some (s, []) := by
      simp only [nextStatement, windowStart, if_pos hfew]
    exact .head {} rfl hcount (.refl ⟨s, tasks⟩)
  · have hcount : nextStatement hashOtp s {} (.lockoutCount call windowStart) =
        some (s, [.lockoutLatest call]) := by
      simp only [nextStatement, windowStart, if_neg hfew]
    refine .head {} rfl hcount ?_
    split at h
    · cases h
    · rename_i hread
      cases h
      have hlatest : nextStatement hashOtp s { pick } (.lockoutLatest call) = some (s, []) := by
        simp only [nextStatement, hread, Option.map_some, Option.toList_none, List.map_nil]
      exact .head { pick } rfl hlatest (.refl ⟨s, tasks⟩)
    · rename_i latest hread
      cases h
      have hlatest : nextStatement hashOtp s { pick } (.lockoutLatest call) =
          some (s, [.lockoutUpdate call latest.id]) := by
        simp only [nextStatement, hread, Option.map_some, Option.toList_some, List.map_cons,
          List.map_nil]
      exact .head { pick } rfl hlatest (.head {} rfl rfl (.refl _))

/-- A verify that nobody disturbs does what `verifyOtp` says. -/
theorem verify_undisturbed {call : VerifyCall} {r : VerifyResult} {issued : ℕ}
    (h : verifyOtp hashOtp s.codes call = some r) :
    ∃ s', s'.codes = r.codes ∧ LeadsTo hashOtp
      ⟨s, .findLock .verify ⟨call.phone, call.now, call.code, issued⟩ :: tasks⟩ ⟨s', tasks⟩ := by
  let own : OtpCall := ⟨call.phone, call.now, call.code, issued⟩
  unfold verifyOtp at h
  by_cases hlocked : isLocked s.codes call.phone call.now
  · rw [if_pos hlocked] at h
    cases h
    exact ⟨s, rfl, lockCheck_leadsTo (fun _ => .refl _) fun hopen => absurd hlocked hopen⟩
  · rw [if_neg hlocked] at h
    suffices hfound : ∃ s', s'.codes = r.codes ∧
        LeadsTo hashOtp ⟨s, .findActive own :: tasks⟩ ⟨s', tasks⟩ by
      obtain ⟨s', hcodes, hleads⟩ := hfound
      exact ⟨s', hcodes, lockCheck_leadsTo (fun h => absurd h hlocked) fun _ => hleads⟩
    split at h
    · cases h
    · rename_i hread
      cases h
      have hstep : nextStatement hashOtp s { pick := call.pick } (.findActive own) =
          some (s, []) := by
        simp only [nextStatement, own, hread, Option.map_some, Option.toList_none, List.map_nil]
      exact ⟨s, rfl, .head { pick := call.pick } rfl hstep (.refl ⟨s, tasks⟩)⟩
    · rename_i active hread
      have hstep : nextStatement hashOtp s { pick := call.pick } (.findActive own) =
          some (s, [.claim own active]) := by
        simp only [nextStatement, own, hread, Option.map_some, Option.toList_some, List.map_cons,
          List.map_nil]
      split at h
      · rename_i hnone
        obtain ⟨codes, hlockout, rfl⟩ := Option.map_eq_some_iff.mp h
        have hclaim : nextStatement hashOtp s {} (.claim own active) =
            some (s, [.lockoutAnchor own]) := by
          simp only [nextStatement, claimAndCompare, hnone]
        exact ⟨s.withCodes codes, rfl, .head { pick := call.pick } rfl hstep
          (.head {} rfl hclaim (lockout_leadsTo hlockout))⟩
      · rename_i claimed hclaimed
        let noted : OtpShared := { s with
          codes := claimed
          comparisons := ⟨active.id, call.phone, call.now⟩ :: s.comparisons }
        split_ifs at h with hmatch
        · cases h
          have hclaim : nextStatement hashOtp s {} (.claim own active) =
              some (noted, [.consume own active]) := by
            simp only [nextStatement, claimAndCompare, hclaimed, own, if_pos hmatch, noted]
          exact ⟨_, rfl, .head { pick := call.pick } rfl hstep
            (.head {} rfl hclaim (.head {} rfl rfl (.refl _)))⟩
        · obtain ⟨codes, hlockout, rfl⟩ := Option.map_eq_some_iff.mp h
          have hclaim : nextStatement hashOtp s {} (.claim own active) =
              some (noted, [.lockoutAnchor own]) := by
            simp only [nextStatement, claimAndCompare, hclaimed, own, if_neg hmatch, noted]
          exact ⟨noted.withCodes codes, rfl, .head { pick := call.pick } rfl hstep
            (.head {} rfl hclaim (lockout_leadsTo hlockout))⟩

end Undisturbed

/-- No code was issued yet and no call is under way. -/
structure Initial (p : OtpPool) : Prop where
  codes : p.shared.codes = Table.empty
  comparisons : p.shared.comparisons = []
  acceptances : p.shared.acceptances = []
  tasks : p.tasks = []

end Kurtar.OtpInterleavings

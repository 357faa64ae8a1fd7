import Kurtar.IstanbulCalendar
import Kurtar.KeyedTable

/-!
# One-time codes and their statements

The stored codes of all phones and the single database statements that
requesting and verifying a code is made of. Codes are numbered in the order
of their insertion. A query for the first row by creation time may return any
of several rows of the same time, so its caller names the one returned.
-/

namespace Kurtar.PhoneOtps

open KeyedTable IstanbulCalendar

/-- Number of a stored code. -/
abbrev OtpId := ℕ

def otpCodeTtlMs : ℤ := 10*60000
def otpResendCooldownMs : ℤ := 60000
def otpMaxAttempts : ℕ := 3
def otpFailedCodeLockoutThreshold : ℕ := 5
def otpFailureWindowMs : ℤ := 24*60*60000
def otpLockoutDurationMs : ℤ := 24*60*60000

structure PhoneOtp where
  id : OtpId
  phoneE164 : String
  codeHash : String
  expiresAt : Instant
  attemptCount : ℕ := 0
  lockedUntil : Option Instant := none
  consumedAt : Option Instant := none
  createdAt : Instant
  deriving DecidableEq

abbrev Codes := Table PhoneOtp.id

/-- Refusals of the two calls. Every refused verify looks the same. -/
inductive OtpError where
  | locked
  | resendTooSoon
  | verificationFailed
  deriving DecidableEq

def OtpError.response : OtpError → ℕ × String
  | .locked =>
    (400, "Too many failed verification attempts on this phone. Please try again later.")
  | .resendTooSoon => (400, "Please wait before requesting another code.")
  | .verificationFailed => (401, "Invalid or expired verification code")

section Queries

/-- A code that a verify may still be compared with. -/
def isActive (phone : String) (now : Instant) (r : PhoneOtp) : Prop :=
  r.phoneE164 = phone ∧ r.consumedAt = none ∧ now < r.expiresAt

instance (phone : String) (now : Instant) : DecidablePred (isActive phone now) := fun r => by
  unfold isActive
  infer_instance

/-- The first row by creation time, newest first, among those selected; none when the
row named is not such a row. -/
def newestOf (codes : Codes) (p : PhoneOtp → Prop) [DecidablePred p] (pick : OtpId) :
    Option (Option PhoneOtp) :=
  if ∃ r ∈ codes.rows, p r then
    ((codes.find? pick).filter fun r =>
      decide (p r ∧ ∀ s ∈ codes.rows, p s → s.createdAt ≤ r.createdAt)).map some
  else some none

/-- Is some row of the phone locked beyond `now`? -/
def activeLock (codes : Codes) (phone : String) (now : Instant) : Prop :=
  ∃ r ∈ codes.rows, r.phoneE164 = phone ∧ ∃ u ∈ r.lockedUntil, now < u

instance (codes : Codes) (phone : String) (now : Instant) :
    Decidable (activeLock codes phone now) := by
  unfold activeLock
  infer_instance

/-- The latest lock of the phone that has expired. -/
def lastExpiredLock (codes : Codes) (phone : String) (now : Instant) : Option Instant :=
  (codes.rows.filterMap fun r =>
    if r.phoneE164 = phone then r.lockedUntil.filter fun u => decide (u ≤ now) else none).max?

/-- Start of the window in which burned codes count. -/
def windowAnchor (codes : Codes) (phone : String) (now : Instant) : Instant :=
  let rollingWindowStart := now-otpFailureWindowMs
  match lastExpiredLock codes phone now with
  | some lockedUntil =>
    if lockedUntil > rollingWindowStart then lockedUntil else rollingWindowStart
  | none => rollingWindowStart

/-- A code whose attempts are used up and that was created in the window. -/
def burned (phone : String) (windowStart : Instant) (r : PhoneOtp) : Prop :=
  r.phoneE164 = phone ∧ r.consumedAt = none ∧ otpMaxAttempts ≤ r.attemptCount ∧
    windowStart ≤ r.createdAt

instance (phone : String) (windowStart : Instant) : DecidablePred (burned phone windowStart) :=
  fun r => by
    unfold burned
    infer_instance

def burnedCount (codes : Codes) (phone : String) (windowStart : Instant) : ℕ :=
  codes.rows.countP fun r => burned phone windowStart r

def isLocked (codes : Codes) (phone : String) (now : Instant) : Prop :=
  activeLock codes phone now ∨
    otpFailedCodeLockoutThreshold ≤ burnedCount codes phone (windowAnchor codes phone now)

instance (codes : Codes) (phone : String) (now : Instant) : Decidable (isLocked codes phone now) := by
  unfold isLocked
  infer_instance

end Queries

section Writes

/-- Expire the codes of the phone that are still active. -/
def invalidate (codes : Codes) (phone : String) (now : Instant) : Codes :=
  codes.updateMany (isActive phone now) (fun r => { r with expiresAt := now }) fun _ => rfl

def newCode (codes : Codes) (phone codeHash : String) (now createdAt : Instant) : PhoneOtp :=
  { id := codes.rows.length
    phoneE164 := phone
    codeHash
    expiresAt := now+otpCodeTtlMs
    createdAt }

def createCode (codes : Codes) (phone codeHash : String) (now createdAt : Instant) : Codes :=
  codes.insertNew (newCode codes phone codeHash now createdAt)

def countAttempt (r : PhoneOtp) : PhoneOtp := { r with attemptCount := r.attemptCount+1 }

/-- Count an attempt unless they are used up; none when no row matched. -/
def claimAttempt (codes : Codes) (id : OtpId) : Option Codes :=
  codes.updateOne id (fun r => r.attemptCount < otpMaxAttempts ∧ r.consumedAt = none) countAttempt
    fun _ => rfl

/-- Mark a code as used; the number of rows that matched is not looked at. -/
def consume (codes : Codes) (id : OtpId) (now : Instant) : Codes :=
  codes.updateMany (fun r => r.id = id ∧ r.consumedAt = none)
    (fun r => { r with consumedAt := some now }) fun _ => rfl

def lock (codes : Codes) (id : OtpId) (lockedUntil : Instant) : Codes :=
  codes.updateMany (fun r => r.id = id) (fun r => { r with lockedUntil := some lockedUntil })
    fun _ => rfl

end Writes

section Calls

/-- A request with the code generated for it and the time the database gives its row. -/
structure RequestCall where
  phone : String
  now : Instant
  code : String
  createdAt : Instant
  pick : OtpId := 0

structure VerifyCall where
  phone : String
  now : Instant
  code : String
  pick : OtpId := 0
  lockoutPick : OtpId := 0

/-- Request a code; the result is its expiry. -/
def requestOtp (hashOtp : String → String) (codes : Codes) (call : RequestCall) :
    Option (Codes × Except OtpError Instant) :=
  if isLocked codes call.phone call.now then some (codes, .error .locked)
  else
    match newestOf codes (fun r => r.phoneE164 = call.phone) call.pick with
    | none => none
    | some latest =>
      if ∃ r ∈ latest, call.now-r.createdAt < otpResendCooldownMs then
        some (codes, .error .resendTooSoon)
      else
        some (createCode (invalidate codes call.phone call.now) call.phone (hashOtp call.code)
          call.now call.createdAt, .ok (call.now+otpCodeTtlMs))

/-- Lock the phone after a failed verify once enough of its codes are burned. -/
def maybeTriggerLockout (codes : Codes) (phone : String) (now : Instant) (pick : OtpId) :
    Option Codes :=
  if burnedCount codes phone (windowAnchor codes phone now) < otpFailedCodeLockoutThreshold then
    some codes
  else
    match newestOf codes (fun r => r.phoneE164 = phone) pick with
    | none => none
    | some none => some codes
    | some (some latest) => some (lock codes latest.id (now+otpLockoutDurationMs))

/-- What a verify has done: the code it was compared with, if any, and its result. -/
structure VerifyResult where
  codes : Codes
  compared : Option OtpId
  result : Except OtpError Unit

/-- Verify a submitted code. -/
def verifyOtp (hashOtp : String → String) (codes : Codes) (call : VerifyCall) :
    Option VerifyResult :=
  if isLocked codes call.phone call.now then some ⟨codes, none, .error .verificationFailed⟩
  else
    match newestOf codes (isActive call.phone call.now) call.pick with
    | none => none
    | some none => some ⟨codes, none, .error .verificationFailed⟩
    | some (some active) =>
      match claimAttempt codes active.id with
      | none =>
        (maybeTriggerLockout codes call.phone call.now call.lockoutPick).map fun codes =>
          ⟨codes, none, .error .verificationFailed⟩
      | some claimed =>
        if hashOtp call.code = active.codeHash then
          some ⟨consume claimed active.id call.now, some active.id, .ok ()⟩
        else
          (maybeTriggerLockout claimed call.phone call.now call.lockoutPick).map fun codes =>
            ⟨codes, some active.id, .error .verificationFailed⟩

end Calls

section Facts

variable {codes codes' : Codes} {r s : PhoneOtp} {id : OtpId}

theorem newestOf_eq_some {p : PhoneOtp → Prop} [DecidablePred p] {pick : OtpId}
    (h : newestOf codes p pick = some (some r)) :
    r ∈ codes.rows ∧ p r ∧ ∀ s ∈ codes.rows, p s → s.createdAt ≤ r.createdAt := by
  unfold newestOf at h
  split_ifs at h
  · obtain ⟨s, hs, heq⟩ := Option.map_eq_some_iff.mp h
    cases heq
    obtain ⟨hfind, hnewest⟩ := Option.filter_eq_some_iff.mp hs
    exact ⟨(Table.find?_eq_some.mp hfind).1, of_decide_eq_true hnewest⟩
  · cases h

theorem claimAttempt_eq_some (h : claimAttempt codes id = some codes') :
    ∃ r, r.id = id ∧ r.attemptCount < otpMaxAttempts ∧ r.consumedAt = none ∧
      Table.Replaces codes codes' r (countAttempt r) := by
  obtain ⟨r, hid, ⟨hattempts, hconsumed⟩, hrep⟩ := Table.updateOne_eq_some h
  exact ⟨r, hid, hattempts, hconsumed, hrep⟩

end Facts

/-- Codes are numbered by their position, so the next number is not taken. -/
def Numbered (codes : Codes) : Prop := ∀ r ∈ codes.rows, r.id < codes.rows.length

section Numbers

variable {codes : Codes} {r : PhoneOtp}

theorem Numbered.fresh (h : Numbered codes) (phone codeHash : String) (now createdAt : Instant) :
    ∀ r ∈ codes.rows, r.id ≠ (newCode codes phone codeHash now createdAt).id := by
  intro r hr
  exact (h r hr).ne

theorem Numbered.rows_createCode (h : Numbered codes) (phone codeHash : String)
    (now createdAt : Instant) : (createCode codes phone codeHash now createdAt).rows =
      codes.rows ++ [newCode codes phone codeHash now createdAt] :=
  Table.rows_insertNew_of_fresh (h.fresh phone codeHash now createdAt)

theorem Numbered.createCode (h : Numbered codes) (phone codeHash : String)
    (now createdAt : Instant) : Numbered (createCode codes phone codeHash now createdAt) := by
  intro r hr
  rw [h.rows_createCode] at hr ⊢
  rw [List.length_append, List.length_singleton]
  rcases List.mem_append.mp hr with hr | hr
  · exact Nat.lt_succ_of_lt (h r hr)
  · rw [List.mem_singleton.mp hr]
    exact Nat.lt_succ_self codes.rows.length

theorem Numbered.updateMany (h : Numbered codes) (p : PhoneOtp → Prop) [DecidablePred p]
    (f : PhoneOtp → PhoneOtp) (hf : ∀ r, (f r).id = r.id) : Numbered (codes.updateMany p f hf) := by
  intro r hr
  obtain ⟨s, hs, rfl⟩ := List.mem_map.mp hr
  have hlen : (codes.updateMany p f hf).rows.length = codes.rows.length := List.length_map _
  have hid : (if p s then f s else s).id = s.id := by
    split_ifs
    · exact hf s
    · rfl
  rw [hlen, hid]
  exact h s hs

theorem Numbered.replaces {codes' : Codes} {old new : PhoneOtp} (h : Numbered codes)
    (hrep : Table.Replaces codes codes' old new) : Numbered codes' := by
  have hlen : codes'.rows.length = codes.rows.length := by
    rw [hrep.rows_eq, List.length_map]
  intro r hr
  obtain ⟨s, hs, hid, _⟩ := hrep.exists_old hr
  rw [hlen, hid]
  exact h s hs

end Numbers

/-- A guess that was compared with a code. -/
structure Guess where
  otpId : OtpId
  phone : String
  time : Instant

section Attempts

/-- The same codes with the same attempts. -/
structure SameAttempts (codes codes' : Codes) : Prop where
  back : ∀ r' ∈ codes'.rows, ∃ r ∈ codes.rows, r.id = r'.id ∧ r.phoneE164 = r'.phoneE164 ∧
    r.attemptCount = r'.attemptCount
  forth : ∀ r ∈ codes.rows, ∃ r' ∈ codes'.rows, r'.id = r.id ∧ r'.phoneE164 = r.phoneE164 ∧
    r'.attemptCount = r.attemptCount
  numbered : Numbered codes → Numbered codes'

variable {codes codes' : Codes} {guesses : List Guess}

theorem SameAttempts.refl (codes : Codes) : SameAttempts codes codes :=
  ⟨fun r hr => ⟨r, hr, rfl, rfl, rfl⟩, fun r hr => ⟨r, hr, rfl, rfl, rfl⟩, id⟩

theorem sameAttempts_updateMany (codes : Codes) (p : PhoneOtp → Prop) [DecidablePred p]
    (f : PhoneOtp → PhoneOtp) (hf : ∀ r, (f r).id = r.id)
    (hkeeps : ∀ r, (f r).phoneE164 = r.phoneE164 ∧ (f r).attemptCount = r.attemptCount) :
    SameAttempts codes (codes.updateMany p f hf) := by
  have hrow : ∀ r, (if p r then f r else r).id = r.id ∧
      (if p r then f r else r).phoneE164 = r.phoneE164 ∧
        (if p r then f r else r).attemptCount = r.attemptCount := by
    intro r
    split_ifs
    · exact ⟨hf r, hkeeps r⟩
    · exact ⟨rfl, rfl, rfl⟩
  refine ⟨?_, ?_, fun h => h.updateMany p f hf⟩
  · intro r' hr'
    obtain ⟨r, hr, rfl⟩ := List.mem_map.mp hr'
    exact ⟨r, hr, (hrow r).1.symm, (hrow r).2.1.symm, (hrow r).2.2.symm⟩
  · intro r hr
    exact ⟨_, List.mem_map.mpr ⟨r, hr, rfl⟩, hrow r⟩

theorem sameAttempts_consume (codes : Codes) (id : OtpId) (now : Instant) :
    SameAttempts codes (consume codes id now) :=
  sameAttempts_updateMany codes _ _ _ fun _ => ⟨rfl, rfl⟩

theorem sameAttempts_lockout {phone : String} {now : Instant} {pick : OtpId}
    (h : maybeTriggerLockout codes phone now pick = some codes') : SameAttempts codes codes' := by
  unfold maybeTriggerLockout at h
  split_ifs at h
  · cases h
    exact .refl codes
  · split at h
    · cases h
    · cases h
      exact .refl codes
    · cases h
      exact sameAttempts_updateMany codes _ _ _ fun _ => ⟨rfl, rfl⟩

/-- Every guess compared is one of the attempts counted at its code. -/
structure Budgeted (codes : Codes) (guesses : List Guess) : Prop where
  numbered : Numbered codes
  owned : ∀ g ∈ guesses, ∃ r ∈ codes.rows, r.id = g.otpId ∧ r.phoneE164 = g.phone
  counted : ∀ r ∈ codes.rows, guesses.countP (fun g => g.otpId = r.id) ≤ r.attemptCount ∧
    r.attemptCount ≤ otpMaxAttempts

theorem Budgeted.same (hb : Budgeted codes guesses) (h : SameAttempts codes codes') :
    Budgeted codes' guesses := by
  refine ⟨h.numbered hb.numbered, ?_, ?_⟩
  · intro g hg
    obtain ⟨r, hr, hid, hphone⟩ := hb.owned g hg
    obtain ⟨r', hr', hid', hphone', _⟩ := h.forth r hr
    exact ⟨r', hr', hid'.trans hid, hphone'.trans hphone⟩
  · intro r' hr'
    obtain ⟨r, hr, hid, _, hattempts⟩ := h.back r' hr'
    rw [← hid, ← hattempts]
    exact hb.counted r hr

theorem Budgeted.create (hb : Budgeted codes guesses) (phone codeHash : String)
    (now createdAt : Instant) : Budgeted (createCode codes phone codeHash now createdAt) guesses := by
  have hrows := hb.numbered.rows_createCode phone codeHash now createdAt
  refine ⟨hb.numbered.createCode phone codeHash now createdAt, ?_, ?_⟩
  · intro g hg
    obtain ⟨r, hr, hrest⟩ := hb.owned g hg
    exact ⟨r, by rw [hrows]; exact List.mem_append_left _ hr, hrest⟩
  · intro r hr
    rw [hrows] at hr
    rcases List.mem_append.mp hr with hr | hr
    · exact hb.counted r hr
    · rw [List.mem_singleton.mp hr]
      have hnone : guesses.countP (fun g => g.otpId = codes.rows.length) = 0 := by
        rw [List.countP_eq_zero]
        intro g hg
        obtain ⟨s, hs, hid, _⟩ := hb.owned g hg
        have hlt := hb.numbered s hs
        rw [hid] at hlt
        simpa using hlt.ne
      exact ⟨hnone.le, Nat.zero_le _⟩

/-- A counted attempt leaves room for one guess more. -/
theorem Budgeted.claim (hb : Budgeted codes guesses) {active : PhoneOtp} {phone : String}
    {time : Instant} (ha : active ∈ codes.rows) (hphone : active.phoneE164 = phone)
    (h : claimAttempt codes active.id = some codes') :
    Budgeted codes' guesses ∧ Budgeted codes' (⟨active.id, phone, time⟩ :: guesses) := by
  obtain ⟨r, hid, hattempts, _, hrep⟩ := claimAttempt_eq_some h
  have he : r = active := codes.eq_of_key_eq hrep.mem_old ha hid
  rw [he] at hrep hattempts
  have howned : ∀ g ∈ guesses, ∃ r ∈ codes'.rows, r.id = g.otpId ∧ r.phoneE164 = g.phone := by
    intro g hg
    obtain ⟨s, hs, hsid, hsphone⟩ := hb.owned g hg
    obtain ⟨s', hs', hkey, rfl | ⟨rfl, rfl⟩⟩ := hrep.exists_new hs
    · exact ⟨s', hs', hsid, hsphone⟩
    · exact ⟨_, hs', hsid, hsphone⟩
  have hactive := (hb.counted active ha).1
  refine ⟨⟨hb.numbered.replaces hrep, howned, ?_⟩, ⟨hb.numbered.replaces hrep, ?_, ?_⟩⟩
  · intro s hs
    rcases hrep.mem_iff.mp hs with rfl | ⟨hs, _⟩
    · exact ⟨hactive.trans (Nat.le_succ _), hattempts⟩
    · exact hb.counted s hs
  · intro g hg
    rcases List.mem_cons.mp hg with rfl | hg
    · exact ⟨_, hrep.mem_new, rfl, hphone⟩
    · exact howned g hg
  · intro s hs
    rw [List.countP_cons]
    rcases hrep.mem_iff.mp hs with rfl | ⟨hs, hne⟩
    · refine ⟨?_, hattempts⟩
      split_ifs
      · exact Nat.succ_le_succ hactive
      · exact hactive.trans (Nat.le_succ _)
    · have hold := hb.counted s hs
      rw [if_neg (by simpa using fun heq => hne heq.symm)]
      exact hold

end Attempts

end Kurtar.PhoneOtps

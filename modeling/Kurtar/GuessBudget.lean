import Mathlib.Algebra.Group.Action.Defs
import Kurtar.GuardedRuns
import Kurtar.PhoneOtps

/-!
# The daily budget of wrong guesses

Calls for codes and guesses follow one another in time, and each wrong guess
that was compared with a code is noted. The lockout counts burned codes only,
so guesses at codes that were given up before they burned escape it. As long
as every code that was guessed at lately is counted, no window of 24 hours
sees more than fifteen wrong guesses; without that any number fits.
-/

namespace Kurtar.GuessBudget

open KeyedTable GuardedRuns IstanbulCalendar PhoneOtps

/-- Stored codes, the time of the last call, and the wrong guesses so far. -/
structure OtpHistory where
  codes : Codes
  clock : Instant
  /-- Wrong guesses that were compared. -/
  guesses : List Guess

inductive OtpCall where
  | request (call : RequestCall)
  | verify (call : VerifyCall)

/-- Wrong guesses after a verify. -/
def noteGuess (guesses : List Guess) (call : VerifyCall) (r : VerifyResult) : List Guess :=
  match r.compared, r.result with
  | some otpId, .error _ => ⟨otpId, call.phone, call.now⟩ :: guesses
  | _, _ => guesses

/-- The next call, which does not start before the last one has ended. -/
def step (hashOtp : String → String) (s : OtpHistory) : OtpCall → Option OtpHistory
  | .request call =>
    if s.clock ≤ call.now ∧ call.now ≤ call.createdAt then
      (requestOtp hashOtp s.codes call).map fun (codes, _) =>
        { s with codes, clock := call.createdAt }
    else none
  | .verify call =>
    if s.clock ≤ call.now then
      (verifyOtp hashOtp s.codes call).map fun r =>
        { codes := r.codes, clock := call.now, guesses := noteGuess s.guesses call r }
    else none

/-- No code was issued yet. -/
def Initial (s : OtpHistory) : Prop := s.codes = Table.empty ∧ s.guesses = []

/-- Documented budget of a day: the attempts of as many codes as lock the phone. -/
def dailyBudget : ℕ := otpMaxAttempts*otpFailedCodeLockoutThreshold

/-- Wrong guesses at a phone's codes in the window of 24 hours after an instant. -/
def wrongGuesses (guesses : List Guess) (phone : String) (after : Instant) : ℕ :=
  guesses.countP fun g =>
    g.phone = phone ∧ after < g.time ∧ g.time ≤ after+otpFailureWindowMs

/-- The code a verify is compared with. -/
def ComparedWith (codes : Codes) (call : VerifyCall) (active : PhoneOtp) : Prop :=
  ¬ isLocked codes call.phone call.now ∧
    newestOf codes (isActive call.phone call.now) call.pick = some (some active) ∧
      active.attemptCount < otpMaxAttempts

/-- When a guess is compared, the lockout counts every other code of the phone that was
guessed at in the last 24 hours. -/
def GuessesCounted (s : OtpHistory) : OtpCall → Prop
  | .request _ => True
  | .verify call => ∀ active ∈ s.codes.rows, ComparedWith s.codes call active →
    ∀ g ∈ s.guesses, g.phone = call.phone → call.now-otpFailureWindowMs < g.time →
      g.otpId = active.id ∨ ∃ r ∈ s.codes.rows, r.id = g.otpId ∧
        burned call.phone (windowAnchor s.codes call.phone call.now) r

instance (codes : Codes) (call : VerifyCall) (active : PhoneOtp) :
    Decidable (ComparedWith codes call active) := by
  unfold ComparedWith
  infer_instance

instance (s : OtpHistory) (call : OtpCall) : Decidable (GuessesCounted s call) := by
  unfold GuessesCounted
  cases call <;> infer_instance

section Window

variable {codes codes' : Codes} {guesses : List Guess}

theorem countP_or_le {α : Type*} (items : List α) (p q : α → Bool) :
    (items.countP fun a => p a || q a) ≤ items.countP p+items.countP q := by
  induction items with
  | nil => exact le_refl _
  | cons a items ih =>
    simp only [List.countP_cons]
    cases p a <;> cases q a <;> simp <;> omega

/-- Counting by any of several keys is at most the sum of the counts. -/
theorem countP_mem_le (guesses : List Guess) (ids : List OtpId) :
    guesses.countP (fun g => g.otpId ∈ ids) ≤
      (ids.map fun id => guesses.countP fun g => g.otpId = id).sum := by
  induction ids with
  | nil => simp
  | cons id ids ih =>
    have hsplit := countP_or_le guesses (fun g => g.otpId = id) fun g => g.otpId ∈ ids
    simp only [List.mem_cons, Bool.decide_or, List.map_cons, List.sum_cons]
    omega

/-- An unlocked phone has room for the guess that is compared next. -/
theorem recent_le (hb : Budgeted codes guesses) {call : VerifyCall} {active : PhoneOtp}
    (ha : active ∈ codes.rows) (hcompared : ComparedWith codes call active)
    (hcounted : ∀ g ∈ guesses, g.phone = call.phone → call.now-otpFailureWindowMs < g.time →
      g.otpId = active.id ∨ ∃ r ∈ codes.rows, r.id = g.otpId ∧
        burned call.phone (windowAnchor codes call.phone call.now) r) :
    (guesses.countP fun g => g.phone = call.phone ∧ call.now-otpFailureWindowMs < g.time)+1 ≤
      dailyBudget := by
  obtain ⟨hunlocked, _, hattempts⟩ := hcompared
  have hfew : burnedCount codes call.phone (windowAnchor codes call.phone call.now) <
      otpFailedCodeLockoutThreshold := by
    by_contra hmany
    exact hunlocked (Or.inr (not_lt.mp hmany))
  let burnedRows := codes.rows.filter fun r =>
    burned call.phone (windowAnchor codes call.phone call.now) r
  have hlength : burnedRows.length < otpFailedCodeLockoutThreshold := by
    rw [← List.countP_eq_length_filter]
    exact hfew
  have hwithin : (guesses.countP fun g =>
      g.phone = call.phone ∧ call.now-otpFailureWindowMs < g.time) ≤
      guesses.countP fun g => g.otpId ∈ active.id :: burnedRows.map (·.id) := by
    apply List.countP_mono_left
    intro g hg hrecent
    obtain ⟨hphone, htime⟩ := of_decide_eq_true hrecent
    rw [decide_eq_true_eq, List.mem_cons, List.mem_map]
    refine (hcounted g hg hphone htime).imp_right ?_
    rintro ⟨r, hr, hid, hburned⟩
    exact ⟨r, List.mem_filter.mpr ⟨hr, decide_eq_true hburned⟩, hid⟩
  have hsum : ((burnedRows.map (·.id)).map fun id => guesses.countP fun g => g.otpId = id).sum ≤
      burnedRows.length*otpMaxAttempts := by
    have hbound := List.sum_le_card_nsmul
      ((burnedRows.map (·.id)).map fun id => guesses.countP fun g => g.otpId = id)
      otpMaxAttempts (by
        intro count hcount
        rw [List.map_map] at hcount
        obtain ⟨r, hr, rfl⟩ := List.mem_map.mp hcount
        obtain ⟨h₁, h₂⟩ := hb.counted r (List.mem_filter.mp hr).1
        exact h₁.trans h₂)
    simpa only [List.length_map, smul_eq_mul] using hbound
  have hactive := (hb.counted active ha).1
  have hall := countP_mem_le guesses (active.id :: burnedRows.map (·.id))
  rw [List.map_cons, List.sum_cons] at hall
  change _ ≤ 3*5
  change _ < 5 at hlength
  change _ ≤ burnedRows.length*3 at hsum
  change _ < 3 at hattempts
  omega

/-- A guess with room in the 24 hours before it keeps every window within the budget. -/
theorem wrongGuesses_cons {g : Guess}
    (hrecent : (guesses.countP fun old =>
      old.phone = g.phone ∧ g.time-otpFailureWindowMs < old.time)+1 ≤ dailyBudget)
    (hbudget : ∀ phone after, wrongGuesses guesses phone after ≤ dailyBudget) (phone : String)
    (after : Instant) : wrongGuesses (g :: guesses) phone after ≤ dailyBudget := by
  rw [wrongGuesses, List.countP_cons]
  split_ifs with hin
  · obtain ⟨hphone, _, hend⟩ := of_decide_eq_true hin
    have hle : wrongGuesses guesses phone after ≤ guesses.countP fun old =>
        old.phone = g.phone ∧ g.time-otpFailureWindowMs < old.time := by
      apply List.countP_mono_left
      intro old _ hold
      obtain ⟨holdPhone, hstart, _⟩ := of_decide_eq_true hold
      have hlate : g.time-otpFailureWindowMs < old.time :=
        lt_of_le_of_lt (Int.sub_right_le_of_le_add hend) hstart
      exact decide_eq_true ⟨holdPhone.trans hphone.symm, hlate⟩
    exact (Nat.add_le_add_right hle 1).trans hrecent
  · exact hbudget phone after

end Window

section Calls

variable {hashOtp : String → String} {codes codes' : Codes}

/-- A request leaves the attempts alone, and may add a code. -/
theorem requestOtp_budgeted {guesses : List Guess} (hb : Budgeted codes guesses)
    {call : RequestCall} {result : Except OtpError Instant}
    (h : requestOtp hashOtp codes call = some (codes', result)) : Budgeted codes' guesses := by
  unfold requestOtp at h
  split_ifs at h
  · cases h
    exact hb
  · split at h
    · cases h
    · split_ifs at h
      · cases h
        exact hb
      · cases h
        have hsame : SameAttempts codes (invalidate codes call.phone call.now) :=
          sameAttempts_updateMany codes _ _ _ fun _ => ⟨rfl, rfl⟩
        exact (hb.same hsame).create _ _ _ _

/-- What a verify does: it counts an attempt at the code it compares with, if any. -/
theorem verifyOtp_cases {call : VerifyCall} {r : VerifyResult}
    (h : verifyOtp hashOtp codes call = some r) :
    r.compared = none ∧ SameAttempts codes r.codes ∨
      ∃ active claimed, active ∈ codes.rows ∧ active.phoneE164 = call.phone ∧
        ComparedWith codes call active ∧ claimAttempt codes active.id = some claimed ∧
          r.compared = some active.id ∧ SameAttempts claimed r.codes := by
  unfold verifyOtp at h
  split_ifs at h with hlocked
  · cases h
    exact Or.inl ⟨rfl, .refl codes⟩
  · split at h
    · cases h
    · cases h
      exact Or.inl ⟨rfl, .refl codes⟩
    · rename_i active hread
      obtain ⟨hrow, ⟨hphone, _, _⟩, _⟩ := newestOf_eq_some hread
      split at h
      · obtain ⟨locked, hlockout, rfl⟩ := Option.map_eq_some_iff.mp h
        exact Or.inl ⟨rfl, sameAttempts_lockout hlockout⟩
      · rename_i claimed hclaim
        obtain ⟨s, hid, hattempts, _, hrep⟩ := claimAttempt_eq_some hclaim
        rw [codes.eq_of_key_eq hrep.mem_old hrow hid] at hattempts
        refine Or.inr ⟨active, claimed, hrow, hphone, ⟨hlocked, hread, hattempts⟩, hclaim, ?_⟩
        split_ifs at h
        · cases h
          exact ⟨rfl, sameAttempts_consume claimed active.id call.now⟩
        · obtain ⟨locked, hlockout, rfl⟩ := Option.map_eq_some_iff.mp h
          exact ⟨rfl, sameAttempts_lockout hlockout⟩

end Calls

section Runs

variable {hashOtp : String → String} {s s' : OtpHistory} {call : OtpCall}

/-- The books of a run that counts every guess. -/
structure WithinBudget (s : OtpHistory) : Prop where
  books : Budgeted s.codes s.guesses
  budget : ∀ phone after, wrongGuesses s.guesses phone after ≤ dailyBudget

theorem withinBudget_verify (hw : WithinBudget s) {call : VerifyCall} {r : VerifyResult}
    (hcounted : GuessesCounted s (.verify call))
    (h : verifyOtp hashOtp s.codes call = some r) :
    WithinBudget { codes := r.codes, clock := call.now, guesses := noteGuess s.guesses call r } := by
  rcases verifyOtp_cases h with ⟨hnone, hsame⟩ | ⟨active, claimed, hrow, hphone, hcompared, hclaim,
    hsome, hsame⟩
  · have hnote : noteGuess s.guesses call r = s.guesses := by
      simp only [noteGuess, hnone]
    rw [hnote]
    exact ⟨hw.books.same hsame, hw.budget⟩
  · obtain ⟨hold, hnew⟩ : Budgeted claimed s.guesses ∧
        Budgeted claimed (⟨active.id, call.phone, call.now⟩ :: s.guesses) :=
      hw.books.claim hrow hphone hclaim
    unfold noteGuess
    rw [hsome]
    cases r.result with
    | ok _ => exact ⟨hold.same hsame, hw.budget⟩
    | error _ =>
      have hrecent := recent_le hw.books hrow hcompared (hcounted active hrow hcompared)
      exact ⟨hnew.same hsame,
        wrongGuesses_cons (g := ⟨active.id, call.phone, call.now⟩) hrecent hw.budget⟩

theorem withinBudget_step (hw : WithinBudget s) (hcounted : GuessesCounted s call)
    (h : step hashOtp s call = some s') : WithinBudget s' := by
  cases call with
  | request call =>
    simp only [step] at h
    split_ifs at h
    obtain ⟨⟨codes, result⟩, hrequest, rfl⟩ := Option.map_eq_some_iff.mp h
    exact ⟨requestOtp_budgeted hw.books hrequest, hw.budget⟩
  | verify call =>
    simp only [step] at h
    split_ifs at h
    obtain ⟨r, hverify, rfl⟩ := Option.map_eq_some_iff.mp h
    exact withinBudget_verify hw hcounted hverify

/-- In every run in which the lockout counts the codes that were guessed at, no window of
24 hours sees more wrong guesses at a phone's codes than the daily budget. -/
theorem wrong_guesses_within_budget (hashOtp : String → String)
    (h : Reachable (step hashOtp) GuessesCounted Initial s) :
    ∀ phone after, wrongGuesses s.guesses phone after ≤ dailyBudget := by
  have hw : WithinBudget s := by
    refine h.invariant ?_ fun _ _ _ hw hcounted ht => withinBudget_step hw hcounted ht
    rintro s ⟨hcodes, hguesses⟩
    refine ⟨⟨?_, ?_, ?_⟩, ?_⟩
    · simp [Numbered, hcodes]
    · simp [hguesses]
    · simp [hcodes]
    · simp [hguesses, wrongGuesses]
  exact hw.budget

end Runs

section SampleRuns

/-- A stand-in for the digest that tells codes apart. -/
def sampleHash (code : String) : String := "digest:" ++ code

def sampleHistory : OtpHistory := ⟨Table.empty, 0, []⟩

theorem sampleHistory_initial : Initial sampleHistory := ⟨rfl, rfl⟩

def samplePhone : String := "+905550000001"

/-- Request a new code every minute and guess at it a number of times. -/
def guessAtEach (codes guesses : ℕ) : List OtpCall :=
  (List.range codes).flatMap fun k : ℕ =>
    .request ⟨samplePhone, k*60000, "123456", k*60000, k-1⟩ ::
      List.replicate guesses (.verify ⟨samplePhone, k*60000, "000000", k, k⟩)

/-- Five burned codes use the budget up; the phone is locked when the sixth is tried. -/
theorem wrong_guesses_within_budget_burned :
    ∃ s, Reachable (step sampleHash) GuessesCounted Initial s ∧ s.guesses.length = 15 ∧
      wrongGuesses s.guesses samplePhone (-1) ≤ dailyBudget := by
  have hs : Reachable (step sampleHash) GuessesCounted Initial
      (after (step sampleHash) sampleHistory (guessAtEach 6 3)) :=
    reachable_after_guarded (.start sampleHistory_initial) (by decide +kernel) (by decide +kernel)
  exact ⟨_, hs, by decide +kernel, wrong_guesses_within_budget sampleHash hs samplePhone (-1)⟩

/-- Eight codes given up after two wrong guesses each are sixteen guesses in eight minutes,
although no code was ever entered correctly. -/
theorem given_up_codes_exceed_budget :
    ∃ s, Reachable (step sampleHash) anyStep Initial s ∧
      (∀ r ∈ s.codes.rows, r.consumedAt = none) ∧
        dailyBudget < wrongGuesses s.guesses samplePhone (-1) := by
  have hs : Reachable (step sampleHash) anyStep Initial
      (after (step sampleHash) sampleHistory (guessAtEach 8 2)) :=
    reachable_after (.start sampleHistory_initial) (by decide +kernel)
  exact ⟨_, hs, by decide +kernel, by decide +kernel⟩

end SampleRuns

end Kurtar.GuessBudget

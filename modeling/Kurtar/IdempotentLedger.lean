import Mathlib.Algebra.BigOperators.Group.List.Basic
import Mathlib.Data.List.Nodup
import Mathlib.Tactic.Ring

/-!
# Booking messages that are delivered at least once

Each message is to be entered into a ledger once, however often it is
delivered. The ledger refuses a second row under one key, and that is all the
protection there is. The amounts of the messages are then the amounts of the
ledger and of the messages that were not delivered yet.
-/

namespace Kurtar.IdempotentLedger

variable {ι κ μ ρ : Type*}

/-- How the rows of a ledger book messages. -/
structure Booking (κ μ ρ : Type*) where
  key : μ → κ
  amount : μ → ℤ
  rowKey : ρ → κ
  rowAmount : ρ → ℤ
  /-- The row is what a delivery of the message writes. -/
  Books : μ → ρ → Prop
  books_key : ∀ m row, Books m row → rowKey row = key m
  books_amount : ∀ m row, Books m row → rowAmount row = amount m

/-- The messages that were not delivered yet. -/
def pending [DecidableEq ι] (messages : List (ι × μ)) (delivered : List ι) : List (ι × μ) :=
  messages.filter fun p => p.1 ∉ delivered

/-- Insert a row unless its key is taken. -/
def enter [DecidableEq κ] (rowKey : ρ → κ) (ledger : List ρ) (row : ρ) : List ρ :=
  if ∃ r ∈ ledger, rowKey r = rowKey row then ledger else row :: ledger

/-- What holds of the messages, the ledger and the deliveries so far. -/
structure Balanced [DecidableEq ι] (B : Booking κ μ ρ) (messages : List (ι × μ))
    (ledger : List ρ) (delivered : List ι) : Prop where
  ids : (messages.map Prod.fst).Nodup
  keys : (messages.map fun p => B.key p.2).Nodup
  known : ∀ i ∈ delivered, i ∈ messages.map Prod.fst
  once : (ledger.map B.rowKey).Nodup
  booked : ∀ row ∈ ledger, ∃ p ∈ messages, p.1 ∈ delivered ∧ B.Books p.2 row
  stored : ∀ p ∈ messages, p.1 ∈ delivered → ∃ row ∈ ledger, B.rowKey row = B.key p.2
  total : (messages.map fun p => B.amount p.2).sum =
    (ledger.map B.rowAmount).sum + ((pending messages delivered).map fun p => B.amount p.2).sum

section Pending

variable [DecidableEq ι] {messages : List (ι × μ)} {delivered : List ι} {p : ι × μ}

theorem pending_cons_of_mem (h : p.1 ∈ delivered) :
    pending (p :: messages) delivered = pending messages delivered :=
  List.filter_cons_of_neg (by simpa using h)

theorem pending_cons_of_not_mem (h : p.1 ∉ delivered) :
    pending (p :: messages) delivered = p :: pending messages delivered :=
  List.filter_cons_of_pos (by simpa using h)

/-- A second delivery leaves the same messages pending. -/
theorem pending_of_mem {i : ι} (h : i ∈ delivered) :
    pending messages (i :: delivered) = pending messages delivered := by
  refine List.filter_congr ?_
  intro q _
  by_cases hq : q.1 = i
  · simp [hq, h]
  · simp [hq]

/-- The delivery of an unknown message leaves the same messages pending. -/
theorem pending_of_unknown {i : ι} (h : i ∉ messages.map Prod.fst) :
    pending messages (i :: delivered) = pending messages delivered := by
  refine List.filter_congr ?_
  intro q hq
  have hne : q.1 ≠ i := fun heq => h (List.mem_map.mpr ⟨q, hq, heq⟩)
  simp [hne]

/-- The first delivery of a message takes its amount off what is pending. -/
theorem sum_pending_deliver (amount : μ → ℤ) (hids : (messages.map Prod.fst).Nodup)
    (hp : p ∈ messages) (hnew : p.1 ∉ delivered) :
    ((pending messages delivered).map fun q => amount q.2).sum =
      amount p.2 + ((pending messages (p.1 :: delivered)).map fun q => amount q.2).sum := by
  induction messages with
  | nil => cases hp
  | cons q messages ih =>
    obtain ⟨hq, hids⟩ := List.nodup_cons.mp hids
    rcases List.mem_cons.mp hp with heq | hp
    · have hsame : pending messages (q.1 :: delivered) = pending messages delivered :=
        pending_of_unknown hq
      rw [heq] at hnew ⊢
      rw [pending_cons_of_not_mem hnew, pending_cons_of_mem List.mem_cons_self, hsame,
        List.map_cons, List.sum_cons]
    · have hrest := ih hids hp
      have hne : q.1 ≠ p.1 := fun heq => hq (List.mem_map.mpr ⟨p, hp, heq.symm⟩)
      by_cases hdelivered : q.1 ∈ delivered
      · rw [pending_cons_of_mem hdelivered, pending_cons_of_mem (List.mem_cons_of_mem _ hdelivered)]
        exact hrest
      · have hlater : q.1 ∉ p.1 :: delivered := by simp [hne, hdelivered]
        rw [pending_cons_of_not_mem hdelivered, pending_cons_of_not_mem hlater, List.map_cons,
          List.map_cons, List.sum_cons, List.sum_cons, hrest]
        ring

end Pending

section Ledger

variable [DecidableEq κ] {rowKey : ρ → κ} {ledger : List ρ} {row : ρ}

theorem enter_of_taken (h : ∃ r ∈ ledger, rowKey r = rowKey row) :
    enter rowKey ledger row = ledger := if_pos h

theorem enter_of_free (h : ¬ ∃ r ∈ ledger, rowKey r = rowKey row) :
    enter rowKey ledger row = row :: ledger := if_neg h

end Ledger

section Balance

variable [DecidableEq ι] {B : Booking κ μ ρ} {messages : List (ι × μ)} {ledger : List ρ}
  {delivered : List ι} {p : ι × μ} {row : ρ}

theorem balanced_nil : Balanced B ([] : List (ι × μ)) [] [] where
  ids := List.nodup_nil
  keys := List.nodup_nil
  known := fun _ h => absurd h List.not_mem_nil
  once := List.nodup_nil
  booked := fun _ h => absurd h List.not_mem_nil
  stored := fun _ h => absurd h List.not_mem_nil
  total := rfl

/-- A new message under an id and a key of its own. -/
theorem Balanced.publish (h : Balanced B messages ledger delivered)
    (hid : p.1 ∉ messages.map Prod.fst) (hkey : B.key p.2 ∉ messages.map fun q => B.key q.2) :
    Balanced B (p :: messages) ledger delivered := by
  have hnew : p.1 ∉ delivered := fun hmem => hid (h.known p.1 hmem)
  refine ⟨List.nodup_cons.mpr ⟨hid, h.ids⟩, List.nodup_cons.mpr ⟨hkey, h.keys⟩, ?_, h.once, ?_,
    ?_, ?_⟩
  · exact fun i hi => List.mem_cons_of_mem _ (h.known i hi)
  · intro r hr
    obtain ⟨q, hq, hdelivered, hbooks⟩ := h.booked r hr
    exact ⟨q, List.mem_cons_of_mem _ hq, hdelivered, hbooks⟩
  · intro q hq hdelivered
    rcases List.mem_cons.mp hq with heq | hq
    · exact absurd (heq ▸ hdelivered) hnew
    · exact h.stored q hq hdelivered
  · rw [pending_cons_of_not_mem hnew, List.map_cons, List.map_cons, List.sum_cons, List.sum_cons,
      h.total]
    ring

/-- Two messages under one key are one message. -/
theorem Balanced.eq_of_key (h : Balanced B messages ledger delivered) {q : ι × μ}
    (hp : p ∈ messages) (hq : q ∈ messages) (hkey : B.key p.2 = B.key q.2) : p = q :=
  List.inj_on_of_nodup_map h.keys hp hq hkey

variable [DecidableEq κ]

/-- A delivery keeps the balance, be it the first one of its message or not. -/
theorem Balanced.deliver (h : Balanced B messages ledger delivered) (hp : p ∈ messages)
    (hbooks : B.Books p.2 row) :
    Balanced B messages (enter B.rowKey ledger row) (p.1 :: delivered) := by
  have hkey := B.books_key _ _ hbooks
  have hknown : ∀ i ∈ p.1 :: delivered, i ∈ messages.map Prod.fst := by
    intro i hi
    rcases List.mem_cons.mp hi with heq | hi
    · rw [heq]
      exact List.mem_map.mpr ⟨p, hp, rfl⟩
    · exact h.known i hi
  by_cases hnew : p.1 ∈ delivered
  · obtain ⟨r, hr, hrkey⟩ := h.stored p hp hnew
    have htaken : ∃ r ∈ ledger, B.rowKey r = B.rowKey row := ⟨r, hr, hrkey.trans hkey.symm⟩
    rw [enter_of_taken htaken]
    refine ⟨h.ids, h.keys, hknown, h.once, ?_, ?_, ?_⟩
    · intro r hr
      obtain ⟨q, hq, hdelivered, hqbooks⟩ := h.booked r hr
      exact ⟨q, hq, List.mem_cons_of_mem _ hdelivered, hqbooks⟩
    · intro q hq hdelivered
      rcases List.mem_cons.mp hdelivered with heq | hdelivered
      · exact h.stored q hq (heq ▸ hnew)
      · exact h.stored q hq hdelivered
    · rw [pending_of_mem hnew]
      exact h.total
  · have hfree : ¬ ∃ r ∈ ledger, B.rowKey r = B.rowKey row := by
      intro htaken
      obtain ⟨r, hr, hrkey⟩ := htaken
      obtain ⟨q, hq, hdelivered, hqbooks⟩ := h.booked r hr
      have hsame : B.key p.2 = B.key q.2 := by
        rw [← hkey, ← hrkey]
        exact B.books_key _ _ hqbooks
      rw [h.eq_of_key hp hq hsame] at hnew
      exact hnew hdelivered
    rw [enter_of_free hfree]
    refine ⟨h.ids, h.keys, hknown, ?_, ?_, ?_, ?_⟩
    · refine List.nodup_cons.mpr ⟨?_, h.once⟩
      intro hmem
      obtain ⟨r, hr, hrkey⟩ := List.mem_map.mp hmem
      exact hfree ⟨r, hr, hrkey⟩
    · intro r hr
      rcases List.mem_cons.mp hr with heq | hr
      · exact ⟨p, hp, List.mem_cons_self, heq ▸ hbooks⟩
      · obtain ⟨q, hq, hdelivered, hqbooks⟩ := h.booked r hr
        exact ⟨q, hq, List.mem_cons_of_mem _ hdelivered, hqbooks⟩
    · intro q hq hdelivered
      rcases List.mem_cons.mp hdelivered with heq | hdelivered
      · have hqp : q = p := List.inj_on_of_nodup_map h.ids hq hp heq
        exact ⟨row, List.mem_cons_self, by rw [hqp]; exact hkey⟩
      · obtain ⟨r, hr, hrkey⟩ := h.stored q hq hdelivered
        exact ⟨r, List.mem_cons_of_mem _ hr, hrkey⟩
    · have hpending := sum_pending_deliver B.amount h.ids hp hnew
      have htotal := h.total
      have hamount := B.books_amount _ _ hbooks
      rw [List.map_cons, List.sum_cons, hamount]
      omega

end Balance

end Kurtar.IdempotentLedger

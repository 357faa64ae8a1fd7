import Mathlib.Logic.Function.Basic
import Mathlib.Data.Option.Basic
import Mathlib.Order.Basic

/-!
# Stores whose entries expire

A store keeps a value under a key until a time. It may forget an entry at any
moment. What holds of every entry when it is put holds of every value read,
together with the time that has not come yet.
-/

namespace Kurtar.ExpiringStores

variable {κ α τ : Type*}

structure Entry (α τ : Type*) where
  value : α
  expiresAt : τ

/-- At most one entry under each key. -/
structure Store (κ α τ : Type*) where
  entry : κ → Option (Entry α τ)

namespace Store

def empty : Store κ α τ := ⟨fun _ => none⟩

/-- The value under a key, if its time has not come. -/
def get [LT τ] [DecidableLT τ] (s : Store κ α τ) (key : κ) (now : τ) : Option α :=
  match s.entry key with
  | some e => if now < e.expiresAt then some e.value else none
  | none => none

variable [DecidableEq κ]

def put (s : Store κ α τ) (key : κ) (value : α) (expiresAt : τ) : Store κ α τ :=
  ⟨Function.update s.entry key (some ⟨value, expiresAt⟩)⟩

def forget (s : Store κ α τ) (key : κ) : Store κ α τ := ⟨Function.update s.entry key none⟩

theorem entry_put (s : Store κ α τ) (key : κ) (value : α) (expiresAt : τ) :
    (s.put key value expiresAt).entry = Function.update s.entry key (some ⟨value, expiresAt⟩) := rfl

theorem entry_forget (s : Store κ α τ) (key : κ) :
    (s.forget key).entry = Function.update s.entry key none := rfl

end Store

/-- Something holds of every entry. -/
def Each (P : κ → Entry α τ → Prop) (s : Store κ α τ) : Prop :=
  ∀ key e, s.entry key = some e → P key e

variable {P Q : κ → Entry α τ → Prop} {s : Store κ α τ}

theorem each_empty : Each P (Store.empty : Store κ α τ) := fun _ _ h => by cases h

theorem Each.mono (h : Each P s) (himp : ∀ key e, P key e → Q key e) : Each Q s :=
  fun key e he => himp key e (h key e he)

/-- What is read is an entry that has not expired. -/
theorem Each.get [LT τ] [DecidableLT τ] (h : Each P s) {key : κ} {now : τ} {value : α}
    (hget : s.get key now = some value) : ∃ e, P key e ∧ e.value = value ∧ now < e.expiresAt := by
  unfold Store.get at hget
  cases he : s.entry key with
  | none => simp [he] at hget
  | some e =>
    simp only [he] at hget
    split_ifs at hget with hlive
    exact ⟨e, h key e he, Option.some.inj hget, hlive⟩

variable [DecidableEq κ]

theorem Each.put (h : Each P s) {key : κ} {value : α} {expiresAt : τ}
    (hnew : P key ⟨value, expiresAt⟩) : Each P (s.put key value expiresAt) := by
  intro k e he
  by_cases hk : k = key
  · rw [Store.entry_put, hk, Function.update_self] at he
    cases he
    rw [hk]
    exact hnew
  · rw [Store.entry_put, Function.update_of_ne hk] at he
    exact h k e he

theorem Each.forget (h : Each P s) (key : κ) : Each P (s.forget key) := by
  intro k e he
  by_cases hk : k = key
  · rw [Store.entry_forget, hk, Function.update_self] at he
    cases he
  · rw [Store.entry_forget, Function.update_of_ne hk] at he
    exact h k e he

/-- A value is read back until its time comes. -/
theorem get_put_self [LT τ] [DecidableLT τ] (s : Store κ α τ) (key : κ) (value : α)
    {now expiresAt : τ} (h : now < expiresAt) :
    (s.put key value expiresAt).get key now = some value := by
  simp only [Store.get, Store.entry_put, Function.update_self, if_pos h]

end Kurtar.ExpiringStores

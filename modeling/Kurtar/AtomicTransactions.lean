import Mathlib.Tactic.TypeStar

/-!
# Transactions that roll back

The body of a transaction writes its working copy statement by statement and
may throw at any point; what it has written by then is still in the working
copy. Running it atomically keeps the working copy of a body that returns and
discards the one of a body that throws.
-/

namespace Kurtar.AtomicTransactions

variable {σ ε α β : Type*}

/-- A sequence of statements over a working copy. -/
abbrev Body (σ ε α : Type*) := σ → Except ε α × σ

namespace Body

/-- Return a value, writing nothing. -/
def done (a : α) : Body σ ε α := fun s => (.ok a, s)

/-- Throw, leaving in the working copy what was written before. -/
def fail (e : ε) : Body σ ε α := fun s => (.error e, s)

/-- One write. -/
def write (f : σ → σ) : Body σ ε Unit := fun s => (.ok (), f s)

/-- A write that returns a value. -/
def writeReturning (f : σ → σ × α) : Body σ ε α := fun s => (.ok (f s).2, (f s).1)

/-- A read that may throw. -/
def read (f : σ → Except ε α) : Body σ ε α := fun s => (f s, s)

/-- Go on with the value returned, unless the first part threw. -/
def andThen (body : Body σ ε α) (next : α → Body σ ε β) : Body σ ε β := fun s =>
  match body s with
  | (.ok a, s') => next a s'
  | (.error e, s') => (.error e, s')

/-- Commit the working copy of a body that returns; roll back otherwise. -/
def atomically (body : Body σ ε α) : Body σ ε α := fun s =>
  match body s with
  | (.ok a, s') => (.ok a, s')
  | (.error e, _) => (.error e, s)

variable {body : Body σ ε α} {s s' : σ}

@[simp] theorem andThen_done (a : α) (next : α → Body σ ε β) :
    (done a : Body σ ε α).andThen next = next a := rfl

@[simp] theorem andThen_fail (e : ε) (next : α → Body σ ε β) :
    (fail e : Body σ ε α).andThen next = fail e := rfl

@[simp] theorem andThen_write (f : σ → σ) (next : Unit → Body σ ε β) (s : σ) :
    (write f).andThen next s = next () (f s) := rfl

@[simp] theorem andThen_writeReturning (f : σ → σ × α) (next : α → Body σ ε β) (s : σ) :
    (writeReturning f).andThen next s = next (f s).2 (f s).1 := rfl

theorem andThen_read_ok (f : σ → Except ε α) {a : α} (next : α → Body σ ε β)
    (h : f s = .ok a) : (read f).andThen next s = next a s := by
  simp only [andThen, read, h]

theorem andThen_read_error (f : σ → Except ε α) {e : ε} (next : α → Body σ ε β)
    (h : f s = .error e) : (read f).andThen next s = (.error e, s) := by
  simp only [andThen, read, h]

theorem atomically_ok {a : α} (h : body s = (.ok a, s')) : body.atomically s = (.ok a, s') := by
  simp only [atomically, h]

theorem atomically_error {e : ε} (h : body s = (.error e, s')) :
    body.atomically s = (.error e, s) := by
  simp only [atomically, h]

end Body

end Kurtar.AtomicTransactions

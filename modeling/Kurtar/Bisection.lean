import Mathlib.Algebra.Order.Field.Basic
import Mathlib.Tactic.FieldSimp
import Mathlib.Tactic.Linarith
import Mathlib.Tactic.NormNum
import Mathlib.Tactic.Ring

/-!
# Bisection of an interval

A point is located by halving an interval again and again; each bit says
whether the point is above the middle. The bits give back an interval around
the point, and two points have the same bits exactly when they lie in the same
cell of the grid of equal parts. Two axes may be bisected in turn.
-/

namespace Kurtar.Bisection

variable {K : Type*} [Field K] [LinearOrder K]

structure Extent (K : Type*) where
  lo : K
  hi : K

/-- A point and the interval that it is in. -/
structure Axis (K : Type*) where
  point : K
  range : Extent K

/-- The interval keeps the half that the bit names. -/
def Extent.half (i : Extent K) (upper : Bool) : Extent K :=
  if upper then ⟨(i.lo+i.hi)/2, i.hi⟩ else ⟨i.lo, (i.lo+i.hi)/2⟩

/-- Whether the point is above the middle. -/
def Axis.bit (a : Axis K) : Bool := decide ((a.range.lo+a.range.hi)/2 < a.point)

def Axis.next (a : Axis K) : Axis K := ⟨a.point, a.range.half a.bit⟩

/-- The first bits of a point. -/
def bits : ℕ → Axis K → List Bool
  | 0, _ => []
  | n+1, a => a.bit :: bits n a.next

/-- Bits of two points taken in turn. -/
def interleave : ℕ → Axis K → Axis K → List Bool
  | 0, _, _ => []
  | m+1, a, b => a.bit :: interleave m b a.next

/-- The axes after bits taken in turn. -/
def advance : ℕ → Axis K → Axis K → Axis K × Axis K
  | 0, a, b => (a, b)
  | m+1, a, b => advance m b a.next

/-- The intervals that are left after bits taken in turn. -/
def replayBoth (i j : Extent K) : List Bool → Extent K × Extent K
  | [] => (i, j)
  | b :: rest => (replayBoth j (i.half b) rest)

/-- The point is in the interval. -/
def Extent.Contains (i : Extent K) (x : K) : Prop := i.lo ≤ x ∧ x ≤ i.hi

/-- The point is in part `k` of `2^n` equal parts, open below and closed above,
the lowest part closed at both ends. -/
def InCell (i : Extent K) (n k : ℕ) (x : K) : Prop :=
  (k = 0 ∧ x = i.lo ∨ i.lo+k*((i.hi-i.lo)/2^n) < x) ∧ x ≤ i.lo+(k+1)*((i.hi-i.lo)/2^n)

/-- The number of the part that the bits name. -/
def cellIndex : List Bool → ℕ
  | [] => 0
  | b :: rest => (if b then 2^rest.length else 0)+cellIndex rest

variable {a b a' b' : Axis K} {i j : Extent K} {x : K} {n m k k' : ℕ} {l l' : List Bool}

theorem length_bits : (bits n a).length = n := by
  induction n generalizing a with
  | zero => rfl
  | succ n ih => rw [bits, List.length_cons, ih]

theorem cellIndex_lt (l : List Bool) : cellIndex l < 2^l.length := by
  induction l with
  | nil => exact Nat.one_pos
  | cons b rest ih =>
    rw [cellIndex, List.length_cons, pow_succ]
    split <;> omega

/-- Bits of one length are determined by the part that they name. -/
theorem cellIndex_injective (hlength : l.length = l'.length) (h : cellIndex l = cellIndex l') :
    l = l' := by
  induction l generalizing l' with
  | nil => exact (List.length_eq_zero_iff.mp hlength.symm).symm
  | cons b rest ih =>
    cases l' with
    | nil => cases hlength
    | cons b' rest' =>
      rw [List.length_cons, List.length_cons, Nat.add_right_cancel_iff] at hlength
      rw [cellIndex, cellIndex, ← hlength] at h
      have hlow := cellIndex_lt rest
      have hlow' := cellIndex_lt rest'
      rw [← hlength] at hlow'
      cases b with
      | true =>
        cases b' with
        | true => rw [ih hlength (by simpa using h)]
        | false =>
          simp only [if_true, Bool.false_eq_true, if_false] at h
          omega
      | false =>
        cases b' with
        | true =>
          simp only [if_true, Bool.false_eq_true, if_false] at h
          omega
        | false => rw [ih hlength (by simpa using h)]

theorem length_interleave : (interleave m a b).length = m := by
  induction m generalizing a b with
  | zero => rfl
  | succ m ih => rw [interleave, List.length_cons, ih]

theorem interleave_add : interleave (m+n) a b =
    interleave m a b ++ interleave n (advance m a b).1 (advance m a b).2 := by
  induction m generalizing a b with
  | zero => rw [Nat.zero_add]; rfl
  | succ m ih => rw [Nat.succ_add, interleave, ih]; rfl

/-- Axes that agree on some bits are left with the same intervals. -/
theorem range_advance (ha : a.range = a'.range) (hb : b.range = b'.range)
    (h : interleave m a b = interleave m a' b') :
    (advance m a b).1.range = (advance m a' b').1.range ∧
      (advance m a b).2.range = (advance m a' b').2.range := by
  induction m generalizing a b a' b' with
  | zero => exact ⟨ha, hb⟩
  | succ m ih =>
    rw [interleave, interleave, List.cons.injEq] at h
    exact ih hb (by rw [Axis.next, Axis.next, ha, h.1]) h.2

/-- Bits taken in turn agree when those of either axis agree. -/
theorem interleave_eq_iff (ha : a.range = a'.range) (hb : b.range = b'.range) :
    interleave m a b = interleave m a' b' ↔
      bits ((m+1)/2) a = bits ((m+1)/2) a' ∧ bits (m/2) b = bits (m/2) b' := by
  induction m generalizing a b a' b' with
  | zero => simp [interleave, bits]
  | succ m ih =>
    have hhalf : (m+1+1)/2 = m/2+1 := by omega
    rw [interleave, interleave, hhalf, bits, bits, List.cons.injEq, List.cons.injEq]
    constructor
    · intro ⟨hbit, hrest⟩
      have hnext : a.next.range = a'.next.range := by
        rw [Axis.next, Axis.next, ha, hbit]
      have hboth := (ih hb hnext).mp hrest
      exact ⟨⟨hbit, hboth.2⟩, hboth.1⟩
    · intro ⟨⟨hbit, hleft⟩, hright⟩
      have hnext : a.next.range = a'.next.range := by
        rw [Axis.next, Axis.next, ha, hbit]
      exact ⟨hbit, (ih hb hnext).mpr ⟨hright, hleft⟩⟩

/-- The half with the point holds the point. -/
theorem contains_next (h : a.range.Contains a.point) : a.next.range.Contains a.next.point := by
  unfold Axis.next Extent.half Axis.bit
  by_cases hbit : (a.range.lo+a.range.hi)/2 < a.point
  · simp only [hbit, decide_true, if_true]
    exact ⟨hbit.le, h.2⟩
  · simp only [hbit, decide_false, Bool.false_eq_true, if_false]
    exact ⟨h.1, not_lt.mp hbit⟩

/-- Replaying bits taken in turn leaves intervals that hold the points. -/
theorem contains_replayBoth (ha : a.range.Contains a.point) (hb : b.range.Contains b.point) :
    ((replayBoth a.range b.range (interleave m a b)).1.Contains
        (if m%2 = 0 then a.point else b.point)) ∧
      ((replayBoth a.range b.range (interleave m a b)).2.Contains
        (if m%2 = 0 then b.point else a.point)) := by
  induction m generalizing a b with
  | zero => exact ⟨ha, hb⟩
  | succ m ih =>
    have hrest := ih hb (contains_next ha)
    have hparity : (m+1)%2 = 0 ↔ ¬ m%2 = 0 := by omega
    simp only [hparity, ite_not]
    exact hrest

section Order

variable [IsStrictOrderedRing K]

theorem width_half (i : Extent K) (upper : Bool) :
    (i.half upper).hi-(i.half upper).lo = (i.hi-i.lo)/2 := by
  unfold Extent.half
  cases upper with
  | true =>
    simp only [if_true]
    ring
  | false =>
    simp only [Bool.false_eq_true, if_false]
    ring

/-- The parts of a half are half as many parts of the whole, the upper half's
after those of the lower. -/
theorem inCell_of_half (i : Extent K) (upper : Bool)
    (hx : upper = true → (i.lo+i.hi)/2 < x) (h : InCell (i.half upper) n k x) :
    InCell i (n+1) ((if upper then 2^n else 0)+k) x := by
  have hwidth : ((i.half upper).hi-(i.half upper).lo)/2^n = (i.hi-i.lo)/2^(n+1) := by
    rw [width_half, pow_succ', div_div]
  obtain ⟨hlow, hhigh⟩ := h
  rw [hwidth] at hlow hhigh
  cases upper with
  | false =>
    simp only [Extent.half, Bool.false_eq_true, if_false, Nat.zero_add] at hlow hhigh ⊢
    exact ⟨hlow, hhigh⟩
  | true =>
    have hmid : i.lo+2^n*((i.hi-i.lo)/2^(n+1)) = (i.lo+i.hi)/2 := by
      rw [pow_succ]
      field_simp
      ring
    simp only [Extent.half, if_true] at hlow hhigh ⊢
    have hbelow : (i.lo+i.hi)/2+k*((i.hi-i.lo)/2^(n+1)) < x := by
      cases hlow with
      | inl hedge => exact absurd hedge.2 (hx rfl).ne'
      | inr hbelow => exact hbelow
    refine ⟨Or.inr ?_, ?_⟩
    · push_cast
      linarith
    · push_cast
      linarith

/-- The bits of a point name the part that it is in. -/
theorem inCell_bits (h : a.range.Contains a.point) :
    InCell a.range n (cellIndex (bits n a)) a.point := by
  induction n generalizing a with
  | zero =>
    obtain ⟨hlo, hhi⟩ := h
    refine ⟨?_, ?_⟩
    · rw [bits, cellIndex]
      cases hlo.lt_or_eq with
      | inl hlt => exact Or.inr (by simpa using hlt)
      | inr heq => exact Or.inl ⟨rfl, heq.symm⟩
    · rw [bits, cellIndex]
      simpa using hhi
  | succ n ih =>
    have hnext := ih (contains_next h)
    rw [bits, cellIndex, length_bits]
    exact inCell_of_half a.range a.bit (fun hbit => of_decide_eq_true hbit) hnext

/-- A point is in one part only. -/
theorem inCell_unique (hwidth : i.lo < i.hi) (h : InCell i n k x) (h' : InCell i n k' x) :
    k = k' := by
  have hpos : 0 < (i.hi-i.lo)/2^n := div_pos (sub_pos.mpr hwidth) (by positivity)
  have hle {k k' : ℕ} (h : InCell i n k x) (h' : InCell i n k' x) : k' ≤ k := by
    by_contra hlt
    have hbelow : i.lo+k'*((i.hi-i.lo)/2^n) < x := by
      cases h'.1 with
      | inl hedge => omega
      | inr hbelow => exact hbelow
    have hstep : ((k : K)+1)*((i.hi-i.lo)/2^n) ≤ k'*((i.hi-i.lo)/2^n) := by
      refine mul_le_mul_of_nonneg_right ?_ hpos.le
      exact_mod_cast Nat.lt_of_not_le hlt
    have habove := h.2
    linarith
  exact le_antisymm (hle h' h) (hle h h')

/-- Two points of the interval have the same bits exactly when they are in the
same part. -/
theorem bits_eq_iff (hrange : a.range = a'.range) (hwidth : a.range.lo < a.range.hi)
    (h : a.range.Contains a.point) (h' : a'.range.Contains a'.point) :
    bits n a = bits n a' ↔ ∃ k < 2^n, InCell a.range n k a.point ∧ InCell a.range n k a'.point := by
  have hcell := inCell_bits (n := n) h
  have hcell' := inCell_bits (n := n) h'
  rw [← hrange] at hcell'
  constructor
  · intro heq
    have hlt := cellIndex_lt (bits n a)
    rw [length_bits] at hlt
    rw [← heq] at hcell'
    exact ⟨cellIndex (bits n a), hlt, hcell, hcell'⟩
  · intro ⟨k, _, hk, hk'⟩
    refine cellIndex_injective (length_bits.trans length_bits.symm) ?_
    rw [inCell_unique hwidth hcell hk, inCell_unique hwidth hcell' hk']

/-- Two points of one part are no further apart than its width. -/
theorem sub_le_of_inCell {y : K} (h : InCell i n k x) (h' : InCell i n k y) :
    x-y ≤ (i.hi-i.lo)/2^n := by
  have hupper := h.2
  have hlower : i.lo+k*((i.hi-i.lo)/2^n) ≤ y := by
    cases h'.1 with
    | inl hedge =>
      rw [hedge.1, hedge.2]
      simp
    | inr hbelow => exact hbelow.le
  linarith

end Order

end Kurtar.Bisection

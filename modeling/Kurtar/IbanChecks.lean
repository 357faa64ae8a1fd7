import Mathlib.Data.Nat.Digits.Defs
import Mathlib.Data.Int.ModEq
import Mathlib.Tactic.NormNum
import Mathlib.Tactic.IntervalCases
import Mathlib.Tactic.Ring

/-!
# Typing errors in account numbers

The IBAN check moves the first four characters to the end, writes letters as
two digits and takes the remainder of the number modulo 97. A changed
character or a swapped pair of digits changes the remainder, at either end of
the rearranged text.
-/

namespace Kurtar.IbanChecks

/-- The characters of `\s`. -/
def isSpace (c : Char) : Bool :=
  c ∈ ['\t', '\n', '\x0b', '\x0c', '\r', ' ', '\u00a0', '\u1680', '\u2028', '\u2029', '\u202f',
    '\u205f', '\u3000', '\ufeff'] || decide ('\u2000' ≤ c ∧ c ≤ '\u200a')

/-- The characters of `[0-9A-Z]`. -/
def isAlnum (c : Char) : Bool := c.isDigit || c.isUpper

/-- Characters beyond ASCII whose upper case consists of ASCII letters. -/
def specialCasing : List (Char × List Char) :=
  [('ß', ['S', 'S']), ('ı', ['I']), ('ſ', ['S']), ('ﬀ', ['F', 'F']), ('ﬁ', ['F', 'I']),
    ('ﬂ', ['F', 'L']), ('ﬃ', ['F', 'F', 'I']), ('ﬄ', ['F', 'F', 'L']), ('ﬅ', ['S', 'T']),
    ('ﬆ', ['S', 'T'])]

/-- The upper case of the characters beyond ASCII that are not listed above. It
holds a character that is no ASCII letter or digit and is not removed. -/
structure CaseTable where
  upper : Char → List Char
  foreign : ∀ c, 128 ≤ c.toNat → specialCasing.lookup c = none → isSpace c = false →
    ∃ x ∈ upper c, isAlnum x = false ∧ isSpace x = false

section Definitions

variable (t : CaseTable)

/-- The upper case of one character. -/
def upperCase (c : Char) : List Char :=
  if c.toNat < 128 then [c.toUpper]
  else match specialCasing.lookup c with
    | some w => w
    | none => if isSpace c = true then [c] else t.upper c

def toUpperCase (text : List Char) : List Char := text.flatMap (upperCase t)

def normalize (iban : List Char) : List Char :=
  (toUpperCase t iban).filter (fun c => !isSpace c)

/-- `/^TR\d{2}[0-9A-Z]{22}$/` -/
def IBAN_FORMAT : List Char → Bool
  | 'T' :: 'R' :: a :: b :: rest =>
    a.isDigit && b.isDigit && decide (rest.length = 22) && rest.all isAlnum
  | _ => false

def isValidIbanFormat (iban : Option (List Char)) : Bool :=
  match iban with
  | none => false
  | some [] => false
  | some (c :: text) => IBAN_FORMAT (normalize t (c :: text))

/-- The two digits of a letter, and any other character as it is. -/
def numericOf (ch : Char) : List Char :=
  if ch.isUpper then Nat.toDigits 10 (ch.toNat-55) else [ch]

def digit (c : Char) : ℕ := c.toNat-48

/-- The number that a text of digits writes. -/
def BigInt (numeric : List Char) : ℕ := Nat.ofDigits 10 (numeric.reverse.map digit)

def isValidIbanChecksum (iban : List Char) : Bool :=
  let normalized := normalize t iban
  let rearranged := normalized.drop 4 ++ normalized.take 4
  let numeric := rearranged.flatMap numericOf
  if numeric ≠ [] ∧ numeric.all Char.isDigit then decide (BigInt numeric%97 = 1) else false

def isValidIban (iban : Option (List Char)) : Bool :=
  match iban with
  | none => false
  | some [] => false
  | some (c :: text) => isValidIbanFormat t (some (c :: text)) && isValidIbanChecksum t (c :: text)

end Definitions

/-- The number written by a text of letters and digits. -/
def value (text : List Char) : ℕ := BigInt (text.flatMap numericOf)

/-- What the check asks of a normalized text: check digits `a` and `b`, then
the account part. -/
structure Accepted (a b : Char) (rest : List Char) : Prop where
  check : a.isDigit = true ∧ b.isDigit = true
  length : rest.length = 22
  alnum : ∀ c ∈ rest, isAlnum c = true
  remainder : value (rest ++ ['T', 'R', a, b])%97 = 1

/-- A normalized text that the check accepts. -/
def AcceptedText (text : List Char) : Prop :=
  ∃ a b rest, text = 'T' :: 'R' :: a :: b :: rest ∧ Accepted a b rest

section Numbers

variable {u v x x' : List Char} {c d e : Char}

theorem value_append (u v : List Char) :
    value (u ++ v) = value v+10^(v.flatMap numericOf).length*value u := by
  rw [value, value, value, BigInt, BigInt, BigInt, List.flatMap_append, List.reverse_append,
    List.map_append, Nat.ofDigits_append, List.length_map, List.length_reverse]

/-- Equal remainders of two numbers that differ in one block come from equal
remainders of the blocks. -/
theorem modEq_of_block (u v : List Char) (hlength : (x.flatMap numericOf).length = (x'.flatMap numericOf).length)
    (h : value (u ++ x ++ v)%97 = value (u ++ x' ++ v)%97) : value x%97 = value x'%97 := by
  rw [value_append (u ++ x), value_append (u ++ x'), value_append u, value_append u,
    hlength] at h
  have hshift := Nat.ModEq.add_left_cancel' (value v) (show _ ≡ _ [MOD 97] from h)
  have hcoprime : Nat.gcd 97 (10^(v.flatMap numericOf).length) = 1 :=
    Nat.Coprime.pow_right _ (by decide)
  exact (Nat.ModEq.cancel_left_of_coprime hcoprime hshift).add_right_cancel' _

theorem isDigit_iff : c.isDigit = true ↔ 48 ≤ c.toNat ∧ c.toNat ≤ 57 := by
  simp [Char.isDigit, UInt32.le_iff_toNat_le, ← Char.toNat_val]

theorem isUpper_iff : c.isUpper = true ↔ 65 ≤ c.toNat ∧ c.toNat ≤ 90 := by
  have hbounds : c.isUpper = decide ('A'.val ≤ c.val ∧ c.val ≤ 'Z'.val) := rfl
  simp [hbounds, UInt32.le_iff_toNat_le, ← Char.toNat_val]

/-- Digits are determined by their values, and these by the remainder. -/
theorem digit_injective (hd : d.isDigit = true) (he : e.isDigit = true)
    (h : digit d%97 = digit e%97) : d = e := by
  rw [isDigit_iff] at hd he
  unfold digit at h
  exact Char.toNat_inj.mp (by omega)

theorem numericOf_digit (h : c.isDigit = true) : numericOf c = [c] := by
  rw [isDigit_iff] at h
  have hupper : ¬ c.isUpper = true := by
    rw [isUpper_iff]
    omega
  rw [numericOf, if_neg hupper]

theorem value_digit (h : c.isDigit = true) : value [c] = digit c := by
  rw [value, List.flatMap_cons, numericOf_digit h]
  simp [BigInt]

theorem value_pair (hd : d.isDigit = true) (he : e.isDigit = true) :
    value [d, e] = 10*digit d+digit e := by
  have hsplit := value_append [d] [e]
  rw [value_digit hd, value_digit he] at hsplit
  simp only [List.flatMap_singleton, numericOf_digit he, List.length_singleton] at hsplit
  rw [List.cons_append, List.nil_append] at hsplit
  omega

theorem digit_le (h : d.isDigit = true) : digit d ≤ 9 := by
  rw [isDigit_iff] at h
  unfold digit
  omega

/-- A character is written with one or two digits. -/
theorem length_numericOf : 1 ≤ (numericOf c).length ∧ (numericOf c).length ≤ 2 := by
  have hupper : ∀ n < 91, 65 ≤ n → (Nat.toDigits 10 (n-55)).length = 2 := by
    decide +kernel
  by_cases hc : c.isUpper = true
  · have hrange := isUpper_iff.mp hc
    have htwo := hupper c.toNat (by omega) hrange.1
    rw [numericOf, if_pos hc]
    omega
  · rw [numericOf, if_neg hc]
    exact ⟨le_refl 1, one_le_two⟩

theorem length_numeric (text : List Char) :
    text.length ≤ (text.flatMap numericOf).length ∧
      (text.flatMap numericOf).length ≤ 2*text.length := by
  induction text with
  | nil => simp
  | cons c text ih =>
    have hhead := length_numericOf (c := c)
    rw [List.flatMap_cons, List.length_append, List.length_cons]
    omega

/-- Two digits at the two ends of a number may not change places: 10 has no
power of these exponents that is 1. -/
theorem ends_apart : ∀ k < 49, 27 ≤ k → ∀ d < 10, ∀ e < 10,
    (d+10^k*e)%97 = (e+10^k*d)%97 → d = e := by
  decide +kernel

/-- What a character that is neither digit nor white space may become in an
accepted text. -/
def words : List (List Char) :=
  (List.range 26).map (fun i => [Char.ofNat (65+i)]) ++ specialCasing.map Prod.snd

/-- Words of one length have different remainders. -/
theorem words_apart : ∀ w ∈ words, ∀ w' ∈ words, w.length = w'.length →
    value w%97 = value w'%97 → w = w' := by
  decide +kernel

theorem words_spelled : ∀ w ∈ words, (w.flatMap numericOf).length = 2*w.length ∧
    w.filter (fun c => !isSpace c) = w ∧ w ≠ [] ∧ w.all Char.isUpper = true := by
  decide +kernel

/-- Only the letters themselves begin with the country code's letters. -/
theorem words_country : ∀ w ∈ words, (w.head? = some 'T' → w = ['T']) ∧
    (w.head? = some 'R' → w = ['R']) := by
  decide +kernel

end Numbers

section Characters

variable {t : CaseTable} {c : Char}

/-- A sign that can stand for a letter: neither digit nor white space. -/
def isLetterSign (c : Char) : Bool := !c.isDigit && !isSpace c

theorem ascii_cases : ∀ n < 128, ((Char.ofNat n).isDigit = true →
      [(Char.ofNat n).toUpper].filter (fun c => !isSpace c) = [Char.ofNat n]) ∧
    (isSpace (Char.ofNat n) = true →
      [(Char.ofNat n).toUpper].filter (fun c => !isSpace c) = []) ∧
    (isLetterSign (Char.ofNat n) = true → isAlnum (Char.ofNat n).toUpper = false ∧
      isSpace (Char.ofNat n).toUpper = false ∨ [(Char.ofNat n).toUpper] ∈ words) := by
  decide +kernel

theorem special_cases : ∀ p ∈ specialCasing, isSpace p.1 = false ∧ p.2 ∈ words := by
  decide +kernel

theorem mem_specialCasing {w : List Char} (h : specialCasing.lookup c = some w) :
    (c, w) ∈ specialCasing := by
  obtain ⟨l₁, l₂, heq, _⟩ := List.lookup_eq_some_iff.mp h
  rw [heq]
  exact List.mem_append_right l₁ List.mem_cons_self

theorem normalize_append (u v : List Char) :
    normalize t (u ++ v) = normalize t u ++ normalize t v := by
  rw [normalize, toUpperCase, List.flatMap_append, List.filter_append]
  rfl

theorem normalize_cons (text : List Char) :
    normalize t (c :: text) = normalize t [c] ++ normalize t text :=
  normalize_append [c] text

theorem normalize_singleton :
    normalize t [c] = (upperCase t c).filter (fun c => !isSpace c) := by
  rw [normalize, toUpperCase, List.flatMap_singleton]

/-- Digits are kept as they are. -/
theorem normalize_digit (h : c.isDigit = true) : normalize t [c] = [c] := by
  have hrange := isDigit_iff.mp h
  have hascii := (ascii_cases c.toNat (by omega)).1
  rw [Char.ofNat_toNat] at hascii
  rw [normalize_singleton, upperCase, if_pos (by omega), hascii h]

/-- White space is dropped. -/
theorem normalize_space (h : isSpace c = true) : normalize t [c] = [] := by
  rw [normalize_singleton, upperCase]
  by_cases hlow : c.toNat < 128
  · have hascii := (ascii_cases c.toNat hlow).2.1
    rw [Char.ofNat_toNat] at hascii
    rw [if_pos hlow, hascii h]
  · rw [if_neg hlow]
    cases hlookup : specialCasing.lookup c with
    | some w =>
      have hfree := (special_cases (c, w) (mem_specialCasing hlookup)).1
      rw [h] at hfree
      cases hfree
    | none => simp [h]

theorem normalize_spaces {text : List Char} (h : ∀ c ∈ text, isSpace c = true) :
    normalize t text = [] := by
  induction text with
  | nil => rfl
  | cons c text ih =>
    rw [normalize_cons, normalize_space (h c List.mem_cons_self),
      ih fun x hx => h x (List.mem_cons_of_mem c hx), List.append_nil]

/-- The upper case of a sign that stands for a letter is one of the words, or
it leaves a character that the format does not allow. -/
theorem upperCase_letterSign (h : isLetterSign c = true) :
    upperCase t c ∈ words ∨ ∃ x ∈ normalize t [c], isAlnum x = false := by
  have hspace : isSpace c = false := by
    simp only [isLetterSign, Bool.and_eq_true, Bool.not_eq_true'] at h
    exact h.2
  rw [normalize_singleton, upperCase]
  by_cases hlow : c.toNat < 128
  · have hascii := (ascii_cases c.toNat hlow).2.2
    rw [Char.ofNat_toNat] at hascii
    rw [if_pos hlow]
    cases hascii h with
    | inl hforeign => exact Or.inr ⟨c.toUpper, by simp [hforeign.2], hforeign.1⟩
    | inr hword => exact Or.inl hword
  · rw [if_neg hlow]
    cases hlookup : specialCasing.lookup c with
    | some w => exact Or.inl (special_cases (c, w) (mem_specialCasing hlookup)).2
    | none =>
      obtain ⟨x, hx, halnum, hkept⟩ := t.foreign c (by omega) hlookup hspace
      exact Or.inr ⟨x, by simp [hspace, hx, hkept], halnum⟩

/-- The normalized text of an accepted input. -/
theorem accepted_of_valid {iban : List Char} (h : isValidIban t (some iban) = true) :
    AcceptedText (normalize t iban) := by
  cases iban with
  | nil => cases h
  | cons c text =>
    rw [isValidIban, Bool.and_eq_true, isValidIbanFormat, isValidIbanChecksum] at h
    obtain ⟨hformat, hchecksum⟩ := h
    unfold IBAN_FORMAT at hformat
    split at hformat
    case h_2 => cases hformat
    case h_1 a b rest heq =>
      simp only [Bool.and_eq_true, decide_eq_true_eq, List.all_eq_true] at hformat
      simp only [heq] at hchecksum
      refine ⟨a, b, rest, heq, hformat.1.1, hformat.1.2, hformat.2, ?_⟩
      split at hchecksum
      case isFalse => cases hchecksum
      case isTrue => exact of_decide_eq_true hchecksum

end Characters

section Exchange

variable {u v spaces : List Char} {a b d e y : Char} {rest tail : List Char}

/-- Where a character of an accepted text stands: in the country code, in the
check digits or in the account part. -/
theorem place_cases (h : u ++ y :: tail = 'T' :: 'R' :: a :: b :: rest) :
    (u = [] ∧ y = 'T') ∨ (u = ['T'] ∧ y = 'R') ∨ (u = ['T', 'R'] ∧ y = a ∧ tail = b :: rest) ∨
      (u = ['T', 'R', a] ∧ y = b ∧ tail = rest) ∨
        ∃ u', u = 'T' :: 'R' :: a :: b :: u' ∧ rest = u' ++ y :: tail := by
  cases u with
  | nil =>
    simp only [List.nil_append, List.cons.injEq] at h
    exact Or.inl ⟨rfl, h.1⟩
  | cons u₀ u =>
  cases u with
  | nil =>
    simp only [List.nil_append, List.cons_append, List.cons.injEq] at h
    exact Or.inr (Or.inl ⟨by rw [h.1], h.2.1⟩)
  | cons u₁ u =>
  cases u with
  | nil =>
    simp only [List.nil_append, List.cons_append, List.cons.injEq] at h
    exact Or.inr (Or.inr (Or.inl ⟨by rw [h.1, h.2.1], h.2.2.1, h.2.2.2⟩))
  | cons u₂ u =>
  cases u with
  | nil =>
    simp only [List.nil_append, List.cons_append, List.cons.injEq] at h
    exact Or.inr (Or.inr (Or.inr (Or.inl ⟨by rw [h.1, h.2.1, h.2.2.1], h.2.2.2.1, h.2.2.2.2⟩)))
  | cons u₃ u =>
    simp only [List.cons_append, List.cons.injEq] at h
    exact Or.inr (Or.inr (Or.inr (Or.inr ⟨u, by rw [h.1, h.2.1, h.2.2.1, h.2.2.2.1],
      h.2.2.2.2.symm⟩)))

/-- Two accepted texts that differ in one digit are equal. -/
theorem digit_of_accepted (hd : d.isDigit = true) (he : e.isDigit = true)
    (h : AcceptedText (u ++ d :: v)) (h' : AcceptedText (u ++ e :: v)) : d = e := by
  obtain ⟨a, b, rest, heq, hacc⟩ := h
  obtain ⟨a', b', rest', heq', hacc'⟩ := h'
  have hsame (x : List Char) (y : List Char)
      (hxy : value (x ++ [d] ++ y)%97 = value (x ++ [e] ++ y)%97) : d = e := by
    have hblock := modEq_of_block x y (by simp [numericOf_digit hd, numericOf_digit he]) hxy
    rw [value_digit hd, value_digit he] at hblock
    exact digit_injective hd he hblock
  have hsum := hacc.remainder.trans hacc'.remainder.symm
  obtain ⟨_, hT⟩ | ⟨_, hR⟩ | ⟨hu, ha, hv⟩ | ⟨hu, hb, hv⟩ | ⟨u', hu, hrest⟩ := place_cases heq
  · rw [hT] at hd
    cases hd
  · rw [hR] at hd
    cases hd
  · simp only [hu, hv, List.cons_append, List.nil_append, List.cons.injEq, true_and] at heq'
    rw [← heq'.1, ← heq'.2.1, ← heq'.2.2, ← ha] at hsum
    exact hsame (rest ++ ['T', 'R']) [b] (by simpa using hsum)
  · simp only [hu, hv, List.cons_append, List.nil_append, List.cons.injEq, true_and] at heq'
    rw [← heq'.1, ← heq'.2.1, ← heq'.2.2, ← hb] at hsum
    exact hsame (rest ++ ['T', 'R', a]) [] (by simpa using hsum)
  · simp only [hu, List.cons_append, List.cons.injEq, true_and] at heq'
    rw [← heq'.1, ← heq'.2.1, ← heq'.2.2, hrest] at hsum
    exact hsame u' (v ++ ['T', 'R', a, b]) (by simpa using hsum)

/-- Two accepted texts that differ in one word are equal. -/
theorem word_of_accepted {w w' : List Char} (hw : w ∈ words) (hw' : w' ∈ words)
    (h : AcceptedText (u ++ w ++ v)) (h' : AcceptedText (u ++ w' ++ v)) : w = w' := by
  obtain ⟨a, b, rest, heq, hacc⟩ := h
  obtain ⟨a', b', rest', heq', hacc'⟩ := h'
  obtain ⟨hdigits, _, hne, hupper⟩ := words_spelled w hw
  obtain ⟨hdigits', _, hne', hupper'⟩ := words_spelled w' hw'
  have hlength : w.length = w'.length := by
    have hl := congrArg List.length heq
    have hl' := congrArg List.length heq'
    simp only [List.length_append, List.length_cons, hacc.length, hacc'.length] at hl hl'
    omega
  cases w with
  | nil => exact absurd rfl hne
  | cons y ys =>
  cases w' with
  | nil => exact absurd rfl hne'
  | cons y' ys' =>
    have hletter : ¬ y.isDigit = true := by
      simp only [List.all_cons, Bool.and_eq_true, isUpper_iff] at hupper
      rw [isDigit_iff]
      omega
    have hsum := hacc.remainder.trans hacc'.remainder.symm
    rw [List.append_assoc, List.cons_append] at heq heq'
    obtain ⟨hu, hT⟩ | ⟨hu, hR⟩ | ⟨_, ha, _⟩ | ⟨_, hb, _⟩ | ⟨u', hu, hrest⟩ := place_cases heq
    · simp only [hu, List.nil_append, List.cons.injEq] at heq'
      rw [(words_country _ hw).1 (by rw [hT]; rfl), (words_country _ hw').1 (by rw [heq'.1]; rfl)]
    · simp only [hu, List.nil_append, List.cons_append, List.cons.injEq] at heq'
      rw [(words_country _ hw).2 (by rw [hR]; rfl),
        (words_country _ hw').2 (by rw [heq'.2.1]; rfl)]
    · rw [ha] at hletter
      exact absurd hacc.check.1 hletter
    · rw [hb] at hletter
      exact absurd hacc.check.2 hletter
    · simp only [hu, List.cons_append, List.cons.injEq, true_and] at heq'
      rw [← heq'.1, ← heq'.2.1, ← heq'.2.2, hrest] at hsum
      have hblock := modEq_of_block u' (v ++ ['T', 'R', a, b])
        (hdigits.trans ((congrArg (2*·) hlength).trans hdigits'.symm)) (by simpa using hsum)
      exact words_apart _ hw _ hw' hlength hblock

/-- The value of a text between two digits: the later one ends the number, the
earlier one begins it. -/
theorem value_ends {a x y : Char} (ha : a.isDigit = true) (hx : x.isDigit = true)
    (hy : y.isDigit = true) : value (y :: v ++ ['T', 'R', a, x]) =
      digit x+10*value (v ++ ['T', 'R', a])+10^((v.flatMap numericOf).length+6)*digit y := by
  have hlast := value_append (y :: (v ++ ['T', 'R', a])) [x]
  have hfirst := value_append [y] (v ++ ['T', 'R', a])
  have hT : numericOf 'T' = ['2', '9'] ∧ numericOf 'R' = ['2', '7'] := by decide
  simp only [List.cons_append, List.nil_append, List.append_assoc, List.flatMap_append,
    List.flatMap_cons, List.flatMap_nil, List.length_append, List.length_cons, List.length_nil,
    hT.1, hT.2, numericOf_digit ha, numericOf_digit hx] at hlast hfirst
  rw [value_digit hx] at hlast
  rw [value_digit hy] at hfirst
  rw [List.cons_append, hlast, hfirst, pow_succ 10 ((v.flatMap numericOf).length+5)]
  ring

/-- Two accepted texts that differ in the order of two adjacent digits are
equal, also where the first is the last check digit. -/
theorem swap_of_accepted (hd : d.isDigit = true) (he : e.isDigit = true)
    (h : AcceptedText (u ++ d :: e :: v)) (h' : AcceptedText (u ++ e :: d :: v)) : d = e := by
  obtain ⟨a, b, rest, heq, hacc⟩ := h
  obtain ⟨a', b', rest', heq', hacc'⟩ := h'
  have hd9 := digit_le hd
  have he9 := digit_le he
  have hsame (x : List Char) (y : List Char)
      (hxy : value (x ++ [d, e] ++ y)%97 = value (x ++ [e, d] ++ y)%97) : d = e := by
    have hblock := modEq_of_block x y (by simp [numericOf_digit hd, numericOf_digit he]) hxy
    rw [value_pair hd he, value_pair he hd] at hblock
    exact digit_injective hd he (by omega)
  have hsum := hacc.remainder.trans hacc'.remainder.symm
  obtain ⟨_, hT⟩ | ⟨_, hR⟩ | ⟨hu, ha, hv⟩ | ⟨hu, hb, hv⟩ | ⟨u', hu, hrest⟩ := place_cases heq
  · rw [hT] at hd
    cases hd
  · rw [hR] at hd
    cases hd
  · rw [List.cons.injEq] at hv
    simp only [hu, List.cons_append, List.nil_append, List.cons.injEq, true_and] at heq'
    rw [← heq'.1, ← heq'.2.1, ← heq'.2.2, ← ha, ← hv.1, ← hv.2] at hsum
    exact hsame (v ++ ['T', 'R']) [] (by simpa using hsum)
  · simp only [hu, List.cons_append, List.nil_append, List.cons.injEq, true_and] at heq'
    rw [← heq'.1, ← heq'.2.1, ← heq'.2.2, ← hb, ← hv] at hsum
    have hlength := hacc.length
    have hbounds := length_numeric v
    rw [← hv, List.length_cons] at hlength
    rw [value_ends hacc.check.1 hd he, value_ends hacc.check.1 he hd] at hsum
    have hswap : (digit d+10^((v.flatMap numericOf).length+6)*digit e)%97 =
        (digit e+10^((v.flatMap numericOf).length+6)*digit d)%97 := by
      omega
    have heq := ends_apart _ (by omega) (by omega) (digit d) (by omega) (digit e) (by omega) hswap
    exact digit_injective hd he (by rw [heq])
  · simp only [hu, List.cons_append, List.cons.injEq, true_and] at heq'
    rw [← heq'.1, ← heq'.2.1, ← heq'.2.2, hrest] at hsum
    exact hsame u' (v ++ ['T', 'R', a, b]) (by simpa using hsum)

theorem alnum_of_accepted {text : List Char} (h : AcceptedText text) :
    ∀ c ∈ text, isAlnum c = true := by
  obtain ⟨a, b, rest, heq, hacc⟩ := h
  intro c hc
  rw [heq] at hc
  simp only [List.mem_cons] at hc
  obtain hT | hR | ha | hb | hrest := hc
  · rw [hT]
    decide
  · rw [hR]
    decide
  · rw [ha, isAlnum, hacc.check.1, Bool.true_or]
  · rw [hb, isAlnum, hacc.check.2, Bool.true_or]
  · exact hacc.alnum c hrest

end Exchange

section Errors

variable {t : CaseTable} {before after spaces : List Char} {c d e : Char}

theorem accepted_split {block : List Char}
    (h : isValidIban t (some (before ++ block ++ after)) = true) :
    AcceptedText (normalize t before ++ normalize t block ++ normalize t after) := by
  have hacc := accepted_of_valid h
  rw [normalize_append, normalize_append] at hacc
  exact hacc

/-- In an accepted text a sign for a letter becomes its upper case, one of the words. -/
theorem word_of_valid (hc : isLetterSign c = true)
    (h : isValidIban t (some (before ++ [c] ++ after)) = true) :
    upperCase t c ∈ words ∧ normalize t [c] = upperCase t c := by
  have hword : upperCase t c ∈ words := by
    cases upperCase_letterSign (t := t) hc with
    | inl hword => exact hword
    | inr hforeign =>
      obtain ⟨x, hx, hbad⟩ := hforeign
      have halnum := alnum_of_accepted (accepted_split h) x
        (List.mem_append_left _ (List.mem_append_right _ hx))
      rw [hbad] at halnum
      cases halnum
  rw [normalize_singleton]
  exact ⟨hword, (words_spelled _ hword).2.1⟩

/-- A wrong digit, a letter with another upper case, and two adjacent digits in
the wrong order are caught wherever they stand. -/
theorem iban_error_rejected (t : CaseTable) (before after : List Char) :
    (∀ d e, d.isDigit = true → e.isDigit = true → d ≠ e →
      isValidIban t (some (before ++ [d] ++ after)) = true →
        isValidIban t (some (before ++ [e] ++ after)) = false) ∧
    (∀ c c', isLetterSign c = true → isLetterSign c' = true → upperCase t c ≠ upperCase t c' →
      isValidIban t (some (before ++ [c] ++ after)) = true →
        isValidIban t (some (before ++ [c'] ++ after)) = false) ∧
    (∀ d e spaces, d.isDigit = true → e.isDigit = true → d ≠ e →
      (∀ c ∈ spaces, isSpace c = true) →
      isValidIban t (some (before ++ (d :: spaces ++ [e]) ++ after)) = true →
        isValidIban t (some (before ++ (e :: spaces ++ [d]) ++ after)) = false) := by
  refine ⟨?_, ?_, ?_⟩
  · intro d e hd he hne hvalid
    rw [Bool.eq_false_iff]
    intro hvalid'
    have hacc := accepted_split hvalid
    have hacc' := accepted_split hvalid'
    rw [normalize_digit hd, List.append_assoc] at hacc
    rw [normalize_digit he, List.append_assoc] at hacc'
    exact hne (digit_of_accepted hd he hacc hacc')
  · intro c c' hc hc' hne hvalid
    rw [Bool.eq_false_iff]
    intro hvalid'
    obtain ⟨hword, heq⟩ := word_of_valid hc hvalid
    obtain ⟨hword', heq'⟩ := word_of_valid hc' hvalid'
    have hacc := accepted_split hvalid
    have hacc' := accepted_split hvalid'
    rw [heq] at hacc
    rw [heq'] at hacc'
    exact hne (word_of_accepted hword hword' hacc hacc')
  · intro d e spaces hd he hne hspaces hvalid
    rw [Bool.eq_false_iff]
    intro hvalid'
    have hpair (x y : Char) (hx : x.isDigit = true) (hy : y.isDigit = true) :
        normalize t (x :: spaces ++ [y]) = [x, y] := by
      rw [normalize_append, normalize_cons, normalize_digit hx, normalize_spaces hspaces,
        normalize_digit hy]
      rfl
    have hacc := accepted_split hvalid
    have hacc' := accepted_split hvalid'
    rw [hpair d e hd he, List.append_assoc] at hacc
    rw [hpair e d he hd, List.append_assoc] at hacc'
    exact hne (swap_of_accepted hd he hacc hacc')

theorem foreign_self (c : Char) (h : 128 ≤ c.toNat) (_ : specialCasing.lookup c = none)
    (hspace : isSpace c = false) : ∃ x ∈ [c], isAlnum x = false ∧ isSpace x = false := by
  refine ⟨c, List.mem_singleton_self c, ?_, hspace⟩
  rw [Bool.eq_false_iff, isAlnum, ne_eq, Bool.or_eq_true, isDigit_iff, isUpper_iff]
  omega

/-- Every other character is its own upper case. -/
def plainTable : CaseTable := ⟨fun c => [c], foreign_self⟩

/-- A valid number with a letter, up to the account part. -/
def sampleCheck : List Char := ['T', 'R', '7', '9']

def sampleAccount : List Char :=
  ['0', '0', '6', '1', '0', '0', '5', '1', '9', '7', '8', '6', '4', '5', '7', '8', '4', '1', '3',
    '2', '6']

theorem iban_error_rejected_sample :
    isValidIban plainTable (some (['T', 'R', '7'] ++ ['8'] ++ 'I' :: sampleAccount)) = false ∧
      isValidIban plainTable (some (sampleCheck ++ ['j'] ++ sampleAccount)) = false ∧
        isValidIban plainTable (some (['T', 'R'] ++ (['9', ' ', '7']) ++ 'I' :: sampleAccount)) =
          false :=
  ⟨(iban_error_rejected plainTable ['T', 'R', '7'] ('I' :: sampleAccount)).1 '9' '8' (by decide)
      (by decide) (by decide) (by decide +kernel),
    (iban_error_rejected plainTable sampleCheck sampleAccount).2.1 'i' 'j' (by decide) (by decide)
      (by decide) (by decide +kernel),
    (iban_error_rejected plainTable ['T', 'R'] ('I' :: sampleAccount)).2.2 '7' '9' [' '] (by decide)
      (by decide) (by decide) (fun c hc => List.mem_singleton.mp hc ▸ rfl) (by decide +kernel)⟩

/-- The dotted and the dotless letter have the same upper case, so that one
typed for the other is accepted. -/
theorem iban_error_counterexample :
    'i' ≠ 'ı' ∧ isValidIban plainTable (some (sampleCheck ++ ['i'] ++ sampleAccount)) = true ∧
      isValidIban plainTable (some (sampleCheck ++ ['ı'] ++ sampleAccount)) = true := by
  decide +kernel

end Errors

end Kurtar.IbanChecks

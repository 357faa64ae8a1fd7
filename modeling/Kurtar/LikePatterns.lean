import Mathlib.Data.List.Basic

/-!
# LIKE patterns with an escape character

A pattern is read as a list of tokens: any sequence, any one character, or a
given character. The escape character takes the next character literally and
may not come last. A text whose special characters are all escaped stands for
itself, and between two sequence wildcards it is searched for as a substring.
-/

namespace Kurtar.LikePatterns

/-- The special characters of a pattern. -/
structure LikeSyntax (α : Type) where
  sequence : α
  single : α
  escape : α
  escape_ne : escape ≠ sequence ∧ escape ≠ single

inductive Token (α : Type) where
  | sequence
  | single
  | literal (c : α)
deriving DecidableEq

section Reading

variable {α : Type} [DecidableEq α] (w : LikeSyntax α)

/-- The tokens of what is left of a pattern, with an escape character before
it or not; none when the escape character comes last. -/
def tokensFrom : Bool → List α → Option (List (Token α))
  | false, [] => some []
  | true, [] => none
  | true, c :: rest => (tokensFrom false rest).map (.literal c :: ·)
  | false, c :: rest =>
    if c = w.escape then tokensFrom true rest
    else if c = w.sequence then (tokensFrom false rest).map (.sequence :: ·)
    else if c = w.single then (tokensFrom false rest).map (.single :: ·)
    else (tokensFrom false rest).map (.literal c :: ·)

/-- The tokens of a pattern, if it is well formed. -/
def tokens (pattern : List α) : Option (List (Token α)) := tokensFrom w false pattern

/-- A character, escaped if it is special. -/
def escaped (c : α) : List α :=
  if c = w.escape ∨ c = w.sequence ∨ c = w.single then [w.escape, c] else [c]

variable {w}

theorem tokens_sequence (rest : List α) :
    tokens w (w.sequence :: rest) = (tokens w rest).map (.sequence :: ·) := by
  rw [tokens, tokensFrom, if_neg (Ne.symm w.escape_ne.1), if_pos rfl, tokens]

/-- An escaped character is read as itself. -/
theorem tokens_escaped_append (c : α) (rest : List α) :
    tokens w (escaped w c ++ rest) = (tokens w rest).map (.literal c :: ·) := by
  by_cases hc : c = w.escape ∨ c = w.sequence ∨ c = w.single
  · rw [escaped, if_pos hc, List.cons_append, List.cons_append, List.nil_append, tokens, tokensFrom,
      if_pos rfl, tokensFrom, tokens]
  · rw [escaped, if_neg hc, List.cons_append, List.nil_append]
    simp only [not_or] at hc
    rw [tokens, tokensFrom, if_neg hc.1, if_neg hc.2.1, if_neg hc.2.2, tokens]

/-- An escaped text is read as its characters, none of them special. -/
theorem tokens_flatMap_escaped_append (q rest : List α) :
    tokens w (q.flatMap (escaped w) ++ rest) = (tokens w rest).map (q.map .literal ++ ·) := by
  induction q with
  | nil => simp
  | cons c q ih =>
    rw [List.flatMap_cons, List.append_assoc, tokens_escaped_append, ih, Option.map_map]
    rfl

/-- The pattern that searches for a text. -/
theorem tokens_search (q : List α) :
    tokens w (w.sequence :: (q.flatMap (escaped w) ++ [w.sequence])) =
      some (.sequence :: (q.map .literal ++ [.sequence])) := by
  rw [tokens_sequence, tokens_flatMap_escaped_append, tokens_sequence]
  rfl

end Reading

section Matching

variable {α β : Type} [DecidableEq β] (fold : α → β)

/-- Some end of the text satisfies the test. -/
def someSuffix (test : List α → Bool) : List α → Bool
  | [] => test []
  | x :: rest => test (x :: rest) || someSuffix test rest

/-- The tokens match the text; characters are compared by their folded form. -/
def tokensMatch : List (Token α) → List α → Bool
  | [], text => text.isEmpty
  | .sequence :: rest, text => someSuffix (tokensMatch rest) text
  | .single :: rest, text => match text with
    | [] => false
    | _ :: text' => tokensMatch rest text'
  | .literal c :: rest, text => match text with
    | [] => false
    | x :: text' => decide (fold x = fold c) && tokensMatch rest text'

/-- `q` is a substring of the text, up to folding each character. -/
def OccursIn (q text : List α) : Prop :=
  ∃ before found after, text = before ++ found ++ after ∧ found.map fold = q.map fold

variable {fold} {test : List α → Bool} {text q : List α}

theorem someSuffix_iff :
    someSuffix test text = true ↔ ∃ before after, text = before ++ after ∧ test after = true := by
  induction text with
  | nil =>
    constructor
    · intro h
      exact ⟨[], [], rfl, h⟩
    · intro ⟨before, after, heq, h⟩
      rw [(List.append_eq_nil_iff.mp heq.symm).2] at h
      exact h
  | cons x rest ih =>
    rw [someSuffix, Bool.or_eq_true, ih]
    constructor
    · intro h
      cases h with
      | inl h => exact ⟨[], x :: rest, rfl, h⟩
      | inr h =>
        obtain ⟨before, after, heq, h⟩ := h
        exact ⟨x :: before, after, by rw [heq, List.cons_append], h⟩
    · intro ⟨before, after, heq, h⟩
      cases before with
      | nil =>
        rw [List.nil_append] at heq
        rw [heq]
        exact Or.inl h
      | cons y before =>
        rw [List.cons_append, List.cons.injEq] at heq
        exact Or.inr ⟨before, after, heq.2, h⟩

/-- The sequence wildcard alone matches everything. -/
theorem tokensMatch_sequence : tokensMatch fold [.sequence] text = true :=
  someSuffix_iff.mpr ⟨text, [], (List.append_nil text).symm, rfl⟩

/-- Literal tokens match a text that folds to the same, and the rest the rest. -/
theorem tokensMatch_literals_append (rest : List (Token α)) :
    tokensMatch fold (q.map .literal ++ rest) text = true ↔
      ∃ found after, text = found ++ after ∧ found.map fold = q.map fold ∧
        tokensMatch fold rest after = true := by
  induction q generalizing text with
  | nil =>
    constructor
    · intro h
      exact ⟨[], text, rfl, rfl, h⟩
    · intro ⟨found, after, heq, hfold, h⟩
      rw [List.map_nil, List.map_eq_nil_iff] at hfold
      rw [heq, hfold]
      exact h
  | cons c q ih =>
    rw [List.map_cons, List.cons_append]
    cases text with
    | nil =>
      constructor
      · intro h
        simp [tokensMatch] at h
      · intro ⟨found, after, heq, hfold, _⟩
        rw [(List.append_eq_nil_iff.mp heq.symm).1] at hfold
        simp at hfold
    | cons x text =>
      rw [tokensMatch, Bool.and_eq_true, decide_eq_true_iff, ih]
      constructor
      · intro ⟨hx, found, after, heq, hfold, h⟩
        refine ⟨x :: found, after, by rw [heq, List.cons_append], ?_, h⟩
        rw [List.map_cons, List.map_cons, hx, hfold]
      · intro ⟨found, after, heq, hfold, h⟩
        cases found with
        | nil => simp at hfold
        | cons y found =>
          rw [List.cons_append, List.cons.injEq] at heq
          rw [List.map_cons, List.map_cons, List.cons.injEq] at hfold
          rw [heq.1]
          exact ⟨hfold.1, found, after, heq.2, hfold.2, h⟩

/-- Between two sequence wildcards literal tokens search for a substring. -/
theorem tokensMatch_search :
    tokensMatch fold (.sequence :: (q.map .literal ++ [.sequence])) text = true ↔
      OccursIn fold q text := by
  rw [tokensMatch, someSuffix_iff]
  constructor
  · intro ⟨before, rest, heq, h⟩
    obtain ⟨found, after, hrest, hfold, _⟩ := (tokensMatch_literals_append _).mp h
    exact ⟨before, found, after, by rw [heq, hrest, List.append_assoc], hfold⟩
  · intro ⟨before, found, after, heq, hfold⟩
    rw [List.append_assoc] at heq
    exact ⟨before, found ++ after, heq, (tokensMatch_literals_append _).mpr
      ⟨found, after, rfl, hfold, tokensMatch_sequence⟩⟩

end Matching

end Kurtar.LikePatterns

import Mathlib.Data.List.Basic

/-!
# Replacing a character

Replacing every occurrence of a one-character text by another text acts on
the characters one by one.
-/

namespace Kurtar.CharacterReplacement

open String.Slice.Pattern String.Slice.Pattern.Model

/-- What becomes of one character. -/
def substitute (c : Char) (replacement : String) (x : Char) : List Char :=
  if x = c then replacement.toList else [x]

/-- The text built from one step of the search for the occurrences. -/
def replaceStep (s : String.Slice) (replacement sofar : String) : SearchStep s → String
  | .matched .. => sofar ++ replacement
  | .rejected start stop => sofar ++ (s.slice! start stop).copy

theorem flatMap_substitute_of_notMem {c : Char} (replacement : String) {l : List Char}
    (h : c ∉ l) : l.flatMap (substitute c replacement) = l := by
  induction l with
  | nil => rfl
  | cons x xs ih =>
    simp only [List.mem_cons, not_or] at h
    rw [List.flatMap_cons, ih h.2, substitute, if_neg (Ne.symm h.1)]
    rfl

/-- Text that the search passes over holds no occurrence. -/
theorem notMem_of_rejected {s : String.Slice} {c : Char} {start stop : s.Pos}
    (hle : start ≤ stop)
    (h : ∀ pos, start ≤ pos → pos < stop → ¬ MatchesAt (String.singleton c) pos) :
    c ∉ (s.slice start stop hle).copy.toList := by
  intro hmem
  obtain ⟨u, v, huv⟩ := List.append_of_mem hmem
  have hcopy : (s.slice start stop hle).copy =
      String.ofList u ++ (String.singleton c ++ String.ofList v) := by
    apply String.toList_injective
    simp [huv]
  obtain ⟨before, after, hstart, hstop⟩ := String.Slice.copy_slice_eq_iff_splits.mp ⟨hle, hcopy⟩
  rw [String.append_assoc] at hstart
  have hpos := hstart.splits_rotateRight
  have hlow := (hstart.le_iff_exists_eq_append hpos).mpr ⟨String.ofList u, rfl, rfl⟩
  have hhigh := (hpos.lt_iff_exists_eq_append hstop).mpr
    ⟨String.singleton c ++ String.ofList v, by simp, by rw [String.append_assoc], rfl⟩
  have hmatch : MatchesAt (String.singleton c) hstart.rotateRight :=
    ForwardStringSearcher.matchesAt_iff_splits.mpr
      ⟨_, String.ofList v ++ after, hpos.of_eq rfl (String.append_assoc)⟩
  exact h _ hlow hhigh hmatch

/-- The steps of a search turn the text from a position on character by character. -/
theorem foldl_replaceStep {s : String.Slice} {c : Char} {pos : s.Pos} {steps : List (SearchStep s)}
    (replacement : String) (h : IsValidSearchFrom (String.singleton c) pos steps)
    (sofar : String) :
    (steps.foldl (replaceStep s replacement) sofar).toList =
      sofar.toList ++ (s.sliceFrom pos).copy.toList.flatMap (substitute c replacement) := by
  induction h generalizing sofar with
  | endPos => simp
  | matched hm hl ih =>
    obtain ⟨before, after, hstart, hstop⟩ := ForwardStringSearcher.isLongestMatchAt_iff_splits.mp hm
    rw [List.foldl_cons, ih, hstart.copy_sliceFrom_eq, hstop.copy_sliceFrom_eq]
    simp [replaceStep, substitute]
  | @mismatched steps start stop hlt hrej hl ih =>
    have hle : start ≤ stop := Std.le_of_lt hlt
    obtain ⟨before, after, hstart, hstop⟩ :=
      String.Slice.copy_slice_eq_iff_splits.mp ⟨hle, rfl⟩
    have hkept := flatMap_substitute_of_notMem replacement (notMem_of_rejected hle hrej)
    rw [List.foldl_cons, ih, hstart.copy_sliceFrom_eq, hstop.copy_sliceFrom_eq, String.toList_append,
      List.flatMap_append, hkept, replaceStep, ← String.Slice.slice_eq_slice!, String.toList_append,
      List.append_assoc]

/-- Replacement is the fold of these steps over the search. -/
theorem replace_eq_foldl (s : String) (c : Char) (replacement : String) :
    s.replace (String.singleton c) replacement =
      (ToForwardSearcher.toSearcher (String.singleton c) s.toSlice).toList.foldl
        (replaceStep s.toSlice replacement) "" := by
  rw [String.replace, String.Slice.replace, ← Std.Iter.foldl_toList]
  congr 1
  funext sofar x
  cases x with
  | matched start stop => simp [replaceStep, String.ToSlice.toSlice]
  | rejected start stop => rfl

/-- Replacement acts on each character. -/
theorem toList_replace_singleton (s : String) (c : Char) (replacement : String) :
    (s.replace (String.singleton c) replacement).toList =
      s.toList.flatMap (substitute c replacement) := by
  have hne : String.singleton c ≠ "" := by simp
  have hvalid := (ForwardStringSearcher.lawfulToForwardSearcherModel hne).isValidSearchFrom_toList
    s.toSlice
  have hfold := foldl_replaceStep replacement hvalid ""
  rw [replace_eq_foldl, hfold]
  simp

end Kurtar.CharacterReplacement

import Mathlib.Data.List.Basic
import Mathlib.Tactic.TypeStar

/-!
# Self-delimiting texts

A code is delimited when what it writes can be told from what follows it. A
code that reads back is; delimited codes can be written one after another and
repeated up to an end mark, and what was written is known from the text.
-/

namespace Kurtar.SelfDelimiting

variable {α β σ : Type*}

/-- The written value and the rest are known from the text, for every rest that may follow. -/
def Delimited (code : α → List σ) (follow : List σ → Prop) : Prop :=
  ∀ a b x y, follow x → follow y → code a ++ x = code b ++ y → a = b ∧ x = y

def anyRest (_ : List σ) : Prop := True

variable {code : α → List σ} {code' : β → List σ} {follow follow' : List σ → Prop}

theorem Delimited.mono (h : Delimited code follow) (himp : ∀ x, follow' x → follow x) :
    Delimited code follow' :=
  fun a b x y hx hy => h a b x y (himp x hx) (himp y hy)

/-- The same texts, for values that are known from those of another code. -/
theorem Delimited.comap (h : Delimited code follow) {f : β → α} (hf : Function.Injective f)
    (htext : ∀ b, code' b = code (f b)) : Delimited code' follow := by
  intro a b x y hx hy heq
  rw [htext, htext] at heq
  obtain ⟨hvalue, hrest⟩ := h (f a) (f b) x y hx hy heq
  exact ⟨hf hvalue, hrest⟩

/-- A code whose texts are read back with their rests. -/
theorem delimited_of_reader (read : List σ → Option (α × List σ))
    (h : ∀ a x, follow x → read (code a ++ x) = some (a, x)) : Delimited code follow := by
  intro a b x y hx hy heq
  have hread := h a x hx
  rw [heq, h b y hy] at hread
  cases hread
  exact ⟨rfl, rfl⟩

/-- An injective code with a mark before it. -/
theorem Delimited.after (h : Delimited code follow) (mark : List σ) :
    Delimited (fun a => mark ++ code a) follow := by
  intro a b x y hx hy heq
  rw [List.append_assoc, List.append_assoc, List.append_cancel_left_eq] at heq
  exact h a b x y hx hy heq

/-- One code after another. -/
theorem Delimited.pair (h : Delimited code follow) (h' : Delimited code' follow')
    (hfollow : ∀ b y, follow' y → follow (code' b ++ y)) :
    Delimited (fun p : α × β => code p.1 ++ code' p.2) follow' := by
  rintro ⟨a, b⟩ ⟨c, d⟩ x y hx hy heq
  simp only [List.append_assoc] at heq
  obtain ⟨rfl, hrest⟩ := h a c _ _ (hfollow b x hx) (hfollow d y hy) heq
  obtain ⟨rfl, rfl⟩ := h' b d x y hx hy hrest
  exact ⟨rfl, rfl⟩

/-- A value or a word that no value begins with. -/
theorem Delimited.option (h : Delimited code follow) (word : List σ)
    (hword : ∀ a x y, code a ++ x ≠ word ++ y) :
    Delimited (fun o : Option α => (o.map code).getD word) follow := by
  intro o p x y hx hy heq
  cases o with
  | none =>
    cases p with
    | none => exact ⟨rfl, List.append_cancel_left heq⟩
    | some b => exact absurd heq.symm (hword b y x)
  | some a =>
    cases p with
    | none => exact absurd heq (hword a x y)
    | some b =>
      obtain ⟨rfl, hrest⟩ := h a b x y hx hy heq
      exact ⟨rfl, hrest⟩

/-- Values one after another up to a mark that no value begins with. -/
theorem Delimited.many (h : Delimited code follow) (mark : List σ)
    (hmark : ∀ a x y, code a ++ x ≠ mark ++ y) (hend : ∀ y, follow (mark ++ y))
    (hnext : ∀ a y, follow (code a ++ y)) :
    Delimited (fun l : List α => l.flatMap code ++ mark) anyRest := by
  intro l m x y _ _ heq
  have hrest : ∀ (l : List α) x, follow (l.flatMap code ++ (mark ++ x)) := by
    intro l x
    cases l with
    | nil => exact hend x
    | cons a l =>
      rw [List.flatMap_cons, List.append_assoc]
      exact hnext a _
  rw [List.append_assoc, List.append_assoc] at heq
  induction l generalizing m with
  | nil =>
    cases m with
    | nil => exact ⟨rfl, List.append_cancel_left heq⟩
    | cons b m =>
      rw [List.flatMap_cons, List.append_assoc] at heq
      exact absurd heq.symm (hmark b _ x)
  | cons a l ih =>
    rw [List.flatMap_cons, List.append_assoc] at heq
    cases m with
    | nil => exact absurd heq (hmark a _ y)
    | cons b m =>
      rw [List.flatMap_cons, List.append_assoc] at heq
      obtain ⟨rfl, hmore⟩ := h a b _ _ (hrest l x) (hrest m y) heq
      obtain ⟨rfl, rfl⟩ := ih m hmore
      exact ⟨rfl, rfl⟩

/-- Values with a separator between them, up to an end mark. -/
theorem Delimited.separated (h : Delimited code follow) (separator mark : List σ)
    (hmark : ∀ x y, separator ++ x ≠ mark ++ y) (hfirst : ∀ a x y, code a ++ x ≠ mark ++ y)
    (hend : ∀ y, follow (mark ++ y)) (hnext : ∀ y, follow (separator ++ y)) :
    Delimited (fun l : List α => separator.intercalate (l.map code) ++ mark) anyRest := by
  have hmany : Delimited (fun l : List α => l.flatMap (fun a => separator ++ code a) ++ mark)
      anyRest := by
    refine (h.after separator).many mark (fun a x y heq => ?_) hend (fun a y => ?_)
    · rw [List.append_assoc] at heq
      exact hmark _ y heq
    · rw [List.append_assoc]
      exact hnext _
  have hcons : ∀ (a : α) l, separator.intercalate ((a :: l).map code) =
      code a ++ l.flatMap fun a => separator ++ code a := by
    intro a l
    induction l generalizing a with
    | nil => simp
    | cons b l ih =>
      rw [List.map_cons, List.map_cons, List.intercalate_cons_cons, ← List.map_cons, ih b,
        List.flatMap_cons, List.append_assoc, List.append_assoc]
  have hrest : ∀ (l : List α) x,
      follow (l.flatMap (fun a => separator ++ code a) ++ (mark ++ x)) := by
    intro l x
    cases l with
    | nil => exact hend x
    | cons a l =>
      rw [List.flatMap_cons, List.append_assoc, List.append_assoc]
      exact hnext _
  have hnil : separator.intercalate (([] : List α).map code) = [] := by
    rw [List.map_nil, List.intercalate_nil]
  intro l m x y _ _ heq
  simp only [List.append_assoc] at heq
  cases l with
  | nil =>
    cases m with
    | nil => exact ⟨rfl, List.append_cancel_left heq⟩
    | cons b m =>
      rw [hnil, hcons, List.append_assoc] at heq
      exact absurd heq.symm (hfirst b _ x)
  | cons a l =>
    cases m with
    | nil =>
      rw [hnil, hcons, List.append_assoc] at heq
      exact absurd heq (hfirst a _ y)
    | cons b m =>
      rw [hcons, hcons, List.append_assoc, List.append_assoc] at heq
      obtain ⟨rfl, hmore⟩ := h a b _ _ (hrest l x) (hrest m y) heq
      rw [← List.append_assoc, ← List.append_assoc] at hmore
      obtain ⟨rfl, rfl⟩ := hmany l m x y trivial trivial hmore
      exact ⟨rfl, rfl⟩

/-- The whole text gives the value. -/
theorem Delimited.injective (h : Delimited code follow) (hnil : follow []) :
    Function.Injective code := by
  intro a b heq
  exact (h a b [] [] hnil hnil (congrArg (· ++ []) heq)).1

end Kurtar.SelfDelimiting

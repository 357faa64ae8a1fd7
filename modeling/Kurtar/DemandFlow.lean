import Mathlib.Algebra.BigOperators.Group.Finset.Sigma
import Mathlib.Algebra.BigOperators.Group.Finset.Piecewise
import Mathlib.Algebra.Order.BigOperators.Group.Finset
import Mathlib.Algebra.Order.Group.Int
import Mathlib.Logic.Relation
import Mathlib.Tactic.Linarith

/-!
# Demand passed along claim chains

Nodes hold at most one claim each, of an amount on a source. Some nodes are
frozen: what they claimed is collected for good. A node is committed when a
frozen node lies below it on a chain of claims, since the collected amount
then rests on everything further up. A graph is honoured when every node
still exports what committed claimants hold on it. Honoured graphs collect no
more than the nodes' own demand, over chains of any length and even around
cycles; the other lemmas say when freezing a node, releasing nodes, or
rewriting the claim of one node keeps a graph honoured.
-/

namespace Kurtar.DemandFlow

open Relation

variable {ι : Type*}

/-- At most one claim for each node: its source and its amount. -/
structure ClaimGraph (ι : Type*) where
  /-- The node claimed from. -/
  source : ι → Option ι
  /-- The claimed amount. -/
  amount : ι → ℤ

namespace ClaimGraph

variable (g g' : ClaimGraph ι) (frozen frozen' : ι → Prop) (nodes : Finset ι)

/-- `c` holds a claim on `s`. -/
def ClaimsFrom (c s : ι) : Prop := g.source c = some s

/-- A frozen node, or one above a frozen node on a chain of claims. -/
def Committed (x : ι) : Prop := ∃ f, frozen f ∧ ReflTransGen g.ClaimsFrom f x

/-- Sum of all claims on a node. -/
def claimedFrom [DecidableEq ι] (s : ι) : ℤ := ∑ c ∈ nodes, if g.source c = some s then g.amount c else 0

open Classical in
/-- Sum of the committed claims on a node. -/
noncomputable def collectedFrom (s : ι) : ℤ :=
  ∑ c ∈ nodes, if g.source c = some s ∧ g.Committed frozen c then g.amount c else 0

/-- Every node still exports what committed claimants hold on it. -/
def Honoured (exported : ι → ℤ) : Prop := ∀ s, g.collectedFrom frozen nodes s ≤ exported s

variable {g g' frozen frozen' nodes} {exported exported' : ι → ℤ}

theorem Committed.of_frozen {x : ι} (h : frozen x) : g.Committed frozen x := ⟨x, h, .refl⟩

theorem Committed.up {c s : ι} (h : g.Committed frozen c) (hc : g.ClaimsFrom c s) :
    g.Committed frozen s := by
  obtain ⟨f, hf, hp⟩ := h
  exact ⟨f, hf, hp.tail hc⟩

theorem collectedFrom_le_claimedFrom [DecidableEq ι] (hpos : ∀ c, 0 ≤ g.amount c) (s : ι) :
    g.collectedFrom frozen nodes s ≤ g.claimedFrom nodes s := by
  classical
  apply Finset.sum_le_sum
  intro c _
  have hc := hpos c
  split_ifs with h1 h2 h2
  · exact le_rfl
  · exact absurd h1.1 h2
  · exact hc
  · exact le_rfl

/-- Comparison of collected amounts, claimant by claimant. -/
theorem collectedFrom_le {s : ι} (hpos : ∀ c, 0 ≤ g.amount c)
    (h : ∀ c ∈ nodes, g'.source c = some s → g'.Committed frozen' c →
      g.source c = some s ∧ g.Committed frozen c ∧ g'.amount c = g.amount c) :
    g'.collectedFrom frozen' nodes s ≤ g.collectedFrom frozen nodes s := by
  classical
  apply Finset.sum_le_sum
  intro c hc
  by_cases h' : g'.source c = some s ∧ g'.Committed frozen' c
  · obtain ⟨h1, h2, h3⟩ := h c hc h'.1 h'.2
    rw [if_pos h', if_pos ⟨h1, h2⟩, h3]
  · rw [if_neg h']
    have hn := hpos c
    split_ifs
    · exact hn
    · exact le_rfl

/-- Nodes without a claim do not count. -/
theorem collectedFrom_of_subset {nodes' : Finset ι} (hsub : nodes ⊆ nodes')
    (h : ∀ c ∈ nodes', c ∉ nodes → g.source c = none) (s : ι) :
    g.collectedFrom frozen nodes' s = g.collectedFrom frozen nodes s := by
  classical
  unfold collectedFrom
  symm
  apply Finset.sum_subset hsub
  intro c hc hn
  simp [h c hc hn]

/-- In an honoured graph a set of committed nodes that is closed under taking
sources absorbs at most the own demand of its nodes: what a node exports is
its own demand and what it still carries. -/
theorem absorbed_le_own (hh : g.Honoured frozen nodes exported) {own carried : ι → ℤ}
    (chain : Finset ι) (hsub : chain ⊆ nodes) (hcommitted : ∀ c ∈ chain, g.Committed frozen c)
    (hclosed : ∀ c ∈ chain, ∀ s, g.source c = some s → s ∈ chain)
    (hpos : ∀ c, 0 ≤ g.amount c) (hnone : ∀ c, g.source c = none → g.amount c = 0)
    (hexport : ∀ s ∈ chain, exported s ≤ own s+carried s) :
    ∑ c ∈ chain, (g.amount c-carried c) ≤ ∑ c ∈ chain, own c := by
  classical
  have houter : ∀ s ∈ chain,
      (∑ c ∈ chain, if g.source c = some s then g.amount c else 0) ≤ own s+carried s := by
    intro s hs
    have hle : (∑ c ∈ chain, if g.source c = some s then g.amount c else 0) ≤
        g.collectedFrom frozen nodes s := by
      have hchain : (∑ c ∈ chain, if g.source c = some s then g.amount c else 0) =
          ∑ c ∈ chain, if g.source c = some s ∧ g.Committed frozen c then g.amount c else 0 := by
        apply Finset.sum_congr rfl
        intro c hc
        simp [hcommitted c hc]
      rw [hchain]
      apply Finset.sum_le_sum_of_subset_of_nonneg hsub
      intro c _ _
      have hc := hpos c
      split_ifs
      · exact hc
      · exact le_rfl
    exact hle.trans ((hh s).trans (hexport s hs))
  have hinner : ∀ c ∈ chain,
      (∑ s ∈ chain, if g.source c = some s then g.amount c else 0) = g.amount c := by
    intro c hc
    cases hs : g.source c with
    | none => simp [hnone c hs]
    | some s₀ =>
      have hmem := hclosed c hc s₀ hs
      simp [Option.some.injEq, Finset.sum_ite_eq, hmem]
  have htotal : ∑ c ∈ chain, g.amount c ≤ ∑ s ∈ chain, (own s+carried s) := by
    calc
      ∑ c ∈ chain, g.amount c
          = ∑ c ∈ chain, ∑ s ∈ chain, if g.source c = some s then g.amount c else 0 :=
        Finset.sum_congr rfl fun c hc => (hinner c hc).symm
      _ = ∑ s ∈ chain, ∑ c ∈ chain, if g.source c = some s then g.amount c else 0 :=
        Finset.sum_comm
      _ ≤ ∑ s ∈ chain, (own s+carried s) := Finset.sum_le_sum houter
  rw [Finset.sum_sub_distrib]
  rw [Finset.sum_add_distrib] at htotal
  linarith

/-- Fewer frozen nodes and larger exports keep a graph honoured. -/
theorem Honoured.mono (hh : g.Honoured frozen nodes exported) (hpos : ∀ c, 0 ≤ g.amount c)
    (hfrozen : ∀ x, frozen' x → frozen x) (hexport : ∀ s, exported s ≤ exported' s) :
    g.Honoured frozen' nodes exported' := by
  intro s
  have hle : g.collectedFrom frozen' nodes s ≤ g.collectedFrom frozen nodes s := by
    apply collectedFrom_le hpos
    rintro c _ hs ⟨f, hf, hp⟩
    exact ⟨hs, ⟨f, hfrozen f hf, hp⟩, rfl⟩
  exact hle.trans ((hh s).trans (hexport s))

/-- Freezing a node is honoured when every node further up its chain exports
all that is claimed from it. -/
theorem Honoured.freeze [DecidableEq ι] (hh : g.Honoured frozen nodes exported) (hpos : ∀ c, 0 ≤ g.amount c)
    {b : ι} (hfrozen : ∀ x, frozen' x → frozen x ∨ x = b)
    (hchain : ∀ t, TransGen g.ClaimsFrom b t → g.claimedFrom nodes t ≤ exported t) :
    g.Honoured frozen' nodes exported := by
  intro s
  by_cases hs : TransGen g.ClaimsFrom b s
  · exact (collectedFrom_le_claimedFrom hpos s).trans (hchain s hs)
  · refine le_trans ?_ (hh s)
    apply collectedFrom_le hpos
    rintro c _ hc ⟨f, hf, hp⟩
    rcases hfrozen f hf with hf | rfl
    · exact ⟨hc, ⟨f, hf, hp⟩, rfl⟩
    · exact absurd (TransGen.tail' hp hc) hs

section Rewrite

variable {b : ι} (hsame : ∀ c, c ≠ b → g'.source c = g.source c ∧ g'.amount c = g.amount c)

include hsame

theorem claimsFrom_of_ne {c s : ι} (hc : c ≠ b) : g'.ClaimsFrom c s ↔ g.ClaimsFrom c s := by
  unfold ClaimsFrom
  rw [(hsame c hc).1]

/-- A chain of the rewritten graph that never leaves `b` is an old chain. -/
theorem path_of_rewrite {x y : ι} (h : ReflTransGen g'.ClaimsFrom x y) :
    ReflTransGen g.ClaimsFrom x y ∨ ReflTransGen g.ClaimsFrom x b ∧
      ∃ s, g'.ClaimsFrom b s ∧ ReflTransGen g'.ClaimsFrom s y := by
  induction h using ReflTransGen.head_induction_on with
  | refl => exact Or.inl .refl
  | @head u v huv hvy ih =>
    by_cases hu : u = b
    · subst hu
      exact Or.inr ⟨.refl, v, huv, hvy⟩
    · have huv' := (claimsFrom_of_ne hsame hu).mp huv
      rcases ih with hp | ⟨hp, s, hs, hsy⟩
      · exact Or.inl (.head huv' hp)
      · exact Or.inr ⟨.head huv' hp, s, hs, hsy⟩

/-- Above a source where `b` is not, the paths are the old ones. -/
theorem path_above {src u v : ι} (habove : ∀ t, TransGen g.ClaimsFrom src t → t ≠ b)
    (huv : ReflTransGen g'.ClaimsFrom u v) (hu : ReflTransGen g.ClaimsFrom src u) (hub : u ≠ b) :
    ReflTransGen g.ClaimsFrom src v := by
  induction huv using ReflTransGen.head_induction_on with
  | refl => exact hu
  | @head p q hpq _ ih =>
    have hpq' := (claimsFrom_of_ne hsame hub).mp hpq
    exact ih (hu.tail hpq') (habove q (TransGen.tail' hu hpq'))

/-- What is claimed from a node that `b` claims from neither before nor after. -/
theorem claimedFrom_of_rewrite [DecidableEq ι] {s : ι} (hold : g.source b ≠ some s)
    (hnew : g'.source b ≠ some s) : g'.claimedFrom nodes s = g.claimedFrom nodes s := by
  apply Finset.sum_congr rfl
  intro c _
  by_cases hc : c = b
  · rw [hc, if_neg hnew, if_neg hold]
  · rw [(hsame c hc).1, (hsame c hc).2]

/-- Rewriting the claim of an uncommitted node is honoured. -/
theorem Honoured.rewrite_uncommitted (hh : g.Honoured frozen nodes exported)
    (hpos : ∀ c, 0 ≤ g.amount c) (hfree : ¬ g.Committed frozen b)
    (hexport : ∀ s, s ≠ b → exported' s = exported s) (hnonneg : 0 ≤ exported' b) :
    g'.Honoured frozen nodes exported' := by
  have hback : ∀ x, g'.Committed frozen x → g.Committed frozen x := by
    rintro x ⟨f, hf, hp⟩
    rcases path_of_rewrite hsame hp with hp | ⟨hp, _⟩
    · exact ⟨f, hf, hp⟩
    · exact absurd ⟨f, hf, hp⟩ hfree
  have hle : ∀ s, g'.collectedFrom frozen nodes s ≤ g.collectedFrom frozen nodes s := by
    intro s
    apply collectedFrom_le hpos
    intro c _ hc hcc
    have hne : c ≠ b := by
      rintro rfl
      exact hfree (hback _ hcc)
    exact ⟨(hsame c hne).1 ▸ hc, hback c hcc, (hsame c hne).2⟩
  intro s
  by_cases hs : s = b
  · subst hs
    refine le_trans (le_of_eq ?_) hnonneg
    apply Finset.sum_eq_zero
    intro c _
    rw [if_neg]
    rintro ⟨hc, hcc⟩
    exact hfree (hback s (hcc.up hc))
  · rw [hexport s hs]
    exact (hle s).trans (hh s)

/-- Rewriting the claim of a committed node `b` is honoured when `b` goes on
exporting what is collected from it, its new claim fits into its source, and
either the claim stays on the old source or nothing above the new source is
over-claimed and `b` is not above it. -/
theorem Honoured.rewrite_committed [DecidableEq ι] (hh : g.Honoured frozen nodes exported)
    (hpos : ∀ c, 0 ≤ g.amount c) (hpos' : ∀ c, 0 ≤ g'.amount c)
    (hself : g.source b ≠ some b) (hself' : g'.source b ≠ some b)
    (hexport : ∀ s, s ≠ b → exported' s = exported s)
    (hown : g.collectedFrom frozen nodes b ≤ exported' b)
    (hfits : ∀ s, g'.source b = some s → g'.claimedFrom nodes s ≤ exported s)
    (hchain : (∃ old, g.source b = some old ∧ ∀ s, g'.source b = some s → s = old) ∨
      g.source b = none ∧ ∀ s, g'.source b = some s → ∀ t, TransGen g.ClaimsFrom s t →
        t ≠ b ∧ g.claimedFrom nodes t ≤ exported t) :
    g'.Honoured frozen nodes exported' := by
  intro s
  by_cases hsrc : g'.source b = some s
  · have hne : s ≠ b := by
      rintro rfl
      exact hself' hsrc
    rw [hexport s hne]
    exact (collectedFrom_le_claimedFrom hpos' s).trans (hfits s hsrc)
  have hclaimant : ∀ c, g'.source c = some s → c ≠ b := by
    rintro c hc rfl
    exact hsrc hc
  have hexported : g.collectedFrom frozen nodes s ≤ exported' s := by
    by_cases hs : s = b
    · rw [hs]
      exact hown
    · rw [hexport s hs]
      exact hh s
  rcases hchain with ⟨old, hold, hkeep⟩ | ⟨hnone, hchain⟩
  · refine le_trans ?_ hexported
    apply collectedFrom_le hpos
    rintro c _ hc ⟨f, hf, hp⟩
    have hne := hclaimant c hc
    refine ⟨(hsame c hne).1 ▸ hc, ⟨f, hf, ?_⟩, (hsame c hne).2⟩
    refine ReflTransGen.mono (fun u v huv => ?_) f c hp
    by_cases hu : u = b
    · subst hu
      rw [hkeep v huv]
      exact hold
    · exact (claimsFrom_of_ne hsame hu).mp huv
  · by_cases habove : ∃ src, g'.source b = some src ∧ TransGen g.ClaimsFrom src s
    · obtain ⟨src, hsrc', ht⟩ := habove
      obtain ⟨hsb, hle⟩ := hchain src hsrc' s ht
      rw [hexport s hsb]
      have hold : g.source b ≠ some s := by
        rw [hnone]
        exact (Option.some_ne_none s).symm
      refine le_trans (collectedFrom_le_claimedFrom hpos' s) (le_trans (le_of_eq ?_) hle)
      exact claimedFrom_of_rewrite hsame hold hsrc
    · refine le_trans ?_ hexported
      apply collectedFrom_le hpos
      rintro c _ hc ⟨f, hf, hp⟩
      have hne := hclaimant c hc
      have hc' : g.source c = some s := (hsame c hne).1 ▸ hc
      refine ⟨hc', ?_, (hsame c hne).2⟩
      rcases path_of_rewrite hsame hp with hp | ⟨_, src, hbs, hsc⟩
      · exact ⟨f, hf, hp⟩
      · exfalso
        have hsrcb : src ≠ b := by
          rintro rfl
          exact hself' hbs
        have hold := path_above hsame (fun t ht => (hchain src hbs t ht).1) hsc .refl hsrcb
        exact habove ⟨src, hbs, TransGen.tail' hold hc'⟩

end Rewrite

end ClaimGraph

end Kurtar.DemandFlow

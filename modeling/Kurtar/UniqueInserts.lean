import Kurtar.LockedTransactions

/-!
# Rows created under unique indexes

A transaction that creates rows one after another. Each one takes the entry
of its unique index, is refused when the index has it already, and may refer
to another row by a foreign key. A transaction that commits has created rows
that nobody had stored, and nobody else has stored them meanwhile.
-/

namespace Kurtar.UniqueInserts

open LockedTransactions Transaction

variable {σ ρ : Type*}

/-- A row to be created. -/
structure Creation (σ ρ : Type*) where
  /-- Its entry in the unique index. -/
  row : ρ
  change : σ → σ
  /-- The row that its foreign key refers to. -/
  refersTo : Option ρ

section Programs

variable (stores : σ → ρ → Bool)

/-- The foreign-key check of the row referred to. -/
def refer (c : Creation σ ρ) (next : Program σ ρ) : Program σ ρ :=
  match c.refersTo with
  | none => next
  | some row => .acquire row .keyShare next

/-- A unique violation, or the insert. -/
def checked (c : Creation σ ρ) (next : Program σ ρ) : Program σ ρ :=
  .select fun d => if stores d c.row then .rollback else .insert c.change (refer c next)

def create (c : Creation σ ρ) (next : Program σ ρ) : Program σ ρ :=
  .acquire c.row .forUpdate (checked stores c next)

/-- Create the rows in order, then commit. -/
def createAll : List (Creation σ ρ) → Program σ ρ
  | [] => .commit
  | c :: rest => create stores c (createAll rest)

variable {stores}

theorem eq_nil_of_createAll {rest : List (Creation σ ρ)}
    (h : createAll stores rest = .commit) : rest = [] := by
  cases rest with
  | nil => rfl
  | cons c rest => cases h

/-- The first creation can be read off the program. -/
theorem change_eq_of_createAll {c c' : Creation σ ρ} {rest rest' : List (Creation σ ρ)}
    (h : createAll stores (c :: rest) = createAll stores (c' :: rest')) {d : σ}
    (hfresh : stores d c.row = false) : c.change = c'.change := by
  injection h with hrow _ hchecked
  injection hchecked with hselect
  have hd := congrFun hselect d
  rw [← hrow, hfresh] at hd
  injection hd

end Programs

/-- The writes of the rows created so far. -/
def applyAll (done : List (Creation σ ρ)) (d : σ) : σ := done.foldl (fun d c => c.change d) d

@[simp] theorem applyAll_nil (d : σ) : applyAll ([] : List (Creation σ ρ)) d = d := rfl

@[simp] theorem applyAll_cons (c : Creation σ ρ) (done : List (Creation σ ρ)) (d : σ) :
    applyAll (c :: done) d = applyAll done (c.change d) := rfl

theorem applyAll_append_singleton (done : List (Creation σ ρ)) (c : Creation σ ρ) (d : σ) :
    applyAll (done ++ [c]) d = c.change (applyAll done d) := by
  rw [applyAll, List.foldl_append]
  rfl

variable {stores : σ → ρ → Bool} {d d' : σ} {base effect : σ → σ} {held : List (ρ × LockMode)}
  {program : Program σ ρ} {cs done : List (Creation σ ρ)} {x : Transaction σ ρ}

/-- The creation stores its own row and no other one. -/
def StoresOwn (stores : σ → ρ → Bool) (c : Creation σ ρ) : Prop :=
  ∀ d row, stores (c.change d) row = true ↔ stores d row = true ∨ row = c.row

theorem stores_applyAll (h : ∀ c ∈ done, StoresOwn stores c) (d : σ) (row : ρ) :
    stores (applyAll done d) row = true ↔ stores d row = true ∨ row ∈ done.map (·.row) := by
  induction done generalizing d with
  | nil => simp
  | cons c done ih =>
    rw [applyAll_cons, ih (fun b hb => h b (List.mem_cons_of_mem _ hb)), h c List.mem_cons_self,
      List.map_cons, List.mem_cons, or_assoc]

/-- The rows created so far are owned, and nobody has stored them. -/
structure Created (stores : σ → ρ → Bool) (d : σ) (base effect : σ → σ)
    (held : List (ρ × LockMode)) (done : List (Creation σ ρ)) : Prop where
  effect_eq : effect = fun d => applyAll done (base d)
  owned : ∀ c ∈ done, Owns held c.row
  fresh : ∀ c ∈ done, stores d c.row = false
  nodup : (done.map (·.row)).Nodup

namespace Created

theorem start (heffect : effect = base) : Created stores d base effect held [] :=
  ⟨heffect, fun _ h => absurd h List.not_mem_nil, fun _ h => absurd h List.not_mem_nil,
    List.nodup_nil⟩

theorem holds_more (h : Created stores d base effect held done) {held' : List (ρ × LockMode)}
    (hheld : ∀ row, Owns held row → Owns held' row) :
    Created stores d base effect held' done :=
  ⟨h.effect_eq, fun c hc => hheld _ (h.owned c hc), h.fresh, h.nodup⟩

/-- One more row, owned and not stored by anybody or by the transaction itself. -/
theorem add {c : Creation σ ρ} (h : Created stores d base effect held done)
    (howns : Owns held c.row) (hfresh : stores d c.row = false)
    (hnew : c.row ∉ done.map (·.row)) :
    Created stores d base (fun d => c.change (effect d)) held (done ++ [c]) := by
  refine ⟨?_, ?_, ?_, ?_⟩
  · funext d
    rw [h.effect_eq, applyAll_append_singleton]
  · intro b hb
    rcases List.mem_append.mp hb with hb | hb
    · exact h.owned b hb
    · rw [List.mem_singleton.mp hb]
      exact howns
  · intro b hb
    rcases List.mem_append.mp hb with hb | hb
    · exact h.fresh b hb
    · rw [List.mem_singleton.mp hb]
      exact hfresh
  · rw [List.map_append, List.map_singleton]
    refine List.nodup_append.mpr ⟨h.nodup, List.nodup_singleton _, ?_⟩
    intro a ha b hb hab
    rw [List.mem_singleton.mp hb] at hab
    exact hnew (hab ▸ ha)

theorem stores_effect (h : Created stores d base effect held done)
    (hbase : ∀ d row, stores (base d) row = stores d row)
    (hown : ∀ c ∈ done, StoresOwn stores c) (e : σ) (row : ρ) :
    stores (effect e) row = true ↔ stores e row = true ∨ row ∈ done.map (·.row) := by
  rw [h.effect_eq, stores_applyAll hown, hbase]

/-- What is newly stored is owned. -/
theorem owns_of_stored (h : Created stores d base effect held done)
    (hbase : ∀ d row, stores (base d) row = stores d row)
    (hown : ∀ c ∈ done, StoresOwn stores c) {row : ρ} (hrow : stores (effect d) row = true) :
    stores d row = true ∨ Owns held row := by
  rcases (h.stores_effect hbase hown d row).mp hrow with hrow | hrow
  · exact .inl hrow
  · obtain ⟨c, hc, hcr⟩ := List.mem_map.mp hrow
    rw [← hcr]
    exact .inr (h.owned c hc)

/-- The rows stay new while others store only rows that they own. -/
theorem of_others (h : Created stores d base effect held done)
    (hlocal : ∀ row, stores d' row = true → stores d row = true ∨ ¬ Owns held row) :
    Created stores d' base effect held done := by
  refine ⟨h.effect_eq, h.owned, ?_, h.nodup⟩
  intro c hc
  by_contra hstored
  rcases hlocal c.row (by simpa using hstored) with hrow | hrow
  · rw [h.fresh c hc] at hrow
    cases hrow
  · exact hrow (h.owned c hc)

end Created

/-- Where a transaction stands that creates the rows `cs` after the write `base`. -/
inductive Creating (stores : σ → ρ → Bool) (d : σ) (base : σ → σ) (cs : List (Creation σ ρ))
    (program : Program σ ρ) (effect : σ → σ) (held : List (ρ × LockMode)) : Prop
  | next (done rest : List (Creation σ ρ)) (hcs : cs = done ++ rest)
    (hprogram : program = createAll stores rest)
    (hcreated : Created stores d base effect held done)
  | checking (done : List (Creation σ ρ)) (c : Creation σ ρ) (rest : List (Creation σ ρ))
    (hcs : cs = done ++ c :: rest) (hprogram : program = checked stores c (createAll stores rest))
    (hcreated : Created stores d base effect held done) (howns : Owns held c.row)
  | inserting (done : List (Creation σ ρ)) (c : Creation σ ρ) (rest : List (Creation σ ρ))
    (hcs : cs = done ++ c :: rest)
    (hprogram : program = .insert c.change (refer c (createAll stores rest)))
    (hcreated : Created stores d base effect held done) (howns : Owns held c.row)
    (hfresh : stores d c.row = false) (hnew : c.row ∉ done.map (·.row))
  | referring (done rest : List (Creation σ ρ)) (hcs : cs = done ++ rest) (row : ρ)
    (hprogram : program = .acquire row .keyShare (createAll stores rest))
    (hcreated : Created stores d base effect held done)

namespace Creating

theorem start (heffect : effect = base) :
    Creating stores d base cs (createAll stores cs) effect held :=
  .next [] cs rfl rfl (.start heffect)

theorem issue (hbase : ∀ d row, stores (base d) row = stores d row)
    (hown : ∀ c ∈ cs, StoresOwn stores c)
    (h : Creating stores d base cs x.program x.effect x.held) (hcommit : x.program ≠ .commit) :
    (x.issue d).program = .rollback ∨
      Creating stores d base cs (x.issue d).program (x.issue d).effect (x.issue d).held ∧
        (x.issue d).held = x.held := by
  cases h with
  | next done rest hcs hprogram hcreated =>
    cases rest with
    | nil => exact absurd hprogram hcommit
    | cons c rest =>
      rw [issue_acquire hprogram]
      exact .inr ⟨.next done (c :: rest) hcs hprogram hcreated, rfl⟩
  | checking done c rest hcs hprogram hcreated howns =>
    rw [issue_select hprogram]
    dsimp only
    split_ifs with hstored
    · exact .inl rfl
    · refine .inr ⟨?_, rfl⟩
      have hdone : ∀ b ∈ done, StoresOwn stores b := by
        intro b hb
        exact hown b (hcs ▸ List.mem_append_left _ hb)
      rw [hcreated.stores_effect hbase hdone, not_or] at hstored
      exact .inserting done c rest hcs rfl hcreated howns (by simpa using hstored.1) hstored.2
  | inserting done c rest hcs hprogram hcreated howns hfresh hnew =>
    rw [issue_insert hprogram]
    refine .inr ⟨?_, rfl⟩
    have hcs' : cs = (done ++ [c]) ++ rest := by
      rw [hcs, List.append_assoc, List.singleton_append]
    have hadded := hcreated.add howns hfresh hnew
    cases hrefers : c.refersTo with
    | none => exact .next (done ++ [c]) rest hcs' (by simp only [refer, hrefers]) hadded
    | some row =>
      exact .referring (done ++ [c]) rest hcs' row (by simp only [refer, hrefers]) hadded
  | referring done rest hcs row hprogram hcreated =>
    rw [issue_acquire hprogram]
    exact .inr ⟨.referring done rest hcs row hprogram hcreated, rfl⟩

theorem grant {want : ρ × LockMode} (hwanted : x.wanted = some want)
    (h : Creating stores d base cs x.program x.effect x.held) :
    Creating stores d base cs (x.grant d).program (x.grant d).effect (x.grant d).held := by
  cases h with
  | next done rest hcs hprogram hcreated =>
    cases rest with
    | nil =>
      rw [wanted_commit hprogram] at hwanted
      cases hwanted
    | cons c rest =>
      rw [grant_acquire hprogram]
      exact .checking done c rest hcs rfl (hcreated.holds_more fun _ hrow => hrow.cons _)
        (owns_cons_self _ _ (by decide))
  | checking done c rest hcs hprogram =>
    rw [wanted_select hprogram] at hwanted
    cases hwanted
  | inserting done c rest hcs hprogram =>
    rw [wanted_insert hprogram] at hwanted
    cases hwanted
  | referring done rest hcs row hprogram hcreated =>
    rw [grant_acquire hprogram]
    exact .next done rest hcs rfl (hcreated.holds_more fun _ hrow => hrow.cons _)

/-- Others store only rows that they own. -/
theorem of_others (h : Creating stores d base cs program effect held)
    (hlocal : ∀ row, stores d' row = true → stores d row = true ∨ ¬ Owns held row) :
    Creating stores d' base cs program effect held := by
  cases h with
  | next done rest hcs hprogram hcreated =>
    exact .next done rest hcs hprogram (hcreated.of_others hlocal)
  | checking done c rest hcs hprogram hcreated howns =>
    exact .checking done c rest hcs hprogram (hcreated.of_others hlocal) howns
  | inserting done c rest hcs hprogram hcreated howns hfresh hnew =>
    refine .inserting done c rest hcs hprogram (hcreated.of_others hlocal) howns ?_ hnew
    by_contra hstored
    rcases hlocal c.row (by simpa using hstored) with hrow | hrow
    · rw [hfresh] at hrow
      cases hrow
    · exact hrow howns
  | referring done rest hcs row hprogram hcreated =>
    exact .referring done rest hcs row hprogram (hcreated.of_others hlocal)

/-- Whoever commits has created all rows. -/
theorem created_of_commit (h : Creating stores d base cs program effect held)
    (hcommit : program = .commit) : Created stores d base effect held cs := by
  cases h with
  | next done rest hcs hprogram hcreated =>
    have hrest := eq_nil_of_createAll (hprogram.symm.trans hcommit)
    rw [hrest, List.append_nil] at hcs
    rw [hcs]
    exact hcreated
  | checking _ _ _ _ hprogram =>
    rw [hcommit] at hprogram
    cases hprogram
  | inserting _ _ _ _ hprogram =>
    rw [hcommit] at hprogram
    cases hprogram
  | referring _ _ _ _ hprogram =>
    rw [hcommit] at hprogram
    cases hprogram

end Creating

end Kurtar.UniqueInserts

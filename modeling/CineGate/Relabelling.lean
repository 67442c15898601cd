/-
**Relabelling rows under a uniqueness constraint, one at a time.**

Rows with distinct labels are to get new labels, distinct as well.  A pass goes through the rows in
order and gives each its target, unless another row holds that label at the moment.  A row then
*waits* for the row that holds its target.  A pass settles a row that waits for an earlier row once
that one is settled, but it comes too early for a row that waits for a later one: every such wait on
the way costs one more pass, and a cycle is never settled.

* `Relabelling.relabel`, `Relabelling.pass`, `Relabelling.passes` — one row, one pass, some passes;
* `Relabelling.Waits`, `Relabelling.Delayed` — who waits for whom, and how often for a later row;
* `Relabelling.pass_eq_target_iff` — what one pass settles;
* `Relabelling.passes_eq_target_iff` — **what some passes settle**: the rows from which no chain of
  waits has as many waits for a later row as there are passes.
-/

import Mathlib.Data.Set.Function
import Mathlib.Logic.Relation
import Mathlib.Order.WellFounded
import Mathlib.Data.List.Pairwise

set_option relaxedAutoImplicit false
set_option autoImplicit false

namespace Relabelling

variable {ι κ : Type*}

/-- The row wants a label that another one holds. -/
def Waits (rows : List ι) (target label : ι → κ) (i j : ι) : Prop :=
  i ∈ rows ∧ j ∈ rows ∧ i ≠ j ∧ label j = target i

/-- The row another one waits for is not settled. -/
theorem Waits.ne_target {rows : List ι} {target label : ι → κ} {i j : ι}
    (htarget : Set.InjOn target {j | j ∈ rows}) (h : Waits rows target label i j) :
    label j ≠ target j := by
  obtain ⟨hi, hj, hne, hwaits⟩ := h
  exact fun hsettled => hne (htarget hi hj (hwaits.symm.trans hsettled))

/-- Some chain of waits from the row waits so many times for a later row. -/
def Delayed [LT ι] (rows : List ι) (target label : ι → κ) : ℕ → ι → Prop
  | 0, _ => True
  | n + 1, i => ∃ a b, Relation.ReflTransGen (Waits rows target label) i a ∧
      Waits rows target label a b ∧ a < b ∧ Delayed rows target label n b

/-! ### Passes -/

variable [LinearOrder ι] [DecidableEq κ]

section

variable (rows : List ι) (target : ι → κ)

/-- A row gets its target unless another row holds that label. -/
def relabel (label : ι → κ) (i : ι) : ι → κ :=
  if ∃ j ∈ rows, j ≠ i ∧ label j = target i then label else Function.update label i (target i)

/-- One pass over the rows. -/
def pass (label : ι → κ) : ι → κ := rows.foldl (relabel rows target) label

/-- Some passes. -/
def passes : ℕ → (ι → κ) → ι → κ
  | 0, label => label
  | n + 1, label => pass rows target (passes n label)

end

variable {rows : List ι} {target : ι → κ} {label : ι → κ} {i j : ι}

/-! ### One row -/

theorem relabel_of_ne (h : j ≠ i) : relabel rows target label i j = label j := by
  unfold relabel
  split
  · rfl
  · exact Function.update_of_ne h _ _

theorem relabel_eq_update (h : ∀ j ∈ rows, j ≠ i → label j ≠ target i) :
    relabel rows target label i = Function.update label i (target i) :=
  if_neg fun ⟨j, hj, hne, hlabel⟩ => h j hj hne hlabel

theorem relabel_of_free (h : ∀ j ∈ rows, j ≠ i → label j ≠ target i) :
    relabel rows target label i i = target i := by
  rw [relabel_eq_update h, Function.update_self]

theorem relabel_of_taken (hj : j ∈ rows) (hne : j ≠ i) (h : label j = target i) :
    relabel rows target label i = label := if_pos ⟨j, hj, hne, h⟩

/-- A row keeps its label or gets its target. -/
theorem relabel_cases (j : ι) :
    relabel rows target label i j = label j ∨ relabel rows target label i j = target j := by
  unfold relabel
  split
  · exact .inl rfl
  · by_cases hji : j = i
    · subst hji
      exact .inr (Function.update_self _ _ _)
    · exact .inl (Function.update_of_ne hji _ _)

/-- The labels stay distinct. -/
theorem injOn_relabel (h : Set.InjOn label {j | j ∈ rows}) (hi : i ∈ rows) :
    Set.InjOn (relabel rows target label i) {j | j ∈ rows} := by
  unfold relabel
  split
  · exact h
  · next hfree =>
      intro j hj k hk heq
      by_cases hji : j = i <;> by_cases hki : k = i
      · rw [hji, hki]
      · subst hji
        rw [Function.update_self, Function.update_of_ne hki] at heq
        exact absurd ⟨k, hk, hki, heq.symm⟩ hfree
      · subst hki
        rw [Function.update_self, Function.update_of_ne hji] at heq
        exact absurd ⟨j, hj, hji, heq⟩ hfree
      · rw [Function.update_of_ne hji, Function.update_of_ne hki] at heq
        exact h hj hk heq

/-! ### A part of a pass -/

section

variable {part : List ι}

theorem foldl_of_notMem (h : j ∉ part) : part.foldl (relabel rows target) label j = label j := by
  induction part generalizing label with
  | nil => rfl
  | cons i part ih =>
      rw [List.mem_cons, not_or] at h
      rw [List.foldl_cons, ih h.2, relabel_of_ne h.1]

theorem foldl_cases (j : ι) : part.foldl (relabel rows target) label j = label j ∨
    part.foldl (relabel rows target) label j = target j := by
  induction part generalizing label with
  | nil => exact .inl rfl
  | cons i part ih =>
      rw [List.foldl_cons]
      have hrest : part.foldl (relabel rows target) (relabel rows target label i) j =
          relabel rows target label i j ∨ _ := ih
      rcases hrest with h | h
      · rw [h]
        exact relabel_cases j
      · exact .inr h

theorem injOn_foldl (h : Set.InjOn label {j | j ∈ rows}) (hpart : ∀ i ∈ part, i ∈ rows) :
    Set.InjOn (part.foldl (relabel rows target) label) {j | j ∈ rows} := by
  induction part generalizing label with
  | nil => exact h
  | cons i part ih =>
      exact ih (injOn_relabel h (hpart i List.mem_cons_self))
        fun j hj => hpart j (List.mem_cons_of_mem i hj)

end

/-! ### One pass -/

theorem injOn_pass (h : Set.InjOn label {j | j ∈ rows}) :
    Set.InjOn (pass rows target label) {j | j ∈ rows} := injOn_foldl h fun _ hi => hi

theorem injOn_passes (h : Set.InjOn label {j | j ∈ rows}) (n : ℕ) :
    Set.InjOn (passes rows target n label) {j | j ∈ rows} := by
  induction n with
  | zero => exact h
  | succ n ih => exact injOn_pass ih

section

variable (hrows : rows.Pairwise (· < ·)) (htarget : Set.InjOn target {j | j ∈ rows})
include hrows htarget

/-- **What one pass settles**: the rows that wait for nobody, or for an earlier row that the pass
settles. -/
theorem pass_eq_target_iff (hlabel : Set.InjOn label {j | j ∈ rows}) (hi : i ∈ rows) :
    pass rows target label i = target i ↔
      ∀ j, Waits rows target label i j → j < i ∧ pass rows target label j = target j := by
  obtain ⟨before, after, hsplit⟩ := List.append_of_mem hi
  have hrows' := hrows
  rw [hsplit, List.pairwise_append, List.pairwise_cons] at hrows'
  obtain ⟨-, ⟨hafter, -⟩, hbefore⟩ := hrows'
  have hbefore : ∀ j ∈ before, j < i := fun j hj => hbefore j hj i List.mem_cons_self
  have hmem : ∀ {j}, j ∈ rows → j ≠ i → j ∈ before ∨ j ∈ after := by
    intro j hj hne
    rw [hsplit, List.mem_append, List.mem_cons] at hj
    exact hj.imp_right fun h => h.resolve_left hne
  -- the labels when it is the row's turn
  let now := before.foldl (relabel rows target) label
  have hpass : pass rows target label =
      after.foldl (relabel rows target) (relabel rows target now i) := by
    conv_lhs => rw [pass]
    conv_lhs => rhs; rw [hsplit]
    rw [List.foldl_append, List.foldl_cons]
  have hself : pass rows target label i = relabel rows target now i i := by
    rw [hpass]
    exact foldl_of_notMem fun h => absurd (hafter i h) (lt_irrefl i)
  have hearlier : ∀ j ∈ before, pass rows target label j = now j := by
    intro j hj
    rw [hpass, foldl_of_notMem fun h => absurd ((hbefore j hj).trans (hafter j h)) (lt_irrefl j)]
    exact relabel_of_ne (hbefore j hj).ne
  have hlater : ∀ j ∈ after, now j = label j := fun j hj =>
    foldl_of_notMem fun h => absurd ((hbefore j h).trans (hafter j hj)) (lt_irrefl j)
  have hstill : now i = label i := foldl_of_notMem fun h => absurd (hbefore i h) (lt_irrefl i)
  have hnow : Set.InjOn now {j | j ∈ rows} := injOn_foldl hlabel fun j hj => by
    rw [hsplit]
    exact List.mem_append_left _ hj
  rw [hself]
  constructor
  · rintro hsettled j ⟨-, hj, hne, hwaits⟩
    have hfree : now j ≠ target i := by
      intro htaken
      rw [relabel_of_taken hj hne.symm htaken] at hsettled
      exact hne (hnow hi hj (hsettled.trans htaken.symm))
    rcases hmem hj hne.symm with hj' | hj'
    · refine ⟨hbefore j hj', ?_⟩
      rw [hearlier j hj']
      exact (foldl_cases j).resolve_left fun h => hfree (h.trans hwaits)
    · exact absurd ((hlater j hj').trans hwaits) hfree
  · intro hwaits
    refine relabel_of_free fun j hj hne htaken => ?_
    have hcases : now j = label j ∨ now j = target j := foldl_cases j
    rcases hcases with hkept | hmoved
    · obtain ⟨hlt, hsettled⟩ := hwaits j ⟨hi, hj, hne.symm, hkept.symm.trans htaken⟩
      rcases hmem hj hne with hj' | hj'
      · rw [hearlier j hj', htaken] at hsettled
        exact hne (htarget hj hi hsettled.symm)
      · exact absurd (hlt.trans (hafter j hj')) (lt_irrefl j)
    · exact hne (htarget hj hi (hmoved.symm.trans htaken))

/-- A settled row stays settled. -/
theorem pass_eq_target_of_settled (hlabel : Set.InjOn label {j | j ∈ rows}) (hi : i ∈ rows)
    (h : label i = target i) : pass rows target label i = target i := by
  refine (pass_eq_target_iff hrows htarget hlabel hi).2 fun j ⟨_, hj, hne, hwaits⟩ => ?_
  exact absurd (hlabel hi hj (h.trans hwaits.symm)) hne

/-! ### Some passes -/

omit hrows in
/-- After some passes a row waits for those it has waited for that are not settled. -/
theorem waits_passes_iff {n : ℕ} : Waits rows target (passes rows target n label) i j ↔
    Waits rows target label i j ∧ passes rows target n label j ≠ target j := by
  have hcases : passes rows target n label j = label j ∨
      passes rows target n label j = target j := by
    induction n with
    | zero => exact .inl rfl
    | succ n ih =>
        have hpass : passes rows target (n + 1) label j = passes rows target n label j ∨
            passes rows target (n + 1) label j = target j := foldl_cases j
        rcases hpass with h | h
        · exact ih.imp h.trans h.trans
        · exact .inr h
  constructor
  · intro h
    refine ⟨⟨h.1, h.2.1, h.2.2.1, ?_⟩, h.ne_target htarget⟩
    exact (hcases.resolve_right (h.ne_target htarget)).symm.trans h.2.2.2
  · rintro ⟨h, hunsettled⟩
    exact ⟨h.1, h.2.1, h.2.2.1, (hcases.resolve_right hunsettled).trans h.2.2.2⟩

/-- A row is left over by one more pass when it waits for a row that was left over before and that
comes later or is left over again. -/
theorem passes_succ_ne_target_iff (hlabel : Set.InjOn label {j | j ∈ rows}) (hi : i ∈ rows)
    {n : ℕ} : passes rows target (n + 1) label i ≠ target i ↔
      ∃ j, Waits rows target label i j ∧ passes rows target n label j ≠ target j ∧
        (i < j ∨ passes rows target (n + 1) label j ≠ target j) := by
  have hdistinct : Set.InjOn (passes rows target n label) {j | j ∈ rows} := injOn_passes hlabel n
  have hpass := pass_eq_target_iff hrows htarget hdistinct hi
  rw [passes, Ne, hpass]
  push Not
  simp only [waits_passes_iff htarget, and_assoc]
  refine exists_congr fun j => and_congr_right fun hwaits => and_congr_right fun _ => ?_
  have hne : i ≠ j := hwaits.2.2.1
  constructor
  · intro h
    rcases lt_or_gt_of_ne hne with hlt | hlt
    · exact .inl hlt
    · exact .inr (h hlt)
  · rintro (hlt | h) hlt'
    · exact absurd (hlt.trans hlt') (lt_irrefl i)
    · exact h

/-- One more pass, when the rows that are waited for are known. -/
theorem passes_succ_ne_target_iff_delayed [WellFoundedLT ι]
    (hlabel : Set.InjOn label {j | j ∈ rows}) {n : ℕ}
    (hn : ∀ i j, Waits rows target label i j →
      (passes rows target n label j ≠ target j ↔ Delayed rows target label n j)) (hi : i ∈ rows) :
    passes rows target (n + 1) label i ≠ target i ↔ Delayed rows target label (n + 1) i := by
  constructor
  · intro h
    induction i using WellFoundedLT.induction with
    | ind i ih =>
        obtain ⟨j, hwaits, hbefore, hj⟩ := (passes_succ_ne_target_iff hrows htarget hlabel hi).1 h
        rcases lt_or_gt_of_ne hwaits.2.2.1 with hlt | hlt
        · exact ⟨i, j, .refl, hwaits, hlt, (hn i j hwaits).1 hbefore⟩
        · obtain ⟨a, b, hchain, hrest⟩ :=
            ih j hlt hwaits.2.1 (hj.resolve_left (not_lt.2 hlt.le))
          exact ⟨a, b, .head hwaits hchain, hrest⟩
  · rintro ⟨a, b, hchain, hwaits, hlt, hdelayed⟩
    induction hchain using Relation.ReflTransGen.head_induction_on with
    | refl =>
        exact (passes_succ_ne_target_iff hrows htarget hlabel hwaits.1).2
          ⟨b, hwaits, (hn a b hwaits).2 hdelayed, .inl hlt⟩
    | @head i j hstep _ ih =>
        have hj := ih hstep.2.1
        have hbefore : passes rows target n label j ≠ target j := fun hsettled =>
          hj (pass_eq_target_of_settled hrows htarget (injOn_passes hlabel n) hstep.2.1 hsettled)
        exact (passes_succ_ne_target_iff hrows htarget hlabel hstep.1).2
          ⟨j, hstep, hbefore, .inr hj⟩

/-- **What some passes settle**: the rows without a chain of waits that waits as many times for a
later row as there are passes. -/
theorem passes_eq_target_iff [WellFoundedLT ι] (hlabel : Set.InjOn label {j | j ∈ rows})
    (hi : i ∈ rows) (n : ℕ) :
    passes rows target (n + 1) label i = target i ↔ ¬ Delayed rows target label (n + 1) i := by
  have hmain : ∀ i ∈ rows, passes rows target (n + 1) label i ≠ target i ↔
      Delayed rows target label (n + 1) i := by
    induction n with
    | zero =>
        exact fun i hi => passes_succ_ne_target_iff_delayed hrows htarget hlabel
          (fun _ _ hwaits => iff_of_true (hwaits.ne_target htarget) trivial) hi
    | succ n ih =>
        exact fun i hi => passes_succ_ne_target_iff_delayed hrows htarget hlabel
          (fun _ j hwaits => ih j hwaits.2.1) hi
  rw [← hmain i hi, not_not]

end

end Relabelling

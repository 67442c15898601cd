/-
**Runs between separators.**

A text falls into the nonempty runs of symbols between its separators.  What splits at every
separator depends on the runs alone: not on how many separators there are between them, before the
first and after the last, nor on which they are.

* `Runs.runs` — the runs of a list;
* `Runs.split_induction` — a list is a run, or a run before a separator;
* `Runs.SplitsAt` — functions that split at separators, and `Runs.SplitsAt.eq_flatMap`: such a
  function is read off the runs;
* `Runs.KeepsSeparators` — transformations that send separators to separators.
-/

import Mathlib.Data.List.Basic
import Mathlib.Data.List.DropRight

set_option relaxedAutoImplicit false
set_option autoImplicit false

universe u v

namespace Runs

variable {α : Type u} {β : Type v}

/-- The nonempty runs of symbols between separators. -/
def runs (sep : α → Bool) (s : List α) : List (List α) :=
    (s.splitOnP sep).filter fun w => !w.isEmpty

variable {sep : α → Bool} {s w : List α} {c : α}

/-- What is left in front of a run at the end is empty or ends at a separator. -/
theorem not_of_getLast?_rdropWhile {p : α → Bool} (h : (s.rdropWhile p).getLast? = some c) :
    p c = false := by
  have hne : s.rdropWhile p ≠ [] := by
    intro hnil
    rw [hnil] at h
    cases h
  have hnot := List.rdropWhile_last_not p s hne
  rw [List.getLast?_eq_some_getLast hne] at h
  rw [Option.some.inj h] at hnot
  simpa using hnot

theorem runs_nil : runs sep [] = [] := by simp [runs, List.splitOnP_nil]

theorem runs_append_cons (h : sep c) (a b : List α) :
    runs sep (a ++ c :: b) = runs sep a ++ runs sep b := by
  unfold runs
  rw [List.splitOnP_append_cons a b h, List.filter_append]

theorem runs_cons (h : sep c) (s : List α) : runs sep (c :: s) = runs sep s := by
  have happend := runs_append_cons h [] s
  rwa [runs_nil] at happend

/-- A list without separators is one run. -/
theorem runs_of_forall (h : ∀ c ∈ w, sep c = false) (hw : w ≠ []) : runs sep w = [w] := by
  unfold runs
  rw [List.splitOnP_eq_singleton h]
  simp [hw]

/-- **A list is a run, or a run, a separator and a shorter list.** -/
theorem split_induction {p : α → Bool} {P : List α → Prop} (run : ∀ w, (∀ c ∈ w, p c = false) → P w)
    (append : ∀ w c rest, (∀ x ∈ w, p x = false) → p c → P rest → P (w ++ c :: rest))
    (s : List α) : P s := by
  induction hn : s.length using Nat.strong_induction_on generalizing s with
  | h n ih =>
      have hrun : ∀ c ∈ s.takeWhile fun c => !p c, p c = false := by
        intro c hc
        simpa using List.mem_takeWhile_imp hc
      cases hrest : s.dropWhile fun c => !p c with
      | nil =>
          have hs := List.takeWhile_append_dropWhile (p := fun c => !p c) (l := s)
          rw [hrest, List.append_nil] at hs
          rw [← hs]
          exact run _ hrun
      | cons c rest =>
          have hs := List.takeWhile_append_dropWhile (p := fun c => !p c) (l := s)
          rw [hrest] at hs
          have hc : p c = true := by
            have hhead := List.head_dropWhile_not (fun c => !p c) (by rw [hrest]; simp)
            simpa [hrest] using hhead
          rw [← hs]
          refine append _ c rest hrun hc (ih rest.length ?_ rest rfl)
          rw [← hn, ← hs, List.length_append, List.length_cons]
          omega

/-- The runs of a list without separators. -/
theorem mem_runs_of_forall (hw : ∀ c ∈ w, sep c = false) {v : List α} (h : v ∈ runs sep w) :
    v = w := by
  cases w with
  | nil =>
      rw [runs_nil] at h
      cases h
  | cons x w =>
      rw [runs_of_forall hw (List.cons_ne_nil x w)] at h
      exact List.mem_singleton.1 h

theorem eq_nil_of_runs_eq_nil (hw : ∀ c ∈ w, sep c = false) (h : runs sep w = []) : w = [] := by
  by_contra hne
  rw [runs_of_forall hw hne] at h
  cases h

/-- What is read off the runs of a list without separators. -/
theorem flatMap_runs {h : List α → List β} (hnil : h [] = []) (hw : ∀ c ∈ w, sep c = false) :
    (runs sep w).flatMap h = h w := by
  cases w with
  | nil => rw [runs_nil, hnil, List.flatMap_nil]
  | cons x w =>
      rw [runs_of_forall hw (List.cons_ne_nil x w), List.flatMap_cons, List.flatMap_nil,
        List.append_nil]

/-- A run is nonempty. -/
theorem ne_nil_of_mem_runs (h : w ∈ runs sep s) : w ≠ [] := by
  simpa using (List.mem_filter.1 h).2

/-- A list without runs has nothing but separators. -/
theorem forall_of_runs_eq_nil (h : runs sep s = []) : ∀ c ∈ s, sep c := by
  induction s using split_induction (p := sep) with
  | run w hw =>
      rw [eq_nil_of_runs_eq_nil hw h]
      exact fun c hc => (by cases hc)
  | append w c rest hw hc ih =>
      rw [runs_append_cons hc, List.append_eq_nil_iff] at h
      rw [eq_nil_of_runs_eq_nil hw h.1]
      intro x hx
      rcases List.mem_cons.1 hx with rfl | hx
      · exact hc
      · exact ih h.2 x hx

theorem runs_eq_nil_iff : runs sep s = [] ↔ ∀ c ∈ s, sep c := by
  refine ⟨forall_of_runs_eq_nil, fun h => ?_⟩
  induction s with
  | nil => exact runs_nil
  | cons c s ih =>
      rw [runs_cons (h c List.mem_cons_self)]
      exact ih fun x hx => h x (List.mem_cons_of_mem c hx)

/-- A run has no separator. -/
theorem forall_of_mem_runs (h : w ∈ runs sep s) : ∀ c ∈ w, sep c = false := by
  induction s using split_induction (p := sep) with
  | run v hv =>
      rw [mem_runs_of_forall hv h]
      exact hv
  | append v c rest hv hc ih =>
      rw [runs_append_cons hc] at h
      rcases List.mem_append.1 h with h | h
      · rw [mem_runs_of_forall hv h]
        exact hv
      · exact ih h

/-- The first symbol that is no separator. -/
theorem head?_dropWhile (s : List α) :
    (s.dropWhile sep).head? = (runs sep s).head?.bind List.head? := by
  induction s using split_induction (p := sep) with
  | run w hw =>
      cases w with
      | nil => simp [runs_nil]
      | cons x w =>
          rw [runs_of_forall hw (List.cons_ne_nil x w), List.dropWhile_cons_of_neg (by simp [hw x])]
          rfl
  | append w c rest hw hc ih =>
      rw [runs_append_cons hc]
      cases w with
      | nil =>
          rw [runs_nil, List.nil_append, List.nil_append, List.dropWhile_cons_of_pos hc]
          exact ih
      | cons x w =>
          rw [runs_of_forall hw (List.cons_ne_nil x w), List.cons_append,
            List.dropWhile_cons_of_neg (by simp [hw x])]
          rfl

/-! ### Functions that split at separators -/

/-- The function splits at every separator. -/
structure SplitsAt (sep : α → Bool) (h : List α → List β) : Prop where
  nil : h [] = []
  append : ∀ a c b, sep c → h (a ++ c :: b) = h a ++ h b

theorem splitsAt_runs : SplitsAt sep (runs sep) :=
    ⟨runs_nil, fun a _ b hc => runs_append_cons hc a b⟩

namespace SplitsAt

variable {h : List α → List β} (hh : SplitsAt sep h)
include hh

theorem cons (hc : sep c) (s : List α) : h (c :: s) = h s := by
  have happend := hh.append [] c s hc
  rwa [hh.nil] at happend

theorem snoc (hc : sep c) (s : List α) : h (s ++ [c]) = h s := by
  rw [hh.append s c [] hc, hh.nil, List.append_nil]

/-- **A function that splits at separators is read off the runs.** -/
theorem eq_flatMap (s : List α) : h s = (runs sep s).flatMap h := by
  induction s using split_induction (p := sep) with
  | run w hw => rw [flatMap_runs hh.nil hw]
  | append w c rest hw hc ih =>
      rw [hh.append w c rest hc, runs_append_cons hc, List.flatMap_append, ← ih,
        flatMap_runs hh.nil hw]

/-- Fewer separators. -/
theorem mono {p : α → Bool} (hp : ∀ c, p c → sep c) : SplitsAt p h :=
  ⟨hh.nil, fun a c b hc => hh.append a c b (hp c hc)⟩

/-- What is joined by a separator. -/
theorem intercalate (hc : sep c) (ws : List (List α)) : h ([c].intercalate ws) = ws.flatMap h := by
  induction ws with
  | nil => exact hh.nil
  | cons w ws ih =>
      cases ws with
      | nil => simp [List.intercalate]
      | cons w' ws =>
          have hjoin : [c].intercalate (w :: w' :: ws) = w ++ c :: [c].intercalate (w' :: ws) := by
            simp [List.intercalate, List.intersperse]
          rw [hjoin, hh.append w c _ hc, ih]
          exact List.flatMap_cons.symm

theorem dropWhile {p : α → Bool} (hp : ∀ c, p c → sep c) (s : List α) :
    h (s.dropWhile p) = h s := by
  induction s with
  | nil => rfl
  | cons c s ih =>
      rw [List.dropWhile_cons]
      split
      · next hpc => rw [ih, hh.cons (hp c hpc)]
      · rfl

theorem rdropWhile {p : α → Bool} (hp : ∀ c, p c → sep c) (s : List α) :
    h (s.rdropWhile p) = h s := by
  induction s using List.reverseRecOn with
  | nil => rfl
  | append_singleton s c ih =>
      by_cases hpc : p c
      · rw [List.rdropWhile_concat_pos p s c hpc, ih, hh.snoc (hp c hpc)]
      · rw [List.rdropWhile_concat_neg p s c hpc]

end SplitsAt

/-! ### Transformations that keep separators -/

/-- The transformation acts on the texts before and after every separator, and leaves a separator
between them. -/
structure KeepsSeparators (sep : α → Bool) (g : List α → List α) : Prop where
  nil : g [] = []
  append : ∀ c, sep c → ∃ c', sep c' ∧ ∀ a b, g (a ++ c :: b) = g a ++ c' :: g b

namespace KeepsSeparators

variable {g g' : List α → List α}

theorem comp (hg : KeepsSeparators sep g) (hg' : KeepsSeparators sep g') :
    KeepsSeparators sep fun s => g (g' s) := by
  refine ⟨?_, fun c hc => ?_⟩
  · rw [hg'.nil, hg.nil]
  · obtain ⟨c', hc', heq'⟩ := hg'.append c hc
    obtain ⟨c'', hc'', heq''⟩ := hg.append c' hc'
    exact ⟨c'', hc'', fun a b => by rw [heq', heq'']⟩

/-- A text that ends with a separator is transformed for itself. -/
theorem append_left (hg : KeepsSeparators sep g) {a : List α}
    (ha : ∀ c, a.getLast? = some c → sep c) (b : List α) : g (a ++ b) = g a ++ g b := by
  induction a using List.reverseRecOn with
  | nil => rw [hg.nil, List.nil_append, List.nil_append]
  | append_singleton a c _ =>
      obtain ⟨c', -, heq⟩ := hg.append c (ha c (by simp))
      rw [heq a [], hg.nil, List.append_assoc, List.singleton_append, heq a b, List.append_assoc,
        List.singleton_append]

/-- A text that starts with a separator is transformed for itself. -/
theorem append_right (hg : KeepsSeparators sep g) (a : List α) {b : List α}
    (hb : ∀ c, b.head? = some c → sep c) : g (a ++ b) = g a ++ g b := by
  cases b with
  | nil => rw [hg.nil, List.append_nil, List.append_nil]
  | cons c b =>
      obtain ⟨c', -, heq⟩ := hg.append c (hb c rfl)
      have hself := heq [] b
      rw [hg.nil, List.nil_append, List.nil_append] at hself
      rw [heq a b, hself]

end KeepsSeparators

theorem SplitsAt.comp {h : List α → List β} (hh : SplitsAt sep h) {g : List α → List α}
    (hg : KeepsSeparators sep g) : SplitsAt sep fun s => h (g s) := by
  refine ⟨?_, fun a c b hc => ?_⟩
  · rw [hg.nil, hh.nil]
  · obtain ⟨c', hc', heq⟩ := hg.append c hc
    rw [heq a b, hh.append _ c' _ hc']

end Runs

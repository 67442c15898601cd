/-
**What a run is bound to do.**

* `Transition.served_of_rank_lt` — bounded waiting: a rank that every step lowers by the effort of
  the step, as long as the step does not serve, is used up by a run with enough effort.
-/

import CineGate.Transition
import Mathlib.Algebra.BigOperators.Group.List.Basic
import Mathlib.Algebra.GroupWithZero.Nat

set_option relaxedAutoImplicit false
set_option autoImplicit false

namespace Transition

variable {σ α : Type*} {step : σ → α → σ} {s : σ} {as : List α}
  {I : σ → Prop} {P S : σ → α → Prop} {r : σ → ℕ} {e : α → ℕ}

/-- **Bounded waiting.**  Suppose a step that does not serve (`S`) keeps `I` and lowers the rank `r`
by its effort `e`.  Then a run from `I` with more effort than rank has a step that serves. -/
theorem served_of_rank_lt
    (hstep : ∀ s a, I s → P s a → ¬ S s a →
      I (step s a) ∧ r (step s a) + e a ≤ r s)
    (h : I s) (has : Along step P s as) (hrank : r s < (as.map e).sum) :
    ∃ pre a rest, as = pre ++ a :: rest ∧ I (run step s pre) ∧ S (run step s pre) a := by
  induction as generalizing s with
  | nil => exact absurd hrank (Nat.not_lt_zero _)
  | cons a as ih =>
      by_cases hserves : S s a
      · exact ⟨[], a, as, rfl, h, hserves⟩
      · obtain ⟨h', hlower⟩ := hstep s a h has.1 hserves
        rw [List.map_cons, List.sum_cons] at hrank
        obtain ⟨pre, b, rest, rfl, hI, hb⟩ := ih h' has.2 (by omega)
        exact ⟨a :: pre, b, rest, rfl, hI, hb⟩

end Transition

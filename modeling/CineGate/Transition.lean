/-
**Runs of a deterministic labelled system, and invariants along them.**

Everything nondeterministic about a system — which party moves, what the environment answers, what
a clock shows — is put into a label, so that a step is a function of the state and the label and a
run is a list of labels.  A label that is not enabled leaves the state alone.

Main definitions:

* `Transition.run` — the state a run ends in;
* `Transition.Along` — a condition holds of every step of a run, in the state the step starts from;
* `Transition.Always` — a property holds in every state a run passes through.

Main results:

* `Transition.run_invariant`, `Transition.run_invariant_along` — the induction rules, without and
  with a condition on the steps;
* `Transition.run_rel` — a reflexive and transitive relation that every step respects relates the
  two ends of a run;
* `Transition.always_iff_along` — a property that one step keeps *exactly* under a condition holds
  throughout a run exactly when every step of the run meets the condition.
-/

import Mathlib.Data.List.Infix

set_option relaxedAutoImplicit false
set_option autoImplicit false

namespace Transition

variable {σ α : Type*} (step : σ → α → σ)

/-- The state the run `as` ends in when it starts from `s`. -/
def run (s : σ) (as : List α) : σ := as.foldl step s

@[simp] theorem run_nil (s : σ) : run step s [] = s := rfl

@[simp] theorem run_cons (s : σ) (a : α) (as : List α) :
    run step s (a :: as) = run step (step s a) as := rfl

theorem run_append (s : σ) (as bs : List α) :
    run step s (as ++ bs) = run step (run step s as) bs := by
  simp [run, List.foldl_append]

@[simp] theorem run_snoc (s : σ) (as : List α) (a : α) :
    run step s (as ++ [a]) = step (run step s as) a := by
  simp [run_append]

/-- `P` holds of every step of the run: of the state the step is taken in and of its label. -/
def Along (P : σ → α → Prop) : σ → List α → Prop
  | _, [] => True
  | s, a :: as => P s a ∧ Along P (step s a) as

/-- `I` holds in every state the run passes through, its two ends included. -/
def Always (I : σ → Prop) (s : σ) (as : List α) : Prop :=
  ∀ pre, pre <+: as → I (run step s pre)

variable {step} {s : σ} {as : List α} {P : σ → α → Prop} {I : σ → Prop}

@[simp] theorem along_nil : Along step P s [] := trivial

@[simp] theorem along_cons {a : α} :
    Along step P s (a :: as) ↔ P s a ∧ Along step P (step s a) as := Iff.rfl

theorem along_append {bs : List α} :
    Along step P s (as ++ bs) ↔ Along step P s as ∧ Along step P (run step s as) bs := by
  induction as generalizing s with
  | nil => simp
  | cons a as ih => simp [ih, and_assoc]

@[simp] theorem along_snoc {a : α} :
    Along step P s (as ++ [a]) ↔ Along step P s as ∧ P (run step s as) a := by
  simp [along_append]

theorem Along.of_prefix {pre : List α} (h : Along step P s as) (hpre : pre <+: as) :
    Along step P s pre := by
  obtain ⟨rest, rfl⟩ := hpre
  exact (along_append.1 h).1

theorem along_of_forall (h : ∀ a ∈ as, ∀ s, P s a) : Along step P s as := by
  induction as generalizing s with
  | nil => exact along_nil
  | cons a as ih =>
      exact ⟨h a List.mem_cons_self s, ih fun b hb => h b (List.mem_cons_of_mem a hb)⟩

/-- A condition that is weaker on every step. -/
theorem Along.imp {Q : σ → α → Prop} (hPQ : ∀ s a, P s a → Q s a) (h : Along step P s as) :
    Along step Q s as := by
  induction as generalizing s with
  | nil => exact along_nil
  | cons a as ih => exact ⟨hPQ s a h.1, ih h.2⟩

/-- Two conditions that hold of every step. -/
theorem Along.and {Q : σ → α → Prop} (h : Along step P s as) (h' : Along step Q s as) :
    Along step (fun s a => P s a ∧ Q s a) s as := by
  induction as generalizing s with
  | nil => exact along_nil
  | cons a as ih => exact ⟨⟨h.1, h'.1⟩, ih h.2 h'.2⟩

/-- Conditions that can be decided on a step can be decided along a run. -/
instance decidableAlong [∀ s a, Decidable (P s a)] : ∀ s as, Decidable (Along step P s as)
  | _, [] => inferInstanceAs (Decidable True)
  | s, a :: as =>
      let _ := decidableAlong (step s a) as
      inferInstanceAs (Decidable (P s a ∧ Along step P (step s a) as))

theorem Always.last (h : Always step I s as) : I (run step s as) := h as List.prefix_rfl

/-- What holds in every state holds of every step. -/
theorem Always.along (h : Always step I s as) : Along step (fun s _ => I s) s as := by
  induction as generalizing s with
  | nil => exact along_nil
  | cons a as ih =>
      refine ⟨h [] (List.nil_prefix), ih fun pre hpre => ?_⟩
      exact h (a :: pre) (List.cons_prefix_cons.2 ⟨rfl, hpre⟩)

theorem always_nil : Always step I s [] ↔ I s := by
  constructor
  · exact fun h => h.last
  · intro h pre hpre
    rw [List.prefix_nil.1 hpre]
    exact h

theorem always_snoc {a : α} :
    Always step I s (as ++ [a]) ↔ Always step I s as ∧ I (step (run step s as) a) := by
  constructor
  · intro h
    refine ⟨fun pre hpre => h pre (hpre.trans (List.prefix_append as [a])), ?_⟩
    simpa using h.last
  · rintro ⟨h, ha⟩ pre hpre
    rcases List.prefix_concat_iff.1 (by simpa using hpre) with rfl | hpre
    · simpa using ha
    · exact h pre hpre

/-- **The invariant rule**: what holds initially and is kept by every step holds after every run. -/
theorem run_invariant (hstep : ∀ s a, I s → I (step s a)) (h : I s) (as : List α) :
    I (run step s as) := by
  induction as generalizing s with
  | nil => exact h
  | cons a as ih => exact ih (hstep s a h)

/-- The invariant rule for runs whose steps all meet a condition. -/
theorem run_invariant_along (hstep : ∀ s a, I s → P s a → I (step s a)) (h : I s)
    (has : Along step P s as) : I (run step s as) := by
  induction as generalizing s with
  | nil => exact h
  | cons a as ih => exact ih (hstep s a h has.1) has.2

theorem always_of_along (hstep : ∀ s a, I s → P s a → I (step s a)) (h : I s)
    (has : Along step P s as) : Always step I s as :=
  fun _ hpre => run_invariant_along hstep h (has.of_prefix hpre)

/-- **The relational rule**: a reflexive and transitive relation that every step from an invariant
state respects relates the start of a run to its end. -/
theorem run_rel {R : σ → σ → Prop} (hrefl : ∀ s, R s s) (htrans : ∀ r s t, R r s → R s t → R r t)
    (hinv : ∀ s a, I s → I (step s a)) (hstep : ∀ s a, I s → R s (step s a)) (h : I s)
    (as : List α) : R s (run step s as) := by
  induction as generalizing s with
  | nil => exact hrefl s
  | cons a as ih => exact htrans _ _ _ (hstep s a h) (ih (hinv s a h))

/-- **The exact rule.**  Suppose `J` is an invariant of all steps, `I` holds initially, and from a
state with `J` and `I` a step keeps `I` exactly when `P` holds of it.  Then `I` holds throughout a
run exactly when every step of the run meets `P`. -/
theorem always_iff_along {J : σ → Prop} (hinv : ∀ s a, J s → I s → P s a → J (step s a))
    (hstep : ∀ s a, J s → I s → (I (step s a) ↔ P s a)) (hJ : J s) (hI : I s) (as : List α) :
    Always step I s as ↔ Along step P s as := by
  induction as using List.reverseRecOn with
  | nil => simpa [always_nil] using hI
  | append_singleton as a ih =>
      rw [always_snoc, along_snoc, ih]
      refine and_congr_right fun has => ?_
      have hJI : J (run step s as) ∧ I (run step s as) := by
        refine run_invariant_along (I := fun s => J s ∧ I s) ?_ ⟨hJ, hI⟩ has
        rintro t b ⟨htJ, htI⟩ hP
        exact ⟨hinv t b htJ htI hP, (hstep t b htJ htI).2 hP⟩
      exact hstep _ _ hJI.1 hJI.2

end Transition

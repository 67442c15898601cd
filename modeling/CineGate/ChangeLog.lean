/-
**Logs of changes.**

A log of entries `(old, new)` *replays* from one value to another when every entry starts where the
one before it ends and changes something.

* `ChangeLog.Replays` — the log leads from a value to a value;
* `ChangeLog.Replays.snoc` — a change is logged;
* `ChangeLog.Replays.isChain` — what that says about the entries one by one.
-/

import Mathlib.Logic.Basic

set_option relaxedAutoImplicit false
set_option autoImplicit false

universe u

namespace ChangeLog

variable {V : Type u} {differ : V → V → Prop}

/-- The entries lead from the first value to the last, and each of them changes its value. -/
inductive Replays (differ : V → V → Prop) : V → List (V × V) → V → Prop
  | nil (a : V) : Replays differ a [] a
  | cons {a b c : V} {log : List (V × V)} (hdiffer : differ a b) (hrest : Replays differ b log c) :
      Replays differ a ((a, b) :: log) c

theorem Replays.snoc {a b c : V} {log : List (V × V)} (h : Replays differ a log b)
    (hdiffer : differ b c) : Replays differ a (log ++ [(b, c)]) c := by
  induction h with
  | nil a => exact .cons hdiffer (.nil c)
  | cons hfirst _ ih => exact .cons hfirst (ih hdiffer)

/-- A log from a first value to a current one, entry by entry. -/
structure IsChain (differ : V → V → Prop) (first : V) (log : List (V × V)) (current : V) :
    Prop where
  head : ∀ entry, log.head? = some entry → entry.1 = first
  link : ∀ i entry next, log[i]? = some entry → log[i + 1]? = some next → next.1 = entry.2
  differ : ∀ entry ∈ log, differ entry.1 entry.2
  last : current = (log.getLast?.map Prod.snd).getD first

theorem Replays.isChain {a b : V} {log : List (V × V)} (h : Replays differ a log b) :
    IsChain differ a log b := by
  induction h with
  | nil a =>
      refine ⟨fun _ h => (by cases h), fun _ _ _ h => (by cases h), fun _ h => (by cases h), rfl⟩
  | @cons a b c log hdiffer hrest ih =>
      refine ⟨fun entry h => ?_, fun i entry next hentry hnext => ?_, fun entry hentry => ?_, ?_⟩
      · cases h
        rfl
      · cases i with
        | zero =>
            cases hentry
            exact ih.head next (by rw [List.head?_eq_getElem?]; exact hnext)
        | succ i => exact ih.link i entry next hentry hnext
      · rcases List.mem_cons.1 hentry with rfl | hentry
        · exact hdiffer
        · exact ih.differ entry hentry
      · rw [ih.last]
        cases log with
        | nil => rfl
        | cons entry log =>
            rw [List.getLast?_cons_cons, List.getLast?_cons]
            rfl
end ChangeLog

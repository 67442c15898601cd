/-
**The similarity ratio of `difflib.SequenceMatcher`, without junk.**

The matcher finds the longest block two sequences have in common — the earliest one in the first
sequence, and then the earliest one in the second — and goes on to the left and to the right of it.
The ratio is twice the number of matched symbols over the number of all symbols.

* `SequenceMatcher.longestMatch` — `find_longest_match` on the whole of both sequences;
* `SequenceMatcher.matched` — the total size of the matching blocks;
* `SequenceMatcher.ratioAtLeast` — a lower bound on the ratio, in integers.
-/

import Mathlib.Data.List.Basic

set_option relaxedAutoImplicit false
set_option autoImplicit false

namespace SequenceMatcher

variable {α : Type*} [DecidableEq α]

/-- The length of the longest common prefix. -/
def commonPrefix : List α → List α → ℕ
  | a :: as, b :: bs => if a = b then commonPrefix as bs + 1 else 0
  | _, _ => 0

/-- The longest block at the start of `as` that occurs in the second sequence: its position there,
counted from `j`, and its length. -/
def bestStart (as : List α) : ℕ → List α → ℕ × ℕ
  | j, [] => (j, 0)
  | j, b :: bs =>
      let here := commonPrefix as (b :: bs)
      let later := bestStart as (j + 1) bs
      if here < later.2 then later else (j, here)

/-- The longest common block: its two positions, the first counted from `i`, and its length. -/
def longestMatch : ℕ → List α → List α → ℕ × ℕ × ℕ
  | i, [], _ => (i, 0, 0)
  | i, a :: as, bs =>
      let here := bestStart (a :: as) 0 bs
      let later := longestMatch (i + 1) as bs
      if here.2 < later.2.2 then later else (i, here.1, here.2)

/-- The total size of the matching blocks.  Each call on a part of the first sequence is on a
shorter one, so a fuel of its length is enough. -/
def matchedFrom : ℕ → List α → List α → ℕ
  | 0, _, _ => 0
  | fuel + 1, as, bs =>
      match longestMatch 0 as bs with
      | (_, _, 0) => 0
      | (i, j, k + 1) =>
          k + 1 + matchedFrom fuel (as.take i) (bs.take j) +
            matchedFrom fuel (as.drop (i + k + 1)) (bs.drop (j + k + 1))

/-- The total size of the matching blocks of the two sequences. -/
def matched (as bs : List α) : ℕ := matchedFrom as.length as bs

/-- `ratio() >= percent / 100`; two empty sequences have the ratio one.  On sequences of fewer than
`2 ^ 40` symbols the quotient that Python rounds lies on the same side of the bound. -/
def ratioAtLeast (percent : ℕ) (as bs : List α) : Bool :=
  if as.length + bs.length = 0 then percent ≤ 100
  else percent * (as.length + bs.length) ≤ 100 * (2 * matched as bs)

end SequenceMatcher

/-
**The best entry under each key, in order.**

Entries have a key and a rank; under each key the entry with the least rank is kept, the first one
of them, and what is kept is sorted by its rank.

Main definitions:

* `Ranking.best`, `Ranking.ranked` — the entries that are kept, and the same in order;
* `Ranking.ranksOf` — the ranks under a key.

Main results:

* `Ranking.mem_ranked`, `Ranking.exists_ranked` — what is kept has the least rank under its key, and
  every key keeps something;
* `Ranking.pairwise_ranked` — the order is strict when a rank belongs to one key;
* `Ranking.ranks_perm`, `Ranking.ranked_perm` — **the order of the entries does not matter**;
* `Ranking.mem_take_insertionSort_iff` — what is among the first ones when a list is sorted;
* `Ranking.take_insertionSort_of_notMem` — whoever is not among the first `n` has `n` of them in
  front.
-/

import CineGate.OrderedDict
import Mathlib.Data.List.Induction
import Mathlib.Data.List.Sort
import Mathlib.Order.Bounds.Basic

set_option relaxedAutoImplicit false
set_option autoImplicit false

namespace Ranking

variable {ι ρ α : Type*} [DecidableEq ι] [LinearOrder ρ]

/-- An entry is kept when it is the first one under its key or has a smaller rank than the one
before. -/
def keep (best : OrderedDict ι (ρ × α)) (e : ι × ρ × α) : OrderedDict ι (ρ × α) :=
  match best.get? e.1 with
  | none => best.set e.1 e.2
  | some previous => if e.2.1 < previous.1 then best.set e.1 e.2 else best

/-- The best entry under each key. -/
def best (entries : List (ι × ρ × α)) : OrderedDict ι (ρ × α) := entries.foldl keep .empty

/-- The best entries, in the order of their ranks. -/
def ranked (entries : List (ι × ρ × α)) : List (ρ × α) :=
  (best entries).values.insertionSort fun a b => a.1 ≤ b.1

/-- The ranks under a key. -/
def ranksOf (entries : List (ι × ρ × α)) (k : ι) : Set ρ := {r | ∃ a, (k, r, a) ∈ entries}

/-- A rank belongs to one key. -/
def Separated (entries : List (ι × ρ × α)) : Prop :=
  ∀ e ∈ entries, ∀ e' ∈ entries, e.2.1 = e'.2.1 → e.1 = e'.1

variable {entries entries' : List (ι × ρ × α)} {k : ι} {r : ρ} {a : α}

theorem best_snoc (entries : List (ι × ρ × α)) (e : ι × ρ × α) :
    best (entries ++ [e]) = keep (best entries) e := by
  unfold best
  rw [List.foldl_append]
  rfl

omit [DecidableEq ι] [LinearOrder ρ] in
theorem mem_ranksOf_snoc {e : ι × ρ × α} :
    r ∈ ranksOf (entries ++ [e]) k ↔ r ∈ ranksOf entries k ∨ (e.1 = k ∧ e.2.1 = r) := by
  change (∃ a, (k, r, a) ∈ entries ++ [e]) ↔ _
  simp only [List.mem_append, List.mem_singleton]
  constructor
  · rintro ⟨a, ha | rfl⟩
    · exact .inl ⟨a, ha⟩
    · exact .inr ⟨rfl, rfl⟩
  · rintro (⟨a, ha⟩ | ⟨rfl, rfl⟩)
    · exact ⟨a, .inl ha⟩
    · exact ⟨e.2.2, .inr rfl⟩

omit [DecidableEq ι] in
/-- Another key, or a rank that is no better, changes nothing. -/
theorem isLeast_snoc_of_le {e : ι × ρ × α} (h : IsLeast (ranksOf entries k) r)
    (hle : e.1 = k → r ≤ e.2.1) :
    IsLeast (ranksOf (entries ++ [e]) k) r := by
  refine ⟨mem_ranksOf_snoc.2 (.inl h.1), fun r' hr' => ?_⟩
  rcases mem_ranksOf_snoc.1 hr' with hr' | ⟨hk, rfl⟩
  · exact h.2 hr'
  · exact hle hk

/-- **What is kept under a key** is an entry with the least rank under it, or there is none. -/
theorem best_spec (entries : List (ι × ρ × α)) (k : ι) :
    match (best entries).get? k with
    | none => ranksOf entries k = ∅
    | some x => (k, x) ∈ entries ∧ IsLeast (ranksOf entries k) x.1 := by
  induction entries using List.reverseRecOn with
  | nil =>
      refine Set.eq_empty_of_forall_notMem fun r hr => ?_
      obtain ⟨a, ha⟩ := hr
      cases ha
  | append_singleton entries e ih =>
      rw [best_snoc]
      by_cases hk : k = e.1
      · subst hk
        -- the new entry is the least one under its key when it is stored
        have hstored : (∀ r ∈ ranksOf entries e.1, e.2.1 ≤ r) →
            (e.1, e.2) ∈ entries ++ [e] ∧ IsLeast (ranksOf (entries ++ [e]) e.1) e.2.1 := by
          intro hle
          refine ⟨List.mem_append_right _ List.mem_cons_self, mem_ranksOf_snoc.2 (.inr ⟨rfl, rfl⟩),
            ?_⟩
          intro r hr
          rcases mem_ranksOf_snoc.1 hr with hr | ⟨-, rfl⟩
          · exact hle r hr
          · exact le_refl _
        unfold keep
        cases hget : (best entries).get? e.1 with
        | none =>
            rw [hget] at ih
            dsimp only at ih ⊢
            rw [OrderedDict.get?_set_self]
            refine hstored fun r hr => ?_
            rw [ih] at hr
            exact absurd hr (Set.notMem_empty r)
        | some previous =>
            rw [hget] at ih
            dsimp only at ih ⊢
            by_cases hlt : e.2.1 < previous.1
            · rw [if_pos hlt, OrderedDict.get?_set_self]
              exact hstored fun r hr => hlt.le.trans (ih.2.2 hr)
            · rw [if_neg hlt, hget]
              exact ⟨List.mem_append_left _ ih.1, isLeast_snoc_of_le ih.2 fun _ => not_lt.1 hlt⟩
      · have hsame : (keep (best entries) e).get? k = (best entries).get? k := by
          unfold keep
          cases (best entries).get? e.1 with
          | none => exact OrderedDict.get?_set_of_ne hk
          | some previous =>
              dsimp only
              split
              · exact OrderedDict.get?_set_of_ne hk
              · rfl
        rw [hsame]
        cases hget : (best entries).get? k with
        | none =>
            rw [hget] at ih
            dsimp only at ih ⊢
            refine Set.eq_empty_of_forall_notMem fun r hr => ?_
            rcases mem_ranksOf_snoc.1 hr with hr | ⟨h, -⟩
            · rw [ih] at hr
              exact absurd hr (Set.notMem_empty r)
            · exact hk h.symm
        | some x =>
            rw [hget] at ih
            exact ⟨List.mem_append_left _ ih.1, isLeast_snoc_of_le ih.2 fun h => absurd h.symm hk⟩

/-! ### In order -/

theorem mem_ranked_iff {x : ρ × α} : x ∈ ranked entries ↔ ∃ k, (best entries).get? k = some x := by
  unfold ranked
  rw [(List.perm_insertionSort _ _).mem_iff, OrderedDict.mem_values]

/-- **What is kept** is an entry with the least rank under its key. -/
theorem mem_ranked {x : ρ × α} (h : x ∈ ranked entries) :
    ∃ k, (k, x) ∈ entries ∧ IsLeast (ranksOf entries k) x.1 := by
  obtain ⟨k, hk⟩ := mem_ranked_iff.1 h
  have hspec := best_spec entries k
  rw [hk] at hspec
  exact ⟨k, hspec⟩

/-- **Every key keeps something.** -/
theorem exists_ranked (h : r ∈ ranksOf entries k) :
    ∃ x ∈ ranked entries, (k, x) ∈ entries ∧ x.1 ≤ r := by
  have hspec := best_spec entries k
  cases hget : (best entries).get? k with
  | none =>
      rw [hget] at hspec
      rw [hspec] at h
      exact absurd h (Set.notMem_empty r)
  | some x =>
      rw [hget] at hspec
      exact ⟨x, mem_ranked_iff.2 ⟨k, hget⟩, hspec.1, hspec.2.2 h⟩

theorem mem_ranks_iff : r ∈ (ranked entries).map Prod.fst ↔ ∃ k, IsLeast (ranksOf entries k) r := by
  rw [List.mem_map]
  constructor
  · rintro ⟨x, hx, rfl⟩
    obtain ⟨k, -, hleast⟩ := mem_ranked hx
    exact ⟨k, hleast⟩
  · rintro ⟨k, hleast⟩
    have hspec := best_spec entries k
    cases hget : (best entries).get? k with
    | none =>
        rw [hget] at hspec
        have hmem := hleast.1
        rw [hspec] at hmem
        exact absurd hmem (Set.notMem_empty r)
    | some x =>
        rw [hget] at hspec
        exact ⟨x, mem_ranked_iff.2 ⟨k, hget⟩, hspec.2.unique hleast⟩

/-- Two entries that are kept have different ranks. -/
theorem nodup_ranks (h : Separated entries) : ((best entries).values.map Prod.fst).Nodup := by
  have hmem : ∀ e ∈ (best entries).items, e ∈ entries := by
    intro e he
    have hspec := best_spec entries e.1
    rw [OrderedDict.get?_eq_some.2 he] at hspec
    exact hspec.1
  unfold OrderedDict.values
  rw [List.map_map]
  refine List.Nodup.map_on ?_ (best entries).nodup.of_map
  intro e he e' he' heq
  exact OrderedDict.eq_of_mem he he' (h e (hmem e he) e' (hmem e' he') heq)

/-- **The order is strict.** -/
theorem pairwise_ranked (h : Separated entries) : (ranked entries).Pairwise fun x y =>
    x.1 < y.1 := by
  have hsorted : (ranked entries).Pairwise fun x y => x.1 ≤ y.1 := by
    have htotal : Std.Total fun x y : ρ × α => x.1 ≤ y.1 := ⟨fun x y => le_total x.1 y.1⟩
    have htrans : IsTrans (ρ × α) fun x y => x.1 ≤ y.1 := ⟨fun _ _ _ h h' => h.trans h'⟩
    exact List.pairwise_insertionSort _ _
  have hnodup : ((ranked entries).map Prod.fst).Nodup :=
    ((List.perm_insertionSort _ _).map Prod.fst).nodup_iff.2 (nodup_ranks h)
  exact (hsorted.and (List.pairwise_map.1 hnodup)).imp fun h => lt_of_le_of_ne h.1 h.2

omit [DecidableEq ι] [LinearOrder ρ] in
theorem ranksOf_perm (h : entries.Perm entries') (k : ι) :
    ranksOf entries k = ranksOf entries' k := by
  ext r
  exact exists_congr fun a => h.mem_iff

omit [DecidableEq ι] [LinearOrder ρ] in
theorem Separated.perm (hs : Separated entries) (h : entries.Perm entries') : Separated entries' :=
  fun e he e' he' => hs e (h.mem_iff.2 he) e' (h.mem_iff.2 he')

/-- **The ranks do not depend on the order of the entries.** -/
theorem ranks_perm (hs : Separated entries) (h : entries.Perm entries') :
    (ranked entries).map Prod.fst = (ranked entries').map Prod.fst := by
  have hlt := List.pairwise_map.2 (pairwise_ranked hs)
  have hlt' := List.pairwise_map.2 (pairwise_ranked (hs.perm h))
  refine List.Perm.eq_of_pairwise (fun r r' _ _ hr hr' => absurd hr' hr.asymm) hlt hlt' ?_
  refine (List.perm_ext_iff_of_nodup (hlt.imp ne_of_lt) (hlt'.imp ne_of_lt)).2 fun r => ?_
  rw [mem_ranks_iff, mem_ranks_iff]
  exact exists_congr fun k => by rw [ranksOf_perm h k]

/-- When entries of one rank agree, **what is kept does not depend on the order either**. -/
theorem ranked_perm (hs : Separated entries) (h : entries.Perm entries')
    (hagree : ∀ e ∈ entries, ∀ e' ∈ entries, e.2.1 = e'.2.1 → e.2.2 = e'.2.2) :
    ranked entries = ranked entries' := by
  have hranks := ranks_perm hs h
  have hlength : (ranked entries).length = (ranked entries').length := by
    simpa using congrArg List.length hranks
  refine List.ext_getElem hlength fun i hi hi' => ?_
  obtain ⟨k, hmem, -⟩ := mem_ranked (List.getElem_mem hi)
  obtain ⟨k', hmem', -⟩ := mem_ranked (List.getElem_mem hi')
  have hrank : ((ranked entries)[i]).1 = ((ranked entries')[i]).1 := by
    have hget := congrArg (fun l => l[i]?) hranks
    simpa [hi, hi'] using hget
  exact Prod.ext hrank (hagree _ hmem _ (h.mem_iff.2 hmem') hrank)

omit [DecidableEq ι] in
/-- **What is among the first `n`** of a sorted list has fewer than `n` before it. -/
theorem mem_take_iff {β : Type*} [LinearOrder β] {key : ι → β} {l : List ι}
    (hsorted : l.Pairwise fun x y => key x < key y) {x : ι} (hx : x ∈ l) (n : ℕ) :
    x ∈ l.take n ↔ (l.filter fun y => key y < key x).length < n := by
  induction l generalizing n with
  | nil => cases hx
  | cons y l ih =>
      obtain ⟨hlt, hrest⟩ := List.pairwise_cons.1 hsorted
      cases n with
      | zero => simp
      | succ n =>
          rw [List.take_succ_cons, List.mem_cons]
          rcases List.mem_cons.1 hx with rfl | hmem
          · -- nothing is before the first one
            have hnone : (x :: l).filter (fun y => key y < key x) = [] := by
              refine List.filter_eq_nil_iff.2 fun y hy => ?_
              rcases List.mem_cons.1 hy with rfl | hy
              · simp
              · simpa using (hlt y hy).le
            rw [hnone]
            simp
          · have hne : x ≠ y := fun heq => lt_irrefl (key x) (heq ▸ hlt x hmem)
            rw [or_iff_right hne, ih hrest hmem,
              List.filter_cons_of_pos (by simpa using hlt x hmem), List.length_cons]
            omega

omit [DecidableEq ι] in
/-- The same for a list that is sorted by a key of its own for each element. -/
theorem mem_take_insertionSort_iff {β : Type*} [LinearOrder β] {key : ι → β} {l : List ι}
    (hnodup : (l.map key).Nodup) {x : ι} (hx : x ∈ l) (n : ℕ) :
    x ∈ (l.insertionSort fun y z => key y ≤ key z).take n ↔
    (l.filter fun y => key y < key x).length < n := by
  have hperm := List.perm_insertionSort (fun y z => key y ≤ key z) l
  have hsorted : (l.insertionSort fun y z => key y ≤ key z).Pairwise fun y z => key y < key z := by
    have htotal : Std.Total fun y z : ι => key y ≤ key z := ⟨fun y z => le_total (key y) (key z)⟩
    have htrans : IsTrans ι fun y z => key y ≤ key z := ⟨fun _ _ _ h h' => h.trans h'⟩
    have hdistinct := List.pairwise_map.1 ((hperm.map key).nodup_iff.2 hnodup)
    exact ((List.pairwise_insertionSort (fun y z => key y ≤ key z) l).and hdistinct).imp
      fun h => lt_of_le_of_ne h.1 h.2
  rw [mem_take_iff hsorted (hperm.mem_iff.2 hx), (hperm.filter _).length_eq]

omit [DecidableEq ι] in
/-- **Whoever is not among the first `n`** has `n` in front. -/
theorem take_insertionSort_of_notMem {rel : ι → ι → Prop} [DecidableRel rel] [Std.Total rel]
    [IsTrans ι rel] {l : List ι} {x : ι} (hx : x ∈ l) {n : ℕ}
    (hout : x ∉ (l.insertionSort rel).take n) :
    ((l.insertionSort rel).take n).length = n ∧ ∀ y ∈ (l.insertionSort rel).take n, rel y x := by
  have hsplit := List.take_append_drop n (l.insertionSort rel)
  have hmem : x ∈ (l.insertionSort rel).drop n := by
    have hx : x ∈ l.insertionSort rel := (List.mem_insertionSort rel).2 hx
    rw [← hsplit, List.mem_append] at hx
    exact hx.resolve_left hout
  have hpos : 0 < ((l.insertionSort rel).drop n).length := List.length_pos_of_mem hmem
  have hsorted := List.pairwise_insertionSort rel l
  rw [← hsplit, List.pairwise_append] at hsorted
  refine ⟨?_, fun y hy => hsorted.2.2 y hy x hmem⟩
  rw [List.length_drop] at hpos
  rw [List.length_take]
  omega

end Ranking

/-
**Dictionaries that remember the order of their keys.**

An ordered dictionary is a list of entries, the oldest first, in which no key occurs twice.

Main definitions:

* `OrderedDict`, `OrderedDict.get?` — the entries, and the value under a key;
* `OrderedDict.putLast` — a value is stored, and its key becomes the newest;
* `OrderedDict.set`, `OrderedDict.values` — a value is stored in its place, and all the values;
* `OrderedDict.sweep` — the oldest entries that a function gives up are removed, up to the first one
  that it keeps;
* `OrderedDict.trim` — the oldest entries are removed until fewer than a bound are left.

Main results:

* `OrderedDict.get?_putLast_self`, `OrderedDict.get?_set_self` and their siblings — what is stored;
* `OrderedDict.get?_sweep`, `OrderedDict.get?_trim` — what happens to each key;
* `OrderedDict.length_putLast`, `OrderedDict.length_trim_lt` — how many keys there are.
-/

import Mathlib.Data.List.Nodup

set_option relaxedAutoImplicit false
set_option autoImplicit false

/-- Entries in the order of their keys, the oldest first; no key occurs twice. -/
structure OrderedDict (κ υ : Type*) where
  items : List (κ × υ)
  nodup : (items.map Prod.fst).Nodup

namespace OrderedDict

variable {κ υ : Type*}

/-- No keys. -/
def empty : OrderedDict κ υ := ⟨[], List.nodup_nil⟩

/-- The number of keys. -/
def length (d : OrderedDict κ υ) : ℕ := d.items.length

variable [DecidableEq κ]

/-- The value under a key. -/
def get? (d : OrderedDict κ υ) (k : κ) : Option υ := (d.items.find? fun e => e.1 = k).map Prod.snd

variable {d d' : OrderedDict κ υ} {k k' : κ} {v : υ}

omit [DecidableEq κ] in
theorem eq_of_mem {e e' : κ × υ} (he : e ∈ d.items) (he' : e' ∈ d.items) (h : e.1 = e'.1) :
    e = e' :=
  List.inj_on_of_nodup_map d.nodup he he' h

theorem get?_eq_some : d.get? k = some v ↔ (k, v) ∈ d.items := by
  unfold get?
  rw [Option.map_eq_some_iff]
  constructor
  · rintro ⟨⟨k', v'⟩, hfind, rfl⟩
    have hkey : k' = k := by simpa using List.find?_some hfind
    rw [← hkey]
    exact List.mem_of_find?_eq_some hfind
  · intro hmem
    cases hfind : d.items.find? fun e => e.1 = k with
    | none =>
        have hne := List.find?_eq_none.1 hfind (k, v) hmem
        simp at hne
    | some e =>
        have hkey : e.1 = k := by simpa using List.find?_some hfind
        exact ⟨e, rfl, congrArg Prod.snd (eq_of_mem (List.mem_of_find?_eq_some hfind) hmem hkey)⟩

theorem get?_eq_none : d.get? k = none ↔ ∀ v, (k, v) ∉ d.items := by
  constructor
  · intro h v hmem
    rw [get?_eq_some.2 hmem] at h
    cases h
  · intro h
    cases hget : d.get? k with
    | none => rfl
    | some v => exact absurd (get?_eq_some.1 hget) (h v)

/-- Two dictionaries with the same entries under a key. -/
theorem get?_congr (h : ∀ v, (k, v) ∈ d.items ↔ (k, v) ∈ d'.items) : d.get? k = d'.get? k := by
  ext v
  rw [get?_eq_some, get?_eq_some, h]

/-! ### Storing a value -/

/-- `d[k] = v`, with `k` moved to the end. -/
def putLast (d : OrderedDict κ υ) (k : κ) (v : υ) : OrderedDict κ υ where
  items := d.items.filter (fun e => e.1 ≠ k) ++ [(k, v)]
  nodup := by
    have hold : ((d.items.filter fun e => e.1 ≠ k).map Prod.fst).Nodup :=
      d.nodup.sublist (List.filter_sublist.map Prod.fst)
    simp only [List.map_append, List.map_cons, List.map_nil]
    refine List.nodup_append.2 ⟨hold, List.nodup_singleton k, ?_⟩
    intro a ha b hb
    obtain ⟨e, he, rfl⟩ := List.mem_map.1 ha
    rw [List.mem_singleton.1 hb]
    simpa using (List.mem_filter.1 he).2

theorem mem_putLast {e : κ × υ} :
    e ∈ (d.putLast k v).items ↔ (e ∈ d.items ∧ e.1 ≠ k) ∨ e = (k, v) := by
  simp [putLast]

@[simp] theorem get?_putLast_self : (d.putLast k v).get? k = some v :=
  get?_eq_some.2 (mem_putLast.2 (.inr rfl))

theorem get?_putLast_of_ne (h : k' ≠ k) : (d.putLast k v).get? k' = d.get? k' := by
  refine get?_congr fun w => ?_
  rw [mem_putLast]
  constructor
  · rintro (hmem | heq)
    · exact hmem.1
    · exact absurd (congrArg Prod.fst heq) h
  · exact fun hmem => .inl ⟨hmem, h⟩

theorem length_putLast_of_none (h : d.get? k = none) : (d.putLast k v).length = d.length + 1 := by
  have hfilter : d.items.filter (fun e => e.1 ≠ k) = d.items := by
    refine List.filter_eq_self.2 fun e he => ?_
    have hne : e.1 ≠ k := fun heq => get?_eq_none.1 h e.2 (heq ▸ he)
    simpa using hne
  unfold length putLast
  dsimp only
  rw [hfilter, List.length_append]
  rfl

theorem length_putLast_of_some {w : υ} (h : d.get? k = some w) :
    (d.putLast k v).length ≤ d.length := by
  have hlt : (d.items.filter fun e => e.1 ≠ k).length < d.items.length :=
    List.length_filter_lt_length_iff_exists.2 ⟨(k, w), get?_eq_some.1 h, by simp⟩
  simp only [length, putLast, List.length_append, List.length_singleton]
  omega

/-- `d[k] = v`: a key that is there keeps its place. -/
def set (d : OrderedDict κ υ) (k : κ) (v : υ) : OrderedDict κ υ :=
  if hkey : (d.get? k).isSome then
    { items := d.items.map fun e => if e.1 = k then (k, v) else e
      nodup := by
        have hkeys : (d.items.map fun e => if e.1 = k then (k, v) else e).map Prod.fst =
            d.items.map Prod.fst := by
          rw [List.map_map]
          refine List.map_congr_left fun e _ => ?_
          by_cases he : e.1 = k <;> simp [he]
        rw [hkeys]
        exact d.nodup }
  else d.putLast k v

theorem mem_set {e : κ × υ} : e ∈ (d.set k v).items ↔ (e ∈ d.items ∧ e.1 ≠ k) ∨ e = (k, v) := by
  unfold set
  split
  · next hkey =>
      obtain ⟨w, hw⟩ := Option.isSome_iff_exists.1 hkey
      simp only [List.mem_map]
      constructor
      · rintro ⟨e', he', rfl⟩
        by_cases h : e'.1 = k
        · exact .inr (if_pos h)
        · rw [if_neg h]
          exact .inl ⟨he', h⟩
      · rintro (⟨he, h⟩ | rfl)
        · exact ⟨e, he, if_neg h⟩
        · exact ⟨(k, w), get?_eq_some.1 hw, if_pos rfl⟩
  · exact mem_putLast

@[simp] theorem get?_set_self : (d.set k v).get? k = some v := get?_eq_some.2 (mem_set.2 (.inr rfl))

theorem get?_set_of_ne (h : k' ≠ k) : (d.set k v).get? k' = d.get? k' := by
  refine get?_congr fun w => ?_
  rw [mem_set]
  constructor
  · rintro (hmem | heq)
    · exact hmem.1
    · exact absurd (congrArg Prod.fst heq) h
  · exact fun hmem => .inl ⟨hmem, h⟩

/-- The values, in the order of their keys. -/
def values (d : OrderedDict κ υ) : List υ := d.items.map Prod.snd

theorem mem_values : v ∈ d.values ↔ ∃ k, d.get? k = some v := by
  unfold values
  rw [List.mem_map]
  constructor
  · rintro ⟨e, he, rfl⟩
    exact ⟨e.1, get?_eq_some.2 he⟩
  · rintro ⟨k, hk⟩
    exact ⟨(k, v), get?_eq_some.1 hk, rfl⟩

/-! ### Removing the oldest keys -/

/-- The entries without the oldest ones that `f` gives up; the first one that it keeps has the value
that `f` gives. -/
def sweepItems (f : υ → Option υ) : List (κ × υ) → List (κ × υ)
  | [] => []
  | (k, v) :: rest =>
      match f v with
      | none => sweepItems f rest
      | some v' => (k, v') :: rest

omit [DecidableEq κ] in
theorem keys_sweepItems (f : υ → Option υ) (items : List (κ × υ)) :
    (sweepItems f items).map Prod.fst <:+ items.map Prod.fst := by
  induction items with
  | nil => exact List.suffix_refl _
  | cons e rest ih =>
      obtain ⟨k, v⟩ := e
      unfold sweepItems
      split
      · exact ih.trans (List.suffix_cons _ _)
      · exact List.suffix_refl _

/-- The keys from the oldest one on are removed, as long as `f` gives them up. -/
def sweep (f : υ → Option υ) (d : OrderedDict κ υ) : OrderedDict κ υ where
  items := sweepItems f d.items
  nodup := d.nodup.sublist (keys_sweepItems f d.items).sublist

/-- **A swept key is as it was, or has what `f` gives.** -/
theorem get?_sweep (f : υ → Option υ) (d : OrderedDict κ υ) (k : κ) :
    (d.sweep f).get? k = d.get? k ∨ ∃ v, d.get? k = some v ∧ (d.sweep f).get? k = f v := by
  obtain ⟨items, hnodup⟩ := d
  simp only [sweep, get?]
  induction items with
  | nil => exact .inl rfl
  | cons e rest ih =>
      obtain ⟨k₀, v₀⟩ := e
      obtain ⟨hnew, hrest⟩ := List.nodup_cons.1 hnodup
      unfold sweepItems
      by_cases hk : k₀ = k
      · refine .inr ⟨v₀, by simp [hk], ?_⟩
        cases hf : f v₀ with
        | some v' => simp [hk]
        | none =>
            -- the key does not occur again
            rw [Option.map_eq_none_iff, List.find?_eq_none]
            rintro e he heq
            have hkey : e.1 = k₀ := by rw [hk]; simpa using heq
            exact hnew ((keys_sweepItems f rest).mem (List.mem_map.2 ⟨e, he, hkey⟩))
      · cases hf : f v₀ with
        | some v' => exact .inl (by simp [hk])
        | none => simpa [hk] using ih hrest

/-- The oldest keys are removed until fewer than `n` are left. -/
def trim (n : ℕ) (d : OrderedDict κ υ) : OrderedDict κ υ where
  items := d.items.drop (d.items.length + 1 - n)
  nodup := d.nodup.sublist ((List.drop_sublist _ _).map Prod.fst)

/-- The entries that `trim` removes. -/
def trimmed (n : ℕ) (d : OrderedDict κ υ) : List (κ × υ) := d.items.take (d.items.length + 1 - n)

omit [DecidableEq κ] in
theorem length_trim_lt {n : ℕ} (hn : 0 < n) (d : OrderedDict κ υ) : (d.trim n).length < n := by
  simp only [length, trim, List.length_drop]
  omega

/-- **A trimmed key is as it was, or was removed.** -/
theorem get?_trim (n : ℕ) (d : OrderedDict κ υ) (k : κ) :
    (d.trim n).get? k = d.get? k ∨ (d.trim n).get? k = none ∧ ∃ v, d.get? k = some v ∧
    (k, v) ∈ d.trimmed n := by
  have hmem : ∀ e, e ∈ d.items ↔ e ∈ d.trimmed n ∨ e ∈ (d.trim n).items := by
    intro e
    rw [trimmed, trim, ← List.mem_append, List.take_append_drop]
  cases htrim : (d.trim n).get? k with
  | some v =>
      have hv := get?_eq_some.1 htrim
      exact .inl (get?_eq_some.2 ((hmem _).2 (.inr hv))).symm
  | none =>
      cases hget : d.get? k with
      | none => exact .inl rfl
      | some v =>
          refine .inr ⟨rfl, v, rfl, ?_⟩
          exact ((hmem _).1 (get?_eq_some.1 hget)).resolve_right (get?_eq_none.1 htrim v)

end OrderedDict

/-
**Tables with a primary key.**

A table is a list of rows in strictly ascending order of their keys.  The order is a field of the
structure, so two rows of one table never share a key, and a query that asks for rows in key order
is a filter.

Main definitions:

* `KeyedTable` — rows in strictly ascending key order;
* `KeyedTable.find?` — the row of a key;
* `KeyedTable.modify`, `KeyedTable.modifyAt` — update every row, or the row of one key, by a
  function that leaves the key alone;
* `KeyedTable.insert` — add a row whose key is new;
* `KeyedTable.freshKey` — a key above every key of the table.

Main results:

* `KeyedTable.find?_eq_some`, `KeyedTable.ext_key` — the key determines the row;
* `KeyedTable.find?_modify`, `KeyedTable.find?_modifyAt`, `KeyedTable.find?_insert` — what a lookup
  sees after an update;
* `KeyedTable.filter_split` — a sorted range splits at a key inside it.
-/

import Mathlib.Order.Lattice
import Mathlib.Data.List.Basic
import Mathlib.Data.Nat.Basic
import Mathlib.Tactic.Basic

set_option relaxedAutoImplicit false
set_option autoImplicit false

/-- A table: rows in strictly ascending order of the primary key `key`. -/
structure KeyedTable (ρ : Type*) {κ : Type*} [LinearOrder κ] (key : ρ → κ) where
  rows : List ρ
  ordered : rows.Pairwise fun a b => key a < key b

namespace KeyedTable

variable {ρ κ : Type*} [LinearOrder κ] {key : ρ → κ}

instance : Membership ρ (KeyedTable ρ key) := ⟨fun t r => r ∈ t.rows⟩

@[simp] theorem mem_rows {t : KeyedTable ρ key} {r : ρ} : r ∈ t.rows ↔ r ∈ t := Iff.rfl

@[ext] theorem ext {t u : KeyedTable ρ key} (h : t.rows = u.rows) : t = u := by
  cases t; cases u; cases h; rfl

/-- The table without rows. -/
def empty : KeyedTable ρ key := ⟨[], List.Pairwise.nil⟩

@[simp] theorem notMem_empty (r : ρ) : r ∉ (empty : KeyedTable ρ key) := by
  intro h; cases h

/-- The key determines the row. -/
theorem ext_key (t : KeyedTable ρ key) {r s : ρ} (hr : r ∈ t) (hs : s ∈ t) (h : key r = key s) :
    r = s := by
  by_contra hne
  have hlt : key r < key s ∨ key s < key r := by
    obtain ⟨i, hi, rfl⟩ := List.getElem_of_mem hr
    obtain ⟨j, hj, rfl⟩ := List.getElem_of_mem hs
    rcases Nat.lt_trichotomy i j with hij | rfl | hij
    · exact Or.inl (List.pairwise_iff_getElem.1 t.ordered i j hi hj hij)
    · exact absurd rfl hne
    · exact Or.inr (List.pairwise_iff_getElem.1 t.ordered j i hj hi hij)
  rcases hlt with hlt | hlt
  · exact absurd h hlt.ne
  · exact absurd h.symm hlt.ne

/-! ### Looking a row up -/

/-- The row with key `k`, if there is one. -/
def find? (t : KeyedTable ρ key) (k : κ) : Option ρ := t.rows.find? fun r => key r = k

theorem find?_eq_some {t : KeyedTable ρ key} {k : κ} {r : ρ} :
    t.find? k = some r ↔ r ∈ t ∧ key r = k := by
  constructor
  · intro h
    exact ⟨List.mem_of_find?_eq_some h, by simpa using List.find?_some h⟩
  · rintro ⟨hr, rfl⟩
    cases h : t.find? (key r) with
    | none => simpa using List.find?_eq_none.1 h r hr
    | some s =>
        have hs : s ∈ t := List.mem_of_find?_eq_some h
        have hk : key s = key r := by simpa using List.find?_some h
        rw [t.ext_key hs hr hk]

theorem find?_eq_none {t : KeyedTable ρ key} {k : κ} :
    t.find? k = none ↔ ∀ r ∈ t, key r ≠ k := by
  simp [find?]

theorem mem_of_find? {t : KeyedTable ρ key} {k : κ} {r : ρ} (h : t.find? k = some r) : r ∈ t :=
  (find?_eq_some.1 h).1

theorem key_of_find? {t : KeyedTable ρ key} {k : κ} {r : ρ} (h : t.find? k = some r) : key r = k :=
  (find?_eq_some.1 h).2

theorem find?_of_mem {t : KeyedTable ρ key} {r : ρ} (h : r ∈ t) : t.find? (key r) = some r :=
  find?_eq_some.2 ⟨h, rfl⟩

/-! ### Updating rows -/

/-- Update every row by `f`, which leaves the keys alone. -/
def modify (t : KeyedTable ρ key) (f : ρ → ρ) (hf : ∀ r, key (f r) = key r) : KeyedTable ρ key where
  rows := t.rows.map f
  ordered := List.pairwise_map.2 <| t.ordered.imp fun h => by simpa only [hf] using h

@[simp] theorem rows_modify (t : KeyedTable ρ key) (f : ρ → ρ) (hf : ∀ r, key (f r) = key r) :
    (t.modify f hf).rows = t.rows.map f := rfl

theorem mem_modify {t : KeyedTable ρ key} {f : ρ → ρ} {hf : ∀ r, key (f r) = key r} {r : ρ} :
    r ∈ t.modify f hf ↔ ∃ s ∈ t, f s = r := List.mem_map

theorem find?_modify (t : KeyedTable ρ key) (f : ρ → ρ) (hf : ∀ r, key (f r) = key r) (k : κ) :
    (t.modify f hf).find? k = (t.find? k).map f := by
  have hkey : (fun r => decide (key r = k)) ∘ f = fun r => decide (key r = k) :=
    funext fun r => by rw [Function.comp_apply, hf]
  rw [find?, rows_modify, List.find?_map, hkey]
  rfl

/-- Update the row of key `k`. -/
def modifyAt (t : KeyedTable ρ key) (k : κ) (f : ρ → ρ) (hf : ∀ r, key (f r) = key r) :
    KeyedTable ρ key :=
  t.modify (fun r => if key r = k then f r else r) (by intro r; split <;> simp [hf])

theorem mem_modifyAt {t : KeyedTable ρ key} {k : κ} {f : ρ → ρ} {hf : ∀ r, key (f r) = key r}
    {r : ρ} : r ∈ t.modifyAt k f hf ↔
      (r ∈ t ∧ key r ≠ k) ∨ ∃ s ∈ t, key s = k ∧ f s = r := by
  rw [modifyAt, mem_modify]
  constructor
  · rintro ⟨s, hs, rfl⟩
    by_cases hk : key s = k
    · exact Or.inr ⟨s, hs, hk, by simp [hk]⟩
    · exact Or.inl (by simp [hk, hs])
  · rintro (⟨hr, hk⟩ | ⟨s, hs, hk, rfl⟩)
    · exact ⟨r, hr, by simp [hk]⟩
    · exact ⟨s, hs, by simp [hk]⟩

theorem modify_congr {t : KeyedTable ρ key} {f g : ρ → ρ} (hf : ∀ r, key (f r) = key r)
    (hg : ∀ r, key (g r) = key r) (h : ∀ r ∈ t, f r = g r) : t.modify f hf = t.modify g hg :=
  ext (List.map_congr_left h)

/-- Updates that leave every row alone. -/
theorem modify_eq_self {t : KeyedTable ρ key} {f : ρ → ρ} {hf : ∀ r, key (f r) = key r}
    (h : ∀ r ∈ t, f r = r) : t.modify f hf = t :=
  ext ((List.map_congr_left h).trans (List.map_id _))

theorem modifyAt_congr {t : KeyedTable ρ key} {k : κ} {f g : ρ → ρ} (hf : ∀ r, key (f r) = key r)
    (hg : ∀ r, key (g r) = key r) (h : ∀ r ∈ t, key r = k → f r = g r) :
    t.modifyAt k f hf = t.modifyAt k g hg := by
  refine modify_congr _ _ fun r hr => ?_
  split
  · next hk => exact h r hr hk
  · rfl

theorem modifyAt_eq_self {t : KeyedTable ρ key} {k : κ} {f : ρ → ρ} {hf : ∀ r, key (f r) = key r}
    (h : ∀ r ∈ t, key r = k → f r = r) : t.modifyAt k f hf = t := by
  refine modify_eq_self fun r hr => ?_
  split
  · next hk => exact h r hr hk
  · rfl

theorem find?_modifyAt (t : KeyedTable ρ key) (k l : κ) (f : ρ → ρ) (hf : ∀ r, key (f r) = key r) :
    (t.modifyAt k f hf).find? l = if l = k then (t.find? k).map f else t.find? l := by
  rw [modifyAt, find?_modify]
  cases h : t.find? l with
  | none =>
      split
      · next hlk => rw [← hlk, h]; rfl
      · rfl
  | some r =>
      have hr : key r = l := key_of_find? h
      split
      · next hlk => rw [← hlk, h]; simp [hr, hlk]
      · next hlk => simp [hr, hlk]

@[simp] theorem find?_modifyAt_self (t : KeyedTable ρ key) (k : κ) (f : ρ → ρ)
    (hf : ∀ r, key (f r) = key r) : (t.modifyAt k f hf).find? k = (t.find? k).map f := by
  simp [find?_modifyAt]

theorem find?_modifyAt_of_ne (t : KeyedTable ρ key) {k l : κ} (f : ρ → ρ)
    (hf : ∀ r, key (f r) = key r) (h : l ≠ k) : (t.modifyAt k f hf).find? l = t.find? l := by
  simp [find?_modifyAt, h]

/-- An update adds no row. -/
theorem find?_modifyAt_eq_none (t : KeyedTable ρ key) {k l : κ} {f : ρ → ρ}
    (hf : ∀ r, key (f r) = key r) (h : t.find? l = none) : (t.modifyAt k f hf).find? l = none := by
  rw [find?_modifyAt]
  split
  · next hlk => rw [← hlk, h]; rfl
  · exact h

/-! ### Adding a row -/

/-- Put a row in its place; a row whose key is already there is not added. -/
def insertRow (key : ρ → κ) (r : ρ) : List ρ → List ρ
  | [] => [r]
  | s :: ss =>
      if key r < key s then r :: s :: ss
      else if key r = key s then s :: ss
      else s :: insertRow key r ss

theorem mem_insertRow {r : ρ} {ss : List ρ} {x : ρ} (h : x ∈ insertRow key r ss) :
    x = r ∨ x ∈ ss := by
  induction ss with
  | nil => simpa [insertRow] using h
  | cons s ss ih =>
      rw [insertRow] at h
      split at h
      · simpa using h
      · split at h
        · exact Or.inr h
        · rcases List.mem_cons.1 h with rfl | h
          · exact Or.inr List.mem_cons_self
          · exact (ih h).imp_right (List.mem_cons_of_mem s)

theorem mem_insertRow_of_mem {r x : ρ} {ss : List ρ} (h : x ∈ ss) : x ∈ insertRow key r ss := by
  induction ss with
  | nil => cases h
  | cons s ss ih =>
      rw [insertRow]
      split
      · exact List.mem_cons_of_mem r h
      · split
        · exact h
        · rcases List.mem_cons.1 h with rfl | h
          · exact List.mem_cons_self
          · exact List.mem_cons_of_mem s (ih h)

theorem mem_insertRow_self {r : ρ} {ss : List ρ} (h : ∀ s ∈ ss, key s ≠ key r) :
    r ∈ insertRow key r ss := by
  induction ss with
  | nil => simp [insertRow]
  | cons s ss ih =>
      rw [insertRow]
      split
      · exact List.mem_cons_self
      · split
        · next heq => exact absurd heq.symm (h s List.mem_cons_self)
        · exact List.mem_cons_of_mem s (ih fun x hx => h x (List.mem_cons_of_mem s hx))

theorem pairwise_insertRow {r : ρ} {ss : List ρ} (h : ss.Pairwise fun a b => key a < key b) :
    (insertRow key r ss).Pairwise fun a b => key a < key b := by
  induction ss with
  | nil => simp [insertRow]
  | cons s ss ih =>
      obtain ⟨hs, hss⟩ := List.pairwise_cons.1 h
      rw [insertRow]
      split
      · next hlt =>
          refine List.pairwise_cons.2 ⟨?_, h⟩
          intro x hx
          rcases List.mem_cons.1 hx with rfl | hx
          · exact hlt
          · exact hlt.trans (hs x hx)
      · next hle =>
          split
          · exact h
          · next hne =>
              refine List.pairwise_cons.2 ⟨?_, ih hss⟩
              intro x hx
              rcases mem_insertRow hx with rfl | hx
              · exact lt_of_le_of_ne (not_lt.1 hle) (Ne.symm hne)
              · exact hs x hx

theorem insertRow_of_lt {r : ρ} {ss : List ρ} (h : ∀ s ∈ ss, key s < key r) :
    insertRow key r ss = ss ++ [r] := by
  induction ss with
  | nil => rfl
  | cons s ss ih =>
      have hs : key s < key r := h s List.mem_cons_self
      rw [insertRow, if_neg hs.asymm, if_neg hs.ne',
        ih fun x hx => h x (List.mem_cons_of_mem s hx), List.cons_append]

theorem filter_insertRow_of_neg {r : ρ} {ss : List ρ} {p : ρ → Bool} (h : p r = false) :
    (insertRow key r ss).filter p = ss.filter p := by
  induction ss with
  | nil => simp [insertRow, h]
  | cons s ss ih =>
      rw [insertRow]
      split
      · rw [List.filter_cons_of_neg (by simp [h])]
      · split
        · rfl
        · simp only [List.filter_cons, ih]

/-- A row behind every selected one comes last among them. -/
theorem filter_insertRow_of_lt {r : ρ} {ss : List ρ} (hss : ss.Pairwise fun a b => key a < key b)
    (hnew : ∀ s ∈ ss, key s ≠ key r) {p : ρ → Bool} (hp : p r)
    (hlt : ∀ s ∈ ss, p s → key s < key r) :
    (insertRow key r ss).filter p = ss.filter p ++ [r] := by
  induction ss with
  | nil => simp [insertRow, hp]
  | cons s ss ih =>
      obtain ⟨hs, hss⟩ := List.pairwise_cons.1 hss
      rw [insertRow]
      split
      · next hbefore =>
          -- everything behind the new row is not selected
          have hnone : (s :: ss).filter p = [] := by
            refine List.filter_eq_nil_iff.2 fun x hx hpx => ?_
            have hxr : key x < key r := hlt x hx hpx
            rcases List.mem_cons.1 hx with rfl | hx
            · exact hbefore.asymm hxr
            · exact (hbefore.trans (hs x hx)).asymm hxr
          rw [List.filter_cons_of_pos hp, hnone, List.nil_append]
      · rw [if_neg (hnew s List.mem_cons_self).symm]
        have ih := ih hss (fun x hx => hnew x (List.mem_cons_of_mem s hx))
          fun x hx => hlt x (List.mem_cons_of_mem s hx)
        by_cases hps : p s
        · rw [List.filter_cons_of_pos hps, List.filter_cons_of_pos hps, ih, List.cons_append]
        · rw [List.filter_cons_of_neg hps, List.filter_cons_of_neg hps, ih]

/-- Add a row whose key is new. -/
def insert (t : KeyedTable ρ key) (r : ρ) : KeyedTable ρ key :=
  ⟨insertRow key r t.rows, pairwise_insertRow t.ordered⟩

@[simp] theorem rows_insert (t : KeyedTable ρ key) (r : ρ) :
    (t.insert r).rows = insertRow key r t.rows := rfl

/-- A row that is added and then updated with the others is added as it is updated. -/
theorem modify_insert (t : KeyedTable ρ key) (r : ρ) (f : ρ → ρ) (hf : ∀ r, key (f r) = key r) :
    (t.insert r).modify f hf = (t.modify f hf).insert (f r) := by
  refine ext ?_
  simp only [rows_modify, rows_insert]
  induction t.rows with
  | nil => rfl
  | cons s ss ih =>
      simp only [insertRow, List.map_cons, hf]
      split
      · rfl
      · split
        · rfl
        · rw [List.map_cons, ih]

theorem mem_insert {t : KeyedTable ρ key} {r x : ρ} (h : t.find? (key r) = none) :
    x ∈ t.insert r ↔ x = r ∨ x ∈ t := by
  constructor
  · exact fun hx => mem_insertRow hx
  · rintro (rfl | hx)
    · exact mem_insertRow_self (find?_eq_none.1 h)
    · exact mem_insertRow_of_mem hx

theorem mem_of_mem_insert {t : KeyedTable ρ key} {r x : ρ} (h : x ∈ t.insert r) : x = r ∨ x ∈ t :=
  mem_insertRow h

theorem perm_insertRow {r : ρ} {ss : List ρ} (h : ∀ s ∈ ss, key s ≠ key r) :
    (insertRow key r ss).Perm (r :: ss) := by
  induction ss with
  | nil => exact .refl _
  | cons s ss ih =>
      have hs : key s ≠ key r := h s List.mem_cons_self
      rw [insertRow]
      split
      · exact .refl _
      · rw [if_neg hs.symm]
        exact ((ih fun x hx => h x (List.mem_cons_of_mem s hx)).cons s).trans (.swap r s ss)

theorem perm_insert {t : KeyedTable ρ key} {r : ρ} (h : t.find? (key r) = none) :
    (t.insert r).rows.Perm (r :: t.rows) := perm_insertRow (find?_eq_none.1 h)

/-- A search that a new row does not satisfy finds what it found before. -/
theorem search_insert_of_neg {t : KeyedTable ρ key} {r : ρ} {p : ρ → Bool} (h : p r = false) :
    (t.insert r).rows.find? p = t.rows.find? p := by
  rw [← List.head?_filter, ← List.head?_filter, rows_insert, filter_insertRow_of_neg h]

theorem find?_insert {t : KeyedTable ρ key} {r : ρ} (h : t.find? (key r) = none) (k : κ) :
    (t.insert r).find? k = if key r = k then some r else t.find? k := by
  split
  · next hk => exact find?_eq_some.2 ⟨(mem_insert h).2 (Or.inl rfl), hk⟩
  · next hk =>
      cases hf : t.find? k with
      | none =>
          refine find?_eq_none.2 fun x hx => ?_
          rcases mem_of_mem_insert hx with rfl | hx
          · exact hk
          · exact find?_eq_none.1 hf x hx
      | some s =>
          obtain ⟨hs, hks⟩ := find?_eq_some.1 hf
          exact find?_eq_some.2 ⟨(mem_insert h).2 (Or.inr hs), hks⟩

theorem find?_insert_self {t : KeyedTable ρ key} {r : ρ} (h : t.find? (key r) = none) :
    (t.insert r).find? (key r) = some r := by
  rw [find?_insert h, if_pos rfl]

/-! ### Fresh keys -/

/-- A key above every key of the table. -/
def freshKey {key : ρ → ℕ} (t : KeyedTable ρ key) : ℕ := (t.rows.map key).foldr max 0 + 1

theorem le_foldr_max {l : List ℕ} {n : ℕ} (h : n ∈ l) : n ≤ l.foldr max 0 := by
  induction l with
  | nil => cases h
  | cons m l ih =>
      rcases List.mem_cons.1 h with rfl | h
      · exact le_max_left _ _
      · exact (ih h).trans (le_max_right _ _)

theorem lt_freshKey {key : ρ → ℕ} {t : KeyedTable ρ key} {r : ρ} (h : r ∈ t) :
    key r < t.freshKey :=
  Nat.lt_succ_of_le (le_foldr_max (List.mem_map_of_mem h))

/-- A row with the fresh key comes last. -/
theorem rows_insert_freshKey {key : ρ → ℕ} {t : KeyedTable ρ key} {r : ρ} (h : key r = t.freshKey) :
    (t.insert r).rows = t.rows ++ [r] :=
  insertRow_of_lt fun _ hs => h ▸ lt_freshKey hs

theorem find?_freshKey {key : ρ → ℕ} (t : KeyedTable ρ key) : t.find? t.freshKey = none :=
  find?_eq_none.2 fun _ hr => (lt_freshKey hr).ne

/-- An update that leaves the keys alone leaves the fresh key. -/
theorem freshKey_modify {key : ρ → ℕ} (t : KeyedTable ρ key) (f : ρ → ρ)
    (hf : ∀ r, key (f r) = key r) : (t.modify f hf).freshKey = t.freshKey := by
  have hkeys : key ∘ f = key := funext hf
  rw [freshKey, freshKey, rows_modify, List.map_map, hkeys]

/-! ### Ranges -/

/-- The row of a key is the only one of a filter at that key. -/
theorem filter_at (t : KeyedTable ρ key) {p : ρ → Bool} {k : κ} (hp : ∀ r, key r = k → p r) :
    t.rows.filter (fun r => p r && decide (key r = k)) = (t.find? k).toList := by
  have hlist : ∀ ss : List ρ, (ss.Pairwise fun a b => key a < key b) →
      ss.filter (fun r => p r && decide (key r = k)) =
        (ss.find? fun r => key r = k).toList := by
    intro ss hss
    induction ss with
    | nil => rfl
    | cons s ss ih =>
        obtain ⟨hs, hss⟩ := List.pairwise_cons.1 hss
        by_cases hk : key s = k
        · have hnil : ss.filter (fun r => p r && decide (key r = k)) = [] :=
            List.filter_eq_nil_iff.2 fun x hx => by
              simp [(hk ▸ hs x hx : k < key x).ne']
          rw [List.filter_cons_of_pos (by simp [hk, hp s hk]),
            List.find?_cons_of_pos (by simpa using hk), hnil]
          rfl
        · rw [List.filter_cons_of_neg (by simp [hk]), List.find?_cons_of_neg (by simpa using hk),
            ih hss]
  exact hlist t.rows t.ordered

/-- A filter over a sorted list splits at any key: the selected rows below it, at it, above it. -/
theorem filter_split {ss : List ρ} (h : ss.Pairwise fun a b => key a < key b) (p : ρ → Bool)
    (k : κ) : ss.filter p =
      ss.filter (fun r => p r && decide (key r < k)) ++
        (ss.filter (fun r => p r && decide (key r = k)) ++
          ss.filter (fun r => p r && decide (k < key r))) := by
  induction ss with
  | nil => rfl
  | cons s ss ih =>
      obtain ⟨hs, hss⟩ := List.pairwise_cons.1 h
      by_cases hp : p s
      · rcases lt_trichotomy (key s) k with hlt | heq | hgt
        · simp only [List.filter_cons, hp, hlt, hlt.ne, hlt.asymm, decide_true, decide_false,
            Bool.and_true, Bool.and_false, if_true, List.cons_append]
          rw [ih hss]
          simp
        · have hnil : ss.filter (fun r => p r && decide (key r < k)) = [] :=
            List.filter_eq_nil_iff.2 fun x hx => by
              simp [not_lt.2 (heq ▸ (hs x hx).le)]
          rw [List.filter_cons_of_pos hp, ih hss, hnil]
          simp [hp, heq, hnil]
        · have hnil : ss.filter (fun r => p r && decide (key r < k)) = [] :=
            List.filter_eq_nil_iff.2 fun x hx => by
              simp [not_lt.2 (hgt.trans (hs x hx)).le]
          have hnil' : ss.filter (fun r => p r && decide (key r = k)) = [] :=
            List.filter_eq_nil_iff.2 fun x hx => by
              simp [(hgt.trans (hs x hx)).ne']
          rw [List.filter_cons_of_pos hp, ih hss, hnil, hnil']
          simp [hp, hgt, hgt.ne', hgt.asymm, hnil, hnil']
      · simp only [List.filter_cons, hp, Bool.false_and, if_false, Bool.false_eq_true]
        exact ih hss

/-- A filter over a sorted list splits at any key: the selected rows up to it, and those above
it. -/
theorem filter_append_filter {ss : List ρ} (h : ss.Pairwise fun a b => key a < key b) (p : ρ → Bool)
    (k : κ) : ss.filter (fun r => p r && decide (key r ≤ k)) ++
      ss.filter (fun r => p r && decide (k < key r)) = ss.filter p := by
  induction ss with
  | nil => rfl
  | cons s ss ih =>
      obtain ⟨hs, hss⟩ := List.pairwise_cons.1 h
      by_cases hle : key s ≤ k
      · cases hp : p s <;> simp [hp, hle, not_lt.2 hle, ih hss]
      · have hnil : ss.filter (fun r => p r && decide (key r ≤ k)) = [] :=
          List.filter_eq_nil_iff.2 fun x hx => by
            simp [((not_le.1 hle).trans (hs x hx)).not_ge]
        have ih := ih hss
        rw [hnil, List.nil_append] at ih
        cases hp : p s <;> simp [hp, hle, not_le.1 hle, hnil, ih]

/-- The first part of a selection ends at the key of its last row. -/
theorem filter_of_append {ss : List ρ} (h : ss.Pairwise fun a b => key a < key b) {p : ρ → Bool}
    {first rest : List ρ} (hsplit : first ++ rest = ss.filter p) {last : ρ}
    (hlast : first.getLast? = some last) :
    ss.filter (fun r => p r && decide (key r ≤ key last)) = first ∧
      ss.filter (fun r => p r && decide (key last < key r)) = rest := by
  have hordered : (first ++ rest).Pairwise fun a b => key a < key b :=
    hsplit ▸ h.sublist List.filter_sublist
  obtain ⟨hfirst, -, hbelow⟩ := List.pairwise_append.1 hordered
  have hupto : ∀ r ∈ first, key r ≤ key last := by
    obtain ⟨before, rfl⟩ := List.getLast?_eq_some_iff.1 hlast
    intro r hr
    rcases List.mem_append.1 hr with hr | hr
    · exact ((List.pairwise_append.1 hfirst).2.2 r hr last List.mem_cons_self).le
    · rw [List.mem_singleton.1 hr]
  have hbeyond : ∀ r ∈ rest, key last < key r := hbelow last (List.mem_of_getLast? hlast)
  have hupper : ss.filter (fun r => p r && decide (key r ≤ key last)) = first := by
    have hfilter := List.filter_filter (p := fun r => decide (key r ≤ key last)) (q := p) (l := ss)
    rw [← hsplit, List.filter_append, List.filter_eq_self.2 fun r hr => decide_eq_true (hupto r hr),
      List.filter_eq_nil_iff.2 fun r hr => by simpa using hbeyond r hr, List.append_nil] at hfilter
    rw [hfilter]
    exact List.filter_congr fun r _ => Bool.and_comm _ _
  refine ⟨hupper, ?_⟩
  have happend := filter_append_filter h p (key last)
  rw [hupper, ← hsplit] at happend
  exact List.append_cancel_left happend

end KeyedTable

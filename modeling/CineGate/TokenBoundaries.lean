/-
**Where tokens cannot reach.**

A matcher *stops at* a symbol that no token contains and that look-behind and look-ahead take for
the end of the text.  `finditer` and `sub` then treat the texts before and after the symbol each for
themselves.

* `Matcher.StopsAt` — no token reaches past the symbol;
* `finditer_append`, `sub_append` — the texts before and after it;
* `qualityRe_stopsAt`, `botUsernameRe_stopsAt`, `yearRe_stopsAt` — symbols at which the tokens of
  the text functions stop;
* `collapseSpaces_eq` — a collapsed text is its runs, joined by single blanks.
-/

import CineGate.Runs
import CineGate.Text

set_option relaxedAutoImplicit false
set_option autoImplicit false

namespace CineGate

/-- No token contains the symbol, and what stands before or after it is not seen past it. -/
structure Matcher.StopsAt (m : Matcher) (c : Char) : Prop where
  start : ∀ before rest, m before (c :: rest) = none
  after : ∀ text, m (some c) text = m none text
  ahead : ∀ before a b, m before (a ++ c :: b) = m before a

/-- A token is a part of the text. -/
def Matcher.Fits (m : Matcher) : Prop := ∀ before text n, m before text = some n → n ≤ text.length

section

variable {m : Matcher} {c : Char}

/-! ### Tokens from a position on -/

theorem finditerFrom_add (skip i k : ℕ) (before : Option Char) (text : Str) :
    finditerFrom m skip before (i + k) text =
      (finditerFrom m skip before i text).map fun span => (span.1 + k, span.2 + k) := by
  induction text generalizing skip before i with
  | nil => simp [finditerFrom]
  | cons x text ih =>
      have hnext := fun skip => ih skip (i + 1) (some x)
      rw [Nat.add_right_comm] at hnext
      cases skip with
      | succ skip =>
          rw [finditerFrom, finditerFrom]
          exact hnext skip
      | zero =>
          rw [finditerFrom, finditerFrom]
          split
          · next n _ =>
              rw [List.map_cons, hnext]
              congr 2
              omega
          · exact hnext 0

theorem finditerFrom_some (hm : m.StopsAt c) (i : ℕ) (text : Str) :
    finditerFrom m 0 (some c) i text = finditerFrom m 0 none i text := by
  cases text with
  | nil => rfl
  | cons x text => rw [finditerFrom, finditerFrom, hm.after]

theorem subFrom_some (hm : m.StopsAt c) (text : Str) :
    subFrom m 0 (some c) text = subFrom m 0 none text := by
  cases text with
  | nil => rfl
  | cons x text => rw [subFrom, subFrom, hm.after]

theorem finditerFrom_append (hm : m.StopsAt c) (hfits : m.Fits) (skip i : ℕ) (before : Option Char)
    (a b : Str) (hskip : skip ≤ a.length) :
    finditerFrom m skip before i (a ++ c :: b) =
      finditerFrom m skip before i a ++ finditerFrom m 0 none (i + a.length + 1) b := by
  induction a generalizing skip before i with
  | nil =>
      obtain rfl : skip = 0 := Nat.le_zero.1 hskip
      have hstart : finditerFrom m 0 before i (c :: b) = finditerFrom m 0 (some c) (i + 1) b := by
        rw [finditerFrom, hm.start]
      exact hstart.trans (finditerFrom_some hm _ _)
  | cons x a ih =>
      have hnext := fun skip hskip => ih skip (i + 1) (some x) hskip
      rw [Nat.add_right_comm i 1] at hnext
      rw [List.cons_append, List.length_cons, ← Nat.add_assoc]
      cases skip with
      | succ skip =>
          rw [finditerFrom, finditerFrom]
          exact hnext skip (Nat.le_of_succ_le_succ hskip)
      | zero =>
          have hahead : m before (x :: (a ++ c :: b)) = m before (x :: a) :=
            hm.ahead before (x :: a) b
          rw [finditerFrom, finditerFrom, hahead]
          split
          · next n hn =>
              have hle : n ≤ a.length := Nat.le_of_succ_le_succ (hfits _ _ _ hn)
              rw [hnext n hle, List.cons_append]
          · exact hnext 0 (Nat.zero_le _)

/-- A text is replaced for itself when no token that starts in it sees what follows. -/
theorem subFrom_append_of_ahead {b : Str}
    (hahead : ∀ before a, a ≠ [] → m before (a ++ b) = m before a)
    (hfits : m.Fits) (skip : ℕ) (before : Option Char) (a : Str) (hskip : skip ≤ a.length) :
    subFrom m skip before (a ++ b) =
      subFrom m skip before a ++ subFrom m 0 (a.getLast?.or before) b := by
  induction a generalizing skip before with
  | nil =>
      obtain rfl : skip = 0 := Nat.le_zero.1 hskip
      rfl
  | cons x a ih =>
      have hlast : (x :: a).getLast?.or before = a.getLast?.or (some x) := by
        rw [List.getLast?_cons]
        cases a.getLast? <;> rfl
      rw [List.cons_append, hlast]
      cases skip with
      | succ skip =>
          rw [subFrom, subFrom]
          exact ih skip (some x) (Nat.le_of_succ_le_succ hskip)
      | zero =>
          have hsame : m before (x :: (a ++ b)) = m before (x :: a) :=
            hahead before (x :: a) (List.cons_ne_nil x a)
          rw [subFrom, subFrom, hsame]
          split
          · next n hn =>
              have hle : n ≤ a.length := Nat.le_of_succ_le_succ (hfits _ _ _ hn)
              rw [ih n (some x) hle, List.cons_append]
          · rw [ih 0 (some x) (Nat.zero_le _), List.cons_append]

theorem subFrom_append (hm : m.StopsAt c) (hfits : m.Fits) (skip : ℕ) (before : Option Char)
    (a b : Str) (hskip : skip ≤ a.length) :
    subFrom m skip before (a ++ c :: b) = subFrom m skip before a ++ c :: sub m b := by
  have hahead : ∀ before a, a ≠ [] → m before (a ++ c :: b) = m before a :=
    fun before a _ => hm.ahead before a b
  have hstart : ∀ before, subFrom m 0 before (c :: b) = c :: subFrom m 0 (some c) b := by
    intro before
    rw [subFrom, hm.start]
  rw [subFrom_append_of_ahead hahead hfits skip before a hskip, hstart, subFrom_some hm]
  rfl

/-- **The tokens before and after the symbol.** -/
theorem finditer_append (hm : m.StopsAt c) (hfits : m.Fits) (a b : Str) :
    finditer m (a ++ c :: b) = finditer m a ++
      (finditer m b).map fun span => (span.1 + (a.length + 1), span.2 + (a.length + 1)) := by
  have happend : finditerFrom m 0 none 0 (a ++ c :: b) = _ :=
    finditerFrom_append hm hfits 0 0 none a b (Nat.zero_le _)
  have hshift : finditerFrom m 0 none (0 + (a.length + 1)) b = _ := finditerFrom_add 0 0 _ none b
  rw [finditer, happend, Nat.add_assoc, hshift]
  rfl

/-- **The texts before and after the symbol are replaced each for themselves.** -/
theorem sub_append (hm : m.StopsAt c) (hfits : m.Fits) (a b : Str) :
    sub m (a ++ c :: b) = sub m a ++ c :: sub m b :=
  subFrom_append hm hfits 0 none a b (Nat.zero_le _)

theorem subFrom_eq_self {i : ℕ} {before : Option Char} {text : Str}
    (h : finditerFrom m 0 before i text = []) : subFrom m 0 before text = text := by
  induction text generalizing before i with
  | nil => rfl
  | cons x text ih =>
      rw [finditerFrom] at h
      rw [subFrom]
      split at h
      · cases h
      · rw [ih h]

/-- A text without tokens stays. -/
theorem sub_eq_self {text : Str} (h : finditer m text = []) : sub m text = text := subFrom_eq_self h

/-- A text has no token when none starts at any of its symbols. -/
theorem finditerFrom_eq_nil {i : ℕ} {before : Option Char} {text : Str}
    (h : ∀ before pre rest, text = pre ++ rest → m before rest = none) :
    finditerFrom m 0 before i text = [] := by
  induction text generalizing before i with
  | nil => rfl
  | cons x text ih =>
      rw [finditerFrom, h before [] (x :: text) rfl]
      refine ih fun before pre rest heq => h before (x :: pre) rest ?_
      rw [heq, List.cons_append]

/-- Where a token was found. -/
theorem mem_finditerFrom_spec {skip i : ℕ} {before : Option Char} {text : Str} {span : ℕ × ℕ}
    (h : span ∈ finditerFrom m skip before i text) : ∃ k, span.1 = i + k ∧ k < text.length ∧
      m ((text.take k).getLast?.or before) (text.drop k) = some (span.2 - span.1) ∧
        span.1 < span.2 := by
  induction text generalizing skip i before with
  | nil => cases h
  | cons x text ih =>
      have hnext : ∀ skip, span ∈ finditerFrom m skip (some x) (i + 1) text →
          ∃ k, span.1 = i + k ∧ k < (x :: text).length ∧
            m (((x :: text).take k).getLast?.or before) ((x :: text).drop k) =
              some (span.2 - span.1) ∧
            span.1 < span.2 := by
        intro skip h
        obtain ⟨k, hstart, hlt, hmatch, hspan⟩ := ih h
        have hlast : (x :: text.take k).getLast?.or before =
            (text.take k).getLast?.or (some x) := by
          rw [List.getLast?_cons]
          cases (text.take k).getLast? <;> rfl
        refine ⟨k + 1, by omega, by simpa using hlt, ?_, hspan⟩
        rwa [List.take_succ_cons, hlast, List.drop_succ_cons]
      cases skip with
      | succ skip =>
          rw [finditerFrom] at h
          exact hnext skip h
      | zero =>
          rw [finditerFrom] at h
          split at h
          · next n hn =>
              rcases List.mem_cons.1 h with rfl | h
              · refine ⟨0, rfl, Nat.succ_pos _, ?_, by dsimp only; omega⟩
                have hlength : i + n + 1 - i = n + 1 := by omega
                rw [hlength]
                exact hn
              · exact hnext n h
          · exact hnext 0 h

/-- **Where a token was found**: behind the symbol before it, with its length. -/
theorem mem_finditer_before {text : Str} {span : ℕ × ℕ} (h : span ∈ finditer m text) :
    span.1 < text.length ∧ span.1 < span.2 ∧
      m (text.take span.1).getLast? (text.drop span.1) = some (span.2 - span.1) := by
  obtain ⟨k, hstart, hlt, hmatch, hspan⟩ := mem_finditerFrom_spec h
  obtain rfl : span.1 = k := by omega
  rw [Option.or_none] at hmatch
  exact ⟨hlt, hspan, hmatch⟩

theorem mem_finditer_spec {text : Str} {span : ℕ × ℕ} (h : span ∈ finditer m text) :
    span.1 < text.length ∧ span.1 < span.2 ∧
      ∃ before, m before (text.drop span.1) = some (span.2 - span.1) := by
  obtain ⟨hlt, hspan, hmatch⟩ := mem_finditer_before h
  exact ⟨hlt, hspan, _, hmatch⟩

/-- A token that can start somewhere keeps the text from having none. -/
theorem finditerFrom_ne_nil {i n : ℕ} {before : Option Char} {pre rest : Str} (hrest : rest ≠ [])
    (h : m (pre.getLast?.or before) rest = some (n + 1)) :
    finditerFrom m 0 before i (pre ++ rest) ≠ [] := by
  induction pre generalizing i before with
  | nil =>
      cases rest with
      | nil => exact absurd rfl hrest
      | cons c rest =>
          have hmatch : m before (c :: rest) = some (n + 1) := h
          rw [List.nil_append, finditerFrom, hmatch]
          exact List.cons_ne_nil _ _
  | cons x pre ih =>
      have hlast : (x :: pre).getLast?.or before = pre.getLast?.or (some x) := by
        rw [List.getLast?_cons]
        cases pre.getLast? <;> rfl
      rw [List.cons_append, finditerFrom]
      split
      · exact List.cons_ne_nil _ _
      · exact ih (hlast ▸ h)

theorem finditer_ne_nil {n : ℕ} {pre rest : Str} (hrest : rest ≠ [])
    (h : m pre.getLast? rest = some (n + 1)) :
    finditer m (pre ++ rest) ≠ [] := by
  have hmatch : m (pre.getLast?.or none) rest = some (n + 1) := by rwa [Option.or_none]
  exact finditerFrom_ne_nil hrest hmatch

end

/-! ### Separators -/

/-- The texts of the tokens. -/
def tokens (m : Matcher) (text : Str) : List Str := (finditer m text).map (slice text)

section

variable {m : Matcher} {c : Char}

theorem slice_append_add (a b : Str) (span : ℕ × ℕ) :
    slice (a ++ b) (span.1 + a.length, span.2 + a.length) = slice b span := by
  unfold slice
  rw [Nat.add_comm span.2, List.take_length_add_append, Nat.add_comm span.1,
    List.drop_length_add_append]

theorem slice_append_of_le {a : Str} (b : Str) {span : ℕ × ℕ} (hspan : span.2 ≤ a.length) :
    slice (a ++ b) span = slice a span := by
  unfold slice
  rw [List.take_append_of_le_length hspan]

/-- A token ends in the text. -/
theorem le_length_of_mem_finditer (hfits : m.Fits) {text : Str} {span : ℕ × ℕ}
    (h : span ∈ finditer m text) : span.2 ≤ text.length := by
  obtain ⟨hlt, hspan, before, hmatch⟩ := mem_finditer_spec h
  have hle := hfits _ _ _ hmatch
  rw [List.length_drop] at hle
  omega

/-- **The tokens are those of the parts.** -/
theorem tokens_splitsAt {sep : Char → Bool} (hm : ∀ c, sep c → m.StopsAt c) (hfits : m.Fits) :
    Runs.SplitsAt sep (tokens m) := by
  refine ⟨rfl, fun a c b hc => ?_⟩
  unfold tokens
  rw [finditer_append (hm c hc) hfits, List.map_append, List.map_map]
  congr 1
  · exact List.map_congr_left fun span hspan =>
      slice_append_of_le (c :: b) (le_length_of_mem_finditer hfits hspan)
  · refine List.map_congr_left fun span _ => ?_
    have happend := slice_append_add (a ++ [c]) b span
    rwa [List.length_append, List.append_assoc] at happend

theorem sub_keepsSeparators {sep : Char → Bool} (hm : ∀ c, sep c → m.StopsAt c) (hfits : m.Fits) :
    Runs.KeepsSeparators sep (sub m) := by
  refine ⟨rfl, fun c hc => ⟨c, hc, fun a b => sub_append (hm c hc) hfits a b⟩⟩

end

/-! ### The matchers of the text functions -/

section

variable {c : Char}

theorem eqIgnoreCase_eq_false (hc : isAsciiAlnumIgnoreCase c = false) {q : Resolution} {x : Char}
    (hx : x ∈ q.label) : eqIgnoreCase x c = false := by
  have hlabel : x.isAlphanum = true ∧ x.toUpper.isAlphanum = true := by
    revert x
    cases q <;> decide
  rw [Bool.eq_false_iff]
  intro heq
  simp only [isAsciiAlnumIgnoreCase, Bool.or_eq_false_iff, decide_eq_false_iff_not] at hc
  simp only [eqIgnoreCase, Bool.or_eq_true, decide_eq_true_eq, Bool.and_eq_true] at heq
  obtain ⟨⟨⟨⟨halnum, -⟩, -⟩, -⟩, hkelvin⟩ := hc
  rcases heq with (rfl | rfl) | ⟨-, rfl⟩
  · rw [hlabel.1] at halnum
    cases halnum
  · rw [hlabel.2] at halnum
    cases halnum
  · exact hkelvin rfl

/-- A label is not matched across a symbol that none of its letters matches. -/
theorem label_ahead {label : Str} (hlabel : ∀ x ∈ label, eqIgnoreCase x c = false) (a b : Str) :
    (decide (label.length ≤ (a ++ c :: b).length) &&
        (label.zip (a ++ c :: b)).all fun p => eqIgnoreCase p.1 p.2) =
      (decide (label.length ≤ a.length) && (label.zip a).all fun p => eqIgnoreCase p.1 p.2) := by
  induction label generalizing a with
  | nil => simp
  | cons x label ih =>
      cases a with
      | nil => simp [hlabel x List.mem_cons_self]
      | cons y a =>
          have hrest := ih (fun x hx => hlabel x (List.mem_cons_of_mem _ hx)) a
          simp only [List.cons_append, List.zip_cons_cons, List.all_cons, List.length_cons,
            Nat.add_le_add_iff_right] at hrest ⊢
          rw [Bool.and_left_comm, hrest, Bool.and_left_comm]

theorem resolutionPrefix_ahead (hc : isAsciiAlnumIgnoreCase c = false) (a b : Str) :
    resolutionPrefix (a ++ c :: b) = resolutionPrefix a := by
  unfold resolutionPrefix
  congr 1
  funext q
  exact label_ahead (fun x hx => eqIgnoreCase_eq_false hc hx) a b

theorem length_label_le {text : Str} {q : Resolution} (h : resolutionPrefix text = some q) :
    q.label.length ≤ text.length := by
  have hfound := List.find?_some h
  simp only [Bool.and_eq_true, decide_eq_true_eq] at hfound
  exact hfound.1

/-- The look-ahead of a token that ends before the symbol. -/
theorem any_head?_drop_append {p : Char → Bool} (hc : p c = false) {a : Str} {n : ℕ}
    (hn : n ≤ a.length)
    (b : Str) : ((a ++ c :: b).drop n).head?.any p = (a.drop n).head?.any p := by
  rw [List.drop_append_of_le_length hn]
  cases a.drop n with
  | nil => simp [hc]
  | cons x rest => rfl

theorem qualityAt_ahead (hc : isAsciiAlnumIgnoreCase c = false) {a : Str} (ha : a ≠ [] ∨ c ≠ '#')
    (b : Str) :
    qualityAt (a ++ c :: b) = qualityAt a := by
  have hfirst : (if (a ++ c :: b).head? = some '#' then 1 else 0) =
      if a.head? = some '#' then 1 else 0 := by
    cases a with
    | nil => simp [ha.resolve_left (by simp)]
    | cons x a => rfl
  have hle : (if a.head? = some '#' then 1 else 0) ≤ a.length := by
    cases a with
    | nil => simp
    | cons x a =>
        split
        · exact Nat.succ_pos _
        · exact Nat.zero_le _
  unfold qualityAt
  dsimp only
  rw [hfirst]
  generalize (if a.head? = some '#' then 1 else 0) = hash at hle
  rw [List.drop_append_of_le_length hle, resolutionPrefix_ahead hc]
  cases hq : resolutionPrefix (a.drop hash) with
  | none => rfl
  | some q =>
      have hlabel : hash + q.label.length ≤ a.length := by
        have hfits := length_label_le hq
        rw [List.length_drop] at hfits
        omega
      rw [Option.bind_some, Option.bind_some, any_head?_drop_append hc hlabel]

theorem qualityAt_nil : qualityAt [] = none := by decide

theorem qualityAt_stops (hc : isAsciiAlnumIgnoreCase c = false) (hhash : c ≠ '#') (rest : Str) :
    qualityAt (c :: rest) = none := (qualityAt_ahead hc (.inr hhash) rest).trans qualityAt_nil

theorem qualityRe_stopsAt (hc : isAsciiAlnumIgnoreCase c = false) (hhash : c ≠ '#') :
    Matcher.StopsAt qualityRe c := by
  refine ⟨fun before rest => ?_, fun text => ?_, fun before a b => ?_⟩
  · rw [qualityRe, qualityAt_stops hc hhash]
    exact ite_self none
  · rw [qualityRe, qualityRe, Option.any_some, hc]
    rfl
  · rw [qualityRe, qualityRe, qualityAt_ahead hc (.inr hhash)]

theorem qualityRe_fits : Matcher.Fits qualityRe := by
  intro before text n h
  unfold qualityRe at h
  split at h
  · cases h
  · obtain ⟨⟨q, k⟩, hat, rfl⟩ := Option.map_eq_some_iff.1 h
    unfold qualityAt at hat
    dsimp only at hat
    generalize (if text.head? = some '#' then 1 else 0) = hash at hat
    obtain ⟨q', hq, hlength⟩ := Option.bind_eq_some_iff.1 hat
    split at hlength
    · cases hlength
    · cases hlength
      have hfits := length_label_le hq
      rw [List.length_drop] at hfits
      have hlabel : 0 < q.label.length := by cases q <;> decide
      dsimp only
      omega

/-- The longest prefix of a class ends before the symbol. -/
theorem takeWhile_append_stop {p : Char → Bool} (hc : p c = false) (a b : Str) :
    (a ++ c :: b).takeWhile p = a.takeWhile p := by
  induction a with
  | nil => simp [hc]
  | cons x a ih => rw [List.cons_append, List.takeWhile_cons, List.takeWhile_cons, ih]

theorem botUsernameRe_stopsAt (hc : isAsciiAlnum c = false) (hunderscore : c ≠ '_')
    (hat : c ≠ '@') :
    Matcher.StopsAt botUsernameRe c := by
  have hpart : (isAsciiAlnum c || decide (c = '_')) = false := by simp [hc, hunderscore]
  refine ⟨fun before rest => ?_, fun text => ?_, fun before a b => ?_⟩
  · unfold botUsernameRe
    split
    · rfl
    · split
      · next heq => exact absurd (List.cons.inj heq).1 hat
      · rfl
  · unfold botUsernameRe
    rw [Option.any_some, hpart]
    rfl
  · unfold botUsernameRe
    congr 1
    split
    · next cs heq =>
        cases a with
        | nil => exact absurd (List.cons.inj heq).1 hat
        | cons x a =>
            obtain ⟨rfl, hcs⟩ := List.cons.inj heq
            have htake : cs.takeWhile (fun c => isAsciiAlnum c || decide (c = '_')) =
                a.takeWhile fun c => isAsciiAlnum c || decide (c = '_') :=
              hcs ▸ takeWhile_append_stop (p := fun c => isAsciiAlnum c || decide (c = '_')) hpart
                a b
            rw [htake]
            rfl
    · next hne =>
        split
        · next cs => exact (hne (cs ++ c :: b) rfl).elim
        · rfl

theorem botUsernameRe_fits : Matcher.Fits botUsernameRe := by
  intro before text n h
  unfold botUsernameRe at h
  split at h
  · cases h
  · split at h
    · next cs =>
        dsimp only at h
        split at h
        · cases h
          have hle := (List.takeWhile_prefix (l := cs) fun c =>
            isAsciiAlnum c || decide (c = '_')).length_le
          rw [List.length_cons]
          omega
        · cases h
    · cases h

/-- A resolution ends in a letter. -/
theorem resolutionPrefix_of_isDigit {text : Str} (h : ∀ c ∈ text, c.isDigit) :
    resolutionPrefix text = none := by
  refine List.find?_eq_none.2 fun q _ hmatch => ?_
  simp only [Bool.and_eq_true, decide_eq_true_eq, List.all_eq_true] at hmatch
  obtain ⟨hlength, hall⟩ := hmatch
  have hlast : ∃ hi : q.label.length - 1 < q.label.length,
      q.label[q.label.length - 1] ∈ ['p', 'k'] := by
    cases q <;> decide
  obtain ⟨hi, hlast⟩ := hlast
  have hzip : q.label.length - 1 < (q.label.zip text).length := by
    rw [List.length_zip]
    omega
  have hpair := hall _ (List.getElem_mem hzip)
  have hdigit := h _ (List.getElem_mem (lt_of_lt_of_le hi hlength))
  rw [List.getElem_zip] at hpair
  generalize text[q.label.length - 1] = c at hpair hdigit
  have hletters : ∀ x ∈ ['p', 'k'], eqIgnoreCase x c → c ∈ ['p', 'P', 'k', 'K', '\u212a'] := by
    intro x hx heq
    simp only [List.mem_cons, List.not_mem_nil, or_false] at hx
    simp only [eqIgnoreCase, Bool.or_eq_true, decide_eq_true_eq, Bool.and_eq_true] at heq
    rcases hx with rfl | rfl
    · rcases heq with (rfl | rfl) | ⟨hk, -⟩
      · decide
      · decide
      · exact absurd hk (by decide)
    · rcases heq with (rfl | rfl) | ⟨-, rfl⟩ <;> decide
  have hnone : ∀ c ∈ ['p', 'P', 'k', 'K', '\u212a'], c.isDigit = false := by decide
  rw [hnone c (hletters _ hlast hpair)] at hdigit
  cases hdigit

theorem finditer_qualityRe_of_isDigit {text : Str} (h : ∀ c ∈ text, c.isDigit) :
    finditer qualityRe text = [] := by
  refine finditerFrom_eq_nil fun before pre rest heq => ?_
  have hrest : ∀ c ∈ rest, c.isDigit := by
    intro c hc
    exact h c (by rw [heq]; exact List.mem_append_right pre hc)
  have hhash : rest.head? ≠ some '#' := by
    intro hhead
    exact absurd (hrest '#' (List.mem_of_head? hhead)) (by decide)
  unfold qualityRe qualityAt
  dsimp only
  rw [if_neg hhash, List.drop_zero, resolutionPrefix_of_isDigit hrest]
  exact ite_self none

/-- A text with a resolution token advertises a resolution. -/
theorem extractQuality_eq_none_iff (text : Str) :
    extractQuality text = none ↔ finditer qualityRe text = [] := by
  unfold extractQuality search
  cases htokens : finditer qualityRe text with
  | nil => simp
  | cons span spans =>
      have hmem : span ∈ finditer qualityRe text := by rw [htokens]; exact List.mem_cons_self
      obtain ⟨-, -, before, hmatch⟩ := mem_finditer_spec hmem
      have hat : qualityAt (text.drop span.1) ≠ none := by
        intro hnone
        unfold qualityRe at hmatch
        rw [hnone] at hmatch
        split at hmatch <;> cases hmatch
      simp [hat]

/-- A username starts with `@`. -/
theorem finditer_botUsernameRe_of_not_mem {text : Str} (h : '@' ∉ text) :
    finditer botUsernameRe text = [] := by
  refine finditerFrom_eq_nil fun before pre rest heq => ?_
  unfold botUsernameRe
  split
  · rfl
  · split
    · exact absurd (by rw [heq]; simp) h
    · rfl

theorem finditer_botUsernameRe_of_isDigit {text : Str} (h : ∀ c ∈ text, c.isDigit) :
    finditer botUsernameRe text = [] :=
  finditer_botUsernameRe_of_not_mem fun hat => absurd (h '@' hat) (by decide)

variable [UnicodeData]

/-- A year token has four symbols, all of them digits. -/
theorem yearRe_eq_some {before : Option Char} {text : Str} {n : ℕ}
    (h : yearRe before text = some n) :
    n = 4 ∧ 4 ≤ text.length ∧
      ∀ x ∈ text.take 4, x ∈ ['1', '9', '2', '0'] ∨ (decimal x).isSome := by
  unfold yearRe at h
  split at h
  · next a b c d rest =>
      split at h
      · cases h
      · split at h
        · next hdigits =>
            cases h
            obtain ⟨hcentury, hc, hd, -⟩ := hdigits
            refine ⟨rfl, by simp, fun x hx => ?_⟩
            simp only [List.take_succ_cons, List.take_zero, List.mem_cons, List.not_mem_nil,
              or_false] at hx
            rcases hx with rfl | rfl | rfl | rfl
            · rcases hcentury with ⟨rfl, -⟩ | ⟨rfl, -⟩
              · exact .inl (by decide)
              · exact .inl (by decide)
            · rcases hcentury with ⟨-, rfl⟩ | ⟨-, rfl | rfl⟩
              · exact .inl (by decide)
              · exact .inl (by decide)
              · exact .inl (by decide)
            · exact .inr hc
            · exact .inr hd
        · cases h
  · cases h

theorem yearRe_stopsAt (hdigits : ∀ x ∈ ['1', '9', '2', '0'], (decimal x).isSome)
    (hdecimal : (decimal c).isSome = false) : Matcher.StopsAt yearRe c := by
  have hdigit : ¬ (c ∈ ['1', '9', '2', '0'] ∨ (decimal c).isSome) := by
    rintro (hmem | hsome)
    · rw [hdigits c hmem] at hdecimal
      cases hdecimal
    · rw [hdecimal] at hsome
      cases hsome
  -- a token that reaches the symbol would contain it
  have hreach : ∀ before a b, a.length < 4 → yearRe before (a ++ c :: b) = none := by
    intro before a b ha
    cases h : yearRe before (a ++ c :: b) with
    | none => rfl
    | some n =>
        refine absurd ((yearRe_eq_some h).2.2 c ?_) hdigit
        refine List.mem_take_iff_getElem.2 ⟨a.length, ?_, ?_⟩
        · rw [List.length_append, List.length_cons]
          omega
        · rw [List.getElem_append_right le_rfl]
          simp
  refine ⟨fun before rest => hreach before [] rest (by decide), fun text => ?_, fun before a b =>
    ?_⟩
  · unfold yearRe
    rw [Option.any_some, hdecimal]
    rfl
  · by_cases ha : a.length < 4
    · rw [hreach before a b ha]
      cases h : yearRe before a with
      | none => rfl
      | some n => exact absurd (yearRe_eq_some h).2.1 (not_le.2 ha)
    · match a, ha with
      | x :: y :: z :: w :: rest, _ =>
          have hahead : (rest ++ c :: b).head?.any (fun x => (decimal x).isSome) =
              rest.head?.any fun x => (decimal x).isSome := by
            cases rest with
            | nil => simp [hdecimal]
            | cons v rest => rfl
          simp only [yearRe, List.cons_append, hahead]
      | [x, y, z], ha | [x, y], ha | [x], ha | [], ha => exact absurd (by simp) ha

theorem yearRe_fits : Matcher.Fits yearRe := by
  intro before text n h
  unfold yearRe at h
  split at h
  · split at h
    · cases h
    · split at h
      · cases h
        simp
      · cases h
  · cases h

end

/-! ### White space -/

section

variable [UnicodeData]

/-- Runs joined by blanks. -/
def joined (ws : List Str) : Str := [' '].intercalate ws

omit [UnicodeData] in
theorem joined_cons {w : Str} {ws : List Str} (hws : ws ≠ []) :
    joined (w :: ws) = w ++ ' ' :: joined ws := by
  cases ws with
  | nil => exact absurd rfl hws
  | cons v ws => simp [joined, List.intercalate, List.intersperse]

omit [UnicodeData] in
theorem mem_joined {ws : List Str} {c : Char} (hc : c ∈ joined ws) : c = ' ' ∨ ∃ w ∈ ws, c ∈ w := by
  induction ws with
  | nil => cases hc
  | cons w ws ih =>
      by_cases hnil : ws = []
      · subst hnil
        exact .inr ⟨w, List.mem_cons_self, by simpa [joined] using hc⟩
      · rw [joined_cons hnil] at hc
        rcases List.mem_append.1 hc with hc | hc
        · exact .inr ⟨w, List.mem_cons_self, hc⟩
        · rcases List.mem_cons.1 hc with rfl | hc
          · exact .inl rfl
          · obtain hblank | ⟨v, hv, hc⟩ := ih hc
            · exact .inl hblank
            · exact .inr ⟨v, List.mem_cons_of_mem w hv, hc⟩

omit [UnicodeData] in
/-- The first symbol of joined runs. -/
theorem head?_joined {ws : List Str} (hws : ∀ w ∈ ws, w ≠ []) :
    (joined ws).head? = ws.head?.bind List.head? := by
  cases ws with
  | nil => rfl
  | cons w ws =>
      by_cases hnil : ws = []
      · subst hnil
        simp [joined]
      · rw [joined_cons hnil, List.head?_append_of_ne_nil _ (hws w List.mem_cons_self)]
        rfl

omit [UnicodeData] in
theorem joined_eq_nil_iff {ws : List Str} (hws : ∀ w ∈ ws, w ≠ []) : joined ws = [] ↔ ws = [] := by
  refine ⟨fun h => ?_, fun h => by rw [h]; rfl⟩
  cases ws with
  | nil => rfl
  | cons w ws =>
      have hhead := head?_joined hws
      rw [h, List.head?_cons, Option.bind_some] at hhead
      exact absurd (List.head?_eq_none_iff.1 hhead.symm) (hws w List.mem_cons_self)

omit [UnicodeData] in
theorem joined_append_singleton {ws : List Str} (hws : ws ≠ []) (w : Str) :
    joined (ws ++ [w]) = joined ws ++ ' ' :: w := by
  induction ws with
  | nil => exact absurd rfl hws
  | cons v ws ih =>
      rw [List.cons_append,
        joined_cons (List.append_ne_nil_of_right_ne_nil ws (List.cons_ne_nil w []))]
      by_cases hnil : ws = []
      · subst hnil
        simp [joined]
      · rw [ih hnil, joined_cons hnil, List.append_assoc, List.cons_append]

/-- The rest of a text after white space, and the rest after a run. -/
theorem squeezeSpaces_eq (text : Str) :
    (∃ t, (t = [] ∨ t = [' ']) ∧ squeezeSpaces true text = joined (Runs.runs isSpace text) ++ t ∧
        (Runs.runs isSpace text = [] → t = [])) ∧
      ∀ w : Str, w ≠ [] → (∀ c ∈ w, isSpace c = false) → ∃ t, (t = [] ∨ t = [' ']) ∧
        w ++ squeezeSpaces false text = joined (Runs.runs isSpace (w ++ text)) ++ t := by
  -- the second half has the word `w` that is being read; the first half is between two words
  induction text with
  | nil =>
      refine ⟨⟨[], .inl rfl, by rw [Runs.runs_nil]; rfl, fun _ => rfl⟩, fun w hw hspace => ?_⟩
      refine ⟨[], .inl rfl, ?_⟩
      rw [List.append_nil w, Runs.runs_of_forall hspace hw]
      simp [squeezeSpaces, joined]
  | cons c text ih =>
      obtain ⟨⟨t, ht, htrue, hnone⟩, hfalse⟩ := ih
      by_cases hc : isSpace c
      · have hruns : Runs.runs isSpace (c :: text) = Runs.runs isSpace text :=
          Runs.runs_cons hc text
        refine ⟨⟨t, ht, ?_, ?_⟩, fun w hw hspace => ?_⟩
        · rw [hruns, ← htrue]
          simp [squeezeSpaces, hc]
        · rw [hruns]
          exact hnone
        · rw [Runs.runs_append_cons hc, Runs.runs_of_forall hspace hw]
          have hsqueeze : squeezeSpaces false (c :: text) = ' ' :: squeezeSpaces true text := by
            simp [squeezeSpaces, hc]
          rw [hsqueeze, htrue]
          cases hrest : Runs.runs isSpace text with
          -- no word follows: the blank stays at the end
          | nil =>
              rw [hnone hrest]
              exact ⟨[' '], .inr rfl, by simp [joined, List.intercalate]⟩
          | cons v ws =>
              refine ⟨t, ht, ?_⟩
              rw [List.singleton_append, joined_cons (List.cons_ne_nil v ws), List.append_assoc,
                List.cons_append]
      · have hsqueeze : ∀ inRun, squeezeSpaces inRun (c :: text) =
            c :: squeezeSpaces false text := by
          intro inRun
          simp [squeezeSpaces, hc]
        have hc : isSpace c = false := Bool.eq_false_iff.2 hc
        refine ⟨?_, fun w hw hspace => ?_⟩
        · obtain ⟨t, ht, heq⟩ := hfalse [c] (List.cons_ne_nil c [])
            (fun x hx => by rw [List.mem_singleton.1 hx]; exact hc)
          refine ⟨t, ht, by rw [hsqueeze]; exact heq, fun hnone => ?_⟩
          have hspace := Runs.forall_of_runs_eq_nil hnone c List.mem_cons_self
          rw [hc] at hspace
          cases hspace
        · obtain ⟨t, ht, heq⟩ := hfalse (w ++ [c]) (by simp) (fun x hx => by
            rcases List.mem_append.1 hx with hx | hx
            · exact hspace x hx
            · rw [List.mem_singleton.1 hx]
              exact hc)
          rw [List.append_assoc, List.append_assoc] at heq
          exact ⟨t, ht, by rw [hsqueeze]; exact heq⟩

omit [UnicodeData] in
/-- The first symbol that is not stripped. -/
theorem head?_stripBy {p : Char → Bool} {text : Str} {c : Char}
    (hc : (stripBy p text).head? = some c) :
    p c = false ∧ c ∈ text := by
  obtain ⟨b, hb⟩ := List.rdropWhile_prefix p (text.dropWhile p)
  have hhead : (text.dropWhile p).head? = some c := by
    have hstrip : ((text.dropWhile p).rdropWhile p).head? = some c := hc
    rw [← hb, List.head?_append, hstrip, Option.some_or]
  have hnot := List.head?_dropWhile_not p text
  rw [hhead] at hnot
  exact ⟨by simpa using hnot, List.dropWhile_subset p (List.mem_of_head? hhead)⟩

omit [UnicodeData] in
/-- What is stripped from a text whose ends are kept. -/
theorem stripBy_append {p : Char → Bool} {a text b : Str} (ha : ∀ c ∈ a, p c) (hb : ∀ c ∈ b, p c)
    (hhead : ∀ c, text.head? = some c → p c = false)
    (hlast : ∀ c, text.getLast? = some c → p c = false) : stripBy p (a ++ text ++ b) = text := by
  have hleft : (a ++ text ++ b).dropWhile p = (text ++ b).dropWhile p := by
    rw [List.append_assoc, List.dropWhile_append_of_pos ha]
  have hright : (text ++ b).rdropWhile p = text.rdropWhile p := by
    rw [List.rdropWhile, List.reverse_append, List.dropWhile_append_of_pos fun c hc =>
      hb c (List.mem_reverse.1 hc)]
    rfl
  unfold stripBy
  rw [hleft]
  cases text with
  | nil =>
      rw [List.nil_append, List.dropWhile_eq_nil_iff.2 hb]
      rfl
  | cons x text =>
      rw [List.cons_append, List.dropWhile_cons_of_neg (by simp [hhead x rfl]),
        ← List.cons_append, hright]
      refine List.rdropWhile_eq_self_iff.2 fun hne hp => ?_
      rw [hlast _ (List.getLast?_eq_some_getLast hne)] at hp
      cases hp

omit [UnicodeData] in
/-- The ends of joined runs are ends of runs. -/
theorem joined_ends {p : Char → Bool} {ws : List Str}
    (hws : ∀ w ∈ ws, w ≠ [] ∧ ∀ c ∈ w, p c = false) :
    (∀ c, (joined ws).head? = some c → p c = false) ∧
      ∀ c, (joined ws).getLast? = some c → p c = false := by
  induction ws with
  | nil => exact ⟨fun c hc => (by cases hc), fun c hc => (by cases hc)⟩
  | cons w ws ih =>
      obtain ⟨hne, hw⟩ := hws w List.mem_cons_self
      obtain ⟨-, hlast⟩ := ih fun v hv => hws v (List.mem_cons_of_mem w hv)
      by_cases hnil : ws = []
      · subst hnil
        have hone : joined [w] = w := by simp [joined]
        rw [hone]
        exact ⟨fun c hc => hw c (List.mem_of_head? hc), fun c hc => hw c (List.mem_of_getLast? hc)⟩
      · rw [joined_cons hnil]
        refine ⟨fun c hc => ?_, fun c hc => ?_⟩
        · rw [List.head?_append_of_ne_nil _ hne] at hc
          exact hw c (List.mem_of_head? hc)
        · have hrest : joined ws ≠ [] := by
            obtain ⟨v, vs, rfl⟩ := List.exists_cons_of_ne_nil hnil
            have hv := (hws v (List.mem_cons_of_mem w List.mem_cons_self)).1
            cases vs <;> simp [joined, List.intercalate, List.intersperse, hv]
          refine hlast c ?_
          rw [← hc, ← List.singleton_append, ← List.append_assoc,
            List.getLast?_append_of_ne_nil _ hrest]

/-- **A collapsed text is its runs, joined by single blanks.** -/
theorem collapseSpaces_eq (hblank : isSpace ' ' = true) (text : Str) :
    collapseSpaces text = joined (Runs.runs isSpace text) := by
  have hruns : ∀ w ∈ Runs.runs isSpace text, w ≠ [] ∧ ∀ c ∈ w, isSpace c = false :=
    fun w hw => ⟨Runs.ne_nil_of_mem_runs hw, Runs.forall_of_mem_runs hw⟩
  obtain ⟨hhead, hlast⟩ := joined_ends hruns
  have hstrip : ∀ a t : Str, (a = [] ∨ a = [' ']) → (t = [] ∨ t = [' ']) →
      strip (a ++ joined (Runs.runs isSpace text) ++ t) = joined (Runs.runs isSpace text) := by
    intro a t ha ht
    refine stripBy_append ?_ ?_ hhead hlast
    · rcases ha with rfl | rfl <;> simp [hblank]
    · rcases ht with rfl | rfl <;> simp [hblank]
  unfold collapseSpaces
  cases text with
  | nil => exact hstrip [] [] (.inl rfl) (.inl rfl)
  | cons c text =>
      by_cases hc : isSpace c
      · obtain ⟨⟨t, ht, heq, -⟩, -⟩ := squeezeSpaces_eq text
        have hsqueeze : squeezeSpaces false (c :: text) = [' '] ++ squeezeSpaces true text := by
          simp [squeezeSpaces, hc]
        rw [hsqueeze, heq, ← List.append_assoc, ← Runs.runs_cons hc]
        exact hstrip [' '] t (.inr rfl) ht
      · have hsqueeze : squeezeSpaces false (c :: text) = [c] ++ squeezeSpaces false text := by
          simp [squeezeSpaces, hc]
        obtain ⟨-, hfalse⟩ := squeezeSpaces_eq text
        obtain ⟨t, ht, heq⟩ := hfalse [c] (List.cons_ne_nil c []) fun x hx => by
          rw [List.mem_singleton.1 hx]
          exact Bool.eq_false_iff.2 hc
        rw [hsqueeze, heq]
        exact hstrip [] t (.inl rfl) ht

/-- A collapsed text has nothing to strip. -/
theorem strip_collapseSpaces (hblank : isSpace ' ' = true) (text : Str) :
    strip (collapseSpaces text) = collapseSpaces text := by
  have hruns : ∀ w ∈ Runs.runs isSpace text, w ≠ [] ∧ ∀ c ∈ w, isSpace c = false :=
    fun w hw => ⟨Runs.ne_nil_of_mem_runs hw, Runs.forall_of_mem_runs hw⟩
  obtain ⟨hhead, hlast⟩ := joined_ends hruns
  have hstrip : stripBy isSpace ([] ++ joined (Runs.runs isSpace text) ++ []) = _ :=
    stripBy_append (by simp) (by simp) hhead hlast
  rw [List.nil_append, List.append_nil] at hstrip
  rw [collapseSpaces_eq hblank]
  exact hstrip

omit [UnicodeData] in
/-- What splits at separators does not see that they are stripped. -/
theorem apply_stripBy {β : Type} {sep p : Char → Bool} {h : Str → List β} (hh : Runs.SplitsAt sep h)
    (hp : ∀ c, p c → sep c) (text : Str) : h (stripBy p text) = h text := by
  unfold stripBy
  rw [hh.rdropWhile hp, hh.dropWhile hp]

/-- What splits at white space does not see that it is collapsed. -/
theorem apply_collapseSpaces (hblank : isSpace ' ' = true) {β : Type} {h : Str → List β}
    (hh : Runs.SplitsAt isSpace h) (text : Str) : h (collapseSpaces text) = h text := by
  rw [collapseSpaces_eq hblank, joined, hh.intercalate hblank, ← hh.eq_flatMap]

end

end CineGate

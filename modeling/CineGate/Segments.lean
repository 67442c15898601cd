/-
**Tokens in a text, and texts with the tokens replaced.**

A *token matcher* over any alphabet says whether a token starts at the head of a text and how long
it is; whether one starts there depends on the token alone and not on what follows it.  Read from
left to right, a text splits into literal symbols and tokens, and rendering replaces every token.

A position that lies strictly inside no token is a *cut*: the text splits there into two texts that
are read, and rendered, on their own.  So the slice of the rendered text between the images of two
cuts is the rendering of the slice between the cuts, and the image of a cut is its position plus the
changes in length of the tokens before it.

* `TokenMatcher`, `TokenMatcher.segments`, `TokenMatcher.render` — reading and rendering;
* `TokenMatcher.tokens`, `TokenMatcher.Splits` — the tokens with their positions;
* `TokenMatcher.segments_append`, `TokenMatcher.render_slice`, `TokenMatcher.position_eq_add` —
  cuts;
* `TokenMatcher.segments_encode` — a code of the symbols that keeps the tokens keeps the segments.
-/

import Mathlib.Algebra.BigOperators.Group.List.Basic
import Mathlib.Algebra.Ring.Int.Defs
import Mathlib.Data.List.Basic

set_option relaxedAutoImplicit false
set_option autoImplicit false

universe u v

/-- A symbol outside all tokens, or a token. -/
inductive Segment (α : Type u)
  | literal (symbol : α)
  | token (word : List α)
deriving DecidableEq, Repr

namespace Segment

variable {α : Type u} {β : Type v}

/-- The text of a segment. -/
def text : Segment α → List α
  | literal a => [a]
  | token w => w

/-- The text of a segment when the tokens are replaced. -/
def render (ρ : List α → List α) : Segment α → List α
  | literal a => [a]
  | token w => ρ w

/-- The segments of the code of a segment. -/
def encode (enc : α → List β) : Segment α → List (Segment β)
  | literal a => (enc a).map literal
  | token w => [token (w.flatMap enc)]

end Segment

/-- The length of the token at the head of a text; `local_iff` says that a token is found wherever
the text has all of it. -/
structure TokenMatcher (α : Type u) where
  length? : List α → Option ℕ
  pos : ∀ {text n}, length? text = some n → 0 < n
  le : ∀ {text n}, length? text = some n → n ≤ text.length
  local_iff : ∀ {x y : List α} {n}, n ≤ x.length → (length? (x ++ y) = some n ↔ length? x = some n)

namespace TokenMatcher

variable {α : Type u} {β : Type v} (m : TokenMatcher α)

/-! ### Reading -/

/-- The segments of a text; the first `skip` symbols belong to the token read last. -/
def segmentsFrom : ℕ → List α → List (Segment α)
  | _, [] => []
  | skip + 1, _ :: cs => segmentsFrom skip cs
  | 0, c :: cs =>
      match m.length? (c :: cs) with
      | some (n + 1) => .token ((c :: cs).take (n + 1)) :: segmentsFrom n cs
      | _ => .literal c :: segmentsFrom 0 cs

def segments (text : List α) : List (Segment α) := m.segmentsFrom 0 text

theorem segmentsFrom_eq (n : ℕ) (text : List α) :
    m.segmentsFrom n text = m.segments (text.drop n) := by
  induction n generalizing text with
  | zero => rfl
  | succ n ih =>
      cases text with
      | nil => rfl
      | cons c cs => exact ih cs

variable {m} {text : List α} {c : α} {n : ℕ}

theorem segments_literal (h : m.length? (c :: text) = none) :
    m.segments (c :: text) = .literal c :: m.segments text := by
  simp only [segments, segmentsFrom, h]

theorem segments_token (h : m.length? text = some n) :
    m.segments text = .token (text.take n) :: m.segments (text.drop n) := by
  have hpos := m.pos h
  have hle := m.le h
  cases text with
  | nil =>
      have hzero : n = 0 := Nat.le_zero.1 hle
      omega
  | cons c cs =>
      obtain ⟨n, rfl⟩ := Nat.exists_eq_succ_of_ne_zero (Nat.ne_of_gt hpos)
      unfold segments
      simp only [segmentsFrom, h]
      rw [segmentsFrom_eq, segmentsFrom_eq]
      rfl

/-- Induction over a text along its segments. -/
theorem segments_induction {P : List α → Prop} (nil : P [])
    (literal : ∀ c cs, m.length? (c :: cs) = none → P cs → P (c :: cs))
    (token : ∀ text n, m.length? text = some n → P (text.drop n) → P text) (text : List α) :
    P text := by
  induction hlen : text.length using Nat.strongRecOn generalizing text with
  | _ len ih =>
      subst hlen
      cases hmatch : m.length? text with
      | some n =>
          refine token text n hmatch (ih _ ?_ _ rfl)
          have hpos := m.pos hmatch
          have hle := m.le hmatch
          rw [List.length_drop]
          omega
      | none =>
          cases text with
          | nil => exact nil
          | cons c cs => exact literal c cs hmatch (ih _ (Nat.lt_succ_self _) _ rfl)

/-- The text of segments. -/
def flatten (segs : List (Segment α)) : List α := segs.flatMap Segment.text

theorem length_flatten_cons (seg : Segment α) (segs : List (Segment α)) :
    (flatten (seg :: segs)).length = seg.text.length + (flatten segs).length := by
  simp only [flatten, List.flatMap_cons, List.length_append]

variable (m) in
theorem flatten_segments (text : List α) : flatten (m.segments text) = text := by
  induction text using segments_induction (m := m) with
  | nil => rfl
  | literal c cs h ih =>
      rw [segments_literal h]
      exact congrArg (c :: ·) ih
  | token text n h ih =>
      rw [segments_token h]
      exact (congrArg (text.take n ++ ·) ih).trans (List.take_append_drop n text)

/-- A token that is read in a text is a token on its own. -/
theorem length?_of_token {w : List α} (hw : Segment.token w ∈ m.segments text) :
    m.length? w = some w.length := by
  induction text using segments_induction (m := m) with
  | nil => cases hw
  | literal c cs h ih =>
      rw [segments_literal h] at hw
      exact ih (by simpa using hw)
  | token text n h ih =>
      rw [segments_token h] at hw
      rcases List.mem_cons.1 hw with heq | hw
      · cases heq
        have hlen : (text.take n).length = n := List.length_take_of_le (m.le h)
        rw [← List.take_append_drop n text] at h
        rw [hlen]
        exact (m.local_iff (Nat.le_of_eq hlen.symm)).1 h
      · exact ih hw

theorem token_length_pos {w : List α} (hw : Segment.token w ∈ m.segments text) : 0 < w.length :=
  m.pos (length?_of_token hw)

/-- A text that is read as `pre` and then `post` is read so from two texts. -/
theorem segments_of_append {pre post : List (Segment α)} {x y : List α}
    (h : m.segments (x ++ y) = pre ++ post) (hlen : (flatten pre).length = x.length) :
    m.segments x = pre ∧ m.segments y = post := by
  induction pre generalizing x with
  | nil =>
      cases List.eq_nil_of_length_eq_zero hlen.symm
      exact ⟨rfl, h⟩
  | cons seg pre ih =>
      cases hmatch : m.length? (x ++ y) with
      | some n =>
          rw [segments_token hmatch] at h
          obtain ⟨hseg, hrest⟩ := List.cons.inj h
          subst hseg
          have htake : ((x ++ y).take n).length = n := List.length_take_of_le (m.le hmatch)
          have hcount := (length_flatten_cons (.token ((x ++ y).take n)) pre).symm.trans hlen
          dsimp only [Segment.text] at hcount
          have hn : n ≤ x.length := by omega
          rw [segments_token ((m.local_iff hn).1 hmatch), List.take_append_of_le_length hn]
          rw [List.drop_append_of_le_length hn] at hrest
          have hlen' : (flatten pre).length = (x.drop n).length := by
            rw [List.length_drop]
            omega
          obtain ⟨hx, hy⟩ := ih hrest hlen'
          exact ⟨congrArg _ hx, hy⟩
      | none =>
          cases x with
          | nil =>
              -- a first segment is not empty
              exfalso
              cases y with
              | nil => cases h
              | cons c cs =>
                  rw [List.nil_append] at hmatch h
                  rw [segments_literal hmatch] at h
                  obtain ⟨hseg, -⟩ := List.cons.inj h
                  subst hseg
                  rw [length_flatten_cons] at hlen
                  exact absurd hlen (Nat.ne_of_gt (Nat.lt_of_lt_of_le Nat.zero_lt_one
                    (Nat.le_add_right _ _)))
          | cons c cs =>
              have hnone : m.length? (c :: cs) = none := by
                cases hsome : m.length? (c :: cs) with
                | none => rfl
                | some n => cases hmatch.symm.trans ((m.local_iff (m.le hsome)).2 hsome)
              rw [List.cons_append] at hmatch h
              rw [segments_literal hmatch] at h
              obtain ⟨hseg, hrest⟩ := List.cons.inj h
              subst hseg
              rw [segments_literal hnone]
              rw [length_flatten_cons] at hlen
              have hlen' : (flatten pre).length = cs.length := by
                dsimp only [Segment.text, List.length_cons, List.length_nil] at hlen
                omega
              obtain ⟨hx, hy⟩ := ih hrest hlen'
              exact ⟨congrArg _ hx, hy⟩

/-! ### Positions -/

/-- The tokens of segments with the positions where they start. -/
def tokensFrom : ℕ → List (Segment α) → List (ℕ × List α)
  | _, [] => []
  | i, .literal _ :: segs => tokensFrom (i + 1) segs
  | i, .token w :: segs => (i, w) :: tokensFrom (i + w.length) segs

variable (m) in
/-- The tokens of a text with the positions where they start. -/
def tokens (text : List α) : List (ℕ × List α) := tokensFrom 0 (m.segments text)

variable (m) in
/-- The position lies strictly inside a token. -/
def Splits (text : List α) (k : ℕ) : Prop := ∃ p ∈ m.tokens text, p.1 < k ∧ k < p.1 + p.2.length

theorem tokensFrom_append (i : ℕ) (segs segs' : List (Segment α)) :
    tokensFrom i (segs ++ segs') =
      tokensFrom i segs ++ tokensFrom (i + (flatten segs).length) segs' := by
  induction segs generalizing i with
  | nil => rfl
  | cons seg segs ih =>
      cases seg with
      | literal c =>
          rw [length_flatten_cons, ← Nat.add_assoc]
          exact ih (i + 1)
      | token w =>
          rw [length_flatten_cons, ← Nat.add_assoc]
          exact congrArg (_ :: ·) (ih (i + w.length))

theorem le_of_mem_tokensFrom {i : ℕ} {segs : List (Segment α)} {p : ℕ × List α}
    (h : p ∈ tokensFrom i segs) : i ≤ p.1 ∧ p.1 + p.2.length ≤ i + (flatten segs).length := by
  induction segs generalizing i with
  | nil => cases h
  | cons seg segs ih =>
      rw [length_flatten_cons]
      cases seg with
      | literal c =>
          obtain ⟨hle, hend⟩ := ih (i := i + 1) h
          dsimp only [Segment.text, List.length_cons, List.length_nil]
          omega
      | token w =>
          dsimp only [Segment.text]
          rcases List.mem_cons.1 h with rfl | h
          · dsimp only
            omega
          · obtain ⟨hle, hend⟩ := ih h
            omega

theorem mem_of_mem_tokensFrom {i : ℕ} {segs : List (Segment α)} {p : ℕ × List α}
    (h : p ∈ tokensFrom i segs) : Segment.token p.2 ∈ segs := by
  induction segs generalizing i with
  | nil => cases h
  | cons seg segs ih =>
      cases seg with
      | literal c => exact List.mem_cons_of_mem _ (ih h)
      | token w =>
          rcases List.mem_cons.1 h with rfl | h
          · exact List.mem_cons_self
          · exact List.mem_cons_of_mem _ (ih h)

/-- Segments can be cut at every position that lies strictly inside none of their tokens. -/
theorem exists_cut {segs : List (Segment α)} {i k : ℕ} (hi : i ≤ k)
    (hk : k ≤ i + (flatten segs).length)
    (hcut : ∀ p ∈ tokensFrom i segs, ¬ (p.1 < k ∧ k < p.1 + p.2.length)) :
    ∃ pre post, segs = pre ++ post ∧ i + (flatten pre).length = k := by
  induction segs generalizing i with
  | nil => exact ⟨[], [], rfl, Nat.le_antisymm hi hk⟩
  | cons seg segs ih =>
      rcases Nat.eq_or_lt_of_le hi with heq | hlt
      · exact ⟨[], seg :: segs, rfl, heq⟩
      · rw [length_flatten_cons] at hk
        have hnext : i + seg.text.length ≤ k ∧
            ∀ p ∈ tokensFrom (i + seg.text.length) segs, ¬ (p.1 < k ∧ k < p.1 + p.2.length) := by
          cases seg with
          | literal c => exact ⟨hlt, hcut⟩
          | token w =>
              refine ⟨Nat.le_of_not_lt fun hinside => ?_, fun p hp =>
                hcut p (List.mem_cons_of_mem _ hp)⟩
              exact hcut (i, w) List.mem_cons_self ⟨hlt, hinside⟩
        obtain ⟨pre, post, rfl, hlen⟩ := ih hnext.1 (by omega) hnext.2
        refine ⟨seg :: pre, post, rfl, ?_⟩
        rw [length_flatten_cons]
        omega

/-- A text is read as two texts at every position that lies strictly inside no token. -/
theorem segments_append {k : ℕ} (hk : k ≤ text.length) (hcut : ¬ m.Splits text k) :
    m.segments text = m.segments (text.take k) ++ m.segments (text.drop k) := by
  have hk' : k ≤ 0 + (flatten (m.segments text)).length := by
    rw [flatten_segments, Nat.zero_add]
    exact hk
  obtain ⟨pre, post, hsegs, hlen⟩ :=
    exists_cut (Nat.zero_le k) hk' fun p hp hinside => hcut ⟨p, hp, hinside⟩
  rw [Nat.zero_add] at hlen
  obtain ⟨hpre, hpost⟩ := segments_of_append (m := m) (x := text.take k) (y := text.drop k)
    (by rw [List.take_append_drop]; exact hsegs) (by rw [List.length_take_of_le hk]; exact hlen)
  rw [hpre, hpost]
  exact hsegs

/-! ### Rendering -/

variable (ρ : List α → List α)

variable (m) in
/-- The text with every token replaced. -/
def render (text : List α) : List α := (m.segments text).flatMap (Segment.render ρ)

variable (m) in
/-- Where a position of the text ends up in the rendered text. -/
def position (text : List α) (k : ℕ) : ℕ := (m.render ρ (text.take k)).length

variable {ρ}

theorem render_append {k : ℕ} (hk : k ≤ text.length) (hcut : ¬ m.Splits text k) :
    m.render ρ text = m.render ρ (text.take k) ++ m.render ρ (text.drop k) := by
  unfold render
  rw [segments_append hk hcut, List.flatMap_append]

/-- A cut of a text is a cut of its beginnings that contain it. -/
theorem not_splits_take {i j : ℕ} (hj : j ≤ text.length) (hi : ¬ m.Splits text i)
    (hcut : ¬ m.Splits text j) : ¬ m.Splits (text.take j) i := by
  rintro ⟨p, hp, hinside⟩
  refine hi ⟨p, ?_, hinside⟩
  unfold tokens
  rw [segments_append hj hcut, tokensFrom_append]
  exact List.mem_append_left _ hp

theorem render_take {i j : ℕ} (hij : i ≤ j) (hj : j ≤ text.length) (hi : ¬ m.Splits text i)
    (hcut : ¬ m.Splits text j) :
    m.render ρ (text.take j) = m.render ρ (text.take i) ++ m.render ρ ((text.take j).drop i) := by
  have hlen : (text.take j).length = j := List.length_take_of_le hj
  rw [render_append (hlen.symm ▸ hij) (not_splits_take hj hi hcut), List.take_take,
    Nat.min_eq_left hij]

theorem position_mono {i j : ℕ} (hij : i ≤ j) (hj : j ≤ text.length) (hi : ¬ m.Splits text i)
    (hcut : ¬ m.Splits text j) : m.position ρ text i ≤ m.position ρ text j := by
  unfold position
  rw [render_take hij hj hi hcut, List.length_append]
  exact Nat.le_add_right _ _

theorem position_le {k : ℕ} (hk : k ≤ text.length) (hcut : ¬ m.Splits text k) :
    m.position ρ text k ≤ (m.render ρ text).length := by
  unfold position
  rw [render_append hk hcut, List.length_append]
  exact Nat.le_add_right _ _

/-- **Rendering commutes with slicing at cuts.** -/
theorem render_slice {i j : ℕ} (hij : i ≤ j) (hj : j ≤ text.length) (hi : ¬ m.Splits text i)
    (hcut : ¬ m.Splits text j) :
    ((m.render ρ text).take (m.position ρ text j)).drop (m.position ρ text i) =
      m.render ρ ((text.take j).drop i) := by
  unfold position
  rw [render_append hj hcut, List.take_left, render_take hij hj hi hcut, List.drop_left]

/-- How much longer the text gets by replacing the tokens that satisfy a condition. -/
def growth (ρ : List α → List α) (P : ℕ × List α → Bool) (tokens : List (ℕ × List α)) : ℤ :=
  ((tokens.filter P).map fun p => ((ρ p.2).length : ℤ) - p.2.length).sum

theorem length_render_segments (i : ℕ) (segs : List (Segment α)) :
    ((segs.flatMap (Segment.render ρ)).length : ℤ) =
      (flatten segs).length + growth ρ (fun _ => true) (tokensFrom i segs) := by
  induction segs generalizing i with
  | nil => rfl
  | cons seg segs ih =>
      rw [List.flatMap_cons, List.length_append, length_flatten_cons]
      cases seg with
      | literal c =>
          have h := ih (i + 1)
          dsimp only [Segment.render, Segment.text, tokensFrom, List.length_cons, List.length_nil]
          push_cast
          omega
      | token w =>
          have h := ih (i + w.length)
          simp only [growth, List.filter_true] at h ⊢
          dsimp only [Segment.render, Segment.text, tokensFrom]
          rw [List.map_cons, List.sum_cons]
          push_cast
          omega

/-- **The image of a cut** is the cut plus the growth of the tokens that end before it. -/
theorem position_eq_add {k : ℕ} (hk : k ≤ text.length) (hcut : ¬ m.Splits text k) :
    (m.position ρ text k : ℤ) =
      k + growth ρ (fun p => p.1 + p.2.length ≤ k) (m.tokens text) := by
  have hlen : (text.take k).length = k := List.length_take_of_le hk
  have hpre : (flatten (m.segments (text.take k))).length = k := by rw [flatten_segments, hlen]
  unfold position render growth tokens
  rw [length_render_segments 0, hpre, segments_append hk hcut, tokensFrom_append, hpre,
    List.filter_append]
  have hbefore : (tokensFrom 0 (m.segments (text.take k))).filter
      (fun p => decide (p.1 + p.2.length ≤ k)) = tokensFrom 0 (m.segments (text.take k)) :=
    List.filter_eq_self.2 fun p hp => by
      have hend := (le_of_mem_tokensFrom hp).2
      rw [hpre, Nat.zero_add] at hend
      exact decide_eq_true hend
  have hafter : (tokensFrom (0 + k) (m.segments (text.drop k))).filter
      (fun p => decide (p.1 + p.2.length ≤ k)) = [] :=
    List.filter_eq_nil_iff.2 fun p hp => by
      have hstart := (le_of_mem_tokensFrom hp).1
      have hne := token_length_pos (mem_of_mem_tokensFrom hp)
      simp only [decide_eq_true_eq]
      omega
  rw [hbefore, hafter, List.append_nil, growth, List.filter_true]

/-- A slice is rendered to nothing exactly when it has only tokens with empty replacements. -/
theorem render_eq_nil_iff : m.render ρ text = [] ↔
    ∀ seg ∈ m.segments text, ∃ w, seg = .token w ∧ ρ w = [] := by
  unfold render
  rw [List.flatMap_eq_nil_iff]
  refine forall_congr' fun seg => forall_congr' fun _ => ?_
  cases seg with
  | literal c => simp [Segment.render]
  | token w => simp [Segment.render]

/-! ### Codes -/

/-- When every symbol is coded by symbols of which the first alone can start a token, and a coded
text starts with a token exactly when the text does, the code of a text has the coded segments. -/
theorem segments_encode {m : TokenMatcher α} {m' : TokenMatcher β} {enc : α → List β}
    (hhead : ∀ text, m'.length? (text.flatMap enc) =
      (m.length? text).map fun n => ((text.take n).flatMap enc).length)
    (hcode : ∀ c, ∃ b bs, enc c = b :: bs ∧ ∀ b' ∈ bs, ∀ rest, m'.length? (b' :: rest) = none)
    (text : List α) :
    m'.segments (text.flatMap enc) = (m.segments text).flatMap (Segment.encode enc) := by
  induction text using segments_induction (m := m) with
  | nil => rfl
  | literal c cs h ih =>
      obtain ⟨b, bs, henc, hrest⟩ := hcode c
      have hskip : ∀ l : List β, (∀ b' ∈ l, ∀ rest, m'.length? (b' :: rest) = none) →
          m'.segments (l ++ cs.flatMap enc) = l.map .literal ++ m'.segments (cs.flatMap enc) := by
        intro l hl
        induction l with
        | nil => rfl
        | cons b' l ihl =>
            rw [List.cons_append, segments_literal (hl b' List.mem_cons_self _)]
            exact congrArg _ (ihl fun b'' hb'' => hl b'' (List.mem_cons_of_mem _ hb''))
      have hnone := hhead (c :: cs)
      rw [h, Option.map_none, List.flatMap_cons, henc, List.cons_append] at hnone
      rw [segments_literal h, List.flatMap_cons, List.flatMap_cons, henc, List.cons_append,
        segments_literal hnone, hskip bs hrest, ih]
      dsimp only [Segment.encode]
      rw [henc]
      rfl
  | token text n h ih =>
      have hsome := hhead text
      rw [h, Option.map_some] at hsome
      have hsplit : text.flatMap enc = (text.take n).flatMap enc ++ (text.drop n).flatMap enc := by
        rw [← List.flatMap_append, List.take_append_drop]
      rw [segments_token hsome, segments_token h, List.flatMap_cons, ← ih, hsplit, List.take_left,
        List.drop_left]
      rfl

theorem tokensFrom_literals (i : ℕ) (l : List β) (segs : List (Segment β)) :
    tokensFrom i (l.map .literal ++ segs) = tokensFrom (i + l.length) segs := by
  induction l generalizing i with
  | nil => rfl
  | cons b l ih =>
      rw [List.length_cons, ← Nat.add_assoc, Nat.add_right_comm]
      exact ih (i + 1)

theorem tokensFrom_encode (enc : α → List β) (pre : List α) (segs : List (Segment α)) :
    tokensFrom (pre.flatMap enc).length (segs.flatMap (Segment.encode enc)) =
      (tokensFrom pre.length segs).map fun p =>
        ((((pre ++ flatten segs).take p.1).flatMap enc).length, p.2.flatMap enc) := by
  induction segs generalizing pre with
  | nil => rfl
  | cons seg segs ih =>
      have hnext := ih (pre ++ seg.text)
      rw [List.flatMap_append, List.length_append, List.length_append, List.append_assoc] at hnext
      cases seg with
      | literal c =>
          have henc : [c].flatMap enc = enc c := by simp
          rw [List.flatMap_cons, Segment.encode, tokensFrom_literals, ← henc]
          exact hnext
      | token w =>
          have hstart : ((pre ++ flatten (.token w :: segs)).take pre.length) = pre :=
            List.take_left
          rw [List.flatMap_cons, Segment.encode, List.singleton_append]
          simp only [tokensFrom, List.map_cons, hstart]
          exact congrArg _ hnext

/-- The tokens of the code, at the positions of the code. -/
theorem tokens_encode {m : TokenMatcher α} {m' : TokenMatcher β} {enc : α → List β}
    (h : m'.segments (text.flatMap enc) = (m.segments text).flatMap (Segment.encode enc)) :
    m'.tokens (text.flatMap enc) =
      (m.tokens text).map fun p => (((text.take p.1).flatMap enc).length, p.2.flatMap enc) := by
  have htokens := tokensFrom_encode enc [] (m.segments text)
  rw [List.nil_append, flatten_segments] at htokens
  unfold tokens
  rw [h]
  exact htokens

/-- Rendering the code gives the code of the rendering. -/
theorem render_encode {m : TokenMatcher α} {m' : TokenMatcher β} {enc : α → List β}
    {ρ : List α → List α} {ρ' : List β → List β}
    (h : m'.segments (text.flatMap enc) = (m.segments text).flatMap (Segment.encode enc))
    (hρ : ∀ w, .token w ∈ m.segments text → ρ' (w.flatMap enc) = (ρ w).flatMap enc) :
    m'.render ρ' (text.flatMap enc) = (m.render ρ text).flatMap enc := by
  unfold render
  rw [h, List.flatMap_assoc, List.flatMap_assoc]
  refine List.flatMap_congr fun seg hseg => ?_
  cases seg with
  | literal c => simp [Segment.encode, Segment.render, List.flatMap_map]
  | token w => simpa [Segment.encode, Segment.render] using hρ w hseg

end TokenMatcher

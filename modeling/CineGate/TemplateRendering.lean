/-
**When a template renders, and what it renders to.**

The loops of `render_template` and `_remap_entities` are read over the UTF-16 units of the body: the
text they build is the rendering of the units, the spans are its variables, and the sums of the
signed deltas are the growth of the variables before an offset.  So the new range of an entity is
the image of the old one.

* `renderUnits`, `renderText`, `newOffset` — the rendering of units and of the body, and the image
  of an offset;
* `SplitsVariable` — an offset lies strictly inside a variable;
* `remapEntity_eq` — what `_remap_entities` makes of an entity with a given range;
* `TemplateFits`, `renderTemplate_ok`, `renderTemplate_error` — when a template renders.
-/

import CineGate.Templates

set_option relaxedAutoImplicit false
set_option autoImplicit false

namespace CineGate

/-! ### Variables in units -/

/-- `%[a-z_]+%` over code units. -/
def unitMatcher : TokenMatcher ℕ := .delimited isPercent isVariableSymbol

/-- What replaces a variable, in units. -/
def unitReplacement (replacements : Str → Str) (word : List ℕ) : List ℕ :=
  Utf16.units (replacements (word.map Char.ofNat))

/-- The units with every variable replaced. -/
def renderUnits (replacements : Str → Str) (text : List ℕ) : List ℕ :=
  unitMatcher.render (unitReplacement replacements) text

/-- The text with every variable replaced. -/
def renderText (replacements : Str → Str) (body : Str) : Str :=
    variableMatcher.render replacements body

/-- Where an offset of the body ends up. -/
def newOffset (replacements : Str → Str) (body : Str) (k : ℕ) : ℕ :=
  unitMatcher.position (unitReplacement replacements) (Utf16.units body) k

/-- The offset lies strictly inside a variable of the body. -/
def SplitsVariable (body : Str) (k : ℕ) : Prop :=
  ∃ span ∈ finditer variableRe body,
    utf16Len (body.take span.1) < k ∧ k < utf16Len (body.take span.2)

variable {body : Str} {replacements : Str → Str}

theorem isPercent_lt {u : ℕ} (h : isPercent u = true) : u < 0xD800 := by
  have heq : u = 37 := of_decide_eq_true h
  omega

theorem isVariableSymbol_lt {u : ℕ} (h : isVariableSymbol u = true) : u < 0xD800 := by
  have hcases : (97 ≤ u ∧ u ≤ 122) ∨ u = 95 := by
    simpa [isVariableSymbol, Char.toNat] using h
  omega

theorem segments_unitMatcher (body : Str) :
    unitMatcher.segments (Utf16.units body) =
      (variableMatcher.segments body).flatMap (Segment.encode Utf16.encode) :=
  Utf16.segments_units (fun _ => isPercent_lt) (fun _ => isVariableSymbol_lt) body

/-- `finditer` finds the tokens of a text. -/
theorem finditerFrom_eq (m : TokenMatcher Char) (skip : ℕ) (before : Option Char) (i : ℕ)
    (text : Str) (hskip : skip ≤ text.length) :
    finditerFrom (fun _ text => m.length? text) skip before i text =
      (TokenMatcher.tokensFrom (i + skip) (m.segmentsFrom skip text)).map fun p =>
        (p.1, p.1 + p.2.length) := by
  induction text generalizing skip before i with
  | nil =>
      cases Nat.le_zero.1 hskip
      rfl
  | cons c cs ih =>
      cases skip with
      | succ skip =>
          rw [finditerFrom, ih skip (some c) (i + 1) (Nat.le_of_succ_le_succ hskip),
            Nat.add_right_comm]
          rfl
      | zero =>
          cases hmatch : m.length? (c :: cs) with
          | none =>
              rw [Nat.add_zero]
              simp only [finditerFrom, TokenMatcher.segmentsFrom, hmatch]
              exact ih 0 (some c) (i + 1) (Nat.zero_le _)
          | some n =>
              have hle := m.le hmatch
              have hpos := m.pos hmatch
              obtain ⟨n, rfl⟩ := Nat.exists_eq_succ_of_ne_zero (Nat.ne_of_gt hpos)
              have hlen : ((c :: cs).take (n + 1)).length = n + 1 := List.length_take_of_le hle
              rw [Nat.add_zero]
              simp only [finditerFrom, TokenMatcher.segmentsFrom, hmatch, TokenMatcher.tokensFrom,
                List.map_cons, hlen]
              rw [ih n (some c) (i + 1) (Nat.le_of_succ_le_succ hle), Nat.add_assoc i 1 n,
                Nat.add_comm 1 n]
              rfl

theorem finditer_variableRe (body : Str) :
    finditer variableRe body =
      (variableMatcher.tokens body).map fun p => (p.1, p.1 + p.2.length) :=
  finditerFrom_eq variableMatcher 0 none 0 body (Nat.zero_le _)

/-! ### The loop over the variables -/

theorem slice_self (i : ℕ) : slice body (i, i) = [] :=
  List.drop_eq_nil_of_le (List.length_take_le i body)

theorem slice_append {i j k : ℕ} (hij : i ≤ j) (hjk : j ≤ k) :
    slice body (i, k) = slice body (i, j) ++ slice body (j, k) := by
  unfold slice
  dsimp only
  rw [List.drop_take, List.drop_take, List.drop_take, ← Nat.sub_add_sub_cancel hjk hij,
    Nat.add_comm (k - j), List.take_add, List.drop_drop, Nat.add_sub_of_le hij]

/-- The text of a token that is read at a position. -/
theorem slice_of_drop {i : ℕ} {w rest : Str} (h : body.drop i = w ++ rest) :
    slice body (i, i + w.length) = w := by
  unfold slice
  dsimp only
  rw [← List.take_drop, h, List.take_left]

theorem drop_of_drop {i : ℕ} {w rest : Str} (h : body.drop i = w ++ rest) :
    body.drop (i + w.length) = rest := by
  rw [← List.drop_drop, h, List.drop_left]

variable (replacements) in
/-- From a cursor on the loop builds the rendering of what it has not read yet. -/
theorem replaceVariables_eq (cursor i : ℕ) (segs : List (Segment Char)) (hcursor : cursor ≤ i)
    (hrest : body.drop i = TokenMatcher.flatten segs) :
    replaceVariables body replacements cursor
        ((TokenMatcher.tokensFrom i segs).map fun p => (p.1, p.1 + p.2.length)) =
      (slice body (cursor, i) ++ segs.flatMap (Segment.render replacements),
        (TokenMatcher.tokensFrom i segs).map fun p =>
          replacementSpan body (p.1, p.1 + p.2.length) (replacements p.2)) := by
  induction segs generalizing cursor i with
  | nil =>
      have hall : slice body (cursor, i) = body.drop cursor := by
        unfold slice
        rw [List.take_of_length_le (List.drop_eq_nil_iff.1 hrest)]
      rw [hall, List.flatMap_nil, List.append_nil]
      rfl
  | cons seg segs ih =>
      have hdrop := drop_of_drop (w := seg.text) hrest
      have hslice := slice_of_drop (w := seg.text) hrest
      cases seg with
      | literal c =>
          have hnext := ih cursor (i + 1) (Nat.le_succ_of_le hcursor) hdrop
          rw [slice_append hcursor (Nat.le_succ i), List.append_assoc] at hnext
          have hliteral : slice body (i, i + 1) = [c] := hslice
          rw [hliteral] at hnext
          exact hnext
      | token w =>
          have hnext := ih (i + w.length) (i + w.length) le_rfl hdrop
          have htoken : slice body (i, i + w.length) = w := hslice
          rw [slice_self, List.nil_append] at hnext
          simp only [TokenMatcher.tokensFrom, List.map_cons, replaceVariables, hnext, htoken,
            List.flatMap_cons, Segment.render, List.append_assoc]

/-- The text and the spans that `render_template` builds. -/
theorem replaceVariables_body (body : Str) (replacements : Str → Str) :
    replaceVariables body replacements 0 (finditer variableRe body) =
      (renderText replacements body, (variableMatcher.tokens body).map fun p =>
        replacementSpan body (p.1, p.1 + p.2.length) (replacements p.2)) := by
  rw [finditer_variableRe]
  have h := replaceVariables_eq replacements 0 0
    (variableMatcher.segments body) le_rfl (TokenMatcher.flatten_segments _ body).symm
  rw [slice_self, List.nil_append] at h
  exact h

/-! ### Spans in units -/

/-- The span of a variable of the units. -/
def unitSpan (replacements : Str → Str) (p : ℕ × List ℕ) : ReplacementSpan where
  start := p.1
  stop := p.1 + p.2.length
  replacementLength := (unitReplacement replacements p.2).length
  originalLength := p.2.length
  name := p.2.map Char.ofNat

theorem unitTokens_eq (body : Str) :
    unitMatcher.tokens (Utf16.units body) =
      (variableMatcher.tokens body).map fun p => (utf16Len (body.take p.1), Utf16.units p.2) :=
  TokenMatcher.tokens_encode (segments_unitMatcher body)

theorem drop_of_mem_tokensFrom {i : ℕ} {segs : List (Segment Char)} {p : ℕ × Str}
    (hrest : body.drop i = TokenMatcher.flatten segs) (hp : p ∈ TokenMatcher.tokensFrom i segs) :
    ∃ rest, body.drop p.1 = p.2 ++ rest := by
  induction segs generalizing i with
  | nil => cases hp
  | cons seg segs ih =>
      have hdrop := drop_of_drop (w := seg.text) hrest
      cases seg with
      | literal c => exact ih hdrop hp
      | token w =>
          rcases List.mem_cons.1 hp with rfl | hp
          · exact ⟨_, hrest⟩
          · exact ih hdrop hp

theorem slice_variable {p : ℕ × Str} (hp : p ∈ variableMatcher.tokens body) :
    slice body (p.1, p.1 + p.2.length) = p.2 := by
  obtain ⟨rest, hrest⟩ :=
    drop_of_mem_tokensFrom (i := 0) (TokenMatcher.flatten_segments _ body).symm hp
  exact slice_of_drop hrest

theorem utf16Len_take_variable {p : ℕ × Str} (hp : p ∈ variableMatcher.tokens body) :
    utf16Len (body.take (p.1 + p.2.length)) = utf16Len (body.take p.1) + utf16Len p.2 := by
  obtain ⟨rest, hrest⟩ :=
    drop_of_mem_tokensFrom (i := 0) (TokenMatcher.flatten_segments _ body).symm hp
  unfold utf16Len
  rw [List.take_add, hrest, List.take_left, Utf16.units_append, List.length_append]

theorem length?_variable {p : ℕ × Str} (hp : p ∈ variableMatcher.tokens body) :
    variableMatcher.length? p.2 = some p.2.length :=
  TokenMatcher.length?_of_token (TokenMatcher.mem_of_mem_tokensFrom hp)

theorem map_ofNat_variable {p : ℕ × Str} (hp : p ∈ variableMatcher.tokens body) :
    (Utf16.units p.2).map Char.ofNat = p.2 :=
  Utf16.map_ofNat_units_name (fun _ => isPercent_lt) (fun _ => isVariableSymbol_lt)
    (length?_variable hp)

/-- The spans of the loop are the variables of the units. -/
theorem spans_eq (body : Str) (replacements : Str → Str) :
    ((variableMatcher.tokens body).map fun p =>
        replacementSpan body (p.1, p.1 + p.2.length) (replacements p.2)) =
      (unitMatcher.tokens (Utf16.units body)).map (unitSpan replacements) := by
  rw [unitTokens_eq, List.map_map]
  refine List.map_congr_left fun p hp => ?_
  have hstop := utf16Len_take_variable hp
  have hname := map_ofNat_variable hp
  simp only [replacementSpan, unitSpan, unitReplacement, Function.comp, hstop, slice_variable hp,
    Nat.add_sub_cancel_left, hname]
  rfl

/-- The spans of the validator are those of the identity. -/
theorem validatorSpans_eq (body : Str) :
    ((finditer variableRe body).map fun span : ℕ × ℕ =>
        { start := utf16Len (body.take span.1)
          stop := utf16Len (body.take span.2)
          replacementLength := utf16Len (slice body span)
          originalLength := utf16Len (slice body span)
          name := slice body span : ReplacementSpan }) =
      (unitMatcher.tokens (Utf16.units body)).map (unitSpan id) := by
  rw [← spans_eq, finditer_variableRe, List.map_map]
  refine List.map_congr_left fun p hp => ?_
  have hstop := utf16Len_take_variable hp
  simp only [replacementSpan, Function.comp, hstop, slice_variable hp, Nat.add_sub_cancel_left, id]

theorem splitsVariable_iff {k : ℕ} :
    SplitsVariable body k ↔ unitMatcher.Splits (Utf16.units body) k := by
  unfold SplitsVariable TokenMatcher.Splits
  rw [finditer_variableRe, unitTokens_eq]
  constructor
  · rintro ⟨_, hspan, hinside⟩
    obtain ⟨p, hp, rfl⟩ := List.mem_map.1 hspan
    dsimp only at hinside
    rw [utf16Len_take_variable hp] at hinside
    exact ⟨_, List.mem_map.2 ⟨p, hp, rfl⟩, hinside⟩
  · rintro ⟨_, htoken, hinside⟩
    obtain ⟨p, hp, rfl⟩ := List.mem_map.1 htoken
    refine ⟨_, List.mem_map.2 ⟨p, hp, rfl⟩, ?_⟩
    dsimp only
    rw [utf16Len_take_variable hp]
    exact hinside

/-- The units of the rendered text are the rendering of the units. -/
theorem units_renderText (body : Str) (replacements : Str → Str) :
    Utf16.units (renderText replacements body) = renderUnits replacements (Utf16.units body) := by
  refine (TokenMatcher.render_encode (segments_unitMatcher body) fun w hw => ?_).symm
  have hname : (Utf16.units w).map Char.ofNat = w :=
    Utf16.map_ofNat_units_name (fun _ => isPercent_lt) (fun _ => isVariableSymbol_lt)
      (TokenMatcher.length?_of_token hw)
  exact congrArg (fun name => Utf16.units (replacements name)) hname

/-! ### Loops that can fail -/

theorem mapM_ok {α β ε : Type} {f : α → Except ε β} {g : α → β} {l : List α}
    (h : ∀ a ∈ l, f a = .ok (g a)) : l.mapM f = .ok (l.map g) := by
  induction l with
  | nil => rfl
  | cons a l ih =>
      rw [List.mapM_cons, h a List.mem_cons_self, ih fun b hb => h b (List.mem_cons_of_mem _ hb)]
      rfl

/-- When some call fails, `mapM` fails with an error of one of the calls. -/
theorem mapM_error {α β ε : Type} {f : α → Except ε β} {P : ε → Prop} {l : List α}
    (hall : ∀ a ∈ l, ∀ e, f a = .error e → P e) (hsome : ∃ a ∈ l, ∃ e, f a = .error e) :
    ∃ e, l.mapM f = .error e ∧ P e := by
  induction l with
  | nil =>
      obtain ⟨a, ha, -⟩ := hsome
      cases ha
  | cons a l ih =>
      rw [List.mapM_cons]
      cases ha : f a with
      | error e => exact ⟨e, rfl, hall a List.mem_cons_self e ha⟩
      | ok b =>
          obtain ⟨a', ha', e, he⟩ := hsome
          rcases List.mem_cons.1 ha' with rfl | ha'
          · cases ha.symm.trans he
          · obtain ⟨e', herror, hP⟩ :=
              ih (fun a' ha' => hall a' (List.mem_cons_of_mem _ ha')) ⟨a', ha', e, he⟩
            refine ⟨e', ?_, hP⟩
            rw [herror]
            rfl

/-! ### The loop over the spans -/

/-- The range of an entity that lies in a text of the given length. -/
def EntityDict.range? [UnicodeData] (bodyLength : ℕ) (entity : EntityDict) : Option (ℕ × ℕ) :=
  match entity.offset.bind intOf, entity.length.bind intOf with
  | some start, some length =>
      if start < 0 ∨ length ≤ 0 ∨ bodyLength < start + length then none
      else some (start.toNat, (start + length).toNat)
  | _, _ => none

section Remap

variable {tokens : List (ℕ × List ℕ)} {start stop : ℕ}

theorem growth_cons (P : ℕ × List ℕ → Bool) (p : ℕ × List ℕ) :
    TokenMatcher.growth (unitReplacement replacements) P (p :: tokens) =
      (if P p then ((unitReplacement replacements p.2).length : ℤ) - p.2.length else 0) +
        TokenMatcher.growth (unitReplacement replacements) P tokens := by
  unfold TokenMatcher.growth
  cases h : P p with
  | true => rw [List.filter_cons_of_pos h, List.map_cons, List.sum_cons, if_pos rfl]
  | false => rw [List.filter_cons_of_neg (by simp [h]), if_neg (by simp), zero_add]

/-- One span that is not split moves the ends of the range past the variables they follow. -/
theorem remapSpan_unitSpan {p : ℕ × List ℕ} (range : ℤ × ℤ) (hle : start ≤ stop)
    (hstart : ¬ (p.1 < start ∧ start < p.1 + p.2.length))
    (hstop : ¬ (p.1 < stop ∧ stop < p.1 + p.2.length)) :
    remapSpan start stop range (unitSpan replacements p) =
      .ok (range.1 + (if p.1 + p.2.length ≤ start then
            ((unitReplacement replacements p.2).length : ℤ) - p.2.length else 0),
          range.2 + (if p.1 + p.2.length ≤ stop then
            ((unitReplacement replacements p.2).length : ℤ) - p.2.length else 0)) := by
  have hnone : ¬ (((p.1 : ℤ) < start ∧ (start : ℤ) < (p.1 + p.2.length : ℕ)) ∨
      ((p.1 : ℤ) < stop ∧ (stop : ℤ) < (p.1 + p.2.length : ℕ))) := by omega
  refine (if_neg hnone).trans ?_
  by_cases hbefore : p.1 + p.2.length ≤ start
  · rw [if_pos hbefore, if_pos (hbefore.trans hle)]
    exact if_pos (Int.ofNat_le.2 hbefore)
  · rw [if_neg hbefore, add_zero]
    refine (if_neg fun h => hbefore (Int.ofNat_le.1 h)).trans ?_
    by_cases hinside : p.1 + p.2.length ≤ stop
    · have hfrom : start ≤ p.1 := by omega
      rw [if_pos hinside]
      exact if_pos ⟨Int.ofNat_le.2 hfrom, Int.ofNat_le.2 hinside⟩
    · rw [if_neg hinside, add_zero]
      exact if_neg fun h => hinside (Int.ofNat_le.1 h.2)

/-- The loop adds up the growth of the variables before the ends of the range. -/
theorem foldlM_remapSpan (range : ℤ × ℤ) (hle : start ≤ stop)
    (hstart : ∀ p ∈ tokens, ¬ (p.1 < start ∧ start < p.1 + p.2.length))
    (hstop : ∀ p ∈ tokens, ¬ (p.1 < stop ∧ stop < p.1 + p.2.length)) :
    (tokens.map (unitSpan replacements)).foldlM (remapSpan start stop) range =
      .ok (range.1 + TokenMatcher.growth (unitReplacement replacements)
            (fun p => p.1 + p.2.length ≤ start) tokens,
          range.2 + TokenMatcher.growth (unitReplacement replacements)
            (fun p => p.1 + p.2.length ≤ stop) tokens) := by
  induction tokens generalizing range with
  | nil =>
      rw [List.map_nil, List.foldlM_nil]
      simp only [TokenMatcher.growth, List.filter_nil, List.map_nil, List.sum_nil, add_zero]
      rfl
  | cons p tokens ih =>
      rw [List.map_cons, List.foldlM_cons, remapSpan_unitSpan range hle
        (hstart p List.mem_cons_self) (hstop p List.mem_cons_self)]
      refine (ih _ (fun q hq => hstart q (List.mem_cons_of_mem _ hq))
        fun q hq => hstop q (List.mem_cons_of_mem _ hq)).trans ?_
      simp only [growth_cons, decide_eq_true_eq, add_assoc]

variable (replacements) in
/-- The loop stops at the first span that is split. -/
theorem foldlM_remapSpan_splits (range : ℤ × ℤ) (hle : start ≤ stop)
    (hsplits : ∃ p ∈ tokens, (p.1 < start ∧ start < p.1 + p.2.length) ∨
      (p.1 < stop ∧ stop < p.1 + p.2.length)) :
    ∃ name, (tokens.map (unitSpan replacements)).foldlM (remapSpan start stop) range =
      .error (.splits name) := by
  induction tokens generalizing range with
  | nil =>
      obtain ⟨p, hp, -⟩ := hsplits
      cases hp
  | cons p tokens ih =>
      rw [List.map_cons, List.foldlM_cons]
      by_cases hp : (p.1 < start ∧ start < p.1 + p.2.length) ∨
        (p.1 < stop ∧ stop < p.1 + p.2.length)
      · refine ⟨p.2.map Char.ofNat, ?_⟩
        have herror : remapSpan start stop range (unitSpan replacements p) =
            .error (.splits (p.2.map Char.ofNat)) := by
          have hsome : ((p.1 : ℤ) < start ∧ (start : ℤ) < (p.1 + p.2.length : ℕ)) ∨
              ((p.1 : ℤ) < stop ∧ (stop : ℤ) < (p.1 + p.2.length : ℕ)) := by omega
          exact if_pos hsome
        rw [herror]
        rfl
      · obtain ⟨hstart, hstop⟩ := not_or.1 hp
        obtain ⟨q, hq, hsplit⟩ := hsplits
        rw [remapSpan_unitSpan range hle hstart hstop]
        rcases List.mem_cons.1 hq with rfl | hq
        · exact absurd hsplit hp
        · exact ih _ ⟨q, hq, hsplit⟩

end Remap

variable [UnicodeData]

/-- An entity with a range has integer offsets, and they are its ends. -/
theorem offsets_of_range {bodyLength : ℕ} {entity : EntityDict} {start stop : ℕ}
    (h : entity.range? bodyLength = some (start, stop)) :
    entity.offset.bind intOf = some (start : ℤ) ∧
      entity.length.bind intOf = some ((stop : ℤ) - start) ∧ start < stop ∧ stop ≤ bodyLength := by
  unfold EntityDict.range? at h
  cases hs : entity.offset.bind intOf with
  | none =>
      rw [hs] at h
      cases h
  | some s =>
      cases hl : entity.length.bind intOf with
      | none =>
          rw [hs, hl] at h
          cases h
      | some l =>
          rw [hs, hl] at h
          dsimp only at h
          split at h
          · cases h
          · obtain ⟨hstart, hstop⟩ := Prod.mk.inj (Option.some.inj h)
            have hs' : s = (start : ℤ) := by omega
            have hl' : l = (stop : ℤ) - start := by omega
            exact ⟨congrArg some hs', congrArg some hl', by omega, by omega⟩

theorem range?_bounds {bodyLength : ℕ} {entity : EntityDict} {start stop : ℕ}
    (h : entity.range? bodyLength = some (start, stop)) : start < stop ∧ stop ≤ bodyLength :=
  (offsets_of_range h).2.2

/-- An entity with a range goes through the spans. -/
theorem remapEntity_of_range {bodyLength : ℕ} {entity : EntityDict} {start stop : ℕ}
    (spans : List ReplacementSpan) (h : entity.range? bodyLength = some (start, stop)) :
    remapEntity bodyLength spans entity =
      (spans.foldlM (remapSpan start stop) ((start : ℤ), (stop : ℤ))).map fun range =>
        ⟨range.1, range.2 - range.1, entity.fields⟩ := by
  obtain ⟨hs, hl, hlt, hle⟩ := offsets_of_range h
  have hbounds : ¬((start : ℤ) < 0 ∨ (stop : ℤ) - start ≤ 0 ∨
      (bodyLength : ℤ) < start + ((stop : ℤ) - start)) := by omega
  have hstop : (start : ℤ) + ((stop : ℤ) - start) = stop := by omega
  rw [remapEntity, hs, hl]
  dsimp only
  rw [if_neg hbounds, hstop]

/-- **The new range of an entity** is the image of the old one; an end inside a variable is
refused. -/
theorem remapEntity_eq {entity : EntityDict} {start stop : ℕ}
    (h : entity.range? (utf16Len body) = some (start, stop))
    (hstart : ¬ SplitsVariable body start) (hstop : ¬ SplitsVariable body stop) :
    remapEntity (utf16Len body)
        ((unitMatcher.tokens (Utf16.units body)).map (unitSpan replacements)) entity =
      .ok ⟨newOffset replacements body start,
        newOffset replacements body stop - newOffset replacements body start, entity.fields⟩ := by
  obtain ⟨hlt, hle⟩ := range?_bounds h
  rw [splitsVariable_iff] at hstart hstop
  rw [remapEntity_of_range _ h, foldlM_remapSpan _ hlt.le
    (fun p hp hinside => hstart ⟨p, hp, hinside⟩) fun p hp hinside => hstop ⟨p, hp, hinside⟩]
  unfold newOffset
  rw [TokenMatcher.position_eq_add (hlt.le.trans hle) hstart,
    TokenMatcher.position_eq_add hle hstop]
  rfl

variable (replacements) in
theorem remapEntity_splits {entity : EntityDict} {start stop : ℕ}
    (h : entity.range? (utf16Len body) = some (start, stop))
    (hsplits : SplitsVariable body start ∨ SplitsVariable body stop) :
    ∃ name, remapEntity (utf16Len body)
      ((unitMatcher.tokens (Utf16.units body)).map (unitSpan replacements)) entity =
        .error (.splits name) := by
  obtain ⟨hlt, hle⟩ := range?_bounds h
  rw [splitsVariable_iff, splitsVariable_iff] at hsplits
  obtain ⟨name, herror⟩ := foldlM_remapSpan_splits replacements
    ((start : ℤ), (stop : ℤ)) hlt.le (by
      rcases hsplits with ⟨p, hp, hinside⟩ | ⟨p, hp, hinside⟩
      · exact ⟨p, hp, .inl hinside⟩
      · exact ⟨p, hp, .inr hinside⟩)
  refine ⟨name, ?_⟩
  rw [remapEntity_of_range _ h, herror]
  rfl

/-- An entity that lies outside the text, or has no range, is refused. -/
theorem remapEntity_none {entity : EntityDict} (spans : List ReplacementSpan) {bodyLength : ℕ}
    (h : entity.range? bodyLength = none) :
    remapEntity bodyLength spans entity = .error .outsideText ∨
      remapEntity bodyLength spans entity = .error .invalidOffsets := by
  unfold EntityDict.range? at h
  rw [remapEntity]
  cases hs : entity.offset.bind intOf with
  | none => exact .inr rfl
  | some s =>
      cases hl : entity.length.bind intOf with
      | none => exact .inr rfl
      | some l =>
          rw [hs, hl] at h
          dsimp only at h ⊢
          split at h
          · next hbounds => exact .inl (if_pos hbounds)
          · cases h

/-! ### When a template renders -/

/-- An end of the entity lies strictly inside a variable. -/
def EntityDict.SplitsVariable (body : Str) (entity : EntityDict) : Prop :=
  ∃ start stop, entity.range? (utf16Len body) = some (start, stop) ∧
    (CineGate.SplitsVariable body start ∨ CineGate.SplitsVariable body stop)

/-- The entity lies in the body, and its ends in no variable. -/
structure EntityDict.FitsBody (body : Str) (entity : EntityDict) : Prop where
  range : (entity.range? (utf16Len body)).isSome
  cut : ¬ entity.SplitsVariable body

/-- The replacement of a variable. -/
def replacementOf (replacements : Str → Option Str) (name : Str) : Str :=
    (replacements name).getD []

/-- The entity of the rendered text. -/
def EntityDict.remapped (replacements : Str → Str) (body : Str) (entity : EntityDict) :
    RemappedEntity :=
  let range := (entity.range? (utf16Len body)).getD (0, 0)
  ⟨newOffset replacements body range.1,
    newOffset replacements body range.2 - newOffset replacements body range.1, entity.fields⟩

variable {entities : List EntityDict}

theorem remapEntities_ok (h : ∀ entity ∈ entities, entity.FitsBody body) :
    remapEntities body entities
      ((unitMatcher.tokens (Utf16.units body)).map (unitSpan replacements)) =
      .ok (entities.map (EntityDict.remapped replacements body)) := by
  refine mapM_ok fun entity hentity => ?_
  obtain ⟨hrange, hcut⟩ := h entity hentity
  obtain ⟨⟨start, stop⟩, hsome⟩ := Option.isSome_iff_exists.1 hrange
  rw [remapEntity_eq hsome (fun hsplit => hcut ⟨start, stop, hsome, .inl hsplit⟩)
    fun hsplit => hcut ⟨start, stop, hsome, .inr hsplit⟩]
  unfold EntityDict.remapped
  rw [hsome]
  rfl

variable (replacements) in
/-- An entity that does not fit is refused, whatever the replacements are. -/
theorem remapEntity_error {entity : EntityDict} (h : ¬ entity.FitsBody body) :
    ∃ e, remapEntity (utf16Len body)
      ((unitMatcher.tokens (Utf16.units body)).map (unitSpan replacements)) entity = .error e := by
  cases hrange : entity.range? (utf16Len body) with
  | none =>
      rcases remapEntity_none ((unitMatcher.tokens (Utf16.units body)).map
        (unitSpan replacements)) hrange with herror | herror
      · exact ⟨_, herror⟩
      · exact ⟨_, herror⟩
  | some range =>
      have hsplits : entity.SplitsVariable body := by
        by_contra hcut
        exact h ⟨by rw [hrange]; rfl, hcut⟩
      obtain ⟨start, stop, hsome, hsplit⟩ := hsplits
      obtain ⟨name, herror⟩ := remapEntity_splits replacements hsome hsplit
      exact ⟨_, herror⟩

variable (replacements) in
theorem remapEntities_error (h : ¬ ∀ entity ∈ entities, entity.FitsBody body) :
    ∃ e, remapEntities body entities
      ((unitMatcher.tokens (Utf16.units body)).map (unitSpan replacements)) = .error e := by
  obtain ⟨entity, hentity, hfits⟩ : ∃ entity ∈ entities, ¬ entity.FitsBody body := by
    simpa using h
  obtain ⟨e, herror, -⟩ := mapM_error (P := fun _ => True) (fun _ _ _ _ => trivial)
    ⟨entity, hentity, remapEntity_error replacements hfits⟩
  exact ⟨e, herror⟩

/-- What `render_template` asks of its arguments before it validates the entities. -/
structure TemplateFits (body : Str) (storedEntities : Option (List EntityDict))
    (allowedVariables : List Str) (replacements : Str → Option Str) (maxLength : ℤ) : Prop where
  nonempty : body ≠ []
  allowed : ∀ name ∈ variableNames body, name ∈ allowedVariables
  replaced : ∀ name ∈ variableNames body, (replacements name).isSome
  length : utf16Len (renderText (replacementOf replacements) body) ≤ maxLength
  entities : ∀ entity ∈ storedEntities.getD [], entity.FitsBody body

variable {storedEntities : Option (List EntityDict)} {allowedVariables : List Str}
  {replacements? : Str → Option Str} {maxLength : ℤ} [EntityModel]

/-- `MessageEntity.model_validate` accepts the keys of all entities. -/
def ValidFields (storedEntities : Option (List EntityDict)) : Prop :=
  ∀ entity ∈ storedEntities.getD [], (EntityModel.validateFields entity.fields).isSome

/-- An entity of the rendered template. -/
def EntityDict.rendered (replacements : Str → Str) (body : Str) (entity : EntityDict) :
    MessageEntity :=
  ⟨(entity.remapped replacements body).offset, (entity.remapped replacements body).length,
    (EntityModel.validateFields entity.fields).getD []⟩

/-- Past the checks of the body and the limit. -/
theorem renderTemplate_of_body (hbody : body ≠ []) (hmax : 0 < maxLength) :
    renderTemplate body storedEntities allowedVariables replacements? maxLength =
      if !((variableNames body).filter fun name => name ∉ allowedVariables).isEmpty then
        .error (.template (.unsupportedVariables
          (sortedNames ((variableNames body).filter fun name => name ∉ allowedVariables))))
      else if !((variableNames body).filter fun name => (replacements? name).isNone).isEmpty then
        .error (.template (.missingReplacements
          (sortedNames ((variableNames body).filter fun name => (replacements? name).isNone))))
      else
        let replaced := replaceVariables body (replacementOf replacements?) 0
          (finditer variableRe body)
        if maxLength < utf16Len replaced.1 then .error (.template (.renderedTooLong maxLength))
        else
          match remapEntities body (storedEntities.getD []) replaced.2 with
          | .error error => .error (.template error)
          | .ok entities =>
              match entities.mapM modelValidate with
              | none => .error .entityValidation
              | some entities => .ok ⟨replaced.1, entities⟩ := by
  have hempty : body.isEmpty = false := by
    rw [Bool.eq_false_iff, ne_eq, List.isEmpty_iff]
    exact hbody
  unfold renderTemplate
  rw [hempty, if_neg (by simp), if_neg (by omega)]
  rfl

/-- Past the checks of the body and its variables, rendering is the loop over the entities. -/
theorem renderTemplate_of_variables (hbody : body ≠ []) (hmax : 0 < maxLength)
    (hallowed : ∀ name ∈ variableNames body, name ∈ allowedVariables)
    (hreplaced : ∀ name ∈ variableNames body, (replacements? name).isSome)
    (hlength : utf16Len (renderText (replacementOf replacements?) body) ≤ maxLength) :
    renderTemplate body storedEntities allowedVariables replacements? maxLength =
      match remapEntities body (storedEntities.getD [])
          ((unitMatcher.tokens (Utf16.units body)).map (unitSpan (replacementOf replacements?)))
            with
      | .error error => .error (.template error)
      | .ok entities =>
          match entities.mapM modelValidate with
          | none => .error .entityValidation
          | some entities => .ok ⟨renderText (replacementOf replacements?) body, entities⟩ := by
  have hloop := replaceVariables_body body (replacementOf replacements?)
  rw [spans_eq] at hloop
  rw [renderTemplate_of_body hbody hmax, if_neg (by simpa using hallowed),
    if_neg (by simpa [Option.isSome_iff_ne_none] using hreplaced)]
  unfold replacementOf at hloop hlength ⊢
  rw [hloop, if_neg (not_lt.2 hlength)]

theorem mapM_modelValidate (h : ValidFields storedEntities) :
    ((storedEntities.getD []).map (EntityDict.remapped replacements body)).mapM modelValidate =
      some ((storedEntities.getD []).map (EntityDict.rendered replacements body)) := by
  rw [List.mapM_map]
  have hall : ∀ entity ∈ storedEntities.getD [],
      modelValidate (entity.remapped replacements body) =
        some (entity.rendered replacements body) := by
    intro entity hentity
    obtain ⟨fields, hfields⟩ := Option.isSome_iff_exists.1 (h entity hentity)
    have hsame : EntityModel.validateFields (entity.remapped replacements body).fields =
        some fields := hfields
    unfold modelValidate EntityDict.rendered
    rw [hsame, hfields]
    rfl
  generalize storedEntities.getD [] = entities at hall
  induction entities with
  | nil => rfl
  | cons entity entities ih =>
      rw [List.mapM_cons, Function.comp_apply, hall entity List.mem_cons_self,
        ih fun e he => hall e (List.mem_cons_of_mem _ he)]
      rfl

theorem mapM_modelValidate_none (h : ¬ ValidFields storedEntities) :
    ((storedEntities.getD []).map (EntityDict.remapped replacements body)).mapM modelValidate =
      none := by
  rw [List.mapM_map]
  unfold ValidFields at h
  generalize storedEntities.getD [] = entities at h
  induction entities with
  | nil => exact absurd (fun _ he => by cases he) h
  | cons entity entities ih =>
      rw [List.mapM_cons, Function.comp_apply]
      cases hentity : modelValidate (entity.remapped replacements body) with
      | none => rfl
      | some out =>
          have hfields : (EntityModel.validateFields entity.fields).isSome := by
            obtain ⟨fields, hsome, -⟩ := Option.map_eq_some_iff.1 hentity
            have hsome : EntityModel.validateFields entity.fields = some fields := hsome
            rw [hsome]
            rfl
          rw [ih fun hall => h fun e he => ?_]
          · rfl
          · rcases List.mem_cons.1 he with rfl | he
            · exact hfields
            · exact hall e he

/-- **When a template renders**, and what it renders to. -/
theorem renderTemplate_ok (hmax : 0 < maxLength)
    (h : TemplateFits body storedEntities allowedVariables replacements? maxLength)
    (hfields : ValidFields storedEntities) :
    renderTemplate body storedEntities allowedVariables replacements? maxLength =
      .ok ⟨renderText (replacementOf replacements?) body,
        (storedEntities.getD []).map (EntityDict.rendered (replacementOf replacements?) body)⟩ := by
  rw [renderTemplate_of_variables h.nonempty hmax h.allowed h.replaced h.length,
    remapEntities_ok h.entities]
  dsimp only
  rw [mapM_modelValidate hfields]

theorem renderTemplate_entityValidation (hmax : 0 < maxLength)
    (h : TemplateFits body storedEntities allowedVariables replacements? maxLength)
    (hfields : ¬ ValidFields storedEntities) :
    renderTemplate body storedEntities allowedVariables replacements? maxLength =
      .error .entityValidation := by
  rw [renderTemplate_of_variables h.nonempty hmax h.allowed h.replaced h.length,
    remapEntities_ok h.entities]
  dsimp only
  rw [mapM_modelValidate_none hfields]

/-- A template that does not fit is refused with a template error. -/
theorem renderTemplate_error (hmax : 0 < maxLength)
    (h : ¬ TemplateFits body storedEntities allowedVariables replacements? maxLength) :
    ∃ error, renderTemplate body storedEntities allowedVariables replacements? maxLength =
      .error (.template error) := by
  by_cases hbody : body = []
  · subst hbody
    exact ⟨.emptyBody, rfl⟩
  by_cases hallowed : ∀ name ∈ variableNames body, name ∈ allowedVariables
  · by_cases hreplaced : ∀ name ∈ variableNames body, (replacements? name).isSome
    · by_cases hlength : utf16Len (renderText (replacementOf replacements?) body) ≤ maxLength
      · have hentities : ¬ ∀ entity ∈ storedEntities.getD [], entity.FitsBody body :=
          fun hall => h ⟨hbody, hallowed, hreplaced, hlength, hall⟩
        obtain ⟨error, herror⟩ := remapEntities_error (replacementOf replacements?)
          hentities
        refine ⟨error, ?_⟩
        rw [renderTemplate_of_variables hbody hmax hallowed hreplaced hlength, herror]
      · refine ⟨.renderedTooLong maxLength, ?_⟩
        have hloop := replaceVariables_body body (replacementOf replacements?)
        rw [renderTemplate_of_body hbody hmax, if_neg (by simpa using hallowed),
          if_neg (by simpa [Option.isSome_iff_ne_none] using hreplaced), hloop]
        exact if_pos (not_le.1 hlength)
    · refine ⟨.missingReplacements (sortedNames
        ((variableNames body).filter fun name => (replacements? name).isNone)), ?_⟩
      rw [renderTemplate_of_body hbody hmax, if_neg (by simpa using hallowed)]
      exact if_pos (by simpa [Option.isSome_iff_ne_none] using hreplaced)
  · refine ⟨.unsupportedVariables (sortedNames
      ((variableNames body).filter fun name => name ∉ allowedVariables)), ?_⟩
    rw [renderTemplate_of_body hbody hmax]
    exact if_pos (by simpa using hallowed)

end CineGate

/-
**The resolution of a caption.**

A resolution token is a resolution, with or without `#`, in either case, between symbols that are no
ASCII letters or digits.  Where it stands, every token reads the same: the text around it is cleaned
as if the token were a blank.

* `Token` — what `_QUALITY_RE` matches;
* `subFrom_token` — a token becomes a blank;
* `kept_token` — what is kept of the text around a token.
-/

import CineGate.TitleWords

set_option relaxedAutoImplicit false
set_option autoImplicit false

namespace CineGate

open Runs

/-- The letter a resolution ends with. -/
def Resolution.letter : Resolution → Char
  | .k4 => 'k'
  | _ => 'p'

/-- The digits of a resolution. -/
def Resolution.digits (q : Resolution) : Str := q.label.dropLast

/-- A text that `_QUALITY_RE` matches: `#` or nothing, the digits, and the letter in either case. -/
structure Token where
  hash : Bool
  quality : Resolution
  letter : Char
  letter_eq : eqIgnoreCase quality.letter letter = true

namespace Token

def mark (token : Token) : Str := if token.hash then ['#'] else []

def text (token : Token) : Str := token.mark ++ (token.quality.digits ++ [token.letter])

/-- A resolution as the archive writes it. -/
def plain (hash : Bool) (q : Resolution) : Token := ⟨hash, q, q.letter, by cases q <;> decide⟩

variable (token : Token)

theorem letter_mem : token.letter ∈ ['p', 'P', 'k', 'K', '\u212a'] := by
  have hletter := token.letter_eq
  generalize token.letter = c at hletter
  simp only [eqIgnoreCase, Bool.or_eq_true, decide_eq_true_eq, Bool.and_eq_true] at hletter
  rcases hletter with (rfl | rfl) | ⟨-, rfl⟩
  · cases token.quality <;> decide
  · cases token.quality <;> decide
  · decide

theorem isAsciiAlnumIgnoreCase_letter : isAsciiAlnumIgnoreCase token.letter = true := by
  have hall : ∀ c ∈ ['p', 'P', 'k', 'K', '\u212a'], isAsciiAlnumIgnoreCase c = true := by decide
  exact hall _ token.letter_mem

theorem text_ne_nil : token.text ≠ [] := by simp [text]

theorem length_text_le : token.text.length ≤ 6 := by
  have hdigits : token.quality.digits.length ≤ 4 := by cases token.quality <;> decide
  have hmark : token.mark.length ≤ 1 := by
    unfold mark
    split <;> simp
  simp only [text, List.length_append, List.length_singleton]
  omega

end Token

/-! ### Where a token is found -/

theorem resolutionPrefix_digits (q : Resolution) {c : Char} (hc : eqIgnoreCase q.letter c = true)
    (w : Str) :
    resolutionPrefix (q.digits ++ c :: w) = some q := by
  simp only [eqIgnoreCase, Bool.or_eq_true, decide_eq_true_eq, Bool.and_eq_true] at hc
  rcases hc with (rfl | rfl) | ⟨hk, rfl⟩
  · cases q <;>
      simp +decide [resolutionPrefix, qualityTokens, Resolution.label, Resolution.digits,
        Resolution.letter]
  · cases q <;>
      simp +decide [resolutionPrefix, qualityTokens, Resolution.label, Resolution.digits,
        Resolution.letter]
  · cases q with
    | k4 => simp +decide [resolutionPrefix, qualityTokens, Resolution.label, Resolution.digits]
    | p2160 | p1080 | p720 | p480 => exact absurd hk (by decide)

/-- A text whose first symbol is no ASCII letter or digit. -/
def StartsApart (w : Str) : Prop := ∀ c, w.head? = some c → isAsciiAlnumIgnoreCase c = false

/-- A text whose last symbol is no ASCII letter or digit. -/
def EndsApart (u : Str) : Prop := ∀ c, u.getLast? = some c → isAsciiAlnumIgnoreCase c = false

theorem qualityAt_token (token : Token) {w : Str} (hw : StartsApart w) :
    qualityAt (token.text ++ w) = some (token.quality, token.text.length) := by
  have hfirst : (if (token.text ++ w).head? = some '#' then 1 else 0) = token.mark.length := by
    unfold Token.text Token.mark
    cases token.hash
    · cases token.quality <;> rfl
    · rfl
  have hdrop : (token.text ++ w).drop token.mark.length = token.quality.digits ++
      token.letter :: w := by
    rw [Token.text, List.append_assoc, List.drop_left, List.append_assoc]
    rfl
  have hlength : token.mark.length + token.quality.label.length = token.text.length := by
    have hlabel : token.quality.label.length = token.quality.digits.length + 1 := by
      cases token.quality <;> rfl
    simp only [Token.text, List.length_append, List.length_singleton, hlabel]
  have hahead : (w.head?.any isAsciiAlnumIgnoreCase) = false := by
    cases w with
    | nil => rfl
    | cons c w => exact hw c rfl
  unfold qualityAt
  dsimp only
  rw [hfirst, hdrop, resolutionPrefix_digits _ token.letter_eq, Option.bind_some, hlength,
    List.drop_left, hahead]
  rfl

theorem qualityRe_token (token : Token) {before : Option Char} {w : Str}
    (hbefore : before.any isAsciiAlnumIgnoreCase = false) (hw : StartsApart w) :
    qualityRe before (token.text ++ w) = some token.text.length := by
  rw [qualityRe, qualityAt_token token hw, hbefore]
  rfl

theorem resolutionPrefix_hash (w : Str) : resolutionPrefix ('#' :: w) = none := by
  simp +decide [resolutionPrefix, qualityTokens, Resolution.label]

/-- Without its `#`, a token is a token. -/
theorem qualityRe_hash {w : Str} {n : ℕ} (h : qualityRe none ('#' :: w) = some n) :
    ∃ d v k, w = d :: v ∧ n = k + 2 ∧ qualityRe (some '#') (d :: v) = some (k + 1) := by
  have hat : ((resolutionPrefix w).bind fun q =>
      if (w.drop q.label.length).head?.any isAsciiAlnumIgnoreCase then none
      else some (q, q.label.length + 1)).map Prod.snd = some n := by
    rw [← h, qualityRe, qualityAt]
    simp only [List.head?_cons, if_pos, List.drop_succ_cons, List.drop_zero, Nat.add_comm 1]
    rfl
  obtain ⟨⟨q, j⟩, hbind, rfl⟩ := Option.map_eq_some_iff.1 hat
  obtain ⟨q', hfound, hahead⟩ := Option.bind_eq_some_iff.1 hbind
  split at hahead
  · cases hahead
  · next hnot =>
      obtain ⟨rfl, rfl⟩ := Prod.mk.inj (Option.some.inj hahead)
      obtain ⟨k, hk⟩ : ∃ k, q'.label.length = k + 1 := by cases q' <;> exact ⟨_, rfl⟩
      cases w with
      | nil =>
          have hnone : resolutionPrefix [] = none := by decide
          rw [hnone] at hfound
          cases hfound
      | cons d v =>
          have hhash : d ≠ '#' := by
            rintro rfl
            rw [resolutionPrefix_hash] at hfound
            cases hfound
          refine ⟨d, v, k, rfl, by dsimp only; omega, ?_⟩
          have hbefore : (some '#').any isAsciiAlnumIgnoreCase = false := by decide
          have hhead : ¬ some d = some '#' := by simp [hhash]
          unfold qualityRe qualityAt
          dsimp only
          rw [hbefore, List.head?_cons, if_neg Bool.false_ne_true, if_neg hhead, List.drop_zero,
            hfound, Option.bind_some, Nat.zero_add, if_neg hnot, hk]
          rfl

/-- The rest of a text after symbols that a token has taken. -/
theorem subFrom_skip (m : Matcher) (before : Option Char) (a w : Str) :
    subFrom m a.length before (a ++ w) = subFrom m 0 (a.getLast?.or before) w := by
  induction a generalizing before with
  | nil => rfl
  | cons c a ih =>
      rw [List.length_cons, List.cons_append, subFrom, ih, List.getLast?_cons]
      cases a.getLast? <;> rfl

/-- **A token becomes a blank**, and the text after it is read behind its letter. -/
theorem subFrom_token (token : Token) {before : Option Char} {w : Str}
    (hbefore : before.any isAsciiAlnumIgnoreCase = false) (hw : StartsApart w) :
    subFrom qualityRe 0 before (token.text ++ w) =
      ' ' :: subFrom qualityRe 0 (some token.letter) w := by
  have hmatch := qualityRe_token token hbefore hw
  obtain ⟨c, rest, htext⟩ := List.exists_cons_of_ne_nil token.text_ne_nil
  have hlast : rest.getLast?.or (some c) = some token.letter := by
    have hgetLast : token.text.getLast? = some token.letter := by simp [Token.text]
    rw [htext, List.getLast?_cons] at hgetLast
    cases hrest : rest.getLast? <;> simpa [hrest] using hgetLast
  rw [htext, List.length_cons] at hmatch
  rw [htext, List.cons_append, subFrom]
  rw [List.cons_append] at hmatch
  rw [hmatch]
  dsimp only
  rw [subFrom_skip, hlast]

/-- A `#` before a token stays, or is its own. -/
theorem subFrom_hash_token (token : Token) (before : Option Char) {w : Str} (hw : StartsApart w) :
    subFrom qualityRe 0 before ('#' :: (token.text ++ w)) =
        '#' :: ' ' :: subFrom qualityRe 0 (some token.letter) w ∨
      subFrom qualityRe 0 before ('#' :: (token.text ++ w)) =
        ' ' :: subFrom qualityRe 0 (some token.letter) w := by
  have hstay : qualityRe before ('#' :: (token.text ++ w)) = none →
      subFrom qualityRe 0 before ('#' :: (token.text ++ w)) =
        '#' :: ' ' :: subFrom qualityRe 0 (some token.letter) w := by
    intro hnone
    rw [subFrom, hnone]
    dsimp only
    rw [subFrom_token token (by decide) hw]
  cases hbefore : before.any isAsciiAlnumIgnoreCase with
  | true =>
      refine .inl (hstay ?_)
      rw [qualityRe, hbefore]
      rfl
  | false =>
      cases hhash : token.hash with
      | true =>
          refine .inl (hstay ?_)
          have htext : token.text = '#' :: (token.quality.digits ++ [token.letter]) := by
            simp [Token.text, Token.mark, hhash]
          have hat : qualityAt ('#' :: (token.text ++ w)) = none := by
            unfold qualityAt
            dsimp only
            rw [List.head?_cons, if_pos rfl, List.drop_succ_cons, List.drop_zero, htext,
              List.cons_append,
              resolutionPrefix_hash]
            rfl
          rw [qualityRe, hat]
          exact ite_self none
      | false =>
          have htext : '#' :: (token.text ++ w) =
              (Token.mk true token.quality token.letter token.letter_eq).text ++ w := by
            simp [Token.text, Token.mark, hhash]
          rw [htext]
          exact .inr (subFrom_token _ hbefore hw)

/-! ### What is kept of a text -/

section

variable [UnicodeData]

/-- White space, a title mark, or a bracket. -/
def isSeparator (c : Char) : Bool :=
  isBreak c || c ∈ ['(', ')', '[', ']', '{', '}', '|', ',', '.', ';', '/', '•']

/-- The facts about the Unicode database that concern resolutions. -/
structure ResolutionLaws : Prop extends UnicodeLaws where
  isAlnum_hash : isAlnum '#' = false
  decimal_none : ∀ c ∈ ['p', 'P', 'k', 'K', '\u212a', '@', '_'], decimal c = none
  mem_casefold_of_isDigit : ∀ (t : Str) (c : Char), c ∈ t → c.isDigit → c ∈ casefold t
  folded_token : ∀ token : Token, ∃ token' : Token, casefold (nfkc token.text) = token'.text
  nfkc_separators : KeepsSeparators isSeparator nfkc
  casefold_separators : KeepsSeparators isSeparator casefold

/-- The word characters that are left when usernames are taken out. -/
def kept (text : Str) : Str := (sub botUsernameRe text).filter isWord

/-- A blank or a `#`. -/
def isHashOrBlank (c : Char) : Bool := c = ' ' || c = '#'

end

namespace ResolutionLaws

variable [UnicodeData] (laws : ResolutionLaws)
include laws

theorem isWord_of_isHashOrBlank {c : Char} (hc : isHashOrBlank c) : isWord c = false := by
  simp only [isHashOrBlank, Bool.or_eq_true, decide_eq_true_eq] at hc
  rcases hc with rfl | rfl
  · exact laws.isWord_of_isSpace laws.isSpace_blank
  · simp [isWord, laws.isAlnum_hash]

theorem kept_splitsAt : SplitsAt isHashOrBlank kept := by
  refine ⟨rfl, fun a c b hc => ?_⟩
  have hword := laws.isWord_of_isHashOrBlank hc
  have hstops : Matcher.StopsAt botUsernameRe c := by
    simp only [isHashOrBlank, Bool.or_eq_true, decide_eq_true_eq] at hc
    rcases hc with rfl | rfl
    · exact botUsernameRe_stopsAt (by decide) (by decide) (by decide)
    · exact botUsernameRe_stopsAt (by decide) (by decide) (by decide)
  unfold kept
  rw [sub_append hstops botUsernameRe_fits, List.filter_append, List.filter_cons,
    if_neg (by simp [hword])]

/-- After a letter or a digit, a text is cleaned as if it stood for itself. -/
theorem kept_after {letter : Char} (hletter : isAsciiAlnumIgnoreCase letter = true) {w : Str}
    (hw : StartsApart w) : kept (subFrom qualityRe 0 (some letter) w) = kept (sub qualityRe w) := by
  have hkept := laws.kept_splitsAt
  cases w with
  | nil => rfl
  | cons c w =>
      have hc : isAsciiAlnumIgnoreCase c = false := hw c rfl
      by_cases hhash : c = '#'
      · subst hhash
        -- behind the letter the `#` stays; else it may belong to a resolution
        have hletter' : qualityRe (some letter) ('#' :: w) = none := by
          rw [qualityRe, Option.any_some, hletter]
          rfl
        have hstay : subFrom qualityRe 0 (some letter) ('#' :: w) =
            '#' :: subFrom qualityRe 0 (some '#') w := by
          rw [subFrom, hletter']
        rw [hstay, sub, hkept.cons (by decide)]
        cases hmatch : qualityRe none ('#' :: w) with
        | none =>
            have hself : subFrom qualityRe 0 none ('#' :: w) =
                '#' :: subFrom qualityRe 0 (some '#') w := by
              rw [subFrom, hmatch]
            rw [hself, hkept.cons (by decide)]
        | some n =>
            obtain ⟨d, v, k, rfl, rfl, hrest⟩ := qualityRe_hash hmatch
            have hself : subFrom qualityRe 0 none ('#' :: d :: v) =
                ' ' :: subFrom qualityRe k (some d) v := by
              rw [subFrom, hmatch]
              dsimp only
              rw [subFrom]
            have hlabel : subFrom qualityRe 0 (some '#') (d :: v) =
                ' ' :: subFrom qualityRe k (some d) v := by
              rw [subFrom, hrest]
            rw [hself, hlabel]
      · have hnone : ∀ before, qualityRe before (c :: w) = none := fun before =>
          (qualityRe_stopsAt hc hhash).start before w
        have hstay : ∀ before,
            subFrom qualityRe 0 before (c :: w) = c :: subFrom qualityRe 0 (some c) w := by
          intro before
          rw [subFrom, hnone before]
        rw [sub, hstay, hstay]

/-- **The text around a token** is cleaned before and after it, whichever token it is. -/
theorem kept_token (token : Token) {u w : Str} (hu : EndsApart u) (hw : StartsApart w) :
    kept (sub qualityRe (u ++ token.text ++ w)) =
      kept (sub qualityRe u) ++ kept (sub qualityRe w) := by
  have hkept := laws.kept_splitsAt
  have hafter := laws.kept_after token.isAsciiAlnumIgnoreCase_letter hw
  rw [List.append_assoc]
  induction u using List.reverseRecOn with
  | nil =>
      have htoken : sub qualityRe (token.text ++ w) = _ := subFrom_token token (by rfl) hw
      rw [List.nil_append, htoken, hkept.cons (by decide), hafter]
      rfl
  | append_singleton u c _ =>
      have hc : isAsciiAlnumIgnoreCase c = false := hu c (by simp)
      rw [List.append_assoc, List.singleton_append]
      by_cases hhash : c = '#'
      · subst hhash
        have hahead : ∀ (b : Str) (before : Option Char) (a : Str), a ≠ [] →
            qualityRe before (a ++ '#' :: b) = qualityRe before a := by
          intro b before a ha
          rw [qualityRe, qualityRe, qualityAt_ahead hc (.inl ha)]
        have hsplit : ∀ b : Str, sub qualityRe (u ++ '#' :: b) = _ :=
          fun b => subFrom_append_of_ahead (hahead b) qualityRe_fits 0 none u (Nat.zero_le _)
        have hself : ∀ before, subFrom qualityRe 0 before ['#'] = ['#'] := by
          intro before
          have hnone : qualityRe before ['#'] = none := by
            have hat : qualityAt ['#'] = none := by decide
            rw [qualityRe, hat]
            exact ite_self none
          rw [subFrom, hnone]
          rfl
        rw [hsplit, hsplit, hself, hkept.snoc (by decide)]
        -- the `#` before the token is left, or it is taken with the token
        rcases subFrom_hash_token token (u.getLast?.or none) hw with htoken | htoken
        · rw [htoken, hkept.append _ _ _ (by decide), hkept.cons (by decide), hafter]
        · rw [htoken, hkept.append _ _ _ (by decide), hafter]
      · have hstops := qualityRe_stopsAt hc hhash
        have htoken : sub qualityRe (token.text ++ w) = _ := subFrom_token token (by rfl) hw
        rw [sub_append hstops qualityRe_fits, sub_append hstops qualityRe_fits, htoken]
        have hblank : sub qualityRe u ++ c :: ' ' :: subFrom qualityRe 0 (some token.letter) w =
            (sub qualityRe u ++ [c]) ++ ' ' :: subFrom qualityRe 0 (some token.letter) w := by simp
        rw [hblank, hkept.append _ _ _ (by decide), hafter]
        rfl

end ResolutionLaws

end CineGate

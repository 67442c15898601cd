/-
**The year beside a resolution.**

`extract_release_year` reads the last year token of a text that still holds its resolution.  A year
after the resolution is read whichever resolution it is.  Without one, `2160p` gives the year 2160,
and a resolution without `#` is joined with the digits before it.

* `lastYear`, `ReadsAlready` — the year before a resolution;
* `extractReleaseYear_after` — a year after the resolution;
* `finditer_token_years` — the years before and in the resolution;
* `same_years_iff` — when every resolution leaves the year as it is.
-/

import CineGate.ResolutionTokens

set_option relaxedAutoImplicit false
set_option autoImplicit false

namespace CineGate

open Runs

section

variable [UnicodeData]

/-- `\d`. -/
def isDecimal (c : Char) : Bool := (decimal c).isSome

/-- The value of the last year token. -/
def lastYear (text : Str) : Option ℕ :=
  (finditer yearRe text).getLast?.map fun span => intOfDecimals (slice text span)

/-- A word is left in the text, apart from resolutions and usernames. -/
def keepsWord (text : Str) : Bool :=
    (blankPunctuation (sub botUsernameRe (sub qualityRe text))).any isWord

/-- The text before and after a resolution already reads 2160: the last year token before it, also
when the digits of the resolution are joined with those before it, and a word stands beside that
year. -/
structure ReadsAlready (u w : Str) : Prop where
  last : lastYear u = some 2160
  joined : lastYear (u.rdropWhile isDecimal) = some 2160
  joined4 : lastYear (u ++ ['4']) = some 2160
  word : (extractReleaseYear (u ++ ' ' :: w)).isSome

theorem extractReleaseYear_eq (text : Str) :
    extractReleaseYear text = (finditer yearRe text).getLast?.bind fun last =>
      if keepsWord (blankOut text last) then some (intOfDecimals (slice text last)) else none := rfl

end

namespace ResolutionLaws

variable [UnicodeData] (laws : ResolutionLaws) {u w : Str} {token : Token}
include laws

theorem keepsWord_iff (text : Str) : keepsWord text = true ↔ kept (sub qualityRe text) ≠ [] := by
  unfold keepsWord kept
  rw [laws.any_blankPunctuation, List.any_eq_true, Ne, List.filter_eq_nil_iff]
  simp

theorem decimal_letter_eq (token : Token) : (decimal token.letter).isSome = false := by
  have hletter : token.letter ∈ ['p', 'P', 'k', 'K', '\u212a', '@', '_'] :=
    List.mem_append_left ['@', '_'] token.letter_mem
  rw [laws.decimal_none _ hletter]
  rfl

theorem decimal_hash : (decimal '#').isSome = false := by
  rw [Bool.eq_false_iff]
  intro hdecimal
  have halnum := laws.isAlnum_of_decimal '#' hdecimal
  rw [laws.isAlnum_hash] at halnum
  cases halnum

/-- A token is a blank for what is kept. -/
theorem keepsWord_token (token : Token) (hu : EndsApart u) (hw : StartsApart w) :
    keepsWord (u ++ token.text ++ w) = keepsWord (u ++ ' ' :: w) := by
  have hblank : kept (sub qualityRe (u ++ ' ' :: w)) = kept (sub qualityRe u) ++
      kept (sub qualityRe w) := by
    rw [sub_append (qualityRe_stopsAt (by decide) (by decide)) qualityRe_fits,
      laws.kept_splitsAt.append _ _ _ (by decide)]
  rw [Bool.eq_iff_iff, laws.keepsWord_iff, laws.keepsWord_iff, laws.kept_token token hu hw, hblank]

/-! ### A year after the resolution -/

omit laws [UnicodeData] in
theorem blankOut_append_left (p w : Str) (span : ℕ × ℕ) :
    blankOut (p ++ w) (span.1 + p.length, span.2 + p.length) = p ++ blankOut w span := by
  unfold blankOut
  dsimp only
  rw [Nat.add_comm span.1, Nat.add_comm span.2, List.take_length_add_append,
    List.drop_length_add_append,
    List.append_assoc]

omit laws [UnicodeData] in
theorem blankOut_append_right {p : Str} (w : Str) {span : ℕ × ℕ} (hspan : span.1 ≤ span.2)
    (hle : span.2 ≤ p.length) : blankOut (p ++ w) span = blankOut p span ++ w := by
  unfold blankOut
  rw [List.take_append_of_le_length (hspan.trans hle), List.drop_append_of_le_length hle,
    List.append_assoc,
    List.cons_append]

/-- The years of a text with a token. -/
theorem finditer_text (token : Token) (u w : Str) :
    finditer yearRe (u ++ token.text ++ w) =
      finditer yearRe (u ++ token.mark ++ token.quality.digits) ++
        (finditer yearRe w).map fun span =>
        (span.1 + (u ++ token.text).length, span.2 + (u ++ token.text).length) := by
  have htext : u ++ token.text ++ w = (u ++ token.mark ++ token.quality.digits) ++
      token.letter :: w := by
    simp [Token.text]
  have hlength : (u ++ token.text).length =
      (u ++ token.mark ++ token.quality.digits).length + 1 := by
    simp [Token.text]
    omega
  rw [htext, hlength]
  exact finditer_append (laws.yearRe_stopsAt_of_decimal (laws.decimal_letter_eq token)) yearRe_fits
    _ _

theorem extractReleaseYear_after (hu : EndsApart u) (hw : StartsApart w) {last : ℕ × ℕ}
    (hlast : (finditer yearRe w).getLast? = some last) (token : Token) :
    extractReleaseYear (u ++ token.text ++ w) =
      if keepsWord (u ++ ' ' :: blankOut w last) then some (intOfDecimals (slice w last))
      else none := by
  have hstarts : StartsApart (blankOut w last) := by
    intro c hc
    unfold blankOut at hc
    cases w with
    | nil => cases hlast
    | cons x w =>
        cases hfirst : last.1 with
        | zero =>
            rw [hfirst, List.take_zero] at hc
            cases hc
            decide
        | succ k =>
            rw [hfirst, List.take_succ_cons] at hc
            exact hw c hc
  have hgetLast : (finditer yearRe (u ++ token.text ++ w)).getLast? =
      some (last.1 + (u ++ token.text).length, last.2 + (u ++ token.text).length) := by
    rw [laws.finditer_text, List.getLast?_append, List.getLast?_map, hlast]
    rfl
  rw [extractReleaseYear_eq, hgetLast, Option.bind_some, blankOut_append_left, slice_append_add,
    laws.keepsWord_token token hu hstarts]

/-! ### The years before and in the resolution -/

/-- After a text that ends with no digit, years are found for themselves. -/
theorem finditer_append_apart {v : Str} (hv : ∀ c, v.getLast? = some c → isDecimal c = false)
    (t : Str) :
    finditer yearRe (v ++ t) = finditer yearRe v ++
      (finditer yearRe t).map fun span => (span.1 + v.length, span.2 + v.length) := by
  induction v using List.reverseRecOn with
  | nil => simp [finditer, finditerFrom]
  | append_singleton v c _ =>
      have hstops := laws.yearRe_stopsAt_of_decimal (hv c (by simp))
      have hself : finditer yearRe (v ++ [c]) = finditer yearRe v := by
        rw [finditer_append hstops yearRe_fits]
        simp [finditer, finditerFrom]
      rw [List.append_assoc, List.singleton_append, finditer_append hstops yearRe_fits, hself,
        List.length_append]
      rfl

omit laws in
/-- Behind a digit, a run of digits has no year. -/
theorem finditerFrom_decimals {t : Str} (ht : ∀ c ∈ t, isDecimal c) {d : Char} (hd : isDecimal d)
    (i : ℕ) :
    finditerFrom yearRe 0 (some d) i t = [] := by
  induction t generalizing d i with
  | nil => rfl
  | cons c t ih =>
      have hnone : yearRe (some d) (c :: t) = none := by
        unfold yearRe
        split
        · exact if_pos hd
        · rfl
      rw [finditerFrom, hnone]
      exact ih (fun x hx => ht x (List.mem_cons_of_mem c hx)) (ht c List.mem_cons_self) (i + 1)

omit laws in
/-- A run of digits is a year or has none. -/
theorem finditer_decimals {t : Str} (ht : ∀ c ∈ t, isDecimal c) : finditer yearRe t = [] ∨
    finditer yearRe t = [(0, 4)] ∧ t.length = 4 ∧ ∀ c, t.head? = some c → c ∈ ['1', '2'] := by
  cases t with
  | nil => exact .inl rfl
  | cons c t =>
      have hrest : ∀ x ∈ t, isDecimal x := fun x hx => ht x (List.mem_cons_of_mem c hx)
      cases hmatch : yearRe none (c :: t) with
      | none =>
          refine .inl ?_
          rw [finditer, finditerFrom, hmatch]
          exact finditerFrom_decimals hrest (ht c List.mem_cons_self) 1
      | some n =>
          have hparts := hmatch
          unfold yearRe at hparts
          split at hparts
          · next a b x y rest heq =>
              rw [Option.any_none, if_neg Bool.false_ne_true] at hparts
              split at hparts
              · next hyear =>
                  obtain ⟨hcentury, -, -, hahead⟩ := hyear
                  have hend : rest = [] := by
                    cases rest with
                    | nil => rfl
                    | cons z rest =>
                        have hz : isDecimal z := ht z (by rw [heq]; simp)
                        exact absurd hz hahead
                  subst hend
                  rw [heq] at hmatch
                  obtain rfl : 4 = n := Option.some.inj hparts
                  refine .inr ⟨?_, by rw [heq]; rfl, fun c' hc' => ?_⟩
                  · rw [heq, finditer, finditerFrom, hmatch]
                    rfl
                  · rw [heq] at hc'
                    obtain rfl : a = c' := Option.some.inj hc'
                    rcases hcentury with ⟨rfl, -⟩ | ⟨rfl, -⟩ <;> decide
              · cases hparts
          · cases hparts

theorem isDecimal_digits (q : Resolution) : ∀ c ∈ q.digits, isDecimal c := by
  have hdigits : ∀ c ∈ q.digits, c.isDigit := by cases q <;> decide
  intro c hc
  rw [isDecimal, laws.decimal_of_isDigit c (hdigits c hc)]
  rfl

/-- `2160` is the only resolution that reads as a year. -/
theorem finditer_digits (q : Resolution) :
    finditer yearRe q.digits = if q = .p2160 then [(0, 4)] else [] := by
  have hdecimal := laws.isDecimal_digits q
  rcases finditer_decimals hdecimal with hnil | ⟨hyear, hlength, -⟩
  · rw [hnil]
    cases q with
    | p2160 =>
        have h6 : (decimal '6').isSome := hdecimal '6' (by decide)
        have h0 : (decimal '0').isSome := hdecimal '0' (by decide)
        have hmatch : yearRe none ['2', '1', '6', '0'] = some 4 := by simp [yearRe, h6, h0]
        rw [finditer, show Resolution.p2160.digits = ['2', '1', '6', '0'] from rfl, finditerFrom,
          hmatch] at hnil
        cases hnil
    | p1080 | p720 | p480 | k4 => rfl
  · cases q with
    | p2160 => exact hyear
    | p1080 =>
        obtain ⟨-, -, before, hmatch⟩ :=
          mem_finditer_spec (by rw [hyear]; exact List.mem_singleton_self (0, 4))
        rw [show Resolution.p1080.digits.drop 0 = ['1', '0', '8', '0'] from rfl] at hmatch
        simp [yearRe] at hmatch
    | p720 | p480 | k4 => cases hlength

/-- The years before and in a resolution with `#`. -/
theorem finditer_hash (u t : Str) : finditer yearRe (u ++ ['#'] ++ t) = finditer yearRe u ++
    (finditer yearRe t).map fun span => (span.1 + (u.length + 1), span.2 + (u.length + 1)) := by
  rw [List.append_assoc, List.singleton_append]
  exact finditer_append (laws.yearRe_stopsAt_of_decimal laws.decimal_hash) yearRe_fits u t

/-- The years before and in a resolution without `#`, which is joined with the digits before it. -/
theorem finditer_joined (u t : Str) :
    finditer yearRe (u ++ t) = finditer yearRe (u.rdropWhile isDecimal) ++
      (finditer yearRe (u.rtakeWhile isDecimal ++ t)).map fun span =>
        (span.1 + (u.rdropWhile isDecimal).length, span.2 + (u.rdropWhile isDecimal).length) := by
  have hu : u.rdropWhile isDecimal ++ u.rtakeWhile isDecimal = u :=
    List.rdropWhile_append_rtakeWhile
  have hlast : ∀ c, (u.rdropWhile isDecimal).getLast? = some c → isDecimal c = false :=
    fun _ hc => not_of_getLast?_rdropWhile hc
  have happend := laws.finditer_append_apart hlast (u.rtakeWhile isDecimal ++ t)
  rwa [← List.append_assoc, hu] at happend

omit laws in
theorem rdropWhile_of_rtakeWhile {u : Str} (h : u.rtakeWhile isDecimal = []) :
    u.rdropWhile isDecimal = u := by
  have hu : u.rdropWhile isDecimal ++ u.rtakeWhile isDecimal = u :=
    List.rdropWhile_append_rtakeWhile
  rwa [h, List.append_nil] at hu

/-- Digits before a resolution that is joined with them: only `4` can complete a year. -/
theorem finditer_joined_digits (hu : EndsApart u) (hne : u.rtakeWhile isDecimal ≠ [])
    {q : Resolution}
    (hq : q ≠ .k4) : finditer yearRe (u.rtakeWhile isDecimal ++ q.digits) = [] := by
  have hall : ∀ c ∈ u.rtakeWhile isDecimal ++ q.digits, isDecimal c := by
    intro c hc
    rcases List.mem_append.1 hc with hc | hc
    · exact List.mem_rtakeWhile_imp hc
    · exact laws.isDecimal_digits q c hc
  rcases finditer_decimals hall with hnil | ⟨-, hlength, hfirst⟩
  · exact hnil
  · -- the first digit would be the last before the resolution
    have hdigits : 3 ≤ q.digits.length := by
      cases q with
      | k4 => exact absurd rfl hq
      | p2160 | p1080 | p720 | p480 => decide
    rw [List.length_append] at hlength
    have hpos := List.length_pos_iff.2 hne
    obtain ⟨d, hd⟩ := List.length_eq_one_iff.1 (show (u.rtakeWhile isDecimal).length = 1 by omega)
    have hmem : d ∈ ['1', '2'] := hfirst d (by rw [hd]; rfl)
    have hlast : u.getLast? = some d := by
      rw [← List.rdropWhile_append_rtakeWhile (p := isDecimal) (l := u), hd]
      simp
    have hdigit : ∀ c ∈ ['1', '2'], isAsciiAlnumIgnoreCase c = true := by decide
    have hapart := hu d hlast
    rw [hdigit d hmem] at hapart
    cases hapart

/-! ### The year that is read -/

omit laws [UnicodeData] in
/-- The text before a resolution, up to its letter. -/
theorem text_eq (token : Token) (u w : Str) :
    u ++ token.text ++ w = (u ++ token.mark ++ token.quality.digits) ++ (token.letter :: w) := by
  simp [Token.text]

/-- Without a year after the resolution, the last year is before it or in it. -/
theorem extractReleaseYear_before (hw : finditer yearRe w = []) (token : Token) :
    extractReleaseYear (u ++ token.text ++ w) =
      (finditer yearRe (u ++ token.mark ++ token.quality.digits)).getLast?.bind fun last =>
        if keepsWord (blankOut (u ++ token.text ++ w) last)
        then some (intOfDecimals (slice (u ++ token.mark ++ token.quality.digits) last))
        else none := by
  rw [extractReleaseYear_eq, laws.finditer_text, hw, List.map_nil, List.append_nil]
  cases hlast : (finditer yearRe (u ++ token.mark ++ token.quality.digits)).getLast? with
  | none => rfl
  | some last =>
      have hle := le_length_of_mem_finditer yearRe_fits (List.mem_of_getLast? hlast)
      rw [Option.bind_some, Option.bind_some]
      congr 2
      rw [text_eq, slice_append_of_le _ hle]

/-- A year that is read is the last one. -/
theorem lastYear_of_extractReleaseYear (hw : finditer yearRe w = []) {n : ℕ}
    (h : extractReleaseYear (u ++ token.text ++ w) = some n) :
    lastYear (u ++ token.mark ++ token.quality.digits) = some n := by
  rw [laws.extractReleaseYear_before hw] at h
  obtain ⟨last, hlast, hyear⟩ := Option.bind_eq_some_iff.1 h
  split at hyear
  · rw [lastYear, hlast]
    exact hyear
  · cases hyear

/-- A year before the resolution is read when a word is left. -/
theorem extractReleaseYear_of_last (hu : EndsApart u) (hw : StartsApart w)
    (hyear : finditer yearRe w = [])
    {last : ℕ × ℕ} (hle : last.2 ≤ u.length)
    (hlast : (finditer yearRe (u ++ token.mark ++ token.quality.digits)).getLast? = some last) :
    extractReleaseYear (u ++ token.text ++ w) =
      if keepsWord (blankOut u last ++ ' ' :: w) then some (intOfDecimals (slice u last))
      else none := by
  have hlt := (mem_finditer_spec (List.mem_of_getLast? hlast)).2.1
  have hblank : blankOut (u ++ token.text ++ w) last = blankOut u last ++ token.text ++ w := by
    rw [List.append_assoc, blankOut_append_right _ hlt.le hle, List.append_assoc]
  have hends : EndsApart (blankOut u last) := by
    intro c hc
    unfold blankOut at hc
    rw [List.getLast?_append, List.getLast?_cons, List.getLast?_drop] at hc
    split at hc
    · cases hc
      decide
    · cases hgetLast : u.getLast? with
      | none =>
          rw [hgetLast] at hc
          cases hc
          decide
      | some d =>
          rw [hgetLast] at hc
          cases hc
          exact hu d hgetLast
  have hslice : slice (u ++ token.mark ++ token.quality.digits) last = slice u last := by
    rw [List.append_assoc, slice_append_of_le _ hle]
  rw [laws.extractReleaseYear_before hyear, hlast, Option.bind_some, hblank,
    laws.keepsWord_token token hends hw, hslice]

/-- The text without its resolution. -/
theorem extractReleaseYear_blank (hyear : finditer yearRe w = []) :
    extractReleaseYear (u ++ ' ' :: w) = (finditer yearRe u).getLast?.bind fun last =>
      if keepsWord (blankOut u last ++ ' ' :: w) then some (intOfDecimals (slice u last))
      else none := by
  have hblank := laws.yearRe_stopsAt_break laws.isBreak_blank
  rw [extractReleaseYear_eq, finditer_append hblank yearRe_fits, hyear, List.map_nil,
    List.append_nil]
  cases hlast : (finditer yearRe u).getLast? with
  | none => rfl
  | some last =>
      have hmem := List.mem_of_getLast? hlast
      have hle := le_length_of_mem_finditer yearRe_fits hmem
      have hlt := (mem_finditer_spec hmem).2.1
      rw [Option.bind_some, Option.bind_some, blankOut_append_right _ hlt.le hle,
        slice_append_of_le _ hle]

/-- The letter of `2160p` is left as a word when its digits are taken for a year. -/
theorem keepsWord_letter {v w : Str} (htoken : token.quality = .p2160) :
    keepsWord (v ++ ' ' :: token.letter :: w) = true := by
  -- the `p` of `2160p` has no other case than `P`
  have hletter : token.letter ∈ ['p', 'P'] := by
    have heq := token.letter_eq
    rw [htoken] at heq
    simp only [eqIgnoreCase, Resolution.letter, Bool.or_eq_true, decide_eq_true_eq,
      Bool.and_eq_true] at heq
    rcases heq with (heq | heq) | ⟨hk, -⟩
    · rw [of_decide_eq_true heq]
      decide
    · rw [of_decide_eq_true heq]
      decide
    · exact absurd hk (by decide)
  generalize token.letter = c at hletter
  have hfound : resolutionPrefix (c :: w) = none := by
    simp only [List.mem_cons, List.not_mem_nil, or_false] at hletter
    rcases hletter with rfl | rfl <;>
      simp +decide [resolutionPrefix, qualityTokens, Resolution.label]
  have hhash : ∀ c ∈ ['p', 'P'], c ≠ '#' ∧ c ≠ '@' ∧ isAsciiAlnum c = true := by decide
  obtain ⟨hne, hat, halnum⟩ := hhash c hletter
  have hquality : sub qualityRe (c :: w) = c :: subFrom qualityRe 0 (some c) w := by
    have hnone : qualityRe none (c :: w) = none := by
      have hhead : ¬ (c :: w).head? = some '#' := by simp [hne]
      unfold qualityRe qualityAt
      dsimp only
      rw [if_neg hhead, List.drop_zero, hfound]
      rfl
    rw [sub, subFrom, hnone]
  have hbot : ∀ t : Str, sub botUsernameRe (c :: t) = c :: subFrom botUsernameRe 0 (some c) t := by
    intro t
    have hnone : botUsernameRe none (c :: t) = none := by
      unfold botUsernameRe
      split
      · rfl
      · split
        · next heq => exact absurd (List.cons.inj heq).1 hat
        · rfl
    rw [sub, subFrom, hnone]
  have hword : isWord c = true := by simp [isWord, laws.isAlnum_of_isAsciiAlnum c halnum]
  rw [laws.keepsWord_iff, sub_append (qualityRe_stopsAt (by decide) (by decide)) qualityRe_fits,
    laws.kept_splitsAt.append _ _ _ (by decide), hquality, kept, kept, hbot, List.filter_cons,
      if_pos hword]
  simp

/-- **`2160p` gives the year 2160** unless a year follows it or it is joined with digits. -/
theorem extractReleaseYear_p2160 (hyear : finditer yearRe w = []) (htoken : token.quality = .p2160)
    (hapart : token.hash = true ∨ u.rtakeWhile isDecimal = []) :
    extractReleaseYear (u ++ token.text ++ w) = some 2160 := by
  have hdigits : token.quality.digits = ['2', '1', '6', '0'] := by rw [htoken]; rfl
  have hyears : finditer yearRe token.quality.digits = [(0, 4)] := by
    rw [laws.finditer_digits, if_pos htoken]
  -- with a `#`, or with no digit before it, 2160 is a year of its own
  have hlast : (finditer yearRe (u ++ token.mark ++ token.quality.digits)).getLast? =
      some ((u ++ token.mark).length, (u ++ token.mark).length + 4) := by
    unfold Token.mark
    cases hhash : token.hash with
    | true =>
        rw [if_pos rfl, laws.finditer_hash, hyears, List.map_singleton, List.getLast?_append,
          List.getLast?_singleton, Option.some_or, List.length_append, List.length_singleton]
        congr 2 <;> omega
    | false =>
        have hjoined := hapart.resolve_left (by simp [hhash])
        rw [if_neg Bool.false_ne_true, List.append_nil, laws.finditer_joined, hjoined,
          List.nil_append, hyears,
          List.map_singleton, List.getLast?_append, List.getLast?_singleton, Option.some_or,
          rdropWhile_of_rtakeWhile hjoined]
        congr 2 <;> omega
  have hslice : slice (u ++ token.mark ++ token.quality.digits)
      ((u ++ token.mark).length, (u ++ token.mark).length + 4) = ['2', '1', '6', '0'] := by
    have hshift := slice_append_add (u ++ token.mark) ['2', '1', '6', '0'] (0, 4)
    rw [Nat.zero_add, Nat.add_comm 4] at hshift
    rw [hdigits, hshift]
    rfl
  have hvalue : intOfDecimals ['2', '1', '6', '0'] = 2160 := by
    have hvalues : ∀ c ∈ ['2', '1', '6', '0'], decimal c = some (c.toNat - 48) := by
      intro c hc
      have hdigit : ∀ c ∈ ['2', '1', '6', '0'], c.isDigit := by decide
      exact laws.decimal_of_isDigit c (hdigit c hc)
    simp [intOfDecimals, hvalues]
  have hblank : blankOut (u ++ token.text ++ w)
      ((u ++ token.mark).length, (u ++ token.mark).length + 4) =
        (u ++ token.mark) ++ ' ' :: token.letter :: w := by
    have hshift := blankOut_append_left (u ++ token.mark)
      (['2', '1', '6', '0'] ++ token.letter :: w) (0, 4)
    rw [Nat.zero_add, Nat.add_comm 4] at hshift
    rw [text_eq, hdigits, List.append_assoc, hshift]
    rfl
  rw [laws.extractReleaseYear_before hyear, hlast, Option.bind_some, hblank,
    laws.keepsWord_letter htoken,
    hslice, hvalue]
  rfl

/-- A digit that is no ASCII digit is left as a word. -/
theorem keepsWord_digit {d : Char} (hd : isDecimal d) (hapart : isAsciiAlnumIgnoreCase d = false)
    (v w : Str) :
    keepsWord (v ++ [d] ++ ' ' :: w) = true := by
  have hne : ∀ c ∈ ['@', '_'], d ≠ c := by
    rintro c hc rfl
    have hnone : d ∈ ['p', 'P', 'k', 'K', '\u212a', '@', '_'] :=
      List.mem_append_right ['p', 'P', 'k', 'K', '\u212a'] hc
    rw [isDecimal, laws.decimal_none d hnone] at hd
    cases hd
  have hhash : d ≠ '#' := by
    rintro rfl
    rw [isDecimal, laws.decimal_hash] at hd
    cases hd
  have halnum : isAsciiAlnum d = false := by
    simp only [isAsciiAlnumIgnoreCase, Bool.or_eq_false_iff] at hapart
    exact hapart.1.1.1.1
  have hquality := sub_append (qualityRe_stopsAt hapart hhash) qualityRe_fits v []
  have hbot := sub_append (botUsernameRe_stopsAt halnum (hne '_' (by decide)) (hne '@' (by decide)))
    botUsernameRe_fits (sub qualityRe v) []
  have hword : isWord d = true := laws.isWord_of_decimal hd
  rw [laws.keepsWord_iff, sub_append (qualityRe_stopsAt (by decide) (by decide)) qualityRe_fits,
    laws.kept_splitsAt.append _ _ _ (by decide), hquality, kept]
  change (sub botUsernameRe (sub qualityRe v ++ [d])).filter isWord ++ _ ≠ []
  rw [hbot]
  simp [hword]

/-- What an already read 2160 says of the text before the resolution. -/
theorem keepsWord_of_readsAlready (h : ReadsAlready u w) (hyear : finditer yearRe w = [])
    {last : ℕ × ℕ} (hlast : (finditer yearRe u).getLast? = some last) :
    intOfDecimals (slice u last) = 2160 ∧ keepsWord (blankOut u last ++ ' ' :: w) = true := by
  have hvalue := h.last
  have hword := h.word
  rw [lastYear, hlast] at hvalue
  rw [laws.extractReleaseYear_blank hyear, hlast, Option.bind_some] at hword
  refine ⟨Option.some.inj hvalue, ?_⟩
  by_contra hnot
  rw [if_neg hnot] at hword
  cases hword

/-- Digits that `4` completes to a year do not read 2160. -/
theorem finditer_joined_4 (h : ReadsAlready u w) :
    finditer yearRe (u.rtakeWhile isDecimal ++ Resolution.k4.digits) = [] := by
  have hfour : isDecimal '4' := laws.isDecimal_digits .k4 '4' (by decide)
  have hall : ∀ c ∈ u.rtakeWhile isDecimal ++ ['4'], isDecimal c := by
    intro c hc
    rcases List.mem_append.1 hc with hc | hc
    · exact List.mem_rtakeWhile_imp hc
    · rwa [List.mem_singleton.1 hc]
  rcases finditer_decimals hall with hnil | ⟨hyears, hlength, -⟩
  · exact hnil
  · -- its last digit would be 4
    have hvalue := h.joined4
    have hsplit : u ++ ['4'] = u.rdropWhile isDecimal ++ (u.rtakeWhile isDecimal ++ ['4']) := by
      rw [← List.append_assoc, List.rdropWhile_append_rtakeWhile]
    have hslice : slice (u ++ ['4'])
        (0 + (u.rdropWhile isDecimal).length, 4 + (u.rdropWhile isDecimal).length) =
          u.rtakeWhile isDecimal ++ ['4'] := by
      rw [hsplit]
      have hshift :=
        slice_append_add (u.rdropWhile isDecimal) (u.rtakeWhile isDecimal ++ ['4']) (0, 4)
      rw [hshift, slice, ← hlength, List.take_length]
      rfl
    rw [lastYear, laws.finditer_joined, hyears, List.map_singleton, List.getLast?_append,
      List.getLast?_singleton, Option.some_or, Option.map_some, hslice] at hvalue
    have hdigit := laws.decimal_of_isDigit '4' (by decide)
    have hint := Option.some.inj hvalue
    rw [intOfDecimals, List.foldl_append, List.foldl_cons, List.foldl_nil, hdigit,
      Option.getD_some] at hint
    have hten : ('4' : Char).toNat - 48 = 4 := by decide
    omega

/-- The last year before a resolution that gives none of its own. -/
theorem readsAlready_last (h : ReadsAlready u w) (hu : EndsApart u) (hyear : finditer yearRe w = [])
    (token : Token) (hown :
      ¬ (token.quality = .p2160 ∧ (token.hash = true ∨ u.rtakeWhile isDecimal = []))) :
    ∃ last, (finditer yearRe (u ++ token.mark ++ token.quality.digits)).getLast? = some last ∧
      last.2 ≤ u.length ∧ intOfDecimals (slice u last) = 2160 ∧
      keepsWord (blankOut u last ++ ' ' :: w) = true := by
  have hdigits : token.quality ≠ .p2160 → finditer yearRe token.quality.digits = [] := by
    intro hq
    rw [laws.finditer_digits, if_neg hq]
  -- the last year is in the text as it stands
  have hplain : finditer yearRe (u ++ token.mark ++ token.quality.digits) = finditer yearRe u →
      ∃ last, (finditer yearRe (u ++ token.mark ++ token.quality.digits)).getLast? = some last ∧
        last.2 ≤ u.length ∧ intOfDecimals (slice u last) = 2160 ∧
        keepsWord (blankOut u last ++ ' ' :: w) = true := by
    intro hsame
    obtain ⟨last, hlast, -⟩ := Option.map_eq_some_iff.1 h.last
    obtain ⟨hvalue, hword⟩ := laws.keepsWord_of_readsAlready h hyear hlast
    rw [hsame]
    exact ⟨last, hlast, le_length_of_mem_finditer yearRe_fits (List.mem_of_getLast? hlast),
      hvalue, hword⟩
  cases hhash : token.hash with
  | true =>
      have hq : token.quality ≠ .p2160 := fun hq => hown ⟨hq, .inl hhash⟩
      refine hplain ?_
      rw [Token.mark, hhash, if_pos rfl, laws.finditer_hash, hdigits hq, List.map_nil,
        List.append_nil]
  | false =>
      have hmark : u ++ token.mark ++ token.quality.digits = u ++ token.quality.digits := by
        rw [Token.mark, hhash, if_neg Bool.false_ne_true, List.append_nil]
      by_cases hrun : u.rtakeWhile isDecimal = []
      · have hq : token.quality ≠ .p2160 := fun hq => hown ⟨hq, .inr hrun⟩
        refine hplain ?_
        rw [hmark, laws.finditer_joined, hrun, List.nil_append, hdigits hq, List.map_nil,
          List.append_nil,
          rdropWhile_of_rtakeWhile hrun]
      · -- joined with digits, the resolution makes no year
        have hjoined : finditer yearRe (u.rtakeWhile isDecimal ++ token.quality.digits) = [] := by
          by_cases hq : token.quality = .k4
          · rw [hq]
            exact laws.finditer_joined_4 h
          · exact laws.finditer_joined_digits hu hrun hq
        obtain ⟨last, hlast, hvalue⟩ := Option.map_eq_some_iff.1 h.joined
        have hmem := List.mem_of_getLast? hlast
        have hle := le_length_of_mem_finditer yearRe_fits hmem
        have hlt := (mem_finditer_spec hmem).2.1
        have hsplit : u.rdropWhile isDecimal ++ u.rtakeWhile isDecimal = u :=
          List.rdropWhile_append_rtakeWhile
        have hlength : (u.rdropWhile isDecimal).length ≤ u.length :=
          (List.rdropWhile_prefix isDecimal u).length_le
        have hslice : slice u last = slice (u.rdropWhile isDecimal) last := by
          conv_lhs => rw [← hsplit]
          exact slice_append_of_le _ hle
        have hblank : blankOut u last = blankOut (u.rdropWhile isDecimal) last ++
            u.rtakeWhile isDecimal := by
          conv_lhs => rw [← hsplit]
          exact blankOut_append_right _ hlt.le hle
        obtain ⟨digits, d, hdigits⟩ :=
          (List.eq_nil_or_concat (u.rtakeWhile isDecimal)).resolve_left hrun
        rw [List.concat_eq_append] at hdigits
        have hd : isDecimal d := List.mem_rtakeWhile_imp (l := u) (by rw [hdigits]; simp)
        have hapart : isAsciiAlnumIgnoreCase d = false := by
          refine hu d ?_
          rw [← hsplit, hdigits]
          simp
        refine ⟨last, ?_, hle.trans hlength, by rw [hslice]; exact hvalue, ?_⟩
        · rw [hmark, laws.finditer_joined, hjoined, List.map_nil, List.append_nil]
          exact hlast
        · rw [hblank, hdigits, ← List.append_assoc]
          exact laws.keepsWord_digit hd hapart _ w

/-- An already read 2160 is read whichever resolution stands there. -/
theorem extractReleaseYear_of_readsAlready (h : ReadsAlready u w) (hu : EndsApart u)
    (hw : StartsApart w)
    (hyear : finditer yearRe w = []) (token : Token) :
    extractReleaseYear (u ++ token.text ++ w) = some 2160 := by
  by_cases hown : token.quality = .p2160 ∧ (token.hash = true ∨ u.rtakeWhile isDecimal = [])
  · exact laws.extractReleaseYear_p2160 hyear hown.1 hown.2
  · obtain ⟨last, hlast, hle, hvalue, hword⟩ := laws.readsAlready_last h hu hyear token hown
    rw [laws.extractReleaseYear_of_last hu hw hyear hle hlast, hword, hvalue]
    rfl

omit laws in
theorem lastYear_append {v t : Str} (h : finditer yearRe (v ++ t) = finditer yearRe v) :
    lastYear (v ++ t) = lastYear v := by
  unfold lastYear
  rw [h]
  cases hlast : (finditer yearRe v).getLast? with
  | none => rfl
  | some last =>
      have hle := le_length_of_mem_finditer yearRe_fits (List.mem_of_getLast? hlast)
      rw [Option.map_some, Option.map_some, slice_append_of_le _ hle]

/-- What is read with every resolution was read before. -/
theorem readsAlready_of_forall (hu : EndsApart u) (hw : StartsApart w)
    (hyear : finditer yearRe w = [])
    (h : ∀ hash q, extractReleaseYear (u ++ (Token.plain hash q).text ++ w) = some 2160) :
    ReadsAlready u w := by
  have hp1080 : finditer yearRe Resolution.p1080.digits = [] := laws.finditer_digits .p1080
  have hmarked : finditer yearRe (u ++ ['#'] ++ Resolution.p1080.digits) = finditer yearRe u := by
    rw [laws.finditer_hash, hp1080, List.map_nil, List.append_nil]
  -- with `#1080p` the year can only be the one before the resolution
  have hlastYear : lastYear u = some 2160 := by
    have hread : lastYear (u ++ ['#'] ++ Resolution.p1080.digits) = some 2160 :=
      laws.lastYear_of_extractReleaseYear hyear (h true .p1080)
    rw [List.append_assoc] at hmarked hread
    rwa [lastYear_append hmarked] at hread
  refine ⟨hlastYear, ?_, ?_, ?_⟩
  · have hsplit : u ++ Resolution.p1080.digits =
        u.rdropWhile isDecimal ++ (u.rtakeWhile isDecimal ++ Resolution.p1080.digits) := by
      rw [← List.append_assoc, List.rdropWhile_append_rtakeWhile]
    have hjoined : finditer yearRe (u.rtakeWhile isDecimal ++ Resolution.p1080.digits) = [] := by
      by_cases hrun : u.rtakeWhile isDecimal = []
      · rw [hrun, List.nil_append, hp1080]
      · exact laws.finditer_joined_digits hu hrun (by decide)
    have hsame := laws.finditer_joined u Resolution.p1080.digits
    rw [hjoined, List.map_nil, List.append_nil, hsplit] at hsame
    have hread : lastYear (u ++ [] ++ Resolution.p1080.digits) = some 2160 :=
      laws.lastYear_of_extractReleaseYear hyear (h false .p1080)
    rwa [List.append_nil, hsplit, lastYear_append hsame] at hread
  · have hread : lastYear (u ++ [] ++ ['4']) = some 2160 :=
      laws.lastYear_of_extractReleaseYear hyear (h false .k4)
    rwa [List.append_nil] at hread
  · obtain ⟨last, hlast, -⟩ := Option.map_eq_some_iff.1 hlastYear
    have hle := le_length_of_mem_finditer yearRe_fits (List.mem_of_getLast? hlast)
    have hread := h true .p1080
    have hlast' : (finditer yearRe (u ++ (Token.plain true .p1080).mark ++
        (Token.plain true .p1080).quality.digits)).getLast? = some last := by
      rw [← hlast, ← hmarked]
      rfl
    rw [laws.extractReleaseYear_of_last hu hw hyear hle hlast'] at hread
    rw [laws.extractReleaseYear_blank hyear, hlast, Option.bind_some, hread]
    rfl

/-- **When every resolution leaves the year as it is**: a year follows it, or the text already reads
2160. -/
theorem same_years_iff (hu : EndsApart u) (hw : StartsApart w) (token : Token) :
    (∀ hash q, extractReleaseYear (u ++ (Token.plain hash q).text ++ w) =
        extractReleaseYear (u ++ token.text ++ w)) ↔ finditer yearRe w ≠ [] ∨ ReadsAlready u w := by
  constructor
  · intro h
    by_cases hyear : finditer yearRe w = []
    · refine .inr (laws.readsAlready_of_forall hu hw hyear fun hash q => ?_)
      -- every resolution reads as `#2160p` does
      have hleak : extractReleaseYear (u ++ (Token.plain true .p2160).text ++ w) = some 2160 :=
        laws.extractReleaseYear_p2160 hyear rfl (.inl rfl)
      rw [h hash q, ← h true .p2160, hleak]
    · exact .inl hyear
  · rintro h hash q
    by_cases hyear : finditer yearRe w = []
    · have hreads := h.resolve_left (not_not.2 hyear)
      rw [laws.extractReleaseYear_of_readsAlready hreads hu hw hyear,
        laws.extractReleaseYear_of_readsAlready hreads hu hw hyear]
    · cases hlast : (finditer yearRe w).getLast? with
      | none => exact absurd (List.getLast?_eq_none_iff.1 hlast) hyear
      | some last => rw [laws.extractReleaseYear_after hu hw hlast,
          laws.extractReleaseYear_after hu hw hlast]

end ResolutionLaws

end CineGate

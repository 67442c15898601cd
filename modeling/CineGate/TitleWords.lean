/-
**The words of a normalized title.**

`normalize_title` replaces characters, takes a year off and joins the words that are left.  White
space and the marks that `clean_display_title` strips are *breaks*: whatever `normalize_title` does
before it looks for a year, it does to the texts between breaks.

* `UnicodeLaws` — what the development takes from the Unicode database;
* `titleText`, `wordRuns`, `normalizeTitle_eq` — a normalized title, word by word;
* `stripsYear_eq` — whether a year is taken off;
* `titleText_breaks` — the text of a title is found between breaks.
-/

import CineGate.TokenBoundaries

set_option relaxedAutoImplicit false
set_option autoImplicit false

namespace CineGate

open Runs

/-- A mark that `clean_display_title` strips. -/
def isTitleMark (c : Char) : Bool := c ∈ ['-', '–', '—', ':', '：']

section

variable [UnicodeData]

/-- White space or a title mark. -/
def isBreak (c : Char) : Bool := isSpace c || isTitleMark c

/-- The facts about the Unicode database that hold of every version of it. -/
structure UnicodeLaws : Prop where
  isSpace_blank : isSpace ' ' = true
  isAlnum_of_isSpace : ∀ c, isSpace c → isAlnum c = false
  isAsciiAlnumIgnoreCase_of_isSpace : ∀ c, isSpace c → isAsciiAlnumIgnoreCase c = false
  not_mem_of_isSpace : ∀ c, isSpace c → c ∉ ['#', '@', '&', '_', ':', '：']
  isAlnum_of_isTitleMark : ∀ c, isTitleMark c → isAlnum c = false
  isAlnum_of_isAsciiAlnum : ∀ c, isAsciiAlnum c → isAlnum c
  isAlnum_of_decimal : ∀ c, (decimal c).isSome → isAlnum c
  decimal_of_isDigit : ∀ c, c.isDigit → decimal c = some (c.toNat - 48)
  decimal_noise : ∀ w ∈ noiseWords, ∀ c ∈ w, decimal c = none
  nfkc_breaks : KeepsSeparators isBreak nfkc
  casefold_breaks : KeepsSeparators isBreak casefold
  nfkc_of_isDigit : ∀ t : Str, (∀ c ∈ t, c.isDigit) → nfkc t = t
  casefold_of_isDigit : ∀ t : Str, (∀ c ∈ t, c.isDigit) → casefold t = t

/-- The maximal runs of word characters. -/
def wordRuns (text : Str) : List Str := runs (fun c => !isWord c) text

/-- The text in which `normalize_title` looks for a year. -/
def titleText (title : Str) : Str :=
  sub qualityRe (replaceAmpersands (sub botUsernameRe (casefold (nfkc title))))

/-- `strip_year` takes a year off. -/
def stripsYear (text : Str) : Bool :=
  match (finditer yearRe text).getLast? with
  | none => false
  | some last => (blankPunctuation (blankOut text last)).any isWord

end

theorem toLower_of_isDigit {c : Char} (hc : c.isDigit) : c.toLower = c := by
  have hdigit : c.val ≤ '9'.val := by
    simp only [Char.isDigit, Bool.and_eq_true, decide_eq_true_eq] at hc
    exact hc.2
  refine dif_neg ?_
  rintro ⟨hupper, -⟩
  exact absurd (UInt32.le_trans hupper hdigit) (by decide)

/-- The restricted database obeys the laws. -/
theorem UnicodeData.asciiArabic_laws : @UnicodeLaws UnicodeData.asciiArabic := by
  let _ : UnicodeData := UnicodeData.asciiArabic
  -- the laws about separators are checked symbol by symbol
  have hspaces : ∀ c, isSpace c = true → c ∈ [' ', '\t', '\n', '\r', '\x0b', '\x0c'] :=
    fun c hc => of_decide_eq_true hc
  have hmarks : ∀ c, isTitleMark c = true → c ∈ ['-', '–', '—', ':', '：'] :=
    fun c hc => of_decide_eq_true hc
  have hlower : ∀ c, isBreak c = true → c.toLower = c := by
    intro c hc
    rcases Bool.or_eq_true_iff.1 hc with hc | hc
    · have hall : ∀ c ∈ [' ', '\t', '\n', '\r', '\x0b', '\x0c'], c.toLower = c := by decide
      exact hall c (hspaces c hc)
    · have hall : ∀ c ∈ ['-', '–', '—', ':', '：'], c.toLower = c := by decide
      exact hall c (hmarks c hc)
  constructor
  case isSpace_blank => decide
  case isAlnum_of_isSpace =>
    have hall : ∀ c ∈ [' ', '\t', '\n', '\r', '\x0b', '\x0c'], isAlnum c = false := by decide
    exact fun c hc => hall c (hspaces c hc)
  case isAsciiAlnumIgnoreCase_of_isSpace =>
    have hall : ∀ c ∈ [' ', '\t', '\n', '\r', '\x0b', '\x0c'], isAsciiAlnumIgnoreCase c = false :=
      by decide
    exact fun c hc => hall c (hspaces c hc)
  case not_mem_of_isSpace =>
    have hall : ∀ c ∈ [' ', '\t', '\n', '\r', '\x0b', '\x0c'],
        c ∉ ['#', '@', '&', '_', ':', '：'] := by decide
    exact fun c hc => hall c (hspaces c hc)
  case isAlnum_of_isTitleMark =>
    have hall : ∀ c ∈ ['-', '–', '—', ':', '：'], isAlnum c = false := by decide
    exact fun c hc => hall c (hmarks c hc)
  case isAlnum_of_isAsciiAlnum =>
    intro c hc
    exact Bool.or_eq_true_iff.2 (.inl hc)
  case isAlnum_of_decimal =>
    intro c hc
    have hdigit : c.isDigit = true := by
      by_contra hnot
      simp [decimal, hnot] at hc
    exact Bool.or_eq_true_iff.2 (.inl (Bool.or_eq_true_iff.2 (.inr hdigit)))
  case decimal_of_isDigit =>
    intro c hc
    exact if_pos hc
  case decimal_noise => decide
  case nfkc_breaks => exact ⟨rfl, fun c hc => ⟨c, hc, fun a b => rfl⟩⟩
  case casefold_breaks =>
    refine ⟨rfl, fun c hc => ⟨c, hc, fun a b => ?_⟩⟩
    have hmap : casefold (a ++ c :: b) = casefold a ++ c.toLower :: casefold b := List.map_append
    rw [hmap, hlower c hc]
  case nfkc_of_isDigit => exact fun t _ => rfl
  case casefold_of_isDigit =>
    intro t ht
    exact (List.map_congr_left fun c hc => toLower_of_isDigit (ht c hc)).trans (List.map_id t)

theorem any_isWord_iff [UnicodeData] (text : Str) :
    text.any isWord = true ↔ wordRuns text ≠ [] := by
  rw [Ne, wordRuns, runs_eq_nil_iff]
  simp

/-- A title is changed between separators that are no part of a token. -/
theorem titleText_keepsSeparators [UnicodeData] {sep : Char → Bool}
    (hnfkc : KeepsSeparators sep nfkc) (hcasefold : KeepsSeparators sep casefold)
    (hsep : ∀ c, sep c → isAsciiAlnumIgnoreCase c = false ∧ c ∉ ['#', '@', '&', '_']) :
    KeepsSeparators sep titleText := by
  have hne : ∀ c, sep c → ∀ d ∈ ['#', '@', '&', '_'], c ≠ d := by
    rintro c hc d hd rfl
    exact (hsep c hc).2 hd
  have hquality : KeepsSeparators sep (sub qualityRe) :=
    sub_keepsSeparators (fun c hc => qualityRe_stopsAt (hsep c hc).1 (hne c hc '#' (by decide)))
      qualityRe_fits
  have hbot : KeepsSeparators sep (sub botUsernameRe) := by
    refine sub_keepsSeparators (fun c hc => ?_) botUsernameRe_fits
    have hignore := (hsep c hc).1
    simp only [isAsciiAlnumIgnoreCase, Bool.or_eq_false_iff] at hignore
    exact botUsernameRe_stopsAt hignore.1.1.1.1 (hne c hc '_' (by decide))
      (hne c hc '@' (by decide))
  have hampersand : KeepsSeparators sep replaceAmpersands := by
    refine ⟨rfl, fun c hc => ⟨c, hc, fun a b => ?_⟩⟩
    simp [replaceAmpersands, hne c hc '&' (by decide), hne c hc '_' (by decide)]
  exact hquality.comp (hampersand.comp (hbot.comp (hcasefold.comp hnfkc)))

/-- White space is a break. -/
theorem splitsAt_isSpace [UnicodeData] {β : Type} {h : Str → List β} (hh : SplitsAt isBreak h) :
    SplitsAt isSpace h := hh.mono fun c hc => by simp [isBreak, hc]

namespace UnicodeLaws

variable [UnicodeData] (laws : UnicodeLaws) {c : Char}
include laws

/-! ### Breaks -/

theorem isWord_of_isBreak (hc : isBreak c) : isWord c = false := by
  simp only [isBreak, Bool.or_eq_true] at hc
  simp only [isWord, Bool.or_eq_false_iff, decide_eq_false_iff_not]
  rcases hc with hc | hc
  · refine ⟨laws.isAlnum_of_isSpace c hc, ?_⟩
    rintro rfl
    exact laws.not_mem_of_isSpace '_' hc (by decide)
  · refine ⟨laws.isAlnum_of_isTitleMark c hc, ?_⟩
    rintro rfl
    revert hc
    decide

theorem isWord_of_isSpace (hc : isSpace c) : isWord c = false :=
  laws.isWord_of_isBreak (by simp [isBreak, hc])

theorem isBreak_blank : isBreak ' ' = true := by simp [isBreak, laws.isSpace_blank]

theorem isAsciiAlnumIgnoreCase_of_isBreak (hc : isBreak c) : isAsciiAlnumIgnoreCase c = false := by
  simp only [isBreak, Bool.or_eq_true] at hc
  rcases hc with hc | hc
  · exact laws.isAsciiAlnumIgnoreCase_of_isSpace c hc
  · have hmarks : ∀ c ∈ ['-', '–', '—', ':', '：'], isAsciiAlnumIgnoreCase c = false := by decide
    exact hmarks c (by simpa [isTitleMark] using hc)

theorem isAsciiAlnum_of_isBreak (hc : isBreak c) : isAsciiAlnum c = false := by
  have hignore := laws.isAsciiAlnumIgnoreCase_of_isBreak hc
  simp only [isAsciiAlnumIgnoreCase, Bool.or_eq_false_iff] at hignore
  exact hignore.1.1.1.1

theorem not_mem_of_isBreak (hc : isBreak c) : c ∉ ['#', '@', '&', '_'] := by
  simp only [isBreak, Bool.or_eq_true] at hc
  rcases hc with hc | hc
  · intro hmem
    refine laws.not_mem_of_isSpace c hc ?_
    simp only [List.mem_cons, List.not_mem_nil, or_false] at hmem ⊢
    tauto
  · have hmarks : ∀ c ∈ ['-', '–', '—', ':', '：'], c ∉ ['#', '@', '&', '_'] := by decide
    exact hmarks c (by simpa [isTitleMark] using hc)

theorem decimal_of_isBreak (hc : isBreak c) : (decimal c).isSome = false := by
  rw [Bool.eq_false_iff]
  intro hdecimal
  have halnum := laws.isAlnum_of_decimal c hdecimal
  have hword := laws.isWord_of_isBreak hc
  simp [isWord, halnum] at hword

theorem qualityRe_stopsAt_break (hc : isBreak c) : Matcher.StopsAt qualityRe c := by
  refine qualityRe_stopsAt (laws.isAsciiAlnumIgnoreCase_of_isBreak hc) ?_
  rintro rfl
  exact laws.not_mem_of_isBreak hc (by decide)

theorem botUsernameRe_stopsAt_break (hc : isBreak c) : Matcher.StopsAt botUsernameRe c := by
  refine botUsernameRe_stopsAt (laws.isAsciiAlnum_of_isBreak hc) ?_ ?_
  · rintro rfl
    exact laws.not_mem_of_isBreak hc (by decide)
  · rintro rfl
    exact laws.not_mem_of_isBreak hc (by decide)

theorem isSome_decimal_of_isDigit (hc : c.isDigit) : (decimal c).isSome := by
  rw [laws.decimal_of_isDigit c hc]
  rfl

/-- A digit is what a year token is made of. -/
theorem yearRe_stopsAt_of_decimal (hc : (decimal c).isSome = false) : Matcher.StopsAt yearRe c := by
  have hdigits : ∀ x ∈ ['1', '9', '2', '0'], x.isDigit := by decide
  exact yearRe_stopsAt (fun x hx => laws.isSome_decimal_of_isDigit (hdigits x hx)) hc

theorem yearRe_stopsAt_break (hc : isBreak c) : Matcher.StopsAt yearRe c :=
  laws.yearRe_stopsAt_of_decimal (laws.decimal_of_isBreak hc)

/-- **The text of a title is found between breaks.** -/
theorem titleText_breaks : KeepsSeparators isBreak titleText :=
  titleText_keepsSeparators laws.nfkc_breaks laws.casefold_breaks fun _ hc =>
    ⟨laws.isAsciiAlnumIgnoreCase_of_isBreak hc, laws.not_mem_of_isBreak hc⟩

/-! ### Words -/

theorem wordRuns_splitsAt : SplitsAt isBreak wordRuns :=
  splitsAt_runs.mono fun c hc => by simp [laws.isWord_of_isBreak hc]

omit laws in
/-- Characters that are words are counted between words. -/
theorem filter_splitsAt {p : Char → Bool} (hp : ∀ c, p c → isWord c) :
    SplitsAt (fun c => !isWord c) fun text : Str => text.filter p := by
  refine ⟨rfl, fun a c b hc => ?_⟩
  have hpc : p c = false := by
    rw [Bool.eq_false_iff]
    intro h
    rw [hp c h] at hc
    cases hc
  simp [hpc]

/-- Without punctuation, words are the runs between white space. -/
theorem runs_blankPunctuation (text : Str) :
    runs isSpace (blankPunctuation text) = wordRuns text := by
  have hsplits : SplitsAt (fun c => !isWord c) fun text : Str =>
    runs isSpace (blankPunctuation text) := by
    refine ⟨runs_nil, fun a c b hc => ?_⟩
    -- a symbol that is no word becomes white space
    have hspace : isSpace (if isWord c || isSpace c then c else ' ') = true := by
      have hword : isWord c = false := by simpa using hc
      split
      · next h => simpa [hword] using h
      · exact laws.isSpace_blank
    have happend : blankPunctuation (a ++ c :: b) =
        blankPunctuation a ++ (if isWord c || isSpace c then c else ' ') :: blankPunctuation b := by
      simp [blankPunctuation]
    rw [happend]
    exact runs_append_cons hspace _ _
  rw [hsplits.eq_flatMap, wordRuns, ← List.flatMap_singleton' (runs (fun c => !isWord c) text)]
  simp only [List.flatMap_assoc, List.flatMap_singleton]
  refine List.flatMap_congr fun w hw => ?_
  have hword : ∀ c ∈ w, isWord c = true := by
    intro c hc
    simpa using forall_of_mem_runs hw c hc
  have hspace : ∀ c ∈ w, isSpace c = false := by
    intro c hc
    rw [Bool.eq_false_iff]
    intro hs
    have hnot := laws.isWord_of_isSpace hs
    rw [hword c hc] at hnot
    cases hnot
  have hself : blankPunctuation w = w := by
    unfold blankPunctuation
    conv_rhs => rw [← List.map_id w]
    exact List.map_congr_left fun c hc => by simp [hword c hc]
  rw [hself, runs_of_forall hspace (ne_nil_of_mem_runs hw)]

/-- The tokens that `normalize_title` splits a title into. -/
theorem filter_splitOn (text : Str) :
    ((collapseSpaces (blankPunctuation text)).splitOn ' ').filter (fun token => !token.isEmpty) =
      wordRuns text := by
  have hruns : ∀ t : Str, (t.splitOn ' ').filter (fun token => !token.isEmpty) =
      runs (· == ' ') t :=
    fun t => rfl
  rw [hruns, collapseSpaces_eq laws.isSpace_blank, laws.runs_blankPunctuation, joined,
    splitsAt_runs.intercalate (by decide), ← List.flatMap_singleton' (wordRuns text)]
  simp only [List.flatMap_assoc, List.flatMap_singleton]
  refine List.flatMap_congr fun w hw => runs_of_forall (fun c hc => ?_) (ne_nil_of_mem_runs hw)
  have hword : isWord c = true := by simpa using forall_of_mem_runs hw c hc
  rw [beq_eq_false_iff_ne]
  rintro rfl
  rw [laws.isWord_of_isSpace laws.isSpace_blank] at hword
  cases hword

/-- **A normalized title, word by word.** -/
theorem normalizeTitle_eq (title : Str) :
    normalizeTitle title =
      joined ((wordRuns (stripYear (titleText title))).filter fun w => w ∉ noiseWords) := by
  unfold normalizeTitle
  split
  · next hnil =>
      have hstrip : stripYear ([] : Str) = [] := rfl
      rw [List.isEmpty_iff.1 hnil, laws.titleText_breaks.nil, hstrip, wordRuns, runs_nil]
      rfl
  · dsimp only
    rw [laws.filter_splitOn]
    rfl

/-! ### A line without its resolution -/

theorem runs_sub_quality_splitsAt : SplitsAt isSpace fun text : Str =>
    runs isSpace (sub qualityRe text) := by
  refine splitsAt_runs.comp (sub_keepsSeparators (fun c hc => ?_) qualityRe_fits)
  exact laws.qualityRe_stopsAt_break (by simp [isBreak, hc])

theorem removeQualityToken_strip (text : Str) :
    removeQualityToken (strip text) = joined (runs isSpace (sub qualityRe text)) := by
  have hruns : runs isSpace (sub qualityRe (strip text)) = runs isSpace (sub qualityRe text) :=
    apply_stripBy laws.runs_sub_quality_splitsAt (fun c hc => hc) text
  unfold removeQualityToken
  rw [strip_collapseSpaces laws.isSpace_blank, collapseSpaces_eq laws.isSpace_blank, hruns]

/-! ### Years -/

theorem isWord_of_decimal (hc : (decimal c).isSome) : isWord c = true := by
  simp [isWord, laws.isAlnum_of_decimal c hc]

theorem isSpace_of_isDigit (hdigit : c.isDigit) : isSpace c = false := by
  rw [Bool.eq_false_iff]
  intro hspace
  have hword := laws.isWord_of_decimal (laws.isSome_decimal_of_isDigit hdigit)
  rw [laws.isWord_of_isSpace hspace] at hword
  cases hword

theorem any_blankPunctuation (text : Str) :
    (blankPunctuation text).any isWord = text.any isWord := by
  have hblank : isWord ' ' = false := laws.isWord_of_isSpace laws.isSpace_blank
  unfold blankPunctuation
  rw [List.any_map]
  congr 1
  funext c
  simp only [Function.comp]
  split
  · rfl
  · next h =>
      simp only [Bool.or_eq_true, not_or, Bool.not_eq_true] at h
      rw [hblank, h.1]

/-- A year token is four digits. -/
theorem slice_year {text : Str} {span : ℕ × ℕ} (h : span ∈ finditer yearRe text) :
    (slice text span).length = 4 ∧ ∀ c ∈ slice text span, (decimal c).isSome := by
  obtain ⟨hlt, hspan, before, hmatch⟩ := mem_finditer_spec h
  obtain ⟨hfour, hlength, hdigits⟩ := yearRe_eq_some hmatch
  have hslice : slice text span = (text.drop span.1).take 4 := by
    unfold slice
    rw [List.drop_take, hfour]
  rw [hslice]
  refine ⟨by simpa using hlength, fun c hc => ?_⟩
  rcases hdigits c hc with hmem | hdecimal
  · have hdigit : ∀ c ∈ ['1', '9', '2', '0'], c.isDigit := by decide
    rw [laws.decimal_of_isDigit c (hdigit c hmem)]
    rfl
  · exact hdecimal

omit laws [UnicodeData] in
/-- What is counted in a text is counted in a part and in the rest. -/
theorem length_filter_blankOut {p : Char → Bool} (hblank : p ' ' = false) {text : Str}
    {span : ℕ × ℕ} (hspan : span.1 < span.2) :
    (text.filter p).length =
      ((blankOut text span).filter p).length + ((slice text span).filter p).length := by
  have hsplit : text = text.take span.1 ++ (slice text span ++ text.drop span.2) := by
    have htake : text.take span.2 = text.take span.1 ++ slice text span := by
      have hmin : (text.take span.2).take span.1 = text.take span.1 := by
        rw [List.take_take, min_eq_left hspan.le]
      rw [slice, ← hmin, List.take_append_drop]
    rw [← List.append_assoc, ← htake, List.take_append_drop]
  conv_lhs => rw [hsplit]
  unfold blankOut
  simp only [List.filter_append, List.length_append, List.filter_cons, hblank]
  simp
  omega

/-- What is counted in a text and is part of every year. -/
theorem length_filter_year {p : Char → Bool} (hblank : p ' ' = false)
    (hp : ∀ c, (decimal c).isSome → p c) {text : Str} {span : ℕ × ℕ}
    (h : span ∈ finditer yearRe text) :
    (text.filter p).length = ((blankOut text span).filter p).length + 4 := by
  obtain ⟨hlength, hdigits⟩ := laws.slice_year h
  have hall : (slice text span).filter p = slice text span :=
    List.filter_eq_self.2 fun c hc => hp c (hdigits c hc)
  rw [length_filter_blankOut hblank (mem_finditer_spec h).2.1, hall, hlength]

/-- **Whether a year is taken off**: there is one, and a word besides it. -/
theorem stripsYear_eq (text : Str) :
    stripsYear text =
      (!(tokens yearRe text).isEmpty && decide (4 < (text.filter isWord).length)) := by
  have hblank : isWord ' ' = false := laws.isWord_of_isSpace laws.isSpace_blank
  unfold stripsYear tokens
  rw [List.isEmpty_map]
  cases hlast : (finditer yearRe text).getLast? with
  | none =>
      rw [List.getLast?_eq_none_iff.1 hlast]
      rfl
  | some last =>
      have hmem := List.mem_of_getLast? hlast
      have hne : (finditer yearRe text).isEmpty = false := by
        rw [List.isEmpty_eq_false_iff]
        exact List.ne_nil_of_mem hmem
      have hcount := laws.length_filter_year hblank (fun c hc => laws.isWord_of_decimal hc) hmem
      dsimp only
      rw [laws.any_blankPunctuation, hne, hcount, Bool.eq_iff_iff, List.any_eq_true]
      simp [List.length_pos_iff, List.filter_eq_nil_iff]

theorem wordRuns_stripYear_of_not {text : Str} (h : stripsYear text = false) :
    wordRuns (stripYear text) = wordRuns text := by
  have hwords := splitsAt_isSpace laws.wordRuns_splitsAt
  rw [stripsYear] at h
  rw [stripYear]
  cases hlast : (finditer yearRe text).getLast? with
  | none => exact apply_collapseSpaces laws.isSpace_blank hwords text
  | some last =>
      rw [hlast] at h
      simp only [h]
      exact apply_collapseSpaces laws.isSpace_blank hwords text

theorem wordRuns_stripYear {text : Str} (h : stripsYear text = true) :
    ∃ last, (finditer yearRe text).getLast? = some last ∧
      wordRuns (stripYear text) = wordRuns (blankOut text last) := by
  have hwords := splitsAt_isSpace laws.wordRuns_splitsAt
  rw [stripsYear] at h
  rw [stripYear]
  cases hlast : (finditer yearRe text).getLast? with
  | none =>
      rw [hlast] at h
      cases h
  | some last =>
      rw [hlast] at h
      refine ⟨last, rfl, ?_⟩
      simp only [h]
      exact apply_collapseSpaces laws.isSpace_blank hwords _

end UnicodeLaws

/-! ### A title and its year -/

/-- `str(year)`. -/
def yearText (year : ℕ) : Str := (toString year).toList

/-- The years of the archive. -/
def IsReleaseYear (year : ℕ) : Prop := 1900 ≤ year ∧ year ≤ 2199

theorem yearText_spec {year : ℕ} (h : IsReleaseYear year) :
    (yearText year).length = 4 ∧ (yearText year).take 2 ∈ [['1', '9'], ['2', '0'], ['2', '1']] ∧
      ∀ c ∈ yearText year, c.isDigit := by
  have hall : ∀ i < 300, (yearText (1900 + i)).length = 4 ∧
      (yearText (1900 + i)).take 2 ∈ [['1', '9'], ['2', '0'], ['2', '1']] ∧
      ∀ c ∈ yearText (1900 + i), c.isDigit := by
    decide +kernel
  obtain ⟨hlow, hhigh⟩ := h
  have hi := hall (year - 1900) (by omega)
  rwa [Nat.add_sub_of_le hlow] at hi

/-- A year has no noise word. -/
theorem yearText_not_mem_noiseWords {year : ℕ} (h : IsReleaseYear year) :
    yearText year ∉ noiseWords := by
  intro hmem
  obtain ⟨-, -, hdigits⟩ := yearText_spec h
  have hnoise : ∀ w ∈ noiseWords, ∃ c ∈ w, c.isDigit = false := by decide
  obtain ⟨c, hc, hdigit⟩ := hnoise _ hmem
  rw [hdigits c hc] at hdigit
  cases hdigit

namespace UnicodeLaws

variable [UnicodeData] (laws : UnicodeLaws) {c : Char} {year : ℕ}
include laws

theorem finditer_yearText (h : IsReleaseYear year) :
    finditer yearRe (yearText year) = [(0, 4)] := by
  obtain ⟨hlength, hcentury, hdigits⟩ := yearText_spec h
  have hdecimal : ∀ c ∈ yearText year, (decimal c).isSome := fun c hc =>
    laws.isSome_decimal_of_isDigit (hdigits c hc)
  match htext : yearText year, hlength with
  | [a, b, x, y], _ =>
      rw [htext] at hcentury hdecimal
      have hx := hdecimal x (by simp)
      have hy := hdecimal y (by simp)
      have hmatch : yearRe none [a, b, x, y] = some 4 := by
        simp only [List.take_succ_cons, List.take_zero, List.mem_cons, List.cons.injEq, and_true,
          List.not_mem_nil, or_false] at hcentury
        have hstart : (a = '1' ∧ b = '9') ∨ (a = '2' ∧ (b = '0' ∨ b = '1')) := by tauto
        simp [yearRe, hstart, hx, hy]
      rw [finditer, finditerFrom, hmatch]
      rfl

/-- The last year of a text that ends with one. -/
theorem getLast?_finditer_year (h : IsReleaseYear year) (hc : isBreak c) (text : Str) :
    (finditer yearRe (text ++ c :: yearText year)).getLast? =
      some (text.length + 1, text.length + 5) := by
  rw [finditer_append (laws.yearRe_stopsAt_break hc) yearRe_fits, laws.finditer_yearText h,
    List.map_singleton, List.getLast?_append, List.getLast?_singleton, Option.some_or]
  congr 2 <;> omega

omit laws [UnicodeData] in
theorem blankOut_year (h : IsReleaseYear year) (text : Str) :
    blankOut (text ++ c :: yearText year) (text.length + 1, text.length + 5) =
      text ++ [c, ' '] := by
  have hlength := (yearText_spec h).1
  unfold blankOut
  have htake : (text ++ c :: yearText year).take (text.length + 1) = text ++ [c] := by
    rw [List.take_length_add_append]
    rfl
  have hdrop : (text ++ c :: yearText year).drop (text.length + 5) = [] := by
    refine List.drop_eq_nil_of_le ?_
    simp [hlength]
  dsimp only
  rw [htake, hdrop, List.append_assoc]
  rfl

/-- `strip_year` of a text that ends with a year. -/
theorem stripYear_append (h : IsReleaseYear year) (hc : isBreak c) (text : Str) :
    stripYear (text ++ c :: yearText year) =
      if text.any isWord then collapseSpaces (text ++ [c, ' '])
      else collapseSpaces (text ++ c :: yearText year) := by
  have hblank : isWord ' ' = false := laws.isWord_of_isSpace laws.isSpace_blank
  have hany : (text ++ [c, ' ']).any isWord = text.any isWord := by
    simp [laws.isWord_of_isBreak hc, hblank]
  unfold stripYear
  rw [laws.getLast?_finditer_year h hc]
  dsimp only
  rw [blankOut_year h, laws.any_blankPunctuation, hany]

theorem titleText_yearText (h : IsReleaseYear year) :
    titleText (yearText year) = yearText year := by
  obtain ⟨-, -, hdigits⟩ := yearText_spec h
  have hquality := finditer_qualityRe_of_isDigit hdigits
  have hbot := finditer_botUsernameRe_of_isDigit hdigits
  have hampersand : replaceAmpersands (yearText year) = yearText year := by
    unfold replaceAmpersands
    conv_rhs => rw [← List.flatMap_singleton' (yearText year)]
    refine List.flatMap_congr fun c hc => ?_
    have hdigit := hdigits c hc
    have hand : c ≠ '&' := by rintro rfl; revert hdigit; decide
    have hunderscore : c ≠ '_' := by rintro rfl; revert hdigit; decide
    rw [if_neg hand, if_neg hunderscore]
  rw [titleText, laws.nfkc_of_isDigit _ hdigits, laws.casefold_of_isDigit _ hdigits,
    sub_eq_self hbot, hampersand, sub_eq_self hquality]

/-- **What `normalize_title` gives for a title and its year.** -/
theorem normalizeTitle_append_year (h : IsReleaseYear year) (title : Str) :
    normalizeTitle (title ++ ' ' :: yearText year) =
      if (titleText title).any isWord
      then joined ((wordRuns (titleText title)).filter fun w => w ∉ noiseWords)
      else yearText year := by
  obtain ⟨c, hc, htext⟩ := laws.titleText_breaks.append ' ' laws.isBreak_blank
  have hwords := laws.wordRuns_splitsAt
  have hspaces := splitsAt_isSpace hwords
  rw [laws.normalizeTitle_eq, htext, laws.titleText_yearText h, laws.stripYear_append h hc]
  split
  · rw [apply_collapseSpaces laws.isSpace_blank hspaces, hwords.append _ _ _ hc,
      hwords.cons laws.isBreak_blank, hwords.nil,
      List.append_nil]
  · next hnone =>
      have hnil : wordRuns (titleText title) = [] := by
        simpa using mt (any_isWord_iff _).2 hnone
      have hyear : wordRuns (yearText year) = [yearText year] := by
        obtain ⟨hlength, -, hdigits⟩ := yearText_spec h
        refine runs_of_forall (fun c hc => ?_) ?_
        · simp [laws.isWord_of_decimal (laws.isSome_decimal_of_isDigit (hdigits c hc))]
        · rintro hnil
          rw [hnil] at hlength
          cases hlength
      rw [apply_collapseSpaces laws.isSpace_blank hspaces, hwords.append _ _ _ hc, hnil, hyear]
      simp [yearText_not_mem_noiseWords h, joined]

end UnicodeLaws

end CineGate

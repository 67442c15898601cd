/-
**A movie's title on its poster and on its files.**

The caption of a file is often just the title, the release year and the resolution.
`_detect_quality` takes the title from such a *freeform* caption and normalizes it; the poster path
normalizes the same title and year.  The two agree exactly when no year is taken off the title
itself, and a title that starts with a `#` has nothing to lose.

* `freeformCaption`, `Freeform` — the captions in question;
* `freeformTitle`, `freeformLineTitle_caption` — what the caption path reads;
* `KeepsTitle` — when nothing but the release year is taken off;
* `titlesAgree_iff_keepsTitle` — and then the two paths agree.
-/

import CineGate.CaptionLines
import CineGate.TitleWords

set_option relaxedAutoImplicit false
set_option autoImplicit false

namespace CineGate

open Runs

/-- `f"{title} {year} #{quality}"`. -/
def freeformCaption (title : Str) (year : ℕ) (q : Resolution) : Str :=
  title ++ ' ' :: (yearText year ++ ' ' :: '#' :: q.label)

section

variable [UnicodeData]

/-- A title on one line, without a field label, a resolution or a username (the parser may cut a
caption inside it), with a word, and a release year. -/
structure Freeform (title : Str) (year : ℕ) (q : Resolution) : Prop where
  line : ∀ c ∈ title, isLineBreak c = false
  field : fieldMatch (freeformCaption title year q) = none
  quality : finditer qualityRe title = []
  qualityCut : finditer qualityRe (title.take maxParsedCaptionChars) = []
  username : finditer botUsernameRe title = []
  word : (blankPunctuation title).any isWord
  year : IsReleaseYear year

/-- The caption path and the poster path give the title the same normalized form; a caption without
a title counts as one with an empty title. -/
def TitlesAgree (message : ArchiveMessage) (title : Str) (year : ℕ) : Prop :=
  ∃ quality, detectQuality message = some quality ∧
    quality.normalizedTitle.getD [] = normalizeTitle (title ++ ' ' :: yearText year)

/-- The parser reads the whole caption, and nothing but the release year is taken off: a word is
left of the title when it is normalized, `strip_year` takes no year off it, and a title that starts
with a `#` has noise words only. -/
structure KeepsTitle (title : Str) (year : ℕ) (q : Resolution) : Prop where
  whole : (freeformCaption title year q).length ≤ maxParsedCaptionChars
  word : (titleText title).any isWord
  year : stripsYear (titleText title) = false
  hash : (title.dropWhile isBreak).head? = some '#' →
    ∀ w ∈ wordRuns (titleText title), w ∈ noiseWords

/-- The title of a freeform caption, without its year. -/
def freeformTitle (title : Str) : Str := collapseSpaces (stripTitleMarks (collapseSpaces title))

end

/-! ### The caption -/

theorem isLineBreak_freeformCaption {title : Str} {year : ℕ} {q : Resolution}
    (hyear : IsReleaseYear year)
    (hline : ∀ c ∈ title, isLineBreak c = false) :
    ∀ c ∈ freeformCaption title year q, isLineBreak c = false := by
  have hdigit : ∀ c, c.isDigit → isLineBreak c = false := by
    intro c hc
    rw [Bool.eq_false_iff]
    intro hbreak
    have hbreaks : ∀ c ∈ ['\n', '\r', '\x0b', '\x0c', '\x1c', '\x1d', '\x1e', '\u0085', '\u2028',
        '\u2029'],
          c.isDigit = false := by decide
    rw [hbreaks c (by simpa [isLineBreak] using hbreak)] at hc
    cases hc
  have hlabel : ∀ c ∈ ' ' :: '#' :: q.label, isLineBreak c = false := by
    cases q <;> decide
  intro c hc
  rcases List.mem_append.1 hc with hc | hc
  · exact hline c hc
  · rcases List.mem_cons.1 hc with rfl | hc
    · decide
    · rcases List.mem_append.1 hc with hc | hc
      · exact hdigit c ((yearText_spec hyear).2.2 c hc)
      · exact hlabel c hc

/-! ### The title of a freeform caption -/

namespace UnicodeLaws

variable [UnicodeData] (laws : UnicodeLaws) {title : Str} {year : ℕ} {q : Resolution}
include laws

/-- What splits at breaks does not see what is stripped from a freeform title. -/
theorem apply_freeformTitle {β : Type} {h : Str → List β} (hh : SplitsAt isBreak h) (title : Str) :
    h (freeformTitle title) = h title := by
  have hspaces := splitsAt_isSpace hh
  have hmarks : ∀ c, decide (c ∈ [' ', '-', '–', '—', ':', '：']) = true → isBreak c := by
    intro c hc
    rcases List.mem_cons.1 (of_decide_eq_true hc) with rfl | hc
    · exact laws.isBreak_blank
    · simp only [isBreak, isTitleMark, Bool.or_eq_true, decide_eq_true_eq]
      exact .inr hc
  unfold freeformTitle stripTitleMarks
  rw [apply_collapseSpaces laws.isSpace_blank hspaces, apply_stripBy hh hmarks,
    apply_collapseSpaces laws.isSpace_blank hspaces]

theorem runs_isSpace_yearText (hyear : IsReleaseYear year) :
    runs isSpace (yearText year) = [yearText year] := by
  obtain ⟨hlength, -, hdigits⟩ := yearText_spec hyear
  refine runs_of_forall (fun c hc => laws.isSpace_of_isDigit (hdigits c hc)) ?_
  rintro hnil
  rw [hnil] at hlength
  cases hlength

/-- A freeform caption, without its resolution. -/
theorem runs_freeformCaption (hquality : finditer qualityRe title = [])
    (hyear : IsReleaseYear year) :
    runs isSpace (sub qualityRe (freeformCaption title year q)) = runs isSpace title ++
    [yearText year] := by
  have hsplits := laws.runs_sub_quality_splitsAt
  have hblank := laws.isSpace_blank
  have hlabel : sub qualityRe ('#' :: q.label) = [' '] := by cases q <;> decide
  have htitle : runs isSpace (sub qualityRe (freeformCaption title year q)) = _ :=
    hsplits.append title ' ' _ hblank
  have hrest : runs isSpace (sub qualityRe (yearText year ++ ' ' :: '#' :: q.label)) = _ :=
    hsplits.append (yearText year) ' ' _ hblank
  rw [htitle, hrest, hlabel, sub_eq_self hquality, 
    sub_eq_self (finditer_qualityRe_of_isDigit (yearText_spec hyear).2.2),
    laws.runs_isSpace_yearText hyear, runs_cons hblank, runs_nil, List.append_nil]

/-- A title has a word that is no white space. -/
theorem runs_isSpace_ne_nil (hword : (blankPunctuation title).any isWord) :
    runs isSpace title ≠ [] := by
  rw [laws.any_blankPunctuation] at hword
  obtain ⟨c, hc, hword⟩ := List.any_eq_true.1 hword
  intro hnil
  have hspace := forall_of_runs_eq_nil hnil c hc
  rw [laws.isWord_of_isSpace hspace] at hword
  cases hword

theorem stripBotUsernames_joined (hform : Freeform title year q) :
    stripBotUsernames (joined (runs isSpace title ++ [yearText year])) =
      collapseSpaces title ++ ' ' :: yearText year := by
  have hsplits : SplitsAt isSpace (tokens botUsernameRe) :=
    tokens_splitsAt (fun c hc => laws.botUsernameRe_stopsAt_break (by simp [isBreak, hc]))
      botUsernameRe_fits
  have hnone : finditer botUsernameRe (collapseSpaces title) = [] := by
    have htokens : tokens botUsernameRe (collapseSpaces title) = tokens botUsernameRe title :=
      apply_collapseSpaces laws.isSpace_blank hsplits title
    have htitle : tokens botUsernameRe title = [] := by rw [tokens, hform.username, List.map_nil]
    rw [htitle] at htokens
    exact List.map_eq_nil_iff.1 htokens
  unfold stripBotUsernames
  rw [joined_append_singleton (laws.runs_isSpace_ne_nil hform.word),
    ← collapseSpaces_eq laws.isSpace_blank,
    sub_append (laws.botUsernameRe_stopsAt_break laws.isBreak_blank) botUsernameRe_fits,
      sub_eq_self hnone,
    
    sub_eq_self (finditer_botUsernameRe_of_isDigit (yearText_spec hform.year).2.2)]

/-- `strip_year` takes the release year off. -/
theorem stripYear_collapsed (hform : Freeform title year q) :
    stripYear (collapseSpaces title ++ ' ' :: yearText year) = collapseSpaces title := by
  have hblank := laws.isSpace_blank
  have hany : (collapseSpaces title).any isWord := by
    have hwords := splitsAt_isSpace laws.wordRuns_splitsAt
    rw [any_isWord_iff, apply_collapseSpaces hblank hwords, ← any_isWord_iff,
      ← laws.any_blankPunctuation]
    exact hform.word
  have hruns : runs isSpace (collapseSpaces title ++ [' ', ' ']) = runs isSpace title := by
    have hself : runs isSpace (collapseSpaces title) = runs isSpace title :=
      apply_collapseSpaces hblank splitsAt_runs title
    rw [runs_append_cons hblank, runs_cons hblank, runs_nil, List.append_nil, hself]
  rw [laws.stripYear_append hform.year laws.isBreak_blank, if_pos hany, collapseSpaces_eq hblank,
    hruns, collapseSpaces_eq hblank]

theorem freeformTitle_ne_nil (hword : (blankPunctuation title).any isWord) :
    freeformTitle title ≠ [] := by
  intro hnil
  rw [laws.any_blankPunctuation, any_isWord_iff,
    ← laws.apply_freeformTitle laws.wordRuns_splitsAt, hnil,
    laws.wordRuns_splitsAt.nil] at hword
  exact hword rfl

/-- **The title of a freeform caption**: the title without its year, unless it starts with a `#`. -/
theorem freeformLineTitle_caption (hform : Freeform title year q) :
    freeformLineTitle (freeformCaption title year q) =
      if (freeformTitle title).head? = some '#' then none else some (freeformTitle title) := by
  have hcolon : ∀ c, isColon c → isSpace c = false := by
    intro c hc
    rw [Bool.eq_false_iff]
    intro hspace
    refine laws.not_mem_of_isSpace c hspace ?_
    simp only [isColon, Bool.or_eq_true, decide_eq_true_eq] at hc
    rcases hc with rfl | rfl <;> decide
  have hfield := fieldMatch_strip hcolon hform.field
  have hruns := laws.runs_freeformCaption (q := q) hform.quality hform.year
  have hline : (strip (freeformCaption title year q)).isEmpty = false := by
    rw [List.isEmpty_eq_false_iff]
    intro hnil
    have hremoved := laws.removeQualityToken_strip (freeformCaption title year q)
    have hempty : removeQualityToken ([] : Str) = [] := rfl
    rw [hnil, hruns, joined_append_singleton (laws.runs_isSpace_ne_nil hform.word),
      hempty] at hremoved
    exact absurd hremoved.symm (by simp)
  have hcandidate : collapseSpaces (stripTitleMarks (stripYear (stripBotUsernames
      (removeQualityToken (strip (freeformCaption title year q)))))) = freeformTitle title := by
    rw [laws.removeQualityToken_strip, hruns, laws.stripBotUsernames_joined hform,
      laws.stripYear_collapsed hform]
    rfl
  have hne : (freeformTitle title).isEmpty = false := by
    rw [List.isEmpty_eq_false_iff]
    exact laws.freeformTitle_ne_nil hform.word
  unfold freeformLineTitle
  dsimp only
  rw [hline, hfield, hcandidate, hne]
  by_cases hhash : (freeformTitle title).head? = some '#' <;> simp [hhash]

/-! ### The first symbol -/

theorem head?_collapseSpaces (text : Str) :
    (collapseSpaces text).head? = (text.dropWhile isSpace).head? := by
  rw [collapseSpaces_eq laws.isSpace_blank, head?_joined fun w hw => ne_nil_of_mem_runs hw,
    Runs.head?_dropWhile]

/-- The only white space of a collapsed text is blanks. -/
theorem eq_blank_of_mem_collapseSpaces {text : Str} {c : Char} (hc : c ∈ collapseSpaces text)
    (hspace : isSpace c) : c = ' ' := by
  rw [collapseSpaces_eq laws.isSpace_blank] at hc
  obtain hblank | ⟨w, hw, hc⟩ := mem_joined hc
  · exact hblank
  · rw [forall_of_mem_runs hw c hc] at hspace
    cases hspace

/-- A freeform title starts with the first symbol of the title that is neither white space nor a
title mark. -/
theorem head?_freeformTitle (title : Str) :
    (freeformTitle title).head? = (title.dropWhile isBreak).head? := by
  have hhead : ((freeformTitle title).dropWhile isBreak).head? =
      (title.dropWhile isBreak).head? := by
    rw [Runs.head?_dropWhile, Runs.head?_dropWhile, laws.apply_freeformTitle splitsAt_runs]
  -- after the marks are stripped, the text starts with no break
  have hstart : ∀ c, (stripTitleMarks (collapseSpaces title)).head? = some c →
      isBreak c = false := by
    intro c hc
    obtain ⟨hmark, hmem⟩ := head?_stripBy hc
    have hnot : c ∉ [' ', '-', '–', '—', ':', '：'] := of_decide_eq_false hmark
    simp only [isBreak, isTitleMark, Bool.or_eq_false_iff, decide_eq_false_iff_not]
    refine ⟨?_, fun hc => hnot (List.mem_cons_of_mem ' ' hc)⟩
    rw [Bool.eq_false_iff]
    intro hspace
    exact hnot (by rw [laws.eq_blank_of_mem_collapseSpaces hmem hspace]; exact List.mem_cons_self)
  have hfreeform : ∀ c, (freeformTitle title).head? = some c → isBreak c = false := by
    intro c hc
    refine hstart c ?_
    rw [freeformTitle, laws.head?_collapseSpaces] at hc
    cases htext : stripTitleMarks (collapseSpaces title) with
    | nil =>
        rw [htext] at hc
        cases hc
    | cons x text =>
        have hx := hstart x (by rw [htext]; rfl)
        simp only [isBreak, Bool.or_eq_false_iff] at hx
        rw [htext, List.dropWhile_cons_of_neg (by simp [hx.1])] at hc
        exact hc
  rw [← hhead]
  cases htext : freeformTitle title with
  | nil => rfl
  | cons c text =>
      have hc := hfreeform c (by rw [htext]; rfl)
      rw [List.dropWhile_cons_of_neg (by simp [hc])]

/-! ### The resolution of a freeform caption -/

theorem extractQuality_freeformCaption : extractQuality (freeformCaption title year q) ≠ none := by
  rw [Ne, extractQuality_eq_none_iff]
  intro hnil
  have hlabel : finditer qualityRe ('#' :: q.label) ≠ [] := by cases q <;> decide
  have hblank := laws.qualityRe_stopsAt_break laws.isBreak_blank
  unfold freeformCaption at hnil
  rw [finditer_append hblank qualityRe_fits, List.append_eq_nil_iff, List.map_eq_nil_iff,
    finditer_append hblank qualityRe_fits, List.append_eq_nil_iff, List.map_eq_nil_iff] at hnil
  exact hlabel hnil.2.2

/-- A caption that the parser cuts has no resolution. -/
theorem finditer_cut (hform : Freeform title year q)
    (hlength : maxParsedCaptionChars < (freeformCaption title year q).length) :
    finditer qualityRe ((freeformCaption title year q).take maxParsedCaptionChars) = [] := by
  have hblank := laws.qualityRe_stopsAt_break laws.isBreak_blank
  obtain hle | hlt := le_or_gt maxParsedCaptionChars title.length
  · unfold freeformCaption
    rw [List.take_append_of_le_length hle]
    exact hform.qualityCut
  · obtain ⟨k, hk⟩ := Nat.exists_eq_add_of_lt hlt
    have htake : (freeformCaption title year q).take maxParsedCaptionChars =
        title ++ ' ' :: (yearText year ++ ' ' :: '#' :: q.label).take k := by
      unfold freeformCaption
      rw [hk, Nat.add_assoc, List.take_length_add_append, List.take_succ_cons]
    have hshort : k < 6 + q.label.length := by
      have hyear := (yearText_spec hform.year).1
      unfold freeformCaption at hlength
      simp only [List.length_append, List.length_cons, hyear] at hlength
      omega
    rw [htake, finditer_append hblank qualityRe_fits, hform.quality, List.nil_append,
      List.map_eq_nil_iff]
    -- the cut falls into the year or into the resolution
    obtain ⟨hfour, -, hdigits⟩ := yearText_spec hform.year
    obtain hyear | hyear := le_or_gt k 4
    · rw [List.take_append_of_le_length (by rw [hfour]; exact hyear)]
      exact finditer_qualityRe_of_isDigit fun c hc => hdigits c (List.mem_of_mem_take hc)
    · obtain ⟨i, rfl⟩ := Nat.exists_eq_add_of_lt hyear
      have hlabel : ∀ i < q.label.length + 1,
          finditer qualityRe (('#' :: q.label).take i) = [] := by
        cases q <;> decide
      have hrest : (yearText year ++ ' ' :: '#' :: q.label).take (4 + i + 1) =
          yearText year ++ ' ' :: ('#' :: q.label).take i := by
        rw [← hfour, Nat.add_assoc, List.take_length_add_append, List.take_succ_cons]
      rw [hrest, finditer_append hblank qualityRe_fits, finditer_qualityRe_of_isDigit hdigits,
        hlabel i (by omega)]
      rfl

/-! ### Digits -/

/-- The digits of a normalized title are those of the text: no noise word has one. -/
theorem filter_decimal_joined (text : Str) :
    (joined ((wordRuns text).filter fun w => w ∉ noiseWords)).filter (fun c => (decimal c).isSome) =
      text.filter fun c => (decimal c).isSome := by
  have hdigits : SplitsAt (fun c => !isWord c) fun text : Str => text.filter fun c =>
    (decimal c).isSome :=
    filter_splitsAt fun c hc => laws.isWord_of_decimal hc
  have hblank : (!isWord ' ') = true := by rw [laws.isWord_of_isSpace laws.isSpace_blank]; rfl
  have hnoise : ∀ ws : List Str, (ws.filter fun w => w ∉ noiseWords).flatMap
      (fun w => w.filter fun c => (decimal c).isSome) =
      ws.flatMap fun w => w.filter fun c => (decimal c).isSome := by
    intro ws
    induction ws with
    | nil => rfl
    | cons w ws ih =>
        rw [List.filter_cons, List.flatMap_cons, ← ih]
        by_cases hw : w ∈ noiseWords
        · have hnone : w.filter (fun c => (decimal c).isSome) = [] := by
            refine List.filter_eq_nil_iff.2 fun c hc => ?_
            rw [laws.decimal_noise w hw c hc]
            decide
          rw [if_neg (by simpa using hw), hnone, List.nil_append]
        · rw [if_pos (by simpa using hw), List.flatMap_cons]
  have hjoined := hdigits.intercalate hblank ((wordRuns text).filter fun w => w ∉ noiseWords)
  have htext := hdigits.eq_flatMap text
  rw [joined, hjoined, hnoise, htext]
  rfl

/-! ### The two paths -/

theorem stripsYear_freeformTitle (title : Str) :
    stripsYear (titleText (freeformTitle title)) = stripsYear (titleText title) := by
  have htext := laws.titleText_breaks
  have hyears : SplitsAt isBreak fun title : Str => tokens yearRe (titleText title) :=
    (tokens_splitsAt (fun c hc => laws.yearRe_stopsAt_break hc) yearRe_fits).comp htext
  have hcount : SplitsAt isBreak fun title : Str => (titleText title).filter isWord := by
    have hfilter : SplitsAt (fun c => !isWord c) fun text : Str => text.filter isWord :=
      filter_splitsAt fun c hc => hc
    exact (hfilter.mono fun c hc => by simp [laws.isWord_of_isBreak hc]).comp htext
  have hyears' := laws.apply_freeformTitle hyears title
  have hcount' := laws.apply_freeformTitle hcount title
  rw [laws.stripsYear_eq, laws.stripsYear_eq, hyears', hcount']

theorem wordRuns_freeformTitle (title : Str) :
    wordRuns (titleText (freeformTitle title)) = wordRuns (titleText title) :=
  laws.apply_freeformTitle (laws.wordRuns_splitsAt.comp laws.titleText_breaks) title

/-- The caption path when `strip_year` takes nothing more off. -/
theorem normalizeTitle_freeformTitle (h : stripsYear (titleText title) = false) :
    normalizeTitle (freeformTitle title) =
      joined ((wordRuns (titleText title)).filter fun w => w ∉ noiseWords) := by
  rw [← laws.stripsYear_freeformTitle] at h
  rw [laws.normalizeTitle_eq, laws.wordRuns_stripYear_of_not h, laws.wordRuns_freeformTitle]

/-- The caption path loses four digits when `strip_year` takes a year off the title. -/
theorem length_digits_freeformTitle (h : stripsYear (titleText title) = true) :
    ((joined ((wordRuns (titleText title)).filter fun w => w ∉ noiseWords)).filter
        fun c => (decimal c).isSome).length =
      ((normalizeTitle (freeformTitle title)).filter fun c => (decimal c).isSome).length + 4 := by
  have hblank : (decimal ' ').isSome = false := laws.decimal_of_isBreak laws.isBreak_blank
  rw [← laws.stripsYear_freeformTitle] at h
  obtain ⟨last, hlast, hwords⟩ := laws.wordRuns_stripYear h
  rw [laws.normalizeTitle_eq, hwords, ← laws.wordRuns_freeformTitle title,
    laws.filter_decimal_joined, laws.filter_decimal_joined]
  exact laws.length_filter_year hblank (fun c hc => hc) (List.mem_of_getLast? hlast)

/-- What the caption path makes of the title, when the parser reads the whole caption. -/
theorem detectQuality_freeform {message : ArchiveMessage} (hform : Freeform title year q)
    (hkind : message.mediaKind = .video ∨ message.mediaKind = .document)
    (hcaption : message.caption = some (freeformCaption title year q))
    (hwhole : (freeformCaption title year q).length ≤ maxParsedCaptionChars) :
    ∃ quality, detectQuality message = some quality ∧ quality.normalizedTitle.getD [] =
      if (title.dropWhile isBreak).head? = some '#' then []
      else normalizeTitle (freeformTitle title) := by
  have hbounded : boundedCaption message.caption = freeformCaption title year q := by
    rw [hcaption]
    exact List.take_of_length_le hwhole
  have hne : freeformCaption title year q ≠ [] := by simp [freeformCaption]
  have hlines :=
    splitlines_of_forall (isLineBreak_freeformCaption (q := q) hform.year hform.line) hne
  have hfields : extractFields (freeformCaption title year q) = [] := by
    rw [extractFields, hlines, List.foldl_cons, List.foldl_nil, addField, hform.field]
  have htitle : extractFreeformQualityTitle (freeformCaption title year q) =
      if (title.dropWhile isBreak).head? = some '#' then none else some (freeformTitle title) := by
    rw [extractFreeformQualityTitle, hlines, List.findSome?_cons,
      laws.freeformLineTitle_caption hform, laws.head?_freeformTitle]
    by_cases hhash : (title.dropWhile isBreak).head? = some '#' <;> simp [hhash]
  have hquality : ∃ r, extractQuality (freeformCaption title year q) = some r :=
    Option.ne_none_iff_exists'.1 laws.extractQuality_freeformCaption
  obtain ⟨r, hquality⟩ := hquality
  -- an empty normalized title is stored as none
  have hfilter : ∀ t : Str, ((some t).filter fun t => !t.isEmpty).getD [] = t := by
    intro t
    cases t <;> rfl
  have hmedia : (decide (message.mediaKind ≠ .video) && decide (message.mediaKind ≠ .document)) =
      false := by
    rcases hkind with hkind | hkind <;> rw [hkind] <;> rfl
  unfold detectQuality
  dsimp only
  rw [hbounded, hquality, hfields, htitle, hmedia, List.isEmpty_eq_false_iff.2 hne]
  refine ⟨_, rfl, ?_⟩
  split
  · rfl
  · exact hfilter _

/-- What the caption path makes of the title, when the parser cuts the caption. -/
theorem detectQuality_cut {message : ArchiveMessage} (hform : Freeform title year q)
    (hcaption : message.caption = some (freeformCaption title year q))
    (hcut : maxParsedCaptionChars < (freeformCaption title year q).length) :
    detectQuality message = none := by
  have hnone := (extractQuality_eq_none_iff _).2 (laws.finditer_cut hform hcut)
  unfold detectQuality
  dsimp only
  rw [hcaption, boundedCaption, hnone]
  split <;> rfl

/-- A text without words has no year to take off. -/
theorem stripsYear_of_not_any {text : Str} (h : text.any isWord = false) :
    stripsYear text = false := by
  have hnone : text.filter isWord = [] := by
    refine List.filter_eq_nil_iff.2 fun c hc hword => ?_
    rw [List.any_eq_false] at h
    exact h c hc hword
  rw [laws.stripsYear_eq, hnone]
  simp

/-- The titles of the two paths, compared. -/
theorem paths_agree_iff (hyear : IsReleaseYear year) :
    (if (title.dropWhile isBreak).head? = some '#' then []
      else normalizeTitle (freeformTitle title)) =
        (if (titleText title).any isWord
          then joined ((wordRuns (titleText title)).filter fun w => w ∉ noiseWords)
          else yearText year) ↔
      (titleText title).any isWord = true ∧ stripsYear (titleText title) = false ∧
        ((title.dropWhile isBreak).head? = some '#' →
          ∀ w ∈ wordRuns (titleText title), w ∈ noiseWords) := by
  cases hany : (titleText title).any isWord with
  | false =>
      -- without a word, only the poster path keeps the year
      have hwords : wordRuns (titleText title) = [] := by
        by_contra hne
        rw [(any_isWord_iff _).2 hne] at hany
        cases hany
      have hfreeform : normalizeTitle (freeformTitle title) = [] := by
        rw [laws.normalizeTitle_freeformTitle (laws.stripsYear_of_not_any hany), hwords]
        rfl
      have hne : ([] : Str) ≠ yearText year := by
        intro hnil
        have hlength := (yearText_spec hyear).1
        rw [← hnil] at hlength
        cases hlength
      simp [hfreeform, hne]
  | true =>
      have hruns : ∀ w ∈ (wordRuns (titleText title)).filter fun w => w ∉ noiseWords, w ≠ [] :=
        fun w hw => ne_nil_of_mem_runs (List.mem_filter.1 hw).1
      cases hstrips : stripsYear (titleText title) with
      | true =>
          -- the caption path lost the digits of a year
          have hdigits := laws.length_digits_freeformTitle hstrips
          have hne : ∀ t : Str, t = [] ∨ t = normalizeTitle (freeformTitle title) →
              t ≠ joined ((wordRuns (titleText title)).filter fun w => w ∉ noiseWords) := by
            intro t ht heq
            rw [← heq] at hdigits
            rcases ht with rfl | rfl
            · simp at hdigits
            · omega
          have hbranch := hne (if (title.dropWhile isBreak).head? = some '#' then []
            else normalizeTitle (freeformTitle title)) (by split <;> simp)
          constructor
          · intro heq
            rw [if_pos rfl] at heq
            exact absurd heq hbranch
          · rintro ⟨-, hfalse, -⟩
            cases hfalse
      | false =>
          rw [laws.normalizeTitle_freeformTitle hstrips]
          by_cases hhash : (title.dropWhile isBreak).head? = some '#'
          · rw [if_pos hhash, if_pos rfl, eq_comm, joined_eq_nil_iff hruns, List.filter_eq_nil_iff]
            simp [hhash]
          · simp [hhash]

end UnicodeLaws

section

variable [UnicodeData] {title : Str} {year : ℕ} {q : Resolution}

/-- **The paths agree exactly when the title keeps what is its own.** -/
theorem titlesAgree_iff_keepsTitle (laws : UnicodeLaws) {message : ArchiveMessage}
    (hform : Freeform title year q)
    (hkind : message.mediaKind = .video ∨ message.mediaKind = .document)
    (hcaption : message.caption = some (freeformCaption title year q)) :
    TitlesAgree message title year ↔ KeepsTitle title year q := by
  obtain hcut | hwhole := lt_or_ge maxParsedCaptionChars (freeformCaption title year q).length
  · have hnone := laws.detectQuality_cut hform hcaption hcut
    constructor
    · rintro ⟨quality, hquality, -⟩
      rw [hnone] at hquality
      cases hquality
    · intro hkeeps
      exact absurd hkeeps.whole (not_le.2 hcut)
  · obtain ⟨quality, hquality, htitle⟩ := laws.detectQuality_freeform hform hkind hcaption hwhole
    have hagree : TitlesAgree message title year ↔
        quality.normalizedTitle.getD [] = normalizeTitle (title ++ ' ' :: yearText year) := by
      constructor
      · rintro ⟨quality', hquality', heq⟩
        rw [hquality] at hquality'
        cases hquality'
        exact heq
      · intro heq
        exact ⟨quality, hquality, heq⟩
    rw [hagree, htitle, laws.normalizeTitle_append_year hform.year, laws.paths_agree_iff hform.year]
    constructor
    · rintro ⟨hword, hyear, hhash⟩
      exact ⟨hwhole, hword, hyear, hhash⟩
    · intro hkeeps
      exact ⟨hkeeps.word, hkeeps.year, hkeeps.hash⟩

end

/-! ### A year that belongs to the title -/

/-- A file with a freeform caption. -/
def freeformVideo (title : Str) (year : ℕ) (q : Resolution) : ArchiveMessage where
  messageId := 1
  mediaKind := .video
  caption := some (freeformCaption title year q)
  messageId_pos := Nat.one_pos

section

attribute [local instance] UnicodeData.asciiArabic

/-- The caption `Blade Runner 2049 2017 #1080p` is read as the film `blade runner`, its poster as
`blade runner 2049`. -/
theorem blade_runner_loses_its_year : Freeform "Blade Runner 2049".toList 2017 .p1080 ∧
    ¬ TitlesAgree (freeformVideo "Blade Runner 2049".toList 2017 .p1080)
      "Blade Runner 2049".toList 2017 := by
  refine ⟨⟨by decide +kernel, by decide +kernel, by decide +kernel, by decide +kernel,
    by decide +kernel, by decide +kernel, ⟨by decide, by decide⟩⟩, ?_⟩
  have hcaption : (detectQuality (freeformVideo "Blade Runner 2049".toList 2017 .p1080)).map
      (fun quality => quality.normalizedTitle.getD []) = some "blade runner".toList := by
    decide +kernel
  have hposter : normalizeTitle ("Blade Runner 2049".toList ++ ' ' :: yearText 2017) ≠
      "blade runner".toList := by
    decide +kernel
  rintro ⟨quality, hquality, heq⟩
  rw [hquality] at hcaption
  rw [← heq] at hposter
  exact hposter (Option.some.inj hcaption)

theorem titlesAgree_iff_keepsTitle_blade_runner :
    TitlesAgree (freeformVideo "Blade Runner".toList 1982 .p720) "Blade Runner".toList 1982 := by
  have hform : Freeform "Blade Runner".toList 1982 .p720 :=
    ⟨by decide +kernel, by decide +kernel, by decide +kernel, by decide +kernel, by decide +kernel,
      by decide +kernel, ⟨by decide, by decide⟩⟩
  refine (titlesAgree_iff_keepsTitle UnicodeData.asciiArabic_laws hform (.inl rfl) rfl).2 ?_
  have hhash : ("Blade Runner".toList.dropWhile isBreak).head? ≠ some '#' := by decide +kernel
  exact ⟨by decide +kernel, by decide +kernel, by decide +kernel, fun h => absurd h hhash⟩

end

end CineGate

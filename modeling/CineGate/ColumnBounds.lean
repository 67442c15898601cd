/-
**What the parser reads fits its columns.**

A year token has four digits and a score lies between 0 and 100, so years, confidences and the
confidences of posters fit their columns whatever a caption says.  Only titles can be too long.

* `extractYear_lt`, `extractReleaseYear_lt` — years have four digits;
* `detectPoster_bounds` — the confidence and the year of a poster;
* `TitlesFit`, `Accepts.fits` — the row of an accepted candidate with short titles fits.
-/

import CineGate.GroupGrowth
import CineGate.ArchiveIndexer
import Mathlib.Algebra.Group.Nat.Defs

set_option relaxedAutoImplicit false
set_option autoImplicit false

namespace CineGate

/-! ### Years -/

/-- The tokens of a matcher that only finds tokens of one length. -/
theorem mem_finditerFrom {m : Matcher} {k : ℕ}
    (hm : ∀ before text n, m before text = some n → n = k)
    {text : Str} {skip i : ℕ} {before : Option Char} {span : ℕ × ℕ}
    (h : span ∈ finditerFrom m skip before i text) : span.2 = span.1 + k := by
  induction text generalizing skip i before with
  | nil =>
      rw [finditerFrom] at h
      cases h
  | cons c cs ih =>
      cases skip with
      | succ skip =>
          rw [finditerFrom] at h
          exact ih h
      | zero =>
          rw [finditerFrom] at h
          split at h
          · next n hn =>
              rcases List.mem_cons.1 h with rfl | h
              · have hlength := hm _ _ _ hn
                omega
              · exact ih h
          · exact ih h

section

variable [UnicodeData]

/-- Every decimal digit has a value below ten. -/
def DecimalDigits : Prop := ∀ (c : Char) (v : ℕ), decimal c = some v → v < 10

omit [UnicodeData] in
theorem UnicodeData.decimalDigits_asciiArabic : @DecimalDigits asciiArabic := by
  intro c v h
  by_cases hc : c.isDigit
  · simp only [UnicodeData.decimal, hc, if_true, Option.some.injEq] at h
    simp only [Char.isDigit, Bool.and_eq_true, decide_eq_true_eq] at hc
    have hle : c.toNat ≤ 57 := hc.2
    omega
  · simp [UnicodeData.decimal, hc] at h

theorem yearRe_length {before : Option Char} {text : Str} {n : ℕ}
    (h : yearRe before text = some n) :
    n = 4 := by
  unfold yearRe at h
  split at h
  · split at h
    · cases h
    · split at h
      · exact (Option.some.inj h).symm
      · cases h
  · cases h

theorem intOfDecimals_lt (hdigits : DecimalDigits) (text : Str) :
    intOfDecimals text < 10 ^ text.length := by
  have hfold : ∀ (text : Str) (n : ℕ),
      text.foldl (fun n c => 10 * n + (decimal c).getD 0) n < (n + 1) * 10 ^ text.length := by
    intro text
    induction text with
    | nil => simp
    | cons c cs ih =>
        intro n
        have hdigit : (decimal c).getD 0 < 10 := by
          cases hc : decimal c with
          | none => simp
          | some v => exact hdigits c v hc
        rw [List.foldl_cons, List.length_cons, Nat.pow_succ]
        refine (ih _).trans_le ?_
        calc (10 * n + (decimal c).getD 0 + 1) * 10 ^ cs.length
            ≤ (10 * (n + 1)) * 10 ^ cs.length := Nat.mul_le_mul_right _ (by omega)
          _ = (n + 1) * (10 ^ cs.length * 10) := by
              rw [Nat.mul_comm 10, Nat.mul_assoc, Nat.mul_comm 10]
  simpa [intOfDecimals] using hfold text 0

/-- A year token has four symbols. -/
theorem intOfDecimals_slice_lt (hdigits : DecimalDigits) {text : Str} {span : ℕ × ℕ}
    (h : span ∈ finditer yearRe text) : intOfDecimals (slice text span) < 10000 := by
  have hspan : span.2 = span.1 + 4 := mem_finditerFrom (fun _ _ _ => yearRe_length) h
  have hlength : (slice text span).length ≤ 4 := by
    rw [slice, List.length_drop, List.length_take]
    omega
  calc intOfDecimals (slice text span)
      < 10 ^ (slice text span).length := intOfDecimals_lt hdigits _
    _ ≤ 10 ^ 4 := Nat.pow_le_pow_right (by omega) hlength
    _ = 10000 := rfl

theorem extractYear_lt (hdigits : DecimalDigits) {text : Str} {year : ℕ}
    (h : extractYear text = some year) : year < 10000 := by
  obtain ⟨span, hspan, rfl⟩ := Option.map_eq_some_iff.1 h
  exact intOfDecimals_slice_lt hdigits (List.mem_of_mem_head? hspan)

theorem extractReleaseYear_lt (hdigits : DecimalDigits) {text : Str} {year : ℕ}
    (h : extractReleaseYear text = some year) : year < 10000 := by
  obtain ⟨span, hspan, hyear⟩ := Option.bind_eq_some_iff.1 h
  dsimp only at hyear
  split at hyear
  · cases hyear
    exact intOfDecimals_slice_lt hdigits (List.mem_of_getLast? hspan)
  · cases hyear

/-! ### Posters -/

omit [UnicodeData] in
theorem posterStyle_bounds {caption titleLabel : Str} {labels : List Str} {style : ParserStyle}
    {confidence : ℕ} (h : posterStyle caption titleLabel labels = some (style, confidence)) :
    0 < confidence ∧ confidence ≤ 100 := by
  unfold posterStyle at h
  dsimp only at h
  split at h
  · split at h
    · cases h
    · cases h
      split <;> omega
  · split at h
    · cases h
    · cases h
      omega

/-- The confidence of a poster is positive and fits its column, and its year is a year token. -/
theorem detectPoster_bounds {m : ArchiveMessage} {poster : PosterCandidate}
    (h : detectPoster m = some poster) :
    0 < poster.confidence ∧ poster.confidence ≤ 100 ∧
      ∀ year, poster.year = some year → ∃ text, extractYear text = some year := by
  unfold detectPoster at h
  dsimp only at h
  split at h
  · cases h
  · split at h
    · cases h
    · split at h
      · cases h
      · next rawTitle _ _ style confidence hstyle =>
          split at h
          · cases h
          · cases h
            obtain ⟨hpos, hle⟩ := posterStyle_bounds hstyle
            refine ⟨hpos, hle, fun year hyear => ?_⟩
            rcases Option.or_eq_some_iff.1 hyear with hfields | ⟨-, htitle⟩
            · obtain ⟨value, -, hvalue⟩ := Option.bind_eq_some_iff.1 hfields
              exact ⟨value, hvalue⟩
            · exact ⟨rawTitle, htitle⟩

/-! ### Candidates -/

theorem detectQuality_year_lt (hdigits : DecimalDigits) {m : ArchiveMessage}
    {quality : QualityCandidate} (h : detectQuality m = some quality) {year : ℕ}
    (hyear : quality.year = some year) : year < 10000 := by
  unfold detectQuality at h
  dsimp only at h
  split at h
  · cases h
  · obtain ⟨resolution, -, rfl⟩ := Option.map_eq_some_iff.1 h
    dsimp only at hyear
    split at hyear
    · exact extractReleaseYear_lt hdigits hyear
    · exact extractReleaseYear_lt hdigits hyear

omit [UnicodeData] in
theorem scoreQuality_le (poster : PosterCandidate) (quality : QualityCandidate) (distance : ℕ) :
    scoreQuality poster quality distance ≤ 100 := by
  obtain ⟨bonus, -, -, hscore⟩ := scoreQuality_eq poster quality distance
  omega

/-- The titles of a message, as a poster and as a candidate, fit their columns. -/
structure TitlesFit (m : ArchiveMessage) : Prop where
  poster : ∀ poster, detectPoster m = some poster →
    poster.displayTitle.length ≤ 512 ∧ poster.normalizedTitle.length ≤ 512
  quality : ∀ quality, detectQuality m = some quality →
    (quality.rawTitle.all (·.length ≤ 512)) ∧ (quality.normalizedTitle.all (·.length ≤ 512))

/-- An accepted candidate has a positive confidence. -/
theorem Accepts.confidence_pos {poster : PosterCandidate} {m : ArchiveMessage}
    {item : ParsedQuality} (h : Accepts poster m item) : 0 < item.confidence := by
  obtain ⟨quality, distance, -, hscore, rfl⟩ := h
  rw [acceptThreshold] at hscore
  dsimp only
  omega

/-- The row of an accepted candidate fits. -/
theorem Accepts.fits (hdigits : DecimalDigits) {poster : PosterCandidate} {m : ArchiveMessage}
    {item : ParsedQuality} (h : Accepts poster m item) (hid : m.messageId ≤ bigintMax)
    (hm : TitlesFit m) {id movieId : ℕ} {channelId : ℤ} :
    (ArchiveTables.newQuality id movieId channelId item).fits := by
  obtain ⟨quality, distance, hquality, -, rfl⟩ := h
  obtain ⟨hraw, hnormalized⟩ := hm.quality quality hquality
  have hyear : quality.year.all (· ≤ smallintMax) := by
    cases hyear : quality.year with
    | none => rfl
    | some year =>
        have hlt := detectQuality_year_lt hdigits hquality hyear
        exact decide_eq_true (by rw [smallintMax]; omega)
  have hconfidence := scoreQuality_le poster quality distance
  simp [MovieQuality.fits, ArchiveTables.newQuality, hid, hraw, hnormalized, hyear, hconfidence]

/-- The row of a poster fits. -/
theorem TitlesFit.newMovie_fits (hdigits : DecimalDigits) {m : ArchiveMessage} (hm : TitlesFit m)
    (hid : m.messageId ≤ bigintMax) {poster : PosterCandidate}
    (hposter : detectPoster m = some poster) {parser : ArchiveParser} {id : ℕ} {channelId : ℤ} :
    (ArchiveTables.newMovie id channelId (parser.groupOf none (poster, []))).fits := by
  obtain ⟨hdisplay, hnormalized⟩ := hm.poster poster hposter
  obtain ⟨-, hconfidence, hyear⟩ := detectPoster_bounds hposter
  have hmessage : poster.message.messageId ≤ bigintMax := by
    rw [message_of_detectPoster hposter]
    exact hid
  have hyear : poster.year.all (· ≤ smallintMax) := by
    cases hyear' : poster.year with
    | none => rfl
    | some year =>
        obtain ⟨text, htext⟩ := hyear year hyear'
        have hlt := extractYear_lt hdigits htext
        exact decide_eq_true (by rw [smallintMax]; omega)
  simp [Movie.fits, ArchiveTables.newMovie, ArchiveParser.groupOf, finalizeGroup, hmessage,
    hdisplay, hnormalized, hconfidence, hyear]

end

end CineGate

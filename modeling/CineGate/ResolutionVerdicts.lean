/-
**What the advertised resolution decides.**

A candidate is accepted unless its year contradicts the poster, and its year is read from a text
that still holds its resolution: the labelled title of the caption, or the whole caption.  Another
resolution in its place leaves the year as it is exactly when a year follows it or the text already
reads 2160; otherwise `2160p` is read as the year 2160.

* `yearParts` — the text the year is read from, before and after the resolution;
* `detectQuality_token` — the year and the title of a candidate;
* `KeepsYear`, `SetApart` — when another resolution changes neither the year nor the title;
* `resolution_keeps_year_iff` — what another resolution leaves as it is.
-/

import CineGate.CaptionLines
import CineGate.GroupingLoop
import CineGate.ResolutionYears

set_option relaxedAutoImplicit false
set_option autoImplicit false

namespace CineGate

open Runs

/-- A caption that advertises a resolution. -/
def advertising (message : ArchiveMessage) (x y : Str) (token : Token) : ArchiveMessage :=
  { message with caption := some (x ++ token.text ++ y) }

inductive Verdict
  | accepted
  | ambiguous
  | rejected
deriving DecidableEq, Repr

/-- What the loop makes of a candidate. -/
def verdict (poster : PosterCandidate) (quality : QualityCandidate) (distance : ℕ) : Verdict :=
  if acceptThreshold ≤ scoreQuality poster quality distance then .accepted
  else if ambiguousThreshold ≤ scoreQuality poster quality distance then .ambiguous
  else .rejected

section

variable [UnicodeData]

/-- The label of a line that holds a colon. -/
def lineLabel (a : Str) : Option Str :=
  match a.dropWhile fun c => !isColon c with
  | [] => none
  | _ :: _ => fieldLabel (a.takeWhile fun c => !isColon c)

/-- What follows a title label in its line. -/
def titlePart (a : Str) : Option Str :=
  (lineLabel a).bind fun label =>
    if normalizeLabel label ∈ titleLabels then some (a.dropWhile fun c => !isColon c).tail else none

/-- The text the year is read from, before and after the resolution: the value of the title line
that holds it, or the whole caption; none when the caption names its title in another line. -/
def yearParts (x y : Str) : Option (Str × Str) :=
  if ((linesBefore x).findSome? lineTitle).isSome then none
  else match titlePart (lineBefore x) with
    | some value => some (value.dropWhile isSpace, (lineAfter y).rdropWhile isSpace)
    | none => if ((linesAfter y).findSome? lineTitle).isSome then none else some (x, y)

/-- The year of a candidate that names its title in another line. -/
def otherYear (x y : Str) : Option ℕ :=
  (((linesBefore x).findSome? lineTitle).or ((linesAfter y).findSome? lineTitle)).bind
    extractReleaseYear

/-- The year of a candidate, from the text that holds its resolution. -/
def tokenYear (x y : Str) (token : Token) : Option ℕ :=
  (yearParts x y).elim (otherYear x y) fun parts =>
    extractReleaseYear (parts.1 ++ token.text ++ parts.2)

/-- The title of a candidate, normalized. -/
def tokenTitle (x y : Str) (token : Token) : Option Str :=
  (((labelledTitle (x ++ token.text ++ y)).or
    (extractFreeformQualityTitle (x ++ token.text ++ y))).map
    normalizeTitle).filter fun title => !title.isEmpty

/-- Two captions give candidates with one year. -/
def SameYear (m m' : ArchiveMessage) : Prop :=
  ∃ q q', detectQuality m = some q ∧ detectQuality m' = some q' ∧ q.year = q'.year

/-- Two captions give candidates that are both accepted or both not. -/
def SameAcceptance (poster : PosterCandidate) (distance : ℕ) (m m' : ArchiveMessage) : Prop :=
  ∃ q q', detectQuality m = some q ∧ detectQuality m' = some q' ∧
    (verdict poster q distance = .accepted ↔ verdict poster q' distance = .accepted)

/-- Two captions give candidates with one verdict. -/
def SameVerdict (poster : PosterCandidate) (distance : ℕ) (m m' : ArchiveMessage) : Prop :=
  ∃ q q', detectQuality m = some q ∧ detectQuality m' = some q' ∧
    verdict poster q distance = verdict poster q' distance

/-- Where the year is read, a year follows the resolution or the text already reads 2160. -/
def KeepsYear (x y : Str) : Prop :=
  ∀ u w, yearParts x y = some (u, w) → finditer yearRe w ≠ [] ∨ ReadsAlready u w

/-- The resolution is no part of the title that is compared: the caption names its title in another
line, or in this line with separators around the resolution; or the title is freeform, no `#` stands
before the resolution and no colon makes it part of a label. -/
def SetApart (x y : Str) : Prop :=
  yearParts x y = none ∨
    (titlePart (lineBefore x) ≠ none ∧ (∀ c, x.getLast? = some c → isSeparator c) ∧
      ∀ c, y.head? = some c → isSeparator c) ∨
    (titlePart (lineBefore x) = none ∧ x.getLast? ≠ some '#' ∧
      ((∀ c ∈ lineBefore x, isColon c = false) → ∀ c ∈ lineAfter y, isColon c = false))

end

/-! ### The line of a resolution -/

section

variable {p : Char → Bool}

theorem dropWhile_append_of_head {t : Str} (a : Str) (hne : t ≠ [])
    (ht : ∀ c, t.head? = some c → p c = false) : (a ++ t).dropWhile p = a.dropWhile p ++ t := by
  obtain ⟨c, t, rfl⟩ := List.exists_cons_of_ne_nil hne
  rw [List.dropWhile_append, List.dropWhile_cons_of_neg (by simp [ht c rfl])]
  split
  · next hempty => rw [List.isEmpty_iff.1 hempty, List.nil_append]
  · rfl

theorem rdropWhile_append_of_last {t : Str} (b : Str) (hne : t ≠ [])
    (ht : ∀ c, t.getLast? = some c → p c = false) :
    (t ++ b).rdropWhile p = t ++ b.rdropWhile p := by
  rw [List.rdropWhile, List.reverse_append,
    dropWhile_append_of_head b.reverse (by simpa using hne) (by simpa using ht),
      List.reverse_append,
    List.reverse_reverse]
  rfl

/-- What is stripped from a text around a part that is kept. -/
theorem stripBy_around {t : Str} (a b : Str) (hne : t ≠ [])
    (hhead : ∀ c, t.head? = some c → p c = false)
    (hlast : ∀ c, t.getLast? = some c → p c = false) :
    stripBy p (a ++ t ++ b) = a.dropWhile p ++ t ++ b.rdropWhile p := by
  have hhead' : ∀ c, (t ++ b).head? = some c → p c = false := by
    intro c hc
    rw [List.head?_append_of_ne_nil _ hne] at hc
    exact hhead c hc
  have hlast' : ∀ c, (a.dropWhile p ++ t).getLast? = some c → p c = false := by
    intro c hc
    rw [List.getLast?_append_of_ne_nil _ hne] at hc
    exact hlast c hc
  unfold stripBy
  rw [List.append_assoc, dropWhile_append_of_head a (by simp [hne]) hhead', ← List.append_assoc,
    rdropWhile_append_of_last b (by simp [hne]) hlast']

theorem mem_dropWhile {text : Str} {c : Char} (hc : c ∈ text) (hp : p c = false) :
    c ∈ text.dropWhile p := by
  rw [← List.takeWhile_append_dropWhile (p := p) (l := text)] at hc
  rcases List.mem_append.1 hc with hc | hc
  · rw [List.mem_takeWhile_imp hc] at hp
    cases hp
  · exact hc

theorem mem_stripBy {text : Str} {c : Char} (hc : c ∈ text) (hp : p c = false) :
    c ∈ stripBy p text := by
  unfold stripBy
  rw [List.rdropWhile, List.mem_reverse]
  exact mem_dropWhile (List.mem_reverse.2 (mem_dropWhile hc hp)) hp

end

theorem getLast?_of_suffix {u x : Str} {c : Char} (h : u <:+ x) (hc : u.getLast? = some c) :
    x.getLast? = some c := by
  obtain ⟨v, rfl⟩ := h
  rw [List.getLast?_append, hc]
  rfl

theorem head?_mono {w y : Str} {c : Char} (h : w <+: y) (hc : w.head? = some c) :
    y.head? = some c := by
  obtain ⟨v, rfl⟩ := h
  rw [List.head?_append, hc]
  rfl

theorem EndsApart.of_suffix {u x : Str} (hx : EndsApart x) (h : u <:+ x) : EndsApart u :=
  fun c hc => hx c (getLast?_of_suffix h hc)

theorem StartsApart.of_prefix {w y : Str} (hy : StartsApart y) (h : w <+: y) : StartsApart w :=
  fun c hc => hy c (head?_mono h hc)

namespace Token

/-- The symbols of a token. -/
theorem mem_text {token : Token} {c : Char} (hc : c ∈ token.text) :
    c = '#' ∨ isAsciiAlnumIgnoreCase c = true := by
  have hdigits : ∀ c ∈ token.quality.digits, isAsciiAlnumIgnoreCase c = true := by
    cases token.quality <;> decide
  rcases List.mem_append.1 hc with hc | hc
  · unfold mark at hc
    split at hc
    · exact .inl (List.mem_singleton.1 hc)
    · cases hc
  · rcases List.mem_append.1 hc with hc | hc
    · exact .inr (hdigits c hc)
    · rw [List.mem_singleton.1 hc]
      exact .inr token.isAsciiAlnumIgnoreCase_letter

theorem exists_digit (token : Token) : ∃ d ∈ token.text, d.isDigit := by
  have hdigits : ∃ d ∈ token.quality.digits, d.isDigit := by cases token.quality <;> decide
  obtain ⟨d, hd, hdigit⟩ := hdigits
  exact ⟨d, by simp [text, hd], hdigit⟩

theorem isColon_of_mem_text {token : Token} {c : Char} (hc : c ∈ token.text) :
    isColon c = false := by
  rw [Bool.eq_false_iff]
  intro hcolon
  simp only [isColon, Bool.or_eq_true, decide_eq_true_eq] at hcolon
  rcases mem_text hc with rfl | halnum
  · exact absurd hcolon (by decide)
  · rcases hcolon with rfl | rfl
    · exact absurd halnum (by decide)
    · exact absurd halnum (by decide)

theorem isLineBreak_of_mem_text {token : Token} {c : Char} (hc : c ∈ token.text) :
    isLineBreak c = false := by
  rw [Bool.eq_false_iff]
  intro hbreak
  have hbreaks : ∀ c ∈ ['\n', '\r', '\x0b', '\x0c', '\x1c', '\x1d', '\x1e', '\u0085', '\u2028',
      '\u2029'],
        c ≠ '#' ∧ isAsciiAlnumIgnoreCase c = false := by decide
  obtain ⟨hne, halnum⟩ := hbreaks c (by simpa [isLineBreak] using hbreak)
  rcases mem_text hc with rfl | halnum'
  · exact hne rfl
  · rw [halnum] at halnum'
    cases halnum'

end Token

namespace ResolutionLaws

variable [UnicodeData] (laws : ResolutionLaws) {a b x y : Str} {token : Token}
include laws

theorem isSpace_of_mem_text {c : Char} (hc : c ∈ token.text) : isSpace c = false := by
  rw [Bool.eq_false_iff]
  intro hspace
  rcases Token.mem_text hc with rfl | halnum
  · exact laws.not_mem_of_isSpace '#' hspace (by decide)
  · rw [laws.isAsciiAlnumIgnoreCase_of_isSpace c hspace] at halnum
    cases halnum

theorem strip_token (a b : Str) (token : Token) :
    strip (a ++ token.text ++ b) = a.dropWhile isSpace ++ token.text ++ b.rdropWhile isSpace :=
  stripBy_around a b token.text_ne_nil (fun _ hc => laws.isSpace_of_mem_text (List.mem_of_head? hc))
    fun _ hc => laws.isSpace_of_mem_text (List.mem_of_getLast? hc)

/-- A label with a digit is no title label. -/
theorem normalizeLabel_not_mem {label : Str} {d : Char} (hd : d ∈ label) (hdigit : d.isDigit) :
    normalizeLabel label ∉ titleLabels := by
  have hmark : decide (d ∈ ['#', '-', '*', '•', '–', '—', ' ']) = false := by
    have hmarks : ∀ c ∈ ['#', '-', '*', '•', '–', '—', ' '], c.isDigit = false := by decide
    refine decide_eq_false fun hmem => ?_
    rw [hmarks d hmem] at hdigit
    cases hdigit
  have hmem : d ∈ normalizeLabel label := by
    refine laws.mem_casefold_of_isDigit _ d ?_ hdigit
    exact mem_dropWhile (p := fun c => decide (c ∈ ['#', '-', '*', '•', '–', '—', ' ']))
      (mem_stripBy hd (laws.isSpace_of_isDigit hdigit)) hmark
  intro htitle
  have hlabels : ∀ label ∈ titleLabels, ∀ c ∈ label, c.isDigit = false := by decide
  rw [hlabels _ htitle d hmem] at hdigit
  cases hdigit

/-- A label keeps the digits of its text. -/
theorem mem_fieldLabel {before label : Str} (h : fieldLabel before = some label) {d : Char}
    (hd : d ∈ before)
    (hdigit : d.isDigit) : d ∈ label := by
  have hspace := laws.isSpace_of_isDigit hdigit
  have hmem : d ∈ before.dropWhile isSpace := mem_dropWhile hd hspace
  unfold fieldLabel at h
  dsimp only at h
  rw [List.isEmpty_eq_false_iff.2 (List.ne_nil_of_mem hmem), if_neg Bool.false_ne_true] at h
  split at h
  · next hall =>
      obtain rfl := Option.some.inj h
      rw [← List.take_append_drop 32 (before.dropWhile isSpace)] at hmem
      rcases List.mem_append.1 hmem with hmem | hmem
      · exact hmem
      · rw [List.all_eq_true.1 hall d hmem] at hspace
        cases hspace
  · cases h

/-- The value of a field line around a resolution. -/
theorem fieldValue_token (a b : Str) (token : Token) :
    fieldValue (a ++ token.text ++ b) =
      some (a.dropWhile isSpace ++ token.text ++ b.rdropWhile isSpace) := by
  have hhead : ∀ c, (token.text ++ b).head? = some c → isSpace c = false := by
    intro c hc
    rw [List.head?_append_of_ne_nil _ token.text_ne_nil] at hc
    exact laws.isSpace_of_mem_text (List.mem_of_head? hc)
  have hlast : ∀ c, (a.dropWhile isSpace ++ token.text).getLast? = some c → isSpace c = false := by
    intro c hc
    rw [List.getLast?_append_of_ne_nil _ token.text_ne_nil] at hc
    exact laws.isSpace_of_mem_text (List.mem_of_getLast? hc)
  have htext : (a ++ token.text ++ b).dropWhile isSpace =
      (a.dropWhile isSpace ++ token.text) ++ b := by
    rw [List.append_assoc, dropWhile_append_of_head a (by simp [token.text_ne_nil]) hhead,
      List.append_assoc]
  have hne : ((a.dropWhile isSpace ++ token.text) ++ b).isEmpty = false := by
    simp [token.text_ne_nil]
  unfold fieldValue
  dsimp only
  rw [htext, hne, if_neg Bool.false_ne_true,
    rdropWhile_append_of_last b (by simp [token.text_ne_nil]) hlast]

/-- A line with a resolution, whose label ends before it. -/
theorem fieldMatch_token (hb : (∀ c ∈ a, isColon c = false) → ∀ c ∈ b, isColon c = false)
    (token : Token) :
    fieldMatch (a ++ token.text ++ b) = (lineLabel a).map fun label =>
      (label, ((a.dropWhile fun c => !isColon c).tail).dropWhile isSpace ++ token.text ++
        b.rdropWhile isSpace) := by
  have hsplit := List.takeWhile_append_dropWhile (p := fun c => !isColon c) (l := a)
  have hbefore : ∀ c ∈ a.takeWhile fun c => !isColon c, isColon c = false := by
    intro c hc
    simpa using List.mem_takeWhile_imp hc
  unfold lineLabel
  cases hrest : a.dropWhile fun c => !isColon c with
  | nil =>
      rw [hrest, List.append_nil] at hsplit
      rw [hsplit] at hbefore
      refine fieldMatch_of_forall fun c hc => ?_
      rcases List.mem_append.1 hc with hc | hc
      · rcases List.mem_append.1 hc with hc | hc
        · exact hbefore c hc
        · exact Token.isColon_of_mem_text hc
      · exact hb hbefore c hc
  | cons c after =>
      have hc : isColon c = true := by
        have hhead := List.head?_dropWhile_not (fun c => !isColon c) a
        rw [hrest] at hhead
        simpa using hhead
      have hline : a ++ token.text ++ b =
          (a.takeWhile fun c => !isColon c) ++ c :: (after ++ token.text ++ b) := by
        conv_lhs => rw [← hsplit, hrest]
        simp
      rw [hline, fieldMatch_append hbefore hc, laws.fieldValue_token]
      cases fieldLabel (a.takeWhile fun c => !isColon c) <;> rfl

/-- **The title of the line of a resolution**: the label stands before it. -/
theorem lineTitle_token (a b : Str) (token : Token) :
    lineTitle (a ++ token.text ++ b) = (titlePart a).map fun value =>
      value.dropWhile isSpace ++ token.text ++ b.rdropWhile isSpace := by
  by_cases hb : (∀ c ∈ a, isColon c = false) → ∀ c ∈ b, isColon c = false
  · have hstrip : ∀ v : Str, strip (v.dropWhile isSpace ++ token.text ++ b.rdropWhile isSpace) =
        v.dropWhile isSpace ++ token.text ++ b.rdropWhile isSpace := by
      intro v
      rw [laws.strip_token, List.dropWhile_idempotent, List.rdropWhile_idempotent]
    unfold lineTitle titlePart
    rw [laws.fieldMatch_token hb]
    cases lineLabel a with
    | none => rfl
    | some label =>
        rw [Option.map_some, Option.bind_some, Option.bind_some, hstrip]
        by_cases htitle : normalizeLabel label ∈ titleLabels
        · simp [htitle, token.text_ne_nil]
        · simp [htitle]
  · -- the label holds the digits of the resolution
    obtain ⟨ha, -⟩ := Classical.not_imp.1 hb
    have hpart : titlePart a = none := by
      have hnone : a.dropWhile (fun c => !isColon c) = [] :=
        List.dropWhile_eq_nil_iff.2 fun c hc => by simp [ha c hc]
      simp [titlePart, lineLabel, hnone]
    have hbefore' : ∀ c ∈ a ++ token.text, isColon c = false := by
      intro c hc
      rcases List.mem_append.1 hc with hc | hc
      · exact ha c hc
      · exact Token.isColon_of_mem_text hc
    rw [hpart, Option.map_none, lineTitle]
    by_cases hmatch : fieldMatch (a ++ token.text ++ b) = none
    · rw [hmatch, Option.bind_none]
    · obtain ⟨before, c, after, hline, hbefore, hc, hlabel, hvalue⟩ := exists_of_fieldMatch hmatch
      obtain ⟨label, hlabel⟩ := Option.isSome_iff_exists.1 hlabel
      obtain ⟨value, hvalue⟩ := Option.isSome_iff_exists.1 hvalue
      obtain ⟨d, hd, hdigit⟩ := token.exists_digit
      have hmem : d ∈ before := by
        rcases List.append_eq_append_iff.1 hline with ⟨t, hbefore', -⟩ | ⟨t, htext, hrest⟩
        · rw [hbefore']
          simp [hd]
        · cases t with
          | nil =>
              rw [List.append_nil] at htext
              rw [← htext]
              exact List.mem_append_right a hd
          | cons x t =>
              obtain rfl : c = x := (List.cons.inj hrest).1
              rw [hbefore' c (by rw [htext]; simp)] at hc
              cases hc
      have htitle := laws.normalizeLabel_not_mem (laws.mem_fieldLabel hlabel hmem hdigit) hdigit
      rw [hline, fieldMatch_append hbefore hc, hlabel, hvalue]
      simp [htitle]

/-! ### The candidate of a caption -/

omit laws [UnicodeData] in
/-- The symbols beside a resolution are no ASCII letters or digits. -/
theorem apart_of_finditer {token : Token}
    (hone : finditer qualityRe (x ++ token.text ++ y) = [(x.length, (x ++ token.text).length)]) :
    EndsApart x ∧ StartsApart y := by
  have hmem : (x.length, (x ++ token.text).length) ∈ finditer qualityRe (x ++ token.text ++ y) := by
    rw [hone]
    exact List.mem_singleton_self _
  obtain ⟨-, -, hmatch⟩ := mem_finditer_before hmem
  have hlength : (x ++ token.text).length - x.length = token.text.length := by
    rw [List.length_append, Nat.add_sub_cancel_left]
  rw [hlength, List.append_assoc, List.take_left, List.drop_left] at hmatch
  unfold qualityRe at hmatch
  split at hmatch
  · cases hmatch
  · next hbefore =>
      refine ⟨fun c hc => ?_, fun c hc => ?_⟩
      · rw [hc] at hbefore
        simpa using hbefore
      · obtain ⟨⟨q, n⟩, hat, rfl⟩ := Option.map_eq_some_iff.1 hmatch
        unfold qualityAt at hat
        dsimp only at hat
        generalize (if (token.text ++ y).head? = some '#' then 1 else 0) = hash at hat
        obtain ⟨r, -, hahead⟩ := Option.bind_eq_some_iff.1 hat
        split at hahead
        · cases hahead
        · next hahead' =>
            have hn := (Prod.mk.inj (Option.some.inj hahead)).2
            rw [hn, List.drop_left, hc] at hahead'
            simpa using hahead'

omit laws [UnicodeData] in
theorem finditer_token_ne_nil (hx : EndsApart x) (hy : StartsApart y) (token : Token) :
    finditer qualityRe (x ++ token.text ++ y) ≠ [] := by
  have hbefore : x.getLast?.any isAsciiAlnumIgnoreCase = false := by
    cases hlast : x.getLast? with
    | none => rfl
    | some c => exact hx c hlast
  have hmatch := qualityRe_token token hbefore hy
  obtain ⟨n, hn⟩ : ∃ n, token.text.length = n + 1 :=
    Nat.exists_eq_succ_of_ne_zero (by simpa using token.text_ne_nil)
  rw [hn] at hmatch
  rw [List.append_assoc]
  exact finditer_ne_nil (by simp [token.text_ne_nil]) hmatch

/-- The title a caption names, around a resolution. -/
theorem labelledTitle_token (x y : Str) (token : Token) : labelledTitle (x ++ token.text ++ y) =
    ((linesBefore x).findSome? lineTitle).or (((titlePart (lineBefore x)).map fun value =>
      value.dropWhile isSpace ++ token.text ++ (lineAfter y).rdropWhile isSpace).or
        ((linesAfter y).findSome? lineTitle)) := by
  rw [labelledTitle_eq,
    splitlines_around x y (fun _ hc => Token.isLineBreak_of_mem_text hc) token.text_ne_nil,
    List.findSome?_append, List.findSome?_cons, laws.lineTitle_token]
  cases titlePart (lineBefore x) <;> rfl

theorem releaseYear_token (x y : Str) (token : Token) :
    (match labelledTitle (x ++ token.text ++ y) with
      | some title => extractReleaseYear title
      | none => extractReleaseYear (x ++ token.text ++ y)) = tokenYear x y token := by
  have htitle := laws.labelledTitle_token x y token
  unfold tokenYear yearParts otherYear
  cases hbefore : (linesBefore x).findSome? lineTitle with
  | some title =>
      rw [hbefore, Option.some_or] at htitle
      rw [htitle]
      rfl
  | none =>
      rw [hbefore, Option.none_or] at htitle
      cases hpart : titlePart (lineBefore x) with
      | some value =>
          rw [hpart, Option.map_some, Option.some_or] at htitle
          rw [htitle]
          rfl
      | none =>
          rw [hpart, Option.map_none, Option.none_or] at htitle
          rw [htitle]
          cases (linesAfter y).findSome? lineTitle <;> rfl

/-- **The candidate of a caption that advertises a resolution.** -/
theorem detectQuality_token {message : ArchiveMessage}
    (hkind : message.mediaKind = .video ∨ message.mediaKind = .document) (hx : EndsApart x)
    (hy : StartsApart y)
    (hwhole : x.length + y.length + 6 ≤ maxParsedCaptionChars) (token : Token) :
    ∃ quality, detectQuality (advertising message x y token) = some quality ∧
      quality.year = tokenYear x y token ∧ quality.normalizedTitle = tokenTitle x y token := by
  have hbounded : boundedCaption (advertising message x y token).caption =
      x ++ token.text ++ y := by
    have hlength := token.length_text_le
    refine List.take_of_length_le ?_
    simp only [List.length_append]
    omega
  have hne : (x ++ token.text ++ y).isEmpty = false := by simp [token.text_ne_nil]
  obtain ⟨r, hquality⟩ := Option.ne_none_iff_exists'.1
    (mt (extractQuality_eq_none_iff _).1 (finditer_token_ne_nil hx hy token))
  have hmedia : (decide (message.mediaKind ≠ .video) && decide (message.mediaKind ≠ .document)) =
      false := by
    rcases hkind with hkind | hkind <;> rw [hkind] <;> rfl
  have hkind' : (advertising message x y token).mediaKind = message.mediaKind := rfl
  unfold detectQuality
  dsimp only
  rw [hbounded, hkind', hmedia, hne, hquality]
  exact ⟨_, rfl, laws.releaseYear_token x y token, rfl⟩

/-! ### The title of a candidate -/

omit laws in
/-- A labelled title ends where its line does. -/
theorem suffix_of_titlePart {value : Str} (h : titlePart a = some value) : value <:+ a := by
  obtain ⟨label, -, hvalue⟩ := Option.bind_eq_some_iff.1 h
  split at hvalue
  · rw [← Option.some.inj hvalue]
    exact (List.tail_suffix _).trans (List.dropWhile_suffix _)
  · cases hvalue

omit laws in
/-- The year is read from the text on both sides of the resolution. -/
theorem yearParts_around {u w : Str} (h : yearParts x y = some (u, w)) : u <:+ x ∧ w <+: y := by
  unfold yearParts at h
  split at h
  · cases h
  · split at h
    · next value hvalue =>
        obtain ⟨rfl, rfl⟩ := Prod.mk.inj (Option.some.inj h)
        have hline : lineBefore x <:+ x := List.rtakeWhile_suffix _ _
        have hvalue' := (suffix_of_titlePart hvalue).trans hline
        exact ⟨(List.dropWhile_suffix _).trans hvalue',
          (List.rdropWhile_prefix _ _).trans (List.takeWhile_prefix _)⟩
    · split at h
      · cases h
      · obtain ⟨rfl, rfl⟩ := Prod.mk.inj (Option.some.inj h)
        exact ⟨List.suffix_refl _, List.prefix_refl _⟩

omit laws in
theorem isAsciiAlnumIgnoreCase_of_isSeparator {c : Char} (laws : UnicodeLaws) (hc : isSeparator c) :
    isAsciiAlnumIgnoreCase c = false ∧ c ∉ ['#', '@', '&', '_'] := by
  rcases Bool.or_eq_true_iff.1 hc with hbreak | hmark
  · exact ⟨laws.isAsciiAlnumIgnoreCase_of_isBreak hbreak, laws.not_mem_of_isBreak hbreak⟩
  · have hmarks : ∀ c ∈ ['(', ')', '[', ']', '{', '}', '|', ',', '.', ';', '/', '•'],
        isAsciiAlnumIgnoreCase c = false ∧ c ∉ ['#', '@', '&', '_'] := by decide
    exact hmarks c (of_decide_eq_true hmark)

theorem titleText_token (token : Token) : titleText token.text = [' '] := by
  obtain ⟨token', hfolded⟩ := laws.folded_token token
  have hsymbols : ∀ c ∈ token'.text, c ∉ ['@', '&', '_'] := by
    have halnum : ∀ c ∈ ['@', '&', '_'], c ≠ '#' ∧ isAsciiAlnumIgnoreCase c = false := by decide
    intro c hc hmem
    obtain ⟨hne, hnot⟩ := halnum c hmem
    rcases Token.mem_text hc with hhash | hc
    · exact hne hhash
    · rw [hnot] at hc
      cases hc
  have hbot : finditer botUsernameRe token'.text = [] :=
    finditer_botUsernameRe_of_not_mem fun hat => hsymbols '@' hat (by decide)
  have hampersand : replaceAmpersands token'.text = token'.text := by
    unfold replaceAmpersands
    conv_rhs => rw [← List.flatMap_singleton' token'.text]
    refine List.flatMap_congr fun c hc => ?_
    have hnot := hsymbols c hc
    rw [if_neg (by rintro rfl; exact hnot (by decide)),
      if_neg (by rintro rfl; exact hnot (by decide))]
  have htoken : subFrom qualityRe 0 none (token'.text ++ []) =
      ' ' :: subFrom qualityRe 0 (some token'.letter) [] :=
    subFrom_token token' rfl fun c hc => (by cases hc)
  rw [List.append_nil] at htoken
  rw [titleText, hfolded, sub_eq_self hbot, hampersand]
  exact htoken

/-- **A resolution between separators is a blank** to the title. -/
theorem normalizeTitle_token {u w : Str} (hu : ∀ c, u.getLast? = some c → isSeparator c)
    (hw : ∀ c, w.head? = some c → isSeparator c) (token token' : Token) :
    normalizeTitle (u ++ token.text ++ w) = normalizeTitle (u ++ token'.text ++ w) := by
  have hkeeps : KeepsSeparators isSeparator titleText :=
    titleText_keepsSeparators laws.nfkc_separators laws.casefold_separators fun _ hc =>
      isAsciiAlnumIgnoreCase_of_isSeparator laws.toUnicodeLaws hc
  have htext : ∀ token : Token,
      titleText (u ++ token.text ++ w) = titleText u ++ [' '] ++ titleText w := by
    intro token
    rw [hkeeps.append_right _ hw, hkeeps.append_left hu, laws.titleText_token]
  rw [laws.normalizeTitle_eq, laws.normalizeTitle_eq, htext, htext]

omit laws [UnicodeData] in
/-- A text is cleaned around a resolution that no `#` precedes. -/
theorem sub_token {u w : Str} (hu : EndsApart u) (hhash : u.getLast? ≠ some '#')
    (hw : StartsApart w) (token : Token) :
    sub qualityRe (u ++ token.text ++ w) =
      sub qualityRe u ++ ' ' :: subFrom qualityRe 0 (some token.letter) w := by
  have htoken : sub qualityRe (token.text ++ w) = _ := subFrom_token token (by rfl) hw
  rw [List.append_assoc]
  induction u using List.reverseRecOn with
  | nil => exact htoken
  | append_singleton u c _ =>
      have hstops := qualityRe_stopsAt (hu c (by simp)) (by rintro rfl; simp at hhash)
      rw [List.append_assoc, List.singleton_append, sub_append hstops qualityRe_fits,
        sub_append hstops qualityRe_fits, htoken, List.append_assoc]
      rfl

omit laws [UnicodeData] in
theorem subFrom_after {letter letter' : Char} (h : isAsciiAlnumIgnoreCase letter = true)
    (h' : isAsciiAlnumIgnoreCase letter' = true) (w : Str) :
    subFrom qualityRe 0 (some letter) w = subFrom qualityRe 0 (some letter') w := by
  cases w with
  | nil => rfl
  | cons c w =>
      have hnone : ∀ letter, isAsciiAlnumIgnoreCase letter = true →
          qualityRe (some letter) (c :: w) = none := by
        intro letter hletter
        rw [qualityRe, Option.any_some, hletter]
        rfl
      rw [subFrom, subFrom, hnone letter h, hnone letter' h']

/-- **A freeform title does not see its resolution.** -/
theorem freeformLineTitle_token (ha : EndsApart a) (hhash : a.getLast? ≠ some '#')
    (hb : StartsApart b)
    (hcolon : (∀ c ∈ a, isColon c = false) → ∀ c ∈ b, isColon c = false) (token token' : Token) :
    freeformLineTitle (a ++ token.text ++ b) = freeformLineTitle (a ++ token'.text ++ b) := by
  have hspace : ∀ c, isColon c → isSpace c = false := by
    intro c hc
    rw [Bool.eq_false_iff]
    intro hspace
    refine laws.not_mem_of_isSpace c hspace ?_
    simp only [isColon, Bool.or_eq_true, decide_eq_true_eq] at hc
    rcases hc with rfl | rfl <;> decide
  have hcolon' : (∀ c ∈ a.dropWhile isSpace, isColon c = false) →
      ∀ c ∈ b.rdropWhile isSpace, isColon c = false := by
    intro h c hc
    refine hcolon (fun c hc => ?_) c ((List.rdropWhile_prefix _ _).subset hc)
    rw [Bool.eq_false_iff]
    intro hcolon
    rw [h c (mem_dropWhile hc (hspace c hcolon))] at hcolon
    cases hcolon
  have hline : ∀ token : Token, (strip (a ++ token.text ++ b)).isEmpty = false := by
    intro token
    rw [laws.strip_token]
    simp [token.text_ne_nil]
  have hlabel : ∀ token : Token, (fieldMatch (strip (a ++ token.text ++ b))).any
      (fun field => normalizeLabel field.1 ∉ titleLabels) =
      (lineLabel (a.dropWhile isSpace)).any fun label => normalizeLabel label ∉ titleLabels := by
    intro token
    rw [laws.strip_token, laws.fieldMatch_token hcolon']
    cases lineLabel (a.dropWhile isSpace) <;> rfl
  have hremoved : removeQualityToken (strip (a ++ token.text ++ b)) =
      removeQualityToken (strip (a ++ token'.text ++ b)) := by
    rw [laws.removeQualityToken_strip, laws.removeQualityToken_strip, sub_token ha hhash hb,
      sub_token ha hhash hb,
      subFrom_after token.isAsciiAlnumIgnoreCase_letter token'.isAsciiAlnumIgnoreCase_letter]
  unfold freeformLineTitle
  dsimp only
  rw [hline, hline, hlabel, hlabel, hremoved]

/-- The normalized title of a caption does not see a resolution that is set apart. -/
theorem tokenTitle_eq (hapart : SetApart x y) (hx : EndsApart x) (hy : StartsApart y)
    (token token' : Token) :
    tokenTitle x y token = tokenTitle x y token' := by
  have hbeforeLine : lineBefore x <:+ x := List.rtakeWhile_suffix _ _
  have hafterLine : lineAfter y <+: y := List.takeWhile_prefix _
  unfold tokenTitle
  rw [laws.labelledTitle_token, laws.labelledTitle_token]
  cases hbefore : (linesBefore x).findSome? lineTitle with
  | some title => rfl
  | none =>
      cases hpart : titlePart (lineBefore x) with
      | some value =>
          -- the title of this line
          have hparts : yearParts x y =
              some (value.dropWhile isSpace, (lineAfter y).rdropWhile isSpace) := by
            simp [yearParts, hbefore, hpart]
          obtain ⟨hsuffix, hprefix⟩ := yearParts_around hparts
          rcases hapart with hnone | ⟨-, hu, hw⟩ | ⟨hnone, -⟩
          · rw [hnone] at hparts
            cases hparts
          · have htitle :=
              laws.normalizeTitle_token (fun c hc => hu c (getLast?_of_suffix hsuffix hc))
              (fun c hc => hw c (head?_mono hprefix hc)) token token'
            simp only [Option.none_or, Option.map_some, Option.some_or, htitle]
          · rw [hnone] at hpart
            cases hpart
      | none =>
          cases hafter : (linesAfter y).findSome? lineTitle with
          | some title => rfl
          | none =>
              -- the freeform title
              have hparts : yearParts x y = some (x, y) := by
                simp [yearParts, hbefore, hpart, hafter]
              rcases hapart with hnone | ⟨hsome, -⟩ | ⟨-, hhash, hcolon⟩
              · rw [hnone] at hparts
                cases hparts
              · exact absurd hpart hsome
              · have hline := laws.freeformLineTitle_token (hx.of_suffix hbeforeLine)
                  (fun hc => hhash (getLast?_of_suffix hbeforeLine hc)) (hy.of_prefix hafterLine)
                    hcolon token token'
                have hfree : extractFreeformQualityTitle (x ++ token.text ++ y) =
                    extractFreeformQualityTitle (x ++ token'.text ++ y) := by
                  unfold extractFreeformQualityTitle
                  rw [splitlines_around x y (fun _ hc => Token.isLineBreak_of_mem_text hc)
                    token.text_ne_nil,
                    splitlines_around x y (fun _ hc => Token.isLineBreak_of_mem_text hc)
                      token'.text_ne_nil,
                    List.findSome?_append, List.findSome?_append, List.findSome?_cons,
                      List.findSome?_cons, hline]
                rw [hfree]
                rfl

end ResolutionLaws

/-! ### The verdict -/

section

variable {poster : PosterCandidate} {q q' : QualityCandidate} {distance : ℕ}

theorem verdict_eq_accepted_iff :
    verdict poster q distance = .accepted ↔ contradicts poster q = false := by
  rw [← acceptThreshold_le_scoreQuality poster q distance]
  unfold verdict
  split
  · next haccepted => simp [haccepted]
  · next haccepted => split <;> simp [haccepted]

/-- Whether a candidate is accepted follows from its year. -/
theorem contradicts_congr (h : q.year = q'.year) :
    contradicts poster q = contradicts poster q' := by
  unfold contradicts
  rw [h]

/-- A verdict follows from the year and the title. -/
theorem verdict_congr (hyear : q.year = q'.year) (htitle : q.normalizedTitle = q'.normalizedTitle) :
    verdict poster q distance = verdict poster q' distance := by
  have hscore : scoreQuality poster q distance = scoreQuality poster q' distance := by
    unfold scoreQuality
    rw [hyear, htitle]
  unfold verdict
  rw [hscore]

end

/-- The candidate of a poster that shows the title `Up` and a year. -/
def posterOf (message : ArchiveMessage) (year : ℕ) : PosterCandidate where
  message := message
  rawTitle := "Up".toList
  displayTitle := "Up".toList
  normalizedTitle := "up".toList
  year := some year
  style := .modern
  confidence := 90

/-- Candidates that no poster tells apart have one year. -/
theorem year_eq_of_forall {q q' : QualityCandidate}
    (h : ∀ poster, contradicts poster q = false ↔ contradicts poster q' = false) :
    q.year = q'.year := by
  have hposter : ∀ (q : QualityCandidate) (message : ArchiveMessage) (year : ℕ),
      contradicts (posterOf message year) q = false ↔ ∀ n, q.year = some n → year = n := by
    intro q message year
    unfold contradicts posterOf
    cases q.year <;> simp
  have hyears : ∀ year, (∀ n, q.year = some n → year = n) ↔ ∀ n, q'.year = some n → year = n := by
    intro year
    rw [← hposter q q.message, ← hposter q' q.message]
    exact h _
  cases hq : q.year with
  | none =>
      cases hq' : q'.year with
      | none => rfl
      | some m =>
          -- the year after that of the other one
          have hnext := (hyears (m + 1)).1 (by simp [hq]) m hq'
          omega
  | some n =>
      cases hq' : q'.year with
      | none =>
          have hnext := (hyears (n + 1)).2 (by simp [hq']) n hq
          omega
      | some m =>
          have hown := (hyears n).1 (fun k hk => Option.some.inj (hq.symm.trans hk)) m hq'
          rw [hown]

section

variable [UnicodeData] {message : ArchiveMessage} {x y : Str} {token : Token}

/-- When every resolution leaves the year of a candidate as it is. -/
theorem ResolutionLaws.tokenYear_eq_iff (laws : ResolutionLaws) (hx : EndsApart x)
    (hy : StartsApart y)
    (token : Token) : (∀ hash q, tokenYear x y token = tokenYear x y (Token.plain hash q)) ↔
      KeepsYear x y := by
  unfold tokenYear KeepsYear
  cases hparts : yearParts x y with
  | none => simp
  | some parts =>
      obtain ⟨u, w⟩ := parts
      obtain ⟨hsuffix, hstart⟩ := yearParts_around hparts
      have hyears := laws.same_years_iff (hx.of_suffix hsuffix) (hy.of_prefix hstart) token
      constructor
      · intro h u' w' heq
        obtain ⟨rfl, rfl⟩ := Prod.mk.inj (Option.some.inj heq)
        exact hyears.1 fun hash q => (h hash q).symm
      · intro h hash q
        exact (hyears.2 (h u w rfl) hash q).symm

/-- **When the advertised resolution decides nothing.** -/
theorem resolution_keeps_year_iff (laws : ResolutionLaws)
    (hkind : message.mediaKind = .video ∨ message.mediaKind = .document)
    (hone : finditer qualityRe (x ++ token.text ++ y) = [(x.length, (x ++ token.text).length)])
    (hwhole : x.length + y.length + 6 ≤ maxParsedCaptionChars) :
    ((∀ hash q, SameYear (advertising message x y token)
      (advertising message x y (Token.plain hash q))) ↔
        KeepsYear x y) ∧
      ((∀ hash q poster distance, SameAcceptance poster distance (advertising message x y token)
          (advertising message x y (Token.plain hash q))) ↔ KeepsYear x y) ∧
      (KeepsYear x y → SetApart x y → ∀ hash q poster distance, SameVerdict poster distance
        (advertising message x y token) (advertising message x y (Token.plain hash q))) := by
  obtain ⟨hx, hy⟩ := ResolutionLaws.apart_of_finditer hone
  have hcandidate := fun token => laws.detectQuality_token hkind hx hy hwhole token
  have hyears := laws.tokenYear_eq_iff hx hy token
  have hsame : ∀ token', SameYear (advertising message x y token) (advertising message x y token') ↔
      tokenYear x y token = tokenYear x y token' := by
    intro token'
    obtain ⟨q, hq, hyear, -⟩ := hcandidate token
    obtain ⟨q', hq', hyear', -⟩ := hcandidate token'
    rw [← hyear, ← hyear', SameYear, hq, hq']
    simp
  have haccepted : ∀ token', (∀ poster distance, SameAcceptance poster distance
      (advertising message x y token) (advertising message x y token')) ↔
      tokenYear x y token = tokenYear x y token' := by
    intro token'
    obtain ⟨q, hq, hyear, -⟩ := hcandidate token
    obtain ⟨q', hq', hyear', -⟩ := hcandidate token'
    rw [← hyear, ← hyear']
    constructor
    · intro h
      -- posters of every year tell the two years apart
      refine year_eq_of_forall fun poster => ?_
      obtain ⟨p, p', hp, hp', heq⟩ := h poster 0
      rw [hq] at hp
      rw [hq'] at hp'
      cases hp
      cases hp'
      rwa [verdict_eq_accepted_iff, verdict_eq_accepted_iff] at heq
    · intro h poster distance
      refine ⟨q, q', hq, hq', ?_⟩
      rw [verdict_eq_accepted_iff, verdict_eq_accepted_iff, contradicts_congr h]
  refine ⟨?_, ?_, ?_⟩
  · rw [← hyears]
    simp only [hsame]
  · rw [← hyears]
    simp only [haccepted]
  · intro hkeeps hapart hash q poster distance
    obtain ⟨p, hp, hyear, htitle⟩ := hcandidate token
    obtain ⟨p', hp', hyear', htitle'⟩ := hcandidate (Token.plain hash q)
    refine ⟨p, p', hp, hp', verdict_congr ?_ ?_⟩
    · rw [hyear, hyear']
      exact hyears.2 hkeeps hash q
    · rw [htitle, htitle']
      exact laws.tokenTitle_eq hapart hx hy token _

end

/-! ### A resolution that is read as a year -/

/-- The restricted database obeys the laws. -/
theorem UnicodeData.asciiArabic_resolutionLaws : @ResolutionLaws UnicodeData.asciiArabic := by
  let _ : UnicodeData := UnicodeData.asciiArabic
  have hspaces : ∀ c, isSpace c = true → c ∈ [' ', '\t', '\n', '\r', '\x0b', '\x0c'] :=
    fun c hc => of_decide_eq_true hc
  have hlower : ∀ c, isSeparator c = true → c.toLower = c := by
    have hall : ∀ c ∈ [' ', '\t', '\n', '\r', '\x0b', '\x0c'] ++ ['-', '–', '—', ':', '：'] ++
        ['(', ')', '[', ']', '{', '}', '|', ',', '.', ';', '/', '•'], c.toLower = c := by decide
    intro c hc
    refine hall c ?_
    simp only [isSeparator, isBreak, isTitleMark, Bool.or_eq_true, decide_eq_true_eq] at hc
    rw [List.mem_append, List.mem_append]
    rcases hc with (hc | hc) | hc
    · exact .inl (.inl (hspaces c hc))
    · exact .inl (.inr hc)
    · exact .inr hc
  refine ⟨UnicodeData.asciiArabic_laws,
    by decide, by decide, ?_, ?_, ⟨rfl, fun c hc => ⟨c, hc, fun a b => rfl⟩⟩, ?_⟩
  case refine_1 =>
    intro t c hc hdigit
    exact List.mem_map.2 ⟨c, hc, toLower_of_isDigit hdigit⟩
  case refine_2 =>
    intro token
    -- `\u212a` is the Kelvin sign, which a regular expression that ignores case takes for a `k`
    have hletters : ∀ c ∈ ['p', 'P', 'k', 'K', '\u212a'],
        eqIgnoreCase token.quality.letter c = true →
          eqIgnoreCase token.quality.letter c.toLower = true := by
      cases token.quality <;> decide
    have hletter := hletters _ token.letter_mem token.letter_eq
    refine ⟨⟨token.hash, token.quality, token.letter.toLower, hletter⟩, ?_⟩
    have hmark : token.mark.map Char.toLower = token.mark := by
      unfold Token.mark
      split <;> rfl
    have hdigits : token.quality.digits.map Char.toLower = token.quality.digits := by
      cases token.quality <;> decide
    have hmap : casefold (nfkc token.text) = token.text.map Char.toLower := rfl
    rw [hmap, Token.text, List.map_append, List.map_append, hmark, hdigits]
    rfl
  case refine_3 =>
    refine ⟨rfl, fun c hc => ⟨c, hc, fun a b => ?_⟩⟩
    have hmap : casefold (a ++ c :: b) = casefold a ++ c.toLower :: casefold b := List.map_append
    rw [hmap, hlower c hc]

/-- A video of the archive. -/
def someVideo : ArchiveMessage where
  messageId := 1
  mediaKind := .video
  caption := none

/-- A poster of the archive. -/
def somePoster : ArchiveMessage where
  messageId := 1
  mediaKind := .photo
  caption := some "الفيلم: Up\nالسنة: 2020".toList

section

attribute [local instance] UnicodeData.asciiArabic

example : detectPoster somePoster = some (posterOf somePoster 2020) := by decide +kernel

/-- The file `Film 2020 #1080p` is accepted for the poster of 2020, the file `Film 2020 #2160p` is
not: it is read as a film of the year 2160. -/
theorem uhd_film_is_not_accepted :
    finditer qualityRe ("Film 2020 ".toList ++ (Token.plain true .p1080).text ++ []) = [(10, 16)] ∧
      ¬ SameYear (advertising someVideo "Film 2020 ".toList [] (Token.plain true .p1080))
        (advertising someVideo "Film 2020 ".toList [] (Token.plain true .p2160)) ∧
      ¬ SameVerdict (posterOf somePoster 2020) 1
        (advertising someVideo "Film 2020 ".toList [] (Token.plain true .p1080))
        (advertising someVideo "Film 2020 ".toList [] (Token.plain true .p2160)) := by
  have hhd :
      (detectQuality (advertising someVideo "Film 2020 ".toList [] (Token.plain true .p1080))).map
        (fun quality => (quality.year, verdict (posterOf somePoster 2020) quality 1)) =
      some (some 2020, .accepted) := by
    decide +kernel
  have huhd :
      (detectQuality (advertising someVideo "Film 2020 ".toList [] (Token.plain true .p2160))).map
        (fun quality => (quality.year, verdict (posterOf somePoster 2020) quality 1)) =
      some (some 2160, .ambiguous) := by
    decide +kernel
  refine ⟨by decide +kernel, ?_, ?_⟩
  · rintro ⟨q, q', hq, hq', hyear⟩
    rw [hq, Option.map_some, Option.some.injEq, Prod.mk.injEq] at hhd
    rw [hq', Option.map_some, Option.some.injEq, Prod.mk.injEq] at huhd
    rw [hhd.1, huhd.1] at hyear
    cases hyear
  · rintro ⟨q, q', hq, hq', hverdict⟩
    rw [hq, Option.map_some, Option.some.injEq, Prod.mk.injEq] at hhd
    rw [hq', Option.map_some, Option.some.injEq, Prod.mk.injEq] at huhd
    rw [hhd.2, huhd.2] at hverdict
    cases hverdict

/-- A year after the resolution: `Film #1080p 2020`. -/
theorem resolution_keeps_year_iff_year_after : SameVerdict (posterOf somePoster 2020) 1
    (advertising someVideo "Film ".toList " 2020".toList (Token.plain true .p1080))
    (advertising someVideo "Film ".toList " 2020".toList (Token.plain true .p2160)) := by
  have hone :
      finditer qualityRe ("Film ".toList ++ (Token.plain true .p1080).text ++ " 2020".toList) =
        [("Film ".toList.length, ("Film ".toList ++ (Token.plain true .p1080).text).length)] := by
    decide +kernel
  have hparts :
      yearParts "Film ".toList " 2020".toList = some ("Film ".toList, " 2020".toList) := by
    decide +kernel
  have hkeeps : KeepsYear "Film ".toList " 2020".toList := by
    intro u w h
    rw [hparts] at h
    obtain ⟨rfl, rfl⟩ := Prod.mk.inj (Option.some.inj h)
    exact .inl (by decide +kernel)
  have hapart : SetApart "Film ".toList " 2020".toList :=
    .inr (.inr ⟨by decide +kernel, by decide, fun _ => by decide +kernel⟩)
  exact (resolution_keeps_year_iff UnicodeData.asciiArabic_resolutionLaws (.inl rfl) hone
    (by decide)).2.2
    hkeeps hapart true .p2160 _ _

end

end CineGate

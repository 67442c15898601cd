/-
**The text functions of the archive parser.**

`services/text.py` on code points.  A regular expression that the service searches for or replaces
is a *token matcher*: it looks at the preceding symbol and at the remaining text and returns the
length of the token that starts there, so that look-behind, look-ahead and greedy repetition are
decided on the spot; `finditer`, `search` and `sub` walk over the text from left to right without
overlaps, as `re` does.  What Python takes from the Unicode database — the character classes `\w`,
`\s` and `\d`, NFKC and case folding — is the class `UnicodeData`.
-/

import CineGate.Domain
import Mathlib.Data.List.DropRight

set_option relaxedAutoImplicit false
set_option autoImplicit false

namespace CineGate

/-- What the interpreter's Unicode database decides: `str.isalnum`, `str.isspace`, the value of a
decimal digit, `unicodedata.normalize("NFKC", ·)` and `str.casefold`. -/
class UnicodeData where
  isAlnum : Char → Bool
  isSpace : Char → Bool
  decimal : Char → Option ℕ
  nfkc : Str → Str
  casefold : Str → Str

export UnicodeData (isAlnum isSpace decimal nfkc casefold)

/-- The database restricted to ASCII and the letters of the Arabic block, where NFKC changes
nothing: enough to evaluate the model on texts in these scripts. -/
@[reducible] def UnicodeData.asciiArabic : UnicodeData where
  isAlnum c := c.isAlphanum || ('\u0620' ≤ c && c ≤ '\u064a')
  isSpace c := c ∈ [' ', '\t', '\n', '\r', '\x0b', '\x0c']
  decimal c := if c.isDigit then some (c.toNat - 48) else none
  nfkc := id
  casefold s := s.map Char.toLower

/-- What holds of the characters of a text is decided on the text, not on all characters. -/
instance (priority := 2000) decidableForallMemText (p : Char → Prop) [DecidablePred p]
    (text : Str) :
    Decidable (∀ c ∈ text, p c) := List.decidableBAll p text

@[inherit_doc decidableForallMemText]
instance (priority := 2000) decidableExistsMemText (p : Char → Prop) [DecidablePred p]
    (text : Str) :
    Decidable (∃ c ∈ text, p c) := List.decidableBEx p text

/-! ### Matching tokens -/

/-- The length of the token that starts here, given the symbol before it. -/
abbrev Matcher := Option Char → Str → Option ℕ

/-- The tokens from position `i` on, as half-open ranges; the first `skip` symbols belong to the
token found last. -/
def finditerFrom (m : Matcher) : ℕ → Option Char → ℕ → Str → List (ℕ × ℕ)
  | _, _, _, [] => []
  | skip + 1, _, i, c :: cs => finditerFrom m skip (some c) (i + 1) cs
  | 0, before, i, c :: cs =>
      match m before (c :: cs) with
      | some (n + 1) => (i, i + n + 1) :: finditerFrom m n (some c) (i + 1) cs
      | _ => finditerFrom m 0 (some c) (i + 1) cs

/-- `re.finditer`. -/
def finditer (m : Matcher) (text : Str) : List (ℕ × ℕ) := finditerFrom m 0 none 0 text

/-- `re.search`. -/
def search (m : Matcher) (text : Str) : Option (ℕ × ℕ) := (finditer m text).head?

/-- `re.sub` by one blank, from a position on. -/
def subFrom (m : Matcher) : ℕ → Option Char → Str → Str
  | _, _, [] => []
  | skip + 1, _, c :: cs => subFrom m skip (some c) cs
  | 0, before, c :: cs =>
      match m before (c :: cs) with
      | some (n + 1) => ' ' :: subFrom m n (some c) cs
      | _ => c :: subFrom m 0 (some c) cs

/-- `re.sub` by one blank. -/
def sub (m : Matcher) (text : Str) : Str := subFrom m 0 none text

/-- `text[start:stop]`. -/
def slice (text : Str) (span : ℕ × ℕ) : Str := (text.take span.2).drop span.1

/-- `f"{text[:start]} {text[stop:]}"`. -/
def blankOut (text : Str) (span : ℕ × ℕ) : Str := text.take span.1 ++ ' ' :: text.drop span.2

/-- `needle in text`. -/
def contains (needle text : Str) : Bool := text.tails.any needle.isPrefixOf

/-- `str.strip(chars)`. -/
def stripBy (p : Char → Bool) (text : Str) : Str := (text.dropWhile p).rdropWhile p

/-! ### Character classes -/

/-- `[A-Za-z0-9]`. -/
def isAsciiAlnum (c : Char) : Bool := c.isAlphanum

/-- `[A-Za-z0-9]` under `(?i)`, which also admits four letters outside ASCII. -/
def isAsciiAlnumIgnoreCase (c : Char) : Bool :=
  c.isAlphanum || c = '\u0130' || c = '\u0131' || c = '\u017f' || c = '\u212a'

/-- A literal of a pattern under `(?i)`; the Kelvin sign matches `k`. -/
def eqIgnoreCase (pattern c : Char) : Bool :=
  c = pattern || c = pattern.toUpper || (pattern = 'k' && c = '\u212a')

/-- The line boundaries of `str.splitlines`. -/
def isLineBreak (c : Char) : Bool :=
  c ∈ ['\n', '\r', '\x0b', '\x0c', '\x1c', '\x1d', '\x1e', '\u0085', '\u2028', '\u2029']

/-- `str.splitlines`, with the line read so far in reverse. -/
def splitlinesFrom : Str → Str → List Str
  | line, [] => if line.isEmpty then [] else [line.reverse]
  | line, '\r' :: '\n' :: cs => line.reverse :: splitlinesFrom [] cs
  | line, c :: cs =>
      if isLineBreak c then line.reverse :: splitlinesFrom [] cs else splitlinesFrom (c :: line) cs

/-- `str.splitlines`. -/
def splitlines (text : Str) : List Str := splitlinesFrom [] text

/-! ### Resolution tokens -/

/-- The alternatives of `_QUALITY_RE`, in its order. -/
def qualityTokens : List Resolution := [.p2160, .p1080, .p720, .p480, .k4]

/-- The resolution the text starts with, ignoring case. -/
def resolutionPrefix (text : Str) : Option Resolution :=
  qualityTokens.find? fun q =>
    q.label.length ≤ text.length && (q.label.zip text).all fun p => eqIgnoreCase p.1 p.2

/-- `#?(2160p|1080p|720p|480p|4k)(?![A-Za-z0-9])`: the resolution and the length of the token. -/
def qualityAt (text : Str) : Option (Resolution × ℕ) :=
  let hash := if text.head? = some '#' then 1 else 0
  (resolutionPrefix (text.drop hash)).bind fun q =>
    let n := hash + q.label.length
    if (text.drop n).head?.any isAsciiAlnumIgnoreCase then none else some (q, n)

/-- `_QUALITY_RE`. -/
def qualityRe : Matcher := fun before text =>
  if before.any isAsciiAlnumIgnoreCase then none else (qualityAt text).map Prod.snd

/-- `extract_quality`: the first resolution token, in lower case. -/
def extractQuality (text : Str) : Option Resolution :=
  (search qualityRe text).bind fun span => (qualityAt (text.drop span.1)).map Prod.fst

/-- `_BOT_USERNAME_RE`: `(?<![A-Za-z0-9_])@[A-Za-z0-9_]{5,32}`. -/
def botUsernameRe : Matcher := fun before text =>
  if before.any fun c => isAsciiAlnum c || c = '_' then none
  else match text with
    | '@' :: cs =>
        let n := min 32 (cs.takeWhile fun c => isAsciiAlnum c || c = '_').length
        if 5 ≤ n then some (n + 1) else none
    | _ => none

section

variable [UnicodeData]

/-- `str.strip()`. -/
def strip (text : Str) : Str := stripBy isSpace text

/-- `\w`. -/
def isWord (c : Char) : Bool := isAlnum c || c = '_'

/-- Every run of white space becomes one blank; `inRun` says that one has been written already. -/
def squeezeSpaces : Bool → Str → Str
  | _, [] => []
  | inRun, c :: cs =>
      if isSpace c then if inRun then squeezeSpaces true cs else ' ' :: squeezeSpaces true cs
      else c :: squeezeSpaces false cs

/-- `_collapse_spaces`. -/
def collapseSpaces (text : Str) : Str := strip (squeezeSpaces false text)

/-- `_PUNCTUATION_RE.sub(" ", text)`. -/
def blankPunctuation (text : Str) : Str :=
  text.map fun c => if isWord c || isSpace c then c else ' '

/-! ### Years -/

/-- `_YEAR_RE`: four digits that begin with 19, 20 or 21 and touch no further digit. -/
def yearRe : Matcher := fun before text =>
  match text with
  | a :: b :: c :: d :: rest =>
      if before.any (fun x => (decimal x).isSome) then none
      else if ((a = '1' ∧ b = '9') ∨ (a = '2' ∧ (b = '0' ∨ b = '1'))) ∧
          (decimal c).isSome ∧ (decimal d).isSome ∧ ¬ rest.head?.any (fun x => (decimal x).isSome)
      then some 4 else none
  | _ => none

/-- `int(text)` on decimal digits. -/
def intOfDecimals (text : Str) : ℕ := text.foldl (fun n c => 10 * n + (decimal c).getD 0) 0

/-- `extract_year`. -/
def extractYear (text : Str) : Option ℕ :=
  (search yearRe text).map fun span => intOfDecimals (slice text span)

/-- `extract_release_year`: the last year token, when a title is left without it. -/
def extractReleaseYear (text : Str) : Option ℕ :=
  (finditer yearRe text).getLast?.bind fun last =>
    let cleaned := blankPunctuation (sub botUsernameRe (sub qualityRe (blankOut text last)))
    if cleaned.any isWord then some (intOfDecimals (slice text last)) else none

/-- `strip_year`. -/
def stripYear (text : Str) : Str :=
  match (finditer yearRe text).getLast? with
  | none => collapseSpaces text
  | some last =>
      let candidate := blankOut text last
      if (blankPunctuation candidate).any isWord then collapseSpaces candidate
      else collapseSpaces text

/-! ### Titles -/

/-- `remove_quality_token`. -/
def removeQualityToken (text : Str) : Str := strip (collapseSpaces (sub qualityRe text))

/-- `strip_bot_usernames`. -/
def stripBotUsernames (text : Str) : Str := sub botUsernameRe text

/-- `_NOISE_WORDS`. -/
def noiseWords : List Str :=
  ["film".toList, "movie".toList, "quality".toList, "فيلم".toList, "فلم".toList, "الفيلم".toList,
    "الفلم".toList, "الجودة".toList]

/-- `value.replace("&", " and ").replace("_", " ")`. -/
def replaceAmpersands (text : Str) : Str :=
  text.flatMap fun c => if c = '&' then " and ".toList else if c = '_' then [' '] else [c]

/-- `normalize_title`. -/
def normalizeTitle (title : Str) : Str :=
  if title.isEmpty then []
  else
    let value := sub botUsernameRe (casefold (nfkc title))
    let value := sub qualityRe (replaceAmpersands value)
    let value := blankPunctuation (stripYear value)
    let tokens := (collapseSpaces value).splitOn ' '
    let tokens := (tokens.filter fun token => !token.isEmpty).filter fun token => token ∉ noiseWords
    [' '].intercalate tokens

/-- `str.strip(" -–—:：")`. -/
def stripTitleMarks (text : Str) : Str :=
  stripBy (fun c => c ∈ [' ', '-', '–', '—', ':', '：']) text

/-- `clean_display_title`. -/
def cleanDisplayTitle (title : Str) : Str :=
  stripTitleMarks (collapseSpaces (stripYear (sub qualityRe (sub botUsernameRe (nfkc title)))))

end

end CineGate

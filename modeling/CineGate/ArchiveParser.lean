/-
**The archive parser: posters, quality candidates and the grouping loop.**

`services/archive_parser.py`.  A photo with a title field is a *poster*; a video or document whose
caption advertises a resolution is a *quality candidate*; every other message is noise.  The loop of
`iter_groups` keeps one open group: a poster opens it, candidates are scored against it, and more
than `max_noise_messages` noise messages in a row close it.

`iter_groups` is a generator.  `GroupStream` is what it yields, so that a caller that only asks for
the first group does not run the rest of the loop.

* `detectPoster`, `detectQuality` — what one message is;
* `scoreQuality` — the confidence of a candidate;
* `GroupBuilder`, `GroupBuilder.addQuality`, `GroupBuilder.addNoise` — the open group;
* `ArchiveParser.iterGroups`, `ArchiveParser.parse`, `GroupStream.next` — the loop.
-/

import CineGate.Text
import CineGate.SequenceMatcher
import Mathlib.Data.List.Sort

set_option relaxedAutoImplicit false
set_option autoImplicit false

namespace CineGate

/-! ### Constants -/

/-- `_FOLLOWER_TAG`. -/
def followerTag : Str := "#طلب_المتابعين".toList

/-- `_TITLE_LABELS`. -/
def titleLabels : List Str := ["الفيلم".toList, "فيلم".toList, "فلم".toList, "الفلم".toList]

/-- `_LEGACY_ONLY_TITLE_LABELS`. -/
def legacyOnlyTitleLabels : List Str := ["فيلم".toList, "فلم".toList, "الفلم".toList]

/-- `_MODERN_SIGNATURE_FIELDS`. -/
def modernSignatureFields : List Str := ["التصنيف".toList, "السنة".toList, "التقييم".toList]

/-- `_SUPPORTING_POSTER_FIELDS`. -/
def supportingPosterFields : List Str :=
  ["التصنيف".toList, "النوع".toList, "البلد".toList, "اللغة".toList, "الترجمة".toList,
    "السنة".toList, "التقييم".toList, "القصة".toList]

/-- `_ACCEPT_THRESHOLD`. -/
def acceptThreshold : ℕ := 60

/-- `_AMBIGUOUS_THRESHOLD`. -/
def ambiguousThreshold : ℕ := 40

/-- `_MAX_PARSED_CAPTION_CHARS`. -/
def maxParsedCaptionChars : ℕ := 8192

/-! ### Messages -/

structure PosterCandidate where
  message : ArchiveMessage
  rawTitle : Str
  displayTitle : Str
  normalizedTitle : Str
  year : Option ℕ
  style : ParserStyle
  confidence : ℕ
deriving DecidableEq, Repr

structure QualityCandidate where
  message : ArchiveMessage
  quality : Resolution
  rawTitle : Option Str
  normalizedTitle : Option Str
  year : Option ℕ
deriving DecidableEq, Repr

/-- `_bounded_caption`. -/
def boundedCaption : Option Str → Str
  | none => []
  | some caption => caption.take maxParsedCaptionChars

section

variable [UnicodeData]

/-- The label of a field line, from the text before its first colon: white space, then up to 32
symbols, then white space again.  A text that is all white space gives up its last symbol. -/
def fieldLabel (before : Str) : Option Str :=
  let text := before.dropWhile isSpace
  if text.isEmpty then before.getLast?.map fun c => [c]
  else if (text.drop 32).all isSpace then some (text.take 32) else none

/-- The value of a field line, from the text after its first colon. -/
def fieldValue (after : Str) : Option Str :=
  let text := after.dropWhile isSpace
  if text.isEmpty then after.getLast?.map fun c => [c] else some (text.rdropWhile isSpace)

/-- `_FIELD_RE.match` on one line: the label may not hold a colon, so it ends at the first one. -/
def fieldMatch (line : Str) : Option (Str × Str) :=
  let isColon : Char → Bool := fun c => c = ':' || c = '：'
  match line.dropWhile fun c => !isColon c with
  | [] => none
  | _ :: after =>
      (fieldLabel (line.takeWhile fun c => !isColon c)).bind fun label =>
        (fieldValue after).map fun value => (label, value)

/-- `_normalize_label`. -/
def normalizeLabel (rawLabel : Str) : Str :=
  casefold ((strip rawLabel).dropWhile fun c => c ∈ ['#', '-', '*', '•', '–', '—', ' '])

/-- One line of `_extract_fields`: the first value of a label stays. -/
def addField (fields : List (Str × Str)) (rawLine : Str) : List (Str × Str) :=
  match fieldMatch rawLine with
  | none => fields
  | some (rawLabel, rawValue) =>
      let label := normalizeLabel rawLabel
      let value := strip rawValue
      if !label.isEmpty && !value.isEmpty && label ∉ fields.map Prod.fst
      then fields ++ [(label, value)] else fields

/-- `_extract_fields`: the field lines of a caption, in order. -/
def extractFields (caption : Str) : List (Str × Str) := (splitlines caption).foldl addField []

/-- `_extract_year_from_fields`. -/
def extractYearFromFields (fields : List (Str × Str)) : Option ℕ :=
  (fields.lookup "السنة".toList).bind extractYear

/-- The style and the confidence of a poster, from its caption, its title label and its fields. -/
def posterStyle (caption titleLabel : Str) (labels : List Str) : Option (ParserStyle × ℕ) :=
  let supportingCount := labels.countP fun label => label ∈ supportingPosterFields
  let hasModernSignature := labels.any fun label => label ∈ modernSignatureFields
  let hasTag := contains followerTag caption
  let isLegacy := hasTag || titleLabel ∈ legacyOnlyTitleLabels ||
    (titleLabel = "الفيلم".toList && !hasModernSignature)
  if isLegacy then
    if supportingCount = 0 && !hasTag then none
    else some (.legacy, if hasTag then 88 else 82)
  else
    if supportingCount = 0 then none
    else some (.modern, min 99 (88 + min supportingCount 5 * 2))

/-- `_detect_poster`. -/
def detectPoster (message : ArchiveMessage) : Option PosterCandidate :=
  let caption := boundedCaption message.caption
  if message.mediaKind ≠ .photo || caption.isEmpty then none
  else
    let fields := extractFields caption
    match fields.find? fun field => field.1 ∈ titleLabels with
    | none => none
    | some (titleLabel, rawTitle) =>
        match posterStyle caption titleLabel (fields.map Prod.fst) with
        | none => none
        | some (style, confidence) =>
            let displayTitle := cleanDisplayTitle rawTitle
            let normalizedTitle := normalizeTitle rawTitle
            if displayTitle.isEmpty || normalizedTitle.isEmpty then none
            else some {
              message, rawTitle := strip rawTitle, displayTitle, normalizedTitle,
              year := (extractYearFromFields fields).or (extractYear rawTitle), style, confidence }

/-- The title one line of a freeform caption gives. -/
def freeformLineTitle (rawLine : Str) : Option Str :=
  let line := strip rawLine
  if line.isEmpty then none
  else if (fieldMatch line).any fun field => normalizeLabel field.1 ∉ titleLabels then none
  else
    let candidate := stripBotUsernames (removeQualityToken line)
    let candidate := collapseSpaces (stripTitleMarks (stripYear candidate))
    if !candidate.isEmpty && candidate.head? ≠ some '#' then some candidate else none

/-- `_extract_freeform_quality_title`. -/
def extractFreeformQualityTitle (caption : Str) : Option Str :=
  (splitlines caption).findSome? freeformLineTitle

/-- `_detect_quality`. -/
def detectQuality (message : ArchiveMessage) : Option QualityCandidate :=
  let caption := boundedCaption message.caption
  if (message.mediaKind ≠ .video && message.mediaKind ≠ .document) || caption.isEmpty then none
  else
    (extractQuality caption).map fun quality =>
      let fields := extractFields caption
      let labeledTitle := (fields.find? fun field => field.1 ∈ titleLabels).map Prod.snd
      let rawTitle := labeledTitle.or (extractFreeformQualityTitle caption)
      let normalized := rawTitle.map normalizeTitle
      { message, quality, rawTitle,
        normalizedTitle := normalized.filter fun title => !title.isEmpty,
        year := match labeledTitle with
          | some title => extractReleaseYear title
          | none => extractReleaseYear caption }

end

/-! ### Scores -/

/-- What the similarity of two normalized titles adds to a score. -/
def titleBonus (posterTitle qualityTitle : Str) : ℤ :=
  if SequenceMatcher.ratioAtLeast 90 posterTitle qualityTitle then 10
  else if SequenceMatcher.ratioAtLeast 70 posterTitle qualityTitle then 6
  else if SequenceMatcher.ratioAtLeast 50 posterTitle qualityTitle then 3
  else 0

/-- `_score_quality`. -/
def scoreQuality (poster : PosterCandidate) (quality : QualityCandidate) (distance : ℕ) : ℕ :=
  let score : ℤ := 80
  let score := if 1 < distance then score - min (((distance : ℤ) - 1) * 5) 20 else score
  let score := match poster.year, quality.year with
    | some posterYear, some qualityYear =>
        if posterYear = qualityYear then score + 10 else score - 35
    | _, _ => score
  let score := match quality.normalizedTitle with
    | some title =>
        if poster.normalizedTitle.isEmpty || title.isEmpty then score
        else score + titleBonus poster.normalizedTitle title
    | none => score
  (max 0 (min 100 score)).toNat

/-! ### Groups -/

/-- `_GroupBuilder`: the open group.  The dictionary of qualities is a list in insertion order with
one entry for each resolution. -/
structure GroupBuilder where
  poster : PosterCandidate
  qualities : List ParsedQuality := []
  diagnostics : List Diagnostic := []
  ambiguousCandidates : ℕ := 0
  messagesSincePoster : ℕ := 0
  noiseMessages : ℕ := 0
deriving DecidableEq, Repr

/-- `deque(maxlen=limit).append`. -/
def appendDiagnostic (limit : Option ℕ) (diagnostics : List Diagnostic) (d : Diagnostic) :
    List Diagnostic :=
  match limit with
  | none => diagnostics ++ [d]
  | some k => (diagnostics ++ [d]).drop (diagnostics.length + 1 - k)

/-- `qualities[parsed.quality] = parsed` on a dictionary: a known key keeps its place. -/
def setQuality (qualities : List ParsedQuality) (parsed : ParsedQuality) : List ParsedQuality :=
  if qualities.any fun item => item.quality = parsed.quality then
    qualities.map fun item => if item.quality = parsed.quality then parsed else item
  else qualities ++ [parsed]

namespace GroupBuilder

variable (limit : Option ℕ)

/-- An accepted candidate enters the group unless a newer message holds its resolution. -/
def accept (b : GroupBuilder) (parsed : ParsedQuality) : GroupBuilder :=
  match b.qualities.find? fun item => item.quality = parsed.quality with
  | none => { b with qualities := setQuality b.qualities parsed, noiseMessages := 0 }
  | some previous =>
      if previous.messageId < parsed.messageId then
        { b with
          qualities := setQuality b.qualities parsed
          diagnostics := appendDiagnostic limit b.diagnostics
            (.duplicateQualityReplaced parsed.quality previous.messageId parsed.messageId)
          noiseMessages := 0 }
      else
        { b with
          diagnostics := appendDiagnostic limit b.diagnostics
            (.duplicateQualityIgnored parsed.quality parsed.messageId)
          noiseMessages := 0 }

/-- The branch of the loop for a quality candidate. -/
def addQuality (b : GroupBuilder) (quality : QualityCandidate) : GroupBuilder :=
  let b := { b with messagesSincePoster := b.messagesSincePoster + 1 }
  let score := scoreQuality b.poster quality b.messagesSincePoster
  if acceptThreshold ≤ score then
    b.accept limit {
      messageId := quality.message.messageId, quality := quality.quality,
      rawCaption := quality.message.caption.getD [], rawTitle := quality.rawTitle,
      normalizedTitle := quality.normalizedTitle, year := quality.year, confidence := score }
  else if ambiguousThreshold ≤ score then
    { b with
      ambiguousCandidates := b.ambiguousCandidates + 1
      diagnostics := appendDiagnostic limit b.diagnostics
        (.ambiguousQuality quality.message.messageId score) }
  else
    { b with
      diagnostics := appendDiagnostic limit b.diagnostics
        (.rejectedQuality quality.message.messageId score) }

/-- The branch of the loop for any other message. -/
def addNoise (b : GroupBuilder) : GroupBuilder :=
  { b with
    messagesSincePoster := b.messagesSincePoster + 1
    noiseMessages := b.noiseMessages + 1 }

end GroupBuilder

/-- `_quality_sort_key`. -/
def qualitySortKey : Resolution → ℕ
  | .p480 => 480
  | .p720 => 720
  | .p1080 => 1080
  | .p2160 => 2160
  | .k4 => 2161

/-- The order of `_finalize_group`: by resolution, then by message. -/
def qualityLe (p q : ParsedQuality) : Prop :=
  toLex (qualitySortKey p.quality, p.messageId) ≤ toLex (qualitySortKey q.quality, q.messageId)

instance : DecidableRel qualityLe := fun p q =>
  inferInstanceAs (Decidable (toLex (qualitySortKey p.quality, p.messageId) ≤
    toLex (qualitySortKey q.quality, q.messageId)))

/-- `_finalize_group`. -/
def finalizeGroup (b : GroupBuilder) : ParsedMovieGroup where
  posterMessageId := b.poster.message.messageId
  rawPosterCaption := b.poster.message.caption.getD []
  rawTitle := b.poster.rawTitle
  displayTitle := b.poster.displayTitle
  normalizedTitle := b.poster.normalizedTitle
  year := b.poster.year
  parserStyle := b.poster.style
  status :=
    if !b.qualities.isEmpty then .indexed
    else if b.ambiguousCandidates ≠ 0 then .ambiguous
    else .orphan
  posterConfidence := b.poster.confidence
  qualities := b.qualities.insertionSort qualityLe
  diagnostics := b.diagnostics

/-! ### The loop -/

inductive ParserError
  | diagnosticLimitNotPositive
  | unorderedMessages
deriving DecidableEq, Repr

/-- What the generator `iter_groups` yields: it ends, it raises, or it yields a group and goes
on. -/
inductive GroupStream
  | done
  | raised (error : ParserError)
  | yielded (group : ParsedMovieGroup) (rest : GroupStream)
deriving DecidableEq

namespace GroupStream

/-- `next(stream, None)`. -/
def next : GroupStream → Except ParserError (Option ParsedMovieGroup)
  | done => .ok none
  | raised error => .error error
  | yielded group _ => .ok (some group)

/-- `tuple(stream)`. -/
def toList : GroupStream → Except ParserError (List ParsedMovieGroup)
  | done => .ok []
  | raised error => .error error
  | yielded group rest => rest.toList.map (group :: ·)

end GroupStream

/-- `ArchiveParser`, with its one parameter. -/
structure ArchiveParser where
  maxNoiseMessages : ℕ := 1
deriving DecidableEq, Repr

namespace ArchiveParser

variable [UnicodeData] (parser : ArchiveParser) (limit : Option ℕ)

/-- The loop of `iter_groups`, with the open group and the last message id. -/
def loop : Option GroupBuilder → ℕ → List ArchiveMessage → GroupStream
  | none, _, [] => .done
  | some b, _, [] => .yielded (finalizeGroup b) .done
  | current, previousMessageId, message :: messages =>
      if message.messageId ≤ previousMessageId then .raised .unorderedMessages
      else
        match detectPoster message with
        | some poster =>
            match current with
            | some b =>
                .yielded (finalizeGroup b) (loop (some { poster }) message.messageId messages)
            | none => loop (some { poster }) message.messageId messages
        | none =>
            match current with
            | none => loop none message.messageId messages
            | some b =>
                match detectQuality message with
                | some quality =>
                    loop (some (b.addQuality limit quality)) message.messageId messages
                | none =>
                    let b := b.addNoise
                    if parser.maxNoiseMessages < b.noiseMessages then
                      .yielded (finalizeGroup b) (loop none message.messageId messages)
                    else loop (some b) message.messageId messages

/-- `iter_groups`. -/
def iterGroups (messages : List ArchiveMessage) : GroupStream :=
  if limit = some 0 then .raised .diagnosticLimitNotPositive else parser.loop limit none 0 messages

/-- `parse`. -/
def parse (messages : List ArchiveMessage) : Except ParserError (List ParsedMovieGroup) :=
  (parser.iterGroups none messages).toList

end ArchiveParser

end CineGate

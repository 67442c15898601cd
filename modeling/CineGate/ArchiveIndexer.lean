/-
**The archive indexer.**

`services/archive_indexer.py`: what one archive message does to the tables.  `ingest` records a
message that was not seen before; `reconcileEdit` also takes an edit, and with an expected snapshot
version it only acts while the snapshot is the one the version was read from.  Each call is one
transaction; an error leaves the tables as they were.

A recorded message goes one of these ways: it is the poster of a movie (`reconcilePosterEdit`), it
is attached to a quality row (`reconcileQualityEdit`), it opens a movie (`upsertPoster`), it is a
quality candidate (`upsertQuality`), or it may only move a boundary (`reconcileBoundary`).
-/

import CineGate.ArchiveTables

set_option relaxedAutoImplicit false
set_option autoImplicit false

namespace CineGate

namespace ArchiveTables

/-! ### Results -/

/-- `_result_for_movie`. -/
def resultForMovie (t : ArchiveTables) (movie : Movie) (action : IndexAction)
    (diagnostic : Option IndexDiagnostic := none) : ArchiveIndexResult where
  action
  movieId := some movie.id
  displayTitle := some movie.displayTitle
  qualityCount := t.qualityCount movie.id
  ownerNotificationMessageId := movie.ownerNotificationMessageId
  ownerNotificationQualityCount := movie.ownerNotificationQualityCount
  diagnostic

/-- `IndexAction.IGNORED`. -/
def ignored : ArchiveIndexResult := { action := .ignored }

/-- `_duplicate_result`. -/
def duplicateResult (t : ArchiveTables) (channelId : ℤ) (messageId : ℕ) : ArchiveIndexResult :=
  match (t.posterMovie? channelId messageId).or (t.attachedMovie? channelId messageId) with
  | none => ignored
  | some movie =>
      t.resultForMovie movie (if movie.status = .ambiguous then .ambiguous else .duplicate)

section

variable [UnicodeData] (parser : ArchiveParser)

/-- `self._parser.parse([message])`, as far as its first group. -/
def parsePoster (message : ArchiveMessage) : Option ParsedMovieGroup :=
  match parser.parse [message] with
  | .ok (group :: _) => some group
  | _ => none

/-! ### Boundaries and conflicts -/

/-- Revalidate the rows of a movie and then its status. -/
def revalidateMovie (t : ArchiveTables) (movie : Movie) : ArchiveTables × MovieStatus :=
  (t.revalidateAttachedQualities parser movie).refreshMovieStatus movie

/-- `_reconcile_boundary`. -/
def reconcileBoundary (t : ArchiveTables) (channelId : ℤ) (messageId : ℕ) : ArchiveTables :=
  match t.movieBefore? channelId messageId with
  | none => t
  | some movie => (t.revalidateMovie parser movie).1

/-- `_invalidate_snapshot_conflict`. -/
def invalidateSnapshotConflict (t : ArchiveTables) (channelId : ℤ) (messageId : ℕ) :
    ArchiveTables :=
  match t.posterMovie? channelId messageId with
  | some movie => t.updateMovie movie.id fun m =>
      { m with parserConfidence := 0, status := .ambiguous }
  | none =>
      match t.attachedQuality? channelId messageId, t.attachedMovie? channelId messageId with
      | some row, some movie =>
          (t.updateQuality row.id fun r => { r with parserConfidence := 0 }).updateMovie movie.id
            fun m => { m with status := .ambiguous }
      | _, _ => t.reconcileBoundary parser channelId messageId

/-! ### Snapshots -/

/-- The row a first observation adds; `conflicted` and `version` are the server's defaults. -/
def newSnapshot (channelId : ℤ) (message : ArchiveMessage) : ArchiveMessageSnapshot where
  archiveChannelId := channelId
  messageId := message.messageId
  mediaKind := message.mediaKind
  caption := message.caption
  editedAt := message.editedAt
  conflicted := false
  version := 1
  messageId_pos := message.messageId_pos

/-- Write to the snapshot of one message. -/
def updateSnapshot (t : ArchiveTables) (channelId : ℤ) (messageId : ℕ)
    (f : ArchiveMessageSnapshot → ArchiveMessageSnapshot)
    (hf : ∀ s, (f s).key = s.key := by intro _; rfl) : ArchiveTables :=
  { t with snapshots := t.snapshots.modifyAt (toLex (channelId, messageId)) f hf }

/-- The newer content of a message replaces the recorded one. -/
def overwriteSnapshot (t : ArchiveTables) (channelId : ℤ) (message : ArchiveMessage) :
    ArchiveTables :=
  t.updateSnapshot channelId message.messageId fun s =>
    { s with
      conflicted := false
      version := s.version + 1
      mediaKind := message.mediaKind
      caption := message.caption
      editedAt := message.editedAt }

/-- `_record_snapshot`: the tables, and whether the message is to be indexed. -/
def recordSnapshot (t : ArchiveTables) (channelId : ℤ) (message : ArchiveMessage)
    (reconcile : Bool) (expectedVersion : Option ℕ) : ArchiveTables × Bool :=
  let snapshot := t.snapshot? channelId message.messageId
  if expectedVersion.any fun v => v ≠ (snapshot.map ArchiveMessageSnapshot.version).getD 0 then
    (t, false)
  else
    match snapshot with
    | none => ({ t with snapshots := t.snapshots.insert (newSnapshot channelId message) }, true)
    | some s =>
        if !reconcile then (t, false)
        else
          match s.editedAt with
          | none => (t.overwriteSnapshot channelId message, true)
          | some recorded =>
              match message.editedAt with
              | none => (t, false)
              | some edited =>
                  if edited < recorded then (t, false)
                  else if edited = recorded && expectedVersion.isNone then
                    -- Telegram gives whole seconds: other content in the same second is a conflict
                    if (message.mediaKind, message.caption) ≠ (s.mediaKind, s.caption) then
                      let t := t.updateSnapshot channelId message.messageId fun s =>
                        { s with version := s.version + 1, conflicted := true }
                      (t.invalidateSnapshotConflict parser channelId message.messageId, false)
                    else (t, false)
                  else (t.overwriteSnapshot channelId message, true)

/-! ### Edits of indexed messages -/

/-- `_reconcile_poster_edit`, where the message is no poster any more. -/
def invalidatePoster (t : ArchiveTables) (movie : Movie) (message : ArchiveMessage) :
    ArchiveTables :=
  t.updateMovie movie.id fun m =>
    { m with
      status := .ambiguous, rawPosterCaption := message.caption.getD [], parserConfidence := 0 }

/-- The poster columns of a movie. -/
def setPoster (group : ParsedMovieGroup) (movie : Movie) : Movie :=
  { movie with
    displayTitle := group.displayTitle
    normalizedTitle := group.normalizedTitle
    year := group.year
    parserStyle := group.parserStyle
    rawPosterCaption := group.rawPosterCaption
    parserConfidence := group.posterConfidence }

/-- `_reconcile_poster_edit`. -/
def reconcilePosterEdit (t : ArchiveTables) (movie : Movie) (message : ArchiveMessage) :
    ArchiveTables × ArchiveIndexResult :=
  if message.mediaKind ≠ .photo then
    let t := t.invalidatePoster movie message
    (t, t.resultForMovie movie .ambiguous (some .editedPosterMediaInvalid))
  else
    match parsePoster parser message with
    | none =>
        let t := t.invalidatePoster movie message
        (t, t.resultForMovie movie .ambiguous (some .editedPosterInvalid))
    | some group =>
        let t := t.updateMovie movie.id (setPoster group)
        let movie := setPoster group movie
        let (t, status) := t.revalidateMovie parser movie
        (t, t.resultForMovie movie
          (if status = .ambiguous then .ambiguous else .posterUpserted)
          (if status = .ambiguous then some .editedPosterValidButQualityRemainsInvalid else none))

/-- `_invalidate_quality_edit`. -/
def invalidateQualityEdit (t : ArchiveTables) (movie : Movie) (row : MovieQuality)
    (message : ArchiveMessage) (diagnostic : IndexDiagnostic) :
    ArchiveTables × ArchiveIndexResult :=
  let t := t.updateQuality row.id fun r =>
    { r with
      rawCaption := message.caption.getD []
      extractedTitle := none
      normalizedTitle := none
      extractedYear := none
      parserConfidence := 0 }
  let t := t.updateMovie movie.id fun m => { m with status := .ambiguous }
  (t, t.resultForMovie movie .ambiguous (some diagnostic))

/-- The columns of a quality row. -/
def setQualityColumns (parsed : ParsedQuality) (row : MovieQuality) : MovieQuality :=
  { row with
    quality := parsed.quality
    rawCaption := parsed.rawCaption
    extractedTitle := parsed.rawTitle
    normalizedTitle := parsed.normalizedTitle
    extractedYear := parsed.year
    parserConfidence := parsed.confidence }

/-- The entry of a group for one message. -/
def groupQuality? (group : Option ParsedMovieGroup) (messageId : ℕ) : Option ParsedQuality :=
  group.bind fun group => group.qualities.find? fun item => item.messageId = messageId

/-- `_reconcile_quality_edit`. -/
def reconcileQualityEdit (t : ArchiveTables) (movie : Movie) (row : MovieQuality)
    (message : ArchiveMessage) : ArchiveTables × ArchiveIndexResult :=
  if message.mediaKind ≠ .video && message.mediaKind ≠ .document then
    t.invalidateQualityEdit movie row message .editedQualityMediaInvalid
  else
    match groupQuality? (t.parseMovieGroup parser movie (some message.messageId))
        message.messageId with
    | none => t.invalidateQualityEdit movie row message .editedQualityAmbiguous
    | some parsed =>
        if parsed.quality ≠ row.quality && (t.qualities.rows.any fun other =>
            other.movieId = movie.id && other.quality = parsed.quality && other.id ≠ row.id) then
          let t := t.updateQuality row.id fun r =>
            { r with rawCaption := message.caption.getD [], parserConfidence := 0 }
          let t := t.updateMovie movie.id fun m => { m with status := .ambiguous }
          (t, t.resultForMovie movie .ambiguous (some .editedQualityConflictsWithExistingQuality))
        else
          let t := t.updateQuality row.id (setQualityColumns parsed)
          let (t, status) := t.revalidateMovie parser movie
          (t, t.resultForMovie movie
            (if status = .ambiguous then .ambiguous else .qualityUpserted)
            (some (if status = .ambiguous then .editedQualityReconciledButMovieRemainsAmbiguous
              else .editedQualityReconciled)))

/-! ### New posters and qualities -/

/-- A pending movie is decided when the next poster arrives. -/
def closePending (t : ArchiveTables) (previous : Movie) : ArchiveTables :=
  if previous.status = .pending then
    t.updateMovie previous.id fun m =>
      { m with status := if t.qualityCount previous.id = 0 then .orphan else .indexed }
  else t

/-- The row a new poster adds. -/
def newMovie (id : ℕ) (channelId : ℤ) (group : ParsedMovieGroup) : Movie where
  id
  archiveChannelId := channelId
  posterMessageId := group.posterMessageId
  displayTitle := group.displayTitle
  normalizedTitle := group.normalizedTitle
  year := group.year
  parserStyle := group.parserStyle
  status := .pending
  rawPosterCaption := group.rawPosterCaption
  parserConfidence := group.posterConfidence
  ownerNotificationMessageId := none
  ownerNotificationQualityCount := 0

/-- `_upsert_poster`. -/
def upsertPoster (t : ArchiveTables) (channelId : ℤ) (group : ParsedMovieGroup) :
    ArchiveTables × ArchiveIndexResult :=
  let previous := t.movieBefore? channelId group.posterMessageId
  let t := match previous with
    | some previous => t.closePending previous
    | none => t
  if (t.posterMovie? channelId group.posterMessageId).isSome then
    (t, t.duplicateResult channelId group.posterMessageId)
  else
    let movie := newMovie t.movies.freshKey channelId group
    let t := { t with movies := t.movies.insert movie }
    let t := match previous with
      | some previous => (t.revalidateMovie parser previous).1
      | none => t
    (t, t.resultForMovie movie .posterUpserted)

/-- The row an accepted candidate adds. -/
def newQuality (id movieId : ℕ) (channelId : ℤ) (parsed : ParsedQuality) : MovieQuality where
  id
  movieId
  archiveChannelId := channelId
  archiveMessageId := parsed.messageId
  quality := parsed.quality
  rawCaption := parsed.rawCaption
  extractedTitle := parsed.rawTitle
  normalizedTitle := parsed.normalizedTitle
  extractedYear := parsed.year
  parserConfidence := parsed.confidence

/-- `ON CONFLICT (movie_id, quality) DO UPDATE ... WHERE` the new message is newer: the tables, and
whether a row was written. -/
def upsertQualityRow (t : ArchiveTables) (movieId : ℕ) (channelId : ℤ) (parsed : ParsedQuality) :
    ArchiveTables × Bool :=
  match t.qualities.rows.find? fun row => row.movieId = movieId && row.quality = parsed.quality with
  | none =>
      let row := newQuality t.qualities.freshKey movieId channelId parsed
      ({ t with qualities := t.qualities.insert row }, true)
  | some row =>
      if row.archiveMessageId < parsed.messageId then
        (t.updateQuality row.id fun r =>
          { r with
            archiveChannelId := channelId
            archiveMessageId := parsed.messageId
            rawCaption := parsed.rawCaption
            extractedTitle := parsed.rawTitle
            normalizedTitle := parsed.normalizedTitle
            extractedYear := parsed.year
            parserConfidence := parsed.confidence }, true)
      else (t, false)

/-- The diagnostic `ambiguous_quality:{message_id}:` is among those the group keeps. -/
def isAmbiguousCandidate (group : ParsedMovieGroup) (messageId : ℕ) : Bool :=
  group.diagnostics.any fun
    | .ambiguousQuality id _ => id = messageId
    | _ => false

/-- `_upsert_quality`. -/
def upsertQuality (t : ArchiveTables) (channelId : ℤ) (message : ArchiveMessage) :
    Except DbError (ArchiveTables × ArchiveIndexResult) :=
  match t.movieBefore? channelId message.messageId with
  | none => .ok (t, ignored)
  | some movie =>
      match t.parseMovieGroup parser movie (some message.messageId) with
      | none => .ok (t, ignored)
      | some group =>
          match group.qualities.find? fun item => item.messageId = message.messageId with
          | none =>
              let ambiguous := isAmbiguousCandidate group message.messageId
              .ok (t, t.resultForMovie movie (if ambiguous then .ambiguous else .ignored)
                (if ambiguous then some .qualityCandidateAmbiguous else none))
          | some parsed =>
              if !(newQuality 0 movie.id channelId parsed).fits then .error .dataError
              else
                let (t, changed) := t.upsertQualityRow movie.id channelId parsed
                let (t, status) := t.revalidateMovie parser movie
                .ok (t, t.resultForMovie movie
                  (if status = .ambiguous then .ambiguous
                    else if changed then .qualityUpserted else .duplicate)
                  (if status = .ambiguous then some .qualitySavedButMovieHasInvalidArchiveMetadata
                    else none))

/-! ### The two entry points -/

/-- What `ingest` and `reconcile_edit` do with a recorded message that is not indexed yet. -/
def indexMessage (t : ArchiveTables) (channelId : ℤ) (message : ArchiveMessage) :
    Except DbError (ArchiveTables × ArchiveIndexResult) :=
  match message.mediaKind with
  | .photo =>
      match parsePoster parser message with
      | none => .ok (t.reconcileBoundary parser channelId message.messageId, ignored)
      | some group => .ok (t.upsertPoster parser channelId group)
  | .video | .document =>
      match extractQuality (message.caption.getD []) with
      | none => .ok (t.reconcileBoundary parser channelId message.messageId, ignored)
      | some _ => t.upsertQuality parser channelId message
  | .other => .ok (t.reconcileBoundary parser channelId message.messageId, ignored)

/-- What `reconcile_edit` does with a recorded message. -/
def reconcileMessage (t : ArchiveTables) (channelId : ℤ) (message : ArchiveMessage) :
    Except DbError (ArchiveTables × ArchiveIndexResult) :=
  match t.posterMovie? channelId message.messageId with
  | some movie => .ok (t.reconcilePosterEdit parser movie message)
  | none =>
      match t.attachedQuality? channelId message.messageId,
          t.attachedMovie? channelId message.messageId with
      | some row, some movie => .ok (t.reconcileQualityEdit parser movie row message)
      | _, _ => t.indexMessage parser channelId message

/-- The frame of both transactions: the configured channel, the snapshot, the index, the commit. -/
def indexTransaction (configured : Option SettingValue) (t : ArchiveTables) (channelId : ℤ)
    (message : ArchiveMessage) (reconcile : Bool) (expectedVersion : Option ℕ)
    (index : ArchiveTables → Except DbError (ArchiveTables × ArchiveIndexResult)) :
    Except DbError (ArchiveTables × ArchiveIndexResult) :=
  match getInt configured with
  | .error error => .error error
  | .ok configuredId =>
      if configuredId ≠ some channelId then .ok (t, ignored)
      else if bigintMax < message.messageId then .error .dataError
      else
        let (t, recorded) := t.recordSnapshot parser channelId message reconcile expectedVersion
        if recorded then
          match index t with
          | .error error => .error error
          | .ok (t, result) => t.commit result
        else t.commit (t.duplicateResult channelId message.messageId)

/-- `ingest`. -/
def ingest (configured : Option SettingValue) (t : ArchiveTables) (channelId : ℤ)
    (message : ArchiveMessage) : Except DbError (ArchiveTables × ArchiveIndexResult) :=
  indexTransaction parser configured t channelId message false none fun t =>
    t.indexMessage parser channelId message

/-- `reconcile_edit`. -/
def reconcileEdit (configured : Option SettingValue) (t : ArchiveTables) (channelId : ℤ)
    (message : ArchiveMessage) (expectedSnapshotVersion : Option ℕ) :
    Except DbError (ArchiveTables × ArchiveIndexResult) :=
  indexTransaction parser configured t channelId message true expectedSnapshotVersion fun t =>
    t.reconcileMessage parser channelId message

/-- `snapshot_versions` for one message. -/
def snapshotVersion (t : ArchiveTables) (channelId : ℤ) (messageId : ℕ) : ℕ :=
  ((t.snapshot? channelId messageId).map ArchiveMessageSnapshot.version).getD 0

end

end ArchiveTables

end CineGate

/-
**The archive tables and the queries of the indexer.**

The three tables that `services/archive_indexer.py` works on, its range queries, the columns and
unique constraints that a transaction has to meet when it commits, and the two row updates that its
paths share: `_revalidate_attached_qualities` and `_refresh_movie_status`.

The snapshots of a movie are the recorded messages from its poster up to the next poster of the
channel.  `parseMovieGroup` runs the parser over them, up to the first conflicted one.

* `ArchiveTables` — the tables; each keeps its rows in primary-key order, so that
  `ORDER BY message_id` is the order of the rows;
* `ArchiveTables.commit` — columns and unique constraints;
* `ArchiveTables.nextPoster`, `ArchiveTables.movieBefore?`, `ArchiveTables.movieMessages` — ranges;
* `ArchiveTables.parseMovieGroup`, `ArchiveTables.revalidateAttachedQualities`,
  `ArchiveTables.refreshMovieStatus`.
-/

import CineGate.ArchiveParser
import Mathlib.Data.List.MinMax

set_option relaxedAutoImplicit false
set_option autoImplicit false

namespace CineGate

structure ArchiveTables where
  snapshots : KeyedTable ArchiveMessageSnapshot ArchiveMessageSnapshot.key
  movies : KeyedTable Movie Movie.id
  qualities : KeyedTable MovieQuality MovieQuality.id

/-! ### Columns and constraints

Everything in these rows comes from Telegram.  Its channel ids fit `bigint`, and it delivers no text
with a NUL, the one character that PostgreSQL refuses to store; so neither is asked of a row. -/

/-- The columns of `archive_message_snapshots` hold the row. -/
def ArchiveMessageSnapshot.fits (s : ArchiveMessageSnapshot) : Bool :=
  s.messageId ≤ bigintMax && s.version ≤ integerMax

/-- The columns of `movies` hold the row. -/
def Movie.fits (movie : Movie) : Bool :=
  movie.posterMessageId ≤ bigintMax && movie.displayTitle.length ≤ 512 &&
    movie.normalizedTitle.length ≤ 512 && movie.year.all (· ≤ smallintMax) &&
    movie.parserConfidence ≤ 100

/-- The columns of `movie_qualities` hold the row. -/
def MovieQuality.fits (row : MovieQuality) : Bool :=
  row.archiveMessageId ≤ bigintMax && row.extractedTitle.all (·.length ≤ 512) &&
    row.normalizedTitle.all (·.length ≤ 512) && row.extractedYear.all (· ≤ smallintMax) &&
    row.parserConfidence ≤ 100

/-- A message as the parser sees its snapshot: a conflicted one is of kind `other`. -/
def ArchiveMessageSnapshot.message (s : ArchiveMessageSnapshot) : ArchiveMessage where
  messageId := s.messageId
  mediaKind := if s.conflicted then .other else s.mediaKind
  caption := s.caption
  editedAt := s.editedAt
  messageId_pos := s.messageId_pos

namespace ArchiveTables

def empty : ArchiveTables := ⟨.empty, .empty, .empty⟩

/-- Every row fits the columns of its table. -/
def fitsColumns (t : ArchiveTables) : Bool :=
  t.snapshots.rows.all ArchiveMessageSnapshot.fits && t.movies.rows.all Movie.fits &&
    t.qualities.rows.all MovieQuality.fits

/-- `uq_movies_archive_poster`. -/
def uqMoviesArchivePoster (t : ArchiveTables) : Bool :=
  (t.movies.rows.map fun movie => (movie.archiveChannelId, movie.posterMessageId)).Nodup

/-- `uq_movie_qualities_archive_message`. -/
def uqMovieQualitiesArchiveMessage (t : ArchiveTables) : Bool :=
  (t.qualities.rows.map fun row => (row.archiveChannelId, row.archiveMessageId)).Nodup

/-- `uq_movie_qualities_movie_quality`. -/
def uqMovieQualitiesMovieQuality (t : ArchiveTables) : Bool :=
  (t.qualities.rows.map fun row => (row.movieId, row.quality)).Nodup

/-- The end of a transaction: rows that do not fit or that repeat a unique key undo it. -/
def commit {α : Type} (t : ArchiveTables) (result : α) : Except DbError (ArchiveTables × α) :=
  if !t.fitsColumns then .error .dataError
  else if t.uqMoviesArchivePoster && t.uqMovieQualitiesArchiveMessage &&
      t.uqMovieQualitiesMovieQuality
  then .ok (t, result)
  else .error .uniqueViolation

/-! ### Queries -/

/-- `session.get(ArchiveMessageSnapshot, (channel_id, message_id))`. -/
def snapshot? (t : ArchiveTables) (channelId : ℤ) (messageId : ℕ) : Option ArchiveMessageSnapshot :=
  t.snapshots.find? (toLex (channelId, messageId))

/-- The movie whose poster is the message. -/
def posterMovie? (t : ArchiveTables) (channelId : ℤ) (messageId : ℕ) : Option Movie :=
  t.movies.rows.find? fun movie =>
    movie.archiveChannelId = channelId && movie.posterMessageId = messageId

/-- The quality row the message is attached to. -/
def attachedQuality? (t : ArchiveTables) (channelId : ℤ) (messageId : ℕ) : Option MovieQuality :=
  t.qualities.rows.find? fun row =>
    row.archiveChannelId = channelId && row.archiveMessageId = messageId

/-- The movie joined with the quality row the message is attached to. -/
def attachedMovie? (t : ArchiveTables) (channelId : ℤ) (messageId : ℕ) : Option Movie :=
  (t.attachedQuality? channelId messageId).bind fun row => t.movies.find? row.movieId

/-- The last movie whose poster precedes the message. -/
def movieBefore? (t : ArchiveTables) (channelId : ℤ) (messageId : ℕ) : Option Movie :=
  (t.movies.rows.filter fun movie =>
    movie.archiveChannelId = channelId && movie.posterMessageId < messageId).argmax
      Movie.posterMessageId

/-- The rows of a movie. -/
def movieQualities (t : ArchiveTables) (movieId : ℕ) : List MovieQuality :=
  t.qualities.rows.filter fun row => row.movieId = movieId

/-- `_quality_count`. -/
def qualityCount (t : ArchiveTables) (movieId : ℕ) : ℕ := (t.movieQualities movieId).length

/-- The poster after the movie's own, in its channel. -/
def nextPoster (t : ArchiveTables) (movie : Movie) : Option ℕ :=
  ((t.movies.rows.filter fun other => other.archiveChannelId = movie.archiveChannelId &&
    movie.posterMessageId < other.posterMessageId).map Movie.posterMessageId).min?

/-- The snapshots of the channel from the movie's poster up to `stop`, in message order. -/
def snapshotsUpTo (t : ArchiveTables) (movie : Movie) (stop : ℕ) : List ArchiveMessageSnapshot :=
  t.snapshots.rows.filter fun s => s.archiveChannelId = movie.archiveChannelId &&
    movie.posterMessageId ≤ s.messageId && s.messageId < stop

/-- The end of the movie's range: the next poster, or the largest `BIGINT`. -/
def rangeStop (t : ArchiveTables) (movie : Movie) : ℕ := (t.nextPoster movie).getD bigintMax

/-- The first conflicted snapshot of the movie's range. -/
def firstConflict (t : ArchiveTables) (movie : Movie) : Option ℕ :=
  (((t.snapshotsUpTo movie (t.rangeStop movie)).filter fun s => s.conflicted).map
    ArchiveMessageSnapshot.messageId).min?

/-- The messages `_parse_movie_group` hands to the parser. -/
def movieMessages (t : ArchiveTables) (movie : Movie) (through : Option ℕ) : List ArchiveMessage :=
  ((t.snapshotsUpTo movie (min (t.rangeStop movie) ((t.firstConflict movie).getD bigintMax))).filter
    fun s => through.all (s.messageId ≤ ·)).map ArchiveMessageSnapshot.message

/-! ### Row updates -/

/-- Write to the row of one movie. -/
def updateMovie (t : ArchiveTables) (movieId : ℕ) (f : Movie → Movie)
    (hf : ∀ movie, (f movie).id = movie.id := by intro _; rfl) : ArchiveTables :=
  { t with movies := t.movies.modifyAt movieId f hf }

/-- Write to one quality row. -/
def updateQuality (t : ArchiveTables) (rowId : ℕ) (f : MovieQuality → MovieQuality)
    (hf : ∀ row, (f row).id = row.id := by intro _; rfl) : ArchiveTables :=
  { t with qualities := t.qualities.modifyAt rowId f hf }

section

variable [UnicodeData] (parser : ArchiveParser)

/-- `_parse_movie_group`: the first group of the movie's messages, when it is the movie's own.  The
messages are in ascending order, so the generator does not raise. -/
def parseMovieGroup (t : ArchiveTables) (movie : Movie) (through : Option ℕ) :
    Option ParsedMovieGroup :=
  if movie.parserConfidence = 0 then none
  else
    match (parser.iterGroups (some 32) (t.movieMessages movie through)).next with
    | .ok (some group) =>
        if group.posterMessageId = movie.posterMessageId then some group else none
    | _ => none

/-- The update of one attached row, given what the parser accepts. -/
def revalidateRow (accepted : List ParsedQuality) (row : MovieQuality) : MovieQuality :=
  match accepted.find? fun item => item.messageId = row.archiveMessageId with
  | none => { row with parserConfidence := 0 }
  | some parsed =>
      if parsed.quality = row.quality then
        { row with
          parserConfidence := parsed.confidence
          extractedTitle := parsed.rawTitle
          normalizedTitle := parsed.normalizedTitle
          extractedYear := parsed.year }
      else { row with parserConfidence := 0 }

/-- What the parser accepts for the movie. -/
def acceptedQualities (t : ArchiveTables) (movie : Movie) : List ParsedQuality :=
  ((t.parseMovieGroup parser movie none).map ParsedMovieGroup.qualities).getD []

/-- `_revalidate_attached_qualities`. -/
def revalidateAttachedQualities (t : ArchiveTables) (movie : Movie) : ArchiveTables :=
  { t with
    qualities := t.qualities.modify
      (fun row => if row.movieId = movie.id then
        revalidateRow (t.acceptedQualities parser movie) row else row)
      (by intro row; unfold revalidateRow; repeat' split
          all_goals rfl) }

/-- The status `_refresh_movie_status` gives a movie. -/
def freshStatus (t : ArchiveTables) (movie : Movie) : MovieStatus :=
  let rows := t.movieQualities movie.id
  let conflict := (t.snapshotsUpTo movie (t.rangeStop movie)).any fun s => s.conflicted
  if movie.parserConfidence = 0 || (rows.any fun row => row.parserConfidence = 0) || conflict then
    .ambiguous
  else if !rows.isEmpty then .indexed
  else .orphan

/-- `_refresh_movie_status`. -/
def refreshMovieStatus (t : ArchiveTables) (movie : Movie) : ArchiveTables × MovieStatus :=
  let status := t.freshStatus movie
  (t.updateMovie movie.id fun m => { m with status }, status)

end

end ArchiveTables

end CineGate

/-
**The domain values of the service and the rows of its tables.**

The values of `domain/archive.py`, `domain/indexing.py`, `domain/rewards.py`, `domain/delivery.py`,
and the columns of `db/models.py` and `db/archive_models.py` that the modelled services read or
write.  A status column with a check constraint is an inductive type.  A datetime is the number of
microseconds since the epoch, and a `str` is the list of its code points.
-/

import Mathlib.Data.Int.Order.Basic
import CineGate.KeyedTable
import Mathlib.Data.Prod.Lex

set_option relaxedAutoImplicit false
set_option autoImplicit false

namespace CineGate

/-- A Python `str`. -/
abbrev Str := List Char

instance : LawfulBEq Str := inferInstance

/-- A datetime, in microseconds. -/
abbrev Instant := ℤ

instance : Preorder Instant := Int.instLinearOrder.toPreorder

/-- `timedelta(seconds=n)`. -/
def seconds (n : ℤ) : Instant := n * 1000000

/-- The two clocks a transaction reads: `_utcnow()` in Python and `now()` in PostgreSQL. -/
structure Clock where
  utcnow : Instant
  now : Instant
deriving DecidableEq, Repr

/-- The largest `BIGINT`, which the range queries of the indexer also use for "no upper end". -/
def bigintMax : ℕ := 9223372036854775807

/-- The largest `INTEGER`. -/
def integerMax : ℕ := 2147483647

/-- The largest `SMALLINT`. -/
def smallintMax : ℕ := 32767

/-- What the database refuses: a value that does not fit its column, or a duplicate key. -/
inductive DbError
  | dataError
  | uniqueViolation
  | typeError
deriving DecidableEq, Repr

/-! ### Archive messages -/

inductive MediaKind
  | photo
  | video
  | document
  | other
deriving DecidableEq, Repr

inductive ParserStyle
  | modern
  | legacy
deriving DecidableEq, Repr

inductive GroupStatus
  | indexed
  | orphan
  | ambiguous
deriving DecidableEq, Repr

/-- The resolutions `_QUALITY_RE` recognises. -/
inductive Resolution
  | p2160
  | p1080
  | p720
  | p480
  | k4
deriving DecidableEq, Repr

/-- The column value of a resolution. -/
def Resolution.label : Resolution → Str
  | p2160 => "2160p".toList
  | p1080 => "1080p".toList
  | p720 => "720p".toList
  | p480 => "480p".toList
  | k4 => "4k".toList

theorem Resolution.label_injective : Function.Injective Resolution.label := by
  intro q r h
  cases q <;> cases r <;> first | rfl | exact absurd h (by decide)

/-- `ArchiveMessage`; `__post_init__` refuses a message id that is not positive. -/
structure ArchiveMessage where
  messageId : ℕ
  mediaKind : MediaKind
  caption : Option Str := none
  editedAt : Option Instant := none
  messageId_pos : 0 < messageId := by decide
deriving DecidableEq, Repr

structure ParsedQuality where
  messageId : ℕ
  quality : Resolution
  rawCaption : Str
  rawTitle : Option Str
  normalizedTitle : Option Str
  year : Option ℕ
  confidence : ℕ
deriving DecidableEq, Repr

/-- The diagnostics of a group, with the values their texts show. -/
inductive Diagnostic
  | duplicateQualityReplaced (quality : Resolution) (previousId messageId : ℕ)
  | duplicateQualityIgnored (quality : Resolution) (messageId : ℕ)
  | ambiguousQuality (messageId score : ℕ)
  | rejectedQuality (messageId score : ℕ)
deriving DecidableEq, Repr

structure ParsedMovieGroup where
  posterMessageId : ℕ
  rawPosterCaption : Str
  rawTitle : Str
  displayTitle : Str
  normalizedTitle : Str
  year : Option ℕ
  parserStyle : ParserStyle
  status : GroupStatus
  posterConfidence : ℕ
  qualities : List ParsedQuality
  diagnostics : List Diagnostic
deriving DecidableEq, Repr

/-! ### Archive tables -/

/-- A row of `archive_message_snapshots`. -/
structure ArchiveMessageSnapshot where
  archiveChannelId : ℤ
  messageId : ℕ
  mediaKind : MediaKind
  caption : Option Str
  editedAt : Option Instant
  conflicted : Bool
  version : ℕ
  messageId_pos : 0 < messageId
deriving DecidableEq, Repr

/-- The primary key of a snapshot. -/
def ArchiveMessageSnapshot.key (s : ArchiveMessageSnapshot) : ℤ ×ₗ ℕ :=
  toLex (s.archiveChannelId, s.messageId)

inductive MovieStatus
  | pending
  | indexed
  | orphan
  | ambiguous
deriving DecidableEq, Repr

/-- A row of `movies`. -/
structure Movie where
  id : ℕ
  archiveChannelId : ℤ
  posterMessageId : ℕ
  displayTitle : Str
  normalizedTitle : Str
  year : Option ℕ
  parserStyle : ParserStyle
  status : MovieStatus
  rawPosterCaption : Str
  parserConfidence : ℕ
  ownerNotificationMessageId : Option ℕ
  ownerNotificationQualityCount : ℕ
deriving DecidableEq, Repr

/-- A row of `movie_qualities`. -/
structure MovieQuality where
  id : ℕ
  movieId : ℕ
  archiveChannelId : ℤ
  archiveMessageId : ℕ
  quality : Resolution
  rawCaption : Str
  extractedTitle : Option Str
  normalizedTitle : Option Str
  extractedYear : Option ℕ
  parserConfidence : ℕ
deriving DecidableEq, Repr

inductive IndexAction
  | ignored
  | posterUpserted
  | qualityUpserted
  | duplicate
  | ambiguous
deriving DecidableEq, Repr

/-- The `diagnostic` of an `ArchiveIndexResult`. -/
inductive IndexDiagnostic
  | editedPosterMediaInvalid
  | editedPosterInvalid
  | editedPosterValidButQualityRemainsInvalid
  | editedQualityMediaInvalid
  | editedQualityAmbiguous
  | editedQualityConflictsWithExistingQuality
  | editedQualityReconciledButMovieRemainsAmbiguous
  | editedQualityReconciled
  | qualityCandidateAmbiguous
  | qualitySavedButMovieHasInvalidArchiveMetadata
deriving DecidableEq, Repr

structure ArchiveIndexResult where
  action : IndexAction
  movieId : Option ℕ := none
  displayTitle : Option Str := none
  qualityCount : ℕ := 0
  ownerNotificationMessageId : Option ℕ := none
  ownerNotificationQualityCount : ℕ := 0
  diagnostic : Option IndexDiagnostic := none
deriving DecidableEq, Repr

/-! ### Settings -/

/-- A value of `app_settings`; a JSON value that is neither an integer nor a boolean is `other`. -/
inductive SettingValue
  | int (value : ℤ)
  | bool (value : Bool)
  | other
deriving DecidableEq, Repr

/-- `SettingsRepository.get_int`: a missing key is `none`, and anything but an integer raises. -/
def getInt : Option SettingValue → Except DbError (Option ℤ)
  | none => .ok none
  | some (.int value) => .ok (some value)
  | some _ => .error .typeError

/-- The rows of `app_settings` the modelled services read. -/
structure Settings where
  archiveChannelId : Option SettingValue := none
  rewardSessionSeconds : Option SettingValue := none
  movieDeleteSeconds : Option SettingValue := none
deriving DecidableEq, Repr

/-! ### Rewards and deliveries -/

inductive RewardStatus
  | pending
  | clientCompleted
  | providerConfirmed
  | rewarded
  | delivering
  | delivered
  | expired
  | unavailable
deriving DecidableEq, Repr

/-- The reasons `availability_reason` gives, and the one of a source message that is gone. -/
inductive UnavailableReason
  | archiveBindingMissing
  | archiveBindingChanged
  | archiveMovieUnsafe
  | archiveQualityUnsafe
  | archiveSourceMissing
deriving DecidableEq, Repr

/-- A row of `reward_sessions`.  The UUID is a number that its creator picks. -/
structure RewardSession where
  id : ℕ
  telegramUserId : ℤ
  movieId : ℕ
  movieQualityId : ℕ
  quality : Resolution
  status : RewardStatus
  promptMessageId : Option ℕ
  promptClaimedAt : Option Instant
  createdAt : Instant
  expiresAt : Instant
  clientCompletedAt : Option Instant
  providerConfirmedAt : Option Instant
  rewardedAt : Option Instant
  unavailableAt : Option Instant
  unavailableReason : Option UnavailableReason
  deliveryStartedAt : Option Instant
  deliveredAt : Option Instant
deriving DecidableEq, Repr

inductive DeliveryStatus
  | pending
  | sending
  | sent
  | deleting
  | deleted
  | deleteFailed
deriving DecidableEq, Repr

/-- A row of `deliveries`. -/
structure Delivery where
  id : ℕ
  rewardSessionId : ℕ
  telegramUserId : ℤ
  movieQualityId : ℕ
  status : DeliveryStatus
  telegramMessageId : Option ℕ
  sendStartedAt : Option Instant
  sentAt : Option Instant
  deleteAt : Option Instant
  nextAttemptAt : Option Instant
  deleteStartedAt : Option Instant
  deletedAt : Option Instant
  attempts : ℕ
  lastError : Option Str
deriving DecidableEq, Repr

end CineGate

/-
**The reward-session service.**

`services/reward_sessions.py` and `services/reward_availability.py`: the transactions that create a
reward session for an exact user, movie and quality row, record the two proofs that the ad was
watched, and hand out the ad prompt.  A transaction that raises is rolled back, so it returns no
database; in particular the expiry that `_require_current` writes before it raises is lost with it.

* `Db` — the rows these services and the delivery service work on;
* `getOrCreate`, `get`, `claimPrompt`, `completePrompt`, `resetPromptClaim`,
  `markClientCompleted`, `markProviderConfirmed` — the transactions;
* `availabilityReason`, `preserveUnavailable` — a bound archive row that cannot be delivered.
-/

import CineGate.ArchiveIndexer

set_option relaxedAutoImplicit false
set_option autoImplicit false

namespace CineGate

/-- The database, as far as archive, rewards and deliveries go. -/
structure Db where
  settings : Settings
  archive : ArchiveTables
  rewardSessions : KeyedTable RewardSession RewardSession.id
  deliveries : KeyedTable Delivery Delivery.id

structure RewardSessionView where
  id : ℕ
  telegramUserId : ℤ
  movieId : ℕ
  movieQualityId : ℕ
  quality : Resolution
  status : RewardStatus
  expiresAt : Instant
  promptMessageId : Option ℕ
  clientCompletedAt : Option Instant
  providerConfirmedAt : Option Instant
deriving DecidableEq, Repr

/-- `RewardSessionView.is_rewarded`. -/
def RewardSessionView.isRewarded (view : RewardSessionView) : Bool :=
  view.status ∈ [.rewarded, .unavailable, .delivering, .delivered]

inductive RewardError
  | sessionNotFound
  | sessionExpired
  | userMismatch
  | qualityUnavailable
  | activeRewardConflict (session : RewardSessionView)
  | database (error : DbError)
deriving DecidableEq, Repr

/-! ### Statuses -/

/-- `_ACTIVE_STATUSES`. -/
def activeStatuses : List RewardStatus :=
  [.pending, .clientCompleted, .providerConfirmed, .rewarded, .delivering]

/-- `_EXPIRABLE_STATUSES`. -/
def expirableStatuses : List RewardStatus := [.pending, .clientCompleted, .providerConfirmed]

namespace RewardSession

/-- The predicate of `uq_reward_sessions_active_user`. -/
def isActive (reward : RewardSession) : Bool :=
  reward.status ∈ activeStatuses && reward.unavailableAt.isNone

/-- The rows that `UPDATE ... SET status = 'expired'` selects, user apart. -/
def isOverdue (reward : RewardSession) (now : Instant) : Bool :=
  reward.status ∈ expirableStatuses && reward.expiresAt ≤ now

/-- `_view`. -/
def view (reward : RewardSession) : RewardSessionView where
  id := reward.id
  telegramUserId := reward.telegramUserId
  movieId := reward.movieId
  movieQualityId := reward.movieQualityId
  quality := reward.quality
  status := reward.status
  expiresAt := reward.expiresAt
  promptMessageId := reward.promptMessageId
  clientCompletedAt := reward.clientCompletedAt
  providerConfirmedAt := reward.providerConfirmedAt

/-- `preserve_unavailable`. -/
def preserveUnavailable (reason : UnavailableReason) (now : Instant) (reward : RewardSession) :
    RewardSession :=
  { reward with
    status := .unavailable
    unavailableAt := reward.unavailableAt.or (some now)
    unavailableReason := some reason
    deliveryStartedAt := none }

/-- `_refresh_reward_status`. -/
def refreshStatus (now : Instant) (reward : RewardSession) : RewardSession :=
  if reward.status ∈ [RewardStatus.unavailable, .delivering, .delivered] then reward
  else
    match reward.clientCompletedAt, reward.providerConfirmedAt with
    | some _, some _ =>
        { reward with status := .rewarded, rewardedAt := reward.rewardedAt.or (some now) }
    | some _, none => { reward with status := .clientCompleted }
    | none, some _ => { reward with status := .providerConfirmed }
    | none, none => { reward with status := .pending }

/-- The client's proof: its time is written once, then the status follows. -/
def markClient (now : Instant) (reward : RewardSession) : RewardSession :=
  refreshStatus now { reward with clientCompletedAt := reward.clientCompletedAt.or (some now) }

/-- The provider's proof. -/
def markProvider (now : Instant) (reward : RewardSession) : RewardSession :=
  refreshStatus now { reward with providerConfirmedAt := reward.providerConfirmedAt.or (some now) }

/-- `UPDATE reward_sessions SET status = 'expired'` on one row. -/
def expireFor (telegramUserId : ℤ) (now : Instant) (reward : RewardSession) : RewardSession :=
  if reward.telegramUserId = telegramUserId && reward.isOverdue now then
    { reward with status := .expired }
  else reward

@[simp] theorem id_preserveUnavailable (reason : UnavailableReason) (now : Instant)
    (reward : RewardSession) : (reward.preserveUnavailable reason now).id = reward.id := rfl

@[simp] theorem id_refreshStatus (now : Instant) (reward : RewardSession) :
    (reward.refreshStatus now).id = reward.id := by
  unfold refreshStatus
  split
  · rfl
  · split <;> rfl

/-- Recomputing the status leaves the binding and the proofs. -/
@[simp] theorem telegramUserId_refreshStatus (now : Instant) (reward : RewardSession) :
    (reward.refreshStatus now).telegramUserId = reward.telegramUserId := by
  unfold refreshStatus
  split
  · rfl
  · split <;> rfl

@[simp] theorem expiresAt_refreshStatus (now : Instant) (reward : RewardSession) :
    (reward.refreshStatus now).expiresAt = reward.expiresAt := by
  unfold refreshStatus
  split
  · rfl
  · split <;> rfl

@[simp] theorem clientCompletedAt_refreshStatus (now : Instant) (reward : RewardSession) :
    (reward.refreshStatus now).clientCompletedAt = reward.clientCompletedAt := by
  unfold refreshStatus
  split
  · rfl
  · split <;> rfl

@[simp] theorem providerConfirmedAt_refreshStatus (now : Instant) (reward : RewardSession) :
    (reward.refreshStatus now).providerConfirmedAt = reward.providerConfirmedAt := by
  unfold refreshStatus
  split
  · rfl
  · split <;> rfl

@[simp] theorem id_markClient (now : Instant) (reward : RewardSession) :
    (reward.markClient now).id = reward.id := by simp [markClient]

@[simp] theorem id_markProvider (now : Instant) (reward : RewardSession) :
    (reward.markProvider now).id = reward.id := by simp [markProvider]

@[simp] theorem id_expireFor (telegramUserId : ℤ) (now : Instant) (reward : RewardSession) :
    (reward.expireFor telegramUserId now).id = reward.id := by
  unfold expireFor
  split <;> rfl

end RewardSession

/-! ### The database -/

namespace Db

/-- `uq_reward_sessions_active_user`. -/
def uqRewardSessionsActiveUser (db : Db) : Bool :=
  ((db.rewardSessions.rows.filter RewardSession.isActive).map RewardSession.telegramUserId).Nodup

/-- `uq_deliveries_reward_session`. -/
def uqDeliveriesRewardSession (db : Db) : Bool :=
  (db.deliveries.rows.map Delivery.rewardSessionId).Nodup

/-- The unique indexes hold. -/
def uniqueKeys (db : Db) : Bool := db.uqRewardSessionsActiveUser && db.uqDeliveriesRewardSession

/-- The delivery of a session. -/
def deliveryOf? (db : Db) (sessionId : ℕ) : Option Delivery :=
  db.deliveries.rows.find? fun delivery => delivery.rewardSessionId = sessionId

/-- Write to one reward session. -/
def updateReward (db : Db) (sessionId : ℕ) (f : RewardSession → RewardSession)
    (hf : ∀ reward, (f reward).id = reward.id := by intro _; first | rfl | simp) : Db :=
  { db with rewardSessions := db.rewardSessions.modifyAt sessionId f hf }

/-- Write to one delivery. -/
def updateDelivery (db : Db) (deliveryId : ℕ) (f : Delivery → Delivery)
    (hf : ∀ delivery, (f delivery).id = delivery.id := by intro _; first | rfl | simp) : Db :=
  { db with deliveries := db.deliveries.modifyAt deliveryId f hf }

/-- `UPDATE reward_sessions SET status = 'expired'` for the overdue sessions of one user. -/
def expireOverdue (db : Db) (telegramUserId : ℤ) (now : Instant) : Db :=
  { db with
    rewardSessions := db.rewardSessions.modify (RewardSession.expireFor telegramUserId now)
      (by simp) }

/-- The newest active session of a user. -/
def activeSession? (db : Db) (telegramUserId : ℤ) : Option RewardSession :=
  (db.rewardSessions.rows.filter fun reward =>
    reward.telegramUserId = telegramUserId && reward.isActive).argmax RewardSession.createdAt

/-- The oldest retained session of a user for an exact binding. -/
def retainedSession? (db : Db) (telegramUserId : ℤ) (movieId movieQualityId : ℕ) (quality : Str) :
    Option RewardSession :=
  (db.rewardSessions.rows.filter fun reward =>
    reward.telegramUserId = telegramUserId && reward.movieId = movieId &&
      reward.movieQualityId = movieQualityId && reward.quality.label = quality &&
      reward.status ∈ [RewardStatus.unavailable, .delivering] &&
      reward.unavailableAt.isSome).argmin RewardSession.createdAt

end Db

/-- The quality row `get_or_create` offers: of an indexed movie, with a positive confidence. -/
def ArchiveTables.offeredQuality? (t : ArchiveTables) (movieId : ℕ) (quality : Str) :
    Option MovieQuality :=
  t.qualities.rows.find? fun row =>
    row.movieId = movieId && row.quality.label = quality && 0 < row.parserConfidence &&
      (t.movies.find? row.movieId).any fun movie => movie.status = .indexed

/-- `availability_reason`. -/
def availabilityReason (reward : RewardSession) :
    Option Movie → Option MovieQuality → Option UnavailableReason
  | some movie, some quality =>
      if quality.movieId ≠ reward.movieId || quality.quality ≠ reward.quality then
        some .archiveBindingChanged
      else if movie.status ≠ .indexed then some .archiveMovieUnsafe
      else if quality.parserConfidence = 0 then some .archiveQualityUnsafe
      else none
  | _, _ => some .archiveBindingMissing

/-- The reason the bound rows of a session give. -/
def ArchiveTables.bindingReason (t : ArchiveTables) (reward : RewardSession) :
    Option UnavailableReason :=
  availabilityReason reward (t.movies.find? reward.movieId)
    (t.qualities.find? reward.movieQualityId)

/-- `_bounded_session_seconds`. -/
def boundedSessionSeconds : Option ℤ → ℤ
  | none => 600
  | some value => max 60 (min 3600 value)

/-- `_PROMPT_CLAIM_SECONDS`. -/
def promptClaimSeconds : ℤ := 30

/-! ### The transactions -/

/-- The result of a transaction: an error, or the database it commits and what it returns. -/
abbrev RewardTransaction (α : Type) := Except RewardError (Db × α)

/-- The end of a transaction: the unique indexes are checked. -/
def Db.commitReward {α : Type} (db : Db) (result : α) : RewardTransaction α :=
  if db.uniqueKeys then .ok (db, result) else .error (.database .uniqueViolation)

/-- The row `get_or_create` adds. -/
def newRewardSession (id : ℕ) (telegramUserId : ℤ) (movieId : ℕ) (row : MovieQuality)
    (clock : Clock) (ttl : ℤ) : RewardSession where
  id
  telegramUserId
  movieId
  movieQualityId := row.id
  quality := row.quality
  status := .pending
  promptMessageId := none
  promptClaimedAt := none
  createdAt := clock.now
  expiresAt := clock.utcnow + seconds ttl
  clientCompletedAt := none
  providerConfirmedAt := none
  rewardedAt := none
  unavailableAt := none
  unavailableReason := none
  deliveryStartedAt := none
  deliveredAt := none

/-- A rewarded session whose bound rows cannot be delivered gives up the active slot: the database
and the session that is still active. -/
def Db.releaseActive (db : Db) (active : Option RewardSession) (now : Instant) :
    Db × Option RewardSession :=
  match active with
  | some reward =>
      if reward.status = .rewarded then
        match db.archive.bindingReason reward with
        | some reason =>
            (db.updateReward reward.id (RewardSession.preserveUnavailable reason now), none)
        | none => (db, some reward)
      else (db, some reward)
  | none => (db, none)

/-- `get_or_create`.  `newId` is the UUID a new session gets. -/
def getOrCreate (db : Db) (telegramUserId : ℤ) (movieId : ℕ) (quality : Str) (newId : ℕ)
    (clock : Clock) : RewardTransaction (RewardSessionView × Bool) :=
  match db.archive.offeredQuality? movieId quality with
  | none => .error .qualityUnavailable
  | some row =>
      let db := db.expireOverdue telegramUserId clock.utcnow
      let (db, active) := db.releaseActive (db.activeSession? telegramUserId) clock.utcnow
      match db.retainedSession? telegramUserId movieId row.id quality with
      | some retained => db.commitReward (retained.view, false)
      | none =>
          match active with
          | some active =>
              if active.movieId = movieId && active.movieQualityId = row.id &&
                  active.quality.label = quality
              then db.commitReward (active.view, false)
              else .error (.activeRewardConflict active.view)
          | none =>
              match getInt db.settings.rewardSessionSeconds with
              | .error error => .error (.database error)
              | .ok ttl =>
                  let reward := newRewardSession newId telegramUserId movieId row clock
                    (boundedSessionSeconds ttl)
                  if (db.rewardSessions.find? newId).isSome then
                    .error (.database .uniqueViolation)
                  else
                    let db := { db with rewardSessions := db.rewardSessions.insert reward }
                    db.commitReward (reward.view, true)

/-- `_require_current`.  The expiry it writes is rolled back by the exception it raises. -/
def requireCurrent (reward : Option RewardSession) (now : Instant) :
    Except RewardError RewardSession :=
  match reward with
  | none => .error .sessionNotFound
  | some reward =>
      if reward.status = .expired then .error .sessionExpired
      else if reward.isOverdue now then .error .sessionExpired
      else .ok reward

/-- The frame of the transactions on one session of one user. -/
def withCurrent {α : Type} (db : Db) (sessionId : ℕ) (telegramUserId : ℤ) (now : Instant)
    (body : RewardSession → RewardTransaction α) : RewardTransaction α :=
  match requireCurrent (db.rewardSessions.find? sessionId) now with
  | .error error => .error error
  | .ok reward =>
      if reward.telegramUserId ≠ telegramUserId then .error .userMismatch else body reward

/-- `get`. -/
def get (db : Db) (sessionId : ℕ) (clock : Clock) : RewardTransaction RewardSessionView :=
  match requireCurrent (db.rewardSessions.find? sessionId) clock.utcnow with
  | .error error => .error error
  | .ok reward => .ok (db, reward.view)

/-- `claim_prompt`. -/
def claimPrompt (db : Db) (sessionId : ℕ) (telegramUserId : ℤ) (clock : Clock) :
    RewardTransaction Bool :=
  withCurrent db sessionId telegramUserId clock.utcnow fun reward =>
    if reward.promptMessageId.isSome then .ok (db, false)
    else if reward.promptClaimedAt.any fun claimedAt =>
        clock.utcnow - seconds promptClaimSeconds < claimedAt then .ok (db, false)
    else
      (db.updateReward sessionId fun r =>
        { r with promptClaimedAt := some clock.utcnow }).commitReward true

/-- `complete_prompt`. -/
def completePrompt (db : Db) (sessionId : ℕ) (telegramUserId : ℤ) (messageId : ℕ) (clock : Clock) :
    RewardTransaction Bool :=
  withCurrent db sessionId telegramUserId clock.utcnow fun reward =>
    match reward.promptMessageId with
    | some recorded => .ok (db, recorded = messageId)
    | none =>
        (db.updateReward sessionId fun r =>
          { r with promptMessageId := some messageId, promptClaimedAt := none }).commitReward true

/-- `reset_prompt_claim`. -/
def resetPromptClaim (db : Db) (sessionId : ℕ) (telegramUserId : ℤ) : RewardTransaction Unit :=
  match db.rewardSessions.find? sessionId with
  | none => .ok (db, ())
  | some reward =>
      if reward.telegramUserId ≠ telegramUserId || reward.promptMessageId.isSome then .ok (db, ())
      else (db.updateReward sessionId fun r => { r with promptClaimedAt := none }).commitReward ()

/-- `mark_client_completed`. -/
def markClientCompleted (db : Db) (sessionId : ℕ) (telegramUserId : ℤ) (clock : Clock) :
    RewardTransaction RewardSessionView :=
  withCurrent db sessionId telegramUserId clock.utcnow fun reward =>
    (db.updateReward sessionId (RewardSession.markClient clock.utcnow)).commitReward
      (reward.markClient clock.utcnow).view

/-- `mark_provider_confirmed`. -/
def markProviderConfirmed (db : Db) (telegramUserId : ℤ) (clock : Clock) :
    RewardTransaction (Option RewardSessionView) :=
  let db := db.expireOverdue telegramUserId clock.utcnow
  match db.activeSession? telegramUserId with
  | none => db.commitReward none
  | some reward =>
      (db.updateReward reward.id (RewardSession.markProvider clock.utcnow)).commitReward
        (some (reward.markProvider clock.utcnow).view)

end CineGate

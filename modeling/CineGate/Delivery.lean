/-
**The delivery service.**

`services/delivery.py`.  A delivery attempt is two transactions with the Telegram copy between them:
`prepare` claims the send, and `finalizeSent` or `resetFailedSend` completes it.  The other
transactions recover claims that were never completed, claim copies whose deletion is due, and
record what became of a deletion.

* `prepare`, `resetFailedSend`, `finalizeSent`, `recoverStaleSends` — sending;
* `claimDueDeletions`, `markDeleted`, `markDeleteFailed`, `rescheduleDelete`,
  `recoverStaleDeletions` — deleting.
-/

import CineGate.RewardSessions
import Mathlib.Algebra.Group.Int.Defs

set_option relaxedAutoImplicit false
set_option autoImplicit false

namespace CineGate

/-- A message entity; the keys other than its range are carried as they are. -/
structure MessageEntity where
  offset : ℤ
  length : ℤ
  fields : List (Str × Str)
deriving DecidableEq, Repr

structure RenderedTemplate where
  text : Str
  entities : List MessageEntity
deriving DecidableEq, Repr

/-- The replacements of the `delivery_caption` template. -/
structure CaptionReplacements where
  movie : Str
  year : Str
  quality : Str
  time : Str
deriving DecidableEq, Repr

/-- What rendering the stored caption template gives; `none` is a template error. -/
abbrev CaptionRenderer := CaptionReplacements → Option RenderedTemplate

structure PreparedDelivery where
  deliveryId : ℕ
  telegramUserId : ℤ
  archiveChannelId : ℤ
  archiveMessageId : ℕ
  caption : RenderedTemplate
  deleteSeconds : ℤ
deriving DecidableEq, Repr

/-- The status of a `DeliveryResult`. -/
inductive DeliveryResultStatus
  | delivered
  | processing
  | unavailable
  | retryable
deriving DecidableEq, Repr

structure DeliveryResult where
  status : DeliveryResultStatus
  telegramMessageId : Option ℕ := none
  deleteAt : Option Instant := none
deriving DecidableEq, Repr

structure DueDeletion where
  deliveryId : ℕ
  telegramUserId : ℤ
  telegramMessageId : ℕ
  attempts : ℕ
deriving DecidableEq, Repr

/-- What a delivery transaction raises; the first four are the texts of `RewardNotReady`. -/
inductive DeliveryError
  | rewardSessionDoesNotExist
  | deliveredRewardHasNoDeliveryRecord
  | rewardIsNotReadyForDelivery
  | deliveryStateDisappearedAfterTelegramCopy
  | templateRenderError
  | assertionError
  | staleSecondsMustBePositive
  | database (error : DbError)
deriving DecidableEq, Repr

/-- The result of a transaction: an error, or the database it commits and what it returns. -/
abbrev DeliveryTransaction (α : Type) := Except DeliveryError (Db × α)

/-- The end of a transaction: the unique indexes are checked. -/
def Db.commitDelivery {α : Type} (db : Db) (result : α) : DeliveryTransaction α :=
  if db.uniqueKeys then .ok (db, result) else .error (.database .uniqueViolation)

/-- `_bounded_delete_seconds`. -/
def boundedDeleteSeconds : Option SettingValue → ℤ
  | some (.int value) => max 5 (min 172000 value)
  | _ => 120

/-- `_TELEGRAM_DELETE_MAX_AGE`. -/
def telegramDeleteMaxAge : Instant := seconds (48 * 3600)

/-- `error[:_MAX_ERROR_LENGTH]`. -/
def boundedError (error : Str) : Str := error.take 1000

/-! ### Preparing -/

/-- The replacements of the caption. -/
def captionReplacements (movie : Movie) (row : MovieQuality) (deleteSeconds : ℤ) :
    CaptionReplacements where
  movie := movie.displayTitle
  year := (movie.year.map fun year => (toString year).toList).getD []
  quality := row.quality.label
  time := (toString deleteSeconds).toList ++ " ثانية".toList

/-- The row `_prepare` adds. -/
def newDelivery (id : ℕ) (reward : RewardSession) (row : MovieQuality) : Delivery where
  id
  rewardSessionId := reward.id
  telegramUserId := reward.telegramUserId
  movieQualityId := row.id
  status := .pending
  telegramMessageId := none
  sendStartedAt := none
  sentAt := none
  deleteAt := none
  nextAttemptAt := none
  deleteStartedAt := none
  deletedAt := none
  attempts := 0
  lastError := none

/-- The delivery of a reward, added when there is none. -/
def Db.ensureDelivery (db : Db) (reward : RewardSession) (row : MovieQuality) : Db × Delivery :=
  match db.deliveryOf? reward.id with
  | some delivery => (db, delivery)
  | none =>
      let delivery := newDelivery db.deliveries.freshKey reward row
      ({ db with deliveries := db.deliveries.insert delivery }, delivery)

/-- A sent or deleted delivery makes its reward a delivered one. -/
def RewardSession.repairDelivered (delivery : Delivery) (now : Instant) (reward : RewardSession) :
    RewardSession :=
  { reward with
    status := .delivered
    deliveredAt := reward.deliveredAt.or (some (delivery.sentAt.getD now)) }

/-- A delivery that is being sent makes its reward a delivering one. -/
def RewardSession.repairDelivering (reward : RewardSession) : RewardSession :=
  { reward with status := .delivering }

/-- The reward side of a send claim. -/
def RewardSession.claimSend (now : Instant) (reward : RewardSession) : RewardSession :=
  { reward with status := .delivering, deliveryStartedAt := some now }

/-- The delivery side of a send claim. -/
def Delivery.claimSend (now : Instant) (delivery : Delivery) : Delivery :=
  { delivery with status := .sending, sendStartedAt := some now, lastError := none }

/-- `_prepare` from where the caption has been rendered. -/
def claimDelivery (db : Db) (reward : RewardSession) (row : MovieQuality)
    (caption : RenderedTemplate) (deleteSeconds : ℤ) (now : Instant) :
    DeliveryTransaction (PreparedDelivery ⊕ DeliveryResult) :=
  let (db, delivery) := db.ensureDelivery reward row
  if delivery.status = .sent || delivery.status = .deleted then
    (db.updateReward reward.id (RewardSession.repairDelivered delivery now)).commitDelivery (.inr {
      status := .delivered
      telegramMessageId := delivery.telegramMessageId
      deleteAt := delivery.deleteAt })
  else if delivery.status = .sending then
    (db.updateReward reward.id RewardSession.repairDelivering).commitDelivery
      (.inr { status := .processing })
  else
    ((db.updateReward reward.id (RewardSession.claimSend now)).updateDelivery
      delivery.id (Delivery.claimSend now)).commitDelivery (.inl {
        deliveryId := delivery.id
        telegramUserId := reward.telegramUserId
        archiveChannelId := row.archiveChannelId
        archiveMessageId := row.archiveMessageId
        caption
        deleteSeconds })

/-- `_prepare`: a claim, or a result without one. -/
def prepare (db : Db) (render : CaptionRenderer) (rewardSessionId : ℕ) (clock : Clock) :
    DeliveryTransaction (PreparedDelivery ⊕ DeliveryResult) :=
  let now := clock.utcnow
  match db.rewardSessions.find? rewardSessionId with
  | none => .error .rewardSessionDoesNotExist
  | some reward =>
      if reward.status = .delivered then
        match db.deliveryOf? reward.id with
        | none => .error .deliveredRewardHasNoDeliveryRecord
        | some delivery =>
            .ok (db, .inr {
              status := .delivered
              telegramMessageId := delivery.telegramMessageId
              deleteAt := delivery.deleteAt })
      else if reward.status = .delivering then .ok (db, .inr { status := .processing })
      else if reward.status ≠ .rewarded && reward.status ≠ .unavailable then
        .error .rewardIsNotReadyForDelivery
      else
        match db.archive.bindingReason reward with
        | some reason =>
            (db.updateReward reward.id
              (RewardSession.preserveUnavailable reason now)).commitDelivery
                (.inr { status := .unavailable })
        | none =>
            match db.archive.movies.find? reward.movieId,
                db.archive.qualities.find? reward.movieQualityId with
            | some movie, some row =>
                let deleteSeconds := boundedDeleteSeconds db.settings.movieDeleteSeconds
                match render (captionReplacements movie row deleteSeconds) with
                | none => .error .templateRenderError
                | some caption => claimDelivery db reward row caption deleteSeconds now
            | _, _ => .error .assertionError

/-! ### Completing -/

/-- A reward whose send did not happen goes back to where the send was claimed from. -/
def RewardSession.releaseSend (reward : RewardSession) : RewardSession :=
  { reward with
    status := if reward.unavailableAt.isSome then .unavailable else .rewarded
    deliveryStartedAt := none }

/-- The reward side of `_reset_failed_send`. -/
def RewardSession.resetFailedSend (unavailableReason : Option UnavailableReason) (now : Instant)
    (reward : RewardSession) : RewardSession :=
  if reward.status = .delivering then
    match unavailableReason with
    | some reason => reward.preserveUnavailable reason now
    | none => reward.releaseSend
  else reward

/-- A delivery whose send did not happen. -/
def Delivery.releaseSend (error : Str) (delivery : Delivery) : Delivery :=
  { delivery with
    status := .pending
    sendStartedAt := none
    attempts := delivery.attempts + 1
    lastError := some error }

/-- The delivery side of `_reset_failed_send`. -/
def Delivery.resetFailedSend (error : Str) (delivery : Delivery) : Delivery :=
  if delivery.status = .sending then delivery.releaseSend (boundedError error) else delivery

@[simp] theorem RewardSession.id_resetFailedSend (unavailableReason : Option UnavailableReason)
    (now : Instant) (reward : RewardSession) :
    (reward.resetFailedSend unavailableReason now).id = reward.id := by
  unfold RewardSession.resetFailedSend
  split
  · split <;> rfl
  · rfl

@[simp] theorem Delivery.id_resetFailedSend (error : Str) (delivery : Delivery) :
    (delivery.resetFailedSend error).id = delivery.id := by
  unfold Delivery.resetFailedSend
  split <;> rfl

/-- `_reset_failed_send`. -/
def resetFailedSend (db : Db) (rewardSessionId deliveryId : ℕ) (error : Str)
    (unavailableReason : Option UnavailableReason) (clock : Clock) : DeliveryTransaction Unit :=
  match db.rewardSessions.find? rewardSessionId, db.deliveries.find? deliveryId with
  | some _, some _ =>
      ((db.updateReward rewardSessionId
        (RewardSession.resetFailedSend unavailableReason clock.utcnow)).updateDelivery deliveryId
          (Delivery.resetFailedSend error)).commitDelivery ()
  | _, _ => .ok (db, ())

/-- The delivery side of `_finalize_sent`. -/
def Delivery.finalizeSent (telegramMessageId : ℕ) (now deleteAt : Instant) (delivery : Delivery) :
    Delivery :=
  { delivery with
    status := .sent
    telegramMessageId := some telegramMessageId
    sentAt := some now
    deleteAt := some deleteAt
    nextAttemptAt := some deleteAt
    sendStartedAt := none
    lastError := none }

@[simp] theorem Delivery.id_finalizeSent (telegramMessageId : ℕ) (now deleteAt : Instant)
    (delivery : Delivery) : (delivery.finalizeSent telegramMessageId now deleteAt).id =
      delivery.id := rfl

/-- The reward side of `_finalize_sent`. -/
def RewardSession.finalizeSent (now : Instant) (reward : RewardSession) : RewardSession :=
  { reward with status := .delivered, deliveredAt := some now, deliveryStartedAt := none }

/-- `_finalize_sent`. -/
def finalizeSent (db : Db) (rewardSessionId deliveryId telegramMessageId : ℕ) (deleteSeconds : ℤ)
    (clock : Clock) : DeliveryTransaction DeliveryResult :=
  let now := clock.utcnow
  let deleteAt := now + seconds deleteSeconds
  match db.rewardSessions.find? rewardSessionId, db.deliveries.find? deliveryId with
  | some _, some delivery =>
      if delivery.status = .sent then
        .ok (db, {
          status := .delivered
          telegramMessageId := delivery.telegramMessageId
          deleteAt := delivery.deleteAt })
      else
        ((db.updateReward rewardSessionId (RewardSession.finalizeSent now)).updateDelivery
          deliveryId (Delivery.finalizeSent telegramMessageId now deleteAt)).commitDelivery {
              status := .delivered
              telegramMessageId := some telegramMessageId
              deleteAt := some deleteAt }
  | _, _ => .error .deliveryStateDisappearedAfterTelegramCopy

/-- The rows `recover_stale_sends` selects.  `SKIP LOCKED` leaves out the rows `locked` names. -/
def Delivery.isStaleSend (cutoff : Instant) (locked : ℕ → Bool) (delivery : Delivery) : Bool :=
  delivery.status = .sending && delivery.sendStartedAt.any (· ≤ cutoff) && !locked delivery.id

/-- `"recovered stale sending state"`. -/
def recoveredStaleSendingState : Str := "recovered stale sending state".toList

/-- The reward side of `recover_stale_sends`. -/
def RewardSession.recoverSend (reward : RewardSession) : RewardSession :=
  if reward.status = .delivering then reward.releaseSend else reward

@[simp] theorem RewardSession.id_recoverSend (reward : RewardSession) :
    reward.recoverSend.id = reward.id := by
  unfold RewardSession.recoverSend
  split <;> rfl

/-- The deliveries `recover_stale_sends` releases. -/
def Db.staleSends (db : Db) (staleSeconds : ℤ) (locked : ℕ → Bool) (clock : Clock) :
    List Delivery :=
  db.deliveries.rows.filter (Delivery.isStaleSend (clock.utcnow - seconds staleSeconds) locked)

/-- `recover_stale_sends`: every selected delivery and its reward are released.  It returns the
number of recovered rows. -/
def recoverStaleSends (db : Db) (staleSeconds : ℤ) (locked : ℕ → Bool) (clock : Clock) :
    DeliveryTransaction ℕ :=
  if staleSeconds ≤ 0 then .error .staleSecondsMustBePositive
  else
    let stale := Delivery.isStaleSend (clock.utcnow - seconds staleSeconds) locked
    let sessions := (db.staleSends staleSeconds locked clock).map Delivery.rewardSessionId
    Db.commitDelivery
      { db with
        deliveries := db.deliveries.modify
          (fun delivery => if stale delivery then delivery.releaseSend recoveredStaleSendingState
            else delivery)
          (by intro _; split <;> rfl)
        rewardSessions := db.rewardSessions.modify
          (fun reward => if reward.id ∈ sessions then reward.recoverSend else reward)
          (by intro _; split <;> simp) }
      sessions.length

/-! ### Deleting -/

/-- The update of `recover_stale_deletions` on one row. -/
def Delivery.recoverDeletion (cutoff now : Instant) (delivery : Delivery) : Delivery :=
  if delivery.status = .deleting && delivery.deleteStartedAt.any (· ≤ cutoff) then
    { delivery with status := .sent, deleteStartedAt := none, nextAttemptAt := some now }
  else delivery

@[simp] theorem Delivery.id_recoverDeletion (cutoff now : Instant) (delivery : Delivery) :
    (delivery.recoverDeletion cutoff now).id = delivery.id := by
  unfold Delivery.recoverDeletion
  split <;> rfl

/-- `recover_stale_deletions`. -/
def recoverStaleDeletions (db : Db) (staleSeconds : ℤ) (clock : Clock) : DeliveryTransaction ℕ :=
  if staleSeconds ≤ 0 then .error .staleSecondsMustBePositive
  else
    let cutoff := clock.utcnow - seconds staleSeconds
    Db.commitDelivery
      { db with
        deliveries := db.deliveries.modify (Delivery.recoverDeletion cutoff clock.now) (by simp) }
      (db.deliveries.rows.countP fun delivery =>
        delivery.status = .deleting && delivery.deleteStartedAt.any (· ≤ cutoff))

/-- The condition of `claim_due_deletions` on one row. -/
def Delivery.isDue (now : Instant) (locked : ℕ → Bool) (delivery : Delivery) : Bool :=
  delivery.status = .sent && delivery.telegramMessageId.isSome &&
    delivery.nextAttemptAt.any (· ≤ now) && !locked delivery.id

/-- `ORDER BY next_attempt_at, id`. -/
def dueLe (d e : Delivery) : Prop :=
  toLex (d.nextAttemptAt.getD 0, d.id) ≤ toLex (e.nextAttemptAt.getD 0, e.id)

instance : DecidableRel dueLe := fun d e =>
  inferInstanceAs (Decidable (toLex (d.nextAttemptAt.getD 0, d.id) ≤
    toLex (e.nextAttemptAt.getD 0, e.id)))

/-- The rows `claim_due_deletions` selects. -/
def Db.dueDeletions (db : Db) (limit : ℤ) (now : Instant) (locked : ℕ → Bool) : List Delivery :=
  ((db.deliveries.rows.filter (Delivery.isDue now locked)).insertionSort dueLe).take
    (max 1 (min 100 limit)).toNat

/-- The copy is older than Telegram's window for deletions. -/
def Delivery.isTooOld (now : Instant) (delivery : Delivery) : Bool :=
  delivery.sentAt.any fun sentAt => telegramDeleteMaxAge ≤ now - sentAt

/-- `"Telegram delete window exceeded 48 hours"`. -/
def deleteWindowExceeded : Str := "Telegram delete window exceeded 48 hours".toList

/-- What `claim_due_deletions` does to a selected row. -/
def Delivery.claimDeletion (now : Instant) (delivery : Delivery) : Delivery :=
  if delivery.isTooOld now then
    { delivery with
      status := .deleteFailed, nextAttemptAt := none, lastError := some deleteWindowExceeded }
  else { delivery with status := .deleting, deleteStartedAt := some now }

@[simp] theorem Delivery.id_claimDeletion (now : Instant) (delivery : Delivery) :
    (delivery.claimDeletion now).id = delivery.id := by
  unfold Delivery.claimDeletion
  split <;> rfl

/-- The task a claimed row becomes. -/
def Delivery.dueDeletion (delivery : Delivery) : DueDeletion where
  deliveryId := delivery.id
  telegramUserId := delivery.telegramUserId
  telegramMessageId := delivery.telegramMessageId.getD 0
  attempts := delivery.attempts

/-- `claim_due_deletions`. -/
def claimDueDeletions (db : Db) (limit : ℤ) (locked : ℕ → Bool) (clock : Clock) :
    DeliveryTransaction (List DueDeletion) :=
  let now := clock.utcnow
  let due := db.dueDeletions limit now locked
  let ids := due.map Delivery.id
  Db.commitDelivery
    { db with
      deliveries := db.deliveries.modify
        (fun delivery => if delivery.id ∈ ids then delivery.claimDeletion now else delivery)
        (by intro _; split <;> simp) }
    ((due.filter fun delivery => !delivery.isTooOld now).map Delivery.dueDeletion)

/-- A worker's report acts on a row that is being deleted and on no other. -/
def Delivery.whenDeleting (f : Delivery → Delivery) (delivery : Delivery) : Delivery :=
  if delivery.status = .deleting then f delivery else delivery

theorem Delivery.id_whenDeleting {f : Delivery → Delivery} (hf : ∀ d, (f d).id = d.id)
    (delivery : Delivery) : (delivery.whenDeleting f).id = delivery.id := by
  unfold Delivery.whenDeleting
  split
  · exact hf delivery
  · rfl

/-- The update of `mark_deleted`. -/
def Delivery.markDeleted (now : Instant) (delivery : Delivery) : Delivery :=
  { delivery with
    status := .deleted
    deletedAt := some now
    deleteStartedAt := none
    nextAttemptAt := none
    lastError := none }

/-- `mark_deleted`. -/
def markDeleted (db : Db) (deliveryId : ℕ) (clock : Clock) : DeliveryTransaction Unit :=
  (db.updateDelivery deliveryId (Delivery.whenDeleting (Delivery.markDeleted clock.utcnow))
    (Delivery.id_whenDeleting fun _ => rfl)).commitDelivery ()

/-- The update of `mark_delete_failed`. -/
def Delivery.markDeleteFailed (error : Str) (delivery : Delivery) : Delivery :=
  { delivery with
    status := .deleteFailed
    attempts := delivery.attempts + 1
    lastError := some (boundedError error)
    deleteStartedAt := none
    nextAttemptAt := none }

/-- `mark_delete_failed`. -/
def markDeleteFailed (db : Db) (deliveryId : ℕ) (error : Str) : DeliveryTransaction Unit :=
  (db.updateDelivery deliveryId (Delivery.whenDeleting (Delivery.markDeleteFailed error))
    (Delivery.id_whenDeleting fun _ => rfl)).commitDelivery ()

/-- The update of `reschedule_delete`. -/
def Delivery.reschedule (error : Str) (now : Instant) (delivery : Delivery) : Delivery :=
  let attempts := delivery.attempts + 1
  let backoffSeconds : ℤ := min 300 (5 * 2 ^ min (attempts - 1) 6)
  { delivery with
    status := .sent
    attempts
    lastError := some (boundedError error)
    deleteStartedAt := none
    nextAttemptAt := some (now + seconds backoffSeconds) }

/-- `reschedule_delete`. -/
def rescheduleDelete (db : Db) (deliveryId : ℕ) (error : Str) (clock : Clock) :
    DeliveryTransaction Unit :=
  (db.updateDelivery deliveryId (Delivery.whenDeleting (Delivery.reschedule error clock.utcnow))
    (Delivery.id_whenDeleting fun _ => rfl)).commitDelivery ()

end CineGate

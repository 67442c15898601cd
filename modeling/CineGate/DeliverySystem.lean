/-
**Rewards and deliveries as a system of interleaved transactions.**

The transactions of the two services commit one at a time, in any order.  Between its two
transactions a delivery attempt waits for Telegram to copy a message, and between the claim of a
deletion and its report a worker waits for Telegram to delete one; either may wait for ever, which
is also what a crash looks like.  Clocks, the answers of Telegram, the rendered captions and the
rows that `SKIP LOCKED` leaves out are part of the event.

Beside the database a `World` holds the attempts and the deletion tasks with their progress, the
message ids Telegram has issued, those it has confirmed to be gone, and those whose deletion has
been recorded as failed.  An attempt is *superseded* once a stale recovery has released its
delivery.

* `World`, `Event`, `World.step` — the system;
* `World.initial` — no sessions and no deliveries over any archive.
-/

import CineGate.Delivery
import CineGate.Transition

set_option relaxedAutoImplicit false
set_option autoImplicit false

namespace CineGate

/-! ### Telegram -/

/-- The classes of `TelegramAPIError` the services tell apart. -/
inductive TelegramErrorKind
  | badRequest
  | forbidden
  | other
deriving DecidableEq, Repr

/-- A `TelegramAPIError`: its class, its description and its text. -/
structure TelegramError where
  kind : TelegramErrorKind
  message : Str
  text : Str
deriving DecidableEq, Repr

/-- `str.lower` and `str.casefold` on a description of the Bot API, which is ASCII. -/
def lowerAscii (text : Str) : Str := text.map Char.toLower

/-- The copy failed because the source message is gone. -/
def TelegramError.missingSource (error : TelegramError) : Bool :=
  error.kind = .badRequest &&
    contains "message to copy not found".toList (lowerAscii error.message)

/-- `_is_missing_message_error`. -/
def TelegramError.isMissingMessageError (error : TelegramError) : Bool :=
  contains "message to delete not found".toList (lowerAscii error.text) ||
    contains "message not found".toList (lowerAscii error.text)

/-- The answer to `copy_message`. -/
inductive CopyAnswer
  | copied (messageId : ℕ)
  | refused (error : TelegramError)
deriving DecidableEq, Repr

/-- The answer to `delete_message`. -/
inductive DeleteAnswer
  | deleted
  | refused (error : TelegramError)
deriving DecidableEq, Repr

/-- What `_delete_one` reports. -/
inductive DeletionReport
  | deleted
  | failed (error : Str)
  | retry (error : Str)
deriving DecidableEq, Repr

/-- The branches of `_delete_one`. -/
def DeleteAnswer.report : DeleteAnswer → DeletionReport
  | .deleted => .deleted
  | .refused error =>
      match error.kind with
      | .badRequest => if error.isMissingMessageError then .deleted else .failed error.text
      | .forbidden => .failed error.text
      | .other => .retry error.text

/-! ### Attempts and tasks -/

/-- How far a `deliver` call has come after its `_prepare`. -/
inductive SendPhase
  | copying
  | copied (messageId : ℕ)
  | refused (error : TelegramError)
  | finalized (messageId : ℕ)
  | released
deriving DecidableEq, Repr

/-- A `deliver` call that holds a prepared delivery. -/
structure SendAttempt where
  id : ℕ
  sessionId : ℕ
  prepared : PreparedDelivery
  phase : SendPhase
  superseded : Bool
deriving DecidableEq, Repr

/-- Neither `_finalize_sent` nor `_reset_failed_send` of the attempt has run. -/
def SendAttempt.isOpen (attempt : SendAttempt) : Bool :=
  match attempt.phase with
  | .finalized _ | .released => false
  | _ => true

/-- A deletion that a worker has claimed. -/
structure DeletionTask where
  id : ℕ
  item : DueDeletion
  answer : Option DeleteAnswer
  reported : Bool
deriving DecidableEq, Repr

/-- The tasks of one claim join the others. -/
def addTasks (tasks : KeyedTable DeletionTask DeletionTask.id) :
    List DueDeletion → KeyedTable DeletionTask DeletionTask.id
  | [] => tasks
  | item :: items =>
      addTasks (tasks.insert { id := tasks.freshKey, item, answer := none, reported := false })
        items

structure World where
  db : Db
  attempts : KeyedTable SendAttempt SendAttempt.id
  tasks : KeyedTable DeletionTask DeletionTask.id
  issued : List ℕ
  gone : List ℕ
  deletionFailed : List ℕ

/-! ### Events -/

inductive Event
  | getOrCreate (telegramUserId : ℤ) (movieId : ℕ) (quality : Str) (newId : ℕ) (clock : Clock)
  | get (sessionId : ℕ) (clock : Clock)
  | claimPrompt (sessionId : ℕ) (telegramUserId : ℤ) (clock : Clock)
  | completePrompt (sessionId : ℕ) (telegramUserId : ℤ) (messageId : ℕ) (clock : Clock)
  | resetPromptClaim (sessionId : ℕ) (telegramUserId : ℤ)
  | markClientCompleted (sessionId : ℕ) (telegramUserId : ℤ) (clock : Clock)
  | markProviderConfirmed (telegramUserId : ℤ) (clock : Clock)
  | prepare (sessionId : ℕ) (render : CaptionRenderer) (clock : Clock)
  | copyMessage (attemptId : ℕ) (answer : CopyAnswer)
  | complete (attemptId : ℕ) (clock : Clock)
  | recoverStaleSends (staleSeconds : ℤ) (locked : ℕ → Bool) (clock : Clock)
  | recoverStaleDeletions (staleSeconds : ℤ) (clock : Clock)
  | claimDueDeletions (limit : ℤ) (locked : ℕ → Bool) (clock : Clock)
  | deleteMessage (taskId : ℕ) (answer : DeleteAnswer)
  | reportDeletion (taskId : ℕ) (clock : Clock)
  | ingest (channelId : ℤ) (message : ArchiveMessage)
  | reconcileEdit (channelId : ℤ) (message : ArchiveMessage) (expectedSnapshotVersion : Option ℕ)
  | changeArchive (archive : ArchiveTables)
  | changeSettings (settings : Settings)

namespace World

/-- The database a transaction leaves: the old one when it raised. -/
def commit {ε α : Type} (w : World) (result : Except ε (Db × α)) : World :=
  match result with
  | .ok (db, _) => { w with db }
  | .error _ => w

/-- The archive a transaction of the indexer leaves. -/
def commitArchive (w : World) (result : Except DbError (ArchiveTables × ArchiveIndexResult)) :
    World :=
  match result with
  | .ok (archive, _) => { w with db := { w.db with archive } }
  | .error _ => w

/-- The first transaction of `deliver`. -/
def prepare (w : World) (sessionId : ℕ) (render : CaptionRenderer) (clock : Clock) : World :=
  match CineGate.prepare w.db render sessionId clock with
  | .ok (db, .inl prepared) =>
      { w with
        db
        attempts := w.attempts.insert {
          id := w.attempts.freshKey, sessionId, prepared, phase := .copying, superseded := false } }
  | .ok (db, .inr _) => { w with db }
  | .error _ => w

/-- Write to one attempt. -/
def updateAttempt (w : World) (attemptId : ℕ) (f : SendAttempt → SendAttempt)
    (hf : ∀ attempt, (f attempt).id = attempt.id := by intro _; rfl) : World :=
  { w with attempts := w.attempts.modifyAt attemptId f hf }

/-- Telegram answers `copy_message`; it never issues a message id twice. -/
def copyMessage (w : World) (attemptId : ℕ) (answer : CopyAnswer) : World :=
  match w.attempts.find? attemptId with
  | none => w
  | some attempt =>
      if attempt.phase ≠ .copying then w
      else
        match answer with
        | .copied messageId =>
            if messageId ∈ w.issued then w
            else
              { w.updateAttempt attemptId fun a => { a with phase := .copied messageId } with
                issued := messageId :: w.issued }
        | .refused error => w.updateAttempt attemptId fun a => { a with phase := .refused error }

/-- The second transaction of `deliver`. -/
def complete (w : World) (attemptId : ℕ) (clock : Clock) : World :=
  match w.attempts.find? attemptId with
  | none => w
  | some attempt =>
      match attempt.phase with
      | .copied messageId =>
          match finalizeSent w.db attempt.sessionId attempt.prepared.deliveryId messageId
              attempt.prepared.deleteSeconds clock with
          | .ok (db, _) =>
              { w.updateAttempt attemptId fun a =>
                { a with phase := .finalized messageId } with db }
          | .error _ => w
      | .refused error =>
          match resetFailedSend w.db attempt.sessionId attempt.prepared.deliveryId error.text
              (if error.missingSource then some .archiveSourceMissing else none) clock with
          | .ok (db, _) =>
              { w.updateAttempt attemptId fun a => { a with phase := .released } with db }
          | .error _ => w
      | _ => w

/-- `recover_stale_sends`; the attempts of the released deliveries are superseded. -/
def recoverStaleSends (w : World) (staleSeconds : ℤ) (locked : ℕ → Bool) (clock : Clock) : World :=
  match CineGate.recoverStaleSends w.db staleSeconds locked clock with
  | .ok (db, _) =>
      let released := (w.db.staleSends staleSeconds locked clock).map Delivery.id
      { w with
        db
        attempts := w.attempts.modify
          (fun a => if a.prepared.deliveryId ∈ released then { a with superseded := true } else a)
          (by intro _; split <;> rfl) }
  | .error _ => w

/-- `claim_due_deletions` by a worker. -/
def claimDueDeletions (w : World) (limit : ℤ) (locked : ℕ → Bool) (clock : Clock) : World :=
  match CineGate.claimDueDeletions w.db limit locked clock with
  | .ok (db, items) =>
      { w with
        db
        tasks := addTasks w.tasks items
        deletionFailed := ((w.db.dueDeletions limit clock.utcnow locked).filter
          fun delivery => delivery.isTooOld clock.utcnow).filterMap Delivery.telegramMessageId ++
            w.deletionFailed }
  | .error _ => w

/-- Telegram answers `delete_message`. -/
def deleteMessage (w : World) (taskId : ℕ) (answer : DeleteAnswer) : World :=
  match w.tasks.find? taskId with
  | none => w
  | some task =>
      if task.answer.isSome then w
      else
        { w with
          tasks := w.tasks.modifyAt taskId (fun t => { t with answer := some answer })
            (fun _ => rfl)
          gone := if answer.report = .deleted then task.item.telegramMessageId :: w.gone
            else w.gone }

/-- A failed report marks the deletion of the message the row names, if it is about that message. -/
def failedReport (w : World) (item : DueDeletion) : List ℕ :=
  match w.db.deliveries.find? item.deliveryId with
  | some delivery =>
      if delivery.status = .deleting &&
          delivery.telegramMessageId = some item.telegramMessageId then
        [item.telegramMessageId]
      else []
  | none => []

/-- A worker reports what became of its task. -/
def reportDeletion (w : World) (taskId : ℕ) (clock : Clock) : World :=
  match w.tasks.find? taskId with
  | none => w
  | some task =>
      match task.answer, task.reported with
      | some answer, false =>
          let w' := { w with
            tasks := w.tasks.modifyAt taskId (fun t => { t with reported := true }) fun _ => rfl }
          match answer.report with
          | .deleted => w'.commit (markDeleted w.db task.item.deliveryId clock)
          | .failed error =>
              { w'.commit (markDeleteFailed w.db task.item.deliveryId error) with
                deletionFailed := w.failedReport task.item ++ w.deletionFailed }
          | .retry error => w'.commit (rescheduleDelete w.db task.item.deliveryId error clock)
      | _, _ => w

/-- No movie and no quality row has been deleted. -/
def keepsRows (before after : ArchiveTables) : Bool :=
  before.movies.rows.all (fun movie => (after.movies.find? movie.id).isSome) &&
    before.qualities.rows.all fun row => (after.qualities.find? row.id).isSome

variable [UnicodeData] (parser : ArchiveParser)

/-- One event. -/
def step (w : World) : Event → World
  | .getOrCreate telegramUserId movieId quality newId clock =>
      w.commit (getOrCreate w.db telegramUserId movieId quality newId clock)
  | .get sessionId clock => w.commit (get w.db sessionId clock)
  | .claimPrompt sessionId telegramUserId clock =>
      w.commit (claimPrompt w.db sessionId telegramUserId clock)
  | .completePrompt sessionId telegramUserId messageId clock =>
      w.commit (completePrompt w.db sessionId telegramUserId messageId clock)
  | .resetPromptClaim sessionId telegramUserId =>
      w.commit (resetPromptClaim w.db sessionId telegramUserId)
  | .markClientCompleted sessionId telegramUserId clock =>
      w.commit (markClientCompleted w.db sessionId telegramUserId clock)
  | .markProviderConfirmed telegramUserId clock =>
      w.commit (markProviderConfirmed w.db telegramUserId clock)
  | .prepare sessionId render clock => w.prepare sessionId render clock
  | .copyMessage attemptId answer => w.copyMessage attemptId answer
  | .complete attemptId clock => w.complete attemptId clock
  | .recoverStaleSends staleSeconds locked clock => w.recoverStaleSends staleSeconds locked clock
  | .recoverStaleDeletions staleSeconds clock =>
      w.commit (recoverStaleDeletions w.db staleSeconds clock)
  | .claimDueDeletions limit locked clock => w.claimDueDeletions limit locked clock
  | .deleteMessage taskId answer => w.deleteMessage taskId answer
  | .reportDeletion taskId clock => w.reportDeletion taskId clock
  | .ingest channelId message =>
      w.commitArchive
        (w.db.archive.ingest parser w.db.settings.archiveChannelId channelId message)
  | .reconcileEdit channelId message expectedSnapshotVersion =>
      w.commitArchive (w.db.archive.reconcileEdit parser w.db.settings.archiveChannelId channelId
        message expectedSnapshotVersion)
  | .changeArchive archive =>
      if keepsRows w.db.archive archive then { w with db := { w.db with archive } } else w
  | .changeSettings settings => { w with db := { w.db with settings } }

/-- No reward session and no delivery yet, over any archive. -/
def initial (settings : Settings) (archive : ArchiveTables) : World where
  db := { settings, archive, rewardSessions := .empty, deliveries := .empty }
  attempts := .empty
  tasks := .empty
  issued := []
  gone := []
  deletionFailed := []

/-- The state after a run. -/
abbrev after (w : World) (events : List Event) : World :=
  Transition.run (step parser) w events

end World

end CineGate

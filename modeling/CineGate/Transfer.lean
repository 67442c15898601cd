/-
**The transfer of a historical import.**

`HistoricalImportService.transfer` as a process that can be interrupted between any two of its
transactions and calls to Telegram.  A call first scans the tail of the archive for copies that an
earlier call has made but not recorded, and then forwards the source in batches.

* `TransferPhase` — where a call stands;
* `ForwardRequest`, `TransferWorld.forward` — a request of `forward_batch`, with Telegram's answer;
* `TransferWorld.step` — one event: a call, the next transaction or read, a request to forward, an
  exception, a crash, or a post by somebody else.
-/

import CineGate.ImportJobs
import CineGate.Transition

set_option relaxedAutoImplicit false
set_option autoImplicit false

namespace CineGate

/-- The messages of a channel, in the order of their ids. -/
abbrev Channel := KeyedTable TelegramMessage TelegramMessage.id

/-- `latest_message_id`. -/
def Channel.latestMessageId (channel : Channel) : ℕ :=
  (channel.rows.getLast?.map TelegramMessage.id).getD 0

/-! ### Forwarding -/

/-- What Telegram replies to a request to forward messages. -/
inductive ForwardReply
  | messages (messages : List (Option TelegramMessage))
  | floodWait (seconds : ℤ)
  | chatForwardsRestricted
  | chatWriteForbidden
  | rpcError (name : Str)
  | other (text : Str)

/-- A request to forward messages: the copies Telegram has made, and its reply. -/
structure ForwardRequest where
  accepted : List TelegramMessage
  reply : ForwardReply

/-- What `forward_batch` does about a reply: it returns the copies, raises, or sleeps and repeats
the request. -/
inductive ForwardOutcome
  | returned (messages : List (Option TelegramMessage))
  | raised (failure : ImportFailure)
  | retry (floodRetries : ℕ)

/-- The branches of `forward_batch`. -/
def ForwardReply.outcome (floodWaitLimit : ℤ) (floodRetries : ℕ) : ForwardReply → ForwardOutcome
  | .messages copies => .returned copies
  | .chatForwardsRestricted =>
      .raised (.sourceForwardingRestricted
        "Telegram rejected forwarding because source protection is enabled".toList)
  | .floodWait seconds =>
      if floodWaitLimit < seconds then .raised (.floodWaitTooLong seconds)
      else if 3 < floodRetries + 1 then
        .raised (.historicalImport
          "repeated Telegram FloodWait prevented bounded forwarding".toList)
      else .retry (floodRetries + 1)
  | .chatWriteForbidden =>
      .raised (.channelAccess "UserBot cannot write to or access the Archive Channel".toList)
  | .rpcError name => .raised (.historicalImport ("Telegram forwarding failed: ".toList ++ name))
  | .other text => .raised (.other text)

/-- Copies are returned only when Telegram replies with them. -/
theorem ForwardReply.outcome_eq_returned {floodWaitLimit : ℤ} {floodRetries : ℕ}
    {reply : ForwardReply} {copies : List (Option TelegramMessage)}
    (h : reply.outcome floodWaitLimit floodRetries = .returned copies) :
    reply = .messages copies := by
  cases reply with
  | messages copies' =>
      cases h
      rfl
  | floodWait seconds =>
      simp only [outcome] at h
      split_ifs at h
  | _ => cases h

/-- Only a flood wait repeats a request. -/
theorem ForwardReply.outcome_eq_retry {floodWaitLimit : ℤ} {floodRetries floodRetries' : ℕ}
    {reply : ForwardReply} (h : reply.outcome floodWaitLimit floodRetries = .retry floodRetries') :
    ∃ seconds, reply = .floodWait seconds := by
  cases reply with
  | floodWait seconds => exact ⟨seconds, rfl⟩
  | _ => cases h

/-! ### The process -/

/-- Where a call stands: before its next transaction, read or request. -/
inductive TransferPhase
  | opening
  | measuring
  | initializing (sourceHigh archiveBaseline total : ℕ)
  | seeking
  | scanning (cursor : ℕ) (pending : List (ℕ × ℕ))
  | flushing (cursor : ℕ) (pending : List (ℕ × ℕ))
  | settling (pending : List (ℕ × ℕ))
  | running
  | batching (rest : List TelegramMessage)
  | forwarding (batch toForward rest : List TelegramMessage) (floodRetries : ℕ)
  | recording (batch : List TelegramMessage) (forwardedMappings : List (ℕ × ℕ))
      (rest : List TelegramMessage)
  | finishing
  | failing (failure : ImportFailure)

/-- A call of `transfer`: its settings and its local copy of the job. -/
structure TransferCall where
  batchSize : ℕ
  sized : 1 ≤ batchSize ∧ batchSize ≤ 100
  floodWaitLimit : ℤ
  job : ImportJob := {}
  phase : TransferPhase := .opening

/-- The source and the archive channel, the database and the call under way. -/
structure TransferWorld where
  sourceChannelId : ℤ
  history : Channel
  archive : Channel
  record : Option ImportRecord := none
  call : Option TransferCall := none

inductive TransferEvent
  | start (batchSize : ℕ) (floodWaitLimit : ℤ) (resolved : Bool)
  | advance (now : Instant)
  | forward (request : ForwardRequest)
  | raised (failure : ImportFailure)
  | posted (message : TelegramMessage)
  | crash

/-- `_require_strictly_increasing`. -/
def isStrictlyIncreasing (values : List ℕ) : Bool :=
  (values.zip values.tail).all fun p => p.1 < p.2

namespace TransferWorld

/-- The source message an archive message is a copy of. -/
def source? (w : TransferWorld) (message : TelegramMessage) : Option ℕ :=
  message.forwardedSourceMessageId? w.sourceChannelId

/-- The messages `iter_source_messages` yields. -/
def sourceMessages (w : TransferWorld) (afterMessageId highWatermarkId : ℕ) :
    List TelegramMessage :=
  w.history.rows.filter fun message =>
    afterMessageId < message.id && message.id ≤ highWatermarkId

/-- The next message `iter_archive_messages_after` yields. -/
def nextArchiveMessage? (w : TransferWorld) (cursor : ℕ) : Option TelegramMessage :=
  w.archive.rows.find? fun message => cursor < message.id

/-- The call ends. -/
def stop (w : TransferWorld) : TransferWorld := { w with call := none }

/-- The call goes on. -/
def goTo (w : TransferWorld) (c : TransferCall) (phase : TransferPhase) : TransferWorld :=
  { w with call := some { c with phase } }

/-- A call begins: it is refused, or it has the lock and the channels. -/
def startCall (w : TransferWorld) (batchSize : ℕ) (floodWaitLimit : ℤ) (resolved : Bool) :
    TransferWorld :=
  if w.call.isSome || !resolved then w
  else if sized : 1 ≤ batchSize ∧ batchSize ≤ 100 then
    { w with call := some { batchSize, sized, floodWaitLimit } }
  else w

/-- `get_or_create_job`, and what `transfer` makes of the status of the job. -/
def openJob (w : TransferWorld) (c : TransferCall) : TransferWorld :=
  let record := w.record.getD ⟨{}, .empty⟩
  let w := { w with record := some record }
  match record.job.status with
  | .completed | .reindexing => w.stop
  | _ =>
      w.goTo { c with job := record.job }
        (if record.job.sourceHighWatermarkId = none then .measuring else .seeking)

/-- One message of the tail scan. -/
def scan (w : TransferWorld) (c : TransferCall) (cursor : ℕ) (pending : List (ℕ × ℕ)) :
    TransferWorld :=
  match w.nextArchiveMessage? cursor with
  | none => w.goTo c (if pending = [] then .running else .settling pending)
  | some message =>
      match w.source? message with
      | none => w.goTo c (.scanning message.id pending)
      | some sourceMessageId =>
          if c.job.sourceHighWatermarkId.any (· < sourceMessageId) then
            w.goTo c (.scanning message.id pending)
          else
            let pending := pending ++ [(sourceMessageId, message.id)]
            if 100 ≤ pending.length then w.goTo c (.flushing message.id pending)
            else w.goTo c (.scanning message.id pending)

/-- The next batch of the source: what is to be forwarded of it. -/
def nextBatch (w : TransferWorld) (c : TransferCall) (r : ImportRecord)
    (rest : List TelegramMessage) : TransferWorld :=
  match rest.take c.batchSize with
  | [] => w.goTo c .finishing
  | batch =>
      if !isStrictlyIncreasing (batch.map TelegramMessage.id) then
        w.goTo c (.failing (.historicalImport
          "source message IDs are not strictly increasing".toList))
      else
        let importable := batch.filter fun message => isImportable (some message)
        let mapped := r.map.mappedSourceIds (importable.map TelegramMessage.id)
        let toForward := importable.filter fun message => !mapped.contains message.id
        if toForward = [] then w.goTo c (.recording batch [] (rest.drop c.batchSize))
        else w.goTo c (.forwarding batch toForward (rest.drop c.batchSize) 0)

/-- The transaction of `_record_transfer_batch`. -/
def recordBatch (w : TransferWorld) (c : TransferCall) (r : ImportRecord)
    (batch : List TelegramMessage) (forwardedMappings : List (ℕ × ℕ))
    (rest : List TelegramMessage) : TransferWorld :=
  match batch.getLast? with
  | none => w.stop
  | some last =>
      let importable := batch.filter fun message => isImportable (some message)
      let record := r.recordTransferBatch last.id batch.length (batch.length - importable.length)
        forwardedMappings
      { w with record := some record }.goTo { c with job := record.job } (.batching rest)

/-- `mark_failed` or `mark_paused`, after an exception. -/
def recordFailure (w : TransferWorld) (r : ImportRecord) (failure : ImportFailure) :
    TransferWorld :=
  let marked := match failure with
    | .channelAccess text => r.job.markFailed text
    | .other _ => .ok r.job
    | failure => r.job.markPaused failure.text
  match marked with
  | .ok job => { w with record := some { r with job } }.stop
  | .error _ => w.stop

/-- The next transaction or read of a call that has opened its job. -/
def advanceOpened (w : TransferWorld) (c : TransferCall) (r : ImportRecord) (now : Instant) :
    TransferWorld :=
  match c.phase with
  | .opening | .forwarding .. => w
  | .measuring =>
      w.goTo c (.initializing w.history.latestMessageId w.archive.latestMessageId
        w.history.rows.length)
  | .initializing sourceHigh archiveBaseline total =>
      let job := r.job.initializeSnapshot sourceHigh archiveBaseline (some total)
      { w with record := some { r with job } }.goTo { c with job } .seeking
  | .seeking =>
      w.goTo c (.scanning
        (r.map.maxMappedArchiveMessageId.getD (c.job.archiveBaselineMessageId.getD 0)) [])
  | .scanning cursor pending => w.scan c cursor pending
  | .flushing cursor pending =>
      { w with record := some (r.recordReconciledMappings pending) }.goTo c (.scanning cursor [])
  | .settling pending =>
      { w with record := some (r.recordReconciledMappings pending) }.goTo c .running
  | .running =>
      match r.job.markRunning now with
      | .ok job =>
          { w with record := some { r with job } }.goTo { c with job }
            (.batching (w.sourceMessages job.lastCopiedSourceMessageId
              (job.sourceHighWatermarkId.getD 0)))
      | .error _ => w.stop
  | .batching rest => w.nextBatch c r rest
  | .recording batch forwardedMappings rest => w.recordBatch c r batch forwardedMappings rest
  | .finishing =>
      match r.job.markTransferred with
      | .ok job => { w with record := some { r with job } }.stop
      | .error _ => w.stop
  | .failing failure => w.recordFailure r failure

/-- The next transaction or read of the call. -/
def advance (w : TransferWorld) (now : Instant) : TransferWorld :=
  match w.call with
  | none => w
  | some c =>
      match c.phase, w.record with
      | .opening, _ => w.openJob c
      | _, some r => w.advanceOpened c r now
      | _, none => w.stop

/-- What `_transfer_messages` makes of the copies `forward_batch` returns. -/
def takeForwarded (w : TransferWorld) (c : TransferCall)
    (batch toForward rest : List TelegramMessage) (forwarded : List (Option TelegramMessage)) :
    TransferWorld :=
  if forwarded.length ≠ toForward.length || forwarded.any Option.isNone then
    w.goTo c (.failing (.historicalImport
      "Telegram returned a partial forwarding batch; restart to reconcile before retry".toList))
  else
    let archiveIds := (forwarded.filterMap id).map TelegramMessage.id
    if !isStrictlyIncreasing archiveIds then
      w.goTo c (.failing (.historicalImport
        "archive message IDs are not strictly increasing".toList))
    else
      w.goTo c (.recording batch ((toForward.map TelegramMessage.id).zip archiveIds) rest)

/-- A request to forward a batch. -/
def forward (w : TransferWorld) (request : ForwardRequest) : TransferWorld :=
  match w.call with
  | none => w
  | some c =>
      match c.phase with
      | .forwarding batch toForward rest floodRetries =>
          let w := { w with archive := request.accepted.foldl KeyedTable.insert w.archive }
          match request.reply.outcome c.floodWaitLimit floodRetries with
          | .returned forwarded => w.takeForwarded c batch toForward rest forwarded
          | .raised failure => w.goTo c (.failing failure)
          | .retry floodRetries => w.goTo c (.forwarding batch toForward rest floodRetries)
      | _ => w

/-- An exception between two batches is recorded; one before the job is running is not. -/
def raise (w : TransferWorld) (failure : ImportFailure) : TransferWorld :=
  match w.call with
  | none => w
  | some c =>
      match c.phase with
      | .batching _ => w.goTo c (.failing failure)
      | _ => w.stop

/-- One event. -/
def step (w : TransferWorld) : TransferEvent → TransferWorld
  | .start batchSize floodWaitLimit resolved => w.startCall batchSize floodWaitLimit resolved
  | .advance now => w.advance now
  | .forward request => w.forward request
  | .raised failure => w.raise failure
  | .posted message => { w with archive := w.archive.insert message }
  | .crash => w.stop

end TransferWorld
end CineGate

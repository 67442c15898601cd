/-
**Whether a finished transfer is recognised.**

A transfer finishes when the source has nothing more to yield, and `mark_transferred` records that.
`_transfer_is_complete` asks something else: whether the checkpoint has reached the high watermark.
The two agree when the message at the watermark is still there whenever the source is read.  Without
it, a reindex that pauses cannot be resumed.

* `ImportEvent`, `TransferWorld.importStep` — transfers and reindexes over a source that changes;
* `TransferWorld.KeepsWatermark` — the condition on a step;
* `TransferWorld.Awaits` — what a call has still to read;
* `TransferWorld.finished_transfer_is_recognised` — and then finished transfers are recognised.
-/

import CineGate.Reindex
import CineGate.TransferInvariant

set_option relaxedAutoImplicit false
set_option autoImplicit false

namespace CineGate

/-! ### A source that changes -/

/-- The messages that the source has still to yield. -/
def TransferPhase.unread : TransferPhase → List TelegramMessage
  | batching rest => rest
  | forwarding _ _ rest _ => rest
  | recording _ _ rest => rest
  | _ => []

/-- Messages are deleted before the source has yielded them. -/
def TransferPhase.without (gone : List ℕ) : TransferPhase → TransferPhase
  | batching rest => batching (rest.filter fun message => message.id ∉ gone)
  | forwarding batch toForward rest floodRetries =>
      forwarding batch toForward (rest.filter fun message => message.id ∉ gone) floodRetries
  | recording batch forwardedMappings rest =>
      recording batch forwardedMappings (rest.filter fun message => message.id ∉ gone)
  | phase => phase

/-- A step of a transfer, a change of the source, or a reindex between two transfers, up to where it
ends or is interrupted. -/
inductive ImportEvent
  | transfer (event : TransferEvent)
  | changed (history : Channel) (gone : List ℕ)
  | reindex (parser : ArchiveParser) (archiveChannelId : ℤ) (setting : Option SettingValue)
      (tables : ArchiveTables) (events : List ReindexEvent)

namespace TransferWorld

/-- The source holds other messages, and some are not yielded any more. -/
def changeSource (w : TransferWorld) (history : Channel) (gone : List ℕ) : TransferWorld :=
  { w with history, call := w.call.map fun c => { c with phase := c.phase.without gone } }

section

variable [UnicodeData]

/-- A reindex of the job, while no transfer holds the lock. -/
def reindex (w : TransferWorld) (parser : ArchiveParser) (archiveChannelId : ℤ)
    (setting : Option SettingValue) (tables : ArchiveTables) (events : List ReindexEvent) :
    TransferWorld :=
  if w.call.isSome then w
  else
    { w with record := w.record.map fun r =>
        (Transition.run (ReindexWorld.step parser)
          (ReindexWorld.initial archiveChannelId setting r tables)
          events).record }

/-- One event. -/
def importStep (w : TransferWorld) : ImportEvent → TransferWorld
  | .transfer event => w.step event
  | .changed history gone => w.changeSource history gone
  | .reindex parser archiveChannelId setting tables events =>
      w.reindex parser archiveChannelId setting tables events

end

/-- The checkpoint of the job reaches its watermark when the messages have been copied. -/
def Reaches (job : ImportJob) (messages : List TelegramMessage) : Prop :=
  ∃ high, job.sourceHighWatermarkId = some high ∧
    (high ≤ job.lastCopiedSourceMessageId ∨ ∃ message ∈ messages, message.id = high)

/-- **The message at the watermark is there whenever the source is read**: when a call begins to
read it, and until it has been yielded. -/
def KeepsWatermark (w : TransferWorld) : ImportEvent → Prop
  | .transfer (.advance _) =>
      ∀ c r, w.call = some c → c.phase matches .running → w.record = some r →
      ∀ high, r.job.sourceHighWatermarkId = some high →
        high ≤ r.job.lastCopiedSourceMessageId ∨ ∃ message ∈ w.history, message.id = high
  | .changed _ gone => ∀ c r, w.call = some c → w.record = some r →
      ∀ message ∈ c.phase.unread, r.job.sourceHighWatermarkId = some message.id → message.id ∉ gone
  | _ => True

/-- What a call has still to read. -/
def Awaits (job : ImportJob) : TransferPhase → Prop
  | .batching rest => Reaches job rest
  | .forwarding batch _ rest _ =>
      batch.Pairwise (fun m m' => m.id < m'.id) ∧ Reaches job (batch ++ rest)
  | .recording batch _ rest =>
      batch.Pairwise (fun m m' => m.id < m'.id) ∧ Reaches job (batch ++ rest)
  | .finishing => Reaches job []
  | .seeking | .scanning .. | .flushing .. | .settling .. | .running =>
      job.sourceHighWatermarkId.isSome
  | .opening | .measuring | .initializing .. | .failing .. => True

/-- A transferred job is recognised as complete, and the call under way awaits the watermark. -/
structure Recognises (w : TransferWorld) : Prop where
  transferred : ∀ r, w.record = some r → r.job.status = .transferred → r.job.transferIsComplete
  awaits : ∀ r c, w.record = some r → w.call = some c → Awaits r.job c.phase

/-! ### One call -/

variable {w : TransferWorld} {r : ImportRecord} {c : TransferCall} {job : ImportJob}
  {messages : List TelegramMessage}

theorem Reaches.transferIsComplete (h : Reaches job []) : job.transferIsComplete := by
  obtain ⟨high, hhigh, hle | ⟨message, hmem, -⟩⟩ := h
  · simpa [ImportJob.transferIsComplete, hhigh] using hle
  · cases hmem

theorem isSome_of_transferIsComplete (h : job.transferIsComplete) :
    job.sourceHighWatermarkId.isSome := by
  unfold ImportJob.transferIsComplete at h
  cases hhigh : job.sourceHighWatermarkId with
  | none =>
      rw [hhigh] at h
      cases h
  | some high => rfl

/-- Jobs with one watermark and one checkpoint. -/
def SameTransfer (job job' : ImportJob) : Prop :=
  job'.sourceHighWatermarkId = job.sourceHighWatermarkId ∧
    job'.lastCopiedSourceMessageId = job.lastCopiedSourceMessageId

theorem SameTransfer.transferIsComplete {job' : ImportJob} (h : SameTransfer job job') :
    job'.transferIsComplete = job.transferIsComplete := by
  unfold ImportJob.transferIsComplete
  rw [h.1, h.2]

/-- A transition changes neither. -/
theorem sameTransfer_transition {job' : ImportJob} {target : ImportStatus}
    {f : ImportJob → ImportJob}
    (h : (job.transition target).map f = .ok job') (hf : ∀ job, SameTransfer job (f job)) :
    SameTransfer job job' := by
  rw [ImportJob.map_transition_eq h]
  exact hf _

theorem Recognises.stop (hw : w.Recognises) : w.stop.Recognises :=
  ⟨hw.transferred, fun _ _ _ h => (by cases h)⟩

/-- A call that goes on after a transaction. -/
theorem recognises_goTo {record : ImportRecord} {phase : TransferPhase}
    (htransferred : record.job.status = .transferred → record.job.transferIsComplete)
    (hphase : Awaits record.job phase) :
    ({ w with record := some record }.goTo c phase).Recognises := by
  refine ⟨fun r hr => ?_, fun r c' hr hc => ?_⟩
  · obtain rfl := Option.some.inj hr
    exact htransferred
  · obtain rfl := Option.some.inj hr
    obtain rfl := Option.some.inj hc
    exact hphase

theorem Recognises.goTo (hw : w.Recognises) (hr : w.record = some r) {phase : TransferPhase}
    (hphase : Awaits r.job phase) : (w.goTo c phase).Recognises := by
  refine ⟨hw.transferred, fun r' c' hr' hc => ?_⟩
  obtain rfl := Option.some.inj (hr.symm.trans hr')
  obtain rfl := Option.some.inj hc
  exact hphase

theorem Recognises.openJob (hw : w.Recognises) : (w.openJob c).Recognises := by
  have htransferred : (w.record.getD ⟨{}, .empty⟩).job.status = .transferred →
      (w.record.getD ⟨{}, .empty⟩).job.transferIsComplete := by
    cases hr : w.record with
    | none => exact fun h => (by cases h)
    | some r => exact hw.transferred r hr
  have hrecord : { w with record := some (w.record.getD ⟨{}, .empty⟩) }.stop.Recognises := by
    refine ⟨fun r hr => ?_, fun _ _ _ h => (by cases h)⟩
    obtain rfl := Option.some.inj hr
    exact htransferred
  unfold TransferWorld.openJob
  dsimp only
  split
  · exact hrecord
  · exact hrecord
  · refine recognises_goTo htransferred ?_
    split
    · trivial
    · next hhigh => exact Option.isSome_iff_ne_none.2 hhigh

theorem Recognises.scan (hw : w.Recognises) (hr : w.record = some r)
    (hhigh : r.job.sourceHighWatermarkId.isSome)
    (cursor : ℕ) (pending : List (ℕ × ℕ)) : (w.scan c cursor pending).Recognises := by
  unfold TransferWorld.scan
  split
  · refine hw.goTo hr ?_
    split <;> exact hhigh
  · split
    · exact hw.goTo hr hhigh
    · split
      · exact hw.goTo hr hhigh
      · dsimp only
        split <;> exact hw.goTo hr hhigh

theorem Recognises.nextBatch (hw : w.Recognises) (hr : w.record = some r)
    {rest : List TelegramMessage}
    (hrest : Reaches r.job rest) : (w.nextBatch c r rest).Recognises := by
  have hsplit : rest.take c.batchSize ++ rest.drop c.batchSize = rest := List.take_append_drop _ _
  unfold TransferWorld.nextBatch
  split
  · next hnil =>
      -- the source has nothing more to yield
      have hempty : rest = [] := by
        have hsize := c.sized.1
        have hlength := congrArg List.length hnil
        rw [List.length_take, List.length_nil] at hlength
        exact List.length_eq_zero_iff.1 (by omega)
      rw [hempty] at hrest
      exact hw.goTo hr hrest
  · next batch hne =>
      split
      · exact hw.goTo hr trivial
      · next hincreasing =>
          have hordered : (rest.take c.batchSize).Pairwise fun m m' => m.id < m'.id := by
            have hpairwise := pairwise_of_isStrictlyIncreasing (by simpa using hincreasing)
            rw [← List.map_take] at hpairwise
            exact List.pairwise_map.1 hpairwise
          have hreaches : Reaches r.job (rest.take c.batchSize ++ rest.drop c.batchSize) := by
            rw [hsplit]
            exact hrest
          dsimp only
          split <;> exact hw.goTo hr ⟨hordered, hreaches⟩

/-- A recorded batch moves the checkpoint to its last message, or leaves it beyond that. -/
theorem checkpoint_recordTransferBatch (r : ImportRecord) (through processed skipped : ℕ)
    (mappings : List (ℕ × ℕ)) :
    (r.recordTransferBatch through processed skipped mappings).job.status = r.job.status ∧
      (r.recordTransferBatch through processed skipped mappings).job.sourceHighWatermarkId =
        r.job.sourceHighWatermarkId ∧
      (r.recordTransferBatch through processed skipped mappings).job.lastCopiedSourceMessageId =
        max through r.job.lastCopiedSourceMessageId := by
  unfold ImportRecord.recordTransferBatch
  dsimp only
  split
  · next hle => exact ⟨rfl, rfl, (max_eq_right hle).symm⟩
  · next hlt => exact ⟨rfl, rfl, (max_eq_left (not_le.1 hlt).le).symm⟩

/-- The last message of an ordered batch has the largest id. -/
theorem id_le_getLast {batch : List TelegramMessage}
    (hordered : batch.Pairwise fun m m' => m.id < m'.id)
    {last message : TelegramMessage} (hlast : batch.getLast? = some last) (hmem : message ∈ batch) :
    message.id ≤ last.id := by
  obtain ⟨before, rfl⟩ := List.getLast?_eq_some_iff.1 hlast
  rcases List.mem_append.1 hmem with hmem | hmem
  · exact ((List.pairwise_append.1 hordered).2.2 message hmem last (List.mem_singleton_self _)).le
  · rw [List.mem_singleton.1 hmem]

theorem Recognises.recordBatch (hw : w.Recognises) (hr : w.record = some r)
    {batch rest : List TelegramMessage} (hordered : batch.Pairwise fun m m' => m.id < m'.id)
    (hreaches : Reaches r.job (batch ++ rest)) (mappings : List (ℕ × ℕ)) :
    (w.recordBatch c r batch mappings rest).Recognises := by
  unfold TransferWorld.recordBatch
  split
  · exact hw.stop
  · next last hlast =>
      obtain ⟨hstatus, hhigh, hcheckpoint⟩ := checkpoint_recordTransferBatch r last.id batch.length
        (batch.length - (batch.filter fun message => isImportable (some message)).length) mappings
      refine recognises_goTo (fun htransferred => ?_) ?_
      · have hcomplete := hw.transferred r hr (hstatus ▸ htransferred)
        unfold ImportJob.transferIsComplete at hcomplete ⊢
        rw [hhigh, hcheckpoint]
        split at hcomplete
        · cases hcomplete
        · exact decide_eq_true (le_max_of_le_right (of_decide_eq_true hcomplete))
      · obtain ⟨high, hsome, hreached⟩ := hreaches
        refine ⟨high, hhigh.trans hsome, ?_⟩
        rw [hcheckpoint]
        rcases hreached with hle | ⟨message, hmem, rfl⟩
        · exact .inl (le_max_of_le_right hle)
        · rcases List.mem_append.1 hmem with hmem | hmem
          · exact .inl (le_max_of_le_left (id_le_getLast hordered hlast hmem))
          · exact .inr ⟨message, hmem, rfl⟩

/-- After a transition, a transferred job is one that has been completed. -/
theorem transferred_transition {job' : ImportJob} {target : ImportStatus}
    {f : ImportJob → ImportJob} (h : (job.transition target).map f = .ok job')
    (hf : ∀ job, SameTransfer job (f job) ∧ (f job).status = job.status)
    (hdone : target = .transferred → job.transferIsComplete) :
    job'.status = .transferred → job'.transferIsComplete := by
  have hsame := sameTransfer_transition h fun job => (hf job).1
  have hstatus : job'.status = target := by
    rw [ImportJob.map_transition_eq h, (hf _).2]
  intro htransferred
  rw [hsame.transferIsComplete]
  exact hdone (hstatus.symm.trans htransferred)

theorem Recognises.recordFailure (hw : w.Recognises) (hr : w.record = some r)
    (failure : ImportFailure) :
    (w.recordFailure r failure).Recognises := by
  have hcommit : ∀ {job : ImportJob}, (job.status = .transferred → job.transferIsComplete) →
      { w with record := some { r with job } }.stop.Recognises := by
    intro job hjob
    refine ⟨fun r' hr' => ?_, fun _ _ _ h => (by cases h)⟩
    obtain rfl := Option.some.inj hr'
    exact hjob
  have hmark : ∀ {job' : ImportJob} {target : ImportStatus} {error : Str},
      (r.job.transition target).map
        (fun job => { job with lastError := some (ImportJob.boundedError error) }) =
        .ok job' → target ≠ .transferred → job'.status = .transferred →
          job'.transferIsComplete := by
    intro job' target error h hne
    exact transferred_transition h (fun _ => ⟨⟨rfl, rfl⟩, rfl⟩) fun heq => absurd heq hne
  unfold TransferWorld.recordFailure
  cases failure with
  | channelAccess text =>
      dsimp only
      split
      · next job h => exact hcommit (hmark h (by simp))
      · exact hw.stop
  | other text => exact hcommit (hw.transferred r hr)
  | _ =>
      dsimp only
      split
      · next job h => exact hcommit (hmark h (by simp))
      · exact hw.stop

/-- **The next transaction or read of a call.** -/
theorem Recognises.advanceOpened (hw : w.Recognises) (hr : w.record = some r) (hc : w.call = some c)
    {now : Instant} (hkeeps : w.KeepsWatermark (.transfer (.advance now))) :
    (w.advanceOpened c r now).Recognises := by
  have hawaits := hw.awaits r c hr hc
  unfold TransferWorld.advanceOpened
  split
  · exact hw
  · exact hw
  · exact hw.goTo hr trivial
  · next sourceHigh archiveBaseline total hphase =>
      have hjob : ∀ job : ImportJob,
          (job.initializeSnapshot sourceHigh archiveBaseline (some total)).status =
            job.status ∧ (job.initializeSnapshot sourceHigh archiveBaseline
              (some total)).sourceHighWatermarkId.isSome ∧
            (job.sourceHighWatermarkId.isSome →
              job.initializeSnapshot sourceHigh archiveBaseline (some total) = job) := by
        intro job
        unfold ImportJob.initializeSnapshot
        split
        · next hnone => exact ⟨rfl, rfl, fun h => (by rw [hnone] at h; cases h)⟩
        · next hsome => exact ⟨rfl, Option.isSome_iff_ne_none.2 hsome, fun _ => rfl⟩
      obtain ⟨hstatus, hhigh, hself⟩ := hjob r.job
      refine recognises_goTo (fun htransferred => ?_) hhigh
      have hcomplete := hw.transferred r hr (hstatus ▸ htransferred)
      dsimp only
      rw [hself (isSome_of_transferIsComplete hcomplete)]
      exact hcomplete
  · next hphase =>
      rw [hphase] at hawaits
      exact hw.goTo hr hawaits
  · next cursor pending hphase =>
      rw [hphase] at hawaits
      exact hw.scan hr hawaits cursor pending
  · next cursor pending hphase =>
      rw [hphase] at hawaits
      exact recognises_goTo (hw.transferred r hr) hawaits
  · next pending hphase =>
      rw [hphase] at hawaits
      exact recognises_goTo (hw.transferred r hr) hawaits
  · next hphase =>
      -- the call begins to read the source
      rw [hphase] at hawaits
      split
      · next job h =>
          have hsame : SameTransfer r.job job := sameTransfer_transition h fun _ => ⟨rfl, rfl⟩
          refine recognises_goTo
            (transferred_transition h (fun _ => ⟨⟨rfl, rfl⟩, rfl⟩) fun h => (by cases h)) ?_
          obtain ⟨high, hhigh⟩ := Option.isSome_iff_exists.1 hawaits
          refine ⟨high, hsame.1.trans hhigh, ?_⟩
          rw [hsame.2]
          obtain hle | hlt := le_or_gt high r.job.lastCopiedSourceMessageId
          · exact .inl hle
          · have hkept := hkeeps c r hc (by rw [hphase]) hr high hhigh
            obtain ⟨message, hmem, rfl⟩ := hkept.resolve_left (by omega)
            refine .inr ⟨message, List.mem_filter.2 ⟨hmem, ?_⟩, rfl⟩
            rw [hsame.1, hhigh]
            simpa [hsame.2] using hlt
      · exact hw.stop
  · next rest hphase =>
      rw [hphase] at hawaits
      exact hw.nextBatch hr hawaits
  · next batch mappings rest hphase =>
      rw [hphase] at hawaits
      exact hw.recordBatch hr hawaits.1 hawaits.2 mappings
  · next hphase =>
      rw [hphase] at hawaits
      split
      · next job h =>
          refine ⟨fun r' hr' => ?_, fun _ _ _ h => (by cases h)⟩
          obtain rfl := Option.some.inj hr'
          exact transferred_transition h (fun _ => ⟨⟨rfl, rfl⟩, rfl⟩) fun _ =>
            hawaits.transferIsComplete
      · exact hw.stop
  · exact hw.recordFailure hr _

theorem Recognises.forward (hw : w.Recognises) (request : ForwardRequest) :
    (w.forward request).Recognises := by
  unfold TransferWorld.forward
  split
  · exact hw
  · next c hc =>
      split
      · next batch toForward rest floodRetries hphase =>
          have hawaits : ∀ r, w.record = some r →
              Awaits r.job (.forwarding batch toForward rest floodRetries) :=
            fun r hr => hphase ▸ hw.awaits r c hr hc
          -- only the call moves on
          have hgoes : ∀ phase, (∀ r, w.record = some r → Awaits r.job phase) →
              ({ w with archive := request.accepted.foldl KeyedTable.insert w.archive }.goTo c
                phase).Recognises := by
            intro phase hphase
            refine ⟨hw.transferred, fun r c' hr hc' => ?_⟩
            obtain rfl := Option.some.inj hc'
            exact hphase r hr
          dsimp only
          split
          · unfold takeForwarded
            dsimp only
            split
            · exact hgoes _ fun _ _ => trivial
            · split
              · exact hgoes _ fun _ _ => trivial
              · exact hgoes _ hawaits
          · exact hgoes _ fun _ _ => trivial
          · exact hgoes _ hawaits
      · exact hw

/-- **A step of a transfer.** -/
theorem Recognises.step (hw : w.Recognises) {event : TransferEvent}
    (hkeeps : w.KeepsWatermark (.transfer event)) : (w.step event).Recognises := by
  cases event with
  | start batchSize floodWaitLimit resolved =>
      simp only [TransferWorld.step, startCall]
      split
      · exact hw
      · split
        · refine ⟨hw.transferred, fun r c hr hc => ?_⟩
          obtain rfl := Option.some.inj hc
          trivial
        · exact hw
  | advance now =>
      simp only [TransferWorld.step, TransferWorld.advance]
      split
      · exact hw
      · next c hc =>
          split
          · exact hw.openJob
          · next r hr _ => exact hw.advanceOpened hr hc hkeeps
          · exact hw.stop
  | forward request => exact hw.forward request
  | raised failure =>
      simp only [TransferWorld.step, raise]
      split
      · exact hw
      · next c hc =>
          split
          · refine ⟨hw.transferred, fun r c' hr hc' => ?_⟩
            obtain rfl := Option.some.inj hc'
            trivial
          · exact hw.stop
  | posted message => exact ⟨hw.transferred, hw.awaits⟩
  | crash => exact hw.stop

/-! ### The source and the reindex -/

theorem Reaches.without {gone : List ℕ} {before rest : List TelegramMessage}
    (h : Reaches job (before ++ rest))
    (hkeeps : ∀ message ∈ rest, job.sourceHighWatermarkId = some message.id → message.id ∉ gone) :
    Reaches job (before ++ rest.filter fun message => message.id ∉ gone) := by
  obtain ⟨high, hhigh, hle | ⟨message, hmem, rfl⟩⟩ := h
  · exact ⟨high, hhigh, .inl hle⟩
  · refine ⟨message.id, hhigh, .inr ⟨message, ?_, rfl⟩⟩
    rcases List.mem_append.1 hmem with hmem | hmem
    · exact List.mem_append_left _ hmem
    · refine List.mem_append_right _ (List.mem_filter.2 ⟨hmem, ?_⟩)
      simpa using hkeeps message hmem hhigh

/-- A change of the source that keeps the watermark. -/
theorem Recognises.changeSource (hw : w.Recognises) {history : Channel} {gone : List ℕ}
    (hkeeps : w.KeepsWatermark (.changed history gone)) :
    (w.changeSource history gone).Recognises := by
  refine ⟨hw.transferred, fun r c' hr hc' => ?_⟩
  obtain ⟨c, hc, rfl⟩ := Option.map_eq_some_iff.1 hc'
  have hawaits := hw.awaits r c hr hc
  have hunread := hkeeps c r hc hr
  dsimp only
  cases hphase : c.phase with
  | batching rest =>
      rw [hphase] at hawaits hunread
      exact (Reaches.without (List.nil_append rest ▸ hawaits) hunread : Reaches r.job ([] ++ _))
  | forwarding batch toForward rest floodRetries =>
      rw [hphase] at hawaits hunread
      exact ⟨hawaits.1, hawaits.2.without hunread⟩
  | recording batch mappings rest =>
      rw [hphase] at hawaits hunread
      exact ⟨hawaits.1, hawaits.2.without hunread⟩
  | _ =>
      rw [hphase] at hawaits
      exact hawaits

end TransferWorld

namespace ReindexWorld

open TransferWorld

/-- What a reindex does to a job: it leaves the transfer alone and the status to itself. -/
def Reindexes (job job' : ImportJob) : Prop :=
  SameTransfer job job' ∧
    (job'.status = job.status ∨
      job'.status ∈ [ImportStatus.reindexing, .completed, .paused, .failed])

variable {w w' : ReindexWorld} {job job' : ImportJob}

theorem Reindexes.refl (job : ImportJob) : Reindexes job job := ⟨⟨rfl, rfl⟩, .inl rfl⟩

theorem Reindexes.trans {job'' : ImportJob} (h : Reindexes job job') (h' : Reindexes job' job'') :
    Reindexes job job'' := by
  refine ⟨⟨h'.1.1.trans h.1.1, h'.1.2.trans h.1.2⟩, ?_⟩
  rcases h'.2 with heq | hmem
  · rw [heq]
    exact h.2
  · exact .inr hmem

/-- A reindexed job was transferred before, if it is. -/
theorem Reindexes.transferred (h : Reindexes job job') (hstatus : job'.status = .transferred) :
    job.status = .transferred := by
  rcases h.2 with heq | hmem
  · rw [← heq, hstatus]
  · rw [hstatus] at hmem
    exact absurd hmem (by decide)

/-- A transfer that is complete can be reindexed, and reindexed again. -/
theorem Reindexes.isReindexable (h : Reindexes job job') (hcomplete : job.transferIsComplete)
    (hstatus : job.status = .transferred) : isReindexable job' := by
  have hcomplete' : job'.transferIsComplete := by rw [h.1.transferIsComplete]; exact hcomplete
  have hmem :
      job'.status ∈ [ImportStatus.transferred, .reindexing, .completed, .paused, .failed] := by
    rcases h.2 with heq | hmem
    · rw [heq, hstatus]
      exact List.mem_cons_self
    · exact List.mem_cons_of_mem _ hmem
  unfold ReindexWorld.isReindexable
  simp only [List.mem_cons, List.not_mem_nil, or_false] at hmem
  rcases hmem with hmem | hmem | hmem | hmem | hmem <;> rw [hmem]
  · exact hcomplete'
  · exact hcomplete'

theorem reindexes_transition {target : ImportStatus} {f : ImportJob → ImportJob}
    (h : (job.transition target).map f = .ok job')
    (htarget : target ∈ [ImportStatus.reindexing, .completed, .paused, .failed])
    (hf : ∀ job, SameTransfer job (f job) ∧ (f job).status = job.status) : Reindexes job job' := by
  refine ⟨sameTransfer_transition h fun job => (hf job).1, .inr ?_⟩
  rw [ImportJob.map_transition_eq h, (hf _).2]
  exact htarget

theorem reindexes_recordMapping {p : ReindexPass} {mapping : ImportMapping} {missing : Bool}
    {queue : List ((ImportMapping × ℕ) × Option TelegramMessage)} {now : Instant} :
    Reindexes w.record.job (w.recordMapping p mapping missing queue now).record.job := by
  unfold ReindexWorld.recordMapping
  split
  · next record hrecord =>
      unfold ImportRecord.markReindexed at hrecord
      split at hrecord
      · cases hrecord
      · obtain rfl := Except.ok.inj hrecord
        dsimp only
        split_ifs <;> exact ⟨⟨rfl, rfl⟩, .inl rfl⟩
  · exact .refl _

theorem reindexes_recordFailure {failure : ImportFailure} :
    Reindexes w.record.job (w.recordFailure failure).record.job := by
  unfold ReindexWorld.recordFailure
  cases failure with
  | channelAccess text =>
      dsimp only
      split
      · next job h => exact reindexes_transition h (by simp) fun _ => ⟨⟨rfl, rfl⟩, rfl⟩
      · exact .refl _
  | other text => exact .refl _
  | _ =>
      dsimp only
      split
      · next job h => exact reindexes_transition h (by simp) fun _ => ⟨⟨rfl, rfl⟩, rfl⟩
      · exact .refl _

variable [UnicodeData] {parser : ArchiveParser}

/-- **A step of a reindex leaves the transfer alone.** -/
theorem reindexes_step (w : ReindexWorld) (event : ReindexEvent) :
    Reindexes w.record.job (w.step parser event).record.job := by
  cases event with
  | start full batchSize resolved =>
      simp only [ReindexWorld.step, startPass]
      split <;> exact .refl _
  | advance now =>
      simp only [ReindexWorld.step, ReindexWorld.advance]
      split
      · exact .refl _
      · split
        · split
          · next job h => exact reindexes_transition h (by simp) fun _ => ⟨⟨rfl, rfl⟩, rfl⟩
          · exact .refl _
        · split
          · split <;> exact .refl _
          · exact .refl _
        · exact .refl _
        · exact .refl _
        · exact reindexes_recordMapping
        · split
          · split <;> exact .refl _
          · exact reindexes_recordMapping
        · exact reindexes_recordMapping
        · split
          · next job h => exact reindexes_transition h (by simp) fun _ => ⟨⟨rfl, rfl⟩, rfl⟩
          · exact .refl _
        · exact reindexes_recordFailure
  | lookup answer =>
      simp only [ReindexWorld.step, answerLookup]
      split
      · exact .refl _
      · split
        · split
          · exact .refl _
          · split <;> exact .refl _
        · exact .refl _
  | live call => exact .refl _
  | crash => exact .refl _

theorem reindexes_run (w : ReindexWorld) (events : List ReindexEvent) :
    Reindexes w.record.job (Transition.run (ReindexWorld.step parser) w events).record.job := by
  have htrans : ∀ v v' v'' : ReindexWorld, Reindexes v.record.job v'.record.job →
      Reindexes v'.record.job v''.record.job → Reindexes v.record.job v''.record.job :=
    fun _ _ _ h h' => h.trans h'
  exact Transition.run_rel (I := fun _ => True) (fun w => .refl w.record.job) htrans
    (fun _ _ _ => trivial)
    (fun w event _ => reindexes_step w event) trivial events

end ReindexWorld

namespace TransferWorld

section

variable [UnicodeData] {w : TransferWorld}

theorem Recognises.importStep (hw : w.Recognises) {event : ImportEvent}
    (hkeeps : w.KeepsWatermark event) :
    (w.importStep event).Recognises := by
  cases event with
  | transfer event => exact hw.step hkeeps
  | changed history gone => exact hw.changeSource hkeeps
  | reindex parser archiveChannelId setting tables events =>
      unfold TransferWorld.importStep TransferWorld.reindex
      dsimp only
      split
      · exact hw
      · next hcall =>
          refine ⟨fun r' hr' hstatus => ?_, fun r' c _ hc => ?_⟩
          · obtain ⟨r, hr, rfl⟩ := Option.map_eq_some_iff.1 hr'
            have hrun : ReindexWorld.Reindexes r.job
                (Transition.run (ReindexWorld.step parser)
                  (ReindexWorld.initial archiveChannelId setting r tables) events).record.job :=
              ReindexWorld.reindexes_run _ events
            rw [hrun.1.transferIsComplete]
            exact hw.transferred r hr (hrun.transferred hstatus)
          · rw [hc] at hcall
            exact absurd rfl hcall

/-- The job, when it is transferred, is recognised as complete, and it stays one that can be
reindexed through every reindex of it. -/
def Recognised (w : TransferWorld) : Prop :=
  ∀ r, w.record = some r → r.job.status = .transferred → r.job.transferIsComplete ∧
    ∀ parser archiveChannelId setting tables events,
      Transition.Always (ReindexWorld.step parser)
        (fun v => ReindexWorld.isReindexable v.record.job)
        (ReindexWorld.initial archiveChannelId setting r tables) events

theorem Recognises.recognised (hw : w.Recognises) : w.Recognised := by
  intro r hr hstatus
  have hcomplete := hw.transferred r hr hstatus
  refine ⟨hcomplete, fun parser archiveChannelId setting tables events before _ => ?_⟩
  exact (ReindexWorld.reindexes_run _ before).isReindexable hcomplete hstatus

/-- **A finished transfer is recognised** along every run in which the message at the watermark is
there whenever the source is read. -/
theorem finished_transfer_is_recognised (sourceChannelId : ℤ) (history archive : Channel)
    (events : List ImportEvent)
    (hkeeps : Transition.Along importStep KeepsWatermark (initial sourceChannelId history archive)
      events) :
    Transition.Always importStep Recognised (initial sourceChannelId history archive) events := by
  have hinitial : (initial sourceChannelId history archive).Recognises :=
    ⟨fun _ h => (by cases h), fun _ _ h => (by cases h)⟩
  intro before hbefore
  exact (Transition.run_invariant_along (fun _ _ hw h => hw.importStep h) hinitial
    (hkeeps.of_prefix hbefore)).recognised

end

/-! ### A watermark that is deleted -/

section

attribute [local instance] UnicodeData.asciiArabic

/-- The second message is deleted after the watermark has been recorded; the first is copied. -/
def deletedWatermark : List ImportEvent :=
  [.transfer (.start 100 60 true), .transfer (.advance 0), .transfer (.advance 0),
    .transfer (.advance 0), .changed (KeyedTable.empty.insert { id := 1 }) [2],
    .transfer (.advance 0), .transfer (.advance 0), .transfer (.advance 0), .transfer (.advance 0),
    .transfer (.forward ⟨[{ id := 8, fwdFrom := some ⟨some 1, some (-100)⟩ }],
      .messages [some { id := 8, fwdFrom := some ⟨some 1, some (-100)⟩ }]⟩),
    .transfer (.advance 0), .transfer (.advance 0), .transfer (.advance 0)]

/-- A reindex that loses the archive channel, and a second call. -/
def failedReindex : List ReindexEvent :=
  [.start false 100 true, .advance 0, .advance 0, .lookup (.error (.channelAccess [])), .advance 0,
    .start false 100 true]

/-- The transfer is finished, its checkpoint stands at 1 and its watermark at 2; the reindex that
failed is not resumed. -/
theorem deleted_watermark_is_not_recognised :
    ¬ (Transition.run importStep (initial (-100) twoMessages .empty) deletedWatermark).Recognised ∧
      ((Transition.run importStep (initial (-100) twoMessages .empty) deletedWatermark).record.map
        fun r =>
        (r.job.status, r.job.sourceHighWatermarkId, r.job.lastCopiedSourceMessageId,
          (Transition.run (ReindexWorld.step {}) (ReindexWorld.initial 7 (some (.int 7)) r .empty)
            failedReindex).record.job.status,
          (Transition.run (ReindexWorld.step {}) (ReindexWorld.initial 7 (some (.int 7)) r .empty)
            failedReindex).pass.isSome)) =
        some (.transferred, some 2, 1, .failed, false) := by
  have hfinished : (Transition.run importStep (initial (-100) twoMessages .empty)
      deletedWatermark).record.map
        (fun r => (r.job.status, r.job.transferIsComplete)) = some (.transferred, false) := by
    decide +kernel
  refine ⟨fun hrecognised => ?_, by decide +kernel⟩
  obtain ⟨r, hr, heq⟩ := Option.map_eq_some_iff.1 hfinished
  obtain ⟨hstatus, hcomplete⟩ := Prod.mk.inj heq
  rw [(hrecognised r hr hstatus).1] at hcomplete
  cases hcomplete

/-- The transfer of two messages that are both there. -/
theorem finished_transfer_is_recognised_twoMessages :
    Transition.Always importStep Recognised (initial (-100) twoMessages .empty)
      (recoveredTransfer.map .transfer) := by
  have hpresent : Transition.Along importStep (fun w _ => w.record.all fun r =>
      r.job.sourceHighWatermarkId.all fun high => w.history.rows.any fun message =>
        message.id = high)
      (initial (-100) twoMessages .empty) (recoveredTransfer.map .transfer) := by
    decide +kernel
  have htransfers : Transition.Along importStep (fun _ event => ∃ e, event = .transfer e)
      (initial (-100) twoMessages .empty) (recoveredTransfer.map .transfer) := by
    refine Transition.along_of_forall fun event hevent _ => ?_
    obtain ⟨e, -, rfl⟩ := List.mem_map.1 hevent
    exact ⟨e, rfl⟩
  refine finished_transfer_is_recognised (-100) twoMessages .empty _ ?_
  refine (hpresent.and htransfers).imp ?_
  rintro w event ⟨hall, e, rfl⟩
  cases e with
  | advance now =>
      intro c r _ _ hr high hhigh
      rw [hr, Option.all_some, hhigh, Option.all_some, List.any_eq_true] at hall
      obtain ⟨message, hmem, heq⟩ := hall
      exact .inr ⟨message, hmem, of_decide_eq_true heq⟩
  | _ => trivial

end

end TransferWorld
end CineGate

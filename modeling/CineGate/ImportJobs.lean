/-
**The jobs of the historical import.**

`repositories/import_jobs.py` and `importer/adapter.py`: what the importer reads off a Telegram
message, the row of a job with the transitions of its status, the mapping from source messages to
their copies in the archive, and the transactions on both.

* `TelegramMessage` — `isImportable`, `toArchive`, `forwardedSourceMessageId?`;
* `ImportJob` — `ImportJob.transition` and the `mark_*` functions;
* `ImportMap` — the mapping of a job, in which no two source messages share a copy;
* `ImportMap.insertMappings` — the insert that skips conflicts, and what it adds;
* `ImportRecord` — a job with its mapping, and the transactions that write to both.
-/

import CineGate.Domain

set_option relaxedAutoImplicit false
set_option autoImplicit false

namespace CineGate

/-! ### Telegram messages -/

/-- The header of a forwarded message.  `fromPeerId` is `utils.get_peer_id` of its `from_id`, when
it has one that can be read. -/
structure ForwardHeader where
  channelPost : Option ℕ
  fromPeerId : Option ℤ
deriving DecidableEq, Repr

/-- What the importer reads off a message. -/
structure TelegramMessage where
  id : ℕ
  isEmptyOrService : Bool := false
  photo : Bool := false
  video : Bool := false
  documentMimeType : Option Str := none
  rawText : Option Str := none
  editDate : Option Instant := none
  fwdFrom : Option ForwardHeader := none
  forwardChatId : Option ℤ := none
deriving DecidableEq, Repr

/-- `is_importable_message`. -/
def isImportable : Option TelegramMessage → Bool
  | none => false
  | some message => !message.isEmptyOrService && 0 < message.id

namespace TelegramMessage

/-- `_is_video_document`. -/
def isVideoDocument (message : TelegramMessage) : Bool :=
  message.documentMimeType.any "video/".toList.isPrefixOf

/-- `telethon_message_to_archive`. -/
def toArchive (message : TelegramMessage) (h : 0 < message.id) : ArchiveMessage where
  messageId := message.id
  mediaKind :=
    if message.photo then .photo
    else if message.video then .video
    else if message.isVideoDocument then .document
    else .other
  caption := message.rawText.filter fun text => !text.isEmpty
  editedAt := message.editDate
  messageId_pos := h

/-- `_forward_source_chat_id`. -/
def forwardSourceChatId? (message : TelegramMessage) (header : ForwardHeader) : Option ℤ :=
  match header.fromPeerId with
  | some peerId => some peerId
  | none => message.forwardChatId

/-- `forwarded_source_message_id`. -/
def forwardedSourceMessageId? (message : TelegramMessage) (expectedSourceChannelId : ℤ) :
    Option ℕ :=
  match message.fwdFrom with
  | none => none
  | some header =>
      match header.channelPost with
      | none => none
      | some channelPost =>
          if message.forwardSourceChatId? header ≠ some expectedSourceChannelId then none
          else some channelPost

end TelegramMessage

/-! ### Jobs -/

/-- The exceptions of an import.  `other` is one that is no `HistoricalImportError`. -/
inductive ImportFailure
  | sourceForwardingRestricted (text : Str)
  | floodWaitTooLong (seconds : ℤ)
  | channelAccess (text : Str)
  | historicalImport (text : Str)
  | other (text : Str)
deriving DecidableEq, Repr

/-- `str(exc)`. -/
def ImportFailure.text : ImportFailure → Str
  | sourceForwardingRestricted text | channelAccess text | historicalImport text | other text =>
      text
  | floodWaitTooLong seconds =>
      "Telegram FloodWait is too long: ".toList ++ (toString seconds).toList ++ " seconds".toList

inductive ImportStatus
  | ready
  | running
  | paused
  | transferred
  | reindexing
  | completed
  | failed
deriving DecidableEq, Repr

namespace ImportStatus

def name : ImportStatus → Str
  | ready => "ready".toList
  | running => "running".toList
  | paused => "paused".toList
  | transferred => "transferred".toList
  | reindexing => "reindexing".toList
  | completed => "completed".toList
  | failed => "failed".toList

/-- `_ALLOWED_TRANSITIONS`. -/
def allowedTransitions : ImportStatus → List ImportStatus
  | ready => [running, failed]
  | running => [paused, failed, transferred]
  | paused => [running, reindexing, failed]
  | failed => [running, reindexing]
  | transferred => [running, reindexing]
  | reindexing => [paused, failed, completed]
  | completed => [reindexing]

end ImportStatus

/-- A row of `archive_import_jobs`. -/
structure ImportJob where
  status : ImportStatus := .ready
  sourceHighWatermarkId : Option ℕ := none
  archiveBaselineMessageId : Option ℕ := none
  lastCopiedSourceMessageId : ℕ := 0
  lastReindexedSourceMessageId : ℕ := 0
  sourceTotalEstimate : Option ℕ := none
  processedMessages : ℕ := 0
  copiedMessages : ℕ := 0
  reconciledMessages : ℕ := 0
  skippedMessages : ℕ := 0
  reindexedMessages : ℕ := 0
  missingArchiveMessages : ℕ := 0
  startedAt : Option Instant := none
  completedAt : Option Instant := none
  lastError : Option Str := none
deriving DecidableEq, Repr

namespace ImportJob

/-- `_transition`. -/
def transition (job : ImportJob) (target : ImportStatus) : Except ImportFailure ImportJob :=
  if job.status = target then .ok job
  else if target ∈ job.status.allowedTransitions then .ok { job with status := target }
  else
    .error (.other ("invalid import status transition: ".toList ++ job.status.name ++
      " -> ".toList ++ target.name))

/-- `_bounded_error`. -/
def boundedError (error : Str) : Str := error.take 2000

/-- `initialize_snapshot`. -/
def initializeSnapshot (job : ImportJob) (sourceHighWatermarkId archiveBaselineMessageId : ℕ)
    (sourceTotalEstimate : Option ℕ) : ImportJob :=
  if job.sourceHighWatermarkId = none then
    { job with
      sourceHighWatermarkId := some sourceHighWatermarkId
      archiveBaselineMessageId := some archiveBaselineMessageId
      sourceTotalEstimate }
  else job

/-- `mark_running`. -/
def markRunning (job : ImportJob) (now : Instant) : Except ImportFailure ImportJob :=
  (job.transition .running).map fun job =>
    { job with
      startedAt := job.startedAt.or (some now)
      completedAt := none
      lastError := none }

/-- `mark_paused`. -/
def markPaused (job : ImportJob) (error : Str) : Except ImportFailure ImportJob :=
  (job.transition .paused).map fun job => { job with lastError := some (boundedError error) }

/-- `mark_failed`. -/
def markFailed (job : ImportJob) (error : Str) : Except ImportFailure ImportJob :=
  (job.transition .failed).map fun job => { job with lastError := some (boundedError error) }

/-- `mark_transferred`. -/
def markTransferred (job : ImportJob) : Except ImportFailure ImportJob :=
  (job.transition .transferred).map fun job => { job with lastError := none }

/-- `mark_reindexing`. -/
def markReindexing (job : ImportJob) : Except ImportFailure ImportJob :=
  (job.transition .reindexing).map fun job => { job with lastError := none }

/-- `mark_completed`. -/
def markCompleted (job : ImportJob) (now : Instant) : Except ImportFailure ImportJob :=
  (job.transition .completed).map fun job =>
    { job with completedAt := some now, lastError := none }

/-- `_transfer_is_complete`. -/
def transferIsComplete (job : ImportJob) : Bool :=
  match job.sourceHighWatermarkId with
  | none => false
  | some high => high ≤ job.lastCopiedSourceMessageId

/-- A transition changes the status only. -/
theorem map_transition_eq {job job' : ImportJob} {target : ImportStatus} {f : ImportJob → ImportJob}
    (h : (job.transition target).map f = .ok job') : job' = f { job with status := target } := by
  unfold transition at h
  split at h
  · next hstatus =>
      obtain rfl := Except.ok.inj h
      rw [← hstatus]
  · split at h
    · exact (Except.ok.inj h).symm
    · cases h

/-- A transition that is allowed is made. -/
theorem map_transition {job : ImportJob} {target : ImportStatus} (f : ImportJob → ImportJob)
    (h : target ∈ job.status.allowedTransitions) :
    (job.transition target).map f = .ok (f { job with status := target }) := by
  rw [transition, if_pos h]
  split
  · next hstatus =>
      rw [← hstatus]
      rfl
  · rfl

end ImportJob

/-! ### Mappings -/

/-- A row of `archive_import_message_map`. -/
structure ImportMapping where
  sourceMessageId : ℕ
  archiveMessageId : ℕ
  reindexedAt : Option Instant := none
deriving DecidableEq, Repr

namespace ImportMapping

/-- The row has been reindexed. -/
def mark (now : Instant) (row : ImportMapping) : ImportMapping :=
  { row with reindexedAt := some now }

@[simp] theorem sourceMessageId_mark {now : Instant} (row : ImportMapping) :
    (row.mark now).sourceMessageId = row.sourceMessageId := rfl

end ImportMapping

/-- The rows of a job.  The second unique constraint of the table is the field. -/
structure ImportMap where
  rows : KeyedTable ImportMapping ImportMapping.sourceMessageId
  archiveUnique : ∀ a ∈ rows, ∀ b ∈ rows, a.archiveMessageId = b.archiveMessageId → a = b

namespace ImportMap

/-- No message has been mapped. -/
def empty : ImportMap := ⟨.empty, fun _ h => by cases h⟩

/-- The source message has been mapped. -/
def Maps (m : ImportMap) (sourceMessageId : ℕ) : Prop :=
  ∃ row ∈ m.rows, row.sourceMessageId = sourceMessageId

/-- `count_mappings`. -/
def count (m : ImportMap) : ℕ := m.rows.rows.length

/-- A row with one of the two ids exists. -/
def conflicts (m : ImportMap) (sourceMessageId archiveMessageId : ℕ) : Bool :=
  (m.rows.find? sourceMessageId).isSome ||
    m.rows.rows.any fun row => row.archiveMessageId = archiveMessageId

variable {m : ImportMap} {sourceMessageId archiveMessageId : ℕ}

theorem maps_iff_find? : m.Maps sourceMessageId ↔ (m.rows.find? sourceMessageId).isSome := by
  constructor
  · rintro ⟨row, hrow, rfl⟩
    rw [KeyedTable.find?_of_mem hrow]
    rfl
  · intro h
    obtain ⟨row, hrow⟩ := Option.isSome_iff_exists.1 h
    exact ⟨row, KeyedTable.mem_of_find? hrow, KeyedTable.key_of_find? hrow⟩

instance : Decidable (m.Maps sourceMessageId) := decidable_of_iff _ maps_iff_find?.symm

theorem conflicts_eq_false : m.conflicts sourceMessageId archiveMessageId = false ↔
    ¬ m.Maps sourceMessageId ∧ ∀ row ∈ m.rows, row.archiveMessageId ≠ archiveMessageId := by
  rw [maps_iff_find?]
  simp [conflicts]

/-- The row of one value of the `INSERT … ON CONFLICT DO NOTHING`, and how many rows it adds. -/
def insertMapping (m : ImportMap) (sourceMessageId archiveMessageId : ℕ) : ImportMap × ℕ :=
  if h : m.conflicts sourceMessageId archiveMessageId = true then (m, 0)
  else
    (⟨m.rows.insert ⟨sourceMessageId, archiveMessageId, none⟩, by
      obtain ⟨-, hnew⟩ := conflicts_eq_false.1 (Bool.eq_false_iff.2 h)
      intro a ha b hb heq
      rcases KeyedTable.mem_of_mem_insert ha with rfl | ha <;>
        rcases KeyedTable.mem_of_mem_insert hb with rfl | hb
      · rfl
      · exact absurd heq.symm (hnew b hb)
      · exact absurd heq (hnew a ha)
      · exact m.archiveUnique a ha b hb heq⟩, 1)

/-- `_insert_mappings`: the rows added, and how many. -/
def insertMappings (m : ImportMap) : List (ℕ × ℕ) → ImportMap × ℕ
  | [] => (m, 0)
  | p :: mappings =>
      let (m, inserted) := m.insertMapping p.1 p.2
      let (m, insertedLater) := m.insertMappings mappings
      (m, inserted + insertedLater)

/-- `mapped_source_ids`. -/
def mappedSourceIds (m : ImportMap) (sourceMessageIds : List ℕ) : List ℕ :=
  sourceMessageIds.filter fun id => m.Maps id

theorem mem_mappedSourceIds {sourceMessageIds : List ℕ} {id : ℕ} :
    id ∈ m.mappedSourceIds sourceMessageIds ↔ id ∈ sourceMessageIds ∧ m.Maps id := by
  rw [mappedSourceIds, List.mem_filter, decide_eq_true_eq]

/-- `max_mapped_archive_message_id`. -/
def maxMappedArchiveMessageId (m : ImportMap) : Option ℕ :=
  (m.rows.rows.map ImportMapping.archiveMessageId).max?

/-- `list_mappings_after`. -/
def listMappingsAfter (m : ImportMap) (afterSourceMessageId : ℕ) (limit : ℤ) :
    List ImportMapping :=
  (m.rows.rows.filter fun row => afterSourceMessageId < row.sourceMessageId).take
    (max 1 (min 500 limit)).toNat

/-- The row of a mapping that is inserted. -/
theorem mem_insertMapping {row : ImportMapping} :
    row ∈ (m.insertMapping sourceMessageId archiveMessageId).1.rows ↔
      row ∈ m.rows ∨ m.conflicts sourceMessageId archiveMessageId = false ∧
        row = ⟨sourceMessageId, archiveMessageId, none⟩ := by
  unfold insertMapping
  split
  · next h => simp [h]
  · next h =>
      have hfree := Bool.eq_false_iff.2 h
      have hnew : m.rows.find? (ImportMapping.sourceMessageId
          ⟨sourceMessageId, archiveMessageId, none⟩) = none := by
        simpa [maps_iff_find?] using (conflicts_eq_false.1 hfree).1
      simp [KeyedTable.mem_insert hnew, hfree, or_comm]

theorem count_insertMapping :
    (m.insertMapping sourceMessageId archiveMessageId).1.count =
      m.count + (m.insertMapping sourceMessageId archiveMessageId).2 := by
  unfold insertMapping
  split
  · rfl
  · next h =>
      have hnew : m.rows.find? (ImportMapping.sourceMessageId
          ⟨sourceMessageId, archiveMessageId, none⟩) = none := by
        simpa [maps_iff_find?] using (conflicts_eq_false.1 (Bool.eq_false_iff.2 h)).1
      exact (KeyedTable.perm_insert hnew).length_eq

/-- What is added is counted. -/
theorem count_insertMappings (mappings : List (ℕ × ℕ)) :
    (m.insertMappings mappings).1.count = m.count + (m.insertMappings mappings).2 := by
  induction mappings generalizing m with
  | nil => rfl
  | cons p mappings ih =>
      have hfirst : (m.insertMapping p.1 p.2).1.count = m.count + (m.insertMapping p.1 p.2).2 :=
        count_insertMapping
      simp only [insertMappings, ih, hfirst]
      omega

/-- Rows are kept. -/
theorem mem_insertMappings_of_mem {mappings : List (ℕ × ℕ)} {row : ImportMapping}
    (h : row ∈ m.rows) : row ∈ (m.insertMappings mappings).1.rows := by
  induction mappings generalizing m with
  | nil => exact h
  | cons p mappings ih => exact ih (mem_insertMapping.2 (.inl h))

/-- A row that has been added is one of the mappings. -/
theorem mem_of_mem_insertMappings {mappings : List (ℕ × ℕ)} {row : ImportMapping}
    (h : row ∈ (m.insertMappings mappings).1.rows) :
    row ∈ m.rows ∨ (row.sourceMessageId, row.archiveMessageId) ∈ mappings := by
  induction mappings generalizing m with
  | nil => exact .inl h
  | cons p mappings ih =>
      rcases ih h with h | h
      · rcases mem_insertMapping.1 h with h | ⟨-, rfl⟩
        · exact .inl h
        · exact .inr List.mem_cons_self
      · exact .inr (List.mem_cons_of_mem _ h)

theorem Maps.insertMappings {mappings : List (ℕ × ℕ)} (h : m.Maps sourceMessageId) :
    (m.insertMappings mappings).1.Maps sourceMessageId := by
  obtain ⟨row, hrow, hid⟩ := h
  exact ⟨row, mem_insertMappings_of_mem hrow, hid⟩

/-- Mappings to distinct copies that no row has are all there afterwards. -/
theorem maps_insertMappings {mappings : List (ℕ × ℕ)}
    (hdistinct : mappings.Pairwise fun p q => p.2 ≠ q.2)
    (hnew : ∀ p ∈ mappings, ∀ row ∈ m.rows, row.archiveMessageId ≠ p.2)
    {p : ℕ × ℕ} (hp : p ∈ mappings) : (m.insertMappings mappings).1.Maps p.1 := by
  induction mappings generalizing m with
  | nil => cases hp
  | cons q mappings ih =>
      obtain ⟨hq, hdistinct⟩ := List.pairwise_cons.1 hdistinct
      rcases List.mem_cons.1 hp with rfl | hp
      · -- the first mapping: the source has a row already, or gets one now
        have hfirst : (m.insertMapping p.1 p.2).1.Maps p.1 := by
          by_cases hmaps : m.Maps p.1
          · obtain ⟨row, hrow, hid⟩ := hmaps
            exact ⟨row, mem_insertMapping.2 (.inl hrow), hid⟩
          · have hfree := conflicts_eq_false.2 ⟨hmaps, hnew p List.mem_cons_self⟩
            exact ⟨_, mem_insertMapping.2 (.inr ⟨hfree, rfl⟩), rfl⟩
        exact hfirst.insertMappings
      · refine ih hdistinct (fun p' hp' row hrow => ?_) hp
        rcases mem_insertMapping.1 hrow with hrow | ⟨-, rfl⟩
        · exact hnew p' (List.mem_cons_of_mem _ hp') row hrow
        · exact hq p' hp'

end ImportMap

/-! ### Transactions on a job and its mapping -/

/-- A job with its mapping. -/
structure ImportRecord where
  job : ImportJob
  map : ImportMap

namespace ImportRecord

/-- `record_reconciled_mappings`. -/
def recordReconciledMappings (r : ImportRecord) (mappings : List (ℕ × ℕ)) : ImportRecord :=
  let (map, inserted) := r.map.insertMappings mappings
  { job := { r.job with
      copiedMessages := r.job.copiedMessages + inserted
      reconciledMessages := r.job.reconciledMessages + inserted }
    map }

/-- `record_transfer_batch`. -/
def recordTransferBatch (r : ImportRecord)
    (processedThroughSourceId processedCount skippedCount : ℕ)
    (forwardedMappings : List (ℕ × ℕ)) : ImportRecord :=
  let (map, inserted) := r.map.insertMappings forwardedMappings
  if processedThroughSourceId ≤ r.job.lastCopiedSourceMessageId then { r with map }
  else
    { job := { r.job with
        lastCopiedSourceMessageId := processedThroughSourceId
        processedMessages := r.job.processedMessages + processedCount
        skippedMessages := r.job.skippedMessages + skippedCount
        copiedMessages := r.job.copiedMessages + inserted }
      map }

/-- The row of a source message is marked as reindexed. -/
def markRow (m : ImportMap) (sourceMessageId : ℕ) (now : Instant) : ImportMap where
  rows := m.rows.modifyAt sourceMessageId (ImportMapping.mark now)
    ImportMapping.sourceMessageId_mark
  archiveUnique := by
    intro a ha b hb heq
    rcases KeyedTable.mem_modifyAt.1 ha with ⟨ha, hne⟩ | ⟨a', ha', hid, rfl⟩ <;>
      rcases KeyedTable.mem_modifyAt.1 hb with ⟨hb, hne'⟩ | ⟨b', hb', hid', rfl⟩
    · exact m.archiveUnique a ha b hb heq
    · exact absurd (m.archiveUnique a ha b' hb' heq ▸ hid') hne
    · exact absurd (m.archiveUnique b hb a' ha' heq.symm ▸ hid) hne'
    · rw [m.archiveUnique a' ha' b' hb' heq]

theorem source_of_mem_markRow {m : ImportMap} {sourceMessageId : ℕ} {now : Instant}
    {row' : ImportMapping} (h : row' ∈ (markRow m sourceMessageId now).rows) :
    ∃ row ∈ m.rows, row.sourceMessageId = row'.sourceMessageId := by
  have hmem : row' ∈ m.rows.modifyAt sourceMessageId (ImportMapping.mark now)
      ImportMapping.sourceMessageId_mark := h
  rcases KeyedTable.mem_modifyAt.1 hmem with ⟨hrow, -⟩ | ⟨row, hrow, -, rfl⟩
  · exact ⟨row', hrow, rfl⟩
  · exact ⟨row, hrow, rfl⟩

/-- `mark_reindexed`. -/
def markReindexed (r : ImportRecord) (sourceMessageId : ℕ) (missing : Bool) (now : Instant) :
    Except ImportFailure ImportRecord :=
  match r.map.rows.find? sourceMessageId with
  | none => .error (.other "import mapping disappeared during reindex".toList)
  | some mapping =>
      let r :=
        if mapping.reindexedAt = none then
          { job :=
              if missing then
                { r.job with missingArchiveMessages := r.job.missingArchiveMessages + 1 }
              else { r.job with reindexedMessages := r.job.reindexedMessages + 1 }
            map := markRow r.map sourceMessageId now }
        else r
      .ok { r with job :=
        if r.job.lastReindexedSourceMessageId < sourceMessageId then
          { r.job with lastReindexedSourceMessageId := sourceMessageId }
        else r.job }

/-- Marking a row adds no row and leaves the status alone. -/
theorem markReindexed_spec {r r' : ImportRecord} {sourceMessageId : ℕ} {missing : Bool}
    {now : Instant} (h : r.markReindexed sourceMessageId missing now = .ok r') :
    r'.job.status = r.job.status ∧
      ∀ row' ∈ r'.map.rows, ∃ row ∈ r.map.rows, row.sourceMessageId = row'.sourceMessageId := by
  unfold markReindexed at h
  split at h
  · cases h
  · next mapping hfind =>
      obtain rfl := Except.ok.inj h
      refine ⟨by dsimp only; split_ifs <;> rfl, fun row' hrow' => ?_⟩
      dsimp only at hrow'
      split at hrow'
      · exact source_of_mem_markRow hrow'
      · exact ⟨row', hrow', rfl⟩

end ImportRecord
end CineGate

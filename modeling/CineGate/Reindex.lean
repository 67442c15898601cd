/-
**The reindex of a historical import.**

`HistoricalImportService.reindex` as a process that can be interrupted between any two of its
transactions.  A pass walks the mappings in the order of their source messages; a full one starts at
zero, another one at the checkpoint `last_reindexed_source_message_id`, which only grows.  A full
pass that is interrupted leaves the checkpoint of the pass before it, and a call that resumes from
there completes the job without the mappings that the full pass has not reached.

* `ReindexWorld.step` — one event: a call, the next transaction of a pass, an answer of Telegram, a
  crash, or a live change of the archive tables;
* `ReindexWorld.CompletedCovers` — a completed job has been covered since the last full pass began;
* `ReindexWorld.ResumesCovered` — the condition on a step;
* `ReindexWorld.completed_covers_iff_resumes_covered` — along any run the first holds throughout
  exactly when every step meets the second.
-/

import CineGate.ArchiveSteps
import CineGate.ImportJobs
import CineGate.Transition

set_option relaxedAutoImplicit false
set_option autoImplicit false

namespace CineGate

/-! ### The process -/

/-- Where a pass stands: before its transaction or call to Telegram. -/
inductive ReindexPhase
  | marking
  | listing
  | lookup (batch : List (ImportMapping × ℕ))
  | replaying (queue : List ((ImportMapping × ℕ) × Option TelegramMessage))
  | recording (mapping : ImportMapping)
      (queue : List ((ImportMapping × ℕ) × Option TelegramMessage))
  | completing
  | failing (failure : ImportFailure)

/-- A call of `reindex`: its arguments and its local variables.  `start` is where its pass began. -/
structure ReindexPass where
  full : Bool
  batchSize : ℤ
  job : ImportJob
  start : ℕ
  after : ℕ
  phase : ReindexPhase

/-- The database, the call under way, and the source messages that have been reconciled or recorded
as missing since the last full pass began. -/
structure ReindexWorld where
  archiveChannelId : ℤ
  setting : Option SettingValue
  record : ImportRecord
  tables : ArchiveTables
  pass : Option ReindexPass := none
  covered : Option (List ℕ) := none

inductive ReindexEvent
  | start (full : Bool) (batchSize : ℤ) (resolved : Bool)
  | advance (now : Instant)
  | lookup (answer : Except ImportFailure (List (Option TelegramMessage)))
  | live (call : ArchiveCall)
  | crash

theorem pos_of_isImportable {message : TelegramMessage} (h : isImportable (some message) = true) :
    0 < message.id := by
  simp only [isImportable, Bool.and_eq_true, decide_eq_true_eq] at h
  exact h.2

namespace ReindexWorld

/-- The statuses in which a job can be reindexed. -/
def isReindexable (job : ImportJob) : Bool :=
  match job.status with
  | .transferred | .reindexing | .completed => true
  | .paused | .failed => job.transferIsComplete
  | .ready | .running => false

/-- `_ensure_archive_setting`. -/
def settingMatches (w : ReindexWorld) : Bool :=
  match getInt w.setting with
  | .ok configured => configured = some w.archiveChannelId
  | .error _ => false

/-- The pass a call begins with. -/
def firstPass (job : ImportJob) (full : Bool) (batchSize : ℤ) : ReindexPass where
  full := full
  batchSize := batchSize
  job := job
  start := if full then 0 else job.lastReindexedSourceMessageId
  after := if full then 0 else job.lastReindexedSourceMessageId
  phase := if job.status ≠ .completed || full then .marking else .listing

/-- A call begins: it is refused, or it has the lock and the archive channel. -/
def startPass (w : ReindexWorld) (full : Bool) (batchSize : ℤ) (resolved : Bool) : ReindexWorld :=
  if w.pass.isSome || !isReindexable w.record.job || !resolved || !w.settingMatches then w
  else { w with pass := some (firstPass w.record.job full batchSize) }

/-- The call ends. -/
def stop (w : ReindexWorld) : ReindexWorld := { w with pass := none }

/-- The transaction of `_mark_reindexed`, after which the pass goes on with the rest of its batch.
It covers a message that is missing; one that has been reconciled is covered already. -/
def recordMapping (w : ReindexWorld) (p : ReindexPass) (mapping : ImportMapping) (missing : Bool)
    (queue : List ((ImportMapping × ℕ) × Option TelegramMessage)) (now : Instant) : ReindexWorld :=
  match w.record.markReindexed mapping.sourceMessageId missing now with
  | .ok record =>
      { w with
        record
        pass := some { p with after := mapping.sourceMessageId, phase := .replaying queue }
        covered := if missing then w.covered.map (mapping.sourceMessageId :: ·) else w.covered }
  | .error _ => w.stop

/-- `mark_failed` or `mark_paused`, after an exception in the loop. -/
def recordFailure (w : ReindexWorld) (failure : ImportFailure) : ReindexWorld :=
  let marked := match failure with
    | .channelAccess text => w.record.job.markFailed text
    | .other _ => .ok w.record.job
    | failure => w.record.job.markPaused failure.text
  match marked with
  | .ok job => { w with record := { w.record with job } }.stop
  | .error _ => w.stop

/-- Telegram answers the lookup of a batch. -/
def answerLookup (w : ReindexWorld)
    (answer : Except ImportFailure (List (Option TelegramMessage))) :
    ReindexWorld :=
  match w.pass with
  | none => w
  | some p =>
      match p.phase with
      | .lookup batch =>
          match answer with
          | .error failure => { w with pass := some { p with phase := .failing failure } }
          | .ok messages =>
              if messages.length ≠ batch.length then
                { w with pass := some { p with phase := .failing (.historicalImport
                  "archive message lookup returned an unexpected result length".toList) } }
              else { w with pass := some { p with phase := .replaying (batch.zip messages) } }
      | _ => w

variable [UnicodeData] (parser : ArchiveParser)

/-- The next transaction of the pass. -/
def advance (w : ReindexWorld) (now : Instant) : ReindexWorld :=
  match w.pass with
  | none => w
  | some p =>
      match p.phase with
      | .marking =>
          match w.record.job.markReindexing with
          | .ok job =>
              { w with
                record := { w.record with job }
                pass := some { p with job, phase := .listing }
                covered := if p.full then some [] else w.covered }
          | .error _ => w.stop
      | .listing =>
          match w.record.map.listMappingsAfter p.after p.batchSize with
          | [] =>
              if p.job.status ≠ .completed then
                { w with pass := some { p with phase := .completing } }
              else w.stop
          | mappings =>
              let batch := mappings.map fun mapping =>
                (mapping, w.tables.snapshotVersion w.archiveChannelId mapping.archiveMessageId)
              { w with pass := some { p with phase := .lookup batch } }
      | .lookup _ => w
      | .replaying [] =>
          { w with pass := some { p with job := w.record.job, phase := .listing } }
      | .replaying (((mapping, _), none) :: queue) =>
          w.recordMapping p mapping true queue now
      | .replaying (((mapping, version), some message) :: queue) =>
          if h : isImportable (some message) = true then
            match w.tables.reconcileEdit parser w.setting w.archiveChannelId
                (message.toArchive (pos_of_isImportable h)) (some version) with
            | .ok (tables, _) =>
                { w with
                  tables
                  pass := some { p with phase := .recording mapping queue }
                  covered := w.covered.map (mapping.sourceMessageId :: ·) }
            | .error _ => w.stop
          else w.recordMapping p mapping true queue now
      | .recording mapping queue => w.recordMapping p mapping false queue now
      | .completing =>
          match w.record.job.markCompleted now with
          | .ok job => { w with record := { w.record with job } }.stop
          | .error _ => w.stop
      | .failing failure => w.recordFailure failure

/-- One event. -/
def step (w : ReindexWorld) : ReindexEvent → ReindexWorld
  | .start full batchSize resolved => w.startPass full batchSize resolved
  | .advance now => w.advance parser now
  | .lookup answer => w.answerLookup answer
  | .live call => { w with tables := w.tables.call parser call }
  | .crash => w.stop

/-! ### What a pass covers -/

end ReindexWorld

/-- The mappings a pass has still to replay before it lists the next ones. -/
def ReindexPhase.queue : ReindexPhase → List ImportMapping
  | .lookup batch => batch.map Prod.fst
  | .replaying queue => queue.map fun item => item.1.1
  | .recording mapping queue => mapping :: queue.map fun item => item.1.1
  | _ => []

/-- The rows of the map beyond `after` are in the queue, or beyond it. -/
structure ImportMap.Queued (m : ImportMap) (after : ℕ) (queue : List ImportMapping) : Prop where
  ordered : queue.Pairwise fun a b => a.sourceMessageId < b.sourceMessageId
  beyond : ∀ x ∈ queue, after < x.sourceMessageId
  complete : ∀ row ∈ m.rows, after < row.sourceMessageId →
    (∃ x ∈ queue, x.sourceMessageId = row.sourceMessageId) ∨
      ∀ x ∈ queue, x.sourceMessageId < row.sourceMessageId

namespace ImportMap.Queued

variable {m : ImportMap} {after : ℕ} {queue : List ImportMapping}

theorem nil : m.Queued after [] :=
  ⟨List.Pairwise.nil, fun _ h => (by cases h), fun _ _ _ => .inr fun _ h => (by cases h)⟩

/-- What `list_mappings_after` returns. -/
theorem list (m : ImportMap) (after : ℕ) (limit : ℤ) :
    m.Queued after (m.listMappingsAfter after limit) := by
  have hordered : (m.rows.rows.filter fun row => after < row.sourceMessageId).Pairwise
      fun a b => a.sourceMessageId < b.sourceMessageId :=
    m.rows.ordered.sublist List.filter_sublist
  unfold listMappingsAfter
  refine ⟨hordered.sublist (List.take_sublist _ _), fun x hx => ?_, fun row hrow hafter => ?_⟩
  · simpa using (List.mem_filter.1 (List.mem_of_mem_take hx)).2
  · have hmem : row ∈ m.rows.rows.filter fun row => after < row.sourceMessageId :=
      List.mem_filter.2 ⟨hrow, by simpa using hafter⟩
    generalize (max 1 (min 500 limit)).toNat = n
    rw [← List.take_append_drop n (m.rows.rows.filter _), List.mem_append] at hmem
    rcases hmem with hmem | hmem
    · exact .inl ⟨row, hmem, rfl⟩
    · -- what comes after the limit is beyond all that comes before it
      rw [← List.take_append_drop n (m.rows.rows.filter _), List.pairwise_append] at hordered
      exact .inr fun x hx => hordered.2.2 x hx row hmem

/-- The list is empty when no row is left. -/
theorem le_of_list_eq_nil {limit : ℤ} (h : m.listMappingsAfter after limit = []) :
    ∀ row ∈ m.rows, row.sourceMessageId ≤ after := by
  intro row hrow
  by_contra hafter
  have hmem : row ∈ m.rows.rows.filter fun row => after < row.sourceMessageId :=
    List.mem_filter.2 ⟨hrow, by simpa using hafter⟩
  unfold listMappingsAfter at h
  rcases List.take_eq_nil_iff.1 h with hzero | hnil
  · omega
  · rw [hnil] at hmem
    cases hmem

/-- The head of the queue is the next row. -/
theorem head {x : ImportMapping} (h : m.Queued after (x :: queue)) {row : ImportMapping}
    (hrow : row ∈ m.rows) (hafter : after < row.sourceMessageId)
    (hle : row.sourceMessageId ≤ x.sourceMessageId) : row.sourceMessageId = x.sourceMessageId := by
  rcases h.complete row hrow hafter with ⟨y, hy, heq⟩ | hlt
  · rcases List.mem_cons.1 hy with rfl | hy
    · exact heq.symm
    · have hxy := (List.pairwise_cons.1 h.ordered).1 y hy
      omega
  · have hx := hlt x List.mem_cons_self
    omega

/-- After its head the rest of the queue is next. -/
theorem tail {x : ImportMapping} (h : m.Queued after (x :: queue)) :
    m.Queued x.sourceMessageId queue := by
  obtain ⟨hx, hordered⟩ := List.pairwise_cons.1 h.ordered
  refine ⟨hordered, hx, fun row hrow hafter => ?_⟩
  have hbeyond := h.beyond x List.mem_cons_self
  rcases h.complete row hrow (by omega) with ⟨y, hy, heq⟩ | hlt
  · rcases List.mem_cons.1 hy with rfl | hy
    · omega
    · exact .inl ⟨y, hy, heq⟩
  · exact .inr fun y hy => hlt y (List.mem_cons_of_mem _ hy)

/-- Rows may lose everything but their source messages. -/
theorem of_rows {m' : ImportMap} (h : m.Queued after queue)
    (hrows : ∀ row' ∈ m'.rows, ∃ row ∈ m.rows, row.sourceMessageId = row'.sourceMessageId) :
    m'.Queued after queue := by
  refine ⟨h.ordered, h.beyond, fun row' hrow' hafter => ?_⟩
  obtain ⟨row, hrow, heq⟩ := hrows row' hrow'
  rw [← heq] at hafter ⊢
  exact h.complete row hrow hafter

end ImportMap.Queued

namespace ReindexWorld

/-- **A completed job has been covered**: once a full pass has begun, every mapping of a completed
job has been reconciled or recorded as missing since then. -/
def CompletedCovers (w : ReindexWorld) : Prop :=
  w.record.job.status = .completed → ∀ covered, w.covered = some covered →
    ∀ row ∈ w.record.map.rows, row.sourceMessageId ∈ covered

/-- The event does not complete a pass that began beyond a mapping which the last full pass has not
covered. -/
def ResumesCovered (w : ReindexWorld) (event : ReindexEvent) : Prop :=
  ∀ now p, event = .advance now → w.pass = some p → (p.phase matches .completing) →
    ∀ covered, w.covered = some covered →
      ∀ row ∈ w.record.map.rows, row.sourceMessageId ≤ p.start → row.sourceMessageId ∈ covered

/-- The invariant of a pass. -/
structure Walks (w : ReindexWorld) (p : ReindexPass) : Prop where
  status : p.phase = .marking ∨ p.job.status = w.record.job.status ∧
    (p.job.status = .reindexing ∨ p.job.status = .completed)
  begun : p.phase = .marking → p.after = p.start
  covered : ∀ covered, w.covered = some covered → ∀ row ∈ w.record.map.rows,
    p.start < row.sourceMessageId → row.sourceMessageId ≤ p.after → row.sourceMessageId ∈ covered
  queued : w.record.map.Queued p.after p.phase.queue
  recording : ∀ mapping queue, p.phase = .recording mapping queue →
    ∀ covered, w.covered = some covered → mapping.sourceMessageId ∈ covered
  finished : p.phase = .completing → p.job.status ≠ .completed ∧
    ∀ row ∈ w.record.map.rows, row.sourceMessageId ≤ p.after

/-- The pass under way meets its invariant. -/
def Sound (w : ReindexWorld) : Prop := ∀ p, w.pass = some p → w.Walks p

variable {w w' : ReindexWorld}

theorem sound_stop : w.stop.Sound := fun _ h => by cases h

/-- The step completes nothing and covers what was covered. -/
structure Quiet (w w' : ReindexWorld) : Prop where
  status : w'.record.job.status = .completed → w.record.job.status = .completed
  covered : w'.record.job.status = .completed → ∀ covered', w'.covered = some covered' →
    ∃ covered, w.covered = some covered ∧ ∀ id ∈ covered, id ∈ covered'
  rows : ∀ row' ∈ w'.record.map.rows, ∃ row ∈ w.record.map.rows,
    row.sourceMessageId = row'.sourceMessageId

theorem Quiet.of_eq (hrecord : w'.record = w.record) (hcovered : w'.covered = w.covered) :
    w.Quiet w' := by
  refine ⟨fun h => hrecord ▸ h, fun _ covered' h => ⟨covered', hcovered ▸ h, fun _ h => h⟩, ?_⟩
  intro row' hrow'
  exact ⟨row', hrecord ▸ hrow', rfl⟩

theorem Quiet.completedCovers (h : w.Quiet w') (hw : w.CompletedCovers) : w'.CompletedCovers := by
  intro hcompleted covered' hcovered' row' hrow'
  obtain ⟨covered, hcovered, hsub⟩ := h.covered hcompleted covered' hcovered'
  obtain ⟨row, hrow, heq⟩ := h.rows row' hrow'
  exact heq ▸ hsub _ (hw (h.status hcompleted) covered hcovered row hrow)

/-- The transaction that marks a row. -/
theorem quiet_recordMapping {p : ReindexPass} {mapping : ImportMapping} {missing : Bool}
    {queue : List ((ImportMapping × ℕ) × Option TelegramMessage)} {now : Instant} :
    w.Quiet (w.recordMapping p mapping missing queue now) := by
  unfold recordMapping
  split
  · next record hrecord =>
      obtain ⟨hstatus, hrows⟩ := ImportRecord.markReindexed_spec hrecord
      refine ⟨fun h => hstatus ▸ h, fun _ covered' h => ?_, hrows⟩
      dsimp only at h
      split at h
      · obtain ⟨covered, hcovered, rfl⟩ := Option.map_eq_some_iff.1 h
        exact ⟨covered, hcovered, fun _ hid => List.mem_cons_of_mem _ hid⟩
      · exact ⟨covered', h, fun _ hid => hid⟩
  · exact .of_eq rfl rfl

/-- The mark of a row takes the pass past it, once the row has been covered. -/
theorem Walks.recordMapping {p : ReindexPass} (hp : w.Walks p) {mapping : ImportMapping}
    {missing : Bool} {queue : List ((ImportMapping × ℕ) × Option TelegramMessage)} {now : Instant}
    (hphase : p.phase ≠ .marking)
    (hqueue : p.phase.queue = mapping :: queue.map fun item => item.1.1)
    (hcovers : missing = false → ∀ covered, w.covered = some covered →
      mapping.sourceMessageId ∈ covered) :
    (w.recordMapping p mapping missing queue now).Sound := by
  unfold ReindexWorld.recordMapping
  split
  · next record hrecord =>
      obtain ⟨hstatus, hrows⟩ := ImportRecord.markReindexed_spec hrecord
      have hqueued := hqueue ▸ hp.queued
      rintro p' hp'
      obtain rfl := Option.some.inj hp'
      refine ⟨.inr ?_, fun h => (by cases h), fun covered' hcovered' row' hrow' hstart hafter => ?_,
        hqueued.tail.of_rows hrows, fun _ _ h => (by cases h), fun h => (by cases h)⟩
      · obtain ⟨hjob, hjob'⟩ := hp.status.resolve_left hphase
        exact ⟨hjob.trans hstatus.symm, hjob'⟩
      · -- a row up to the mapping was covered before, or is that of the mapping
        obtain ⟨row, hrow, heq⟩ := hrows row' hrow'
        dsimp only at hcovered' hstart hafter
        rw [← heq] at hstart hafter ⊢
        by_cases hold : row.sourceMessageId ≤ p.after
        · split at hcovered'
          · obtain ⟨covered, hcovered, rfl⟩ := Option.map_eq_some_iff.1 hcovered'
            exact List.mem_cons_of_mem _ (hp.covered covered hcovered row hrow hstart hold)
          · exact hp.covered covered' hcovered' row hrow hstart hold
        · rw [hqueued.head hrow (Nat.lt_of_not_le hold) hafter]
          split at hcovered'
          · obtain ⟨covered, hcovered, rfl⟩ := Option.map_eq_some_iff.1 hcovered'
            exact List.mem_cons_self
          · next hmissing => exact hcovers (by simpa using hmissing) covered' hcovered'
  · exact sound_stop

/-- The pass goes on to another phase; the record and the coverage stay. -/
theorem Walks.goesOn {p : ReindexPass} (hp : w.Walks p) {phase : ReindexPhase}
    (hrecord : w'.record = w.record) (hcovered : w'.covered = w.covered)
    (hmarking : p.phase ≠ .marking) (hmarking' : phase ≠ .marking)
    (hqueued : w.record.map.Queued p.after phase.queue)
    (hrecording : ∀ mapping queue, phase ≠ .recording mapping queue)
    (hfinished : phase = .completing → p.job.status ≠ .completed ∧
      ∀ row ∈ w.record.map.rows, row.sourceMessageId ≤ p.after) :
    w'.Walks { p with phase } := by
  refine ⟨.inr ?_, fun h => absurd h hmarking', ?_, ?_,
    fun mapping queue h => absurd h (hrecording mapping queue), ?_⟩
  · rw [hrecord]
    exact hp.status.resolve_left hmarking
  · rw [hcovered, hrecord]
    exact hp.covered
  · rw [hrecord]
    exact hqueued
  · rw [hrecord]
    exact hfinished

/-- A call begins where nothing has been walked yet. -/
theorem sound_startPass {full : Bool} {batchSize : ℤ} {resolved : Bool} (hw : w.Sound) :
    (w.startPass full batchSize resolved).Sound := by
  unfold startPass
  split
  · exact hw
  · next hguard =>
      rintro p hp
      obtain rfl := Option.some.inj hp
      have hafter : (firstPass w.record.job full batchSize).after =
          (firstPass w.record.job full batchSize).start := rfl
      refine ⟨?_, fun _ => hafter, fun covered _ row _ hstart hle => ?_, ?_, ?_, ?_⟩
      · by_cases hcompleted : w.record.job.status = .completed ∧ full = false
        · obtain ⟨hcompleted, rfl⟩ := hcompleted
          exact .inr ⟨rfl, .inr hcompleted⟩
        · left
          have hmark : (w.record.job.status ≠ .completed || full) = true := by
            cases full <;> simp_all
          simp only [firstPass, hmark, if_true]
      · rw [hafter] at hle
        omega
      · have hqueue : (firstPass w.record.job full batchSize).phase.queue = [] := by
          simp only [firstPass]
          split <;> rfl
        rw [hqueue]
        exact .nil
      all_goals
        simp only [firstPass]
        split <;> simp

theorem sound_answerLookup {answer : Except ImportFailure (List (Option TelegramMessage))}
    (hw : w.Sound) : (w.answerLookup answer).Sound := by
  unfold answerLookup
  split
  · exact hw
  · next p hpass =>
      have hp := hw p hpass
      split
      · next batch hphase =>
          have hmarking : p.phase ≠ .marking := by simp [hphase]
          have hqueued : w.record.map.Queued p.after (batch.map Prod.fst) := by
            have := hp.queued
            rwa [hphase] at this
          have hfailing : ∀ failure,
              Sound { w with pass := some { p with phase := .failing failure } } := by
            intro failure p' hp'
            obtain rfl := Option.some.inj hp'
            exact hp.goesOn rfl rfl hmarking (by simp) .nil (by simp) (by simp)
          split
          · exact hfailing _
          · next messages =>
              split
              · exact hfailing _
              · next hlength =>
                  rintro p' hp'
                  obtain rfl := Option.some.inj hp'
                  refine hp.goesOn rfl rfl hmarking (by simp) ?_ (by simp) (by simp)
                  -- the answers come in the order of the batch
                  have hle : batch.length ≤ messages.length := by
                    simp only [ne_eq, Decidable.not_not] at hlength
                    omega
                  have hzip : ((batch.zip messages).map fun item => item.1.1) =
                      batch.map Prod.fst := by
                    calc (batch.zip messages).map (fun item => item.1.1)
                        = ((batch.zip messages).map Prod.fst).map Prod.fst := by simp
                      _ = batch.map Prod.fst := by rw [List.map_fst_zip hle]
                  rw [ReindexPhase.queue, hzip]
                  exact hqueued
      · exact hw

theorem quiet_recordFailure {failure : ImportFailure} : w.Quiet (w.recordFailure failure) := by
  have hmark : ∀ {target : ImportStatus} {f : ImportJob → ImportJob} {job' : ImportJob},
      (w.record.job.transition target).map f = .ok job' → target ≠ .completed →
        (∀ job, (f job).status = job.status) →
          w.Quiet { w with record := { w.record with job := job' } }.stop := by
    intro target f job' h htarget hf
    have hstatus : job'.status ≠ .completed := by
      rw [ImportJob.map_transition_eq h, hf]
      exact htarget
    exact ⟨fun h => absurd h hstatus, fun h => absurd h hstatus, fun row hrow => ⟨row, hrow, rfl⟩⟩
  unfold recordFailure
  cases failure with
  | channelAccess text =>
      dsimp only
      split
      · next job h => exact hmark h (by simp) fun _ => rfl
      · exact .of_eq rfl rfl
  | other text => exact .of_eq rfl rfl
  | _ =>
      dsimp only
      split
      · next job h => exact hmark h (by simp) fun _ => rfl
      · exact .of_eq rfl rfl

theorem sound_recordFailure {failure : ImportFailure} : (w.recordFailure failure).Sound := by
  unfold recordFailure
  dsimp only
  split <;> exact sound_stop

section Step

variable [UnicodeData] {parser : ArchiveParser}

/-- **A transaction of a pass keeps the invariant.** -/
theorem Sound.advance (hw : w.Sound) {now : Instant} : (w.advance parser now).Sound := by
  unfold ReindexWorld.advance
  split
  · exact hw
  · next p hpass =>
      have hp := hw p hpass
      split
      · next hphase =>
          -- the pass begins: the job is being reindexed, and nothing has been walked yet
          split
          · next job hjob =>
              obtain rfl := ImportJob.map_transition_eq hjob
              rintro p' hp'
              obtain rfl := Option.some.inj hp'
              refine ⟨.inr ⟨rfl, .inl rfl⟩, fun h => (by cases h),
                fun covered _ row _ hstart hle => ?_, .nil, fun _ _ h => (by cases h),
                fun h => (by cases h)⟩
              have hbegun := hp.begun hphase
              dsimp only at hstart hle
              omega
          · exact sound_stop
      · next hphase =>
          have hmarking : p.phase ≠ .marking := by simp [hphase]
          split
          · next hnil =>
              split
              · next hstatus =>
                  rintro p' hp'
                  obtain rfl := Option.some.inj hp'
                  exact hp.goesOn rfl rfl hmarking (by simp) .nil (by simp) fun _ =>
                    ⟨hstatus, ImportMap.Queued.le_of_list_eq_nil hnil⟩
              · exact sound_stop
          · next mappings =>
              rintro p' hp'
              obtain rfl := Option.some.inj hp'
              refine hp.goesOn rfl rfl hmarking (by simp) ?_ (by simp) (by simp)
              simp only [ReindexPhase.queue, List.map_map, Function.comp_def, List.map_id']
              exact .list _ _ _
      · exact hw
      · next hphase =>
          -- the batch is done; the local copy of the job is read again
          rintro p' hp'
          obtain rfl := Option.some.inj hp'
          obtain ⟨hjob, hstatus⟩ := hp.status.resolve_left (by simp [hphase])
          exact ⟨.inr ⟨rfl, hjob ▸ hstatus⟩, fun h => (by cases h), hp.covered, .nil,
            fun _ _ h => (by cases h), fun h => (by cases h)⟩
      · next mapping version queue hphase =>
          exact hp.recordMapping (by simp [hphase]) (by simp [hphase, ReindexPhase.queue]) (by simp)
      · next mapping version message queue hphase =>
          split
          · split
            · next tables result hindex =>
                rintro p' hp'
                obtain rfl := Option.some.inj hp'
                refine ⟨.inr (hp.status.resolve_left (by simp [hphase])), fun h => (by cases h), ?_,
                  ?_, ?_, fun h => (by cases h)⟩
                · intro covered' hcovered' row hrow hstart hle
                  obtain ⟨covered, hcovered, rfl⟩ := Option.map_eq_some_iff.1 hcovered'
                  exact List.mem_cons_of_mem _ (hp.covered covered hcovered row hrow hstart hle)
                · have hqueued := hp.queued
                  rw [hphase] at hqueued
                  exact hqueued
                · rintro mapping' queue' h covered' hcovered'
                  obtain ⟨rfl, rfl⟩ := ReindexPhase.recording.inj h
                  obtain ⟨covered, hcovered, rfl⟩ := Option.map_eq_some_iff.1 hcovered'
                  exact List.mem_cons_self
            · exact sound_stop
          · exact hp.recordMapping (by simp [hphase]) (by simp [hphase, ReindexPhase.queue])
              (by simp)
      · next mapping queue hphase =>
          exact hp.recordMapping (by simp [hphase]) (by simp [hphase, ReindexPhase.queue]) fun _ =>
            hp.recording mapping queue hphase
      · split <;> exact sound_stop
      · exact sound_recordFailure

theorem Sound.step (hw : w.Sound) (event : ReindexEvent) : (w.step parser event).Sound := by
  cases event with
  | start full batchSize resolved => exact sound_startPass hw
  | advance now => exact hw.advance
  | lookup answer => exact sound_answerLookup hw
  | live call => exact fun p hp => ⟨(hw p hp).status, (hw p hp).begun, (hw p hp).covered,
      (hw p hp).queued, (hw p hp).recording, (hw p hp).finished⟩
  | crash => exact sound_stop

/-- A transaction that does not complete the job is quiet. -/
theorem quiet_advance {now : Instant} (h : ∀ p, w.pass = some p → ¬ (p.phase matches .completing)) :
    w.Quiet (w.advance parser now) := by
  unfold ReindexWorld.advance
  split
  · exact .of_eq rfl rfl
  · next p hpass =>
      split
      · split
        · next job hjob =>
            obtain rfl := ImportJob.map_transition_eq hjob
            exact ⟨fun h => (by cases h), fun h => (by cases h), fun row hrow => ⟨row, hrow, rfl⟩⟩
        · exact .of_eq rfl rfl
      · split
        · split <;> exact .of_eq rfl rfl
        · exact .of_eq rfl rfl
      · exact .of_eq rfl rfl
      · exact .of_eq rfl rfl
      · exact quiet_recordMapping
      · split
        · split
          · refine ⟨fun h => h, fun _ covered' hcovered' => ?_, fun row hrow => ⟨row, hrow, rfl⟩⟩
            obtain ⟨covered, hcovered, rfl⟩ := Option.map_eq_some_iff.1 hcovered'
            exact ⟨covered, hcovered, fun _ hid => List.mem_cons_of_mem _ hid⟩
          · exact .of_eq rfl rfl
        · exact quiet_recordMapping
      · exact quiet_recordMapping
      · next hphase => exact absurd (by rw [hphase]) (h p hpass)
      · exact quiet_recordFailure

/-- An event that does not complete the job is quiet. -/
theorem quiet_step {event : ReindexEvent} (h : ∀ now p, event = .advance now → w.pass = some p →
    ¬ (p.phase matches .completing)) : w.Quiet (w.step parser event) := by
  cases event with
  | start full batchSize resolved =>
      simp only [ReindexWorld.step, startPass]
      split <;> exact .of_eq rfl rfl
  | advance now => exact quiet_advance fun p => h now p rfl
  | lookup answer =>
      simp only [ReindexWorld.step, answerLookup]
      split
      · exact .of_eq rfl rfl
      · split
        · split
          · exact .of_eq rfl rfl
          · split <;> exact .of_eq rfl rfl
        · exact .of_eq rfl rfl
  | live call => exact .of_eq rfl rfl
  | crash => exact .of_eq rfl rfl

/-- The last transaction of a pass completes the job. -/
theorem Sound.advance_completing (parser : ArchiveParser) (hw : w.Sound) {p : ReindexPass}
    (hpass : w.pass = some p)
    (hphase : p.phase = .completing) (now : Instant) :
    ∃ job, job.status = .completed ∧
      w.advance parser now = { w with record := { w.record with job } }.stop := by
  have hp := hw p hpass
  obtain ⟨hjob, hstatus⟩ := hp.status.resolve_left (by simp [hphase])
  have hreindexing : w.record.job.status = .reindexing :=
    hjob ▸ hstatus.resolve_right (hp.finished hphase).1
  have hallowed : ImportStatus.completed ∈ w.record.job.status.allowedTransitions := by
    simp [hreindexing, ImportStatus.allowedTransitions]
  have hmark : ∃ job, w.record.job.markCompleted now = .ok job ∧ job.status = .completed :=
    ⟨_, ImportJob.map_transition _ hallowed, rfl⟩
  obtain ⟨job, hmark, hstatus⟩ := hmark
  refine ⟨job, hstatus, ?_⟩
  unfold ReindexWorld.advance
  simp only [hpass, hphase, hmark]

/-- A step keeps completed jobs covered exactly when it meets the condition. -/
theorem Sound.completedCovers_step_iff (hw : w.Sound) (hcovers : w.CompletedCovers)
    (event : ReindexEvent) : (w.step parser event).CompletedCovers ↔ w.ResumesCovered event := by
  by_cases h : ∃ now p, event = .advance now ∧ w.pass = some p ∧ p.phase = .completing
  · obtain ⟨now, p, rfl, hpass, hphase⟩ := h
    obtain ⟨job, hcompleted, hstep⟩ := hw.advance_completing parser hpass hphase now
    have hp := hw p hpass
    rw [show w.step parser (.advance now) = w.advance parser now from rfl, hstep]
    constructor
    · rintro hafter now' p' - - - covered hcovered row hrow -
      exact hafter hcompleted covered hcovered row hrow
    · intro hevent _ covered hcovered row hrow
      by_cases hstart : row.sourceMessageId ≤ p.start
      · exact hevent now p rfl hpass (by rw [hphase]) covered hcovered row hrow hstart
      · exact hp.covered covered hcovered row hrow (Nat.lt_of_not_le hstart)
          ((hp.finished hphase).2 row hrow)
  · have hno : ∀ now p, event = .advance now → w.pass = some p →
        ¬ (p.phase matches .completing) := by
      intro now p he hpass hmatch
      refine h ⟨now, p, he, hpass, ?_⟩
      cases hphase : p.phase <;> simp_all
    exact iff_of_true ((quiet_step hno).completedCovers hcovers) fun now p he hpass hmatch =>
      absurd hmatch (hno now p he hpass)

/-! ### Runs -/

/-- A job with its mapping and the archive tables, before any call. -/
def initial (archiveChannelId : ℤ) (setting : Option SettingValue) (record : ImportRecord)
    (tables : ArchiveTables) : ReindexWorld :=
  { archiveChannelId, setting, record, tables }

/-- **Along a run every completed job has been covered since the last full pass began exactly when
no pass is completed that began beyond a mapping the last full pass had not covered.** -/
theorem completed_covers_iff_resumes_covered (parser : ArchiveParser) (archiveChannelId : ℤ)
    (setting : Option SettingValue) (record : ImportRecord) (tables : ArchiveTables)
    (events : List ReindexEvent) :
    Transition.Always (ReindexWorld.step parser) CompletedCovers
        (initial archiveChannelId setting record tables) events ↔
      Transition.Along (ReindexWorld.step parser) ResumesCovered
        (initial archiveChannelId setting record tables) events :=
  Transition.always_iff_along (J := Sound) (fun _ event hw _ _ => hw.step event)
    (fun _ event hw hcovers => hw.completedCovers_step_iff hcovers event)
    (fun _ h => by cases h) (fun _ _ h => by cases h) events

end Step

section Counterexample

attribute [local instance] UnicodeData.asciiArabic

/-- A transferred job with two mapped messages. -/
def transferredRecord : ImportRecord where
  job := { status := .transferred, sourceHighWatermarkId := some 2, lastCopiedSourceMessageId := 2 }
  map := (ImportMap.empty.insertMappings [(1, 101), (2, 102)]).1

/-- Telegram's answer to the lookup of both copies. -/
def bothCopies : List (Option TelegramMessage) :=
  [some { id := 101, rawText := some "one".toList },
    some { id := 102, rawText := some "two".toList }]

/-- The first pass completes; a full one stops after its first message, and an ordinary call
completes the job. -/
def interruptedReplay : List ReindexEvent :=
  [.start false 100 true, .advance 0, .advance 0, .lookup (.ok bothCopies), .advance 0, .advance 0,
    .advance 0, .advance 0, .advance 0, .advance 0, .advance 0,
    .start true 100 true, .advance 1, .advance 1, .lookup (.ok bothCopies), .advance 1, .advance 1,
    .crash,
    .start false 100 true, .advance 2, .advance 2, .advance 2]

theorem interruptedReplay_skips_mapping :
    ¬ (Transition.run (ReindexWorld.step {})
      (initial 7 (some (.int 7)) transferredRecord .empty) interruptedReplay).CompletedCovers := by
  intro hcovers
  have hstatus : (Transition.run (ReindexWorld.step {})
      (initial 7 (some (.int 7)) transferredRecord .empty) interruptedReplay).record.job.status =
        .completed := by decide +kernel
  have hcovered : (Transition.run (ReindexWorld.step {})
      (initial 7 (some (.int 7)) transferredRecord .empty) interruptedReplay).covered =
        some [1] := by decide +kernel
  have hrow : ∃ row, (Transition.run (ReindexWorld.step {})
      (initial 7 (some (.int 7)) transferredRecord .empty) interruptedReplay).record.map.rows.find?
        2 =
        some row ∧ row.sourceMessageId = 2 := ⟨_, rfl, by decide +kernel⟩
  obtain ⟨row, hrow, hid⟩ := hrow
  have hmem := hcovers hstatus [1] hcovered row (KeyedTable.mem_of_find? hrow)
  rw [hid] at hmem
  simp at hmem

end Counterexample

end ReindexWorld
end CineGate

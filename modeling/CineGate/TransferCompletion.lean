/-
**A call that is left alone completes the transfer.**

Whatever has interrupted the earlier calls, a call that nobody disturbs and whose requests Telegram
grants ends with the job transferred.  The number of its steps is bounded by the sizes of the two
channels: every step moves the call on, the scan of the archive by a message and the transfer by a
batch.

* `TransferWorld.Cooperates` — the next transaction, or the copies of the batch that is requested;
* `TransferWorld.rank` — how many steps are left at most;
* `TransferWorld.OnCourse.step` — a step of a call on course;
* `TransferWorld.undisturbed_transfer_completes` — the call ends, and the job is transferred.
-/

import CineGate.ImportAccounts
import CineGate.Progress

set_option relaxedAutoImplicit false
set_option autoImplicit false

namespace CineGate

/-- The job is running while a call is in the phase. -/
def TransferPhase.isTransferring : TransferPhase → Bool
  | .batching _ | .forwarding .. | .recording .. | .finishing => true
  | _ => false

namespace TransferWorld

variable {w : TransferWorld} {r : ImportRecord} {c : TransferCall}

/-- The messages of the archive beyond the cursor of a scan. -/
def unscanned (w : TransferWorld) (cursor : ℕ) : List TelegramMessage :=
  w.archive.rows.filter fun m => cursor < m.id

/-- A bound on the steps that are left of a call. -/
def rank (w : TransferWorld) : TransferPhase → ℕ
  | .opening => 3 * w.history.rows.length + 2 * w.archive.rows.length + 9
  | .measuring => 3 * w.history.rows.length + 2 * w.archive.rows.length + 8
  | .initializing .. => 3 * w.history.rows.length + 2 * w.archive.rows.length + 7
  | .seeking => 3 * w.history.rows.length + 2 * w.archive.rows.length + 6
  | .scanning cursor _ => 3 * w.history.rows.length + 2 * (w.unscanned cursor).length + 5
  | .flushing cursor _ => 3 * w.history.rows.length + 2 * (w.unscanned cursor).length + 6
  | .settling _ => 3 * w.history.rows.length + 4
  | .running => 3 * w.history.rows.length + 3
  | .batching rest => 3 * rest.length + 2
  | .forwarding _ _ rest _ => 3 * rest.length + 4
  | .recording _ _ rest => 3 * rest.length + 3
  | .finishing => 1
  | .failing _ => 0

/-- The call can end with the job transferred: the job may be run, it is running from the first
batch on, and nothing has failed. -/
structure OnCourse (w : TransferWorld) (c : TransferCall) : Prop where
  runnable : ∀ r, w.record = some r → r.job.status ≠ .completed ∧ r.job.status ≠ .reindexing
  running : c.phase.isTransferring → ∀ r, w.record = some r → r.job.status = .running
  healthy : ∀ failure, c.phase ≠ .failing failure

/-- The call takes its next step, and Telegram copies the batch that is requested. -/
def Cooperates (w : TransferWorld) (event : TransferEvent) : Prop :=
  match w.call.map TransferCall.phase with
  | some (.forwarding _ toForward _ _) =>
      ∃ request, event = .forward request ∧ w.Accepts toForward request ∧
        request.reply = .messages (request.accepted.map some) ∧
          request.accepted.length = toForward.length
  | _ => ∃ now, event = .advance now

/-- The call goes on with fewer steps left, or it has ended with the job transferred. -/
def MovesOn (w w' : TransferWorld) (c : TransferCall) : Prop :=
  (∃ c', w'.call = some c' ∧ w'.OnCourse c' ∧ w'.rank c'.phase + 1 ≤ w.rank c.phase) ∨
    w'.call = none ∧ ∃ r, w'.record = some r ∧ r.job.status = .transferred

/-! ### The scan -/

/-- The scan leaves one message behind. -/
theorem length_unscanned_lt {cursor : ℕ} {m : TelegramMessage}
    (h : w.nextArchiveMessage? cursor = some m) :
    (w.unscanned m.id).length + 1 ≤ (w.unscanned cursor).length := by
  obtain ⟨hmem, hlt, -⟩ := nextArchiveMessage?_eq_some h
  have hsplit : w.unscanned m.id = (w.unscanned cursor).filter fun m' => m.id < m'.id := by
    unfold unscanned
    rw [List.filter_filter]
    refine List.filter_congr fun m' _ => ?_
    rw [Bool.eq_iff_iff]
    simp only [Bool.and_eq_true, decide_eq_true_eq]
    omega
  have hscanned : m ∈ w.unscanned cursor := List.mem_filter.2 ⟨hmem, decide_eq_true hlt⟩
  rw [hsplit]
  exact List.length_filter_lt_length_iff_exists.2 ⟨m, hscanned, by simp⟩

/-- The call goes on in a phase with fewer steps left. -/
theorem movesOn_goTo {c' : TransferCall} {record : Option ImportRecord} {phase : TransferPhase}
    (hrunnable : ∀ r, record = some r → r.job.status ≠ .completed ∧ r.job.status ≠ .reindexing)
    (hrunning : phase.isTransferring → ∀ r, record = some r → r.job.status = .running)
    (hhealthy : ∀ failure, phase ≠ .failing failure) (hrank : w.rank phase + 1 ≤ w.rank c.phase) :
    w.MovesOn ({ w with record }.goTo c' phase) c := by
  refine .inl ⟨_, rfl, ⟨hrunnable, hrunning, hhealthy⟩, ?_⟩
  cases phase <;> exact hrank

/-- The call goes on before the first batch. -/
theorem OnCourse.goTo (h : w.OnCourse c) {phase : TransferPhase}
    (hphase : phase.isTransferring = false) (hhealthy : ∀ failure, phase ≠ .failing failure)
    (hrank : w.rank phase + 1 ≤ w.rank c.phase) : w.MovesOn (w.goTo c phase) c :=
  movesOn_goTo h.runnable
    (fun htransferring => by rw [hphase] at htransferring; cases htransferring)
    hhealthy hrank

theorem OnCourse.scan (h : w.OnCourse c) {cursor : ℕ} {pending : List (ℕ × ℕ)}
    (hphase : c.phase = .scanning cursor pending) : w.MovesOn (w.scan c cursor pending) c := by
  have hrank : w.rank c.phase =
      3 * w.history.rows.length + 2 * (w.unscanned cursor).length + 5 := by rw [hphase, rank]
  unfold TransferWorld.scan
  split
  · split
    · exact h.goTo rfl (fun _ h => by cases h) (by rw [hrank, rank]; omega)
    · exact h.goTo rfl (fun _ h => by cases h) (by rw [hrank, rank]; omega)
  · next m hnext =>
      have hlt := length_unscanned_lt hnext
      have hscanning : ∀ pending, w.MovesOn (w.goTo c (.scanning m.id pending)) c := fun pending =>
        h.goTo rfl (fun _ h => by cases h) (by rw [hrank, rank]; omega)
      split
      · exact hscanning pending
      · split
        · exact hscanning pending
        · dsimp only
          split
          · exact h.goTo rfl (fun _ h => by cases h) (by rw [hrank, rank]; omega)
          · exact hscanning _

/-! ### The batches -/

/-- Ascending ids pass the check on a batch. -/
theorem isStrictlyIncreasing_of_pairwise {values : List ℕ} (h : values.Pairwise (· < ·)) :
    isStrictlyIncreasing values = true := by
  induction values with
  | nil => rfl
  | cons v values ih =>
      obtain ⟨hv, htail⟩ := List.pairwise_cons.1 h
      cases values with
      | nil => rfl
      | cons v' values =>
          have ih := ih htail
          simp only [isStrictlyIncreasing, List.tail_cons, List.zip_cons_cons, List.all_cons,
            Bool.and_eq_true, decide_eq_true_eq] at ih ⊢
          exact ⟨hv v' List.mem_cons_self, ih⟩

theorem OnCourse.nextBatch (h : w.OnCourse c) {rest : List TelegramMessage}
    (hphase : c.phase = .batching rest) (hrest : rest = w.unread r) :
    w.MovesOn (w.nextBatch c r rest) c := by
  have hrank : w.rank c.phase = 3 * rest.length + 2 := by rw [hphase, rank]
  have hrunning : ∀ r, w.record = some r → r.job.status = .running :=
    h.running (by rw [hphase]; rfl)
  have hlength : (rest.take c.batchSize).length + (rest.drop c.batchSize).length = rest.length := by
    rw [← List.length_append, List.take_append_drop]
  unfold TransferWorld.nextBatch
  split
  · exact movesOn_goTo h.runnable (fun _ => hrunning) (fun _ h => by cases h)
      (by rw [hrank, rank]; omega)
  · next hne =>
      have hpos : 0 < (rest.take c.batchSize).length := List.length_pos_iff.2 hne
      have hordered : rest.Pairwise fun m m' => m.id < m'.id := by
        rw [hrest]
        exact ordered_sourceMessages
      have hincreasing : isStrictlyIncreasing ((rest.take c.batchSize).map TelegramMessage.id) :=
        isStrictlyIncreasing_of_pairwise
          (List.pairwise_map.2 (hordered.sublist (List.take_sublist _ _)))
      rw [hincreasing]
      simp only [Bool.not_true, Bool.false_eq_true, if_false]
      split
      · exact movesOn_goTo h.runnable (fun _ => hrunning) (fun _ h => by cases h)
          (by rw [hrank, rank]; omega)
      · exact movesOn_goTo h.runnable (fun _ => hrunning) (fun _ h => by cases h)
          (by rw [hrank, rank]; omega)

theorem OnCourse.recordBatch (h : w.OnCourse c) (hr : w.record = some r)
    {batch rest : List TelegramMessage} {forwardedMappings : List (ℕ × ℕ)}
    (hphase : c.phase = .recording batch forwardedMappings rest) (hne : batch ≠ []) :
    w.MovesOn (w.recordBatch c r batch forwardedMappings rest) c := by
  have hrunning : r.job.status = .running := h.running (by rw [hphase]; rfl) r hr
  unfold TransferWorld.recordBatch
  split
  · next hlast => exact absurd (List.getLast?_eq_none_iff.1 hlast) hne
  · next last hlast =>
      have hstatus : ∀ r', some (r.recordTransferBatch last.id batch.length
          (batch.length - (batch.filter fun m => isImportable (some m)).length) forwardedMappings) =
            some r' → r'.job.status = .running := by
        rintro r' ⟨⟩
        unfold ImportRecord.recordTransferBatch
        dsimp only
        split <;> exact hrunning
      refine movesOn_goTo (fun r' hr' => ?_) (fun _ => hstatus) (fun _ h => by cases h)
        (by rw [hphase, rank, rank])
      rw [hstatus r' hr']
      exact ⟨fun h => (by cases h), fun h => (by cases h)⟩

/-- Telegram's reply to a request it has granted is a complete batch in order. -/
theorem OnCourse.forward (h : w.OnCourse c) (hcall : w.call = some c)
    {batch toForward rest : List TelegramMessage} {floodRetries : ℕ} {request : ForwardRequest}
    (hphase : c.phase = .forwarding batch toForward rest floodRetries)
    (haccepts : w.Accepts toForward request)
    (hreply : request.reply = .messages (request.accepted.map some))
    (hlength : request.accepted.length = toForward.length) : w.MovesOn (w.forward request) c := by
  have hrunning : ∀ r, w.record = some r → r.job.status = .running :=
    h.running (by rw [hphase]; rfl)
  have hcomplete : ((request.accepted.map some).filterMap id) = request.accepted := by simp
  have hincreasing : isStrictlyIncreasing (request.accepted.map TelegramMessage.id) :=
    isStrictlyIncreasing_of_pairwise (List.pairwise_map.2 haccepts.ascending)
  unfold TransferWorld.forward
  simp only [hcall, hphase, hreply, ForwardReply.outcome, takeForwarded, List.length_map, hlength,
    ne_eq, not_true_eq_false, decide_false, List.any_map, Bool.false_or, hcomplete, hincreasing,
    Bool.not_true, Bool.false_eq_true, if_false]
  rw [if_neg (by simp)]
  refine .inl ⟨_, rfl, ⟨h.runnable, fun _ => hrunning, fun _ h => by cases h⟩, ?_⟩
  rw [hphase, rank]
  exact le_refl _

/-! ### The steps -/

theorem OnCourse.openJob (h : w.OnCourse c) (hphase : c.phase = .opening) :
    w.MovesOn (w.openJob c) c := by
  have hrank : w.rank c.phase = 3 * w.history.rows.length + 2 * w.archive.rows.length + 9 := by
    rw [hphase, rank]
  have hrunnable : (w.record.getD ⟨{}, .empty⟩).job.status ≠ .completed ∧
      (w.record.getD ⟨{}, .empty⟩).job.status ≠ .reindexing := by
    cases hrecord : w.record with
    | none => exact ⟨fun h => (by cases h), fun h => (by cases h)⟩
    | some r => exact h.runnable r hrecord
  unfold TransferWorld.openJob
  dsimp only
  generalize w.record.getD ⟨{}, .empty⟩ = r at hrunnable ⊢
  have hgo : ∀ phase : TransferPhase, phase.isTransferring = false →
      (∀ failure, phase ≠ .failing failure) → w.rank phase + 1 ≤ w.rank c.phase →
        w.MovesOn ({ w with record := some r }.goTo { c with job := r.job } phase) c := by
    intro phase hnot hhealthy hrank
    refine movesOn_goTo (fun r' hr' => ?_) (fun h => ?_) hhealthy hrank
    · obtain rfl := Option.some.inj hr'
      exact hrunnable
    · rw [hnot] at h
      cases h
  split
  · next hstatus => exact absurd hstatus hrunnable.1
  · next hstatus => exact absurd hstatus hrunnable.2
  · split
    · exact hgo _ rfl (fun _ h => by cases h) (by rw [hrank, rank])
    · exact hgo _ rfl (fun _ h => by cases h) (by rw [hrank, rank]; omega)

/-- A job that is neither completed nor being reindexed can be run. -/
theorem exists_markRunning {job : ImportJob}
    (h : job.status ≠ .completed ∧ job.status ≠ .reindexing)
    (now : Instant) : ∃ job', job.markRunning now = .ok job' := by
  unfold ImportJob.markRunning ImportJob.transition
  cases hstatus : job.status with
  | completed => exact absurd hstatus h.1
  | reindexing => exact absurd hstatus h.2
  | _ => exact ⟨_, rfl⟩

/-- The next transaction or read of a call on course. -/
theorem OnCourse.advanceOpened (h : w.OnCourse c) (hsound : w.Sound) (hbalanced : w.Balanced)
    (hcall : w.call = some c) (hr : w.record = some r) (hopened : c.phase ≠ .opening)
    (hwaits : ∀ batch toForward rest floodRetries,
      c.phase ≠ .forwarding batch toForward rest floodRetries) (now : Instant) :
    w.MovesOn (w.advanceOpened c r now) c := by
  have hrunnable := h.runnable r hr
  have hreads := hbalanced.reads c hcall r hr
  cases hphase : c.phase with
  | opening => exact absurd hphase hopened
  | forwarding batch toForward rest floodRetries => exact absurd hphase (hwaits _ _ _ _)
  | failing failure => exact absurd hphase (h.healthy failure)
  | measuring =>
      simp only [TransferWorld.advanceOpened, hphase]
      exact h.goTo rfl (fun _ h => by cases h) (by rw [hphase, rank, rank])
  | initializing sourceHigh archiveBaseline total =>
      simp only [TransferWorld.advanceOpened, hphase]
      refine movesOn_goTo (fun r' hr' => ?_) (fun h => by cases h) (fun _ h => by cases h)
        (by rw [hphase, rank, rank])
      obtain rfl := Option.some.inj hr'
      unfold ImportJob.initializeSnapshot
      dsimp only
      split <;> exact hrunnable
  | seeking =>
      simp only [TransferWorld.advanceOpened, hphase]
      refine h.goTo rfl (fun _ h => by cases h) ?_
      -- the rank of the seek leaves room for a scan of the whole archive
      have hle : ∀ cursor, (w.unscanned cursor).length ≤ w.archive.rows.length := fun _ =>
        List.length_filter_le _ _
      have hle := hle (r.map.maxMappedArchiveMessageId.getD (c.job.archiveBaselineMessageId.getD 0))
      rw [hphase, rank, rank]
      omega
  | scanning cursor pending =>
      simp only [TransferWorld.advanceOpened, hphase]
      exact h.scan hphase
  | flushing cursor pending =>
      simp only [TransferWorld.advanceOpened, hphase]
      refine movesOn_goTo (fun r' hr' => ?_) (fun h => by cases h) (fun _ h => by cases h)
        (by rw [hphase, rank, rank])
      obtain rfl := Option.some.inj hr'
      exact hrunnable
  | settling pending =>
      simp only [TransferWorld.advanceOpened, hphase]
      refine movesOn_goTo (fun r' hr' => ?_) (fun h => by cases h) (fun _ h => by cases h)
        (by rw [hphase, rank, rank])
      obtain rfl := Option.some.inj hr'
      exact hrunnable
  | running =>
      obtain ⟨job, hjob⟩ := exists_markRunning hrunnable now
      have hstatus : job.status = .running := by
        rw [ImportJob.map_transition_eq hjob]
      -- the rank of the run leaves room for a batch of every message of the source
      have hle : ∀ a b, (w.sourceMessages a b).length ≤ w.history.rows.length := fun _ _ =>
        List.length_filter_le _ _
      simp only [TransferWorld.advanceOpened, hphase, hjob]
      refine movesOn_goTo (fun r' hr' => ?_) (fun _ r' hr' => ?_) (fun _ h => by cases h) ?_
      · obtain rfl := Option.some.inj hr'
        rw [hstatus]
        exact ⟨fun h => (by cases h), fun h => (by cases h)⟩
      · obtain rfl := Option.some.inj hr'
        exact hstatus
      · have hle := hle job.lastCopiedSourceMessageId (job.sourceHighWatermarkId.getD 0)
        rw [hphase, rank, rank]
        omega
  | batching rest =>
      rw [hphase] at hreads
      simp only [TransferWorld.advanceOpened, hphase]
      exact h.nextBatch hphase hreads
  | recording batch forwardedMappings rest =>
      obtain ⟨r', hr', hstands⟩ := (hsound.call c hcall).resolve_left (by rw [hphase]; simp)
      simp only [Stands, hphase] at hstands
      simp only [TransferWorld.advanceOpened, hphase]
      exact h.recordBatch hr hphase hstands.2.2.1
  | finishing =>
      have hrunning : r.job.status = .running := h.running (by rw [hphase]; rfl) r hr
      have hallowed : r.job.markTransferred = .ok _ := ImportJob.map_transition _ (by
        rw [hrunning]; decide)
      simp only [TransferWorld.advanceOpened, hphase, hallowed]
      exact .inr ⟨rfl, _, rfl, rfl⟩

/-- An event of an undisturbed call is one that Telegram answers faithfully. -/
theorem Cooperates.faithful {event : TransferEvent} (h : w.Cooperates event) :
    w.Faithful event := by
  unfold Cooperates at h
  split at h
  · next batch toForward rest floodRetries hphase =>
      obtain ⟨request, rfl, haccepts, -, -⟩ := h
      intro c' batch' toForward' rest' floodRetries' hcall' hphase'
      rw [hcall', Option.map_some, hphase'] at hphase
      cases hphase
      exact haccepts
  · obtain ⟨now, rfl⟩ := h
    trivial

/-- **A step of a call on course.** -/
theorem OnCourse.step (h : w.OnCourse c) (hsound : w.Sound) (hbalanced : w.Balanced)
    (hcall : w.call = some c) {event : TransferEvent} (hcooperates : w.Cooperates event) :
    w.MovesOn (w.step event) c := by
  unfold Cooperates at hcooperates
  rw [hcall, Option.map_some] at hcooperates
  split at hcooperates
  · next batch toForward rest floodRetries hphase =>
      obtain ⟨request, rfl, haccepts, hreply, hlength⟩ := hcooperates
      exact h.forward hcall (Option.some.inj hphase) haccepts hreply hlength
  · next hwaits =>
      obtain ⟨now, rfl⟩ := hcooperates
      simp only [TransferWorld.step, TransferWorld.advance, hcall]
      split
      · next hphase => exact h.openJob hphase
      · next r hr hopened =>
          exact h.advanceOpened hsound hbalanced hcall hr hopened
            (fun batch toForward rest retries hphase => hwaits _ _ _ _ (congrArg some hphase)) now
      · next hnone hopened =>
          rcases hsound.call c hcall with hphase | ⟨r, hr, -⟩
          · revert hopened hphase
            cases c.phase <;> simp
          · cases hnone.symm.trans hr

/-- Nothing happens without a call. -/
theorem step_of_ended (h : w.call = none) {event : TransferEvent}
    (hcooperates : w.Cooperates event) :
    w.step event = w := by
  simp only [Cooperates, h, Option.map_none] at hcooperates
  obtain ⟨now, rfl⟩ := hcooperates
  simp only [TransferWorld.step, TransferWorld.advance, h]

/-- The steps that are left of the call under way. -/
def stepsLeft (w : TransferWorld) : ℕ :=
  match w.call with
  | some c => w.rank c.phase
  | none => 0

/-- **A call that is left alone completes the transfer.**  After any run of calls, interruptions and
crashes, a call for a job that is neither completed nor being reindexed, whose next transactions
follow and whose requests are granted, ends within a number of steps bounded by the sizes of the two
channels, with every importable message up to the high watermark mapped. -/
theorem undisturbed_transfer_completes (sourceChannelId : ℤ) (history archive : Channel)
    (before : List TransferEvent)
    (hinitial : ∀ m ∈ archive, m.forwardedSourceMessageId? sourceChannelId = none)
    (hfaithful : Transition.Along step Faithful (initial sourceChannelId history archive) before)
    {w : TransferWorld}
    (hw : Transition.run step (initial sourceChannelId history archive) before = w)
    (hidle : w.call = none)
    (hrunnable : ∀ r, w.record = some r → r.job.status ≠ .completed ∧ r.job.status ≠ .reindexing)
    {batchSize : ℕ} (hsize : 1 ≤ batchSize ∧ batchSize ≤ 100) (floodWaitLimit : ℤ)
    {later : List TransferEvent}
    (hcooperates : Transition.Along step Cooperates (w.step (.start batchSize floodWaitLimit true))
      later)
    (hlong : 3 * w.history.rows.length + 2 * w.archive.rows.length + 9 < later.length) :
    (Transition.run step w (.start batchSize floodWaitLimit true :: later)).call = none ∧
      ∃ r high, (Transition.run step w (.start batchSize floodWaitLimit true :: later)).record =
          some r ∧ r.job.status = .transferred ∧ r.job.sourceHighWatermarkId = some high ∧
        ∀ m ∈ (Transition.run step w (.start batchSize floodWaitLimit true :: later)).history,
          isImportable (some m) → m.id ≤ high → r.map.Maps m.id := by
  obtain ⟨hsound, hbalanced⟩ : w.Sound ∧ w.Balanced := hw ▸
    Transition.run_invariant_along (I := fun w => w.Sound ∧ w.Balanced)
      (fun _ _ hw h => ⟨hw.1.step h, hw.2.step hw.1 h⟩)
      ⟨sound_initial hinitial, fun _ h => (by cases h), fun _ h => (by cases h)⟩ hfaithful
  have hstart : w.step (.start batchSize floodWaitLimit true) =
      { w with call := some ⟨batchSize, hsize, floodWaitLimit, {}, .opening⟩ } := by
    simp [step, startCall, hidle, hsize]
  have hsound₁ : (w.step (.start batchSize floodWaitLimit true)).Sound := hsound.step trivial
  have hbalanced₁ : (w.step (.start batchSize floodWaitLimit true)).Balanced :=
    hbalanced.step hsound trivial
  rw [Transition.run_cons]
  have hcourse : ∃ c, (w.step (.start batchSize floodWaitLimit true)).call = some c ∧
      (w.step (.start batchSize floodWaitLimit true)).OnCourse c := by
    rw [hstart]
    exact ⟨_, rfl, hrunnable, fun h => (by cases h), fun _ h => by cases h⟩
  have hleft : (w.step (.start batchSize floodWaitLimit true)).stepsLeft =
      3 * w.history.rows.length + 2 * w.archive.rows.length + 9 := by
    simp only [hstart, stepsLeft, rank]
  generalize w.step (.start batchSize floodWaitLimit true) = w₁ at *
  -- the call ends somewhere in the run
  obtain ⟨pre, event, rest, rfl, ⟨hsound₂, hbalanced₂, c, hcall, hcourse⟩, hends⟩ :=
    Transition.served_of_rank_lt
      (I := fun w : TransferWorld => w.Sound ∧ w.Balanced ∧ ∃ c, w.call = some c ∧ w.OnCourse c)
      (S := fun w event => (w.step event).call = none) (r := stepsLeft) (e := fun _ => 1)
      (fun w event hw hevent hnot => by
        obtain ⟨hsound, hbalanced, c, hcall, hcourse⟩ := hw
        rcases hcourse.step hsound hbalanced hcall hevent with
          ⟨c', hcall', hcourse', hrank⟩ | ⟨h, -⟩
        · refine ⟨⟨hsound.step hevent.faithful, hbalanced.step hsound hevent.faithful, c', hcall',
            hcourse'⟩, ?_⟩
          rwa [stepsLeft, stepsLeft, hcall, hcall']
        · exact absurd h hnot)
      ⟨hsound₁, hbalanced₁, hcourse⟩ hcooperates (by simpa [hleft] using hlong)
  obtain ⟨-, hevent, hrest⟩ := Transition.along_append.1 hcooperates
  rw [Transition.run_append, Transition.run_cons]
  have hsound₃ := hsound₂.step hevent.faithful
  rcases hcourse.step hsound₂ hbalanced₂ hcall hevent with ⟨c', hcall', -⟩ | ⟨-, r, hr, hstatus⟩
  · cases hends.symm.trans hcall'
  · -- nothing happens after its end
    have hsame := Transition.run_invariant_along
      (I := fun w' => w' = (Transition.run step w₁ pre).step event) (fun w' event' hw' hevent' => by
        rw [step_of_ended (hw' ▸ hends) hevent', hw']) rfl hrest
    obtain ⟨high, hhigh, hmaps⟩ := (hsound₃.recorded r hr).transferred hstatus
    rw [hsame]
    exact ⟨hends, r, high, hr, hstatus, hhigh, hmaps⟩

/-- A call that is not waiting for copies takes its next step. -/
theorem cooperates_advance {now : Instant}
    (h : (w.call.any fun c => c.phase matches .forwarding ..) = false) :
    w.Cooperates (.advance now) := by
  unfold Cooperates
  split
  · next batch toForward rest floodRetries hphase =>
      cases hcall : w.call with
      | none =>
          rw [hcall] at hphase
          cases hphase
      | some c =>
          rw [hcall, Option.map_some] at hphase
          simp [hcall, Option.some.inj hphase] at h
  · exact ⟨now, rfl⟩

/-- The call that follows the crash of `crashAfterForward` finds the copies and is left alone. -/
theorem undisturbed_transfer_completes_recovered :
    ∃ r high, (Transition.run step (Transition.run step (initial (-100) twoMessages .empty)
          crashAfterForward) (.start 100 60 true :: List.replicate 20 (.advance 1))).record =
            some r ∧
      r.job.status = .transferred ∧ r.job.sourceHighWatermarkId = some high ∧
      ∀ m ∈ (Transition.run step (Transition.run step (initial (-100) twoMessages .empty)
          crashAfterForward) (.start 100 60 true :: List.replicate 20 (.advance 1))).history,
        isImportable (some m) → m.id ≤ high → r.map.Maps m.id := by
  have hfaithful : Transition.Along step Faithful (initial (-100) twoMessages .empty)
      crashAfterForward := (Transition.along_append.1 faithful_recoveredTransfer).1
  have hstatus : ((Transition.run step (initial (-100) twoMessages .empty)
      crashAfterForward).record.map fun r => r.job.status) = some .running := by decide +kernel
  have hwaits : Transition.Along step
      (fun w _ => (w.call.any fun c => c.phase matches .forwarding ..) = false)
      ((Transition.run step (initial (-100) twoMessages .empty) crashAfterForward).step
        (.start 100 60 true)) (List.replicate 20 (.advance 1)) := by decide +kernel
  have hadvance : Transition.Along step (fun _ event => event = .advance 1)
      ((Transition.run step (initial (-100) twoMessages .empty) crashAfterForward).step
        (.start 100 60 true)) (List.replicate 20 (.advance 1)) :=
    Transition.along_of_forall fun event h _ => List.eq_of_mem_replicate h
  refine (undisturbed_transfer_completes (-100) twoMessages .empty crashAfterForward
    (fun _ h => (by cases h)) hfaithful rfl (by decide +kernel) (fun r hr => ?_)
    (show 1 ≤ 100 ∧ 100 ≤ 100 by decide) 60 ((hwaits.and hadvance).imp fun w event h => ?_)
    (by decide +kernel)).2
  · rw [hr, Option.map_some] at hstatus
    rw [Option.some.inj hstatus]
    exact ⟨fun h => (by cases h), fun h => (by cases h)⟩
  · rw [h.2]
    exact cooperates_advance h.1

end TransferWorld
end CineGate

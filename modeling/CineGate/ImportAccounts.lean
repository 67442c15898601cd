/-
**The counters of an import account for every message.**

An import is interrupted at any point and continued by a later call, perhaps with another batch
size.  The copies of an interrupted batch are recorded by the tail scan before the checkpoint has
reached them, so that at most one batch of copies lies beyond the checkpoint.

* `TransferWorld.Attributed` — what is known of the source of a copy;
* `TransferWorld.Accounted`, `TransferWorld.Reads` — the invariant of the job and of a call;
* `TransferWorld.Accounts` — what the counters of a job say;
* `TransferWorld.import_counters_account` — they say it in every state of every run.
-/

import CineGate.TransferInvariant
import Mathlib.Data.List.Perm.Basic

set_option relaxedAutoImplicit false
set_option autoImplicit false

namespace CineGate

namespace TransferWorld

variable {w w' : TransferWorld} {r : ImportRecord}

/-! ### Ranges of the source -/

theorem mem_sourceMessages {a b : ℕ} {m : TelegramMessage} :
    m ∈ w.sourceMessages a b ↔ m ∈ w.history ∧ a < m.id ∧ m.id ≤ b := by
  unfold sourceMessages
  rw [List.mem_filter, Bool.and_eq_true, decide_eq_true_eq, decide_eq_true_eq]
  exact Iff.rfl

theorem ordered_sourceMessages {a b : ℕ} :
    (w.sourceMessages a b).Pairwise fun m m' => m.id < m'.id :=
  w.history.ordered.sublist List.filter_sublist

/-- A range that begins later is no longer. -/
theorem length_sourceMessages_le {a a' b : ℕ} (h : a ≤ a') :
    (w.sourceMessages a' b).length ≤ (w.sourceMessages a b).length := by
  refine (List.monotone_filter_right _ fun m hm => ?_).length_le
  simp only [Bool.and_eq_true, decide_eq_true_eq] at hm ⊢
  omega

/-- A range that ends earlier is the first part of a range. -/
theorem sourceMessages_eq_filter {a b c : ℕ} (h : b ≤ c) :
    w.sourceMessages a b = (w.sourceMessages a c).filter fun m => m.id ≤ b := by
  unfold sourceMessages
  rw [List.filter_filter]
  refine List.filter_congr fun m _ => ?_
  rw [Bool.eq_iff_iff]
  simp only [Bool.and_eq_true, decide_eq_true_eq]
  omega

/-- Two adjacent ranges. -/
theorem sourceMessages_append {a b c : ℕ} (hab : a ≤ b) (hbc : b ≤ c) :
    w.sourceMessages a b ++ w.sourceMessages b c = w.sourceMessages a c := by
  have hsplit := KeyedTable.filter_append_filter w.history.ordered
    (fun m => decide (a < m.id) && decide (m.id ≤ c)) b
  refine Eq.trans ?_ hsplit
  unfold sourceMessages
  congr 1
  · refine List.filter_congr fun m _ => ?_
    rw [Bool.eq_iff_iff]
    simp only [Bool.and_eq_true, decide_eq_true_eq]
    omega
  · refine List.filter_congr fun m _ => ?_
    rw [Bool.eq_iff_iff]
    simp only [Bool.and_eq_true, decide_eq_true_eq]
    omega

/-- The first part of a range is the range up to its last message. -/
theorem sourceMessages_of_append {a c : ℕ} {batch rest : List TelegramMessage}
    (h : batch ++ rest = w.sourceMessages a c) {last : TelegramMessage}
    (hlast : batch.getLast? = some last) :
    a < last.id ∧ last.id ≤ c ∧ w.sourceMessages a last.id = batch ∧
      w.sourceMessages last.id c = rest := by
  have hmem : last ∈ batch := List.mem_of_getLast? hlast
  obtain ⟨-, hlt, hle⟩ := mem_sourceMessages.1 (h ▸ List.mem_append_left rest hmem)
  obtain ⟨hfirst, -⟩ := KeyedTable.filter_of_append w.history.ordered h hlast
  have hbatch : w.sourceMessages a last.id = batch := by
    rw [← hfirst]
    refine List.filter_congr fun m _ => ?_
    rw [Bool.eq_iff_iff]
    simp only [Bool.and_eq_true, decide_eq_true_eq]
    omega
  refine ⟨hlt, hle, hbatch, ?_⟩
  have happend := sourceMessages_append (w := w) hlt.le hle
  rw [hbatch, ← h] at happend
  exact List.append_cancel_left happend

/-- A message of the first part of a range is no further away than the part is long. -/
theorem length_sourceMessages_le_of_append {a c : ℕ} {batch rest : List TelegramMessage}
    (h : batch ++ rest = w.sourceMessages a c) {m : TelegramMessage} (hm : m ∈ batch) :
    (w.sourceMessages a m.id).length ≤ batch.length := by
  have hordered : (batch ++ rest).Pairwise fun m m' => m.id < m'.id := h ▸ ordered_sourceMessages
  obtain ⟨-, -, hbelow⟩ := List.pairwise_append.1 hordered
  obtain ⟨-, -, hle⟩ := mem_sourceMessages.1 (h ▸ List.mem_append_left rest hm)
  have hrest : (rest.filter fun m' => decide (m'.id ≤ m.id)) = [] :=
    List.filter_eq_nil_iff.2 fun m' hm' => by simpa using hbelow m hm m' hm'
  rw [sourceMessages_eq_filter hle, ← h, List.filter_append, hrest, List.append_nil]
  exact List.length_filter_le _ _

/-! ### The invariant -/

/-- The source message is importable and was there when the snapshot was taken, and it lies at most
one batch beyond the checkpoint. -/
def Attributed (w : TransferWorld) (r : ImportRecord) (s : ℕ) : Prop :=
  ∃ m ∈ w.history, m.id = s ∧ isImportable (some m) ∧
    (∃ high, r.job.sourceHighWatermarkId = some high ∧ s ≤ high) ∧
      (w.sourceMessages r.job.lastCopiedSourceMessageId s).length ≤ 100

/-- The counters of a job against its checkpoint, and the sources of its copies. -/
structure Accounted (w : TransferWorld) (r : ImportRecord) : Prop where
  checkpoint : r.job.lastCopiedSourceMessageId ≤ r.job.sourceHighWatermarkId.getD 0
  processed : r.job.processedMessages =
    (w.sourceMessages 0 r.job.lastCopiedSourceMessageId).length
  skipped : r.job.skippedMessages =
    (w.sourceMessages 0 r.job.lastCopiedSourceMessageId).countP fun m => !isImportable (some m)
  reconciled : r.job.reconciledMessages ≤ r.job.copiedMessages
  copies : ∀ s a, w.Copies s a → w.Attributed r s
  mapped : ∀ row ∈ r.map.rows, w.Attributed r row.sourceMessageId
  transferred : r.job.status = .transferred → ∀ high, r.job.sourceHighWatermarkId = some high →
    w.sourceMessages r.job.lastCopiedSourceMessageId high = []

/-- What is left of the source, from the checkpoint to the high watermark. -/
def unread (w : TransferWorld) (r : ImportRecord) : List TelegramMessage :=
  w.sourceMessages r.job.lastCopiedSourceMessageId (r.job.sourceHighWatermarkId.getD 0)

/-- A call holds sources of copies, or a part of what is left of the source. -/
def Reads (w : TransferWorld) (r : ImportRecord) : TransferPhase → Prop
  | .scanning _ pending | .flushing _ pending | .settling pending =>
      ∀ p ∈ pending, w.Attributed r p.1
  | .batching rest => rest = w.unread r
  | .forwarding batch toForward rest _ =>
      batch ++ rest = w.unread r ∧ batch.length ≤ 100 ∧
        ∀ m ∈ toForward, m ∈ batch ∧ isImportable (some m)
  | .recording batch forwardedMappings rest =>
      batch ++ rest = w.unread r ∧ batch.length ≤ 100 ∧
        ∀ p ∈ forwardedMappings, ∃ m ∈ batch, m.id = p.1 ∧ isImportable (some m)
  | .finishing => w.unread r = []
  | _ => True

structure Balanced (w : TransferWorld) : Prop where
  accounted : ∀ r, w.record = some r → w.Accounted r
  reads : ∀ c, w.call = some c → ∀ r, w.record = some r → w.Reads r c.phase

/-- Messages of the batch at hand are attributed. -/
theorem attributed_of_mem {batch rest : List TelegramMessage} (h : batch ++ rest = w.unread r)
    (hsize : batch.length ≤ 100) {m : TelegramMessage} (hm : m ∈ batch)
    (himportable : isImportable (some m)) : w.Attributed r m.id := by
  obtain ⟨hmem, hlt, hle⟩ := mem_sourceMessages.1 (h ▸ List.mem_append_left rest hm)
  refine ⟨m, hmem, rfl, himportable, ?_, (length_sourceMessages_le_of_append h hm).trans hsize⟩
  cases hhigh : r.job.sourceHighWatermarkId with
  | none =>
      rw [hhigh, Option.getD_none] at hle
      omega
  | some high => exact ⟨high, rfl, by rwa [hhigh] at hle⟩

section Frame

variable (hhistory : w'.history = w.history)

include hhistory

theorem sourceMessages_congr (a b : ℕ) : w'.sourceMessages a b = w.sourceMessages a b := by
  unfold sourceMessages
  rw [hhistory]

/-- What the attribution of a source depends on: the source, the snapshot and the checkpoint. -/
theorem Attributed.of_le {r' : ImportRecord} {s : ℕ} (h : w.Attributed r s)
    (hhigh : r'.job.sourceHighWatermarkId = r.job.sourceHighWatermarkId)
    (hlast : r.job.lastCopiedSourceMessageId ≤ r'.job.lastCopiedSourceMessageId) :
    w'.Attributed r' s := by
  obtain ⟨m, hm, hid, himportable, hbelow, hnear⟩ := h
  refine ⟨m, hhistory ▸ hm, hid, himportable, hhigh ▸ hbelow, ?_⟩
  rw [sourceMessages_congr hhistory]
  exact (length_sourceMessages_le hlast).trans hnear

/-- The source is as it was, and the archive has no copy that is not attributed. -/
theorem Accounted.of_copies (h : w.Accounted r)
    (hcopies : ∀ s a, w'.Copies s a → w.Attributed r s) :
    w'.Accounted r := by
  refine ⟨h.checkpoint, ?_, ?_, h.reconciled, fun s a hcopy => ?_, fun row hrow => ?_,
    fun hstatus high hhigh => ?_⟩
  · rw [sourceMessages_congr hhistory, h.processed]
  · rw [sourceMessages_congr hhistory, h.skipped]
  · exact (hcopies s a hcopy).of_le hhistory rfl le_rfl
  · exact (h.mapped row hrow).of_le hhistory rfl le_rfl
  · rw [sourceMessages_congr hhistory]
    exact h.transferred hstatus high hhigh

theorem Reads.of_history {phase : TransferPhase} (h : w.Reads r phase) : w'.Reads r phase := by
  have hunread : w'.unread r = w.unread r := sourceMessages_congr hhistory _ _
  cases phase with
  | scanning cursor pending | flushing cursor pending | settling pending =>
      exact fun p hp => (h p hp).of_le hhistory rfl le_rfl
  | batching rest => exact h.trans hunread.symm
  | forwarding batch toForward rest floodRetries => exact ⟨h.1.trans hunread.symm, h.2⟩
  | recording batch forwardedMappings rest => exact ⟨h.1.trans hunread.symm, h.2⟩
  | finishing => exact hunread.trans h
  | _ => trivial

end Frame

/-- A change of the job that leaves the snapshot, the checkpoint and the counters. -/
theorem Accounted.of_job (h : w.Accounted r) {job : ImportJob}
    (hhigh : job.sourceHighWatermarkId = r.job.sourceHighWatermarkId)
    (hlast : job.lastCopiedSourceMessageId = r.job.lastCopiedSourceMessageId)
    (hprocessed : job.processedMessages = r.job.processedMessages)
    (hskipped : job.skippedMessages = r.job.skippedMessages)
    (hcopied : job.copiedMessages = r.job.copiedMessages)
    (hreconciled : job.reconciledMessages = r.job.reconciledMessages)
    (htransferred : job.status = .transferred → w.unread r = []) :
    w.Accounted { r with job } := by
  have hattributed : ∀ {s}, w.Attributed r s → w.Attributed { r with job } s := fun h =>
    h.of_le rfl hhigh hlast.ge
  refine ⟨?_, ?_, ?_, ?_, fun s a hcopy => hattributed (h.copies s a hcopy),
    fun row hrow => hattributed (h.mapped row hrow), fun hstatus high hhigh' => ?_⟩
  · rw [hlast, hhigh]
    exact h.checkpoint
  · rw [hprocessed, hlast, h.processed]
  · rw [hskipped, hlast, h.skipped]
  · rw [hreconciled, hcopied]
    exact h.reconciled
  · have hempty := htransferred hstatus
    rw [unread, ← hhigh, hhigh', Option.getD_some] at hempty
    rwa [hlast]

/-! ### A call goes on -/

theorem Balanced.stop (hw : w.Balanced) : w.stop.Balanced := by
  refine ⟨fun r hr => ?_, fun _ h => by cases h⟩
  have hr := hw.accounted r hr
  exact ⟨hr.checkpoint, hr.processed, hr.skipped, hr.reconciled, hr.copies, hr.mapped,
    hr.transferred⟩

/-- The call commits and goes on, or ends. -/
theorem balanced_commit {call : Option TransferCall} (hr : w.Accounted r)
    (hreads : ∀ c, call = some c → w.Reads r c.phase) :
    Balanced { w with record := some r, call } := by
  refine ⟨fun r' hr' => ?_, fun c hc r' hr' => ?_⟩
  · obtain rfl := Option.some.inj hr'
    exact ⟨hr.checkpoint, hr.processed, hr.skipped, hr.reconciled, hr.copies, hr.mapped,
      hr.transferred⟩
  · obtain rfl := Option.some.inj hr'
    exact hreads c hc

/-- The call goes on without a commit. -/
theorem Balanced.goTo (hw : w.Balanced) (hr : w.record = some r) {c : TransferCall}
    {phase : TransferPhase} (hreads : w.Reads r phase) : (w.goTo c phase).Balanced := by
  have h : Balanced { w with record := some r, call := some { c with phase } } :=
    balanced_commit (hw.accounted r hr) fun c' hc' => by
      obtain rfl := Option.some.inj hc'
      exact hreads
  rwa [← hr] at h

/-! ### The tail scan -/

/-- A job that has just been created. -/
theorem accounted_new (h : ∀ s a, ¬ w.Copies s a) : w.Accounted ⟨{}, .empty⟩ := by
  have hnil : w.sourceMessages 0 0 = [] := by
    unfold sourceMessages
    refine List.filter_eq_nil_iff.2 fun m _ => ?_
    simp only [Bool.and_eq_true, decide_eq_true_eq]
    omega
  refine ⟨le_rfl, ?_, ?_, le_rfl, fun s a hcopy => absurd hcopy (h s a), fun _ h => (by cases h),
    fun h => (by cases h)⟩
  · rw [hnil]
    rfl
  · rw [hnil]
    rfl

theorem Balanced.openJob (hw : w.Balanced) (hsound : w.Sound) {c : TransferCall} :
    (w.openJob c).Balanced := by
  have hr : w.Accounted (w.record.getD ⟨{}, .empty⟩) := by
    cases hrecord : w.record with
    | none => exact accounted_new (hsound.unopened hrecord)
    | some r => exact hw.accounted r hrecord
  unfold TransferWorld.openJob
  dsimp only
  generalize w.record.getD ⟨{}, .empty⟩ = r at hr ⊢
  have hstop : Balanced { w with record := some r }.stop :=
    balanced_commit (w := w) hr fun _ h => (by cases h)
  split
  · exact hstop
  · exact hstop
  · refine balanced_commit (w := w) hr fun c' hc' => ?_
    obtain rfl := Option.some.inj hc'
    by_cases hhigh : r.job.sourceHighWatermarkId = none <;> simp only [hhigh, if_true, if_false] <;>
      trivial

/-- The snapshot is taken before there is a copy. -/
theorem Accounted.initializeSnapshot (h : w.Accounted r) (hrecorded : w.Recorded r)
    {sourceHigh archiveBaseline : ℕ} {total : Option ℕ} :
    w.Accounted { r with job := r.job.initializeSnapshot sourceHigh archiveBaseline total } := by
  unfold ImportJob.initializeSnapshot
  split
  · next hnone =>
      have hnot : ∀ {s}, ¬ w.Attributed r s := by
        rintro s ⟨m, -, -, -, ⟨high, hhigh, -⟩, -⟩
        cases hnone.symm.trans hhigh
      refine ⟨?_, h.processed, h.skipped, h.reconciled,
        fun s a hcopy => absurd (h.copies s a hcopy) hnot,
        fun row hrow => absurd (h.mapped row hrow) hnot, fun hstatus => ?_⟩
      · have hzero := h.checkpoint
        rw [hnone] at hzero
        exact hzero.trans (Nat.zero_le _)
      obtain ⟨high, hhigh, -⟩ := hrecorded.transferred hstatus
      cases hnone.symm.trans hhigh
  · exact h

/-- The scan comes upon copies whose source is attributed. -/
theorem Balanced.scan (hw : w.Balanced) (hr : w.record = some r) {c : TransferCall} {cursor : ℕ}
    {pending : List (ℕ × ℕ)} (hpending : ∀ p ∈ pending, w.Attributed r p.1) :
    (w.scan c cursor pending).Balanced := by
  unfold TransferWorld.scan
  split
  · split
    · exact hw.goTo hr trivial
    · exact hw.goTo hr hpending
  · next m hnext =>
      split
      · exact hw.goTo hr hpending
      · next s hsource =>
          split
          · exact hw.goTo hr hpending
          · have hmem : m ∈ w.archive := (nextArchiveMessage?_eq_some hnext).1
            have hpending' : ∀ p ∈ pending ++ [(s, m.id)], w.Attributed r p.1 := by
              intro p hp
              rcases List.mem_append.1 hp with hp | hp
              · exact hpending p hp
              · obtain rfl := List.mem_singleton.1 hp
                exact (hw.accounted r hr).copies s m.id ⟨m, hmem, rfl, hsource⟩
            dsimp only
            split
            · exact hw.goTo hr hpending'
            · exact hw.goTo hr hpending'

/-- Copies that the scan has come upon are recorded and counted as reconciled. -/
theorem Accounted.reconciled_pending (h : w.Accounted r) {pending : List (ℕ × ℕ)}
    (hpending : ∀ p ∈ pending, w.Attributed r p.1) :
    w.Accounted (r.recordReconciledMappings pending) := by
  refine ⟨h.checkpoint, h.processed, h.skipped, Nat.add_le_add_right h.reconciled _,
    fun s a hcopy => (h.copies s a hcopy).of_le rfl rfl le_rfl, fun row hrow => ?_, h.transferred⟩
  rcases ImportMap.mem_of_mem_insertMappings hrow with hrow | hrow
  · exact (h.mapped row hrow).of_le rfl rfl le_rfl
  · exact (hpending _ hrow).of_le rfl rfl le_rfl

/-! ### The batches -/

theorem Balanced.run (hw : w.Balanced) (hr : w.record = some r) {c : TransferCall}
    (hphase : c.phase = .running) (now : Instant) : (w.advanceOpened c r now).Balanced := by
  unfold TransferWorld.advanceOpened
  simp only [hphase]
  split
  · next job hjob =>
      obtain rfl := ImportJob.map_transition_eq hjob
      refine balanced_commit (w := w) ((hw.accounted r hr).of_job rfl rfl rfl rfl rfl rfl
        fun h => (by cases h)) fun c' hc' => ?_
      obtain rfl := Option.some.inj hc'
      rfl
  · exact hw.stop

theorem Balanced.nextBatch (hw : w.Balanced) (hr : w.record = some r) {c : TransferCall}
    {rest : List TelegramMessage} (hrest : rest = w.unread r) :
    (w.nextBatch c r rest).Balanced := by
  have hsplit : rest.take c.batchSize ++ rest.drop c.batchSize = w.unread r := by
    rw [List.take_append_drop, hrest]
  have hsize : (rest.take c.batchSize).length ≤ 100 :=
    (List.length_take_le _ _).trans c.sized.2
  unfold TransferWorld.nextBatch
  split
  · next hnil =>
      -- the source is exhausted
      have hpos := c.sized.1
      rcases List.take_eq_nil_iff.1 hnil with hzero | hempty
      · omega
      · exact hw.goTo hr (hrest.symm.trans hempty)
  · split
    · exact hw.goTo hr trivial
    · dsimp only
      split
      · exact hw.goTo hr ⟨hsplit, hsize, fun _ h => (by cases h)⟩
      · refine hw.goTo hr ⟨hsplit, hsize, fun m hm => ?_⟩
        obtain ⟨hm, himportable⟩ := List.mem_filter.1 (List.mem_filter.1 hm).1
        exact ⟨hm, himportable⟩

/-- The messages of a batch that are no use are counted as skipped. -/
theorem length_sub_filter (batch : List TelegramMessage) :
    batch.length - (batch.filter fun m => isImportable (some m)).length =
      batch.countP fun m => !isImportable (some m) := by
  have hsum := List.length_eq_countP_add_countP (fun m => isImportable (some m)) (l := batch)
  rw [← List.countP_eq_length_filter]
  simp only [Bool.not_eq_true, Bool.decide_eq_false] at hsum
  omega

/-- **A batch is recorded**: the counters move on with the checkpoint. -/
theorem Balanced.recordBatch (hw : w.Balanced) (hr : w.record = some r) {c : TransferCall}
    {batch rest : List TelegramMessage} {forwardedMappings : List (ℕ × ℕ)}
    (hsplit : batch ++ rest = w.unread r) (hsize : batch.length ≤ 100)
    (hsources : ∀ p ∈ forwardedMappings, ∃ m ∈ batch, m.id = p.1 ∧ isImportable (some m)) :
    (w.recordBatch c r batch forwardedMappings rest).Balanced := by
  have h := hw.accounted r hr
  unfold TransferWorld.recordBatch
  split
  · exact hw.stop
  · next last hlast =>
      obtain ⟨hlt, hle, hbatch, hrest⟩ := sourceMessages_of_append hsplit hlast
      have hread : w.sourceMessages 0 r.job.lastCopiedSourceMessageId ++ batch =
          w.sourceMessages 0 last.id := by
        rw [← sourceMessages_append (Nat.zero_le _) hlt.le, hbatch]
      have hattributed : ∀ {s}, w.Attributed r s → w.Attributed
          (r.recordTransferBatch last.id batch.length
            (batch.length - (batch.filter fun m => isImportable (some m)).length)
            forwardedMappings) s := by
        intro s hs
        refine hs.of_le rfl ?_ ?_ <;>
          simp only [ImportRecord.recordTransferBatch, Nat.not_le.2 hlt, if_false]
        exact hlt.le
      refine balanced_commit (w := w) ?_ fun c' hc' => ?_
      · refine ⟨?_, ?_, ?_, ?_, fun s a hcopy => hattributed (h.copies s a hcopy),
          fun row hrow => ?_, fun hstatus high hhigh => ?_⟩
        all_goals simp only [ImportRecord.recordTransferBatch, Nat.not_le.2 hlt, if_false] at *
        · exact hle
        · rw [h.processed, ← hread, List.length_append]
        · rw [h.skipped, ← hread, List.countP_append, length_sub_filter]
        · exact h.reconciled.trans (Nat.le_add_right _ _)
        · rcases ImportMap.mem_of_mem_insertMappings hrow with hrow | hrow
          · exact hattributed (h.mapped row hrow)
          · obtain ⟨m, hm, hid, himportable⟩ := hsources _ hrow
            have hid : m.id = row.sourceMessageId := hid
            exact hattributed (hid ▸ attributed_of_mem hsplit hsize hm himportable)
        · -- a job that is transferred has nothing left to record
          have hempty := h.transferred hstatus high hhigh
          rw [unread, hhigh, Option.getD_some, hempty] at hsplit
          rw [(List.append_eq_nil_iff.1 hsplit).1] at hlast
          cases hlast
      · obtain rfl := Option.some.inj hc'
        simp only [Reads, unread, ImportRecord.recordTransferBatch, Nat.not_le.2 hlt, if_false]
        exact hrest.symm

theorem Balanced.finish (hw : w.Balanced) (hr : w.record = some r) {c : TransferCall}
    (hphase : c.phase = .finishing) (hunread : w.unread r = []) (now : Instant) :
    (w.advanceOpened c r now).Balanced := by
  unfold TransferWorld.advanceOpened
  simp only [hphase]
  split
  · next job hjob =>
      obtain rfl := ImportJob.map_transition_eq hjob
      exact balanced_commit (w := w) ((hw.accounted r hr).of_job rfl rfl rfl rfl rfl rfl
        fun _ => hunread) fun _ h => (by cases h)
  · exact hw.stop

theorem Balanced.recordFailure (hw : w.Balanced) (hr : w.record = some r)
    {failure : ImportFailure} :
    (w.recordFailure r failure).Balanced := by
  have hmark : ∀ {target : ImportStatus} {error : Str} {job' : ImportJob},
      (r.job.transition target).map (fun job => { job with lastError := some error }) = .ok job' →
        target ≠ .transferred →
          Balanced { w with record := some { r with job := job' } }.stop := by
    intro target error job' h htarget
    obtain rfl := ImportJob.map_transition_eq h
    exact balanced_commit (w := w) ((hw.accounted r hr).of_job rfl rfl rfl rfl rfl rfl
      fun h => absurd h htarget) fun _ h => (by cases h)
  unfold TransferWorld.recordFailure
  cases failure with
  | channelAccess text =>
      dsimp only
      split
      · next job h => exact hmark h (by simp)
      · exact hw.stop
  | other text => exact balanced_commit (w := w) (hw.accounted r hr) fun _ h => (by cases h)
  | _ =>
      dsimp only
      split
      · next job h => exact hmark h (by simp)
      · exact hw.stop

/-! ### Forwarding a batch -/

/-- The copies a request makes are of messages of the batch at hand. -/
theorem Balanced.accept (hw : w.Balanced) (hr : w.record = some r)
    {toForward batch rest : List TelegramMessage} {request : ForwardRequest}
    (haccepts : w.Accepts toForward request) (hsplit : batch ++ rest = w.unread r)
    (hsize : batch.length ≤ 100) (htoForward : ∀ m ∈ toForward, m ∈ batch ∧ isImportable (some m)) :
    (w.accept request.accepted).Balanced := by
  refine ⟨fun r' hr' => ?_, fun _ h => by cases h⟩
  obtain rfl := Option.some.inj (hr.symm.trans hr')
  refine Accounted.of_copies (w := w) rfl (hw.accounted r hr) fun s a hcopy => ?_
  rcases haccepts.copies hcopy with hcopy | ⟨m, hm, -, hsource⟩
  · exact (hw.accounted r hr).copies s a hcopy
  · obtain ⟨x, hx, hsource'⟩ := haccepts.headers m hm
    obtain rfl := Option.some.inj (hsource.symm.trans hsource')
    obtain ⟨hmem, himportable⟩ := htoForward x hx
    exact attributed_of_mem hsplit hsize hmem himportable

/-- The reply to a request is a complete batch in order, or the call fails. -/
theorem Balanced.takeForwarded (hw : w.Balanced) (hr : w.record = some r) {c : TransferCall}
    {toForward batch rest : List TelegramMessage} {forwarded : List (Option TelegramMessage)}
    (hsplit : batch ++ rest = w.unread r) (hsize : batch.length ≤ 100)
    (htoForward : ∀ m ∈ toForward, m ∈ batch ∧ isImportable (some m)) :
    (w.takeForwarded c batch toForward rest forwarded).Balanced := by
  unfold TransferWorld.takeForwarded
  split
  · exact hw.goTo hr trivial
  · dsimp only
    split
    · exact hw.goTo hr trivial
    · refine hw.goTo hr ⟨hsplit, hsize, fun p hp => ?_⟩
      obtain ⟨m, hm, hid⟩ := List.mem_map.1 (List.of_mem_zip hp).1
      obtain ⟨hmem, himportable⟩ := htoForward m hm
      exact ⟨m, hmem, hid, himportable⟩

theorem Balanced.forward (hw : w.Balanced) (hsound : w.Sound) {request : ForwardRequest}
    (hfaithful : w.Faithful (.forward request)) : (w.forward request).Balanced := by
  unfold TransferWorld.forward
  split
  · exact hw
  · next c hcall =>
      split
      · next batch toForward rest floodRetries hphase =>
          obtain ⟨r, hr, -⟩ := (hsound.call c hcall).resolve_left (by rw [hphase]; simp)
          have hreads := hw.reads c hcall r hr
          rw [hphase] at hreads
          obtain ⟨hsplit, hsize, htoForward⟩ := hreads
          have hw' :=
            hw.accept hr (hfaithful c batch toForward rest floodRetries hcall hphase) hsplit
            hsize htoForward
          have hr' : (w.accept request.accepted).record = some r := hr
          dsimp only
          split
          · exact hw'.takeForwarded hr' hsplit hsize htoForward
          · exact hw'.goTo hr' trivial
          · exact hw'.goTo hr' ⟨hsplit, hsize, htoForward⟩
      · exact hw

/-! ### The steps -/

theorem Balanced.advanceOpened (hw : w.Balanced) (hsound : w.Sound) (hr : w.record = some r)
    {c : TransferCall} (hcall : w.call = some c) (now : Instant) :
    (w.advanceOpened c r now).Balanced := by
  have h := hw.accounted r hr
  have hreads := hw.reads c hcall r hr
  cases hphase : c.phase with
  | opening | forwarding =>
      simp only [TransferWorld.advanceOpened, hphase]
      exact hw
  | measuring =>
      simp only [TransferWorld.advanceOpened, hphase]
      exact hw.goTo hr trivial
  | initializing sourceHigh archiveBaseline total =>
      simp only [TransferWorld.advanceOpened, hphase]
      refine balanced_commit (w := w) (h.initializeSnapshot (hsound.recorded r hr)) fun c' hc' => ?_
      obtain rfl := Option.some.inj hc'
      trivial
  | seeking =>
      simp only [TransferWorld.advanceOpened, hphase]
      exact hw.goTo hr fun _ h => by cases h
  -- what is pending has been read from the archive up to the cursor
  | scanning cursor pending =>
      rw [hphase] at hreads
      simp only [TransferWorld.advanceOpened, hphase]
      exact hw.scan hr hreads
  | flushing cursor pending =>
      rw [hphase] at hreads
      simp only [TransferWorld.advanceOpened, hphase]
      refine balanced_commit (w := w) (h.reconciled_pending hreads) fun c' hc' => ?_
      obtain rfl := Option.some.inj hc'
      exact fun _ h => by cases h
  | settling pending =>
      rw [hphase] at hreads
      simp only [TransferWorld.advanceOpened, hphase]
      refine balanced_commit (w := w) (h.reconciled_pending hreads) fun c' hc' => ?_
      obtain rfl := Option.some.inj hc'
      trivial
  | running => exact hw.run hr hphase now
  | batching rest =>
      rw [hphase] at hreads
      simp only [TransferWorld.advanceOpened, hphase]
      exact hw.nextBatch hr hreads
  -- the checkpoint moves over the batch, and the counters with it
  | recording batch forwardedMappings rest =>
      rw [hphase] at hreads
      obtain ⟨hsplit, hsize, hsources⟩ := hreads
      simp only [TransferWorld.advanceOpened, hphase]
      exact hw.recordBatch hr hsplit hsize hsources
  | finishing =>
      rw [hphase] at hreads
      exact hw.finish hr hphase hreads now
  | failing failure =>
      simp only [TransferWorld.advanceOpened, hphase]
      exact hw.recordFailure hr

/-- **Every step keeps the accounts.** -/
theorem Balanced.step (hw : w.Balanced) (hsound : w.Sound) {event : TransferEvent}
    (hfaithful : w.Faithful event) : (w.step event).Balanced := by
  cases event with
  | start batchSize floodWaitLimit resolved =>
      simp only [TransferWorld.step, TransferWorld.startCall]
      split
      · exact hw
      · split
        · refine ⟨fun r hr => ?_, fun c hc r hr => ?_⟩
          · have h := hw.accounted r hr
            exact ⟨h.checkpoint, h.processed, h.skipped, h.reconciled, h.copies, h.mapped,
              h.transferred⟩
          · obtain rfl := Option.some.inj hc
            trivial
        · exact hw
  | advance now =>
      simp only [TransferWorld.step, TransferWorld.advance]
      split
      · exact hw
      · next c hcall =>
          split
          · exact hw.openJob hsound
          · next r hr _ => exact hw.advanceOpened hsound hr hcall now
          · exact hw.stop
  | forward request => exact hw.forward hsound hfaithful
  | raised failure =>
      simp only [TransferWorld.step, TransferWorld.raise]
      split
      · exact hw
      · next c hcall =>
          split
          · next rest hphase =>
              obtain ⟨r, hr, -⟩ := (hsound.call c hcall).resolve_left (by rw [hphase]; simp)
              exact hw.goTo hr trivial
          · exact hw.stop
  | posted message =>
      -- a message posted by somebody else is no copy
      obtain ⟨hnocopy, hlast⟩ := hfaithful
      have hcopies : ∀ s a, Copies { w with archive := w.archive.insert message } s a →
          w.Copies s a := by
        rintro s a ⟨m, hm, hid, hsource⟩
        rcases (mem_insert_archive hlast).1 hm with rfl | hm
        · cases hnocopy.symm.trans hsource
        · exact ⟨m, hm, hid, hsource⟩
      refine ⟨fun r hr => ?_, fun c hc r hr => (hw.reads c hc r hr).of_history rfl⟩
      exact Accounted.of_copies (w := w) rfl (hw.accounted r hr) fun s a hcopy =>
        (hw.accounted r hr).copies s a (hcopies s a hcopy)
  | crash => exact hw.stop

/-! ### The balance -/

/-- The importable messages of a range of the source. -/
def importableMessages (w : TransferWorld) (a b : ℕ) : List TelegramMessage :=
  (w.sourceMessages a b).filter fun m => isImportable (some m)

/-- What the counters of a job say: the messages up to the checkpoint have been processed, the
skipped ones of them are the ones that are no use, and every other message is copied.  At most one
batch of copies is beyond the checkpoint, and none is once the job is transferred. -/
structure Accounts (w : TransferWorld) (r : ImportRecord) : Prop where
  processed : r.job.processedMessages =
    (w.sourceMessages 0 r.job.lastCopiedSourceMessageId).length
  skipped : r.job.processedMessages = r.job.skippedMessages +
    (w.importableMessages 0 r.job.lastCopiedSourceMessageId).length
  reconciled : r.job.reconciledMessages ≤ r.job.copiedMessages
  sources : ∀ row ∈ r.map.rows, ∃ m ∈ w.history, m.id = row.sourceMessageId ∧
    isImportable (some m)
  behind : r.job.processedMessages ≤ r.job.copiedMessages + r.job.skippedMessages
  ahead : r.job.copiedMessages + r.job.skippedMessages ≤ r.job.processedMessages + 100
  transferred : r.job.status = .transferred → ∃ high, r.job.sourceHighWatermarkId = some high ∧
    r.job.processedMessages = (w.sourceMessages 0 high).length ∧
      r.job.copiedMessages = (w.importableMessages 0 high).length

/-- The rows of a mapping up to a checkpoint and beyond it. -/
theorem count_eq_add (m : ImportMap) (checkpoint : ℕ) : m.count =
    (m.rows.rows.filter fun row => row.sourceMessageId ≤ checkpoint).length +
      (m.rows.rows.filter fun row => checkpoint < row.sourceMessageId).length := by
  have hsplit := KeyedTable.filter_append_filter m.rows.ordered (fun _ => true) checkpoint
  simp only [Bool.true_and, List.filter_true] at hsplit
  rw [ImportMap.count, ← List.length_append, hsplit]

/-- The source ids of rows are distinct. -/
theorem nodup_sources (m : ImportMap) (p : ImportMapping → Bool) :
    ((m.rows.rows.filter p).map ImportMapping.sourceMessageId).Nodup :=
  List.Nodup.sublist (List.filter_sublist.map _)
    ((List.pairwise_map.2 m.rows.ordered).imp fun h => h.ne)

/-- **The rows up to the checkpoint are those of the importable messages.** -/
theorem Accounted.length_mapped (h : w.Accounted r) (hrecorded : w.Recorded r) :
    (r.map.rows.rows.filter fun row =>
        row.sourceMessageId ≤ r.job.lastCopiedSourceMessageId).length =
      (w.importableMessages 0 r.job.lastCopiedSourceMessageId).length := by
  have hnodup : ((w.importableMessages 0 r.job.lastCopiedSourceMessageId).map
      TelegramMessage.id).Nodup :=
    List.Nodup.sublist (List.filter_sublist.map _)
      ((List.pairwise_map.2 ordered_sourceMessages).imp fun h => h.ne)
  have hperm := (List.perm_ext_iff_of_nodup (nodup_sources r.map fun row =>
    decide (row.sourceMessageId ≤ r.job.lastCopiedSourceMessageId)) hnodup).2 fun s => by
      constructor
      · intro hs
        obtain ⟨row, hrow, rfl⟩ := List.mem_map.1 hs
        obtain ⟨hrow, hle⟩ := List.mem_filter.1 hrow
        obtain ⟨m, hm, hid, himportable, -⟩ := h.mapped row hrow
        have hpos : 0 < m.id := by
          simp only [isImportable, Bool.and_eq_true, decide_eq_true_eq] at himportable
          exact himportable.2
        refine List.mem_map.2 ⟨m, List.mem_filter.2 ⟨mem_sourceMessages.2 ⟨hm, hpos, ?_⟩,
          himportable⟩, hid⟩
        rw [hid]
        exact of_decide_eq_true hle
      · intro hs
        obtain ⟨m, hm, rfl⟩ := List.mem_map.1 hs
        obtain ⟨hm, himportable⟩ := List.mem_filter.1 hm
        obtain ⟨hm, -, hle⟩ := mem_sourceMessages.1 hm
        obtain ⟨row, hrow, hid⟩ := hrecorded.covered m hm himportable hle
        exact List.mem_map.2 ⟨row, List.mem_filter.2 ⟨hrow, decide_eq_true (hid ▸ hle)⟩, hid⟩
  simpa using hperm.length_eq

/-- At most a batch of rows lies beyond the checkpoint. -/
theorem Accounted.length_beyond (h : w.Accounted r) :
    (r.map.rows.rows.filter fun row =>
      r.job.lastCopiedSourceMessageId < row.sourceMessageId).length ≤ 100 := by
  have hordered := r.map.rows.ordered.sublist (List.filter_sublist (p := fun row =>
    decide (r.job.lastCopiedSourceMessageId < row.sourceMessageId)))
  have hnodup := nodup_sources r.map fun row =>
    decide (r.job.lastCopiedSourceMessageId < row.sourceMessageId)
  have hmem : ∀ row ∈ r.map.rows.rows.filter fun row =>
      decide (r.job.lastCopiedSourceMessageId < row.sourceMessageId),
      row ∈ r.map.rows ∧ r.job.lastCopiedSourceMessageId < row.sourceMessageId := by
    intro row hrow
    obtain ⟨hrow, hlt⟩ := List.mem_filter.1 hrow
    exact ⟨hrow, of_decide_eq_true hlt⟩
  generalize (r.map.rows.rows.filter fun row =>
    decide (r.job.lastCopiedSourceMessageId < row.sourceMessageId)) = beyond at *
  cases hlast : beyond.getLast? with
  | none =>
      rw [List.getLast?_eq_none_iff.1 hlast]
      exact Nat.zero_le _
  | some last =>
      -- all of them are messages up to that of the last row
      obtain ⟨hrow, hlt⟩ := hmem last (List.mem_of_getLast? hlast)
      obtain ⟨-, -, -, -, -, hnear⟩ := h.mapped last hrow
      have hsubset : beyond.map ImportMapping.sourceMessageId ⊆
          (w.sourceMessages r.job.lastCopiedSourceMessageId last.sourceMessageId).map
            TelegramMessage.id := by
        intro s hs
        obtain ⟨row, hrow, rfl⟩ := List.mem_map.1 hs
        obtain ⟨hmem', hlt'⟩ := hmem row hrow
        obtain ⟨m, hm, hid, -⟩ := h.mapped row hmem'
        have hle : row.sourceMessageId ≤ last.sourceMessageId := by
          obtain ⟨before, rfl⟩ := List.getLast?_eq_some_iff.1 hlast
          rcases List.mem_append.1 hrow with hrow | hrow
          · exact ((List.pairwise_append.1 hordered).2.2 row hrow last List.mem_cons_self).le
          · rw [List.mem_singleton.1 hrow]
        exact List.mem_map.2 ⟨m, mem_sourceMessages.2 ⟨hm, by omega, by omega⟩, hid⟩
      have hlength := List.Nodup.length_le_of_subset hnodup hsubset
      rw [List.length_map, List.length_map] at hlength
      exact hlength.trans hnear

/-- No row lies beyond a checkpoint that leaves nothing to read. -/
theorem Accounted.beyond_eq_nil (h : w.Accounted r) {high : ℕ}
    (hhigh : r.job.sourceHighWatermarkId = some high)
    (hempty : w.sourceMessages r.job.lastCopiedSourceMessageId high = []) :
    (r.map.rows.rows.filter fun row =>
      r.job.lastCopiedSourceMessageId < row.sourceMessageId) = [] := by
  refine List.filter_eq_nil_iff.2 fun row hrow hlt => ?_
  obtain ⟨m, hm, hid, -, ⟨high', hhigh', hle⟩, -⟩ := h.mapped row hrow
  obtain rfl := Option.some.inj (hhigh.symm.trans hhigh')
  have hmem : m ∈ w.sourceMessages r.job.lastCopiedSourceMessageId high :=
    mem_sourceMessages.2 ⟨hm, hid ▸ of_decide_eq_true hlt, hid ▸ hle⟩
  rw [hempty] at hmem
  cases hmem

/-- The invariant balances the counters. -/
theorem Accounted.accounts (h : w.Accounted r) (hrecorded : w.Recorded r) : w.Accounts r := by
  have hmapped := h.length_mapped hrecorded
  have hbeyond := h.length_beyond
  have hcount := (hrecorded.counted).trans (count_eq_add r.map r.job.lastCopiedSourceMessageId)
  have hskipped : r.job.processedMessages = r.job.skippedMessages +
      (w.importableMessages 0 r.job.lastCopiedSourceMessageId).length := by
    have hsum := List.length_eq_countP_add_countP (fun m => isImportable (some m))
      (l := w.sourceMessages 0 r.job.lastCopiedSourceMessageId)
    simp only [Bool.not_eq_true, Bool.decide_eq_false] at hsum
    rw [h.processed, h.skipped, importableMessages, ← List.countP_eq_length_filter]
    omega
  refine ⟨h.processed, hskipped, h.reconciled, fun row hrow => ?_, by omega, by omega,
    fun hstatus => ?_⟩
  · obtain ⟨m, hm, hid, himportable, -⟩ := h.mapped row hrow
    exact ⟨m, hm, hid, himportable⟩
  · obtain ⟨high, hhigh, -⟩ := hrecorded.transferred hstatus
    have hempty := h.transferred hstatus high hhigh
    have hle := h.checkpoint
    rw [hhigh, Option.getD_some] at hle
    have hall : w.sourceMessages 0 high = w.sourceMessages 0 r.job.lastCopiedSourceMessageId := by
      rw [← sourceMessages_append (Nat.zero_le _) hle, hempty, List.append_nil]
    have hnone := congrArg List.length (h.beyond_eq_nil hhigh hempty)
    rw [List.length_nil] at hnone
    refine ⟨high, hhigh, hall ▸ h.processed, ?_⟩
    rw [importableMessages, hall]
    unfold importableMessages at hmapped
    omega

/-- **The counters of an import account for every message.**  Along every run of calls,
interruptions and crashes whose requests Telegram answers faithfully, from an archive without
copies, the counters of the job are in balance in every state. -/
theorem import_counters_account (sourceChannelId : ℤ) (history archive : Channel)
    (events : List TransferEvent)
    (hinitial : ∀ m ∈ archive, m.forwardedSourceMessageId? sourceChannelId = none)
    (hfaithful : Transition.Along step Faithful (initial sourceChannelId history archive) events) :
    Transition.Always step (fun w => ∀ r, w.record = some r → w.Accounts r)
      (initial sourceChannelId history archive) events := by
  intro before hbefore r hr
  have hbalanced : (initial sourceChannelId history archive).Balanced :=
    ⟨fun _ h => (by cases h), fun _ h => (by cases h)⟩
  obtain ⟨hsound, hw⟩ := Transition.run_invariant_along (I := fun w => w.Sound ∧ w.Balanced)
    (fun _ _ hw h => ⟨hw.1.step h, hw.2.step hw.1 h⟩) ⟨sound_initial hinitial, hbalanced⟩
    (hfaithful.of_prefix hbefore)
  exact (hw.accounted r hr).accounts (hsound.recorded r hr)

/-- Telegram answers the requests of `recoveredTransfer` faithfully. -/
theorem faithful_recoveredTransfer :
    Transition.Along step Faithful (initial (-100) twoMessages .empty) recoveredTransfer := by
  unfold recoveredTransfer crashAfterForward
  rw [Transition.along_append, Transition.along_append]
  refine ⟨⟨?_, accepts_twoCopies, trivial, trivial⟩, ?_⟩
  · simp [firstCall, Transition.along_cons, Faithful]
  · simp [Transition.along_cons, Faithful]

/-- A transfer that crashed after its copies were made, and was taken up again. -/
theorem import_counters_account_recovered :
    Transition.Always step (fun w => ∀ r, w.record = some r → w.Accounts r)
      (initial (-100) twoMessages .empty) recoveredTransfer :=
  import_counters_account (-100) twoMessages .empty recoveredTransfer (fun _ h => (by cases h))
    faithful_recoveredTransfer

end TransferWorld
end CineGate

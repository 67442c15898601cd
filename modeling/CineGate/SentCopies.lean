/-
**The copies that were sent.**

Telegram gives every copy a message id of its own.  The id of a copy whose completion committed has
to stay in its delivery until the message is gone or its deletion is recorded as failed.  It does
not always: a completion of a delivery that is already sent returns without recording its message, a
completion of a delivery whose message is being deleted overwrites that message, and the report of a
deletion ends a delivery that names another message by now.

* `World.KeepsCopies` — no sent copy is lost;
* `World.Ledger` — where the message ids of a state come from;
* `World.LosesNoCopy` — the condition on a step;
* `World.keeps_copies_iff_loses_no_copy` — along any run no copy is lost exactly when every step
  meets the condition.
-/

import CineGate.LateCompletions

set_option relaxedAutoImplicit false
set_option autoImplicit false

namespace CineGate

/-- The message an attempt has copied. -/
def SendAttempt.messageId? (attempt : SendAttempt) : Option ℕ :=
  match attempt.phase with
  | .copied messageId | .finalized messageId => some messageId
  | _ => none

/-- The delivery records the message, and its deletion is scheduled or under way. -/
def Delivery.Tracks (delivery : Delivery) (messageId : ℕ) : Prop :=
  delivery.telegramMessageId = some messageId ∧
    (delivery.status = .sent ∧ delivery.nextAttemptAt.isSome ∨ delivery.status = .deleting)

namespace World

variable {w : World}

/-- The message has been deleted, or its deletion has been recorded as failed. -/
def Settled (w : World) (messageId : ℕ) : Prop :=
  messageId ∈ w.gone ∨ messageId ∈ w.deletionFailed

/-- **No sent copy is lost**: the message of every completed attempt is settled, or its delivery
tracks it. -/
def KeepsCopies (w : World) : Prop :=
  ∀ a ∈ w.attempts, ∀ messageId, a.phase = .finalized messageId →
    w.Settled messageId ∨
      ∃ d, w.db.deliveries.find? a.prepared.deliveryId = some d ∧ d.Tracks messageId

/-- The event completes no attempt with a copy while its delivery is sent, or while its delivery is
deleting a message that is not settled; and it reports no end of a deletion of another message than
the one its delivery is deleting, unless that one is settled. -/
structure LosesNoCopy (w : World) (event : Event) : Prop where
  complete : ∀ attemptId clock a messageId d, event = .complete attemptId clock →
    w.attempts.find? attemptId = some a → a.phase = .copied messageId →
      w.db.deliveries.find? a.prepared.deliveryId = some d →
        d.status ≠ .sent ∧ (d.status = .deleting →
          ∀ recorded, d.telegramMessageId = some recorded → w.Settled recorded)
  report : ∀ taskId clock task answer d, event = .reportDeletion taskId clock →
    w.tasks.find? taskId = some task → task.answer = some answer → task.reported = false →
      (∀ error, answer.report ≠ .retry error) →
        w.db.deliveries.find? task.item.deliveryId = some d → d.status = .deleting →
          ∀ recorded, d.telegramMessageId = some recorded →
            recorded = task.item.telegramMessageId ∨ w.Settled recorded

/-- The message is that of a completed attempt. -/
def Finalized (w : World) (messageId : ℕ) : Prop :=
  ∃ a ∈ w.attempts, a.phase = .finalized messageId

/-- The message is that of a completed attempt of the delivery. -/
def FinalizedFor (w : World) (deliveryId messageId : ℕ) : Prop :=
  ∃ a ∈ w.attempts, a.prepared.deliveryId = deliveryId ∧ a.phase = .finalized messageId

/-- Where the message ids of a state come from. -/
structure Ledger (w : World) : Prop extends w.Sound where
  unsent : ∀ d ∈ w.db.deliveries, d.status = .pending ∨ d.status = .sending →
    d.telegramMessageId = none
  issued : ∀ a ∈ w.attempts, ∀ messageId, a.messageId? = some messageId → messageId ∈ w.issued
  unique : ∀ a ∈ w.attempts, ∀ b ∈ w.attempts, ∀ messageId, a.messageId? = some messageId →
    b.messageId? = some messageId → b = a
  recorded : ∀ d ∈ w.db.deliveries, ∀ messageId, d.telegramMessageId = some messageId →
    w.FinalizedFor d.id messageId
  task : ∀ t ∈ w.tasks, w.Finalized t.item.telegramMessageId
  settled : ∀ messageId, w.Settled messageId → w.Finalized messageId
  answered : ∀ t ∈ w.tasks, ∀ answer, t.answer = some answer → answer.report = .deleted →
    t.item.telegramMessageId ∈ w.gone

/-! ### The ledger after an event -/

/-- The tasks, the issued ids, the deleted messages and the failed deletions are the same. -/
structure SameLedger (w w' : World) : Prop where
  tasks : w'.tasks = w.tasks
  issued : w'.issued = w.issued
  gone : w'.gone = w.gone
  deletionFailed : w'.deletionFailed = w.deletionFailed

theorem SameLedger.refl : w.SameLedger w := ⟨rfl, rfl, rfl, rfl⟩

theorem sameLedger_commit {ε α : Type} {result : Except ε (Db × α)} :
    w.SameLedger (w.commit result) := by
  unfold commit
  split <;> exact ⟨rfl, rfl, rfl, rfl⟩

theorem sameLedger_commitArchive {result : Except DbError (ArchiveTables × ArchiveIndexResult)} :
    w.SameLedger (w.commitArchive result) := by
  unfold commitArchive
  split <;> exact ⟨rfl, rfl, rfl, rfl⟩

theorem sameLedger_prepare {sessionId : ℕ} {render : CaptionRenderer} {clock : Clock} :
    w.SameLedger (w.prepare sessionId render clock) := by
  unfold prepare
  split <;> exact ⟨rfl, rfl, rfl, rfl⟩

theorem sameLedger_complete {attemptId : ℕ} {clock : Clock} :
    w.SameLedger (w.complete attemptId clock) := by
  unfold complete
  split
  · exact .refl
  · split
    · split <;> exact ⟨rfl, rfl, rfl, rfl⟩
    · split <;> exact ⟨rfl, rfl, rfl, rfl⟩
    · exact .refl

theorem sameLedger_recoverStaleSends {staleSeconds : ℤ} {locked : ℕ → Bool} {clock : Clock} :
    w.SameLedger (w.recoverStaleSends staleSeconds locked clock) := by
  unfold recoverStaleSends
  split <;> exact ⟨rfl, rfl, rfl, rfl⟩

/-- A task of a claim is an earlier one or that of a claimed delivery. -/
theorem mem_addTasks {items : List DueDeletion} {tasks : KeyedTable DeletionTask DeletionTask.id}
    {t : DeletionTask} (h : t ∈ addTasks tasks items) :
    t ∈ tasks ∨ t.item ∈ items ∧ t.answer = none := by
  induction items generalizing tasks with
  | nil => exact .inl h
  | cons item items ih =>
      rcases ih h with hmem | ⟨hmem, hanswer⟩
      · rcases KeyedTable.mem_of_mem_insert hmem with rfl | hmem
        · exact .inr ⟨List.mem_cons_self, rfl⟩
        · exact .inl hmem
      · exact .inr ⟨List.mem_cons_of_mem _ hmem, hanswer⟩

/-- The message of a delivery that is due. -/
theorem telegramMessageId_of_isDue {d : Delivery} {now : Instant} {locked : ℕ → Bool}
    (h : d.isDue now locked) : d.telegramMessageId = some d.dueDeletion.telegramMessageId := by
  simp only [Delivery.isDue, Bool.and_eq_true, decide_eq_true_eq] at h
  obtain ⟨messageId, hid⟩ := Option.isSome_iff_exists.1 h.1.1.2
  simp [Delivery.dueDeletion, hid]

/-- `claim_due_deletions` is not refused. -/
theorem Sound.claimDueDeletions_eq (hw : w.Sound) (limit : ℤ) (locked : ℕ → Bool) (clock : Clock) :
    ∃ db, w.claimDueDeletions limit locked clock =
      { w with
        db
        tasks := addTasks w.tasks (((w.db.dueDeletions limit clock.utcnow locked).filter
          fun d => !d.isTooOld clock.utcnow).map Delivery.dueDeletion)
        deletionFailed := ((w.db.dueDeletions limit clock.utcnow locked).filter
          fun d => d.isTooOld clock.utcnow).filterMap Delivery.telegramMessageId ++
            w.deletionFailed } := by
  have hne : CineGate.claimDueDeletions w.db limit locked clock ≠
      .error (.database .uniqueViolation) :=
    hw.not_refused (claimDueDeletions_commits hw.db.toLinked)
  unfold claimDueDeletions
  unfold CineGate.claimDueDeletions at hne ⊢
  dsimp only at hne ⊢
  rw [Db.commitDelivery_eq_ok hne]
  exact ⟨_, rfl⟩

/-- A report marks its task, and a failed one may record a failure. -/
theorem reportDeletion_ledger {taskId : ℕ} {clock : Clock} {task : DeletionTask}
    {answer : DeleteAnswer} (ht : w.tasks.find? taskId = some task) (ha : task.answer = some answer)
    (hopen : task.reported = false) :
    SameLedger
      { w with
        tasks := w.tasks.modifyAt taskId (fun t => { t with reported := true }) fun _ => rfl
        deletionFailed := match answer.report with
          | .failed _ => w.failedReport task.item ++ w.deletionFailed
          | _ => w.deletionFailed } (w.reportDeletion taskId clock) := by
  unfold reportDeletion
  cases hreport : answer.report with
  | deleted =>
      simp only [ht, ha, hopen, hreport]
      exact sameLedger_commit
  | failed error =>
      simp only [ht, ha, hopen, hreport]
      obtain ⟨htasks, hissued, hgone, -⟩ : SameLedger { w with
          tasks := w.tasks.modifyAt taskId (fun t => { t with reported := true }) fun _ => rfl }
          (commit _ (markDeleteFailed w.db task.item.deliveryId error)) := sameLedger_commit
      exact ⟨htasks, hissued, hgone, rfl⟩
  | retry error =>
      simp only [ht, ha, hopen, hreport]
      exact sameLedger_commit

/-- A report without an answer, or of a task that has been reported, changes nothing. -/
theorem reportDeletion_eq_self {taskId : ℕ} {clock : Clock}
    (h : ∀ task answer, w.tasks.find? taskId = some task → task.answer = some answer →
      task.reported = true) : w.reportDeletion taskId clock = w := by
  unfold reportDeletion
  split
  · rfl
  · next task ht =>
      split
      · next answer ha hopen =>
          rw [h task answer ht ha] at hopen
          cases hopen
      · rfl

/-- What an event does to the tasks, the deleted messages and the failed deletions. -/
structure LedgerStep (w w' : World) : Prop where
  tasks : ∀ t' ∈ w'.tasks,
    (∃ t ∈ w.tasks, t.item = t'.item ∧ (t'.answer = t.answer ∨ ∀ answer, t'.answer = some answer →
      answer.report = .deleted → t'.item.telegramMessageId ∈ w'.gone)) ∨
    t'.answer = none ∧ ∃ d ∈ w.db.deliveries, d.telegramMessageId = some t'.item.telegramMessageId
  issued : ∀ messageId ∈ w.issued, messageId ∈ w'.issued
  gone : ∀ messageId ∈ w.gone, messageId ∈ w'.gone
  goneOrigin : ∀ messageId ∈ w'.gone,
    messageId ∈ w.gone ∨ ∃ t ∈ w.tasks, t.item.telegramMessageId = messageId
  failed : ∀ messageId ∈ w.deletionFailed, messageId ∈ w'.deletionFailed
  failedOrigin : ∀ messageId ∈ w'.deletionFailed, messageId ∈ w.deletionFailed ∨
    ∃ d ∈ w.db.deliveries, d.telegramMessageId = some messageId

theorem SameLedger.ledgerStep {w' : World} (h : w.SameLedger w') : w.LedgerStep w' := by
  obtain ⟨htasks, hissued, hgone, hfailed⟩ := h
  constructor
  · exact fun t ht => .inl ⟨t, htasks ▸ ht, rfl, .inl rfl⟩
  · exact fun _ hmem => hissued ▸ hmem
  · exact fun _ hmem => hgone ▸ hmem
  · exact fun _ hmem => .inl (hgone ▸ hmem)
  · exact fun _ hmem => hfailed ▸ hmem
  · exact fun _ hmem => .inl (hfailed ▸ hmem)

theorem ledgerStep_copyMessage {attemptId : ℕ} {answer : CopyAnswer} :
    w.LedgerStep (w.copyMessage attemptId answer) := by
  unfold copyMessage
  split
  · exact SameLedger.refl.ledgerStep
  · split
    · exact SameLedger.refl.ledgerStep
    · split
      · split
        · exact SameLedger.refl.ledgerStep
        · exact ⟨fun t ht => .inl ⟨t, ht, rfl, .inl rfl⟩, fun _ h => List.mem_cons_of_mem _ h,
            fun _ h => h, fun _ h => .inl h, fun _ h => h, fun _ h => .inl h⟩
      · exact SameLedger.ledgerStep ⟨rfl, rfl, rfl, rfl⟩

theorem Sound.ledgerStep_claimDueDeletions (hw : w.Sound) {limit : ℤ} {locked : ℕ → Bool}
    {clock : Clock} : w.LedgerStep (w.claimDueDeletions limit locked clock) := by
  obtain ⟨db, h⟩ := hw.claimDueDeletions_eq limit locked clock
  rw [h]
  refine ⟨fun t ht => ?_, fun _ h => h, fun _ h => h, fun _ h => .inl h,
    fun _ h => List.mem_append_right _ h, fun messageId hmem => ?_⟩
  · rcases mem_addTasks ht with ht | ⟨hitem, hanswer⟩
    · exact .inl ⟨t, ht, rfl, .inl rfl⟩
    · obtain ⟨d, hd, hitem⟩ := List.mem_map.1 hitem
      obtain ⟨hd, hdue⟩ := Db.mem_dueDeletions (List.mem_filter.1 hd).1
      exact .inr ⟨hanswer, d, hd, hitem ▸ telegramMessageId_of_isDue hdue⟩
  · rcases List.mem_append.1 hmem with hmem | hmem
    · obtain ⟨d, hd, hid⟩ := List.mem_filterMap.1 hmem
      exact .inr ⟨d, (Db.mem_dueDeletions (List.mem_filter.1 hd).1).1, hid⟩
    · exact .inl hmem

theorem ledgerStep_deleteMessage {taskId : ℕ} {answer : DeleteAnswer} :
    w.LedgerStep (w.deleteMessage taskId answer) := by
  unfold deleteMessage
  split
  · exact SameLedger.refl.ledgerStep
  · next task hfind =>
      obtain ⟨htask, -⟩ := KeyedTable.find?_eq_some.1 hfind
      split
      · exact SameLedger.refl.ledgerStep
      · refine ⟨fun t' ht' => .inl ?_, fun _ h => h, fun _ h => ?_, fun messageId h => ?_,
          fun _ h => h, fun _ h => .inl h⟩
        · dsimp only at ht'
          rcases KeyedTable.mem_modifyAt.1 ht' with ⟨ht', -⟩ | ⟨t, ht, hid, rfl⟩
          · exact ⟨t', ht', rfl, .inl rfl⟩
          · obtain rfl : t = task :=
              w.tasks.ext_key ht htask (hid.trans (KeyedTable.key_of_find? hfind).symm)
            refine ⟨t, ht, rfl, .inr fun answer' h hdeleted => ?_⟩
            obtain rfl : answer = answer' := Option.some.inj h
            simp [hdeleted]
        · dsimp only
          split
          · exact List.mem_cons_of_mem _ h
          · exact h
        · dsimp only at h
          split at h
          · rcases List.mem_cons.1 h with rfl | h
            · exact .inr ⟨task, htask, rfl⟩
            · exact .inl h
          · exact .inl h

/-- A failure that a report records is about the message the delivery names. -/
theorem mem_failedReport {item : DueDeletion} {messageId : ℕ}
    (h : messageId ∈ w.failedReport item) :
    ∃ d, w.db.deliveries.find? item.deliveryId = some d ∧ d.status = .deleting ∧
      d.telegramMessageId = some messageId ∧ item.telegramMessageId = messageId := by
  unfold failedReport at h
  split at h
  · next d hd =>
      split at h
      · next hmatch =>
          simp only [Bool.and_eq_true, decide_eq_true_eq] at hmatch
          obtain rfl := List.mem_singleton.1 h
          exact ⟨d, hd, hmatch.1, hmatch.2, rfl⟩
      · cases h
  · cases h

theorem ledgerStep_reportDeletion {taskId : ℕ} {clock : Clock} :
    w.LedgerStep (w.reportDeletion taskId clock) := by
  by_cases hopen : ∃ task answer, w.tasks.find? taskId = some task ∧ task.answer = some answer ∧
      task.reported = false
  · obtain ⟨task, answer, ht, ha, hopen⟩ := hopen
    obtain ⟨htasks, hissued, hgone, hfailed⟩ : SameLedger _ (w.reportDeletion taskId clock) :=
      reportDeletion_ledger ht ha hopen
    refine ⟨fun t' ht' => .inl ?_, fun _ h => hissued ▸ h, fun _ h => hgone ▸ h,
      fun _ h => .inl (hgone ▸ h), fun _ h => ?_, fun messageId h => ?_⟩
    · rw [htasks] at ht'
      dsimp only at ht'
      rcases KeyedTable.mem_modifyAt.1 ht' with ⟨ht', -⟩ | ⟨t, ht, -, rfl⟩
      · exact ⟨t', ht', rfl, .inl rfl⟩
      · exact ⟨t, ht, rfl, .inl rfl⟩
    · rw [hfailed]
      dsimp only
      split
      · exact List.mem_append_right _ h
      · exact h
    · rw [hfailed] at h
      dsimp only at h
      split at h
      · rcases List.mem_append.1 h with h | h
        · obtain ⟨d, hd, -, hid, -⟩ := mem_failedReport h
          exact .inr ⟨d, KeyedTable.mem_of_find? hd, hid⟩
        · exact .inl h
      · exact .inl h
  · rw [reportDeletion_eq_self fun task answer ht ha => by
      by_contra h
      exact hopen ⟨task, answer, ht, ha, by simpa using h⟩]
    exact SameLedger.refl.ledgerStep

/-! ### Message ids after an event -/

theorem finalized_attemptAfter {event : Event} {a : SendAttempt} {messageId : ℕ}
    (h : a.phase = .finalized messageId) :
    (w.attemptAfter event a).phase = .finalized messageId := by
  unfold attemptAfter
  split
  · split
    · next hcopying => cases h.symm.trans hcopying.2.1
    · exact h
  · split
    · rw [h]
      exact h
    · exact h
  · split <;> exact h
  · exact h

/-- An attempt has its message from before, or Telegram has just issued it. -/
theorem messageId?_attemptAfter {event : Event} {a : SendAttempt} {messageId : ℕ}
    (h : (w.attemptAfter event a).messageId? = some messageId) :
    a.messageId? = some messageId ∨
      event = .copyMessage a.id (.copied messageId) ∧ a.phase = .copying ∧
        messageId ∉ w.issued := by
  unfold attemptAfter at h
  split at h
  · next attemptId answer =>
      split at h
      · next hcopy =>
          obtain ⟨rfl, hcopying, haccepts⟩ := hcopy
          cases answer with
          | copied messageId' =>
              obtain rfl : messageId' = messageId := Option.some.inj h
              exact .inr ⟨rfl, hcopying, by simpa [accepts] using haccepts⟩
          | refused error => cases h
      · exact .inl h
  · split at h
    · left
      unfold SendAttempt.messageId? at h ⊢
      cases hphase : a.phase <;> simp_all
    · exact .inl h
  · split at h <;> exact .inl h
  · exact .inl h

/-- A completion takes the attempt to its message. -/
theorem attemptAfter_complete {a : SendAttempt} {clock : Clock} {messageId : ℕ}
    (h : a.phase = .copied messageId) :
    (w.attemptAfter (.complete a.id clock) a).phase = .finalized messageId := by
  simp [attemptAfter, h]

/-- A completed attempt was completed before, or the event has completed it. -/
theorem phase_of_finalized_attemptAfter {event : Event} {a : SendAttempt} {messageId : ℕ}
    (h : (w.attemptAfter event a).phase = .finalized messageId) :
    a.phase = .finalized messageId ∨
      ∃ clock, event = .complete a.id clock ∧ a.phase = .copied messageId := by
  unfold attemptAfter at h
  split at h
  · next attemptId answer =>
      split at h
      · cases answer <;> cases h
      · exact .inl h
  · next attemptId clock =>
      split at h
      · next hid =>
          cases hphase : a.phase with
          | copied messageId' =>
              rw [hphase] at h
              cases h
              exact .inr ⟨clock, by rw [hid], rfl⟩
          | refused error =>
              rw [hphase] at h
              cases h
          | _ =>
              simp only [hphase] at h
              exact .inl h
      · exact .inl h
  · split at h <;> exact .inl h
  · exact .inl h

/-- A delivery keeps its message unless a completion records another one. -/
theorem DeliveryStep.telegramMessageId {event : Event} {d d' : Delivery}
    (h : DeliveryStep w event d d') :
    d'.telegramMessageId = d.telegramMessageId ∨
      ∃ attemptId clock a messageId, event = .complete attemptId clock ∧
        w.attempts.find? attemptId = some a ∧ d.id = a.prepared.deliveryId ∧
          a.phase = .copied messageId ∧ d'.status = .sent ∧
            d'.telegramMessageId = some messageId := by
  cases h with
  | finalized attemptId clock a messageId he ha hid hphase hsent =>
      exact .inr ⟨attemptId, clock, a, messageId, he, ha, hid, hphase, rfl, rfl⟩
  | deletionClaimed =>
      left
      unfold Delivery.claimDeletion
      split <;> rfl
  | reported =>
      left
      unfold reportDelivery Delivery.whenDeleting
      split <;> split <;> rfl
  | _ => exact .inl rfl

/-- What waits to be sent has no message. -/
theorem Ledger.unsent_step (hw : w.Ledger) {event : Event} {d d' : Delivery}
    (hd : d ∈ w.db.deliveries) (h : DeliveryStep w event d d')
    (hstatus : d'.status = .pending ∨ d'.status = .sending) : d'.telegramMessageId = none := by
  have hsame : d'.telegramMessageId = d.telegramMessageId := by
    rcases h.telegramMessageId with hsame | ⟨_, _, _, _, -, -, -, -, hsent, -⟩
    · exact hsame
    · rw [hsent] at hstatus
      rcases hstatus with hstatus | hstatus <;> cases hstatus
  rw [hsame]
  refine hw.unsent d hd ?_
  rcases hstatus with hpending | hsending
  · by_cases hd_pending : d.status = .pending
    · exact .inl hd_pending
    · exact .inr (h.pending hd_pending hpending).1
  · rcases h.sending hsending with ⟨hd_sending, -⟩ | ⟨_, _, _, _, _, rfl, hprepare, hid⟩
    · exact .inr hd_sending
    · exact .inl (hw.pending_of_prepare hprepare hd hid)

theorem SameLedger.settled_iff {w' : World} (h : w.SameLedger w') {messageId : ℕ} :
    w'.Settled messageId ↔ w.Settled messageId := by
  rw [Settled, Settled, h.gone, h.deletionFailed]

theorem LedgerStep.settled {w' : World} (h : w.LedgerStep w') {messageId : ℕ}
    (hsettled : w.Settled messageId) : w'.Settled messageId :=
  hsettled.imp (h.gone messageId) (h.failed messageId)

/-- The message of an attempt that is not completed is nowhere else. -/
theorem Ledger.copied_fresh (hw : w.Ledger) {a : SendAttempt} (ha : a ∈ w.attempts) {messageId : ℕ}
    (hphase : a.phase = .copied messageId) : ¬ w.Finalized messageId := by
  rintro ⟨b, hb, hfinalized⟩
  have heq : b = a := hw.unique a ha b hb messageId (by simp [SendAttempt.messageId?, hphase])
    (by simp [SendAttempt.messageId?, hfinalized])
  rw [heq, hphase] at hfinalized
  cases hfinalized

theorem initial_ledger (settings : Settings) (archive : ArchiveTables) :
    (initial settings archive).Ledger := by
  refine ⟨initial_sound settings archive, ?_, ?_, ?_, ?_, ?_, ?_, ?_⟩
  · exact fun _ hd => by cases hd
  · exact fun _ ha => by cases ha
  · exact fun _ ha => by cases ha
  · exact fun _ hd => by cases hd
  · exact fun _ ht => by cases ht
  · rintro messageId (h | h) <;> cases h
  · exact fun _ ht => by cases ht

section Step

variable [UnicodeData] {parser : ArchiveParser}

/-- **Where an event takes message ids from.** -/
theorem Sound.ledgerStep (hw : w.Sound) (event : Event) :
    w.LedgerStep (World.step parser w event) := by
  cases event with
  | prepare sessionId render clock => exact sameLedger_prepare.ledgerStep
  | copyMessage attemptId answer => exact ledgerStep_copyMessage
  | complete attemptId clock => exact sameLedger_complete.ledgerStep
  | recoverStaleSends staleSeconds locked clock => exact sameLedger_recoverStaleSends.ledgerStep
  | claimDueDeletions limit locked clock => exact hw.ledgerStep_claimDueDeletions
  | deleteMessage taskId answer => exact ledgerStep_deleteMessage
  | reportDeletion taskId clock => exact ledgerStep_reportDeletion
  | ingest channelId message => exact sameLedger_commitArchive.ledgerStep
  | reconcileEdit channelId message expectedSnapshotVersion =>
      exact sameLedger_commitArchive.ledgerStep
  | changeArchive archive =>
      simp only [World.step]
      split <;> exact SameLedger.ledgerStep ⟨rfl, rfl, rfl, rfl⟩
  | changeSettings settings => exact SameLedger.ledgerStep ⟨rfl, rfl, rfl, rfl⟩
  | _ => exact sameLedger_commit.ledgerStep

variable (parser) in
theorem Sound.finalizedFor_step (hw : w.Sound) (event : Event) {deliveryId messageId : ℕ}
    (h : w.FinalizedFor deliveryId messageId) :
    (World.step parser w event).FinalizedFor deliveryId messageId := by
  obtain ⟨a, ha, hid, hphase⟩ := h
  exact ⟨w.attemptAfter event a, KeyedTable.mem_of_find?
    (hw.find?_attempts_step parser event (KeyedTable.find?_of_mem ha)),
    by rw [prepared_attemptAfter, hid], finalized_attemptAfter hphase⟩

variable (parser) in
theorem Sound.finalized_step (hw : w.Sound) (event : Event) {messageId : ℕ}
    (h : w.Finalized messageId) : (World.step parser w event).Finalized messageId := by
  obtain ⟨a, ha, hphase⟩ := h
  obtain ⟨a', ha', -, hphase'⟩ := hw.finalizedFor_step parser event ⟨a, ha, rfl, hphase⟩
  exact ⟨a', ha', hphase'⟩

/-- The message Telegram has just issued is in the list. -/
theorem mem_issued_copyMessage {a : SendAttempt} {messageId : ℕ} (ha : a ∈ w.attempts)
    (hcopying : a.phase = .copying) (hnew : messageId ∉ w.issued) :
    messageId ∈ (World.step parser w (.copyMessage a.id (.copied messageId))).issued := by
  simp [World.step, copyMessage, KeyedTable.find?_of_mem ha, hcopying, hnew]

/-- The message of an attempt after an event: that of the attempt before, or a new one. -/
theorem Sound.messageId?_step (hw : w.Sound) {event : Event} {a : SendAttempt} {messageId : ℕ}
    (ha : a ∈ (World.step parser w event).attempts) (h : a.messageId? = some messageId) :
    ∃ a₀ ∈ w.attempts, a₀.id = a.id ∧ (a₀.messageId? = some messageId ∨
      event = .copyMessage a₀.id (.copied messageId) ∧ a₀.phase = .copying ∧
        messageId ∉ w.issued) := by
  rcases hw.attempt_step_origin ha with ⟨a₀, ha₀, hid, rfl⟩ | ⟨_, _, -, -, hphase, -⟩
  · exact ⟨a₀, ha₀, hid, messageId?_attemptAfter h⟩
  · simp [SendAttempt.messageId?, hphase] at h

/-- A delivery after an event: one that has been added, or what the event makes of an earlier
one. -/
theorem Sound.delivery_step_origin (hw : w.Sound) {event : Event} {d' : Delivery}
    (hd' : d' ∈ (World.step parser w event).db.deliveries) :
    d'.telegramMessageId = none ∨
      ∃ d ∈ w.db.deliveries, d.id = d'.id ∧ DeliveryStep w event d d' := by
  have hfind' := KeyedTable.find?_of_mem hd'
  cases hfind : w.db.deliveries.find? d'.id with
  | none =>
      obtain ⟨-, -, -, -, -, hnone⟩ := hw.delivery_origin hfind' hfind
      exact .inl hnone
  | some d =>
      obtain ⟨hd, hid⟩ := KeyedTable.find?_eq_some.1 hfind
      have hafter := hw.find?_deliveries_step parser event hfind
      refine .inr ⟨d, hd, hid, ?_⟩
      rw [Option.some.inj (hfind'.symm.trans hafter)]
      exact deliveryStep hd

/-- The message a delivery records is that of a completed attempt. -/
theorem Ledger.recorded_step (hw : w.Ledger) {event : Event} {d d' : Delivery} {messageId : ℕ}
    (hd : d ∈ w.db.deliveries) (h : DeliveryStep w event d d')
    (hrecorded : d'.telegramMessageId = some messageId) :
    (World.step parser w event).FinalizedFor d.id messageId := by
  rcases h.telegramMessageId with hsame | ⟨attemptId, clock, a, messageId', rfl, ha, hid, hphase, -,
    hid'⟩
  · exact hw.toSound.finalizedFor_step parser event (hw.recorded d hd messageId (hsame ▸ hrecorded))
  · obtain rfl : messageId' = messageId := Option.some.inj (hid'.symm.trans hrecorded)
    obtain ⟨hmem, rfl⟩ := KeyedTable.find?_eq_some.1 ha
    exact ⟨_, KeyedTable.mem_of_find? (hw.toSound.find?_attempts_step parser _ ha),
      by rw [prepared_attemptAfter, hid], attemptAfter_complete hphase⟩

/-- **Every event keeps the ledger.** -/
theorem Ledger.step (hw : w.Ledger) (event : Event) : (World.step parser w event).Ledger := by
  have hledger : w.LedgerStep (World.step parser w event) := hw.toSound.ledgerStep event
  refine ⟨hw.toSound.step event, ?_, ?_, ?_, ?_, ?_, ?_, ?_⟩
  · intro d' hd' hstatus
    rcases hw.toSound.delivery_step_origin hd' with hnone | ⟨d, hd, -, hstep⟩
    · exact hnone
    · exact hw.unsent_step hd hstep hstatus
  · intro a ha messageId h
    obtain ⟨a₀, ha₀, -, hold | ⟨rfl, hcopying, hnew⟩⟩ := hw.toSound.messageId?_step ha h
    · exact hledger.issued _ (hw.issued a₀ ha₀ messageId hold)
    · exact mem_issued_copyMessage ha₀ hcopying hnew
  · intro a ha b hb messageId h h'
    obtain ⟨a₀, ha₀, hid, hold | ⟨he, hcopying, hnew⟩⟩ := hw.toSound.messageId?_step ha h <;>
      obtain ⟨b₀, hb₀, hid', hold' | ⟨he', hcopying', hnew'⟩⟩ := hw.toSound.messageId?_step hb h'
    · have heq := hw.unique a₀ ha₀ b₀ hb₀ messageId hold hold'
      exact (World.step parser w event).attempts.ext_key hb ha (by rw [← hid', ← hid, heq])
    · -- Telegram gives a new message an id it has not given before
      exact absurd (hw.issued a₀ ha₀ messageId hold) hnew'
    · exact absurd (hw.issued b₀ hb₀ messageId hold') hnew
    · have heq : a₀.id = b₀.id := by
        injection he.symm.trans he'
      exact (World.step parser w event).attempts.ext_key hb ha (by rw [← hid', ← hid, heq])
  · intro d' hd' messageId hrecorded
    rcases hw.toSound.delivery_step_origin hd' with hnone | ⟨d, hd, hid, hstep⟩
    · cases hnone.symm.trans hrecorded
    · exact hid ▸ hw.recorded_step hd hstep hrecorded
  · intro t' ht'
    rcases hledger.tasks t' ht' with ⟨t, ht, hitem, -⟩ | ⟨-, d, hd, hid⟩
    · exact hitem ▸ hw.toSound.finalized_step parser event (hw.task t ht)
    · obtain ⟨a, ha, -, hphase⟩ := hw.recorded d hd _ hid
      exact hw.toSound.finalized_step parser event ⟨a, ha, hphase⟩
  · -- what has been deleted or given up was recorded, and what is recorded was completed
    rintro messageId (hmem | hmem)
    · refine hw.toSound.finalized_step parser event ?_
      rcases hledger.goneOrigin messageId hmem with hmem | ⟨t, ht, rfl⟩
      · exact hw.settled messageId (.inl hmem)
      · exact hw.task t ht
    · refine hw.toSound.finalized_step parser event ?_
      rcases hledger.failedOrigin messageId hmem with hmem | ⟨d, hd, hid⟩
      · exact hw.settled messageId (.inr hmem)
      · obtain ⟨a, ha, -, hphase⟩ := hw.recorded d hd _ hid
        exact ⟨a, ha, hphase⟩
  · intro t' ht' answer hanswer hdeleted
    rcases hledger.tasks t' ht' with ⟨t, ht, hitem, hsame | hgone⟩ | ⟨hnone, -⟩
    · rw [← hitem]
      exact hledger.gone _ (hw.answered t ht answer (hsame ▸ hanswer) hdeleted)
    · exact hgone answer hanswer hdeleted
    · cases hnone.symm.trans hanswer

/-! ### Losing a copy -/

/-- A step that loses no copy settles the message a delivery tracks, or the delivery keeps tracking
it. -/
theorem Ledger.tracks_step (hw : w.Ledger) {event : Event} (hevent : w.LosesNoCopy event)
    {d d' : Delivery} (hd : d ∈ w.db.deliveries) (h : DeliveryStep w event d d') {messageId : ℕ}
    (htracks : d.Tracks messageId) :
    (World.step parser w event).Settled messageId ∨ d'.Tracks messageId := by
  obtain ⟨hrecorded, hstatus⟩ := htracks
  have hledger : w.LedgerStep (World.step parser w event) := hw.toSound.ledgerStep event
  have hnot : d.status ≠ .sending ∧ d.status ≠ .pending := by
    rcases hstatus with ⟨hsent, -⟩ | hdeleting
    · simp [hsent]
    · simp [hdeleting]
  cases h with
  | idle => exact .inr ⟨hrecorded, hstatus⟩
  | claimed sessionId render clock db' prepared he hprepare hid =>
      exact absurd (hw.pending_of_prepare hprepare hd hid) hnot.2
  | finalized attemptId clock a messageId' he ha hid hphase hsent =>
      obtain ⟨-, hdeleting⟩ := hevent.complete attemptId clock a messageId' d he ha hphase
        (hid ▸ KeyedTable.find?_of_mem hd)
      refine .inl (hledger.settled (hdeleting ?_ messageId hrecorded))
      exact hstatus.resolve_left fun h => hsent h.1
  | reset attemptId clock a error he ha hid hphase hsending => exact absurd hsending hnot.1
  | sendRecovered staleSeconds locked clock he hpos hstale =>
      simp only [Delivery.isStaleSend, Bool.and_eq_true, decide_eq_true_eq] at hstale
      exact absurd hstale.1.1 hnot.1
  | deletionRecovered staleSeconds clock he hdeleting => exact .inr ⟨hrecorded, .inl ⟨rfl, rfl⟩⟩
  | deletionClaimed limit locked clock he hdue =>
      subst he
      unfold Delivery.claimDeletion
      split
      · -- the copy is too old to be deleted: the claim records the failure
        next hold =>
          obtain ⟨db, heq⟩ := hw.toSound.claimDueDeletions_eq limit locked clock
          refine .inl (.inr ?_)
          simp only [World.step, heq]
          exact List.mem_append_left _ (List.mem_filterMap.2
            ⟨d, List.mem_filter.2 ⟨hdue, hold⟩, hrecorded⟩)
      · exact .inr ⟨hrecorded, .inr rfl⟩
  | reported taskId clock task answer he ht ha hopen hid hdeleting =>
      subst he
      have hsame : SameLedger _ (World.step parser w (.reportDeletion taskId clock)) :=
        reportDeletion_ledger ht ha hopen
      have hfind : w.db.deliveries.find? task.item.deliveryId = some d :=
        hid ▸ KeyedTable.find?_of_mem hd
      have hterminal : (∀ error, answer.report ≠ .retry error) →
          messageId = task.item.telegramMessageId ∨ w.Settled messageId := fun hne =>
        hevent.report taskId clock task answer d rfl ht ha hopen hne hfind hdeleting messageId
          hrecorded
      cases hreport : answer.report with
      | deleted =>
          left
          rcases hterminal (by simp [hreport]) with rfl | hsettled
          · exact hledger.settled (.inl (hw.answered task (KeyedTable.mem_of_find? ht) answer ha
              hreport))
          · exact hledger.settled hsettled
      | failed error =>
          left
          rcases hterminal (by simp [hreport]) with rfl | hsettled
          · right
            rw [hsame.deletionFailed]
            simp [hreport, failedReport, hfind, hdeleting, hrecorded]
          · exact hledger.settled hsettled
      | retry error =>
          right
          have hreschedule : reportDelivery answer clock d = d.reschedule error clock.utcnow := by
            simp [reportDelivery, hreport, Delivery.whenDeleting, hdeleting]
          rw [hreschedule]
          exact ⟨hrecorded, .inl ⟨rfl, rfl⟩⟩

/-- A step that loses no copy keeps every copy that was sent. -/
theorem Ledger.keepsCopies_step (hw : w.Ledger) (hkeeps : w.KeepsCopies) {event : Event}
    (hevent : w.LosesNoCopy event) : (World.step parser w event).KeepsCopies := by
  intro a ha messageId hfinalized
  have hledger : w.LedgerStep (World.step parser w event) := hw.toSound.ledgerStep event
  rcases hw.toSound.attempt_step_origin ha with ⟨a₀, ha₀, -, rfl⟩ | ⟨_, _, -, -, hphase, -⟩
  · rw [prepared_attemptAfter]
    rcases phase_of_finalized_attemptAfter hfinalized with hphase | ⟨clock, rfl, hphase⟩
    · rcases hkeeps a₀ ha₀ messageId hphase with hsettled | ⟨d, hd, htracks⟩
      · exact .inl (hledger.settled hsettled)
      · refine (hw.tracks_step hevent (KeyedTable.mem_of_find? hd)
          (deliveryStep (KeyedTable.mem_of_find? hd)) htracks).imp_right fun htracks' => ?_
        exact ⟨_, hw.toSound.find?_deliveries_step parser event hd, htracks'⟩
    · obtain ⟨d, hd⟩ := hw.toSound.delivery_of_attempt ha₀
      have hfind := KeyedTable.find?_of_mem ha₀
      obtain ⟨hsent, -⟩ := hevent.complete a₀.id clock a₀ messageId d rfl hfind hphase hd
      refine .inr ⟨_, hw.toSound.find?_deliveries_step parser _ hd, ?_⟩
      simp [deliveryAfter, hfind, KeyedTable.key_of_find? hd, completeDelivery, hphase, hsent,
        Delivery.Tracks, Delivery.finalizeSent]
  · cases hphase.symm.trans hfinalized

/-- A completion with a copy that keeps every copy meets the condition. -/
theorem Ledger.losesNoCopy_complete (hw : w.Ledger) {attemptId : ℕ} {clock : Clock}
    (hkeeps : (World.step parser w (.complete attemptId clock)).KeepsCopies) {a : SendAttempt}
    {messageId : ℕ} (ha : w.attempts.find? attemptId = some a)
    (hphase : a.phase = .copied messageId) {d : Delivery}
    (hd : w.db.deliveries.find? a.prepared.deliveryId = some d) :
    d.status ≠ .sent ∧ (d.status = .deleting →
      ∀ recorded, d.telegramMessageId = some recorded → w.Settled recorded) := by
  obtain ⟨hmem, rfl⟩ := KeyedTable.find?_eq_some.1 ha
  obtain ⟨hd_mem, hid⟩ := KeyedTable.find?_eq_some.1 hd
  have hsame : w.SameLedger (World.step parser w (.complete a.id clock)) := sameLedger_complete
  have hfresh := hw.copied_fresh hmem hphase
  have hd' := hw.toSound.find?_deliveries_step parser (.complete a.id clock) hd
  constructor
  · -- a delivery that is already sent does not record the message
    intro hsent
    have hafter := hw.toSound.find?_attempts_step parser (.complete a.id clock) ha
    rcases hkeeps _ (KeyedTable.mem_of_find? hafter) messageId (attemptAfter_complete hphase) with
      hsettled | ⟨d₁, hd₁, htracks, -⟩
    · exact hfresh (hw.settled messageId (hsame.settled_iff.1 hsettled))
    · rw [prepared_attemptAfter, hd'] at hd₁
      obtain rfl : _ = d₁ := Option.some.inj hd₁
      have hunchanged : w.deliveryAfter (.complete a.id clock) d = d := by
        simp [deliveryAfter, ha, completeDelivery, hphase, hsent]
      rw [hunchanged] at htracks
      obtain ⟨b, hb, -, hb_phase⟩ := hw.recorded d hd_mem messageId htracks
      exact hfresh ⟨b, hb, hb_phase⟩
  · -- a delivery whose message is being deleted records the new message in its place
    intro hdeleting recorded hrecorded
    obtain ⟨b, hb, hb_id, hb_phase⟩ := hw.recorded d hd_mem recorded hrecorded
    have hafter := hw.toSound.find?_attempts_step parser (.complete a.id clock)
      (KeyedTable.find?_of_mem hb)
    rcases hkeeps _ (KeyedTable.mem_of_find? hafter) recorded (finalized_attemptAfter hb_phase) with
      hsettled | ⟨d₁, hd₁, htracks, -⟩
    · exact hsame.settled_iff.1 hsettled
    · rw [prepared_attemptAfter, hb_id, hid, hd'] at hd₁
      obtain rfl : _ = d₁ := Option.some.inj hd₁
      have hnew : (w.deliveryAfter (.complete a.id clock) d).telegramMessageId =
          some messageId := by
        simp [deliveryAfter, ha, hid, completeDelivery, hphase, hdeleting, Delivery.finalizeSent]
      rw [hnew] at htracks
      obtain rfl := Option.some.inj htracks
      exact absurd ⟨b, hb, hb_phase⟩ hfresh

/-- The end of a deletion that keeps every copy meets the condition. -/
theorem Ledger.losesNoCopy_report (hw : w.Ledger) {taskId : ℕ} {clock : Clock}
    (hkeeps : (World.step parser w (.reportDeletion taskId clock)).KeepsCopies)
    {task : DeletionTask}
    {answer : DeleteAnswer} (ht : w.tasks.find? taskId = some task) (ha : task.answer = some answer)
    (hopen : task.reported = false) (hterminal : ∀ error, answer.report ≠ .retry error)
    {d : Delivery} (hd : w.db.deliveries.find? task.item.deliveryId = some d)
    (hdeleting : d.status = .deleting) {recorded : ℕ}
    (hrecorded : d.telegramMessageId = some recorded) :
    recorded = task.item.telegramMessageId ∨ w.Settled recorded := by
  obtain ⟨hd_mem, hid⟩ := KeyedTable.find?_eq_some.1 hd
  obtain ⟨b, hb, hb_id, hb_phase⟩ := hw.recorded d hd_mem recorded hrecorded
  have hsame : SameLedger _ (World.step parser w (.reportDeletion taskId clock)) :=
    reportDeletion_ledger ht ha hopen
  have hafter := hw.toSound.find?_attempts_step parser (.reportDeletion taskId clock)
    (KeyedTable.find?_of_mem hb)
  rcases hkeeps _ (KeyedTable.mem_of_find? hafter) recorded (finalized_attemptAfter hb_phase) with
    (hgone | hfailed) | ⟨d₁, hd₁, -, hstatus⟩
  · rw [hsame.gone] at hgone
    exact .inr (.inl hgone)
  · rw [hsame.deletionFailed] at hfailed
    dsimp only at hfailed
    split at hfailed
    · rcases List.mem_append.1 hfailed with hfailed | hfailed
      · obtain ⟨-, -, -, -, hitem⟩ := mem_failedReport hfailed
        exact .inl hitem.symm
      · exact .inr (.inr hfailed)
    · exact .inr (.inr hfailed)
  · -- the report has ended the delivery
    rw [prepared_attemptAfter, hb_id, hid,
      hw.toSound.find?_deliveries_step parser (.reportDeletion taskId clock) hd] at hd₁
    obtain rfl : _ = d₁ := Option.some.inj hd₁
    exfalso
    cases hreport : answer.report with
    | retry error => exact hterminal error hreport
    | deleted =>
        simp [deliveryAfter, ht, ha, hopen, hid, reportDelivery, hreport, Delivery.whenDeleting,
          hdeleting, Delivery.markDeleted] at hstatus
    | failed error =>
        simp [deliveryAfter, ht, ha, hopen, hid, reportDelivery, hreport, Delivery.whenDeleting,
          hdeleting, Delivery.markDeleteFailed] at hstatus

/-! ### Runs -/

/-- **Along a run no sent copy is lost exactly when every step meets the condition.** -/
theorem keeps_copies_iff_loses_no_copy (parser : ArchiveParser) (settings : Settings)
    (archive : ArchiveTables) (events : List Event) :
    Transition.Always (World.step parser) KeepsCopies (initial settings archive) events ↔
      Transition.Along (World.step parser) LosesNoCopy (initial settings archive) events := by
  refine Transition.always_iff_along (J := Ledger) (fun _ event hw _ _ => hw.step event)
    (fun w event hw hkeeps => ⟨fun hkeeps' => ⟨?_, ?_⟩, hw.keepsCopies_step hkeeps⟩)
    (initial_ledger settings archive) (fun _ ha => by cases ha) events
  · rintro attemptId clock a messageId d rfl ha hphase hd
    exact hw.losesNoCopy_complete hkeeps' ha hphase hd
  · rintro taskId clock task answer d rfl ht ha hopen hterminal hd hdeleting recorded hrecorded
    exact hw.losesNoCopy_report hkeeps' ht ha hopen hterminal hd hdeleting hrecorded

end Step

section Counterexample

attribute [local instance] UnicodeData.asciiArabic

/-- Both the attempt that a stale recovery has released and the one after it copy the film, and the
second one is completed first. -/
def lateCopy : List Event :=
  earning ++ [.prepare 40 (fun r => some ⟨r.movie, []⟩) (atSecond 30),
    .recoverStaleSends 300 (fun _ => false) (atSecond 1000),
    .prepare 40 (fun r => some ⟨r.movie, []⟩) (atSecond 1001),
    .copyMessage 1 (.copied 901), .copyMessage 2 (.copied 902),
    .complete 2 (atSecond 1002), .complete 1 (atSecond 1003)]

theorem lateCopy_loses_message :
    ¬ ((initial {} oneFile).after {} lateCopy).KeepsCopies := by
  intro hkeeps
  have ha : ∃ a, ((initial {} oneFile).after {} lateCopy).attempts.find? 1 = some a ∧
      a.phase = .finalized 901 ∧ a.prepared.deliveryId = 1 := ⟨_, rfl, by decide +kernel⟩
  have hd : ∃ d, ((initial {} oneFile).after {} lateCopy).db.deliveries.find? 1 = some d ∧
      d.telegramMessageId = some 902 := ⟨_, rfl, by decide +kernel⟩
  have hsettled : ((initial {} oneFile).after {} lateCopy).gone = [] ∧
      ((initial {} oneFile).after {} lateCopy).deletionFailed = [] := by decide +kernel
  obtain ⟨a, ha, hphase, hid⟩ := ha
  obtain ⟨d, hd, hrecorded⟩ := hd
  rcases hkeeps a (KeyedTable.mem_of_find? ha) 901 hphase with (h | h) | ⟨d₁, hd₁, htracks, -⟩
  · simp [hsettled.1] at h
  · simp [hsettled.2] at h
  · rw [hid, hd] at hd₁
    obtain rfl := Option.some.inj hd₁
    simp [hrecorded] at htracks

end Counterexample

end World
end CineGate

/-
**The tasks of the deletion worker.**

A claim makes an open task for every film it takes and does not find too old.  Telegram answers the
task, and a report of the answer closes it; nothing else opens, answers or closes a task.

* `World.Tasked` — whatever is being deleted has an open task; every event keeps it so;
* `World.Sound.open_step`, `World.Sound.open_origin` — an open task before and after an event;
* `World.Sound.deliveryAfter_underway` — what can happen to a film once its deletion is claimed.
-/

import CineGate.DeletionQueue
import CineGate.SentCopies

set_option relaxedAutoImplicit false
set_option autoImplicit false

namespace CineGate

/-- The event belongs to a worker. -/
def Event.isDeletion : Event → Bool
  | .claimDueDeletions .. | .deleteMessage .. | .reportDeletion .. => true
  | _ => false

/-- The task has its answer and has not been reported. -/
def World.isAnswered (w : World) (taskId : ℕ) : Bool :=
  (w.tasks.find? taskId).any fun task => task.answer.isSome && !task.reported

/-- The event completes a send of the delivery. -/
def World.completes (w : World) (deliveryId : ℕ) : Event → Bool
  | .complete attemptId _ =>
      (w.attempts.find? attemptId).any fun a => a.prepared.deliveryId = deliveryId
  | _ => false

/-- The deletion of the film has come to its end. -/
def Delivery.isDecided (d : Delivery) : Bool := d.status = .deleted || d.status = .deleteFailed

/-- The answer does not ask for another try. -/
def DeleteAnswer.isFinal (answer : DeleteAnswer) : Bool :=
  match answer.report with
  | .deleted | .failed _ => true
  | .retry _ => false

/-- The tasks of a claim come behind the others, one for each item. -/
theorem exists_addTasks (items : List DueDeletion)
    (tasks : KeyedTable DeletionTask DeletionTask.id) :
    ∃ added : List DeletionTask, (addTasks tasks items).rows = tasks.rows ++ added ∧
      added.map DeletionTask.item = items ∧
      ∀ task ∈ added, (task.answer = none ∧ task.reported = false) ∧ tasks.freshKey ≤ task.id := by
  induction items generalizing tasks with
  | nil => exact ⟨[], (List.append_nil _).symm, rfl, fun _ h => by cases h⟩
  | cons item items ih =>
      have hrows : (tasks.insert ⟨tasks.freshKey, item, none, false⟩).rows =
          tasks.rows ++ [⟨tasks.freshKey, item, none, false⟩] := KeyedTable.rows_insert_freshKey rfl
      obtain ⟨added, hadded, hitems, hnew⟩ :=
        ih (tasks.insert ⟨tasks.freshKey, item, none, false⟩)
      refine ⟨⟨tasks.freshKey, item, none, false⟩ :: added, ?_, by rw [List.map_cons, hitems], ?_⟩
      · rw [addTasks, hadded, hrows, List.append_assoc, List.singleton_append]
      · intro task htask
        rcases List.mem_cons.1 htask with rfl | htask
        · exact ⟨⟨rfl, rfl⟩, le_refl _⟩
        · obtain ⟨hopen, hkey⟩ := hnew task htask
          refine ⟨hopen, le_trans ?_ hkey⟩
          have hmem : (⟨tasks.freshKey, item, none, false⟩ : DeletionTask) ∈
              tasks.insert ⟨tasks.freshKey, item, none, false⟩ := by
            rw [← KeyedTable.mem_rows, hrows]
            exact List.mem_append_right _ List.mem_cons_self
          exact (KeyedTable.lt_freshKey hmem).le

namespace World

variable {w : World}

/-- Whatever is being deleted has a task that has not been reported. -/
def Tasked (w : World) : Prop :=
  ∀ d ∈ w.db.deliveries, d.status = .deleting →
    ∃ task ∈ w.tasks, task.item.deliveryId = d.id ∧ task.reported = false

/-- The tasks after a report. -/
theorem tasks_reportDeletion {taskId : ℕ} (h : w.isAnswered taskId) (clock : Clock) :
    (w.reportDeletion taskId clock).tasks =
      w.tasks.modifyAt taskId (fun t => { t with reported := true }) fun _ => rfl := by
  unfold isAnswered at h
  obtain ⟨task, htask, hopen⟩ := (Option.any_eq_true _ _).1 h
  simp only [Bool.and_eq_true, Bool.not_eq_true'] at hopen
  obtain ⟨answer, hanswer⟩ := Option.isSome_iff_exists.1 hopen.1
  exact (reportDeletion_ledger htask hanswer hopen.2).tasks

/-- A report without an answer changes nothing. -/
theorem reportDeletion_of_not_isAnswered {taskId : ℕ} (h : w.isAnswered taskId = false)
    (clock : Clock) : w.reportDeletion taskId clock = w := by
  refine reportDeletion_eq_self fun task answer htask hanswer => ?_
  simpa [isAnswered, htask, hanswer] using h

/-- An answer of Telegram leaves the tasks and what has been reported. -/
theorem mem_tasks_deleteMessage (taskId : ℕ) (answer : DeleteAnswer) :
    (∀ task ∈ w.tasks, ∃ task' ∈ (w.deleteMessage taskId answer).tasks, task'.id = task.id ∧
      task'.item = task.item ∧ task'.reported = task.reported) ∧
    ∀ task' ∈ (w.deleteMessage taskId answer).tasks, ∃ task ∈ w.tasks, task'.id = task.id ∧
      task'.item = task.item ∧ task'.reported = task.reported := by
  unfold deleteMessage
  split
  · exact ⟨fun t h => ⟨t, h, rfl, rfl, rfl⟩, fun t h => ⟨t, h, rfl, rfl, rfl⟩⟩
  · split
    · exact ⟨fun t h => ⟨t, h, rfl, rfl, rfl⟩, fun t h => ⟨t, h, rfl, rfl, rfl⟩⟩
    · dsimp only
      constructor
      · intro t ht
        by_cases hid : t.id = taskId
        · exact ⟨_, KeyedTable.mem_modifyAt.2 (.inr ⟨t, ht, hid, rfl⟩), rfl, rfl, rfl⟩
        · exact ⟨t, KeyedTable.mem_modifyAt.2 (.inl ⟨ht, hid⟩), rfl, rfl, rfl⟩
      · intro t' ht'
        rcases KeyedTable.mem_modifyAt.1 ht' with ⟨ht', -⟩ | ⟨t, ht, -, rfl⟩
        · exact ⟨t', ht', rfl, rfl, rfl⟩
        · exact ⟨t, ht, rfl, rfl, rfl⟩

/-- The answer of Telegram is the answer of its task. -/
theorem answer_deleteMessage {taskId : ℕ} {answer : DeleteAnswer} {task : DeletionTask}
    (h : task ∈ (w.deleteMessage taskId answer).tasks) :
    task ∈ w.tasks ∨ task.id = taskId ∧ task.answer = some answer := by
  unfold deleteMessage at h
  split at h
  · exact .inl h
  · split at h
    · exact .inl h
    · dsimp only at h
      rcases KeyedTable.mem_modifyAt.1 h with ⟨h, -⟩ | ⟨task₀, -, hid, rfl⟩
      · exact .inl h
      · exact .inr ⟨hid, rfl⟩

/-- A report on the delivery with a final answer decides it. -/
theorem isDecided_reportDelivery {answer : DeleteAnswer} (hfinal : answer.isFinal) (clock : Clock)
    {d : Delivery} (hdeleting : d.status = .deleting) :
    (reportDelivery answer clock d).isDecided ∧
      (reportDelivery answer clock d).telegramMessageId = d.telegramMessageId := by
  unfold DeleteAnswer.isFinal at hfinal
  unfold reportDelivery Delivery.whenDeleting
  simp only [hdeleting, if_true]
  cases h : answer.report with
  | retry error => simp [h] at hfinal
  | _ => exact ⟨rfl, rfl⟩

/-- **Once its deletion is claimed**, a film is left as it is until a report or a stale recovery
comes, as long as no late copy of it is completed. -/
theorem Sound.deliveryAfter_underway (hw : w.Sound) (event : Event) {d : Delivery}
    (hd : d ∈ w.db.deliveries) (hstatus : d.status = .deleting ∨ d.isDecided)
    (hcompletes : w.completes d.id event = false) :
    w.deliveryAfter event d = d ∨ d.status = .deleting ∧
      ((∃ staleSeconds clock, event = .recoverStaleDeletions staleSeconds clock) ∨
        ∃ taskId clock, event = .reportDeletion taskId clock) := by
  have hnot : d.status ≠ .pending ∧ d.status ≠ .sending ∧ d.status ≠ .sent := by
    simp only [Delivery.isDecided, Bool.or_eq_true, decide_eq_true_eq] at hstatus
    rcases hstatus with h | h | h <;> simp [h]
  have hother : ∀ attemptId clock a, event = .complete attemptId clock →
      w.attempts.find? attemptId = some a → d.id ≠ a.prepared.deliveryId := by
    rintro attemptId clock a rfl ha hid
    simp [completes, ha, hid] at hcompletes
  have hstep : DeliveryStep w event d (w.deliveryAfter event d) := deliveryStep hd
  generalize w.deliveryAfter event d = d' at hstep ⊢
  cases hstep with
  | idle => exact .inl rfl
  | claimed sessionId render clock db' prepared he h hid =>
      exact absurd (hw.pending_of_prepare h hd hid) hnot.1
  | finalized attemptId clock a messageId he ha hid hphase hsent =>
      exact absurd hid (hother attemptId clock a he ha)
  | reset attemptId clock a error he ha hid hphase hsending => exact absurd hsending hnot.2.1
  | sendRecovered staleSeconds locked clock he hpos hstale =>
      simp [Delivery.isStaleSend, hnot.2.1] at hstale
  | deletionRecovered staleSeconds clock he hdeleting =>
      exact .inr ⟨hdeleting, .inl ⟨staleSeconds, clock, he⟩⟩
  | deletionClaimed limit locked clock he hdue =>
      have h := (Db.mem_dueDeletions hdue).2
      simp [Delivery.isDue, hnot.2.2] at h
  | reported taskId clock task answer he ht ha hopen hid hdeleting =>
      exact .inr ⟨hdeleting, .inr ⟨taskId, clock, he⟩⟩

section Step

variable [UnicodeData] {parser : ArchiveParser}

/-- An event that belongs to no worker leaves the tasks. -/
theorem tasks_of_not_isDeletion {event : Event} (h : event.isDeletion = false) :
    (World.step parser w event).tasks = w.tasks := by
  cases event with
  | prepare sessionId render clock => exact sameLedger_prepare.tasks
  | copyMessage attemptId answer =>
      simp only [step, copyMessage]
      split
      · rfl
      · split
        · rfl
        · split
          · split <;> rfl
          · rfl
  | complete attemptId clock => exact sameLedger_complete.tasks
  | recoverStaleSends staleSeconds locked clock => exact sameLedger_recoverStaleSends.tasks
  | claimDueDeletions limit locked clock => cases h
  | deleteMessage taskId answer => cases h
  | reportDeletion taskId clock => cases h
  | ingest channelId message => exact sameLedger_commitArchive.tasks
  | reconcileEdit channelId message expectedSnapshotVersion => exact sameLedger_commitArchive.tasks
  | changeArchive archive =>
      simp only [step]
      split <;> rfl
  | changeSettings settings => rfl
  | _ => exact sameLedger_commit.tasks

variable (parser) in
/-- A claim adds open tasks for the films it takes that are not too old. -/
theorem Sound.tasks_claim (hw : w.Sound) (limit : ℤ) (locked : ℕ → Bool) (clock : Clock) :
    ∃ added : List DeletionTask,
      (World.step parser w (.claimDueDeletions limit locked clock)).tasks.rows =
        w.tasks.rows ++ added ∧
      added.map DeletionTask.item = ((w.db.dueDeletions limit clock.utcnow locked).filter
        fun d => !d.isTooOld clock.utcnow).map Delivery.dueDeletion ∧
      ∀ task ∈ added, (task.answer = none ∧ task.reported = false) ∧
        w.tasks.find? task.id = none := by
  obtain ⟨db, h⟩ := hw.claimDueDeletions_eq limit locked clock
  obtain ⟨added, hrows, hitems, hnew⟩ := exists_addTasks (((w.db.dueDeletions limit clock.utcnow
    locked).filter fun d => !d.isTooOld clock.utcnow).map Delivery.dueDeletion) w.tasks
  refine ⟨added, ?_, hitems, fun task htask => ⟨(hnew task htask).1, ?_⟩⟩
  · rw [World.step, h]
    exact hrows
  · refine KeyedTable.find?_eq_none.2 fun task' htask' hid => ?_
    exact absurd (KeyedTable.lt_freshKey htask') (by have hkey := (hnew task htask).2; omega)

omit [UnicodeData] in
/-- After a report about it a delivery is not being deleted. -/
theorem status_reportDelivery_ne (answer : DeleteAnswer) (clock : Clock) (d : Delivery) :
    (reportDelivery answer clock d).status ≠ .deleting := by
  by_cases h : d.status = .deleting
  · unfold reportDelivery Delivery.whenDeleting
    simp only [h, if_true]
    split <;> exact fun h => by cases h
  · rwa [reportDelivery_of_not_deleting h]

/-- A delivery that is being deleted after an event was being deleted before, and has not been
reported on, or the event has claimed it. -/
theorem Sound.deleting_origin (hw : w.Sound) {event : Event} {d' : Delivery}
    (hd' : d' ∈ (World.step parser w event).db.deliveries) (hdeleting : d'.status = .deleting) :
    (d' ∈ w.db.deliveries ∧ ∀ taskId clock task, event = .reportDeletion taskId clock →
      w.tasks.find? taskId = some task → w.isAnswered taskId → task.item.deliveryId ≠ d'.id) ∨
    ∃ d limit locked clock, event = .claimDueDeletions limit locked clock ∧
      d ∈ w.db.dueDeletions limit clock.utcnow locked ∧ d.isTooOld clock.utcnow = false ∧
      d.id = d'.id := by
  have hfind' := KeyedTable.find?_of_mem hd'
  cases hfind : w.db.deliveries.find? d'.id with
  | none =>
      obtain ⟨-, -, -, -, hsending, -⟩ := hw.delivery_origin hfind' hfind
      cases hsending.symm.trans hdeleting
  | some d =>
      obtain ⟨hd, hid⟩ := KeyedTable.find?_eq_some.1 hfind
      have hafter := hw.find?_deliveries_step parser event hfind
      obtain rfl := Option.some.inj (hfind'.symm.trans hafter)
      by_cases hclaims : w.Claims d event
      · obtain ⟨limit, locked, clock, rfl, hdue⟩ := hclaims
        refine .inr ⟨d, limit, locked, clock, rfl, hdue, ?_, hid⟩
        simp only [deliveryAfter, List.mem_map_of_mem hdue, if_true, Delivery.claimDeletion]
          at hdeleting
        cases hold : d.isTooOld clock.utcnow with
        | false => rfl
        | true => simp [hold] at hdeleting
      · left
        -- a report on the row would have ended its deletion
        have hreported : ∀ taskId clock task, event = .reportDeletion taskId clock →
            w.tasks.find? taskId = some task → w.isAnswered taskId →
              task.item.deliveryId ≠ d.id := by
          rintro taskId clock task rfl htask hanswered heq
          simp only [isAnswered, htask, Option.any_some, Bool.and_eq_true, Bool.not_eq_true']
            at hanswered
          obtain ⟨answer, hanswer⟩ := Option.isSome_iff_exists.1 hanswered.1
          simp only [deliveryAfter, htask, hanswer, hanswered.2, heq, if_true] at hdeleting
          exact status_reportDelivery_ne answer clock d hdeleting
        have hstep : DeliveryStep w event d (w.deliveryAfter event d) := deliveryStep hd
        rw [hid] at hreported
        generalize w.deliveryAfter event d = d' at *
        cases hstep with
        | idle => exact ⟨hd, hreported⟩
        | deletionClaimed limit locked clock he hdue =>
            exact absurd ⟨limit, locked, clock, he, hdue⟩ hclaims
        | reported taskId clock task answer he ht ha hopen hid hold =>
            exact absurd hdeleting (status_reportDelivery_ne answer clock d)
        | _ => cases hdeleting

variable (parser) in
/-- An open task stays open until it is reported. -/
theorem Sound.open_step (hw : w.Sound) {task : DeletionTask} (htask : task ∈ w.tasks)
    (hopen : task.reported = false) (event : Event) :
    (∃ task' ∈ (World.step parser w event).tasks, task'.id = task.id ∧ task'.item = task.item ∧
      task'.reported = false) ∨
    (∃ clock, event = .reportDeletion task.id clock) ∧ w.isAnswered task.id := by
  cases hevent : event.isDeletion with
  | false =>
      rw [tasks_of_not_isDeletion hevent]
      exact .inl ⟨task, htask, rfl, rfl, hopen⟩
  | true =>
      cases event with
      | claimDueDeletions limit locked clock =>
          refine .inl ⟨task, ?_, rfl, rfl, hopen⟩
          obtain ⟨added, hrows, -⟩ := hw.tasks_claim parser limit locked clock
          rw [← KeyedTable.mem_rows, hrows]
          exact List.mem_append_left _ htask
      | deleteMessage taskId answer =>
          obtain ⟨task', hmem, hid, hitem, hreported⟩ :=
            (mem_tasks_deleteMessage taskId answer).1 task htask
          exact .inl ⟨task', hmem, hid, hitem, hreported.trans hopen⟩
      | reportDeletion taskId clock =>
          cases hanswered : w.isAnswered taskId with
          | false =>
              rw [World.step, reportDeletion_of_not_isAnswered hanswered]
              exact .inl ⟨task, htask, rfl, rfl, hopen⟩
          | true =>
              by_cases hid : task.id = taskId
              · subst hid
                -- the report closes the task
                exact .inr ⟨⟨clock, rfl⟩, hanswered⟩
              · refine .inl ⟨task, ?_, rfl, rfl, hopen⟩
                rw [World.step, tasks_reportDeletion hanswered]
                exact KeyedTable.mem_modifyAt.2 (.inl ⟨htask, hid⟩)
      | _ => cases hevent

/-- An open task was open before and has not been reported, or the event has claimed it. -/
theorem Sound.open_origin (hw : w.Sound) {event : Event} {task' : DeletionTask}
    (htask' : task' ∈ (World.step parser w event).tasks) (hopen : task'.reported = false) :
    (∃ task ∈ w.tasks, task.id = task'.id ∧ task.item = task'.item ∧ task.reported = false ∧
      ∀ clock, event = .reportDeletion task.id clock → w.isAnswered task.id = false) ∨
    w.tasks.find? task'.id = none ∧ ∃ d limit locked clock,
      event = .claimDueDeletions limit locked clock ∧
        d ∈ w.db.dueDeletions limit clock.utcnow locked ∧ task'.item = d.dueDeletion := by
  cases hevent : event.isDeletion with
  | false =>
      rw [tasks_of_not_isDeletion hevent] at htask'
      refine .inl ⟨task', htask', rfl, rfl, hopen, ?_⟩
      rintro clock rfl
      cases hevent
  | true =>
      cases event with
      | claimDueDeletions limit locked clock =>
          obtain ⟨added, hrows, hitems, hnew⟩ := hw.tasks_claim parser limit locked clock
          rw [← KeyedTable.mem_rows, hrows] at htask'
          rcases List.mem_append.1 htask' with htask' | htask'
          · exact .inl ⟨task', htask', rfl, rfl, hopen, fun _ h => by cases h⟩
          · have hitem := List.mem_map_of_mem (f := DeletionTask.item) htask'
            rw [hitems] at hitem
            obtain ⟨d, hd, hitem⟩ := List.mem_map.1 hitem
            exact .inr ⟨(hnew task' htask').2, d, limit, locked, clock, rfl,
              (List.mem_filter.1 hd).1, hitem.symm⟩
      | deleteMessage taskId answer =>
          obtain ⟨task, hmem, hid, hitem, hreported⟩ :=
            (mem_tasks_deleteMessage taskId answer).2 task' htask'
          exact .inl ⟨task, hmem, hid.symm, hitem.symm, hreported.symm.trans hopen,
            fun _ h => by cases h⟩
      | reportDeletion taskId clock =>
          cases hanswered : w.isAnswered taskId with
          | false =>
              rw [World.step, reportDeletion_of_not_isAnswered hanswered] at htask'
              refine .inl ⟨task', htask', rfl, rfl, hopen, ?_⟩
              rintro clock' ⟨⟩
              exact hanswered
          | true =>
              rw [World.step, tasks_reportDeletion hanswered] at htask'
              rcases KeyedTable.mem_modifyAt.1 htask' with ⟨htask', hid⟩ | ⟨task, -, -, rfl⟩
              · refine .inl ⟨task', htask', rfl, rfl, hopen, ?_⟩
                rintro clock' ⟨⟩
                exact absurd rfl hid
              · -- the reported task is closed
                cases hopen
      | _ => cases hevent

/-- **Whatever is being deleted keeps an open task.** -/
theorem Sound.tasked_step (hw : w.Sound) (htasked : w.Tasked) (event : Event) :
    (World.step parser w event).Tasked := by
  intro d' hd' hdeleting
  rcases hw.deleting_origin hd' hdeleting with ⟨hd, hreported⟩ |
    ⟨d, limit, locked, clock, rfl, hdue, hyoung, hid⟩
  · obtain ⟨task, htask, hitem, hopen⟩ := htasked d' hd hdeleting
    rcases hw.open_step parser htask hopen event with ⟨task', htask', -, hitem', hopen'⟩ |
      ⟨⟨clock, rfl⟩, hanswered⟩
    · exact ⟨task', htask', hitem' ▸ hitem, hopen'⟩
    · exact absurd hitem
        (hreported task.id clock task rfl (KeyedTable.find?_of_mem htask) hanswered)
  · obtain ⟨added, hrows, hitems, hnew⟩ := hw.tasks_claim parser limit locked clock
    have hmem : d.dueDeletion ∈ added.map DeletionTask.item := by
      rw [hitems]
      exact List.mem_map_of_mem (List.mem_filter.2 ⟨hdue, by simp [hyoung]⟩)
    obtain ⟨task, htask, hitem⟩ := List.mem_map.1 hmem
    refine ⟨task, ?_, hitem ▸ hid, (hnew task htask).1.2⟩
    rw [← KeyedTable.mem_rows, hrows]
    exact List.mem_append_right _ htask

end Step

end World

end CineGate

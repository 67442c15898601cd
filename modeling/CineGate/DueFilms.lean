/-
**A due film is decided.**

The claims of the worker reach every due film.  From its claim on, one task in flight carries the
film, until the report of a final answer decides it: the film is marked as deleted, or its deletion
as failed.  A crash of the worker, a report that fails or a deletion that is put off costs other
films another round, and this one nothing.

* `WorkerWorld.leavesAlone` — an event does not come between the worker and the film;
* `WorkerWorld.Deciding` — the film is decided, or a task carries it;
* `WorkerWorld.due_film_is_decided` — a worker with enough rounds decides a due film.
-/

import CineGate.DeletionWorker

set_option relaxedAutoImplicit false
set_option autoImplicit false

namespace CineGate

/-- The task is about the delivery. -/
def World.isAbout (w : World) (deliveryId taskId : ℕ) : Bool :=
  (w.tasks.find? taskId).any fun task => task.item.deliveryId = deliveryId

namespace WorkerWorld

/-- The event does not come between the worker and the film: Telegram answers for good, the task of
the film is neither lost in a crash nor fails to report, no late copy of the film is completed, and
nobody but the worker recovers stale claims. -/
def leavesAlone (w : WorkerWorld) (deliveryId : ℕ) : WorkerEvent → Bool
  | .answer taskId answer => !w.system.isAbout deliveryId taskId || answer.isFinal
  | .fail taskId => !w.system.isAbout deliveryId taskId
  | .crash => w.inFlight.all fun taskId => !w.system.isAbout deliveryId taskId
  | .system event => !event.isRecovery && !w.system.completes deliveryId event
  | _ => true

/-- The task is in flight for the delivery, and Telegram has not put it off. -/
structure Carries (w : WorkerWorld) (deliveryId : ℕ) (task : DeletionTask) : Prop where
  inFlight : task.id ∈ w.inFlight
  item : task.item.deliveryId = deliveryId
  final : ∀ answer ∈ task.answer, answer.isFinal

/-- The film still names its message, and is decided or being deleted by a task that carries it. -/
def Deciding (w : WorkerWorld) (d : Delivery) : Prop :=
  ∃ d' ∈ w.system.db.deliveries, d'.id = d.id ∧ d'.telegramMessageId = d.telegramMessageId ∧
    (d'.isDecided ∨ d'.status = .deleting ∧ ∃ task ∈ w.system.tasks, w.Carries d.id task)

variable [UnicodeData] {parser : ArchiveParser} {w : WorkerWorld} {d : Delivery}

section Deciding

omit [UnicodeData] in
theorem isAbout_of_mem {task : DeletionTask} (htask : task ∈ w.system.tasks) :
    w.system.isAbout task.item.deliveryId task.id := by
  simp [World.isAbout, KeyedTable.find?_of_mem htask]

omit [UnicodeData] in
theorem completes_of_isRecovery {deliveryId : ℕ} {event : Event} (h : event.isRecovery) :
    w.system.completes deliveryId event = false := by
  cases event with
  | complete attemptId clock => cases h
  | _ => rfl

variable (parser) in
/-- An event that reports nothing leaves a film that is decided or carried. -/
theorem Deciding.of_emitted (hw : w.Attended) {w' : WorkerWorld} (emitted : Option Event)
    (hsystem : w'.system = (emitted.map (World.step parser w.system)).getD w.system)
    (hcompletes : ∀ e ∈ emitted, w.system.completes d.id e = false)
    (hrecovers : ∀ e ∈ emitted, e.isRecovery → w.inFlight = [])
    (hreports : ∀ e ∈ emitted, ∀ taskId clock, e ≠ .reportDeletion taskId clock)
    (hcarries : ∀ task ∈ w.system.tasks, w.Carries d.id task →
      ∃ task' ∈ w'.system.tasks, w'.Carries d.id task')
    (h : w.Deciding d) : w'.Deciding d := by
  obtain ⟨d', hd', hid, hmessage, hstatus⟩ := h
  have hmem : d' ∈ w'.system.db.deliveries := by
    rw [hsystem]
    cases emitted with
    | none => exact hd'
    | some e =>
        have hfind := hw.sound.find?_deliveries_step parser e (KeyedTable.find?_of_mem hd')
        rcases hw.sound.deliveryAfter_underway e hd' (hstatus.symm.imp_left And.left)
          (hid ▸ hcompletes e rfl) with hkept | ⟨hdeleting, ⟨staleSeconds, clock, rfl⟩ |
            ⟨taskId, clock, rfl⟩⟩
        · rw [hkept] at hfind
          exact KeyedTable.mem_of_find? hfind
        · -- stale deletions are recovered when nothing is in flight
          rcases hstatus with hdecided | ⟨-, task, -, hcarries⟩
          · simp [Delivery.isDecided, hdeleting] at hdecided
          · have hinFlight := hcarries.inFlight
            rw [hrecovers _ rfl rfl] at hinFlight
            cases hinFlight
        · exact absurd rfl (hreports _ rfl taskId clock)
  refine ⟨d', hmem, hid, hmessage, hstatus.imp_right ?_⟩
  rintro ⟨hdeleting, task, htask, hcarried⟩
  exact ⟨hdeleting, hcarries task htask hcarried⟩

/-- A report decides the film it is about, and leaves the others. -/
theorem Deciding.of_reported (hw : w.Attended) {w' : WorkerWorld} {taskId : ℕ} {clock : Clock}
    (hmem : taskId ∈ w.inFlight) (hanswered : w.system.isAnswered taskId)
    (hsystem : w'.system = World.step parser w.system (.reportDeletion taskId clock))
    (hflight : w'.inFlight.Perm (w.inFlight.erase taskId)) (h : w.Deciding d) : w'.Deciding d := by
  obtain ⟨d', hd', hid, hmessage, hstatus⟩ := h
  have hfind := hw.sound.find?_deliveries_step parser (.reportDeletion taskId clock)
    (KeyedTable.find?_of_mem hd')
  rw [← hsystem] at hfind
  rcases hstatus with hdecided | ⟨hdeleting, task, htask, hcarries⟩
  · rcases hw.sound.deliveryAfter_underway (.reportDeletion taskId clock) hd'
      (.inr hdecided) rfl with hkept | ⟨hdeleting, -⟩
    · rw [hkept] at hfind
      exact ⟨d', KeyedTable.mem_of_find? hfind, hid, hmessage, .inl hdecided⟩
    · simp [Delivery.isDecided, hdeleting] at hdecided
  · obtain ⟨open', hopen'⟩ := Option.any_eq_true _ _ |>.1 hanswered
    obtain ⟨htask', hopen⟩ := hopen'
    simp only [Bool.and_eq_true, Bool.not_eq_true'] at hopen
    obtain ⟨answer, hanswer⟩ := Option.isSome_iff_exists.1 hopen.1
    obtain ⟨hin, hkey⟩ := KeyedTable.find?_eq_some.1 htask'
    by_cases hsame : open' = task
    · subst hsame
      have hafter : w.system.deliveryAfter (.reportDeletion taskId clock) d' =
          World.reportDelivery answer clock d' := by
        simp [World.deliveryAfter, htask', hanswer, hopen.2, hcarries.item, hid]
      rw [hafter] at hfind
      obtain ⟨hdecided, hkeeps⟩ :=
        World.isDecided_reportDelivery (hcarries.final answer hanswer) clock hdeleting
      exact ⟨_, KeyedTable.mem_of_find? hfind, (World.id_reportDelivery answer clock d').trans hid,
        hkeeps.trans hmessage, .inl hdecided⟩
    · -- no two tasks in flight are about one delivery
      have hother : open'.item.deliveryId ≠ d'.id := by
        intro heq
        exact hsame (hw.distinct open' hin task htask (hkey ▸ hmem) hcarries.inFlight
          (heq.trans (hid.trans hcarries.item.symm)))
      have hafter : w.system.deliveryAfter (.reportDeletion taskId clock) d' = d' := by
        simp [World.deliveryAfter, htask', hanswer, hopen.2, hother.symm]
      rw [hafter] at hfind
      have hne : task.id ≠ taskId := by
        intro heq
        exact hsame (w.system.tasks.ext_key hin htask (hkey.trans heq.symm))
      refine ⟨d', KeyedTable.mem_of_find? hfind, hid, hmessage, .inr ⟨hdeleting, task, ?_, ?_⟩⟩
      · rw [hsystem, World.step, World.tasks_reportDeletion hanswered]
        exact KeyedTable.mem_modifyAt.2 (.inl ⟨htask, hne⟩)
      · exact ⟨hflight.mem_iff.2 ((hw.nodup.mem_erase_iff).2 ⟨hne, hcarries.inFlight⟩),
          hcarries.item, hcarries.final⟩

/-- **A film that is left alone does not fall back.** -/
theorem Deciding.step (hw : w.Attended) (h : w.Deciding d) {event : WorkerEvent}
    (halone : w.leavesAlone d.id event) : (w.step parser event).Deciding d := by
  have hmove : Move parser w (w.step parser event) event (w.emits event) := move w event
  generalize w.step parser event = w' at hmove ⊢
  generalize w.emits event = emitted at hmove
  cases hmove with
  | quiet event emitted hevent horigin hsystem hflight hdropped =>
      refine h.of_emitted parser hw emitted hsystem ?_ ?_ ?_ fun task htask hcarries =>
        ⟨task, ?_, ?_⟩
      · intro e he
        rcases horigin e he with rfl | ⟨hrecovery, -⟩
        · simp only [leavesAlone, Bool.and_eq_true, Bool.not_eq_true'] at halone
          exact halone.2
        · exact completes_of_isRecovery hrecovery
      · intro e he hrecovery
        rcases horigin e he with rfl | ⟨-, hidle⟩
        · simp [leavesAlone, hrecovery] at halone
        · exact hidle
      · rintro e he taskId clock rfl
        cases hevent _ he
      · rw [hsystem]
        cases emitted with
        | none => exact htask
        | some e =>
            rw [Option.map_some, Option.getD_some, World.tasks_of_not_isDeletion (hevent e rfl)]
            exact htask
      · exact ⟨hflight.mem_iff.2 hcarries.inFlight, hcarries.item, hcarries.final⟩
  | asked taskId answer hsystem hflight hdropped =>
      refine h.of_emitted parser hw (some (.deleteMessage taskId answer)) hsystem
        (by simp [World.completes]) (by simp [Event.isRecovery]) (by simp)
        fun task htask hcarries => ?_
      obtain ⟨task', htask', hid, hitem, -⟩ :=
        (World.mem_tasks_deleteMessage taskId answer).1 task htask
      refine ⟨task', hsystem ▸ htask', ⟨?_, hitem ▸ hcarries.item, ?_⟩⟩
      · rw [hflight, hid]
        exact hcarries.inFlight
      · rcases World.answer_deleteMessage htask' with hold | ⟨hasked, hanswer⟩
        · rw [w.system.tasks.ext_key hold htask hid]
          exact hcarries.final
        · have habout := isAbout_of_mem htask
          rw [hcarries.item, ← hid, hasked] at habout
          simp only [leavesAlone, habout, Bool.not_true, Bool.false_or] at halone
          rw [hanswer]
          rintro _ ⟨⟩
          exact halone
  | claimed locked clock loopTime hidle hsystem hflight hdropped =>
      refine h.of_emitted parser hw
        (some (.claimDueDeletions w.settings.boundedBatchSize locked clock)) hsystem
        (by simp [World.completes]) (by simp [Event.isRecovery]) (by simp)
        fun task htask hcarries => ?_
      have hinFlight := hcarries.inFlight
      rw [hidle] at hinFlight
      cases hinFlight
  | reported taskId clock hmem hanswered hsystem hflight hdropped =>
      exact h.of_reported hw hmem hanswered hsystem hflight
  | failed taskId hsystem hflight hdropped =>
      refine h.of_emitted parser hw none hsystem (by simp) (by simp) (by simp)
        fun task htask hcarries => ⟨task, hsystem ▸ htask, ?_, hcarries.item, hcarries.final⟩
      rcases List.mem_cons.1 (hflight.mem_iff.1 hcarries.inFlight) with rfl | hmem
      · have habout := isAbout_of_mem htask
        rw [hcarries.item] at habout
        simp [leavesAlone, habout] at halone
      · exact hmem
  | crashed hsystem hflight hdropped =>
      refine h.of_emitted parser hw none hsystem (by simp) (by simp) (by simp)
        fun task htask hcarries => absurd (isAbout_of_mem htask) ?_
      simp only [leavesAlone, List.all_eq_true, Bool.not_eq_true'] at halone
      rw [hcarries.item, halone task.id hcarries.inFlight]
      exact Bool.false_ne_true

variable (parser) in
/-- A claim carries the film it takes, or gives it up as too old. -/
theorem deciding_of_claimed (hw : w.Attended) {event : WorkerEvent} {limit : ℤ} {locked : ℕ → Bool}
    {clock : Clock} (hemits : w.emits event = some (.claimDueDeletions limit locked clock))
    (hd : d ∈ w.system.db.dueDeletions limit clock.utcnow locked) :
    (w.step parser event).Deciding d := by
  have hmem := (Db.mem_dueDeletions hd).1
  have hmove : Move parser w (w.step parser event) event (w.emits event) := move w event
  rw [hemits] at hmove
  generalize w.step parser event = w' at hmove ⊢
  cases hmove with
  | quiet event emitted hevent horigin hsystem hflight hdropped => cases hevent _ rfl
  | claimed locked clock loopTime hidle hsystem hflight hdropped =>
      obtain ⟨added, hrows, hnew, hitems, hopen⟩ := newTasks_claim parser
        hw.sound w.settings.boundedBatchSize locked clock
      rw [← hsystem] at hrows hnew
      have hfind := hw.sound.find?_deliveries_step parser
        (.claimDueDeletions w.settings.boundedBatchSize locked clock) (KeyedTable.find?_of_mem hmem)
      rw [← hsystem] at hfind
      simp only [World.deliveryAfter, List.mem_map_of_mem hd, if_true] at hfind
      refine ⟨_, KeyedTable.mem_of_find? hfind, ?_⟩
      unfold Delivery.claimDeletion
      cases hold : d.isTooOld clock.utcnow with
      | true => exact ⟨rfl, rfl, .inl rfl⟩
      | false =>
          have hitem : d.dueDeletion ∈ added.map DeletionTask.item := by
            rw [hitems]
            exact List.mem_map_of_mem (List.mem_filter.2 ⟨hd, by simp [hold]⟩)
          obtain ⟨task, htask, hitem⟩ := List.mem_map.1 hitem
          refine ⟨rfl, rfl, .inr ⟨rfl, task, ?_, ?_, congrArg DueDeletion.deliveryId hitem, ?_⟩⟩
          · rw [← KeyedTable.mem_rows, hrows]
            exact List.mem_append_right _ htask
          · rw [hflight, hnew]
            exact List.mem_map_of_mem htask
          · simp [(hopen task htask).1]

end Deciding

section Runs

variable (parser) in
theorem system_after (w : WorkerWorld) (events : List WorkerEvent) :
    (w.after parser events).system = w.system.after parser (w.history parser events) := by
  induction events generalizing w with
  | nil => rfl
  | cons event events ih =>
      rw [after, Transition.run_cons, history, World.after, Transition.run_append]
      refine (ih _).trans ?_
      congr 1
      rw [step]
      cases w.emits event <;> rfl

theorem history_append (w : WorkerWorld) (events later : List WorkerEvent) :
    w.history parser (events ++ later) =
      w.history parser events ++ (w.after parser events).history parser later := by
  induction events generalizing w with
  | nil => rfl
  | cons event events ih =>
      rw [List.cons_append, history, history, ih, List.append_assoc]
      rfl

/-- An event of the system in a run is made by an event of the worker. -/
theorem exists_of_history {events : List WorkerEvent} {pre rest : List Event} {event : Event}
    (h : w.history parser events = pre ++ event :: rest) :
    ∃ earlier workerEvent later, events = earlier ++ workerEvent :: later ∧
      w.history parser earlier = pre ∧
        (w.after parser earlier).emits workerEvent = some event := by
  induction events generalizing w pre with
  | nil => exact absurd h.symm (List.append_ne_nil_of_right_ne_nil _ (List.cons_ne_nil _ _))
  | cons workerEvent events ih =>
      rw [history] at h
      cases hemits : w.emits workerEvent with
      | none =>
          rw [hemits, Option.toList_none, List.nil_append] at h
          obtain ⟨earlier, e, later, rfl, rfl, hlast⟩ := ih h
          refine ⟨workerEvent :: earlier, e, later, rfl, ?_, hlast⟩
          rw [history, hemits, Option.toList_none, List.nil_append]
      | some first =>
          rw [hemits, Option.toList_some, List.singleton_append] at h
          cases pre with
          | nil =>
              obtain ⟨rfl, -⟩ := List.cons.inj h
              exact ⟨[], workerEvent, events, rfl, rfl, hemits⟩
          | cons second pre =>
              obtain ⟨rfl, hrest⟩ := List.cons.inj h
              obtain ⟨earlier, e, later, rfl, rfl, hlast⟩ := ih hrest
              refine ⟨workerEvent :: earlier, e, later, rfl, ?_, hlast⟩
              rw [history, hemits, Option.toList_some, List.singleton_append]

theorem deciding_after (hw : w.Attended) (h : w.Deciding d) {events : List WorkerEvent}
    (halone : Transition.Along (step parser) (fun w event => w.leavesAlone d.id event) w events) :
    (w.after parser events).Deciding d :=
  (Transition.run_invariant_along (I := fun w : WorkerWorld => w.Attended ∧ w.Deciding d)
    (fun _ event h halone => ⟨h.1.step event, h.2.step h.1 halone⟩) ⟨hw, h⟩ halone).2

variable (parser) in
/-- **A due film is decided.**  Once a sent film is due, a run that leaves it alone and whose claims
take more films than were in front of it has decided it as soon as no deletion of it is in flight:
its message is marked as deleted, or its deletion as failed. -/
theorem due_film_is_decided (worker : WorkerSettings) (settings : Settings)
    (archive : ArchiveTables) (before later : List WorkerEvent) {d : Delivery} {t : Instant}
    (hmem : d ∈ ((initial worker settings archive).after parser before).system.db.deliveries)
    (hsent : d.status = .sent) (hdue : d.nextAttemptAt = some t)
    (hlater : ∀ event ∈
      ((initial worker settings archive).after parser before).history parser later,
        event.IsAfter t ∧ event.Sees d.id)
    (hshares :
      (((initial worker settings archive).after parser before).system.rowsAhead d).length <
        ((((initial worker settings archive).after parser before).history parser later).map
          Event.claimShare).sum)
    (halone : Transition.Along (step parser) (fun w event => w.leavesAlone d.id event)
      ((initial worker settings archive).after parser before) later)
    (hidle : ∀ taskId ∈ ((initial worker settings archive).after parser (before ++ later)).inFlight,
      ((initial worker settings archive).after parser (before ++ later)).system.isAbout d.id
        taskId = false) :
    ∃ d' ∈ ((initial worker settings archive).after parser
        (before ++ later)).system.db.deliveries,
      d'.id = d.id ∧ d'.telegramMessageId = d.telegramMessageId ∧
        (d'.status = .deleted ∨ d'.status = .deleteFailed) := by
  rw [system_after] at hmem hshares
  obtain ⟨pre, limit, locked, clock, rest, hsplit, hclaimed⟩ :=
    World.due_deletion_never_starves parser settings archive _ _ hmem hsent hdue hlater hshares
  -- the claim that takes the film is an event of the worker
  obtain ⟨earlier, event, later, rfl, rfl, hemits⟩ := exists_of_history hsplit
  rw [← history_append] at hclaimed
  have hattended : ((initial worker settings archive).after parser (before ++ earlier)).Attended :=
    attended_after worker settings archive _
  have hsystem := system_after parser (initial worker settings archive) (before ++ earlier)
  rw [after, Transition.run_append] at hattended hsystem
  have hdeciding := deciding_of_claimed parser hattended hemits (hsystem ▸ hclaimed)
  have halone := (Transition.along_append.1 halone).2.2
  have hrun : ((initial worker settings archive).after parser
      (before ++ (earlier ++ event :: later))).Deciding d := by
    rw [after, Transition.run_append, Transition.run_append, Transition.run_cons]
    exact deciding_after (hattended.step event) hdeciding halone
  obtain ⟨d', hd', hid, hmessage, hstatus⟩ := hrun
  refine ⟨d', hd', hid, hmessage, ?_⟩
  rcases hstatus with hdecided | ⟨-, task, htask, hcarries⟩
  · simpa [Delivery.isDecided] using hdecided
  · -- a task that carries the film would be in flight
    have habout := hidle task.id hcarries.inFlight
    rw [← hcarries.item, isAbout_of_mem htask] at habout
    cases habout

end Runs

end WorkerWorld

namespace WorkerWorld

section Witness

attribute [local instance] UnicodeData.asciiArabic

/-- The films of `threeFilms` are sent, and the worker crashes with the first one in flight. -/
def crashedOnce : List WorkerEvent :=
  World.threeFilms.map .system ++
    [.poll false 0, .transact (World.atSecond 192) (fun _ => false) 0,
      .transact (World.atSecond 192) (fun _ => false) 0,
      .transact (World.atSecond 193) (fun _ => false) 0, .acquire, .crash]

/-- The first film is recovered, the second one is put off, the last one is deleted, and the worker
crashes again with the first one in flight. -/
def crashedAgain : List WorkerEvent :=
  [.poll false 600, .transact (World.atSecond 600) (fun _ => false) 600,
    .transact (World.atSecond 600) (fun _ => false) 600,
    .transact (World.atSecond 601) (fun _ => false) 601, .acquire,
    .answer 2 World.deletionTimeout, .report 2 (World.atSecond 602), .poll false 610,
    .transact (World.atSecond 610) (fun _ => false) 610, .acquire, .answer 3 .deleted,
    .report 3 (World.atSecond 611), .poll false 612,
    .transact (World.atSecond 612) (fun _ => false) 612, .acquire, .crash]

/-- One film at a time. -/
def oneAtATime : WorkerSettings where
  batchSize := 1

theorem due_film_is_decided_deleted :
    ∃ d ∈ ((initial oneAtATime {} World.oneFile).after {}
        (crashedOnce ++ crashedAgain)).system.db.deliveries,
      d.id = 3 ∧ d.telegramMessageId = some 903 ∧
        (d.status = .deleted ∨ d.status = .deleteFailed) :=
  due_film_is_decided {} oneAtATime {} World.oneFile crashedOnce crashedAgain
    (t := seconds 191) (KeyedTable.mem_of_find? (r := World.lastDelivery) (k := 3)
      (by decide +kernel)) rfl rfl (by decide +kernel) (by decide +kernel) (by decide +kernel)
    (by decide +kernel)

end Witness

end WorkerWorld
end CineGate

/-
**The deletion worker.**

`workers/deletion.py`.  The worker recovers stale claims from time to time, claims a batch of due
deletions, and asks Telegram for all of them at once, a bounded number at a time; it comes back to
the head of its loop when every deletion of the batch has been reported or has failed.  A deletion
fails without a report when the database is away, and a crash drops all that is in flight; what was
dropped is left to the next stale recovery.

The application runs one worker.  Everything else it does goes on between any two steps of it.

* `WorkerWorld`, `WorkerEvent`, `WorkerWorld.step` — the worker among the other components;
* `WorkerWorld.Move` — what an event of the worker does to the tasks in flight;
* `WorkerWorld.Attended` — every open task is in flight or was dropped;
* `WorkerWorld.worker_settles_its_batch` — nothing is being deleted but what is in flight or was
  dropped.
-/

import CineGate.DeletionTasks

set_option relaxedAutoImplicit false
set_option autoImplicit false

namespace CineGate

/-- The parameters of `DeliveryDeletionWorker`. -/
structure WorkerSettings where
  recoverySeconds : Rat := 60
  batchSize : ℤ := 50
  concurrency : ℤ := 10
  recoverySeconds_pos : 0 < recoverySeconds := by decide

namespace WorkerSettings

/-- `self._batch_size`. -/
def boundedBatchSize (s : WorkerSettings) : ℤ := max 1 (min 100 s.batchSize)

/-- `self._concurrency`. -/
def boundedConcurrency (s : WorkerSettings) : ℕ := (max 1 (min 25 s.concurrency)).toNat

end WorkerSettings

/-- Where the loop stands: at its head, before a transaction, or in `gather`, with the tasks that
wait for the semaphore and those that have it. -/
inductive WorkerPhase
  | polling
  | recoveringSends
  | recoveringDeletions
  | claiming
  | deleting (waiting underway : List ℕ)
  | stopped
deriving DecidableEq, Repr

/-- The system with its worker.  `dropped` has the tasks that ended without a report. -/
structure WorkerWorld where
  system : World
  settings : WorkerSettings
  nextRecoveryAt : Rat := 0
  phase : WorkerPhase := .polling
  dropped : List ℕ := []

inductive WorkerEvent
  | poll (stop : Bool) (loopTime : Rat)
  | transact (clock : Clock) (locked : ℕ → Bool) (loopTime : Rat)
  | databaseError
  | acquire
  | answer (taskId : ℕ) (answer : DeleteAnswer)
  | report (taskId : ℕ) (clock : Clock)
  | fail (taskId : ℕ)
  | crash
  | system (event : Event)

/-- Deletions end without a report. -/
def WorkerEvent.drops : WorkerEvent → Bool
  | .fail _ | .crash => true
  | _ => false

/-- The event recovers stale claims. -/
def Event.isRecovery : Event → Bool
  | .recoverStaleSends .. | .recoverStaleDeletions .. => true
  | _ => false

/-- The default of `stale_seconds`. -/
def staleSeconds : ℤ := 300

namespace WorkerWorld

/-- The tasks of the batch that have not come to their end. -/
def inFlight (w : WorkerWorld) : List ℕ :=
  match w.phase with
  | .deleting waiting underway => waiting ++ underway
  | _ => []

/-- The loop goes on. -/
def goTo (w : WorkerWorld) (phase : WorkerPhase) : WorkerWorld := { w with phase }

/-- `gather` returns when no task is left. -/
def gather (w : WorkerWorld) (waiting underway : List ℕ) : WorkerWorld :=
  w.goTo (if waiting = [] ∧ underway = [] then .polling else .deleting waiting underway)

variable [UnicodeData] (parser : ArchiveParser)

/-- The event of the system that an event of the worker makes. -/
def emits (w : WorkerWorld) : WorkerEvent → Option Event
  | .transact clock locked _ =>
      match w.phase with
      | .recoveringSends => some (.recoverStaleSends staleSeconds locked clock)
      | .recoveringDeletions => some (.recoverStaleDeletions staleSeconds clock)
      | .claiming => some (.claimDueDeletions w.settings.boundedBatchSize locked clock)
      | _ => none
  | .answer taskId answer =>
      match w.phase with
      | .deleting _ underway =>
          if taskId ∈ underway then some (.deleteMessage taskId answer) else none
      | _ => none
  | .report taskId clock =>
      match w.phase with
      | .deleting _ underway =>
          if taskId ∈ underway ∧ w.system.isAnswered taskId then some (.reportDeletion taskId clock)
          else none
      | _ => none
  | .system event => if event.isDeletion then none else some event
  | _ => none

/-- The tasks that are in `after` and not in `before`. -/
def newTasks (before after : World) : List ℕ :=
  (after.tasks.rows.map DeletionTask.id).filter fun taskId => (before.tasks.find? taskId).isNone

/-- Where an event takes the loop; `after` is the system after the event. -/
def advance (w : WorkerWorld) (after : World) : WorkerEvent → WorkerWorld
  | .poll stop loopTime =>
      match w.phase with
      | .polling =>
          if stop then w.goTo .stopped
          else if w.nextRecoveryAt ≤ loopTime then w.goTo .recoveringSends
          else w.goTo .claiming
      | _ => w
  | .transact _ _ loopTime =>
      match w.phase with
      | .recoveringSends => w.goTo .recoveringDeletions
      | .recoveringDeletions =>
          { w with nextRecoveryAt := loopTime + w.settings.recoverySeconds }.goTo .claiming
      | .claiming => w.gather (newTasks w.system after) []
      | _ => w
  | .databaseError =>
      match w.phase with
      | .recoveringSends | .recoveringDeletions | .claiming => w.goTo .polling
      | _ => w
  | .acquire =>
      match w.phase with
      | .deleting (taskId :: waiting) underway =>
          if underway.length < w.settings.boundedConcurrency then
            w.goTo (.deleting waiting (underway ++ [taskId]))
          else w
      | _ => w
  | .report taskId _ =>
      match w.phase with
      | .deleting waiting underway =>
          if taskId ∈ underway ∧ w.system.isAnswered taskId then
            w.gather waiting (underway.erase taskId)
          else w
      | _ => w
  | .fail taskId =>
      match w.phase with
      | .deleting waiting underway =>
          if taskId ∈ underway then
            { w with dropped := taskId :: w.dropped }.gather waiting (underway.erase taskId)
          else w
      | _ => w
  | .crash =>
      { w with nextRecoveryAt := 0, dropped := w.inFlight ++ w.dropped }.goTo .polling
  | .answer .. | .system _ => w

/-- One event. -/
def step (w : WorkerWorld) (event : WorkerEvent) : WorkerWorld :=
  let after := ((w.emits event).map (World.step parser w.system)).getD w.system
  { w.advance after event with system := after }

/-- The events of the system in a run. -/
def history (w : WorkerWorld) : List WorkerEvent → List Event
  | [] => []
  | event :: events => (w.emits event).toList ++ history (w.step parser event) events

/-- The worker starts with the application. -/
def initial (worker : WorkerSettings) (settings : Settings) (archive : ArchiveTables) :
    WorkerWorld where
  system := World.initial settings archive
  settings := worker

/-- The state after a run. -/
abbrev after (w : WorkerWorld) (events : List WorkerEvent) : WorkerWorld :=
  Transition.run (step parser) w events

/-! ### The moves of the loop -/

/-- What an event of the worker does: it leaves what is in flight, asks Telegram, claims a batch,
reports a task, or drops tasks. -/
inductive Move (w w' : WorkerWorld) : WorkerEvent → Option Event → Prop
  | quiet (event : WorkerEvent) (emitted : Option Event)
      (hevent : ∀ e ∈ emitted, e.isDeletion = false)
      (horigin : ∀ e ∈ emitted, event = .system e ∨ e.isRecovery ∧ w.inFlight = [])
      (hsystem : w'.system = (emitted.map (World.step parser w.system)).getD w.system)
      (hflight : w'.inFlight.Perm w.inFlight) (hdropped : w'.dropped = w.dropped) :
      Move w w' event emitted
  | asked (taskId : ℕ) (answer : DeleteAnswer)
      (hsystem : w'.system = World.step parser w.system (.deleteMessage taskId answer))
      (hflight : w'.inFlight = w.inFlight) (hdropped : w'.dropped = w.dropped) :
      Move w w' (.answer taskId answer) (some (.deleteMessage taskId answer))
  | claimed (locked : ℕ → Bool) (clock : Clock) (loopTime : Rat) (hidle : w.inFlight = [])
      (hsystem : w'.system =
        World.step parser w.system (.claimDueDeletions w.settings.boundedBatchSize locked clock))
      (hflight : w'.inFlight = newTasks w.system w'.system) (hdropped : w'.dropped = w.dropped) :
      Move w w' (.transact clock locked loopTime)
        (some (.claimDueDeletions w.settings.boundedBatchSize locked clock))
  | reported (taskId : ℕ) (clock : Clock) (hmem : taskId ∈ w.inFlight)
      (hanswered : w.system.isAnswered taskId)
      (hsystem : w'.system = World.step parser w.system (.reportDeletion taskId clock))
      (hflight : w'.inFlight.Perm (w.inFlight.erase taskId)) (hdropped : w'.dropped = w.dropped) :
      Move w w' (.report taskId clock) (some (.reportDeletion taskId clock))
  | failed (taskId : ℕ) (hsystem : w'.system = w.system)
      (hflight : w.inFlight.Perm (taskId :: w'.inFlight))
      (hdropped : w'.dropped = taskId :: w.dropped) : Move w w' (.fail taskId) none
  | crashed (hsystem : w'.system = w.system) (hflight : w'.inFlight = [])
      (hdropped : w'.dropped = w.inFlight ++ w.dropped) : Move w w' .crash none

section Moves

variable {parser} {w : WorkerWorld}

omit [UnicodeData] in
@[simp] theorem inFlight_gather (waiting underway : List ℕ) :
    (w.gather waiting underway).inFlight = waiting ++ underway := by
  unfold gather goTo inFlight
  split_ifs with h
  · simp [h.1, h.2]
  · rfl

omit [UnicodeData] in
/-- Writing to the system leaves the tasks in flight. -/
theorem inFlight_system (w : WorkerWorld) (system : World) :
    { w with system }.inFlight = w.inFlight := rfl

omit [UnicodeData] in
/-- A task under way that comes to its end. -/
theorem perm_erase {waiting underway : List ℕ} {taskId : ℕ} (h : taskId ∈ underway) :
    (taskId :: (waiting ++ underway.erase taskId)).Perm (waiting ++ underway) :=
  List.perm_middle.symm.trans ((List.perm_cons_erase h).symm.append_left waiting)

/-- **An event of the worker is one of its moves.** -/
theorem move (w : WorkerWorld) (event : WorkerEvent) :
    Move parser w (w.step parser event) event (w.emits event) := by
  -- most branches change neither the system nor what is in flight
  have quiet : ∀ {w' : WorkerWorld} {event : WorkerEvent}, w'.system = w.system →
      w'.inFlight.Perm w.inFlight → w'.dropped = w.dropped → Move parser w w' event none :=
    fun hsystem hflight hdropped => .quiet _ none (by simp) (by simp) hsystem hflight hdropped
  have recover : ∀ {w' : WorkerWorld} {event : WorkerEvent} {e : Event}, e.isDeletion = false →
      e.isRecovery → w.inFlight = [] → w'.system = World.step parser w.system e →
        w'.inFlight = [] → w'.dropped = w.dropped → Move parser w w' event (some e) :=
    fun hdeletion hrecovery hidle hsystem hflight hdropped =>
      .quiet _ _ (by simpa using hdeletion) (by simp [hrecovery, hidle]) hsystem
        (hflight.trans hidle.symm ▸ .refl _) hdropped
  cases event with
  | poll stop loopTime =>
      simp only [step, emits, advance, Option.map_none, Option.getD_none]
      split
      · next hphase =>
          refine quiet rfl ?_ ?_
          · rw [inFlight_system]
            split_ifs <;> simp [goTo, inFlight, hphase]
          · simp only [goTo]
            split_ifs <;> rfl
      · exact quiet rfl (.refl _) rfl
  | transact clock locked loopTime =>
      simp only [step, emits, advance]
      cases hphase : w.phase with
      | recoveringSends => exact recover rfl rfl (by simp [inFlight, hphase]) rfl rfl rfl
      | recoveringDeletions => exact recover rfl rfl (by simp [inFlight, hphase]) rfl rfl rfl
      | claiming =>
          refine .claimed locked clock loopTime (by simp [inFlight, hphase]) rfl ?_ rfl
          rw [inFlight_system, inFlight_gather, List.append_nil]
      | _ => exact quiet rfl (.refl _) rfl
  | databaseError =>
      simp only [step, emits, advance, Option.map_none, Option.getD_none]
      cases hphase : w.phase with
      | recoveringSends | recoveringDeletions | claiming =>
          exact quiet rfl (by simp [goTo, inFlight, hphase]) rfl
      | _ => exact quiet rfl (.refl _) rfl
  | acquire =>
      simp only [step, emits, advance, Option.map_none, Option.getD_none]
      split
      · next taskId waiting underway hphase =>
          refine quiet rfl ?_ ?_
          · rw [inFlight_system]
            split_ifs
            · simp only [goTo, inFlight, hphase]
              rw [← List.append_assoc]
              -- a task that gets the semaphore stays in flight
              exact List.perm_append_singleton taskId _
            · exact .refl _
          · split_ifs <;> rfl
      · exact quiet rfl (.refl _) rfl
  | answer taskId answer =>
      simp only [step, emits, advance]
      split
      · split_ifs
        · exact .asked taskId answer rfl rfl rfl
        · exact quiet rfl (.refl _) rfl
      · exact quiet rfl (.refl _) rfl
  | report taskId clock =>
      simp only [step, emits, advance]
      cases hphase : w.phase with
      | deleting waiting underway =>
          dsimp only
          split_ifs with h
          · have hmem : taskId ∈ w.inFlight := by simp [inFlight, hphase, h.1]
            refine .reported taskId clock hmem h.2 rfl ?_ rfl
            rw [inFlight_system, inFlight_gather]
            simp only [inFlight, hphase]
            exact (List.cons_perm_iff_perm_erase.1 (perm_erase h.1)).2
          · exact quiet rfl (.refl _) rfl
      | _ => exact quiet rfl (.refl _) rfl
  | fail taskId =>
      simp only [step, emits, advance, Option.map_none, Option.getD_none]
      split
      · next waiting underway hphase =>
          split_ifs with h
          · refine .failed taskId rfl ?_ rfl
            rw [inFlight_system (gather _ _ _), inFlight_gather]
            simp only [inFlight, hphase]
            exact (perm_erase h).symm
          · exact quiet rfl (.refl _) rfl
      · exact quiet rfl (.refl _) rfl
  | crash =>
      simp only [step, emits, advance, Option.map_none, Option.getD_none]
      exact .crashed rfl rfl rfl
  | system event =>
      simp only [step, emits, advance]
      split_ifs with h
      · exact quiet rfl (.refl _) rfl
      · exact .quiet _ (some event) (by simpa using h) (by simp) rfl (.refl _) rfl

end Moves

/-! ### How many at a time -/

/-- The tasks that have the semaphore. -/
def underway (w : WorkerWorld) : List ℕ :=
  match w.phase with
  | .deleting _ underway => underway
  | _ => []

/-- What every event keeps: the parameters of the worker, and that no more deletions are under way
than the semaphore lets in. -/
structure Keeps (w w' : WorkerWorld) : Prop where
  settings : w'.settings = w.settings
  throttled : w.underway.length ≤ w.settings.boundedConcurrency →
    w'.underway.length ≤ w.settings.boundedConcurrency

section Throttle

variable {parser} {w : WorkerWorld}

omit [UnicodeData] in
@[simp] theorem underway_gather (waiting underway : List ℕ) :
    (w.gather waiting underway).underway = underway := by
  unfold gather goTo WorkerWorld.underway
  split_ifs with h
  · exact h.2.symm
  · rfl

omit [UnicodeData] in
theorem Keeps.refl (w : WorkerWorld) : w.Keeps w := ⟨rfl, id⟩

omit [UnicodeData] in
/-- The loop goes where nothing is under way. -/
theorem keeps_goTo {phase : WorkerPhase} (h : (w.goTo phase).underway = []) :
    w.Keeps (w.goTo phase) where
  settings := rfl
  throttled _ := by
    rw [h]
    exact Nat.zero_le _

omit [UnicodeData] in
/-- A task that had the semaphore comes to its end. -/
theorem keeps_gather {waiting waiting' underway : List ℕ} {taskId : ℕ}
    (hphase : w.phase = .deleting waiting underway) :
    w.Keeps (w.gather waiting' (underway.erase taskId)) where
  settings := rfl
  throttled h := by
    simp only [WorkerWorld.underway, hphase] at h
    rw [underway_gather]
    exact List.length_erase_le.trans h

/-- Every event keeps the parameters, and lets no more deletions in than it may. -/
theorem keeps_step (w : WorkerWorld) (event : WorkerEvent) : w.Keeps (w.step parser event) := by
  have hsystem : ∀ {w' : WorkerWorld} {system : World}, w.Keeps w' → w.Keeps { w' with system } :=
    fun h => ⟨h.settings, h.throttled⟩
  refine hsystem ?_
  cases event with
  | poll stop loopTime =>
      simp only [advance]
      split
      · split_ifs <;> exact keeps_goTo rfl
      · exact .refl w
  | transact clock locked loopTime =>
      simp only [advance]
      split
      · exact keeps_goTo rfl
      · exact ⟨rfl, fun _ => Nat.zero_le _⟩
      · -- a new batch waits for the semaphore
        refine ⟨rfl, fun _ => ?_⟩
        rw [underway_gather]
        exact Nat.zero_le _
      · exact .refl w
  | databaseError =>
      simp only [advance]
      cases hphase : w.phase with
      | recoveringSends | recoveringDeletions | claiming => exact keeps_goTo rfl
      | _ => exact .refl w
  | acquire =>
      simp only [advance]
      split
      · split_ifs with hfree
        · refine ⟨rfl, fun _ => ?_⟩
          simpa [goTo, WorkerWorld.underway] using Nat.succ_le_of_lt hfree
        · exact .refl w
      · exact .refl w
  | report taskId clock =>
      simp only [advance]
      split
      · next waiting underway hphase =>
          split_ifs
          · exact keeps_gather hphase
          · exact .refl w
      · exact .refl w
  | fail taskId =>
      simp only [advance]
      split
      · next waiting underway hphase =>
          split_ifs
          · exact ⟨rfl, (keeps_gather hphase).throttled⟩
          · exact .refl w
      · exact .refl w
  | crash => exact ⟨rfl, fun _ => Nat.zero_le _⟩
  | answer taskId answer => exact .refl w
  | system event => exact .refl w

end Throttle

/-! ### What is in flight -/

/-- The open tasks are in flight or were dropped, and no two tasks in flight are about one
delivery. -/
structure Attended (w : WorkerWorld) : Prop where
  sound : w.system.Sound
  tasked : w.system.Tasked
  attended : ∀ task ∈ w.system.tasks, task.reported = false →
    task.id ∈ w.inFlight ∨ task.id ∈ w.dropped
  opened : ∀ taskId ∈ w.inFlight, ∃ task ∈ w.system.tasks, task.id = taskId ∧ task.reported = false
  nodup : w.inFlight.Nodup
  distinct : ∀ task ∈ w.system.tasks, ∀ task' ∈ w.system.tasks, task.id ∈ w.inFlight →
    task'.id ∈ w.inFlight → task.item.deliveryId = task'.item.deliveryId → task = task'
  size : w.inFlight.length ≤ w.settings.boundedBatchSize.toNat

section Attended

variable {parser} {w : WorkerWorld}

variable (parser) in
/-- The tasks a claim takes in flight. -/
theorem newTasks_claim {system : World} (hw : system.Sound) (limit : ℤ) (locked : ℕ → Bool)
    (clock : Clock) :
    ∃ added : List DeletionTask,
      (World.step parser system (.claimDueDeletions limit locked clock)).tasks.rows =
        system.tasks.rows ++ added ∧
      newTasks system (World.step parser system (.claimDueDeletions limit locked clock)) =
        added.map DeletionTask.id ∧
      added.map DeletionTask.item = ((system.db.dueDeletions limit clock.utcnow locked).filter
        fun d => !d.isTooOld clock.utcnow).map Delivery.dueDeletion ∧
      ∀ task ∈ added, task.answer = none ∧ task.reported = false := by
  obtain ⟨added, hrows, hitems, hnew⟩ := hw.tasks_claim parser limit locked clock
  refine ⟨added, hrows, ?_, hitems, fun task htask => (hnew task htask).1⟩
  have hold : (system.tasks.rows.map DeletionTask.id).filter
      (fun taskId => (system.tasks.find? taskId).isNone) = [] := by
    refine List.filter_eq_nil_iff.2 fun taskId hmem => ?_
    obtain ⟨task, htask, rfl⟩ := List.mem_map.1 hmem
    simp [KeyedTable.find?_of_mem htask]
  have hadded : (added.map DeletionTask.id).filter
      (fun taskId => (system.tasks.find? taskId).isNone) = added.map DeletionTask.id := by
    refine List.filter_eq_self.2 fun taskId hmem => ?_
    obtain ⟨task, htask, rfl⟩ := List.mem_map.1 hmem
    simp [(hnew task htask).2]
  rw [newTasks, hrows, List.map_append, List.filter_append, hold, hadded, List.nil_append]

omit [UnicodeData] in
/-- A claim takes no delivery twice, and no more of them than its limit. -/
theorem batch_of_claim {db : Db} {limit : ℤ} {locked : ℕ → Bool} {now : Instant}
    {added : List DeletionTask}
    (hitems : added.map DeletionTask.item = ((db.dueDeletions limit now locked).filter
      fun d => !d.isTooOld now).map Delivery.dueDeletion) :
    (added.map fun task => task.item.deliveryId).Nodup ∧
      added.length ≤ (max 1 (min 100 limit)).toNat := by
  constructor
  · have hids : (added.map fun task => task.item.deliveryId) =
        ((db.dueDeletions limit now locked).filter fun d => !d.isTooOld now).map Delivery.id := by
      have h := congrArg (List.map DueDeletion.deliveryId) hitems
      rw [List.map_map, List.map_map] at h
      exact h
    rw [hids]
    refine List.Nodup.sublist (List.filter_sublist.map _) ?_
    refine List.Nodup.sublist ((List.take_sublist _ _).map _) ?_
    rw [((List.perm_insertionSort dueLe _).map _).nodup_iff]
    refine List.Nodup.sublist (List.filter_sublist.map _) ?_
    exact List.pairwise_map.2 (db.deliveries.ordered.imp fun h => h.ne)
  · have hlength := congrArg List.length hitems
    rw [List.length_map, List.length_map] at hlength
    rw [hlength]
    exact (List.length_filter_le _ _).trans (List.length_take_le _ _)

omit [UnicodeData] in
/-- Tasks in flight that come from tasks in flight are about different deliveries. -/
theorem Attended.distinct_of_origin (hw : w.Attended) {w' : WorkerWorld}
    (horigin : ∀ task' ∈ w'.system.tasks, task'.id ∈ w'.inFlight →
      ∃ task ∈ w.system.tasks, task.id = task'.id ∧ task.item = task'.item ∧ task.id ∈ w.inFlight) :
    ∀ s ∈ w'.system.tasks, ∀ t ∈ w'.system.tasks, s.id ∈ w'.inFlight → t.id ∈ w'.inFlight →
      s.item.deliveryId = t.item.deliveryId → s = t := by
  intro s hs t ht hsf htf heq
  obtain ⟨s₀, hs₀, hsid, hsitem, hsf₀⟩ := horigin s hs hsf
  obtain ⟨t₀, ht₀, htid, htitem, htf₀⟩ := horigin t ht htf
  have h₀ := hw.distinct s₀ hs₀ t₀ ht₀ hsf₀ htf₀ (by rw [hsitem, htitem, heq])
  exact w'.system.tasks.ext_key hs ht (by rw [← hsid, ← htid, h₀])

omit [UnicodeData] in
/-- Tasks that keep their ids, their items and whether they have been reported. -/
theorem Attended.of_sameTasks (hw : w.Attended) {w' : WorkerWorld}
    (hsettings : w'.settings = w.settings) (hsound : w'.system.Sound) (htasked : w'.system.Tasked)
    (hforth : ∀ task ∈ w.system.tasks, ∃ task' ∈ w'.system.tasks, task'.id = task.id ∧
      task'.item = task.item ∧ task'.reported = task.reported)
    (hback : ∀ task' ∈ w'.system.tasks, ∃ task ∈ w.system.tasks, task'.id = task.id ∧
      task'.item = task.item ∧ task'.reported = task.reported)
    (hflight : w'.inFlight.Perm w.inFlight) (hdropped : w'.dropped = w.dropped) : w'.Attended where
  sound := hsound
  tasked := htasked
  attended task' htask' hopen := by
    obtain ⟨task, htask, hid, -, hreported⟩ := hback task' htask'
    rw [hid, hflight.mem_iff, hdropped]
    exact hw.attended task htask (hreported ▸ hopen)
  opened taskId hmem := by
    obtain ⟨task, htask, rfl, hopen⟩ := hw.opened taskId (hflight.mem_iff.1 hmem)
    obtain ⟨task', htask', hid, -, hreported⟩ := hforth task htask
    exact ⟨task', htask', hid, hreported.trans hopen⟩
  nodup := hflight.nodup_iff.2 hw.nodup
  distinct := hw.distinct_of_origin fun task' htask' hmem => by
    obtain ⟨task, htask, hid, hitem, -⟩ := hback task' htask'
    exact ⟨task, htask, hid.symm, hitem.symm, hid ▸ hflight.mem_iff.1 hmem⟩
  size := by
    rw [hflight.length_eq, hsettings]
    exact hw.size

/-- An event that leaves the tasks. -/
theorem Attended.of_quiet (hw : w.Attended) {w' : WorkerWorld} {emitted : Option Event}
    (hsettings : w'.settings = w.settings) (hevent : ∀ e ∈ emitted, e.isDeletion = false)
    (hsystem : w'.system = (emitted.map (World.step parser w.system)).getD w.system)
    (hflight : w'.inFlight.Perm w.inFlight) (hdropped : w'.dropped = w.dropped) : w'.Attended := by
  have hframe : w'.system.Sound ∧ w'.system.Tasked ∧ w'.system.tasks = w.system.tasks := by
    rw [hsystem]
    cases emitted with
    | none => exact ⟨hw.sound, hw.tasked, rfl⟩
    | some e =>
        exact ⟨hw.sound.step e, hw.sound.tasked_step hw.tasked e,
          World.tasks_of_not_isDeletion (hevent e rfl)⟩
  obtain ⟨hsound, htasked, htasks⟩ := hframe
  refine hw.of_sameTasks hsettings hsound htasked ?_ ?_ hflight hdropped
  · rw [htasks]
    exact fun t ht => ⟨t, ht, rfl, rfl, rfl⟩
  · rw [htasks]
    exact fun t ht => ⟨t, ht, rfl, rfl, rfl⟩

/-- Telegram answers. -/
theorem Attended.of_asked (hw : w.Attended) {w' : WorkerWorld} {taskId : ℕ} {answer : DeleteAnswer}
    (hsettings : w'.settings = w.settings)
    (hsystem : w'.system = World.step parser w.system (.deleteMessage taskId answer))
    (hflight : w'.inFlight = w.inFlight) (hdropped : w'.dropped = w.dropped) : w'.Attended := by
  refine hw.of_sameTasks hsettings (hsystem ▸ hw.sound.step _)
    (hsystem ▸ hw.sound.tasked_step hw.tasked _) ?_ ?_ (hflight ▸ .refl _) hdropped
  · rw [hsystem]
    exact (World.mem_tasks_deleteMessage _ _).1
  · rw [hsystem]
    exact (World.mem_tasks_deleteMessage _ _).2

/-- A batch is claimed when nothing is in flight. -/
theorem Attended.of_claimed (hw : w.Attended) {w' : WorkerWorld} {locked : ℕ → Bool} {clock : Clock}
    (hsettings : w'.settings = w.settings) (hidle : w.inFlight = [])
    (hsystem : w'.system =
      World.step parser w.system (.claimDueDeletions w.settings.boundedBatchSize locked clock))
    (hflight : w'.inFlight = newTasks w.system w'.system) (hdropped : w'.dropped = w.dropped) :
    w'.Attended := by
  obtain ⟨added, hrows, hnew, hitems, hopen⟩ := newTasks_claim parser
    hw.sound w.settings.boundedBatchSize locked clock
  obtain ⟨hdistinct, hsize⟩ := batch_of_claim hitems
  rw [← hsystem] at hrows hnew
  rw [hnew] at hflight
  have hmem : ∀ task ∈ added, task ∈ w'.system.tasks := by
    intro task htask
    rw [← KeyedTable.mem_rows, hrows]
    exact List.mem_append_right _ htask
  -- ids are never used twice, so what is in flight is new
  have hadded : ∀ task ∈ w'.system.tasks, task.id ∈ w'.inFlight → task ∈ added := by
    intro task htask hinFlight
    rw [hflight] at hinFlight
    obtain ⟨task', htask', hid⟩ := List.mem_map.1 hinFlight
    exact w'.system.tasks.ext_key (hmem task' htask') htask hid ▸ htask'
  exact {
    sound := hsystem ▸ hw.sound.step _
    tasked := hsystem ▸ hw.sound.tasked_step hw.tasked _
    attended := by
      intro task htask hopen
      rw [← KeyedTable.mem_rows, hrows] at htask
      rcases List.mem_append.1 htask with htask | htask
      · -- nothing was in flight before the claim
        have hold := hw.attended task htask hopen
        rw [hidle] at hold
        exact .inr (hdropped ▸ hold.resolve_left List.not_mem_nil)
      · exact .inl (hflight ▸ List.mem_map_of_mem htask)
    opened := by
      intro taskId hinFlight
      rw [hflight] at hinFlight
      obtain ⟨task, htask, rfl⟩ := List.mem_map.1 hinFlight
      exact ⟨task, hmem task htask, rfl, (hopen task htask).2⟩
    nodup := by
      have hnodup := List.pairwise_map.2 (w'.system.tasks.ordered.imp fun h => h.ne)
      rw [hrows, List.map_append] at hnodup
      rw [hflight]
      exact (List.nodup_append.1 hnodup).2.1
    distinct := fun s hs t ht hsf htf heq =>
      List.inj_on_of_nodup_map hdistinct (hadded s hs hsf) (hadded t ht htf) heq
    size := by
      rw [hflight, hsettings, List.length_map]
      refine hsize.trans ?_
      unfold WorkerSettings.boundedBatchSize
      omega }

/-- A task is reported. -/
theorem Attended.of_reported (hw : w.Attended) {w' : WorkerWorld} {taskId : ℕ} {clock : Clock}
    (hsettings : w'.settings = w.settings) (hanswered : w.system.isAnswered taskId)
    (hsystem : w'.system = World.step parser w.system (.reportDeletion taskId clock))
    (hflight : w'.inFlight.Perm (w.inFlight.erase taskId)) (hdropped : w'.dropped = w.dropped) :
    w'.Attended := by
  have hback : ∀ task' ∈ w'.system.tasks, task'.reported = false →
      ∃ task ∈ w.system.tasks, task.id = task'.id ∧ task.item = task'.item ∧
        task.reported = false ∧ task.id ≠ taskId := by
    intro task' htask' hopen
    rw [hsystem] at htask'
    rcases hw.sound.open_origin htask' hopen with ⟨task, htask, hid, hitem, hopen, hnot⟩ |
      ⟨-, d, limit, locked, clock, heq, -⟩
    · refine ⟨task, htask, hid, hitem, hopen, ?_⟩
      rintro rfl
      rw [hnot clock rfl] at hanswered
      cases hanswered
    · cases heq
  -- the reported task alone leaves the batch
  have herase : ∀ id, id ∈ w'.inFlight ↔ id ≠ taskId ∧ id ∈ w.inFlight := fun id =>
    hflight.mem_iff.trans (hw.nodup.mem_erase_iff)
  have hopened : ∀ id ∈ w'.inFlight, ∃ task ∈ w'.system.tasks, task.id = id ∧
      task.reported = false := by
    intro id hid
    obtain ⟨hne, hid⟩ := (herase id).1 hid
    obtain ⟨task, htask, rfl, hopen⟩ := hw.opened id hid
    rcases hw.sound.open_step parser htask hopen (.reportDeletion taskId clock) with
      ⟨task', htask', hid', -, hopen'⟩ | ⟨⟨clock', heq⟩, -⟩
    · exact ⟨task', hsystem ▸ htask', hid', hopen'⟩
    · cases heq
      exact absurd rfl hne
  exact {
    sound := hsystem ▸ hw.sound.step _
    tasked := hsystem ▸ hw.sound.tasked_step hw.tasked _
    attended := by
      intro task' htask' hopen
      obtain ⟨task, htask, hid, -, hopen, hne⟩ := hback task' htask' hopen
      rw [hdropped, ← hid]
      exact (hw.attended task htask hopen).imp_left fun h => (herase _).2 ⟨hne, h⟩
    opened := hopened
    nodup := hflight.nodup_iff.2 (hw.nodup.erase _)
    distinct := hw.distinct_of_origin fun task' htask' hmem => by
      obtain ⟨open', hin, hid, hopen⟩ := hopened task'.id hmem
      obtain rfl := w'.system.tasks.ext_key hin htask' hid
      obtain ⟨task, htask, hid, hitem, -, -⟩ := hback _ htask' hopen
      exact ⟨task, htask, hid, hitem, hid ▸ ((herase _).1 hmem).2⟩
    size := by
      rw [hflight.length_eq, hsettings]
      exact (List.length_erase_le).trans hw.size }

omit [UnicodeData] in
/-- Tasks end without a report. -/
theorem Attended.of_dropped (hw : w.Attended) {w' : WorkerWorld} (taskIds : List ℕ)
    (hsettings : w'.settings = w.settings) (hsystem : w'.system = w.system)
    (hflight : w.inFlight.Perm (taskIds ++ w'.inFlight))
    (hdropped : w'.dropped = taskIds ++ w.dropped) : w'.Attended := by
  have hmem : ∀ id ∈ w'.inFlight, id ∈ w.inFlight := fun id h =>
    hflight.mem_iff.2 (List.mem_append_right _ h)
  exact {
    sound := hsystem ▸ hw.sound
    tasked := hsystem ▸ hw.tasked
    attended := by
      intro task htask hopen
      rw [hsystem] at htask
      have hold := hw.attended task htask hopen
      rw [hflight.mem_iff, List.mem_append] at hold
      rw [hdropped, List.mem_append]
      tauto
    opened := fun id h => hsystem ▸ hw.opened id (hmem id h)
    nodup := (List.nodup_append.1 (hflight.nodup_iff.1 hw.nodup)).2.1
    distinct := fun s hs t ht hsf htf heq =>
      hw.distinct s (hsystem ▸ hs) t (hsystem ▸ ht) (hmem _ hsf) (hmem _ htf) heq
    size := by
      have hlength := hflight.length_eq
      have hsize := hw.size
      rw [List.length_append] at hlength
      rw [hsettings]
      omega }

/-- **The worker attends to its tasks.** -/
theorem Attended.step (hw : w.Attended) (event : WorkerEvent) : (w.step parser event).Attended := by
  have hsettings : (w.step parser event).settings = w.settings := (keeps_step w event).settings
  have hmove : Move parser w (w.step parser event) event (w.emits event) := move w event
  generalize w.step parser event = w' at hsettings hmove ⊢
  generalize w.emits event = emitted at hmove
  cases hmove with
  | quiet event emitted hevent horigin hsystem hflight hdropped =>
      exact hw.of_quiet hsettings hevent hsystem hflight hdropped
  | asked taskId answer hsystem hflight hdropped =>
      exact hw.of_asked hsettings hsystem hflight hdropped
  | claimed locked clock loopTime hidle hsystem hflight hdropped =>
      exact hw.of_claimed hsettings hidle hsystem hflight hdropped
  | reported taskId clock hmem hanswered hsystem hflight hdropped =>
      exact hw.of_reported hsettings hanswered hsystem hflight hdropped
  | failed taskId hsystem hflight hdropped =>
      exact hw.of_dropped [taskId] hsettings hsystem hflight hdropped
  | crashed hsystem hflight hdropped =>
      refine hw.of_dropped w.inFlight hsettings hsystem ?_ hdropped
      rw [hflight, List.append_nil]

theorem attended_after (worker : WorkerSettings) (settings : Settings) (archive : ArchiveTables)
    (events : List WorkerEvent) :
    ((initial worker settings archive).after parser events).Attended :=
  Transition.run_invariant (fun _ event hw => hw.step event)
    { sound := World.initial_sound settings archive
      tasked := fun _ h => by cases h
      attended := fun _ h => by cases h
      opened := fun _ h => by cases h
      nodup := List.nodup_nil
      distinct := fun _ h => by cases h
      size := Nat.zero_le _ } events

end Attended

/-! ### What the worker promises -/

section Promises

variable {parser} {w : WorkerWorld}

theorem dropped_step {event : WorkerEvent} (h : event.drops = false) :
    (w.step parser event).dropped = w.dropped := by
  have hmove : Move parser w (w.step parser event) event (w.emits event) := move w event
  generalize w.emits event = emitted at hmove
  cases hmove with
  | failed taskId hsystem hflight hdropped => cases h
  | crashed hsystem hflight hdropped => cases h
  | _ => assumption

theorem dropped_after {events : List WorkerEvent} (h : ∀ event ∈ events, event.drops = false) :
    (w.after parser events).dropped = w.dropped := by
  induction events generalizing w with
  | nil => rfl
  | cons event events ih =>
      rw [after, Transition.run_cons]
      exact (ih fun e he => h e (List.mem_cons_of_mem _ he)).trans
        (dropped_step (h event List.mem_cons_self))

variable (parser)

/-- **The worker settles its batch.**  It asks for no more deletions at a time than it may, and
never for two of one delivery.  Whatever is being deleted has an open task that is in flight or was
dropped; so when nothing was dropped and nothing is in flight, nothing is being deleted. -/
theorem worker_settles_its_batch (worker : WorkerSettings) (settings : Settings)
    (archive : ArchiveTables) (events : List WorkerEvent) :
    (((initial worker settings archive).after parser events).underway.length ≤
        worker.boundedConcurrency ∧
      ((initial worker settings archive).after parser events).inFlight.length ≤
        worker.boundedBatchSize.toNat) ∧
    (∀ s ∈ ((initial worker settings archive).after parser events).system.tasks,
      ∀ t ∈ ((initial worker settings archive).after parser events).system.tasks,
        s.id ∈ ((initial worker settings archive).after parser events).inFlight →
        t.id ∈ ((initial worker settings archive).after parser events).inFlight →
          s.item.deliveryId = t.item.deliveryId → s = t) ∧
    (∀ d ∈ ((initial worker settings archive).after parser events).system.db.deliveries,
      d.status = .deleting →
        ∃ task ∈ ((initial worker settings archive).after parser events).system.tasks,
          task.item.deliveryId = d.id ∧ task.reported = false ∧
            (task.id ∈ ((initial worker settings archive).after parser events).inFlight ∨
              task.id ∈ ((initial worker settings archive).after parser events).dropped)) ∧
    ((∀ event ∈ events, event.drops = false) →
      ((initial worker settings archive).after parser events).inFlight = [] →
        ∀ d ∈ ((initial worker settings archive).after parser events).system.db.deliveries,
          d.status ≠ .deleting) := by
  have hw : ((initial worker settings archive).after parser events).Attended :=
    attended_after worker settings archive events
  have hsettings : ((initial worker settings archive).after parser events).settings = worker :=
    Transition.run_invariant (I := fun w : WorkerWorld => w.settings = worker)
      (fun w event h => (keeps_step w event).settings.trans h) rfl events
  have hthrottled : ((initial worker settings archive).after parser events).underway.length ≤
      ((initial worker settings archive).after parser events).settings.boundedConcurrency :=
    Transition.run_invariant
      (I := fun w : WorkerWorld => w.underway.length ≤ w.settings.boundedConcurrency)
      (fun w event h => (keeps_step w event).settings ▸ (keeps_step w event).throttled h)
      (Nat.zero_le _) events
  have hdropped : (∀ event ∈ events, event.drops = false) →
      ((initial worker settings archive).after parser events).dropped = [] := dropped_after
  generalize (initial worker settings archive).after parser events = w at *
  have hdeleting : ∀ d ∈ w.system.db.deliveries, d.status = .deleting →
      ∃ task ∈ w.system.tasks, task.item.deliveryId = d.id ∧ task.reported = false ∧
        (task.id ∈ w.inFlight ∨ task.id ∈ w.dropped) := by
    intro d hd hdeleting
    obtain ⟨task, htask, hitem, hopen⟩ := hw.tasked d hd hdeleting
    exact ⟨task, htask, hitem, hopen, hw.attended task htask hopen⟩
  refine ⟨⟨hsettings ▸ hthrottled, hsettings ▸ hw.size⟩, hw.distinct, hdeleting,
    fun hdrops hidle d hd hstatus => ?_⟩
  -- the open task of the row would be in flight or dropped, and nothing is
  obtain ⟨task, -, -, -, h⟩ := hdeleting d hd hstatus
  rw [hidle, hdropped hdrops] at h
  exact h.elim List.not_mem_nil List.not_mem_nil

end Promises

end WorkerWorld

end CineGate

/-
**The invariant of the reward and delivery system.**

Whatever the order of the transactions, the answers of Telegram and the clocks, every entitlement
stays well formed, a user keeps one active session and one open session for a binding at most, and a
delivery attempt belongs to a rewarded session and to its delivery.

* `World.Sound` — the invariant;
* `World.step_moves` — an event moves every session by the moves of `SessionStep`;
* `World.sound_after` — the invariant holds after every run;
* `World.continues_after` — a run continues every session.
-/

import CineGate.DeliverySystem
import CineGate.SessionRefinement

set_option relaxedAutoImplicit false
set_option autoImplicit false

namespace CineGate

/-- A step of a delivery attempt, or the stale recovery. -/
def Event.sends : Event → Bool
  | .prepare .. | .copyMessage .. | .complete .. | .recoverStaleSends .. => true
  | _ => false

/-- The phase an answer of Telegram takes an attempt to. -/
def CopyAnswer.phase : CopyAnswer → SendPhase
  | .copied messageId => .copied messageId
  | .refused error => .refused error

/-- What an event does to an attempt. -/
inductive SendAttempt.Step (event : Event) : SendAttempt → SendAttempt → Prop
  | idle (a : SendAttempt) : Step event a a
  | answered (a : SendAttempt) (answer : CopyAnswer) (ha : a.phase = .copying)
      (he : event = .copyMessage a.id answer) : Step event a { a with phase := answer.phase }
  | finalized (a : SendAttempt) (messageId : ℕ) (clock : Clock) (ha : a.phase = .copied messageId)
      (he : event = .complete a.id clock) : Step event a { a with phase := .finalized messageId }
  | released (a : SendAttempt) (error : TelegramError) (clock : Clock)
      (ha : a.phase = .refused error) (he : event = .complete a.id clock) :
      Step event a { a with phase := .released }
  | superseded (a : SendAttempt) (staleSeconds : ℤ) (locked : ℕ → Bool) (clock : Clock)
      (he : event = .recoverStaleSends staleSeconds locked clock) :
      Step event a { a with superseded := true }

/-- An event leaves an attempt its session and its claim. -/
theorem SendAttempt.Step.frame {event : Event} {a₀ a : SendAttempt}
    (h : SendAttempt.Step event a₀ a) :
    a₀.id = a.id ∧ a₀.sessionId = a.sessionId ∧ a₀.prepared = a.prepared := by
  cases h <;> exact ⟨rfl, rfl, rfl⟩

namespace World

/-- The attempt belongs to a rewarded session and to its delivery. -/
def Holds (db : Db) (attempt : SendAttempt) : Prop :=
  ∃ r d, db.entitlement? attempt.sessionId = some ⟨r, some d⟩ ∧ r.isRewarded ∧
    d.id = attempt.prepared.deliveryId

structure Sound (w : World) : Prop where
  db : w.db.Sound
  slot : w.db.OneSlot
  attempts : ∀ a ∈ w.attempts, Holds w.db a

/-- The event completes an attempt of the session with a copy. -/
def Copied (w : World) (event : Event) (sessionId messageId : ℕ) : Prop :=
  ∃ attemptId clock a, event = .complete attemptId clock ∧ w.attempts.find? attemptId = some a ∧
    a.sessionId = sessionId ∧ a.phase = .copied messageId

variable {w : World} {copied : ℕ → ℕ → Prop}

theorem Sound.uniqueKeys (hw : w.Sound) : w.db.uniqueKeys := hw.slot.uniqueKeys hw.db.toLinked

/-- A transaction that only moves sessions is not refused. -/
theorem Sound.not_refused {ε α : Type} {duplicate : ε} {result : Except ε (Db × α)} (hw : w.Sound)
    (h : Commits duplicate (fun db' _ => w.db.Updates (fun _ _ => True) db') result) :
    result ≠ .error duplicate :=
  h.ne_duplicate fun _ _ hupdates =>
    (hw.slot.of_updates hw.db hupdates).uniqueKeys hupdates.linked

/-! ### The database after an event -/

/-- The sessions and deliveries have not been written to. -/
theorem updates_of_eq {db db' : Db} (hdb : db.Linked)
    (hrewards : db'.rewardSessions = db.rewardSessions)
    (hdeliveries : db'.deliveries = db.deliveries) :
    db.Updates copied db' := by
  obtain ⟨settings, archive, rewards, deliveries⟩ := db'
  subst hrewards hdeliveries
  exact ⟨⟨fun _ => .refl, ⟨hdb.unique, hdb.owned⟩⟩, fun _ h => h⟩

/-- What a committed transaction of the services leaves. -/
theorem commit_updates {ε α : Type} {w' : World} {duplicate : ε} {result : Except ε (Db × α)}
    (hw : w.Sound) (hdb : w'.db = w.db)
    (h : Commits duplicate (fun db' _ => w.db.Updates copied db') result) :
    w.db.Updates copied (w'.commit result).db := by
  unfold commit
  split
  · exact h.of_ok
  · rw [hdb]
    exact hw.db.updates_refl

theorem commitArchive_updates {result : Except DbError (ArchiveTables × ArchiveIndexResult)}
    (hw : w.Sound) :
    w.db.Updates copied (w.commitArchive result).db := by
  unfold commitArchive
  split
  · exact updates_of_eq hw.db.toLinked rfl rfl
  · exact hw.db.updates_refl

theorem prepare_updates {sessionId : ℕ} {render : CaptionRenderer} {clock : Clock}
    (hw : w.Sound) : w.db.Updates copied (w.prepare sessionId render clock).db := by
  unfold prepare
  split
  · next h => exact (h ▸ prepare_commits hw.db hw.uniqueKeys).of_ok.1
  · next h => exact (h ▸ prepare_commits hw.db hw.uniqueKeys).of_ok.1
  · exact hw.db.updates_refl

theorem copyMessage_db {attemptId : ℕ} {answer : CopyAnswer} :
    (w.copyMessage attemptId answer).db = w.db := by
  unfold copyMessage
  split
  · rfl
  · split
    · rfl
    · split
      · split <;> rfl
      · rfl

theorem complete_updates {attemptId : ℕ} {clock : Clock} (hw : w.Sound) :
    w.db.Updates (Copied w (.complete attemptId clock)) (w.complete attemptId clock).db := by
  unfold complete
  split
  · exact hw.db.updates_refl
  · next a ha =>
      obtain ⟨r, d, he, hr, hid⟩ := hw.attempts a (KeyedTable.mem_of_find? ha)
      split
      · next messageId hphase =>
          have hcopied : Copied w (.complete attemptId clock) a.sessionId messageId :=
            ⟨attemptId, clock, a, rfl, ha, rfl, hphase⟩
          rw [← hid]
          split
          · next h =>
              exact (h ▸ finalizeSent_commits hw.db.toLinked hw.uniqueKeys he hr hcopied).of_ok
          · exact hw.db.updates_refl
      · next error hphase =>
          rw [← hid]
          split
          · next h => exact (h ▸ resetFailedSend_commits hw.db.toLinked he hr).of_ok
          · exact hw.db.updates_refl
      · exact hw.db.updates_refl

theorem recoverStaleSends_updates {staleSeconds : ℤ} {locked : ℕ → Bool} {clock : Clock}
    (hw : w.Sound) :
    w.db.Updates copied (w.recoverStaleSends staleSeconds locked clock).db := by
  unfold recoverStaleSends
  split
  · next h => exact (h ▸ recoverStaleSends_commits hw.db.toLinked).of_ok
  · exact hw.db.updates_refl

theorem claimDueDeletions_updates {limit : ℤ} {locked : ℕ → Bool} {clock : Clock}
    (hw : w.Sound) : w.db.Updates copied (w.claimDueDeletions limit locked clock).db := by
  unfold claimDueDeletions
  split
  · next h => exact (h ▸ claimDueDeletions_commits hw.db.toLinked).of_ok
  · exact hw.db.updates_refl

theorem deleteMessage_db {taskId : ℕ} {answer : DeleteAnswer} :
    (w.deleteMessage taskId answer).db = w.db := by
  unfold deleteMessage
  split
  · rfl
  · split <;> rfl

theorem reportDeletion_updates {taskId : ℕ} {clock : Clock} (hw : w.Sound) :
    w.db.Updates copied (w.reportDeletion taskId clock).db := by
  unfold reportDeletion
  split
  · exact hw.db.updates_refl
  · split
    · dsimp only
      split
      · exact commit_updates hw rfl (markDeleted_commits hw.db.toLinked)
      · exact commit_updates hw rfl (markDeleteFailed_commits hw.db.toLinked)
      · exact commit_updates hw rfl (rescheduleDelete_commits hw.db.toLinked)
    · exact hw.db.updates_refl

theorem getOrCreate_moves {telegramUserId : ℤ} {movieId newId : ℕ} {quality : Str} {clock : Clock}
    (hw : w.Sound) :
    w.db.Moves copied
        (w.commit (getOrCreate w.db telegramUserId movieId quality newId clock)).db ∧
      (w.commit (getOrCreate w.db telegramUserId movieId quality newId clock)).db.OneSlot := by
  have hcommits : Commits _ (fun db' _ => w.db.Moves copied db' ∧ db'.OneSlot)
      (getOrCreate w.db telegramUserId movieId quality newId clock) ∨ _ :=
    getOrCreate_commits hw.db hw.slot
  generalize getOrCreate w.db telegramUserId movieId quality newId clock = result at *
  unfold commit
  split
  · rcases hcommits with hcommits | ⟨-, herror⟩
    · exact hcommits.of_ok
    · cases herror
  · exact ⟨hw.db.updates_refl.toMoves, hw.slot⟩

section Step

variable [UnicodeData] {parser : ArchiveParser}

/-- An event that asks for no session moves the sessions that are there. -/
theorem step_updates (hw : w.Sound) {event : Event}
    (h : ∀ telegramUserId movieId quality newId clock,
      event ≠ .getOrCreate telegramUserId movieId quality newId clock) :
    w.db.Updates (Copied w event) (step parser w event).db := by
  cases event with
  | getOrCreate telegramUserId movieId quality newId clock => exact absurd rfl (h _ _ _ _ _)
  | get sessionId clock => exact commit_updates hw rfl (get_commits hw.db.toLinked hw.uniqueKeys)
  | claimPrompt sessionId telegramUserId clock =>
      exact commit_updates hw rfl (claimPrompt_commits hw.db.toLinked hw.uniqueKeys)
  | completePrompt sessionId telegramUserId messageId clock =>
      exact commit_updates hw rfl (completePrompt_commits hw.db.toLinked hw.uniqueKeys)
  | resetPromptClaim sessionId telegramUserId =>
      exact commit_updates hw rfl (resetPromptClaim_commits hw.db.toLinked hw.uniqueKeys)
  | markClientCompleted sessionId telegramUserId clock =>
      exact commit_updates hw rfl (markClientCompleted_commits hw.db.toLinked)
  | markProviderConfirmed telegramUserId clock =>
      exact commit_updates hw rfl (markProviderConfirmed_commits hw.db.toLinked)
  | prepare sessionId render clock => exact prepare_updates hw
  | copyMessage attemptId answer =>
      exact updates_of_eq hw.db.toLinked (by rw [step, copyMessage_db])
        (by rw [step, copyMessage_db])
  | complete attemptId clock => exact complete_updates hw
  | recoverStaleSends staleSeconds locked clock => exact recoverStaleSends_updates hw
  | recoverStaleDeletions staleSeconds clock =>
      exact commit_updates hw rfl (recoverStaleDeletions_commits hw.db.toLinked)
  | claimDueDeletions limit locked clock => exact claimDueDeletions_updates hw
  | deleteMessage taskId answer =>
      exact updates_of_eq hw.db.toLinked (by rw [step, deleteMessage_db])
        (by rw [step, deleteMessage_db])
  | reportDeletion taskId clock => exact reportDeletion_updates hw
  | ingest channelId message => exact commitArchive_updates hw
  | reconcileEdit channelId message expectedSnapshotVersion => exact commitArchive_updates hw
  | changeArchive archive =>
      simp only [step]
      split
      · exact updates_of_eq hw.db.toLinked rfl rfl
      · exact hw.db.updates_refl
  | changeSettings settings => exact updates_of_eq hw.db.toLinked rfl rfl

variable (parser) in
/-- **An event moves every session by the moves of an entitlement**, and a finalized send is the
completion of an attempt of that session whose message was copied.  A user keeps one slot. -/
theorem step_moves (hw : w.Sound) (event : Event) :
    w.db.Moves (Copied w event) (step parser w event).db ∧ (step parser w event).db.OneSlot := by
  by_cases h : ∃ telegramUserId movieId quality newId clock,
      event = .getOrCreate telegramUserId movieId quality newId clock
  · obtain ⟨telegramUserId, movieId, quality, newId, clock, rfl⟩ := h
    exact getOrCreate_moves hw
  · have hupdates : w.db.Updates (Copied w event) (step parser w event).db :=
      step_updates hw fun u m q i c heq => h ⟨u, m, q, i, c, heq⟩
    exact ⟨hupdates.toMoves, hw.slot.of_updates hw.db hupdates⟩

end Step

/-! ### The attempts after an event -/

/-- The attempt is an earlier one that the event may have taken further. -/
def Resumes (w : World) (event : Event) (a : SendAttempt) : Prop :=
  ∃ a₀ ∈ w.attempts, SendAttempt.Step event a₀ a

theorem resumes_of_mem {event : Event} {a : SendAttempt} (ha : a ∈ w.attempts) :
    w.Resumes event a := ⟨a, ha, .idle a⟩

/-- An event that writes the phase of one attempt. -/
theorem resumes_setPhase {event : Event} {a₀ a : SendAttempt} {phase : SendPhase}
    (h₀ : w.attempts.find? a₀.id = some a₀)
    (ha : a ∈ w.attempts.modifyAt a₀.id (fun a => { a with phase }) fun _ => rfl)
    (hstep : SendAttempt.Step event a₀ { a₀ with phase }) : w.Resumes event a := by
  rcases KeyedTable.mem_modifyAt.1 ha with ⟨ha, -⟩ | ⟨a₁, ha₁, hid, rfl⟩
  · exact resumes_of_mem ha
  · have h₀ := KeyedTable.mem_of_find? h₀
    rw [w.attempts.ext_key ha₁ h₀ hid]
    exact ⟨a₀, h₀, hstep⟩

theorem commit_attempts {ε α : Type} {result : Except ε (Db × α)} :
    (w.commit result).attempts = w.attempts := by
  unfold commit
  split <;> rfl

theorem commitArchive_attempts {result : Except DbError (ArchiveTables × ArchiveIndexResult)} :
    (w.commitArchive result).attempts = w.attempts := by
  unfold commitArchive
  split <;> rfl

theorem copyMessage_resumes {attemptId : ℕ} {answer : CopyAnswer} {a : SendAttempt}
    (ha : a ∈ (w.copyMessage attemptId answer).attempts) :
    w.Resumes (.copyMessage attemptId answer) a := by
  unfold copyMessage at ha
  split at ha
  · exact resumes_of_mem ha
  · next a₀ h₀ =>
      obtain rfl : a₀.id = attemptId := KeyedTable.key_of_find? h₀
      split at ha
      · exact resumes_of_mem ha
      · next hcopying =>
          have hstep := SendAttempt.Step.answered a₀ answer (not_not.1 hcopying) rfl
          cases answer with
          | copied messageId =>
              dsimp only at ha
              split at ha
              · exact resumes_of_mem ha
              · exact resumes_setPhase h₀ ha hstep
          | refused error => exact resumes_setPhase h₀ ha hstep

theorem complete_resumes {attemptId : ℕ} {clock : Clock} {a : SendAttempt}
    (ha : a ∈ (w.complete attemptId clock).attempts) :
    w.Resumes (.complete attemptId clock) a := by
  unfold complete at ha
  split at ha
  · exact resumes_of_mem ha
  · next a₀ h₀ =>
      obtain rfl : a₀.id = attemptId := KeyedTable.key_of_find? h₀
      split at ha
      · next messageId hphase =>
          split at ha
          · exact resumes_setPhase h₀ ha (.finalized a₀ messageId clock hphase rfl)
          · exact resumes_of_mem ha
      · next error hphase =>
          split at ha
          · exact resumes_setPhase h₀ ha (.released a₀ error clock hphase rfl)
          · exact resumes_of_mem ha
      · exact resumes_of_mem ha

theorem recoverStaleSends_resumes {staleSeconds : ℤ} {locked : ℕ → Bool} {clock : Clock}
    {a : SendAttempt} (ha : a ∈ (w.recoverStaleSends staleSeconds locked clock).attempts) :
    w.Resumes (.recoverStaleSends staleSeconds locked clock) a := by
  unfold recoverStaleSends at ha
  split at ha
  · obtain ⟨a₀, ha₀, rfl⟩ := List.mem_map.1 ha
    refine ⟨a₀, ha₀, ?_⟩
    split
    · exact .superseded a₀ staleSeconds locked clock rfl
    · exact .idle a₀
  · exact resumes_of_mem ha

theorem claimDueDeletions_attempts {limit : ℤ} {locked : ℕ → Bool} {clock : Clock} :
    (w.claimDueDeletions limit locked clock).attempts = w.attempts := by
  unfold claimDueDeletions
  split <;> rfl

theorem deleteMessage_attempts {taskId : ℕ} {answer : DeleteAnswer} :
    (w.deleteMessage taskId answer).attempts = w.attempts := by
  unfold deleteMessage
  split
  · rfl
  · split <;> rfl

theorem reportDeletion_attempts {taskId : ℕ} {clock : Clock} :
    (w.reportDeletion taskId clock).attempts = w.attempts := by
  unfold reportDeletion
  split
  · rfl
  · split
    · dsimp only
      split <;> simp only [commit_attempts]
    · rfl

/-- The event has claimed a send, and the attempt is the one that waits for its copy. -/
def Begins (w : World) (event : Event) (db' : Db) (a : SendAttempt) : Prop :=
  ∃ render clock, event = .prepare a.sessionId render clock ∧
    CineGate.prepare w.db render a.sessionId clock = .ok (db', .inl a.prepared) ∧
    a.phase = .copying ∧ a.superseded = false ∧ a.id = w.attempts.freshKey

theorem prepare_begins {sessionId : ℕ} {render : CaptionRenderer} {clock : Clock} {a : SendAttempt}
    (ha : a ∈ (w.prepare sessionId render clock).attempts) :
    w.Resumes (.prepare sessionId render clock) a ∨
      w.Begins (.prepare sessionId render clock) (w.prepare sessionId render clock).db a := by
  revert ha
  unfold prepare
  split
  · next h =>
      intro ha
      rcases KeyedTable.mem_of_mem_insert ha with rfl | ha
      · exact .inr ⟨render, clock, rfl, h, rfl, rfl, rfl⟩
      · exact .inl (resumes_of_mem ha)
  · exact fun ha => .inl (resumes_of_mem ha)
  · exact fun ha => .inl (resumes_of_mem ha)

theorem initial_sound (settings : Settings) (archive : ArchiveTables) :
    (initial settings archive).Sound := by
  refine ⟨⟨⟨List.nodup_nil, ?_⟩, ?_⟩, ⟨?_, ?_⟩, ?_⟩
  · intro d hd
    cases hd
  · rintro sid e ⟨⟩
  · intro r hr
    cases hr
  · intro r hr
    cases hr
  · intro a ha
    cases ha

section Step

variable [UnicodeData] {parser : ArchiveParser}

/-- An event that is no part of a delivery attempt and no stale recovery leaves the attempts. -/
theorem attempts_of_not_sends {event : Event} (h : event.sends = false) :
    (step parser w event).attempts = w.attempts := by
  cases event with
  | prepare sessionId render clock => cases h
  | copyMessage attemptId answer => cases h
  | complete attemptId clock => cases h
  | recoverStaleSends staleSeconds locked clock => cases h
  | claimDueDeletions limit locked clock => exact claimDueDeletions_attempts
  | deleteMessage taskId answer => exact deleteMessage_attempts
  | reportDeletion taskId clock => exact reportDeletion_attempts
  | ingest channelId message => exact commitArchive_attempts
  | reconcileEdit channelId message expectedSnapshotVersion => exact commitArchive_attempts
  | changeArchive archive =>
      simp only [step]
      split <;> rfl
  | changeSettings settings => rfl
  | _ => exact commit_attempts

/-- An attempt after an event is an earlier one, or the event has begun it. -/
theorem attempt_origin {event : Event} {a : SendAttempt}
    (ha : a ∈ (step parser w event).attempts) :
    w.Resumes event a ∨ w.Begins event (step parser w event).db a := by
  cases hsends : event.sends with
  | false => exact .inl (resumes_of_mem (attempts_of_not_sends hsends ▸ ha))
  | true =>
      cases event with
      | prepare sessionId render clock => exact prepare_begins ha
      | copyMessage attemptId answer => exact .inl (copyMessage_resumes ha)
      | complete attemptId clock => exact .inl (complete_resumes ha)
      | recoverStaleSends staleSeconds locked clock => exact .inl (recoverStaleSends_resumes ha)
      | _ => cases hsends

/-! ### Runs -/

theorem Sound.step (hw : w.Sound) (event : Event) : (step parser w event).Sound := by
  obtain ⟨hmoves, hslot⟩ := step_moves parser hw event
  refine ⟨hw.db.of_moves hmoves, hslot, fun a ha => ?_⟩
  rcases attempt_origin ha with ⟨a₀, ha₀, hstep⟩ | ⟨render, clock, rfl, h, -, -, -⟩
  · obtain ⟨-, hsession, hprepared⟩ := hstep.frame
    obtain ⟨r, d, he, hr, hid⟩ := hw.attempts a₀ ha₀
    have hsteps := hmoves.steps a₀.sessionId
    rw [he] at hsteps
    obtain ⟨⟨r', d'⟩, he', hcontinues⟩ := hsteps.continues (hw.db.wellFormed _ _ he)
    obtain ⟨d'', rfl, hid'⟩ := hcontinues.deliveryId d rfl
    exact ⟨r', d'', hsession ▸ he', hcontinues.rewarded hr, by rw [hid', hid, hprepared]⟩
  · obtain ⟨r, d, movie, row, hclaimed⟩ := prepare_claimed hw.db hw.uniqueKeys h
    exact ⟨_, _, hclaimed.claimed, rfl, hclaimed.deliveryId.symm⟩

/-- **The invariant holds after every run.** -/
theorem sound_after (settings : Settings) (archive : ArchiveTables) (events : List Event) :
    ((initial settings archive).after parser events).Sound :=
  Transition.run_invariant (fun _ event hw => hw.step event) (initial_sound settings archive) events

/-- An event forgets no session and continues it. -/
theorem Sound.continues_step (hw : w.Sound) (event : Event) {sessionId : ℕ} {e : Entitlement}
    (he : w.db.entitlement? sessionId = some e) :
    ∃ e', (World.step parser w event).db.entitlement? sessionId = some e' ∧ e.Continues e' := by
  have hsteps := (step_moves parser hw event).1.steps sessionId
  rw [he] at hsteps
  exact hsteps.continues (hw.db.wellFormed _ _ he)

/-- **A run continues every session.** -/
theorem Sound.continues_after (hw : w.Sound) (events : List Event) {sessionId : ℕ} {e : Entitlement}
    (he : w.db.entitlement? sessionId = some e) :
    ∃ e', (w.after parser events).db.entitlement? sessionId = some e' ∧ e.Continues e' := by
  refine Transition.run_rel (I := Sound)
    (R := fun w w' => ∀ e, w.db.entitlement? sessionId = some e →
    ∃ e', w'.db.entitlement? sessionId = some e' ∧ e.Continues e') ?_ ?_ ?_ ?_ hw events e he
  · exact fun w e he => ⟨e, he, .refl _, fun d hd => ⟨d, hd, rfl⟩⟩
  · intro u v w huv hvw e he
    obtain ⟨f, hf, hef⟩ := huv e he
    obtain ⟨g, hg, hfg⟩ := hvw f hf
    exact ⟨g, hg, hef.trans hfg⟩
  · exact fun w event hw => hw.step event
  · exact fun w event hw e he => hw.continues_step event he

/-- The message of a copied attempt is the answer of an earlier event. -/
theorem copyMessage_mem_of_copied (settings : Settings) (archive : ArchiveTables)
    (events : List Event) {a : SendAttempt} {messageId : ℕ}
    (ha : a ∈ ((initial settings archive).after parser events).attempts)
    (hphase : a.phase = .copied messageId) : .copyMessage a.id (.copied messageId) ∈ events := by
  induction events using List.reverseRecOn generalizing a with
  | nil => cases ha
  | append_singleton events event ih =>
      rw [after, Transition.run_snoc] at ha
      rw [List.mem_append, List.mem_singleton]
      rcases attempt_origin ha with ⟨a₀, ha₀, hstep⟩ | ⟨_, _, _, _, hcopying, -⟩
      · cases hstep with
        | idle => exact .inl (ih ha₀ hphase)
        | answered answer hcopying he =>
            cases answer with
            | copied messageId' =>
                cases hphase
                exact .inr he.symm
            | refused error => cases hphase
        | finalized messageId' clock h he => cases hphase
        | released error clock h he => cases hphase
        | superseded staleSeconds locked clock he =>
            have hmem := ih ha₀ hphase
            exact .inl hmem
      · cases hcopying.symm.trans hphase

end Step

end World
end CineGate

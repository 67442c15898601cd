/-
**The handlers that send a reward prompt.**

`bot/user_router.py`, the end of `select_quality`: a handler claims the prompt of a session, sends
it, and records the message.  Any number of handlers of one session run at once; between their calls
the clock passes and other transactions write to the session.  A message that is not recorded is
deleted by its handler, unless the session has expired meanwhile: then `complete_prompt` raises
something that the handler does not expect, and the message stays.

* `PromptWorld`, `PromptWorld.step` — the session, the chat and the handlers;
* `PromptWorld.Effect`, `step_effect` — what a step does;
* `PromptWorld.Sound` — the messages of the handlers and the recorded one;
* `PromptWorld.CompletesInTime` — the condition on a step;
* `one_prompt_survives_iff` — when exactly one prompt survives.
-/

import CineGate.RewardGuarantees
import CineGate.Transition

set_option relaxedAutoImplicit false
set_option autoImplicit false

namespace CineGate

/-! ### The handlers -/

/-- How a handler ends: the prompt was claimed by another one, the claim or the sending raised, the
message was recorded, deleted, or left behind by an exception. -/
inductive PromptResult
  | busy
  | refused (error : RewardError)
  | sendFailed
  | stored (messageId : ℕ)
  | deleted (messageId : ℕ)
  | raised (messageId : ℕ)
deriving DecidableEq, Repr

/-- Where a handler stands: before its next call. -/
inductive PromptPhase
  | sending
  | completing (messageId : ℕ)
  | resetting
  | deleting (messageId : ℕ)
  | finished (result : PromptResult)
deriving DecidableEq, Repr

/-- The message of a handler, once it is sent. -/
def PromptPhase.message? : PromptPhase → Option ℕ
  | completing messageId => some messageId
  | deleting messageId => some messageId
  | finished (.stored messageId) => some messageId
  | finished (.deleted messageId) => some messageId
  | finished (.raised messageId) => some messageId
  | _ => none

/-- The message of the handler is deleted. -/
def PromptPhase.isDeleted : PromptPhase → Bool
  | .finished (.deleted _) => true
  | _ => false

/-- The handler is told that its message is recorded. -/
def PromptPhase.isStored : PromptPhase → Bool
  | .finished (.stored _) => true
  | _ => false

/-- The handler has left its message behind. -/
def PromptPhase.isRaised : PromptPhase → Bool
  | .finished (.raised _) => true
  | _ => false

/-- The handler has ended. -/
def PromptPhase.isFinished : PromptPhase → Bool
  | .finished _ => true
  | _ => false

/-- The handler may still send or record its message. -/
def PromptPhase.isOpen : PromptPhase → Bool
  | .sending | .completing _ => true
  | _ => false

/-- A `select_quality` handler from its `claim_prompt` on. -/
structure PromptHandler where
  id : ℕ
  phase : PromptPhase
deriving DecidableEq, Repr

/-- The answer to `_send_rendered`. -/
inductive SendAnswer
  | sent (messageId : ℕ)
  | failed
deriving DecidableEq, Repr

/-- The database, the handlers of one session, its prompts in the chat, and the message ids Telegram
has issued there. -/
structure PromptWorld where
  sessionId : ℕ
  telegramUserId : ℤ
  db : Db
  handlers : KeyedTable PromptHandler PromptHandler.id := .empty
  chat : List ℕ
  issued : List ℕ

inductive PromptEvent
  | claim (clock : Clock)
  | send (handlerId : ℕ) (answer : SendAnswer)
  | complete (handlerId : ℕ) (clock : Clock)
  | reset (handlerId : ℕ)
  | delete (handlerId : ℕ)
  | other (db : Db)

/-- The owner of a session and its recorded prompt. -/
def Db.prompt? (db : Db) (sessionId : ℕ) : Option (ℤ × Option ℕ) :=
  (db.rewardSessions.find? sessionId).map fun reward =>
    (reward.telegramUserId, reward.promptMessageId)

namespace PromptWorld

def prompt? (w : PromptWorld) : Option (ℤ × Option ℕ) := w.db.prompt? w.sessionId

/-- `prompt_message_id`. -/
def recorded (w : PromptWorld) : Option ℕ := w.prompt?.bind Prod.snd

/-- A handler goes on. -/
def goTo (w : PromptWorld) (handlerId : ℕ) (phase : PromptPhase) : PromptWorld :=
  { w with handlers := w.handlers.modifyAt handlerId (fun h => { h with phase }) fun _ => rfl }

/-- A handler comes from its claim. -/
def join (w : PromptWorld) (phase : PromptPhase) : PromptWorld :=
  { w with handlers := w.handlers.insert { id := w.handlers.freshKey, phase } }

/-- `claim_prompt`. -/
def claim (w : PromptWorld) (clock : Clock) : PromptWorld :=
  match claimPrompt w.db w.sessionId w.telegramUserId clock with
  | .ok (db, true) => { w with db }.join .sending
  | .ok (db, false) => { w with db }.join (.finished .busy)
  | .error error => w.join (.finished (.refused error))

/-- `_send_rendered`; Telegram never issues a message id twice. -/
def send (w : PromptWorld) (handlerId : ℕ) (answer : SendAnswer) : PromptWorld :=
  match w.handlers.find? handlerId with
  | none => w
  | some h =>
      if h.phase ≠ .sending then w
      else
        match answer with
        | .failed => w.goTo handlerId .resetting
        | .sent messageId =>
            if messageId ∈ w.issued then w
            else
              { w.goTo handlerId (.completing messageId) with
                chat := messageId :: w.chat
                issued := messageId :: w.issued }

/-- `complete_prompt`: the handler deletes its message when another one is recorded or the database
fails; it does not expect any other exception. -/
def complete (w : PromptWorld) (handlerId : ℕ) (clock : Clock) : PromptWorld :=
  match w.handlers.find? handlerId with
  | none => w
  | some h =>
      match h.phase with
      | .completing messageId =>
          match completePrompt w.db w.sessionId w.telegramUserId messageId clock with
          | .ok (db, true) => { w with db }.goTo handlerId (.finished (.stored messageId))
          | .ok (db, false) => { w with db }.goTo handlerId (.deleting messageId)
          | .error (.database _) => w.goTo handlerId (.deleting messageId)
          | .error _ => w.goTo handlerId (.finished (.raised messageId))
      | _ => w

/-- `reset_prompt_claim`, after which the handler raises the exception of the sending. -/
def reset (w : PromptWorld) (handlerId : ℕ) : PromptWorld :=
  match w.handlers.find? handlerId with
  | none => w
  | some h =>
      if h.phase ≠ .resetting then w
      else
        match resetPromptClaim w.db w.sessionId w.telegramUserId with
        | .ok (db, _) => { w with db }.goTo handlerId (.finished .sendFailed)
        | .error _ => w.goTo handlerId (.finished .sendFailed)

/-- `_safe_delete`. -/
def delete (w : PromptWorld) (handlerId : ℕ) : PromptWorld :=
  match w.handlers.find? handlerId with
  | none => w
  | some h =>
      match h.phase with
      | .deleting messageId =>
          { w.goTo handlerId (.finished (.deleted messageId)) with
            chat := w.chat.filter fun m => m ≠ messageId }
      | _ => w

/-- One event.  Another transaction may write to anything but the owner of the session and its
prompt. -/
def step (w : PromptWorld) : PromptEvent → PromptWorld
  | .claim clock => w.claim clock
  | .send handlerId answer => w.send handlerId answer
  | .complete handlerId clock => w.complete handlerId clock
  | .reset handlerId => w.reset handlerId
  | .delete handlerId => w.delete handlerId
  | .other db => if db.prompt? w.sessionId = w.prompt? then { w with db } else w

/-- No handler yet; a prompt that is recorded already is in the chat. -/
def initial (db : Db) (sessionId : ℕ) (telegramUserId : ℤ) : PromptWorld where
  sessionId
  telegramUserId
  db
  chat := ((db.prompt? sessionId).bind Prod.snd).toList
  issued := ((db.prompt? sessionId).bind Prod.snd).toList

/-- **A handler that has sent its message completes before the session expires.** -/
def CompletesInTime (w : PromptWorld) : PromptEvent → Prop
  | .complete handlerId clock => ∀ h messageId, w.handlers.find? handlerId = some h →
      h.phase = .completing messageId →
        ∀ reward, w.db.rewardSessions.find? w.sessionId = some reward →
          reward.status ≠ .expired ∧ reward.isOverdue clock.utcnow = false
  | _ => True

end PromptWorld

/-! ### The transactions -/

section

variable {db db' : Db} {sessionId messageId : ℕ} {telegramUserId : ℤ} {clock : Clock}

/-- Writing to a session that keeps its owner and its prompt. -/
theorem prompt?_updateReward {f : RewardSession → RewardSession} {hf : ∀ r, (f r).id = r.id}
    (h : ∀ r, (f r).telegramUserId = r.telegramUserId) :
    (db.updateReward sessionId f hf).prompt? sessionId =
      (db.rewardSessions.find? sessionId).map fun r =>
        (r.telegramUserId, (f r).promptMessageId) := by
  unfold Db.prompt? Db.updateReward
  rw [KeyedTable.find?_modifyAt_self, Option.map_map]
  cases db.rewardSessions.find? sessionId with
  | none => rfl
  | some r => simp [h]

theorem commitReward_ok {α : Type} {result x : α} (h : db.commitReward result = .ok (db', x)) :
    db' = db ∧ x = result := by
  unfold Db.commitReward at h
  split at h
  · cases h
    exact ⟨rfl, rfl⟩
  · cases h

theorem commitReward_error {α : Type} {result : α} {error : RewardError}
    (h : db.commitReward result = .error error) : error = .database .uniqueViolation := by
  unfold Db.commitReward at h
  split at h
  · cases h
  · cases h
    rfl

/-- The frame of a transaction on a session: it is current and its owner's, or the transaction
raises. -/
theorem withCurrent_cases {α : Type} (db : Db) (sessionId : ℕ) (telegramUserId : ℤ) (now : Instant)
    (body : RewardSession → RewardTransaction α) :
    (∃ reward, db.rewardSessions.find? sessionId = some reward ∧
      reward.telegramUserId = telegramUserId ∧
        reward.status ≠ .expired ∧ reward.isOverdue now = false ∧
        withCurrent db sessionId telegramUserId now body = body reward) ∨
      ((∃ error, withCurrent db sessionId telegramUserId now body = .error error ∧
          ∀ e, error ≠ .database e) ∧
        ∀ reward, db.rewardSessions.find? sessionId = some reward →
          reward.telegramUserId = telegramUserId →
          ¬ (reward.status ≠ .expired ∧ reward.isOverdue now = false)) := by
  unfold withCurrent requireCurrent
  cases hr : db.rewardSessions.find? sessionId with
  | none => exact .inr ⟨⟨_, rfl, by simp⟩, by simp⟩
  | some reward =>
      by_cases hexpired : reward.status = .expired
      · refine .inr ⟨⟨.sessionExpired, by simp [hexpired], by simp⟩, fun r hr _ h => ?_⟩
        exact h.1 (Option.some.inj hr ▸ hexpired)
      · cases hoverdue : reward.isOverdue now with
        | true =>
            refine .inr
              ⟨⟨.sessionExpired, by simp [hexpired, hoverdue], by simp⟩, fun r hr _ h => ?_⟩
            rw [← Option.some.inj hr, hoverdue] at h
            cases h.2
        | false =>
            by_cases huser : reward.telegramUserId = telegramUserId
            · exact .inl
                ⟨reward, rfl, huser, hexpired, hoverdue, by simp [hexpired, hoverdue, huser]⟩
            · refine .inr ⟨⟨.userMismatch,
                by simp [hexpired, hoverdue, huser], by simp⟩, fun r hr huser' => ?_⟩
              exact absurd (Option.some.inj hr ▸ huser') huser

/-- A claim leaves the prompt as it is; it is made when none is recorded. -/
theorem claimPrompt_ok {claimed : Bool}
    (h : claimPrompt db sessionId telegramUserId clock = .ok (db', claimed)) :
    db'.prompt? sessionId = db.prompt? sessionId ∧
      (claimed = true → db.prompt? sessionId = some (telegramUserId, none)) := by
  unfold claimPrompt at h
  rcases withCurrent_cases db sessionId telegramUserId clock.utcnow
    _ with ⟨reward, hr, huser, -, -, heq⟩ | ⟨⟨error, heq, -⟩, -⟩
  · rw [heq] at h
    split at h
    · cases h
      exact ⟨rfl, fun h => (by cases h)⟩
    · next hnone =>
        split at h
        · cases h
          exact ⟨rfl, fun h => (by cases h)⟩
        · obtain ⟨rfl, -⟩ := commitReward_ok h
          refine ⟨prompt?_updateReward fun _ => rfl, fun _ => ?_⟩
          have hprompt : reward.promptMessageId = none := by simpa using hnone
          simp [Db.prompt?, hr, huser, hprompt]
  · rw [heq] at h
    cases h

theorem resetPromptClaim_ok (h : resetPromptClaim db sessionId telegramUserId = .ok (db', ())) :
    db'.prompt? sessionId = db.prompt? sessionId := by
  unfold resetPromptClaim at h
  split at h
  · cases h
    rfl
  · split at h
    · cases h
      rfl
    · obtain ⟨rfl, -⟩ := commitReward_ok h
      exact prompt?_updateReward fun _ => rfl

/-- What `complete_prompt` does, for the owner of a session: it records the message, keeps another
one, fails in the database, or raises because the session has expired. -/
theorem completePrompt_cases (messageId : ℕ) (clock : Clock) {recorded : Option ℕ}
    (hprompt : db.prompt? sessionId = some (telegramUserId, recorded)) :
    ((∀ reward, db.rewardSessions.find? sessionId = some reward →
        reward.status ≠ .expired ∧ reward.isOverdue clock.utcnow = false) ∧
      ((recorded = none ∧ ∃ db',
        completePrompt db sessionId telegramUserId messageId clock = .ok (db', true) ∧
          db'.prompt? sessionId = some (telegramUserId, some messageId)) ∨
        (recorded.isSome ∧ completePrompt db sessionId telegramUserId messageId clock =
          .ok (db, recorded = some messageId)) ∨
        ∃ error, completePrompt db sessionId telegramUserId messageId clock =
          .error (.database error))) ∨
    ((¬ ∀ reward, db.rewardSessions.find? sessionId = some reward →
        reward.status ≠ .expired ∧ reward.isOverdue clock.utcnow = false) ∧
      ∃ error, completePrompt db sessionId telegramUserId messageId clock = .error error ∧
        ∀ e, error ≠ .database e) := by
  obtain ⟨reward, hr, heq⟩ := Option.map_eq_some_iff.1 hprompt
  obtain ⟨huser, hrecorded⟩ := Prod.mk.inj heq
  unfold completePrompt
  rcases withCurrent_cases db sessionId telegramUserId clock.utcnow
    _ with ⟨reward', hr', -, hexpired, hoverdue, heq⟩ | ⟨herror, hnot⟩
  · obtain rfl := Option.some.inj (hr.symm.trans hr')
    refine .inl ⟨fun r h => ?_, ?_⟩
    · obtain rfl := Option.some.inj (hr.symm.trans h)
      exact ⟨hexpired, hoverdue⟩
    · rw [heq]
      cases hmessage : reward.promptMessageId with
      -- a message has been recorded already: it is kept
      | some k =>
          rw [hmessage] at hrecorded
          refine .inr (.inl ⟨by rw [← hrecorded]; rfl, ?_⟩)
          rw [← hrecorded]
          simp
      | none =>
          dsimp only
          cases hcommit : (db.updateReward sessionId fun r =>
              { r with promptMessageId := some messageId, promptClaimedAt := none }).commitReward
                true with
          | ok result =>
              obtain ⟨db', told⟩ := result
              obtain ⟨rfl, rfl⟩ := commitReward_ok hcommit
              refine .inl ⟨hrecorded.symm.trans hmessage, _, rfl, ?_⟩
              refine (prompt?_updateReward ?_).trans ?_
              · exact fun _ => rfl
              · rw [hr]
                simp [huser]
          -- the commit can still be refused
          | error error =>
              rw [commitReward_error hcommit]
              exact .inr (.inr ⟨_, rfl⟩)
  · exact .inr ⟨fun h => hnot reward hr huser (h reward hr), herror⟩

end

namespace PromptWorld

/-! ### What a step does -/

/-- **What a step does** to the prompt, the chat and the handlers: nothing; a handler joins; one
goes on with the message it has, if any; one sends its message; its message is recorded, or deleted.
A message is left behind exactly when the step does not complete in time. -/
inductive Effect (inTime : Prop) (w w' : PromptWorld) : Prop
  | quiet (hin : inTime) (hprompt : w'.prompt? = w.prompt?) (hhandlers : w'.handlers = w.handlers)
      (hchat : w'.chat = w.chat) (hissued : w'.issued = w.issued)
  | joins (hin : inTime) (phase : PromptPhase) (hmessage : phase.message? = none)
      (hopen : phase.isOpen → w.prompt? = some (w.telegramUserId, none))
      (hprompt : w'.prompt? = w.prompt?) (hhandlers : w'.handlers = (w.join phase).handlers)
      (hchat : w'.chat = w.chat) (hissued : w'.issued = w.issued)
  | moves (h : PromptHandler) (phase : PromptPhase) (hraised : phase.isRaised = true ↔ ¬ inTime)
      (hh : w.handlers.find? h.id = some h) (hmessage : phase.message? = h.phase.message?)
      (hbefore : h.phase.isDeleted = false ∧ h.phase.isStored = false ∧ h.phase.isRaised = false)
      (hafter : phase.isDeleted = false ∧ phase.isStored = false) (hclosed : phase.isOpen = false)
      (hprompt : w'.prompt? = w.prompt?) (hhandlers : w'.handlers = (w.goTo h.id phase).handlers)
      (hchat : w'.chat = w.chat) (hissued : w'.issued = w.issued)
  | sends (hin : inTime) (h : PromptHandler) (messageId : ℕ) (hh : w.handlers.find? h.id = some h)
      (hphase : h.phase = .sending) (hnew : messageId ∉ w.issued) (hprompt : w'.prompt? = w.prompt?)
      (hhandlers : w'.handlers = (w.goTo h.id (.completing messageId)).handlers)
      (hchat : w'.chat = messageId :: w.chat) (hissued : w'.issued = messageId :: w.issued)
  | stores (hin : inTime) (h : PromptHandler) (messageId : ℕ) (hh : w.handlers.find? h.id = some h)
      (hphase : h.phase = .completing messageId) (hnone : w.prompt? = some (w.telegramUserId, none))
      (hprompt : w'.prompt? = some (w.telegramUserId, some messageId))
      (hhandlers : w'.handlers = (w.goTo h.id (.finished (.stored messageId))).handlers)
      (hchat : w'.chat = w.chat) (hissued : w'.issued = w.issued)
  | deletes (hin : inTime) (h : PromptHandler) (messageId : ℕ) (hh : w.handlers.find? h.id = some h)
      (hphase : h.phase = .deleting messageId) (hprompt : w'.prompt? = w.prompt?)
      (hhandlers : w'.handlers = (w.goTo h.id (.finished (.deleted messageId))).handlers)
      (hchat : w'.chat = w.chat.filter fun m => m ≠ messageId) (hissued : w'.issued = w.issued)

/-- The messages of the handlers: each has its own, which is in the chat until it is deleted; a
handler is told that its message is recorded exactly when it is. -/
structure Sound (w : PromptWorld) : Prop where
  issued : ∀ h ∈ w.handlers, ∀ m, h.phase.message? = some m → m ∈ w.issued
  chat : ∀ m ∈ w.chat, m ∈ w.issued
  recorded : ∀ m, w.recorded = some m → m ∈ w.chat
  distinct : ∀ h ∈ w.handlers, ∀ h' ∈ w.handlers, ∀ m,
    h.phase.message? = some m → h'.phase.message? = some m → h = h'
  told : ∀ h ∈ w.handlers, ∀ m, h.phase.message? = some m →
    (h.phase.isStored = true ↔ w.recorded = some m)
  present : ∀ h ∈ w.handlers, ∀ m, h.phase.message? = some m →
    (m ∈ w.chat ↔ h.phase.isDeleted = false)
  sender : ∀ m ∈ w.chat, w.recorded = some m ∨ ∃ h ∈ w.handlers, h.phase.message? = some m
  owned : ∀ h ∈ w.handlers, h.phase.isOpen → ∃ recorded, w.prompt? =
    some (w.telegramUserId, recorded)

variable {w w' : PromptWorld} {h x : PromptHandler} {phase : PromptPhase}

theorem mem_goTo (hh : w.handlers.find? h.id = some h) :
    x ∈ (w.goTo h.id phase).handlers ↔ (x ∈ w.handlers ∧ x.id ≠ h.id) ∨ x = ⟨h.id, phase⟩ := by
  have hmem := KeyedTable.mem_of_find? hh
  unfold goTo
  dsimp only
  rw [KeyedTable.mem_modifyAt]
  constructor
  · rintro (hx | ⟨y, hy, hid, rfl⟩)
    · exact .inl hx
    · rw [hid]
      exact .inr rfl
  · rintro (hx | rfl)
    · exact .inl hx
    · exact .inr ⟨h, hmem, rfl, rfl⟩

theorem mem_join :
    x ∈ (w.join phase).handlers ↔ x = ⟨w.handlers.freshKey, phase⟩ ∨ x ∈ w.handlers :=
  KeyedTable.mem_insert (KeyedTable.find?_freshKey _)

/-- A completion with the prompt of the session known. -/
theorem effect_complete (hw : w.Sound) (handlerId : ℕ) (clock : Clock) :
    Effect (w.CompletesInTime (.complete handlerId clock)) w (w.complete handlerId clock) := by
  unfold complete
  cases hh : w.handlers.find? handlerId with
  | none => exact .quiet (fun h _ hfind => by rw [hh] at hfind; cases hfind) rfl rfl rfl rfl
  | some h =>
      have hid : h.id = handlerId := KeyedTable.key_of_find? hh
      have hfind : w.handlers.find? h.id = some h := hid ▸ hh
      have hother : (∀ m, h.phase ≠ .completing m) →
          w.CompletesInTime (.complete handlerId clock) := by
        intro hne h' m hfind' hphase
        obtain rfl := Option.some.inj (hh.symm.trans hfind')
        exact absurd hphase (hne m)
      dsimp only
      split
      · next messageId hphase =>
          obtain ⟨recorded, hprompt⟩ :=
            hw.owned h (KeyedTable.mem_of_find? hh) (by rw [hphase]; rfl)
          have htime : w.CompletesInTime (.complete handlerId clock) ↔
              ∀ reward, w.db.rewardSessions.find? w.sessionId = some reward →
                reward.status ≠ .expired ∧ reward.isOverdue clock.utcnow = false := by
            constructor
            · exact fun hin => hin h messageId hh hphase
            · intro hin h' m hfind' _
              exact hin
          have hmessage : ∀ {phase : PromptPhase}, phase.message? = some messageId →
              phase.message? = h.phase.message? := by
            intro phase hphase'
            rw [hphase', hphase]
            rfl
          have hbefore : h.phase.isDeleted = false ∧ h.phase.isStored = false ∧
              h.phase.isRaised = false := by
            rw [hphase]
            exact ⟨rfl, rfl, rfl⟩
          rcases completePrompt_cases messageId clock hprompt with
            ⟨hin, ⟨rfl, db', hok, hprompt'⟩ | ⟨hsome, hok⟩ | ⟨error, herror⟩⟩ | ⟨hlate, error,
              herror, hne⟩
          · rw [hok, ← hid]
            rw [← hid] at htime
            exact .stores (htime.2 hin) h messageId hfind hphase hprompt hprompt' rfl rfl rfl
          · have hnot : recorded ≠ some messageId := by
              intro heq
              have htold :=
                (hw.told h (KeyedTable.mem_of_find? hh) messageId (by rw [hphase]; rfl)).2
                (by rw [PromptWorld.recorded, hprompt, heq]; rfl)
              rw [hphase] at htold
              cases htold
            rw [hok, decide_eq_false hnot, ← hid]
            rw [← hid] at htime
            exact .moves h (.deleting messageId)
              (iff_of_false Bool.false_ne_true (not_not.2 (htime.2 hin))) hfind
              (hmessage rfl) hbefore ⟨rfl, rfl⟩ rfl rfl rfl rfl rfl
          · rw [herror, ← hid]
            rw [← hid] at htime
            exact .moves h (.deleting messageId)
              (iff_of_false Bool.false_ne_true (not_not.2 (htime.2 hin))) hfind
              (hmessage rfl) hbefore ⟨rfl, rfl⟩ rfl rfl rfl rfl rfl
          · rw [herror, ← hid]
            rw [← hid] at htime
            cases error with
            | database e => exact absurd rfl (hne e)
            | _ =>
                exact .moves h (.finished (.raised messageId))
                  (iff_of_true rfl fun hin => hlate (htime.1 hin)) hfind
                  (hmessage rfl) hbefore ⟨rfl, rfl⟩ rfl rfl rfl rfl rfl
      · next hne => exact .quiet (hother hne) rfl rfl rfl rfl

/-- **What a step does.** -/
theorem Sound.effect (hw : w.Sound) (event : PromptEvent) :
    Effect (w.CompletesInTime event) w (w.step event) := by
  cases event with
  | claim clock =>
      simp only [step, claim]
      split
      · next db hok =>
          obtain ⟨hprompt, hnone⟩ := claimPrompt_ok hok
          exact .joins trivial .sending rfl (fun _ => hnone rfl) hprompt rfl rfl rfl
      · next db hok =>
          exact .joins trivial (.finished .busy) rfl (fun h => (by cases h)) (claimPrompt_ok hok).1
            rfl rfl rfl
      · next error _ =>
          exact .joins trivial (.finished (.refused error)) rfl (fun h => (by cases h)) rfl rfl rfl
            rfl
  | send handlerId answer =>
      simp only [step, send]
      cases hh : w.handlers.find? handlerId with
      | none => exact .quiet trivial rfl rfl rfl rfl
      | some h =>
          obtain rfl : h.id = handlerId := KeyedTable.key_of_find? hh
          dsimp only
          split
          · -- the handler is not sending: the answer is for nobody
            exact .quiet trivial rfl rfl rfl rfl
          · next hphase =>
              have hphase : h.phase = .sending := by simpa using hphase
              cases answer with
              | failed =>
                  exact .moves h .resetting (iff_of_false Bool.false_ne_true (not_not.2 trivial))
                    hh (by rw [hphase]; rfl)
                    (by rw [hphase]; exact ⟨rfl, rfl, rfl⟩) ⟨rfl, rfl⟩ rfl rfl rfl rfl rfl
              | sent messageId =>
                  dsimp only
                  split
                  · exact .quiet trivial rfl rfl rfl rfl
                  · next hnew => exact .sends trivial h messageId hh hphase hnew rfl rfl rfl rfl
  | complete handlerId clock => exact effect_complete hw handlerId clock
  | reset handlerId =>
      simp only [step, reset]
      cases hh : w.handlers.find? handlerId with
      | none => exact .quiet trivial rfl rfl rfl rfl
      | some h =>
          obtain rfl : h.id = handlerId := KeyedTable.key_of_find? hh
          dsimp only
          split
          · exact .quiet trivial rfl rfl rfl rfl
          · next hphase =>
              have hphase : h.phase = .resetting := by simpa using hphase
              split
              · next db hok =>
                  exact .moves h (.finished .sendFailed)
                    (iff_of_false Bool.false_ne_true (not_not.2 trivial)) hh
                    (by rw [hphase]; rfl) (by rw [hphase]; exact ⟨rfl, rfl, rfl⟩) ⟨rfl, rfl⟩ rfl
                    (resetPromptClaim_ok hok) rfl rfl rfl
              · exact .moves h (.finished .sendFailed)
                  (iff_of_false Bool.false_ne_true (not_not.2 trivial)) hh
                  (by rw [hphase]; rfl) (by rw [hphase]; exact ⟨rfl, rfl, rfl⟩) ⟨rfl, rfl⟩ rfl rfl
                    rfl rfl rfl
  | delete handlerId =>
      simp only [step, delete]
      cases hh : w.handlers.find? handlerId with
      | none => exact .quiet trivial rfl rfl rfl rfl
      | some h =>
          obtain rfl : h.id = handlerId := KeyedTable.key_of_find? hh
          dsimp only
          split
          · next messageId hphase => exact .deletes trivial h messageId hh hphase rfl rfl rfl rfl
          · exact .quiet trivial rfl rfl rfl rfl
  -- other transactions count only when they leave the prompt of the session
  | other db =>
      simp only [step]
      split
      · next hprompt => exact .quiet trivial hprompt rfl rfl rfl
      · exact .quiet trivial rfl rfl rfl rfl

/-! ### Runs -/

theorem recorded_congr (h : w'.prompt? = w.prompt?) : w'.recorded = w.recorded := by
  unfold recorded
  rw [h]

@[simp] theorem telegramUserId_step (w : PromptWorld) (event : PromptEvent) :
    (w.step event).telegramUserId = w.telegramUserId := by
  cases event with
  | claim clock =>
      simp only [step, claim]
      split <;> rfl
  | send handlerId answer =>
      simp only [step, send]
      split
      · rfl
      · split
        · rfl
        · split
          · rfl
          · split <;> rfl
  | complete handlerId clock =>
      simp only [step, complete]
      split
      · rfl
      · split
        · split <;> rfl
        · rfl
  | reset handlerId =>
      simp only [step, reset]
      split
      · rfl
      · split
        · rfl
        · split <;> rfl
  | delete handlerId =>
      simp only [step, delete]
      split
      · rfl
      · split <;> rfl
  | other db =>
      simp only [step]
      split <;> rfl

/-- A handler that goes on with the message it has. -/
theorem Sound.of_goTo (hw : w.Sound) (hh : w.handlers.find? h.id = some h)
    (hmessage : phase.message? = h.phase.message?)
    (hhandlers : w'.handlers = (w.goTo h.id phase).handlers)
    (hissued : w'.issued = w.issued) (hchat : ∀ m ∈ w'.chat, m ∈ w.chat)
    (hrecorded : ∀ m, w'.recorded = some m → m ∈ w'.chat)
    (hpresent : ∀ m, phase.message? = some m → (m ∈ w'.chat ↔ phase.isDeleted = false))
    (hothers : ∀ x ∈ w.handlers, x.id ≠ h.id → ∀ m, x.phase.message? = some m →
      (m ∈ w'.chat ↔ m ∈ w.chat) ∧ (w'.recorded = some m ↔ w.recorded = some m))
    (htold : ∀ m, phase.message? = some m → (phase.isStored = true ↔ w'.recorded = some m))
    (hsender : ∀ m, w.recorded = some m → w'.recorded = some m)
    (howned : ∀ user recorded, w.prompt? = some (user, recorded) →
      ∃ recorded, w'.prompt? = some (user, recorded))
    (huser : w'.telegramUserId = w.telegramUserId) (hopen : phase.isOpen → h.phase.isOpen) :
    w'.Sound := by
  have hmem := KeyedTable.mem_of_find? hh
  have hcases : ∀ x, x ∈ w'.handlers ↔ (x ∈ w.handlers ∧ x.id ≠ h.id) ∨ x = ⟨h.id, phase⟩ := by
    intro x
    rw [hhandlers]
    exact mem_goTo hh
  have hmine : ∀ m, phase.message? = some m → h.phase.message? = some m := fun m hm => hmessage ▸ hm
  refine ⟨?_, ?_, hrecorded, ?_, ?_, ?_, ?_, ?_⟩
  · intro x hx m hm
    rw [hissued]
    rcases (hcases x).1 hx with ⟨hx, -⟩ | rfl
    · exact hw.issued x hx m hm
    · exact hw.issued h hmem m (hmine m hm)
  · intro m hm
    rw [hissued]
    exact hw.chat m (hchat m hm)
  · -- a message of the moved handler was a message of it before
    intro x hx y hy m hxm hym
    rcases (hcases x).1 hx with ⟨hx, hxid⟩ | rfl
    · rcases (hcases y).1 hy with ⟨hy, -⟩ | rfl
      · exact hw.distinct x hx y hy m hxm hym
      · exact absurd (congrArg PromptHandler.id (hw.distinct x hx h hmem m hxm (hmine m hym))) hxid
    · rcases (hcases y).1 hy with ⟨hy, hyid⟩ | rfl
      · exact absurd (congrArg PromptHandler.id (hw.distinct y hy h hmem m hym (hmine m hxm))) hyid
      · rfl
  · intro x hx m hm
    rcases (hcases x).1 hx with ⟨hx, hxid⟩ | rfl
    · rw [hw.told x hx m hm, (hothers x hx hxid m hm).2]
    · exact htold m hm
  · intro x hx m hm
    rcases (hcases x).1 hx with ⟨hx, hxid⟩ | rfl
    · rw [(hothers x hx hxid m hm).1, hw.present x hx m hm]
    · exact hpresent m hm
  · intro m hm
    rcases hw.sender m (hchat m hm) with hrec | ⟨x, hx, hxm⟩
    · exact .inl (hsender m hrec)
    · -- the sender of the message may be the handler that moves
      by_cases hid : x.id = h.id
      · obtain rfl := w.handlers.ext_key hx hmem hid
        exact .inr ⟨⟨x.id, phase⟩, (hcases _).2 (.inr rfl), hmessage.trans hxm⟩
      · exact .inr ⟨x, (hcases x).2 (.inl ⟨hx, hid⟩), hxm⟩
  · intro x hx hxopen
    rw [huser]
    have hbefore : ∃ recorded, w.prompt? = some (w.telegramUserId, recorded) := by
      rcases (hcases x).1 hx with ⟨hx, -⟩ | rfl
      · exact hw.owned x hx hxopen
      · exact hw.owned h hmem (hopen hxopen)
    obtain ⟨recorded, hprompt⟩ := hbefore
    exact howned _ _ hprompt

/-- A step that changes nothing here. -/
theorem Sound.quiet (hw : w.Sound) (huser : w'.telegramUserId = w.telegramUserId)
    (hprompt : w'.prompt? = w.prompt?) (hhandlers : w'.handlers = w.handlers)
    (hchat : w'.chat = w.chat) (hissued : w'.issued = w.issued) : w'.Sound := by
  have hrecorded := recorded_congr hprompt
  constructor
  · simpa only [hhandlers, hissued] using hw.issued
  · simpa only [hchat, hissued] using hw.chat
  · simpa only [hrecorded, hchat] using hw.recorded
  · simpa only [hhandlers] using hw.distinct
  · simpa only [hhandlers, hrecorded] using hw.told
  · simpa only [hhandlers, hchat] using hw.present
  · simpa only [hhandlers, hchat, hrecorded] using hw.sender
  · simpa only [hhandlers, hprompt, huser] using hw.owned

/-- A handler joins without a message. -/
theorem Sound.joins (hw : w.Sound) (huser : w'.telegramUserId = w.telegramUserId)
    (hmessage : phase.message? = none)
    (hopen : phase.isOpen → w.prompt? = some (w.telegramUserId, none))
    (hprompt : w'.prompt? = w.prompt?) (hhandlers : w'.handlers = (w.join phase).handlers)
    (hchat : w'.chat = w.chat) (hissued : w'.issued = w.issued) : w'.Sound := by
  have hrecorded := recorded_congr hprompt
  have hcases : ∀ x ∈ w'.handlers, x = ⟨w.handlers.freshKey, phase⟩ ∨ x ∈ w.handlers := by
    intro x hx
    rw [hhandlers] at hx
    exact mem_join.1 hx
  -- the new handler has no message
  have hold : ∀ x ∈ w'.handlers, ∀ m, x.phase.message? = some m → x ∈ w.handlers := by
    intro x hx m hm
    rcases hcases x hx with rfl | hx
    · rw [hmessage] at hm
      cases hm
    · exact hx
  refine ⟨?_, ?_, ?_, ?_, ?_, ?_, ?_, ?_⟩ <;>
    try simp only [hchat, hissued, hrecorded, hprompt, huser]
  · exact fun x hx m hm => hw.issued x (hold x hx m hm) m hm
  · exact hw.chat
  · exact hw.recorded
  · exact fun x hx y hy m hxm hym => hw.distinct x (hold x hx m hxm) y (hold y hy m hym) m hxm hym
  · exact fun x hx m hm => hw.told x (hold x hx m hm) m hm
  · exact fun x hx m hm => hw.present x (hold x hx m hm) m hm
  · intro m hm
    rcases hw.sender m hm with hrec | ⟨x, hx, hxm⟩
    · exact .inl hrec
    · refine .inr ⟨x, ?_, hxm⟩
      rw [hhandlers]
      exact mem_join.2 (.inr hx)
  · intro x hx hxopen
    rcases hcases x hx with rfl | hx
    · exact ⟨none, hopen hxopen⟩
    · exact hw.owned x hx hxopen

/-- A handler goes on with the message it has, if any. -/
theorem Sound.moves (hw : w.Sound) (huser : w'.telegramUserId = w.telegramUserId)
    (hh : w.handlers.find? h.id = some h) (hmessage : phase.message? = h.phase.message?)
    (hbefore : h.phase.isDeleted = false ∧ h.phase.isStored = false)
    (hafter : phase.isDeleted = false ∧ phase.isStored = false) (hclosed : phase.isOpen = false)
    (hprompt : w'.prompt? = w.prompt?) (hhandlers : w'.handlers = (w.goTo h.id phase).handlers)
    (hchat : w'.chat = w.chat) (hissued : w'.issued = w.issued) : w'.Sound := by
  have hrecorded := recorded_congr hprompt
  have hmem := KeyedTable.mem_of_find? hh
  refine hw.of_goTo hh hmessage hhandlers hissued ?_ ?_ ?_ ?_ ?_ ?_ ?_ huser ?_ <;>
    try simp only [hchat, hrecorded, hprompt]
  · exact fun m hm => hm
  · exact hw.recorded
  · intro m hm
    rw [hafter.1, hw.present h hmem m (hmessage ▸ hm), hbefore.1]
  · exact fun x _ _ m _ => ⟨trivial, trivial⟩
  · intro m hm
    rw [hafter.2, ← hw.told h hmem m (hmessage ▸ hm), hbefore.2]
  · exact fun m hm => hm
  · exact fun user recorded hp => ⟨recorded, hp⟩
  · intro hopen
    rw [hclosed] at hopen
    cases hopen

/-- The message of a handler is recorded. -/
theorem Sound.stores (hw : w.Sound) (huser : w'.telegramUserId = w.telegramUserId)
    {messageId : ℕ} (hh : w.handlers.find? h.id = some h) (hphase : h.phase = .completing messageId)
    (hnone : w.prompt? = some (w.telegramUserId, none))
    (hprompt : w'.prompt? = some (w.telegramUserId, some messageId))
    (hhandlers : w'.handlers = (w.goTo h.id (.finished (.stored messageId))).handlers)
    (hchat : w'.chat = w.chat) (hissued : w'.issued = w.issued) : w'.Sound := by
  have hmem := KeyedTable.mem_of_find? hh
  have hmine : h.phase.message? = some messageId := by rw [hphase]; rfl
  have hrecorded : w.recorded = none := by
    unfold PromptWorld.recorded
    rw [hnone]
    rfl
  have hrecorded' : w'.recorded = some messageId := by
    unfold PromptWorld.recorded
    rw [hprompt]
    rfl
  have hinChat : messageId ∈ w.chat := (hw.present h hmem messageId hmine).2 (by rw [hphase]; rfl)
  have hmessage : PromptPhase.message? (.finished (.stored messageId)) = h.phase.message? :=
    hmine.symm
  refine hw.of_goTo hh hmessage hhandlers hissued ?_ ?_ ?_ ?_ ?_ ?_ ?_ huser fun h => (by cases h)
  · rw [hchat]
    exact fun m hm => hm
  · intro m hm
    rw [hchat, ← Option.some.inj (hrecorded'.symm.trans hm)]
    exact hinChat
  · intro m hm
    rw [hchat, ← Option.some.inj hm]
    exact iff_of_true hinChat rfl
  · intro x hx hid m hm
    refine ⟨by rw [hchat], ?_⟩
    rw [hrecorded, hrecorded']
    refine iff_of_false (fun heq => ?_) (by simp)
    -- no other handler has this message
    rw [← Option.some.inj heq] at hm
    exact hid (congrArg PromptHandler.id (hw.distinct x hx h hmem messageId hm hmine))
  · intro m hm
    rw [hrecorded']
    exact iff_of_true rfl hm
  · intro m hm
    rw [hrecorded] at hm
    cases hm
  · intro user recorded hp
    rw [hnone] at hp
    obtain ⟨rfl, -⟩ := Prod.mk.inj (Option.some.inj hp)
    exact ⟨_, hprompt⟩

/-- The message of a handler is deleted. -/
theorem Sound.deletes (hw : w.Sound) (huser : w'.telegramUserId = w.telegramUserId)
    {messageId : ℕ} (hh : w.handlers.find? h.id = some h) (hphase : h.phase = .deleting messageId)
    (hprompt : w'.prompt? = w.prompt?)
    (hhandlers : w'.handlers = (w.goTo h.id (.finished (.deleted messageId))).handlers)
    (hchat : w'.chat = w.chat.filter fun m => m ≠ messageId) (hissued : w'.issued = w.issued) :
    w'.Sound := by
  have hrecorded := recorded_congr hprompt
  have hmem := KeyedTable.mem_of_find? hh
  have hmine : h.phase.message? = some messageId := by rw [hphase]; rfl
  have hchat' : ∀ m, m ∈ w'.chat ↔ m ∈ w.chat ∧ m ≠ messageId := by
    intro m
    rw [hchat]
    simp
  -- a handler deletes its message only when another one has been recorded
  have hnot : w.recorded ≠ some messageId := by
    intro heq
    have htold := (hw.told h hmem messageId hmine).2 heq
    rw [hphase] at htold
    cases htold
  have hmessage : PromptPhase.message? (.finished (.deleted messageId)) = h.phase.message? :=
    hmine.symm
  refine hw.of_goTo hh hmessage hhandlers hissued ?_ ?_ ?_ ?_ ?_ ?_ ?_ huser fun h => (by cases h)
  · exact fun m hm => ((hchat' m).1 hm).1
  · intro m hm
    rw [hrecorded] at hm
    refine (hchat' m).2 ⟨hw.recorded m hm, ?_⟩
    rintro rfl
    exact hnot hm
  · intro m hm
    rw [hchat' m, ← Option.some.inj hm]
    exact iff_of_false (fun h => h.2 rfl) (by simp [PromptPhase.isDeleted])
  · intro x hx hid m hm
    rw [hchat' m, hrecorded]
    refine ⟨and_iff_left fun heq => ?_, Iff.rfl⟩
    rw [heq] at hm
    exact hid (congrArg PromptHandler.id (hw.distinct x hx h hmem messageId hm hmine))
  · intro m hm
    rw [hrecorded, ← Option.some.inj hm]
    exact iff_of_false Bool.false_ne_true hnot
  · intro m hm
    rw [hrecorded]
    exact hm
  · intro user recorded hp
    exact ⟨recorded, hprompt.trans hp⟩

/-- A handler sends a new message. -/
theorem Sound.sends (hw : w.Sound) (huser : w'.telegramUserId = w.telegramUserId)
    {messageId : ℕ} (hh : w.handlers.find? h.id = some h) (hphase : h.phase = .sending)
    (hnew : messageId ∉ w.issued) (hprompt : w'.prompt? = w.prompt?)
    (hhandlers : w'.handlers = (w.goTo h.id (.completing messageId)).handlers)
    (hchat : w'.chat = messageId :: w.chat) (hissued : w'.issued = messageId :: w.issued) :
    w'.Sound := by
  have hrecorded := recorded_congr hprompt
  have hmem := KeyedTable.mem_of_find? hh
  have hnone : h.phase.message? = none := by rw [hphase]; rfl
  have hnotRecorded : w.recorded ≠ some messageId := fun heq => hnew (hw.chat _ (hw.recorded _ heq))
  have hold : ∀ x ∈ w.handlers, ∀ m, x.phase.message? = some m → m ≠ messageId := by
    rintro x hx m hm rfl
    exact hnew (hw.issued x hx m hm)
  have hcases : ∀ x ∈ w'.handlers, (x ∈ w.handlers ∧ x.id ≠ h.id) ∨
      x = ⟨h.id, .completing messageId⟩ := by
    intro x hx
    rw [hhandlers] at hx
    exact (mem_goTo hh).1 hx
  refine ⟨?_, ?_, ?_, ?_, ?_, ?_, ?_, ?_⟩ <;>
    try simp only [hchat, hissued, hrecorded, hprompt, huser]
  · intro x hx m hm
    rcases hcases x hx with ⟨hx, -⟩ | rfl
    · exact List.mem_cons_of_mem _ (hw.issued x hx m hm)
    · rw [← Option.some.inj hm]
      exact List.mem_cons_self
  · intro m hm
    rcases List.mem_cons.1 hm with rfl | hm
    · exact List.mem_cons_self
    · exact List.mem_cons_of_mem _ (hw.chat m hm)
  · exact fun m hm => List.mem_cons_of_mem _ (hw.recorded m hm)
  · intro x hx y hy m hxm hym
    rcases hcases x hx with ⟨hx, -⟩ | rfl
    · rcases hcases y hy with ⟨hy, -⟩ | rfl
      · exact hw.distinct x hx y hy m hxm hym
      · exact absurd (Option.some.inj hym).symm (hold x hx m hxm)
    · rcases hcases y hy with ⟨hy, -⟩ | rfl
      · exact absurd (Option.some.inj hxm).symm (hold y hy m hym)
      · rfl
  · intro x hx m hm
    rcases hcases x hx with ⟨hx, -⟩ | rfl
    · exact hw.told x hx m hm
    · rw [← Option.some.inj hm]
      exact iff_of_false Bool.false_ne_true hnotRecorded
  · intro x hx m hm
    rcases hcases x hx with ⟨hx, -⟩ | rfl
    · rw [List.mem_cons, or_iff_right (hold x hx m hm)]
      exact hw.present x hx m hm
    · rw [← Option.some.inj hm]
      exact iff_of_true List.mem_cons_self rfl
  · intro m hm
    rcases List.mem_cons.1 hm with rfl | hm
    · refine .inr ⟨⟨h.id, .completing m⟩, ?_, rfl⟩
      rw [hhandlers]
      exact (mem_goTo hh).2 (.inr rfl)
    · rcases hw.sender m hm with hrec | ⟨x, hx, hxm⟩
      · exact .inl hrec
      · refine .inr ⟨x, ?_, hxm⟩
        rw [hhandlers]
        refine (mem_goTo hh).2 (.inl ⟨hx, fun hid => ?_⟩)
        rw [w.handlers.ext_key hx hmem hid, hnone] at hxm
        cases hxm
  · intro x hx hxopen
    rcases hcases x hx with ⟨hx, -⟩ | rfl
    · exact hw.owned x hx hxopen
    · exact hw.owned h hmem (by rw [hphase]; rfl)

/-- **Every step keeps the invariant.** -/
theorem Sound.of_effect (hw : w.Sound) {inTime : Prop}
    (huser : w'.telegramUserId = w.telegramUserId) (heffect : Effect inTime w w') : w'.Sound := by
  cases heffect with
  | quiet _ hprompt hhandlers hchat hissued =>
      exact hw.quiet huser hprompt hhandlers hchat hissued
  | joins _ phase hmessage hopen hprompt hhandlers hchat hissued =>
      exact hw.joins huser hmessage hopen hprompt hhandlers hchat hissued
  | moves h phase _ hh hmessage hbefore hafter hclosed hprompt hhandlers hchat hissued =>
      exact hw.moves huser hh hmessage ⟨hbefore.1, hbefore.2.1⟩ hafter hclosed hprompt hhandlers
        hchat hissued
  | stores _ h messageId hh hphase hnone hprompt hhandlers hchat hissued =>
      exact hw.stores huser hh hphase hnone hprompt hhandlers hchat hissued
  | deletes _ h messageId hh hphase hprompt hhandlers hchat hissued =>
      exact hw.deletes huser hh hphase hprompt hhandlers hchat hissued
  | sends _ h messageId hh hphase hnew hprompt hhandlers hchat hissued =>
      exact hw.sends huser hh hphase hnew hprompt hhandlers hchat hissued

theorem Sound.step (hw : w.Sound) (event : PromptEvent) : (w.step event).Sound :=
  hw.of_effect (telegramUserId_step w event) (hw.effect event)

theorem sound_initial (db : Db) (sessionId : ℕ) (telegramUserId : ℤ) :
    (initial db sessionId telegramUserId).Sound := by
  have hrecorded : ∀ m, (initial db sessionId telegramUserId).recorded = some m ↔
      m ∈ (initial db sessionId telegramUserId).chat := by
    intro m
    exact Option.mem_toList.symm
  exact ⟨fun _ h => (by cases h), fun _ h => h, fun m => (hrecorded m).1, fun _ h => (by cases h),
    fun _ h => (by cases h), fun _ h => (by cases h), fun m hm => .inl ((hrecorded m).2 hm),
    fun _ h => (by cases h)⟩

/-! ### Messages that are left behind -/

/-- No handler has left its message behind. -/
def NoneLeft (w : PromptWorld) : Prop := ∀ h ∈ w.handlers, h.phase.isRaised = false

/-- **A step leaves no message behind exactly when it completes in time**, and what is left behind
stays. -/
theorem Effect.noneLeft_iff {inTime : Prop} (heffect : Effect inTime w w') :
    w'.NoneLeft ↔ w.NoneLeft ∧ inTime := by
  -- a handler that goes on, and has left nothing behind before
  have hgoTo : ∀ {h : PromptHandler} {phase : PromptPhase}, w.handlers.find? h.id = some h →
      h.phase.isRaised = false → w'.handlers = (w.goTo h.id phase).handlers →
        (w'.NoneLeft ↔ w.NoneLeft ∧ phase.isRaised = false) := by
    intro h phase hh hbefore hhandlers
    unfold NoneLeft
    rw [hhandlers]
    constructor
    · intro hnone
      refine ⟨fun x hx => ?_, hnone ⟨h.id, phase⟩ ((mem_goTo hh).2 (.inr rfl))⟩
      by_cases hid : x.id = h.id
      · rw [w.handlers.ext_key hx (KeyedTable.mem_of_find? hh) hid]
        exact hbefore
      · exact hnone x ((mem_goTo hh).2 (.inl ⟨hx, hid⟩))
    · rintro ⟨hnone, hphase⟩ x hx
      rcases (mem_goTo hh).1 hx with ⟨hx, -⟩ | rfl
      · exact hnone x hx
      · exact hphase
  cases heffect with
  | quiet hin _ hhandlers _ _ =>
      unfold NoneLeft
      rw [hhandlers, and_iff_left hin]
  | joins hin phase hmessage _ _ hhandlers _ _ =>
      have hphase : phase.isRaised = false := by
        cases phase with
        | finished result =>
            cases result with
            | raised m => cases hmessage
            | _ => rfl
        | _ => rfl
      unfold NoneLeft
      rw [hhandlers, and_iff_left hin]
      constructor
      · exact fun hnone x hx => hnone x (mem_join.2 (.inr hx))
      · intro hnone x hx
        rcases mem_join.1 hx with rfl | hx
        · exact hphase
        · exact hnone x hx
  | moves h phase hraised hh _ hbefore _ _ _ hhandlers _ _ =>
      rw [hgoTo hh hbefore.2.2 hhandlers, ← Bool.not_eq_true, hraised, not_not]
  | sends hin h messageId hh hphase _ _ hhandlers _ _ =>
      rw [hgoTo hh (by rw [hphase]; rfl) hhandlers, and_iff_left hin]
      exact and_iff_left rfl
  | stores hin h messageId hh hphase _ _ hhandlers _ _ =>
      rw [hgoTo hh (by rw [hphase]; rfl) hhandlers, and_iff_left hin]
      exact and_iff_left rfl
  | deletes hin h messageId hh hphase _ hhandlers _ _ =>
      rw [hgoTo hh (by rw [hphase]; rfl) hhandlers, and_iff_left hin]
      exact and_iff_left rfl

/-- A recorded prompt stays. -/
theorem Effect.recorded {inTime : Prop} (heffect : Effect inTime w w') {m : ℕ}
    (h : w.recorded = some m) :
    w'.recorded = some m := by
  cases heffect with
  | stores _ _ _ _ _ hnone =>
      unfold PromptWorld.recorded at h
      rw [hnone] at h
      cases h
  | quiet _ hprompt => rw [recorded_congr hprompt, h]
  | joins _ _ _ _ hprompt => rw [recorded_congr hprompt, h]
  | moves _ _ _ _ _ _ _ _ hprompt => rw [recorded_congr hprompt, h]
  | sends _ _ _ _ _ _ hprompt => rw [recorded_congr hprompt, h]
  | deletes _ _ _ _ _ hprompt => rw [recorded_congr hprompt, h]

/-- Along a run of an invariant, nothing is left behind exactly when every completion is in time. -/
theorem Sound.noneLeft_run_iff (hw : w.Sound) (hnone : w.NoneLeft) (events : List PromptEvent) :
    (Transition.run PromptWorld.step w events).NoneLeft ↔
      Transition.Along PromptWorld.step CompletesInTime w events := by
  induction events using List.reverseRecOn with
  | nil => simpa using hnone
  | append_singleton events event ih =>
      have hrun : (Transition.run PromptWorld.step w events).Sound :=
        Transition.run_invariant (fun _ event hw => hw.step event) hw events
      rw [Transition.run_snoc, Transition.along_snoc, (hrun.effect event).noneLeft_iff, ih]

/-! ### One prompt -/

/-- When the step leaves the recorded prompt as it is, so does the handler that is told of it. -/
theorem Effect.writer {inTime : Prop} (heffect : Effect inTime w w') {start : Option ℕ}
    (hwriter : w.recorded = start ∨ ∃ h ∈ w.handlers, ∃ m, h.phase = .finished (.stored m) ∧
      w.recorded = some m) :
    w'.recorded = start ∨
      ∃ h ∈ w'.handlers, ∃ m, h.phase = .finished (.stored m) ∧ w'.recorded = some m := by
  -- the handler that goes on is not the one that was told
  have hgoTo : ∀ {h : PromptHandler} {phase : PromptPhase}, w.handlers.find? h.id = some h →
      h.phase.isStored = false → w'.recorded = w.recorded →
        w'.handlers = (w.goTo h.id phase).handlers →
        w'.recorded = start ∨ ∃ h ∈ w'.handlers, ∃ m, h.phase = .finished (.stored m) ∧
          w'.recorded = some m := by
    intro h phase hh hbefore hrecorded hhandlers
    rw [hrecorded, hhandlers]
    refine hwriter.imp_right ?_
    rintro ⟨x, hx, m, hphase, hm⟩
    refine ⟨x, (mem_goTo hh).2 (.inl ⟨hx, fun hid => ?_⟩), m, hphase, hm⟩
    rw [← w.handlers.ext_key hx (KeyedTable.mem_of_find? hh) hid, hphase] at hbefore
    cases hbefore
  cases heffect with
  | quiet _ hprompt hhandlers _ _ =>
      rw [recorded_congr hprompt, hhandlers]
      exact hwriter
  | joins _ phase _ _ hprompt hhandlers _ _ =>
      rw [recorded_congr hprompt, hhandlers]
      refine hwriter.imp_right ?_
      rintro ⟨x, hx, hstored⟩
      exact ⟨x, mem_join.2 (.inr hx), hstored⟩
  | moves h phase _ hh _ hbefore _ _ hprompt hhandlers _ _ =>
      exact hgoTo hh hbefore.2.1 (recorded_congr hprompt) hhandlers
  | sends _ h messageId hh hphase _ hprompt hhandlers _ _ =>
      exact hgoTo hh (by rw [hphase]; rfl) (recorded_congr hprompt) hhandlers
  | deletes _ h messageId hh hphase hprompt hhandlers _ _ =>
      exact hgoTo hh (by rw [hphase]; rfl) (recorded_congr hprompt) hhandlers
  | stores _ h messageId hh _ _ hprompt hhandlers _ _ =>
      refine .inr ⟨⟨h.id, .finished (.stored messageId)⟩, ?_, messageId, rfl, ?_⟩
      · rw [hhandlers]
        exact (mem_goTo hh).2 (.inr rfl)
      · rw [PromptWorld.recorded, hprompt]
        rfl

/-- What the handlers are told, when `start` was recorded before them: a handler is told that its
message is recorded exactly when it is, and a prompt that is written is the message of a handler. -/
structure Tells (start : Option ℕ) (w : PromptWorld) : Prop where
  told : ∀ h ∈ w.handlers, ∀ m, h.phase.message? = some m →
    (h.phase = .finished (.stored m) ↔ w.recorded = some m)
  distinct : ∀ h ∈ w.handlers, ∀ h' ∈ w.handlers, ∀ m,
    h.phase.message? = some m → h'.phase.message? = some m → h = h'
  writer : w.recorded = start ∨
    ∃ h ∈ w.handlers, ∃ m, h.phase = .finished (.stored m) ∧ w.recorded = some m

/-- Every handler has ended. -/
def AllFinished (w : PromptWorld) : Prop := ∀ h ∈ w.handlers, h.phase.isFinished = true

/-- The prompt in the chat is the recorded one, if any. -/
def OneLeft (w : PromptWorld) : Prop := ∀ m, m ∈ w.chat ↔ w.recorded = some m

/-- A phase that is told of a message has that message. -/
theorem eq_stored_iff {m : ℕ} (hm : phase.message? = some m) :
    phase = .finished (.stored m) ↔ phase.isStored = true := by
  constructor
  · rintro rfl
    rfl
  · intro hstored
    cases phase with
    | finished result =>
        cases result with
        | stored k => rw [Option.some.inj hm]
        | _ => cases hstored
    | _ => cases hstored

/-- A message of a handler that has ended is recorded, deleted or left behind. -/
theorem isRaised_iff {m : ℕ} (hm : phase.message? = some m) (hfinished : phase.isFinished = true) :
    phase.isRaised = true ↔ ¬ (phase.isStored = true ∨ phase.isDeleted = true) := by
  cases phase with
  | finished result =>
      cases result with
      | stored k => exact iff_of_false Bool.false_ne_true (not_not.2 (.inl rfl))
      | deleted k => exact iff_of_false Bool.false_ne_true (not_not.2 (.inr rfl))
      | raised k => exact iff_of_true rfl (not_or.2 ⟨Bool.false_ne_true, Bool.false_ne_true⟩)
      | _ => cases hm
  | _ => cases hfinished

/-- **When every handler has ended, one prompt is left exactly when none was left behind.** -/
theorem Sound.oneLeft_iff (hw : w.Sound) (hfinished : w.AllFinished) : w.OneLeft ↔ w.NoneLeft := by
  constructor
  · intro hone h hh
    cases hm : h.phase.message? with
    | none =>
        cases hphase : h.phase with
        | finished result => cases result <;> first | rfl | (rw [hphase] at hm; cases hm)
        | _ => rfl
    | some m =>
        rw [← Bool.not_eq_true, isRaised_iff hm (hfinished h hh), not_not, hw.told h hh m hm,
          ← hone m, hw.present h hh m hm]
        cases h.phase.isDeleted <;> simp
  · intro hnone m
    refine ⟨fun hchat => ?_, hw.recorded m⟩
    rcases hw.sender m hchat with hrec | ⟨h, hh, hm⟩
    · exact hrec
    · have hraised := hnone h hh
      rw [← Bool.not_eq_true, isRaised_iff hm (hfinished h hh), not_not,
        (hw.present h hh m hm).1 hchat] at hraised
      exact (hw.told h hh m hm).1 (hraised.resolve_right Bool.false_ne_true)

variable (db : Db) (sessionId : ℕ) (telegramUserId : ℤ)

/-- The state after a run of the handlers of one session. -/
abbrev after (events : List PromptEvent) : PromptWorld :=
  Transition.run step (initial db sessionId telegramUserId) events

theorem sound_after (events : List PromptEvent) :
    (after db sessionId telegramUserId events).Sound :=
  Transition.run_invariant (fun _ event hw => hw.step event)
    (sound_initial db sessionId telegramUserId) events

theorem tells_after (events : List PromptEvent) :
    (after db sessionId telegramUserId events).Tells
      (initial db sessionId telegramUserId).recorded := by
  refine ⟨fun h hh m hm => ?_, (sound_after db sessionId telegramUserId events).distinct, ?_⟩
  · rw [eq_stored_iff hm, (sound_after db sessionId telegramUserId events).told h hh m hm]
  · induction events using List.reverseRecOn with
    | nil => exact .inl rfl
    | append_singleton events event ih =>
        unfold after
        rw [Transition.run_snoc]
        exact ((sound_after db sessionId telegramUserId events).effect event).writer ih

/-- A recorded prompt stays for the rest of the run. -/
theorem recorded_run {m : ℕ} (hw : w.Sound) (hm : w.recorded = some m) (events : List PromptEvent) :
    (Transition.run PromptWorld.step w events).recorded = some m := by
  have h : (Transition.run PromptWorld.step w events).Sound ∧
      (Transition.run PromptWorld.step w events).recorded = some m :=
    Transition.run_invariant (I := fun w : PromptWorld => w.Sound ∧ w.recorded = some m)
      (fun _ event h => ⟨h.1.step event, (h.1.effect event).recorded h.2⟩) ⟨hw, hm⟩ events
  exact h.2

/-- **One prompt survives exactly when every message is completed in time.** In every run of the
handlers of a session the prompt is written at most once, and exactly the handler whose message it
is is told so; when all handlers have ended, every other prompt is deleted exactly when no handler
has sent its message and completed it after the session had expired. -/
theorem one_prompt_survives_iff (events : List PromptEvent) :
    Transition.Always step (Tells (initial db sessionId telegramUserId).recorded)
        (initial db sessionId telegramUserId) events ∧
      (∀ before later m, events = before ++ later →
        (after db sessionId telegramUserId before).recorded = some m →
        (after db sessionId telegramUserId events).recorded = some m) ∧
      ((after db sessionId telegramUserId events).AllFinished →
        ((after db sessionId telegramUserId events).OneLeft ↔
          Transition.Along step CompletesInTime (initial db sessionId telegramUserId) events)) := by
  refine ⟨fun before _ => tells_after db sessionId telegramUserId before, ?_, fun hfinished => ?_⟩
  · rintro before later m rfl hm
    unfold after
    rw [Transition.run_append]
    exact recorded_run (sound_after db sessionId telegramUserId before) hm later
  · rw [(sound_after db sessionId telegramUserId events).oneLeft_iff hfinished]
    exact (sound_initial db sessionId telegramUserId).noneLeft_run_iff (fun _ h => (by cases h))
      events

/-- The session that user 5 has opened for the file of `oneFile`, for five minutes. -/
def openSession : Db where
  settings := {}
  archive := World.oneFile
  rewardSessions := KeyedTable.empty.insert {
    id := 40, telegramUserId := 5, movieId := 1, movieQualityId := 1, quality := .p720,
    status := .pending
    promptMessageId := none, promptClaimedAt := none, createdAt := seconds 0,
    expiresAt := seconds 300
    clientCompletedAt := none, providerConfirmedAt := none, rewardedAt := none,
    unavailableAt := none
    unavailableReason := none, deliveryStartedAt := none, deliveredAt := none }
  deliveries := .empty

/-- The first handler takes longer than the session lives; the second one takes its stale claim
over. -/
def lateCompletion : List PromptEvent :=
  [.claim (World.atSecond 1), .claim (World.atSecond 40), .send 2 (.sent 902),
    .complete 2 (World.atSecond 42),
    .send 1 (.sent 901), .complete 1 (World.atSecond 301)]

/-- Both handlers have ended, and both prompts are in the chat. -/
theorem two_prompts_survive :
    (after openSession 40 5 lateCompletion).AllFinished ∧
      ¬ (after openSession 40 5 lateCompletion).OneLeft := by
  refine ⟨?_, fun hone => ?_⟩
  · have hrows : ∀ h ∈ (after openSession 40 5 lateCompletion).handlers.rows,
        h.phase.isFinished = true := by
      decide +kernel
    exact fun h hh => hrows h hh
  · have hchat : (after openSession 40 5 lateCompletion).chat = [901, 902] := by decide +kernel
    have hrecorded : (after openSession 40 5 lateCompletion).recorded = some 902 := by
      decide +kernel
    have h901 := (hone 901).1 (by rw [hchat]; decide)
    rw [hrecorded] at h901
    cases h901

end PromptWorld
end CineGate

/-
**The owner's notice about a film.**

`services/owner_notifier.py` for one film.  `notify_movie` runs whenever a quality has been added,
and several runs may be at work at once: each reads the row of the film, sends or edits the owner's
message, records it, and looks at the row again.  A run is a value, and one step of it is one
transaction or one call to Telegram.

* `NoticeRun` — a run between two of its calls;
* `NoticeWorld.loadState`, `NoticeWorld.storeNotificationId`, `NoticeWorld.markNotified` — the
  transactions;
* `NoticeWorld.advance` — the next call of a run;
* `NoticeWorld.step` — a quality is added, a run starts, or a run goes on.
-/

import CineGate.Domain

set_option relaxedAutoImplicit false
set_option autoImplicit false

namespace CineGate

/-- `_MAX_CONVERGENCE_PASSES`. -/
def maxConvergencePasses : ℕ := 4

/-- `_NoticeState`, for the one film. -/
structure NoticeState where
  ownerChatId : ℤ
  displayTitle : Str
  qualityCount : ℕ
  notifiedQualityCount : ℕ
  notificationMessageId : Option ℕ
deriving DecidableEq, Repr

/-- `_render`. -/
def renderNotice (displayTitle : Str) (qualityCount : ℕ) : Str :=
  "✅ تم حفظ منشورات جديدة\n\n1- ".toList ++ displayTitle ++ " (".toList ++
    (toString qualityCount).toList ++ ")".toList

/-- A message in the chat of the owner. -/
structure NoticeMessage where
  messageId : ℕ
  text : Str
deriving DecidableEq, Repr

/-- A run of `notify_movie` between two calls, with the passes it has left, this one included. -/
inductive NoticeRun
  | loading (passes : ℕ) (forceRefresh : Bool)
  | sending (passes : ℕ) (state : NoticeState)
  | storing (passes : ℕ) (state : NoticeState) (sent : ℕ)
  | editingCanonical (passes : ℕ) (state : NoticeState) (sent canonicalId : ℕ)
  | deletingDuplicate (passes : ℕ) (state : NoticeState) (sent : ℕ)
  | editing (passes : ℕ) (state : NoticeState) (messageId : ℕ)
  | marking (passes : ℕ) (state : NoticeState)
  | checking (passes : ℕ) (state : NoticeState)
  | returned
  | exhausted
deriving DecidableEq, Repr

/-- The setting `owner_chat_id`, the row of the film with the number of its qualities, the notices
in the chat of the owner, the message ids Telegram has given out, and the runs. -/
structure NoticeWorld where
  ownerChatId : Option ℤ
  displayTitle : Str
  qualityCount : ℕ
  notificationMessageId : Option ℕ
  notifiedQualityCount : ℕ
  chat : List NoticeMessage
  issued : List ℕ
  runs : List NoticeRun

/-- A quality of the film is inserted, a run starts, or a run does its next call; `messageId` is the
id Telegram gives to the message if the call sends one. -/
inductive NoticeEvent
  | insertQuality
  | notifyMovie
  | advance (run messageId : ℕ)
deriving DecidableEq, Repr

namespace NoticeWorld

variable (w : NoticeWorld)

/-- `_load_state`. -/
def loadState : Option NoticeState :=
  w.ownerChatId.map fun ownerChatId => {
    ownerChatId
    displayTitle := w.displayTitle
    qualityCount := w.qualityCount
    notifiedQualityCount := w.notifiedQualityCount
    notificationMessageId := w.notificationMessageId }

/-- `_store_notification_id`, with the canonical id it returns. -/
def storeNotificationId (messageId : ℕ) : NoticeWorld × ℕ :=
  match w.notificationMessageId with
  | none => ({ w with notificationMessageId := some messageId }, messageId)
  | some existing => (w, if existing = 0 then messageId else existing)

/-- `_mark_notified`. -/
def markNotified (qualityCount : ℕ) : NoticeWorld :=
  { w with notifiedQualityCount := max w.notifiedQualityCount qualityCount }

/-- `send_message`; Telegram gives out positive ids, and each of them once. -/
def sendMessage (messageId : ℕ) (text : Str) : Option NoticeWorld :=
  if messageId = 0 ∨ messageId ∈ w.issued then none
  else some { w with chat := ⟨messageId, text⟩ :: w.chat, issued := messageId :: w.issued }

/-- `_edit_notice`; an edit that changes nothing is no failure. -/
def editNotice (messageId : ℕ) (text : Str) : Option NoticeWorld :=
  if messageId ∈ w.chat.map NoticeMessage.messageId then
    some { w with
      chat := w.chat.map fun m => if m.messageId = messageId then { m with text } else m }
  else none

/-- `_delete_duplicate_notice`. -/
def deleteDuplicateNotice (messageId : ℕ) : NoticeWorld :=
  { w with chat := w.chat.filter fun m => m.messageId ≠ messageId }

/-- The next call of a run and what the run is after it. -/
def advance (messageId : ℕ) : NoticeRun → Option (NoticeWorld × NoticeRun)
  | .loading passes forceRefresh =>
      match w.loadState with
      | none => some (w, .returned)
      | some state =>
          if state.qualityCount = 0 then some (w, .returned)
          else if !forceRefresh && state.qualityCount ≤ state.notifiedQualityCount then
            some (w, .returned)
          else
            match state.notificationMessageId with
            | none => some (w, .sending passes state)
            | some messageId => some (w, .editing passes state messageId)
  | .sending passes state =>
      (w.sendMessage messageId (renderNotice state.displayTitle state.qualityCount)).map fun w =>
        (w, .storing passes state messageId)
  | .storing passes state sent =>
      let (w, canonicalId) := w.storeNotificationId sent
      some (w,
        if canonicalId ≠ sent then .editingCanonical passes state sent canonicalId
        else .marking passes state)
  | .editingCanonical passes state sent canonicalId =>
      (w.editNotice canonicalId (renderNotice state.displayTitle state.qualityCount)).map fun w =>
        (w, .deletingDuplicate passes state sent)
  | .deletingDuplicate passes state sent =>
      some (w.deleteDuplicateNotice sent, .marking passes state)
  | .editing passes state messageId =>
      (w.editNotice messageId (renderNotice state.displayTitle state.qualityCount)).map fun w =>
        (w, .marking passes state)
  | .marking passes state => some (w.markNotified state.qualityCount, .checking passes state)
  | .checking passes state =>
      match w.loadState with
      | none => some (w, .returned)
      | some latest =>
          if state.qualityCount < latest.qualityCount then
            some (w, if passes ≤ 1 then .exhausted else .loading (passes - 1) true)
          else some (w, .returned)
  | .returned => none
  | .exhausted => none

/-- One step. -/
def step : NoticeEvent → NoticeWorld
  | .insertQuality => { w with qualityCount := w.qualityCount + 1 }
  | .notifyMovie => { w with runs := w.runs ++ [.loading maxConvergencePasses false] }
  | .advance i messageId =>
      match w.runs[i]? with
      | none => w
      | some run =>
          match w.advance messageId run with
          | none => w
          | some (w', run') => { w' with runs := w.runs.set i run' }

end NoticeWorld
end CineGate

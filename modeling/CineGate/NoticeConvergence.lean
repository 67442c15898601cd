/-
**The owner's notice converges.**

Two runs of `notify_movie` can overwrite each other: a run that has read an old count edits the
message after a newer one has finished.  What saves the notice is that such a run looks at the row
again after its edit, sees that its count is old, and makes another pass.  So whenever the row says
that the latest count has been announced, either the message shows it or some run is bound to edit
the message once more.

* `NoticeWorld.Kept` — one message is recorded, every other one is the duplicate of a run;
* `NoticeRun.Refreshes`, `NoticeWorld.UpToDate` — the message shows the count, or a run will edit
  it;
* `NoticeRun.Announces`, `NoticeWorld.Announced` — the count has been marked, or a run will mark it;
* `NoticeWorld.owner_notice_converges` — when all runs have returned after the last insertion, one
  message is left, and it shows the final count.
-/

import CineGate.OwnerNotices
import CineGate.Transition
import Mathlib.Data.List.Perm.Basic

set_option relaxedAutoImplicit false
set_option autoImplicit false

namespace CineGate

/-! ### Runs -/

namespace NoticeRun

/-- The message a run has sent besides the recorded one. -/
def duplicate : NoticeRun → Option ℕ
  | .storing _ _ sent | .editingCanonical _ _ sent _ | .deletingDuplicate _ _ sent => some sent
  | _ => none

/-- The state a run works with. -/
def state? : NoticeRun → Option NoticeState
  | .sending _ state | .storing _ state _ | .editingCanonical _ state _ _
  | .deletingDuplicate _ state _ | .editing _ state _ | .marking _ state | .checking _ state =>
      some state
  | _ => none

/-- The message a run is going to edit. -/
def target? : NoticeRun → Option ℕ
  | .editingCanonical _ _ _ canonicalId => some canonicalId
  | .editing _ _ messageId => some messageId
  | _ => none

/-- The run is past its edit and still has to mark its count. -/
def IsMarking : NoticeRun → Prop
  | .deletingDuplicate .. | .marking .. => True
  | _ => False

/-- The run is going to edit the message, or to see that its count is not `n` and to make another
pass. -/
def Refreshes (n : ℕ) : NoticeRun → Prop
  | .loading _ forceRefresh => forceRefresh = true
  | .sending .. | .storing .. | .editingCanonical .. | .editing .. | .exhausted => True
  | .deletingDuplicate _ state _ | .marking _ state | .checking _ state => state.qualityCount < n
  | .returned => False

/-- The run is going to mark the count `n`, or to see that it is marked. -/
def Announces (n : ℕ) : NoticeRun → Prop
  | .loading .. => True
  | .sending _ state | .storing _ state _ | .editingCanonical _ state _ _
  | .deletingDuplicate _ state _ | .editing _ state _ | .marking _ state => state.qualityCount = n
  | .checking .. | .returned | .exhausted => False

end NoticeRun

namespace NoticeWorld

/-- What a run knows about the row of the film. -/
structure Knows (w : NoticeWorld) (run : NoticeRun) : Prop where
  count : ∀ state, run.state? = some state →
    state.qualityCount ≤ w.qualityCount ∧ state.qualityCount ≠ 0 ∧
      state.displayTitle = w.displayTitle
  target : ∀ messageId, run.target? = some messageId → w.notificationMessageId = some messageId
  marking : run.IsMarking → w.notificationMessageId.isSome
  forced : ∀ passes, run = .loading passes true → w.qualityCount ≠ 0

/-- **The books of the notices.**  One message is recorded, every other one is the duplicate of a
run, and a count is marked when there is a message. -/
structure Kept (w : NoticeWorld) (runs : List NoticeRun) : Prop where
  ids : (w.chat.map NoticeMessage.messageId).Perm
    (w.notificationMessageId.toList ++ runs.flatMap fun run => run.duplicate.toList)
  distinct : (w.chat.map NoticeMessage.messageId).Nodup
  issued : ∀ m ∈ w.chat, m.messageId ∈ w.issued
  positive : 0 ∉ w.issued
  notified : w.notifiedQualityCount ≤ w.qualityCount
  recorded : w.notifiedQualityCount ≠ 0 → w.notificationMessageId.isSome
  knows : ∀ run ∈ runs, w.Knows run

/-- A message that has been sent and not stored yet shows the text of its run. -/
def Displays (w : NoticeWorld) (runs : List NoticeRun) : Prop :=
  ∀ passes state sent, NoticeRun.storing passes state sent ∈ runs →
    ⟨sent, renderNotice state.displayTitle state.qualityCount⟩ ∈ w.chat

/-- The recorded message shows the text. -/
def Shows (w : NoticeWorld) (text : Str) : Prop :=
  ∃ messageId, w.notificationMessageId = some messageId ∧
    (⟨messageId, text⟩ : NoticeMessage) ∈ w.chat

/-- When the current count is marked, or about to be, the message shows it or is edited again. -/
def UpToDate (w : NoticeWorld) (runs : List NoticeRun) : Prop :=
  (w.notifiedQualityCount = w.qualityCount ∨
      ∃ run ∈ runs, run.IsMarking ∧ run.Announces w.qualityCount) →
    w.Shows (renderNotice w.displayTitle w.qualityCount) ∨
      ∃ run ∈ runs, run.Refreshes w.qualityCount

/-- The current count is marked, or a run is going to mark it. -/
def Announced (w : NoticeWorld) (runs : List NoticeRun) : Prop :=
  w.notifiedQualityCount = w.qualityCount ∨ ∃ run ∈ runs, run.Announces w.qualityCount

variable {w w' : NoticeWorld} {runs runs' : List NoticeRun}

theorem Kept.of_perm (hw : w.Kept runs) (hruns : runs.Perm runs') : w.Kept runs' :=
  ⟨hw.ids.trans ((hruns.flatMap_right _).append_left _), hw.distinct, hw.issued, hw.positive,
    hw.notified, hw.recorded, fun run hrun => hw.knows run (hruns.mem_iff.2 hrun)⟩

theorem exists_of_perm {P : NoticeRun → Prop} (hruns : runs.Perm runs') (h : ∃ run ∈ runs, P run) :
    ∃ run ∈ runs', P run := by
  obtain ⟨run, hrun, hP⟩ := h
  exact ⟨run, hruns.mem_iff.1 hrun, hP⟩

theorem UpToDate.of_perm (hw : w.UpToDate runs) (hruns : runs.Perm runs') : w.UpToDate runs' :=
  fun hmarked =>
    (hw (hmarked.imp_right (exists_of_perm hruns.symm))).imp_right (exists_of_perm hruns)

theorem Announced.of_perm (hw : w.Announced runs) (hruns : runs.Perm runs') : w.Announced runs' :=
  hw.imp_right (exists_of_perm hruns)

/-- The recorded message is in the chat, and no run has sent it as a duplicate. -/
theorem Kept.recorded_mem (hw : w.Kept runs) {messageId : ℕ}
    (h : w.notificationMessageId = some messageId) :
    messageId ∈ w.chat.map NoticeMessage.messageId ∧ messageId ≠ 0 ∧
      ∀ run ∈ runs, run.duplicate ≠ some messageId := by
  have hids := hw.ids
  rw [h] at hids
  have hmem : messageId ∈ w.chat.map NoticeMessage.messageId :=
    hids.mem_iff.2 List.mem_cons_self
  refine ⟨hmem, ?_, fun run hrun hdup => ?_⟩
  · rintro rfl
    obtain ⟨m, hm, hzero⟩ := List.mem_map.1 hmem
    exact hw.positive (hzero ▸ hw.issued m hm)
  · have hnodup := hids.nodup_iff.1 hw.distinct
    refine (List.nodup_cons.1 hnodup).1 (List.mem_flatMap.2 ⟨run, hrun, ?_⟩)
    rw [hdup]
    exact List.mem_singleton_self _

/-! ### What the calls do to the books -/

/-- What a run knows stays true while the film and the recorded message stay the same. -/
theorem Knows.frame {run : NoticeRun} (h : w.Knows run) (hcount : w.qualityCount ≤ w'.qualityCount)
    (htitle : w'.displayTitle = w.displayTitle)
    (hmessage : ∀ messageId, w.notificationMessageId = some messageId →
      w'.notificationMessageId = some messageId) : w'.Knows run := by
  refine ⟨fun state hstate => ?_, fun messageId htarget => hmessage _ (h.target _ htarget),
    fun hmarking => ?_, fun passes hrun => ?_⟩
  · obtain ⟨hle, hne, htitle'⟩ := h.count state hstate
    exact ⟨hle.trans hcount, hne, htitle'.trans htitle.symm⟩
  · obtain ⟨messageId, hsome⟩ := Option.isSome_iff_exists.1 (h.marking hmarking)
    rw [hmessage messageId hsome]
    rfl
  · have hne := h.forced passes hrun
    omega

/-- A run goes on without a change of the books. -/
theorem Kept.silent {run run' : NoticeRun} (hw : w.Kept (run :: runs))
    (hduplicate : run'.duplicate = run.duplicate) (hknows : w.Knows run') :
    w.Kept (run' :: runs) := by
  refine ⟨?_, hw.distinct, hw.issued, hw.positive, hw.notified, hw.recorded, ?_⟩
  · have hids := hw.ids
    rw [List.flatMap_cons, ← hduplicate] at hids
    exact hids
  · rintro other (_ | ⟨_, hother⟩)
    · exact hknows
    · exact hw.knows other (List.mem_cons_of_mem _ hother)

/-- A message that is sent is the duplicate of its run. -/
theorem Kept.sendMessage {run run' : NoticeRun} {messageId : ℕ} {text : Str}
    (hw : w.Kept (run :: runs)) (h : w.sendMessage messageId text = some w')
    (hnone : run.duplicate = none) (hsent : run'.duplicate = some messageId)
    (hknows : w.Knows run') : w'.Kept (run' :: runs) := by
  unfold NoticeWorld.sendMessage at h
  split at h
  · cases h
  · next hfresh =>
      obtain ⟨hpos, hnew⟩ := not_or.1 hfresh
      cases h
      have hids := hw.ids
      rw [List.flatMap_cons, hnone] at hids
      refine ⟨?_, ?_, ?_, ?_, hw.notified, hw.recorded, ?_⟩
      · rw [List.flatMap_cons, hsent]
        exact (hids.cons messageId).trans List.perm_middle.symm
      · refine List.nodup_cons.2 ⟨fun hmem => ?_, hw.distinct⟩
        obtain ⟨m, hm, rfl⟩ := List.mem_map.1 hmem
        exact hnew (hw.issued m hm)
      · rintro m (_ | ⟨_, hm⟩)
        · exact List.mem_cons_self
        · exact List.mem_cons_of_mem _ (hw.issued m hm)
      · rintro (_ | ⟨_, hzero⟩)
        · exact hpos rfl
        · exact hw.positive hzero
      · rintro other (_ | ⟨_, hother⟩)
        · exact hknows.frame le_rfl rfl fun _ h => h
        · exact (hw.knows other (List.mem_cons_of_mem _ hother)).frame le_rfl rfl fun _ h => h

/-- The first message that is stored becomes the recorded one. -/
theorem Kept.storeFirst {run run' : NoticeRun} {messageId : ℕ} (hw : w.Kept (run :: runs))
    (hmessage : w.notificationMessageId = none) (hsent : run.duplicate = some messageId)
    (hnone : run'.duplicate = none)
    (hknows : ({ w with notificationMessageId := some messageId } : NoticeWorld).Knows run') :
    ({ w with notificationMessageId := some messageId } : NoticeWorld).Kept (run' :: runs) := by
  refine ⟨?_, hw.distinct, hw.issued, hw.positive, hw.notified, fun _ => rfl, ?_⟩
  · have hids := hw.ids
    rw [List.flatMap_cons, hsent, hmessage] at hids
    rw [List.flatMap_cons, hnone]
    exact hids
  · rintro other (_ | ⟨_, hother⟩)
    · exact hknows
    · refine (hw.knows other (List.mem_cons_of_mem _ hother)).frame le_rfl rfl fun id hid => ?_
      cases hmessage.symm.trans hid

/-- An edit changes the text of one message. -/
theorem Kept.editNotice {run run' : NoticeRun} {messageId : ℕ} {text : Str}
    (hw : w.Kept (run :: runs)) (h : w.editNotice messageId text = some w')
    (hduplicate : run'.duplicate = run.duplicate) (hknows : w.Knows run') :
    w'.Kept (run' :: runs) := by
  have hsilent := hw.silent hduplicate hknows
  unfold NoticeWorld.editNotice at h
  split at h
  · cases h
    have hids : (w.chat.map fun m => if m.messageId = messageId then { m with text } else m).map
        NoticeMessage.messageId = w.chat.map NoticeMessage.messageId := by
      rw [List.map_map]
      refine List.map_congr_left fun m _ => ?_
      dsimp only [Function.comp]
      split <;> rfl
    refine ⟨?_, ?_, ?_, hw.positive, hw.notified, hw.recorded, fun other hother => ?_⟩
    · rw [hids]
      exact hsilent.ids
    · rw [hids]
      exact hw.distinct
    · intro m hm
      obtain ⟨m₀, hm₀, rfl⟩ := List.mem_map.1 hm
      split
      · exact hw.issued m₀ hm₀
      · exact hw.issued m₀ hm₀
    · exact (hsilent.knows other hother).frame le_rfl rfl fun _ h => h
  · cases h

/-- A run deletes its own duplicate. -/
theorem Kept.deleteDuplicateNotice {run run' : NoticeRun} {messageId : ℕ}
    (hw : w.Kept (run :: runs)) (hsent : run.duplicate = some messageId)
    (hnone : run'.duplicate = none) (hknows : w.Knows run') :
    (w.deleteDuplicateNotice messageId).Kept (run' :: runs) := by
  have hids := hw.ids
  rw [List.flatMap_cons, hsent] at hids
  have hmiddle : (w.chat.map NoticeMessage.messageId).Perm
      (messageId :: (w.notificationMessageId.toList ++
        runs.flatMap fun run => run.duplicate.toList)) := hids.trans List.perm_middle
  have hnotMem := (List.nodup_cons.1 (hmiddle.nodup_iff.1 hw.distinct)).1
  have hfilter : (w.deleteDuplicateNotice messageId).chat.map NoticeMessage.messageId =
      (w.chat.map NoticeMessage.messageId).filter fun id => id ≠ messageId := by
    rw [List.filter_map]
    rfl
  refine ⟨?_, ?_, fun m hm => hw.issued m (List.mem_of_mem_filter hm), hw.positive, hw.notified,
    hw.recorded, ?_⟩
  · rw [hfilter, List.flatMap_cons, hnone]
    refine (hmiddle.filter _).trans ?_
    rw [List.filter_cons_of_neg (by simp)]
    have hkeep : (w.notificationMessageId.toList ++
        runs.flatMap fun run => run.duplicate.toList).filter (fun id => decide (id ≠ messageId)) =
          w.notificationMessageId.toList ++ runs.flatMap fun run => run.duplicate.toList :=
      List.filter_eq_self.2 fun id hid => by
        simpa using fun heq : id = messageId => hnotMem (heq ▸ hid)
    rw [hkeep]
    exact List.Perm.refl _
  · rw [hfilter]
    exact hw.distinct.filter _
  · rintro other (_ | ⟨_, hother⟩)
    · exact hknows.frame le_rfl rfl fun _ h => h
    · exact (hw.knows other (List.mem_cons_of_mem _ hother)).frame le_rfl rfl fun _ h => h

/-- A run marks a count that is not above the current one. -/
theorem Kept.markNotified {run run' : NoticeRun} {n : ℕ} (hw : w.Kept (run :: runs))
    (hn : n ≤ w.qualityCount) (hmessage : w.notificationMessageId.isSome)
    (hduplicate : run'.duplicate = run.duplicate) (hknows : w.Knows run') :
    (w.markNotified n).Kept (run' :: runs) := by
  have hsilent := hw.silent hduplicate hknows
  refine ⟨hsilent.ids, hw.distinct, hw.issued, hw.positive, max_le hw.notified hn,
    fun _ => hmessage, fun other hother => ?_⟩
  exact (hsilent.knows other hother).frame le_rfl rfl fun _ h => h

/-! ### One step of a run -/

/-- What a run does next, while an owner chat is set. -/
inductive RunStep (w : NoticeWorld) : NoticeRun → NoticeWorld → NoticeRun → Prop
  | nothingNew (passes : ℕ) (forceRefresh : Bool)
      (hcount : w.qualityCount = 0 ∨
        forceRefresh = false ∧ w.qualityCount ≤ w.notifiedQualityCount) :
      RunStep w (.loading passes forceRefresh) w .returned
  | loadsFirst (passes : ℕ) (forceRefresh : Bool) (state : NoticeState)
      (hstate : w.loadState = some state) (hcount : w.qualityCount ≠ 0) :
      RunStep w (.loading passes forceRefresh) w (.sending passes state)
  | loads (passes : ℕ) (forceRefresh : Bool) (state : NoticeState) (messageId : ℕ)
      (hstate : w.loadState = some state) (hcount : w.qualityCount ≠ 0)
      (hmessage : w.notificationMessageId = some messageId) :
      RunStep w (.loading passes forceRefresh) w (.editing passes state messageId)
  | sends (passes : ℕ) (state : NoticeState) (messageId : ℕ) (w' : NoticeWorld)
      (hsend : w.sendMessage messageId (renderNotice state.displayTitle state.qualityCount) =
        some w') :
      RunStep w (.sending passes state) w' (.storing passes state messageId)
  | stores (passes : ℕ) (state : NoticeState) (sent : ℕ)
      (hmessage : w.notificationMessageId = none) :
      RunStep w (.storing passes state sent) { w with notificationMessageId := some sent }
        (.marking passes state)
  | storesTooLate (passes : ℕ) (state : NoticeState) (sent canonicalId : ℕ)
      (hmessage : w.notificationMessageId = some canonicalId) :
      RunStep w (.storing passes state sent) w (.editingCanonical passes state sent canonicalId)
  | editsCanonical (passes : ℕ) (state : NoticeState) (sent canonicalId : ℕ) (w' : NoticeWorld)
      (hedit : w.editNotice canonicalId (renderNotice state.displayTitle state.qualityCount) =
        some w') :
      RunStep w (.editingCanonical passes state sent canonicalId) w'
        (.deletingDuplicate passes state sent)
  | deletes (passes : ℕ) (state : NoticeState) (sent : ℕ) :
      RunStep w (.deletingDuplicate passes state sent) (w.deleteDuplicateNotice sent)
        (.marking passes state)
  | edits (passes : ℕ) (state : NoticeState) (messageId : ℕ) (w' : NoticeWorld)
      (hedit : w.editNotice messageId (renderNotice state.displayTitle state.qualityCount) =
        some w') :
      RunStep w (.editing passes state messageId) w' (.marking passes state)
  | marks (passes : ℕ) (state : NoticeState) :
      RunStep w (.marking passes state) (w.markNotified state.qualityCount) (.checking passes state)
  | goesOn (passes passes' : ℕ) (state : NoticeState) (hlt : state.qualityCount < w.qualityCount) :
      RunStep w (.checking passes state) w (.loading passes' true)
  | givesUp (passes : ℕ) (state : NoticeState) (hlt : state.qualityCount < w.qualityCount) :
      RunStep w (.checking passes state) w .exhausted
  | returns (passes : ℕ) (state : NoticeState) (hle : w.qualityCount ≤ state.qualityCount) :
      RunStep w (.checking passes state) w .returned

theorem loadState_eq_some {state : NoticeState} (h : w.loadState = some state) :
    state.displayTitle = w.displayTitle ∧ state.qualityCount = w.qualityCount := by
  obtain ⟨chatId, -, rfl⟩ := Option.map_eq_some_iff.1 h
  exact ⟨rfl, rfl⟩

theorem Kept.runStep {run run' : NoticeRun} {messageId : ℕ} (hw : w.Kept (run :: runs))
    (howner : w.ownerChatId.isSome) (h : w.advance messageId run = some (w', run')) :
    w.RunStep run w' run' := by
  obtain ⟨chatId, hchat⟩ := Option.isSome_iff_exists.1 howner
  cases run with
  | loading passes forceRefresh =>
      simp only [advance, loadState, hchat, Option.map_some] at h
      split at h
      · next hzero =>
          cases h
          exact .nothingNew passes forceRefresh (.inl hzero)
      · next hcount =>
          split at h
          · next hold =>
              cases h
              exact .nothingNew passes forceRefresh (.inr (by simpa using hold))
          · split at h
            · cases h
              exact .loadsFirst passes forceRefresh _ (by rw [loadState, hchat]; rfl) hcount
            · next id hid =>
                cases h
                exact .loads passes forceRefresh _ id (by rw [loadState, hchat]; rfl) hcount hid
  | sending passes state =>
      obtain ⟨w₁, hsend, heq⟩ := Option.map_eq_some_iff.1 h
      cases heq
      exact .sends passes state messageId w' hsend
  | storing passes state sent =>
      cases hmessage : w.notificationMessageId with
      | none =>
          simp only [advance, storeNotificationId, hmessage] at h
          cases h
          simp only [ne_eq, not_true_eq_false, if_false]
          exact .stores passes state sent hmessage
      | some canonicalId =>
          obtain ⟨-, hpos, hdup⟩ := hw.recorded_mem hmessage
          have hne : canonicalId ≠ sent := fun heq =>
            hdup _ List.mem_cons_self (congrArg some heq.symm)
          simp only [advance, storeNotificationId, hmessage, if_neg hpos, ne_eq, hne,
            not_false_eq_true, if_true] at h
          cases h
          exact .storesTooLate passes state sent canonicalId hmessage
  | editingCanonical passes state sent canonicalId =>
      obtain ⟨w₁, hedit, heq⟩ := Option.map_eq_some_iff.1 h
      cases heq
      exact .editsCanonical passes state sent canonicalId w' hedit
  | deletingDuplicate passes state sent =>
      cases h
      exact .deletes passes state sent
  | editing passes state id =>
      obtain ⟨w₁, hedit, heq⟩ := Option.map_eq_some_iff.1 h
      cases heq
      exact .edits passes state id w' hedit
  | marking passes state =>
      cases h
      exact .marks passes state
  | checking passes state =>
      simp only [advance, loadState, hchat, Option.map_some] at h
      split at h
      · next hlt =>
          cases h
          split
          · exact .givesUp passes state hlt
          · exact .goesOn passes (passes - 1) state hlt
      · next hle =>
          cases h
          exact .returns passes state (Nat.le_of_not_lt hle)
  | returned => cases h
  | exhausted => cases h

theorem knows_of_state {run : NoticeRun} (hstate : run.state? = none) (htarget : run.target? = none)
    (hmarking : ¬ run.IsMarking)
    (hforced : ∀ passes, run = .loading passes true → w.qualityCount ≠ 0) :
    w.Knows run := by
  refine ⟨fun state h => ?_, fun messageId h => ?_, fun h => (hmarking h).elim, hforced⟩
  · cases hstate.symm.trans h
  · cases htarget.symm.trans h

/-- A run that goes on with the state it has. -/
theorem Knows.next {run run' : NoticeRun} (h : w.Knows run) (hstate : run'.state? = run.state?)
    (htarget : ∀ messageId, run'.target? = some messageId →
      w.notificationMessageId = some messageId)
    (hmarking : run'.IsMarking → w.notificationMessageId.isSome)
    (hloading : ∀ passes, run' ≠ .loading passes true) : w.Knows run' :=
  ⟨fun state hrun => h.count state (hstate.symm.trans hrun), htarget, hmarking,
    fun passes hrun => (hloading passes hrun).elim⟩

theorem RunStep.kept {run run' : NoticeRun} (h : w.RunStep run w' run')
    (hw : w.Kept (run :: runs)) : w'.Kept (run' :: runs) := by
  have hknows := hw.knows run List.mem_cons_self
  cases h with
  | nothingNew => exact hw.silent rfl (knows_of_state rfl rfl id fun _ h => by cases h)
  | loadsFirst passes forceRefresh state hstate hcount =>
      obtain ⟨htitle, hsame⟩ := loadState_eq_some hstate
      refine hw.silent rfl ⟨?_, fun _ h => (by cases h), False.elim, fun _ h => (by cases h)⟩
      rintro _ ⟨⟩
      exact ⟨hsame.le, hsame.symm ▸ hcount, htitle⟩
  | loads passes forceRefresh state messageId hstate hcount hmessage =>
      obtain ⟨htitle, hsame⟩ := loadState_eq_some hstate
      refine hw.silent rfl ⟨?_, ?_, False.elim, fun _ h => (by cases h)⟩
      · rintro _ ⟨⟩
        exact ⟨hsame.le, hsame.symm ▸ hcount, htitle⟩
      · rintro _ ⟨⟩
        exact hmessage
  | sends passes state messageId _ hsend =>
      exact hw.sendMessage hsend rfl rfl
        (hknows.next rfl (fun _ h => by cases h) False.elim fun _ h => by cases h)
  | stores passes state sent hmessage =>
      refine hw.storeFirst hmessage rfl rfl ?_
      refine Knows.next (hknows.frame le_rfl rfl fun id hid => ?_) rfl (fun _ h => by cases h)
        (fun _ => rfl) fun _ h => by cases h
      cases hmessage.symm.trans hid
  -- another run has stored its message first
  | storesTooLate passes state sent canonicalId hmessage =>
      refine hw.silent rfl (hknows.next rfl ?_ False.elim fun _ h => by cases h)
      rintro _ ⟨⟩
      exact hmessage
  -- the canonical message gets the text of the superfluous one
  | editsCanonical passes state sent canonicalId _ hedit =>
      refine hw.editNotice hedit rfl (hknows.next rfl (fun _ h => by cases h) (fun _ => ?_)
        fun _ h => by cases h)
      rw [hknows.target canonicalId rfl]
      rfl
  | deletes passes state sent =>
      exact hw.deleteDuplicateNotice rfl rfl (hknows.next rfl (fun _ h => by cases h)
        (fun _ => hknows.marking trivial) fun _ h => by cases h)
  | edits passes state messageId _ hedit =>
      refine hw.editNotice hedit rfl (hknows.next rfl (fun _ h => by cases h) (fun _ => ?_)
        fun _ h => by cases h)
      rw [hknows.target messageId rfl]
      rfl
  | marks passes state =>
      exact hw.markNotified (hknows.count state rfl).1 (hknows.marking trivial) rfl
        (hknows.next rfl (fun _ h => by cases h) False.elim fun _ h => by cases h)
  | goesOn passes passes' state hlt =>
      exact hw.silent rfl (knows_of_state rfl rfl id fun _ _ => by omega)
  | givesUp => exact hw.silent rfl (knows_of_state rfl rfl id fun _ h => by cases h)
  | returns => exact hw.silent rfl (knows_of_state rfl rfl id fun _ h => by cases h)

/-! ### The texts of the messages -/

theorem editNotice_mem {messageId : ℕ} {text : Str} (h : w.editNotice messageId text = some w') :
    (⟨messageId, text⟩ : NoticeMessage) ∈ w'.chat ∧
      ∀ m ∈ w.chat, m.messageId ≠ messageId → m ∈ w'.chat := by
  unfold editNotice at h
  split at h
  · next hmem =>
      cases h
      obtain ⟨m, hm, rfl⟩ := List.mem_map.1 hmem
      refine ⟨List.mem_map.2 ⟨m, hm, ?_⟩, fun m' hm' hne => List.mem_map.2 ⟨m', hm', ?_⟩⟩
      · rw [if_pos rfl]
      · rw [if_neg hne]
  · cases h

theorem mem_deleteDuplicateNotice {messageId : ℕ} {m : NoticeMessage} (hm : m ∈ w.chat)
    (hne : m.messageId ≠ messageId) : m ∈ (w.deleteDuplicateNotice messageId).chat :=
  List.mem_filter.2 ⟨hm, by simpa using hne⟩

theorem sendMessage_chat {messageId : ℕ} {text : Str}
    (h : w.sendMessage messageId text = some w') : w'.chat = ⟨messageId, text⟩ :: w.chat := by
  unfold sendMessage at h
  split at h
  · cases h
  · cases h
    rfl

theorem editNotice_frame {messageId : ℕ} {text : Str} (h : w.editNotice messageId text = some w') :
    w'.displayTitle = w.displayTitle ∧ w'.qualityCount = w.qualityCount ∧
      w'.notifiedQualityCount = w.notifiedQualityCount ∧
      w'.notificationMessageId = w.notificationMessageId := by
  unfold editNotice at h
  split at h
  · cases h
    exact ⟨rfl, rfl, rfl, rfl⟩
  · cases h

theorem sendMessage_frame {messageId : ℕ} {text : Str}
    (h : w.sendMessage messageId text = some w') :
    w'.displayTitle = w.displayTitle ∧ w'.qualityCount = w.qualityCount ∧
      w'.notifiedQualityCount = w.notifiedQualityCount ∧
      w'.notificationMessageId = w.notificationMessageId := by
  unfold sendMessage at h
  split at h
  · cases h
  · cases h
    exact ⟨rfl, rfl, rfl, rfl⟩

theorem RunStep.frame {run run' : NoticeRun} (h : w.RunStep run w' run') :
    w'.displayTitle = w.displayTitle ∧ w'.qualityCount = w.qualityCount := by
  cases h with
  | sends _ _ _ _ hsend =>
      obtain ⟨htitle, hcount, -⟩ := sendMessage_frame hsend
      exact ⟨htitle, hcount⟩
  | editsCanonical _ _ _ _ _ hedit | edits _ _ _ _ hedit =>
      obtain ⟨htitle, hcount, -⟩ := editNotice_frame hedit
      exact ⟨htitle, hcount⟩
  | _ => exact ⟨rfl, rfl⟩

/-- Two runs have sent different duplicates. -/
theorem Kept.duplicate_ne {run other : NoticeRun} {a b : ℕ} (hw : w.Kept (run :: runs))
    (ha : run.duplicate = some a) (hother : other ∈ runs) (hb : other.duplicate = some b) :
    b ≠ a := by
  rintro rfl
  have hnodup := hw.ids.nodup_iff.1 hw.distinct
  rw [List.flatMap_cons, ha] at hnodup
  have hrest := (List.nodup_append.1 hnodup).2.1
  refine (List.nodup_cons.1 hrest).1 (List.mem_flatMap.2 ⟨other, hother, ?_⟩)
  rw [hb]
  exact List.mem_singleton_self _

theorem Displays.next {run run' : NoticeRun} (hw : w.Displays (run :: runs))
    (hchat : ∀ other ∈ runs, ∀ m ∈ w.chat, other.duplicate = some m.messageId → m ∈ w'.chat)
    (hrun : ∀ passes state sent, run' = .storing passes state sent →
      ⟨sent, renderNotice state.displayTitle state.qualityCount⟩ ∈ w'.chat) :
    w'.Displays (run' :: runs) := by
  intro passes state sent hmem
  rcases List.mem_cons.1 hmem with heq | hmem
  · exact hrun passes state sent heq.symm
  · exact hchat _ hmem _ (hw passes state sent (List.mem_cons_of_mem _ hmem)) rfl

theorem RunStep.displays {run run' : NoticeRun} (h : w.RunStep run w' run')
    (hkept : w.Kept (run :: runs)) (hw : w.Displays (run :: runs)) :
    w'.Displays (run' :: runs) := by
  have hknows := hkept.knows run List.mem_cons_self
  -- an edit touches the recorded message, which no run has sent as a duplicate
  have hedited : ∀ messageId text w', run.target? = some messageId →
      w.editNotice messageId text = some w' →
      ∀ other ∈ runs, ∀ m ∈ w.chat, other.duplicate = some m.messageId → m ∈ w'.chat := by
    intro messageId text w' htarget hedit other hother m hm hdup
    refine (editNotice_mem hedit).2 m hm fun heq => ?_
    exact (hkept.recorded_mem (hknows.target messageId htarget)).2.2 other
      (List.mem_cons_of_mem _ hother) (heq ▸ hdup)
  cases h with
  | sends passes state messageId _ hsend =>
      have hchat := sendMessage_chat hsend
      refine hw.next (fun _ _ m hm _ => hchat ▸ List.mem_cons_of_mem _ hm) ?_
      rintro _ _ _ ⟨⟩
      exact hchat ▸ List.mem_cons_self
  | editsCanonical passes state sent canonicalId _ hedit =>
      exact hw.next (hedited _ _ _ rfl hedit) fun _ _ _ h => by cases h
  | edits passes state messageId _ hedit =>
      exact hw.next (hedited _ _ _ rfl hedit) fun _ _ _ h => by cases h
  | deletes passes state sent =>
      refine hw.next (fun other hother m hm hdup => ?_) fun _ _ _ h => by cases h
      exact mem_deleteDuplicateNotice hm (hkept.duplicate_ne rfl hother hdup)
  | _ => exact hw.next (fun _ _ _ hm _ => hm) fun _ _ _ h => by cases h

/-! ### The message is current, or edited once more -/

/-- `UpToDate` after a step of one run that keeps the film. -/
theorem UpToDate.next {run run' : NoticeRun} (hw : w.UpToDate (run :: runs))
    (hframe : w'.displayTitle = w.displayTitle ∧ w'.qualityCount = w.qualityCount)
    (hmarked : w'.notifiedQualityCount = w.qualityCount →
      w.notifiedQualityCount = w.qualityCount ∨ run.IsMarking ∧ run.Announces w.qualityCount)
    (hmarking : run'.IsMarking → run.IsMarking ∧
      (run'.Announces w.qualityCount → run.Announces w.qualityCount))
    (hshows : w.Shows (renderNotice w.displayTitle w.qualityCount) →
      w'.Shows (renderNotice w.displayTitle w.qualityCount))
    (hrefreshes : run.Refreshes w.qualityCount → run'.Refreshes w.qualityCount) :
    w'.UpToDate (run' :: runs) := by
  intro h
  rw [hframe.1, hframe.2]
  rw [hframe.2] at h
  have hbefore : w.notifiedQualityCount = w.qualityCount ∨
      ∃ other ∈ run :: runs, other.IsMarking ∧ other.Announces w.qualityCount := by
    rcases h with h | ⟨other, hother, hother', hannounces⟩
    · rcases hmarked h with h | h
      · exact .inl h
      · exact .inr ⟨run, List.mem_cons_self, h⟩
    · rcases List.mem_cons.1 hother with rfl | hmem
      · obtain ⟨hrun, himp⟩ := hmarking hother'
        exact .inr ⟨run, List.mem_cons_self, hrun, himp hannounces⟩
      · exact .inr ⟨other, List.mem_cons_of_mem _ hmem, hother', hannounces⟩
  rcases hw hbefore with h | ⟨other, hother, hrefreshes'⟩
  · exact .inl (hshows h)
  · rcases List.mem_cons.1 hother with rfl | hmem
    · exact .inr ⟨run', List.mem_cons_self, hrefreshes hrefreshes'⟩
    · exact .inr ⟨other, List.mem_cons_of_mem _ hmem, hrefreshes'⟩

theorem upToDate_of_refreshes {run : NoticeRun} (h : run.Refreshes w.qualityCount) :
    w.UpToDate (run :: runs) :=
  fun _ => .inr ⟨run, List.mem_cons_self, h⟩

/-- A run that has just written the recorded message has written the current count, or comes
again. -/
theorem upToDate_of_written {run : NoticeRun} {state : NoticeState} {messageId : ℕ}
    (hmessage : w.notificationMessageId = some messageId)
    (hchat : ⟨messageId, renderNotice state.displayTitle state.qualityCount⟩ ∈ w.chat)
    (htitle : state.displayTitle = w.displayTitle) (hle : state.qualityCount ≤ w.qualityCount)
    (hrefreshes : state.qualityCount < w.qualityCount → run.Refreshes w.qualityCount) :
    w.UpToDate (run :: runs) := by
  rcases Nat.eq_or_lt_of_le hle with hcount | hlt
  · rw [htitle, hcount] at hchat
    exact fun _ => .inl ⟨messageId, hmessage, hchat⟩
  · exact upToDate_of_refreshes (hrefreshes hlt)

theorem RunStep.upToDate {run run' : NoticeRun} (h : w.RunStep run w' run')
    (hkept : w.Kept (run :: runs)) (hdisplays : w.Displays (run :: runs))
    (hw : w.UpToDate (run :: runs)) : w'.UpToDate (run' :: runs) := by
  have hknows := hkept.knows run List.mem_cons_self
  have hframe := h.frame
  cases h with
  | nothingNew passes forceRefresh hcount =>
      refine hw.next hframe .inl False.elim id fun hforced => ?_
      -- a run that must edit has found a film with qualities
      have hforced : forceRefresh = true := hforced
      rcases hcount with hzero | ⟨hfalse, -⟩
      · exact hknows.forced passes (by rw [hforced]) hzero
      · cases hforced.symm.trans hfalse
  | loadsFirst | loads | storesTooLate => exact upToDate_of_refreshes trivial
  | sends => exact upToDate_of_refreshes trivial
  | stores passes state sent hmessage =>
      obtain ⟨hle, -, htitle⟩ := hknows.count state rfl
      exact upToDate_of_written rfl (hdisplays passes state sent List.mem_cons_self) htitle hle id
  | editsCanonical passes state sent canonicalId _ hedit =>
      obtain ⟨hle, -, htitle⟩ := hknows.count state rfl
      obtain ⟨-, -, -, hsame⟩ := editNotice_frame hedit
      exact upToDate_of_written (hsame.trans (hknows.target canonicalId rfl))
        (editNotice_mem hedit).1
        (htitle.trans hframe.1.symm) (hle.trans hframe.2.ge) id
  | edits passes state messageId _ hedit =>
      obtain ⟨hle, -, htitle⟩ := hknows.count state rfl
      obtain ⟨-, -, -, hsame⟩ := editNotice_frame hedit
      exact upToDate_of_written (hsame.trans (hknows.target messageId rfl)) (editNotice_mem hedit).1
        (htitle.trans hframe.1.symm) (hle.trans hframe.2.ge) id
  | deletes passes state sent =>
      refine hw.next hframe .inl (fun _ => ⟨trivial, id⟩) ?_ id
      rintro ⟨messageId, hmessage, hchat⟩
      refine ⟨messageId, hmessage, mem_deleteDuplicateNotice hchat fun heq => ?_⟩
      exact (hkept.recorded_mem hmessage).2.2 _ List.mem_cons_self (congrArg some heq.symm)
  | marks passes state =>
      refine hw.next hframe (fun hmarked => ?_) False.elim id id
      rcases Nat.le_total state.qualityCount w.notifiedQualityCount with hle | hle
      · exact .inl ((max_eq_left hle).symm.trans hmarked)
      · exact .inr ⟨trivial, (max_eq_right hle).symm.trans hmarked⟩
  | goesOn => exact upToDate_of_refreshes rfl
  | givesUp => exact upToDate_of_refreshes trivial
  | returns passes state hle =>
      exact hw.next hframe .inl False.elim id fun hlt => absurd hlt (Nat.not_lt_of_le hle)

/-! ### The count is announced -/

theorem RunStep.announced {run run' : NoticeRun} (h : w.RunStep run w' run')
    (hkept : w.Kept (run :: runs)) (hw : w.Announced (run :: runs)) :
    w'.Announced (run' :: runs) := by
  -- what the step does to the mark and to the announcement of the run itself
  have hnext :
      (w.notifiedQualityCount = w.qualityCount → w'.notifiedQualityCount = w.qualityCount) ∧
        (run.Announces w.qualityCount →
          w'.notifiedQualityCount = w.qualityCount ∨ run'.Announces w.qualityCount) := by
    cases h with
    | nothingNew passes forceRefresh hcount =>
        have hle := hkept.notified
        exact ⟨id, fun _ => .inl (by omega)⟩
    | loadsFirst passes forceRefresh state hstate | loads passes forceRefresh state _ hstate =>
        exact ⟨id, fun _ => .inr (loadState_eq_some hstate).2⟩
    | sends _ _ _ _ hsend =>
        obtain ⟨-, -, hnotified, -⟩ := sendMessage_frame hsend
        exact ⟨hnotified.trans, .inr⟩
    | editsCanonical _ _ _ _ _ hedit | edits _ _ _ _ hedit =>
        obtain ⟨-, -, hnotified, -⟩ := editNotice_frame hedit
        exact ⟨hnotified.trans, .inr⟩
    | stores | storesTooLate | deletes => exact ⟨id, .inr⟩
    | marks passes state =>
        obtain ⟨hle, -, -⟩ := (hkept.knows _ List.mem_cons_self).count state rfl
        refine ⟨fun heq => ?_, fun heq => .inl ?_⟩
        · exact max_eq_left (hle.trans heq.ge) |>.trans heq
        · exact (max_eq_right (hkept.notified.trans (le_of_eq heq.symm))).trans heq
    | goesOn | givesUp | returns => exact ⟨id, False.elim⟩
  obtain ⟨-, hcount⟩ := h.frame
  unfold Announced
  rw [hcount]
  rcases hw with hw | ⟨other, hother, hannounces⟩
  · exact .inl (hnext.1 hw)
  · rcases List.mem_cons.1 hother with rfl | hmem
    · exact (hnext.2 hannounces).imp_right fun h => ⟨run', List.mem_cons_self, h⟩
    · exact .inr ⟨other, List.mem_cons_of_mem _ hmem, hannounces⟩

/-! ### Runs of the world -/

/-- All that holds in every state. -/
structure Convergent (w : NoticeWorld) : Prop where
  owner : w.ownerChatId.isSome
  kept : w.Kept w.runs
  displays : w.Displays w.runs

theorem Displays.of_perm (hw : w.Displays runs) (hruns : runs.Perm runs') : w.Displays runs' :=
  fun passes state sent hmem => hw passes state sent (hruns.mem_iff.2 hmem)

/-- The books do not depend on the list of runs the world carries. -/
theorem Kept.withRuns (hw : w.Kept runs) (others : List NoticeRun) :
    ({ w with runs := others } : NoticeWorld).Kept runs :=
  ⟨hw.ids, hw.distinct, hw.issued, hw.positive, hw.notified, hw.recorded, fun run hrun =>
    (hw.knows run hrun).frame le_rfl rfl fun _ h => h⟩

/-- A step of the world that changes it is the step of one run; the other runs stay. -/
theorem advance_cases {i messageId : ℕ} (hkept : w.Kept w.runs) (howner : w.ownerChatId.isSome)
    (h : w.step (.advance i messageId) ≠ w) :
    ∃ run w' run' rest, w.runs.Perm (run :: rest) ∧ w.RunStep run w' run' ∧
      (w.step (.advance i messageId)).runs.Perm (run' :: rest) ∧
      w.step (.advance i messageId) = { w' with runs := w.runs.set i run' } := by
  dsimp only [step] at h ⊢
  cases hrun : w.runs[i]? with
  | none =>
      rw [hrun] at h
      exact absurd rfl h
  | some run =>
      rw [hrun] at h
      dsimp only at h ⊢
      cases hadvance : w.advance messageId run with
      | none =>
          rw [hadvance] at h
          exact absurd rfl h
      | some result =>
          obtain ⟨w', run'⟩ := result
          obtain ⟨hi, rfl⟩ := List.getElem?_eq_some_iff.1 hrun
          have hperm := (List.getElem_cons_eraseIdx_perm hi).symm
          exact ⟨w.runs[i], w', run', w.runs.eraseIdx i, hperm,
            (hkept.of_perm hperm).runStep howner hadvance, List.set_perm_cons_eraseIdx hi run', rfl⟩

theorem RunStep.owner {run run' : NoticeRun} (h : w.RunStep run w' run') :
    w'.ownerChatId = w.ownerChatId := by
  cases h with
  | sends _ _ _ _ hsend =>
      unfold sendMessage at hsend
      split at hsend <;> cases hsend
      rfl
  | editsCanonical _ _ _ _ _ hedit | edits _ _ _ _ hedit =>
      unfold editNotice at hedit
      split at hedit <;> cases hedit
      rfl
  | _ => rfl

theorem Convergent.insertQuality (hw : w.Convergent) : (w.step .insertQuality).Convergent := by
  obtain ⟨howner, hkept, hdisplays⟩ := hw
  refine ⟨howner, ⟨hkept.ids, hkept.distinct, hkept.issued, hkept.positive, ?_, hkept.recorded, ?_⟩,
    hdisplays⟩
  · exact hkept.notified.trans (Nat.le_succ _)
  · exact fun run hrun => (hkept.knows run hrun).frame (Nat.le_succ _) rfl fun _ h => h

/-- After an insertion the current count is neither marked nor about to be. -/
theorem Convergent.upToDate_insertQuality (hw : w.Convergent) :
    (w.step .insertQuality).UpToDate (w.step .insertQuality).runs := by
  rintro (hmarked | ⟨run, hrun, hmarking, hannounces⟩)
  · have hle : w.notifiedQualityCount ≤ w.qualityCount := hw.kept.notified
    have heq : w.notifiedQualityCount = w.qualityCount + 1 := hmarked
    omega
  · have hcount := (hw.kept.knows run hrun).count
    cases run with
    | deletingDuplicate _ state _ | marking _ state =>
        have hle := (hcount state rfl).1
        have heq : state.qualityCount = w.qualityCount + 1 := hannounces
        omega
    | _ => exact hmarking.elim

theorem perm_append_singleton (run : NoticeRun) : (run :: runs).Perm (runs ++ [run]) :=
  (List.perm_append_singleton run runs).symm

theorem Convergent.notifyMovie (hw : w.Convergent) : (w.step .notifyMovie).Convergent := by
  obtain ⟨howner, hkept, hdisplays⟩ := hw
  have hkept' : w.Kept (.loading maxConvergencePasses false :: w.runs) := by
    refine ⟨hkept.ids, hkept.distinct, hkept.issued, hkept.positive, hkept.notified,
      hkept.recorded, ?_⟩
    rintro run (_ | ⟨_, hrun⟩)
    · exact knows_of_state rfl rfl id fun _ h => by cases h
    · exact hkept.knows run hrun
  refine ⟨howner, (hkept'.of_perm (perm_append_singleton _)).withRuns _, fun passes state sent h =>
    ?_⟩
  rcases List.mem_append.1 h with h | h
  · exact hdisplays passes state sent h
  · cases List.mem_singleton.1 h

theorem Convergent.advance (hw : w.Convergent) (i messageId : ℕ) :
    (w.step (.advance i messageId)).Convergent := by
  by_cases hsame : w.step (.advance i messageId) = w
  · rw [hsame]
    exact hw
  · obtain ⟨run, w', run', rest, hruns, hstep, hruns', heq⟩ :=
      advance_cases hw.kept hw.owner hsame
    have hkept := hw.kept.of_perm hruns
    refine ⟨?_, ?_, ?_⟩
    · rw [heq]
      exact hstep.owner ▸ hw.owner
    · refine Kept.of_perm ?_ hruns'.symm
      rw [heq]
      exact (hstep.kept hkept).withRuns _
    · refine Displays.of_perm ?_ hruns'.symm
      rw [heq]
      exact hstep.displays hkept (hw.displays.of_perm hruns)

theorem Convergent.upToDate_advance (hw : w.Convergent) (hcurrent : w.UpToDate w.runs)
    (i messageId : ℕ) :
    (w.step (.advance i messageId)).UpToDate (w.step (.advance i messageId)).runs := by
  by_cases hsame : w.step (.advance i messageId) = w
  · rw [hsame]
    exact hcurrent
  · obtain ⟨run, w', run', rest, hruns, hstep, hruns', heq⟩ :=
      advance_cases hw.kept hw.owner hsame
    refine UpToDate.of_perm ?_ hruns'.symm
    rw [heq]
    exact hstep.upToDate (hw.kept.of_perm hruns) (hw.displays.of_perm hruns)
      (hcurrent.of_perm hruns)

theorem Convergent.announced_advance (hw : w.Convergent) (hannounced : w.Announced w.runs)
    (i messageId : ℕ) :
    (w.step (.advance i messageId)).Announced (w.step (.advance i messageId)).runs := by
  by_cases hsame : w.step (.advance i messageId) = w
  · rw [hsame]
    exact hannounced
  · obtain ⟨run, w', run', rest, hruns, hstep, hruns', heq⟩ :=
      advance_cases hw.kept hw.owner hsame
    refine Announced.of_perm ?_ hruns'.symm
    rw [heq]
    exact hstep.announced (hw.kept.of_perm hruns) (hannounced.of_perm hruns)

theorem upToDate_notifyMovie (hcurrent : w.UpToDate w.runs) :
    (w.step .notifyMovie).UpToDate (w.step .notifyMovie).runs := by
  rintro hmarked
  have hbefore : w.notifiedQualityCount = w.qualityCount ∨
      ∃ run ∈ w.runs, run.IsMarking ∧ run.Announces w.qualityCount := by
    refine hmarked.imp_right fun ⟨run, hrun, hmarking, hannounces⟩ =>
      ⟨run, ?_, hmarking, hannounces⟩
    rcases List.mem_append.1 hrun with hrun | hrun
    · exact hrun
    · cases List.mem_singleton.1 hrun
      exact hmarking.elim
  exact (hcurrent hbefore).imp_right fun ⟨run, hrun, hrefreshes⟩ =>
    ⟨run, List.mem_append_left _ hrun, hrefreshes⟩

theorem announced_notifyMovie : (w.step .notifyMovie).Announced (w.step .notifyMovie).runs :=
  .inr ⟨.loading maxConvergencePasses false, List.mem_append_right _ (List.mem_singleton_self _),
    trivial⟩

theorem Convergent.step (hw : w.Convergent) (event : NoticeEvent) : (w.step event).Convergent := by
  cases event with
  | insertQuality => exact hw.insertQuality
  | notifyMovie => exact hw.notifyMovie
  | advance i messageId => exact hw.advance i messageId

/-- Without a further insertion the message stays up to date. -/
theorem Convergent.upToDate_step (hw : w.Convergent) (hcurrent : w.UpToDate w.runs)
    {event : NoticeEvent} (hevent : event ≠ .insertQuality) :
    (w.step event).UpToDate (w.step event).runs := by
  cases event with
  | insertQuality => exact absurd rfl hevent
  | notifyMovie => exact upToDate_notifyMovie hcurrent
  | advance i messageId => exact hw.upToDate_advance hcurrent i messageId

theorem Convergent.announced_step (hw : w.Convergent) (hannounced : w.Announced w.runs)
    {event : NoticeEvent} (hevent : event ≠ .insertQuality) :
    (w.step event).Announced (w.step event).runs := by
  cases event with
  | insertQuality => exact absurd rfl hevent
  | notifyMovie => exact announced_notifyMovie
  | advance i messageId => exact hw.announced_advance hannounced i messageId

theorem Convergent.run (hw : w.Convergent) (events : List NoticeEvent) :
    (Transition.run NoticeWorld.step w events).Convergent :=
  Transition.run_invariant (I := Convergent) (fun _ event hs => hs.step event) hw events

theorem along_of_not_mem {events : List NoticeEvent} (hnone : NoticeEvent.insertQuality ∉ events) :
    Transition.Along NoticeWorld.step (fun _ event => event ≠ .insertQuality) w events :=
  Transition.along_of_forall fun _ hevent _ heq => hnone (heq ▸ hevent)

/-- The message is up to date after the last insertion and stays so. -/
theorem Convergent.upToDate_run (hw : w.Convergent) (hcurrent : w.UpToDate w.runs)
    {events : List NoticeEvent} (hnone : NoticeEvent.insertQuality ∉ events) :
    (Transition.run NoticeWorld.step w events).UpToDate
      (Transition.run NoticeWorld.step w events).runs :=
  (Transition.run_invariant_along (I := fun w => w.Convergent ∧ w.UpToDate w.runs)
    (fun _ event hs hevent => ⟨hs.1.step event, hs.1.upToDate_step hs.2 hevent⟩)
    ⟨hw, hcurrent⟩ (along_of_not_mem hnone)).2

theorem Convergent.announced_run (hw : w.Convergent) (hannounced : w.Announced w.runs)
    {events : List NoticeEvent} (hnone : NoticeEvent.insertQuality ∉ events) :
    (Transition.run NoticeWorld.step w events).Announced
      (Transition.run NoticeWorld.step w events).runs :=
  (Transition.run_invariant_along (I := fun w => w.Convergent ∧ w.Announced w.runs)
    (fun _ event hs hevent => ⟨hs.1.step event, hs.1.announced_step hs.2 hevent⟩)
    ⟨hw, hannounced⟩ (along_of_not_mem hnone)).2

/-- A run that starts after the last insertion announces the final count. -/
theorem Convergent.announced_of_notifyMovie (hw : w.Convergent) {events : List NoticeEvent}
    (hnone : NoticeEvent.insertQuality ∉ events) (hstarts : NoticeEvent.notifyMovie ∈ events) :
    (Transition.run NoticeWorld.step w events).Announced
      (Transition.run NoticeWorld.step w events).runs := by
  obtain ⟨before, after, rfl⟩ := List.append_of_mem hstarts
  rw [Transition.run_append, Transition.run_cons]
  exact (hw.run before).notifyMovie.announced_run announced_notifyMovie
    fun hmem => hnone (List.mem_append_right _ (List.mem_cons_of_mem _ hmem))

/-- Every run has returned, and the chat has the recorded message and no other. -/
structure Settled (w : NoticeWorld) : Prop where
  returned : ∀ run ∈ w.runs, run = .returned
  ids : w.chat.map NoticeMessage.messageId = w.notificationMessageId.toList
  issued : ∀ m ∈ w.chat, m.messageId ∈ w.issued
  positive : 0 ∉ w.issued
  notified : w.notifiedQualityCount ≤ w.qualityCount
  recorded : w.notifiedQualityCount ≠ 0 → w.notificationMessageId.isSome

theorem duplicates_of_returned (h : ∀ run ∈ runs, run = .returned) :
    (runs.flatMap fun run => run.duplicate.toList) = [] :=
  List.flatMap_eq_nil_iff.2 fun run hrun => by
    rw [h run hrun]
    rfl

theorem Settled.convergent (hw : w.Settled) (howner : w.ownerChatId.isSome) : w.Convergent := by
  refine ⟨howner, ⟨?_, ?_, hw.issued, hw.positive, hw.notified, hw.recorded, fun run hrun => ?_⟩,
    fun passes state sent hmem => ?_⟩
  · rw [hw.ids, duplicates_of_returned hw.returned, List.append_nil]
  · rw [hw.ids]
    cases w.notificationMessageId with
    | none => exact List.nodup_nil
    | some messageId => exact List.pairwise_singleton _ messageId
  · rw [hw.returned run hrun]
    exact knows_of_state rfl rfl id fun _ h => by cases h
  · cases hw.returned _ hmem

theorem Convergent.settled (hw : w.Convergent) (hreturned : ∀ run ∈ w.runs, run = .returned) :
    w.Settled := by
  refine ⟨hreturned, ?_, hw.kept.issued, hw.kept.positive, hw.kept.notified, hw.kept.recorded⟩
  have hids := hw.kept.ids
  rw [duplicates_of_returned hreturned, List.append_nil] at hids
  cases hmessage : w.notificationMessageId with
  | none =>
      rw [hmessage] at hids
      exact hids.eq_nil
  | some messageId =>
      rw [hmessage] at hids
      exact List.perm_singleton.1 hids

/-- **The notice converges.**  From a settled film, let runs start, go on and interleave with
insertions in any way.  When at least one run starts after the last insertion and all runs have
returned, the chat has one message about the film; it is the recorded one, and it shows the final
count, which is the count the row says has been announced. -/
theorem owner_notice_converges (initial : NoticeWorld) (howner : initial.ownerChatId.isSome)
    (hsettled : initial.Settled) (before after : List NoticeEvent)
    (hlast : NoticeEvent.insertQuality ∉ after) (hstarts : NoticeEvent.notifyMovie ∈ after)
    (hreturned : ∀ run ∈
      (Transition.run NoticeWorld.step initial (before ++ .insertQuality :: after)).runs,
        run = .returned) :
    let final := Transition.run NoticeWorld.step initial (before ++ .insertQuality :: after)
    ∃ messageId, final.notificationMessageId = some messageId ∧
      final.chat = [⟨messageId, renderNotice final.displayTitle final.qualityCount⟩] ∧
      final.notifiedQualityCount = final.qualityCount := by
  intro final
  have hinserted := ((hsettled.convergent howner).run before)
  have hfinal : final = Transition.run NoticeWorld.step
      ((Transition.run NoticeWorld.step initial before).step .insertQuality) after := by
    rw [← Transition.run_cons, ← Transition.run_append]
  have hconvergent : final.Convergent := (hsettled.convergent howner).run _
  have hcurrent : final.UpToDate final.runs := by
    rw [hfinal]
    exact hinserted.insertQuality.upToDate_run hinserted.upToDate_insertQuality hlast
  have hannounced : final.Announced final.runs := by
    rw [hfinal]
    exact hinserted.insertQuality.announced_of_notifyMovie hlast hstarts
  -- a run that has returned neither announces nor edits
  have hnotified : final.notifiedQualityCount = final.qualityCount := by
    rcases hannounced with h | ⟨run, hrun, hannounces⟩
    · exact h
    · rw [hreturned run hrun] at hannounces
      exact hannounces.elim
  obtain ⟨messageId, hmessage, hchat⟩ :
      final.Shows (renderNotice final.displayTitle final.qualityCount) := by
    rcases hcurrent (.inl hnotified) with h | ⟨run, hrun, hrefreshes⟩
    · exact h
    · rw [hreturned run hrun] at hrefreshes
      exact hrefreshes.elim
  refine ⟨messageId, hmessage, ?_, hnotified⟩
  have hids := (hconvergent.settled hreturned).ids
  rw [hmessage] at hids
  obtain ⟨m, hm⟩ := List.length_eq_one_iff.1
    (by rw [← List.length_map NoticeMessage.messageId, hids]; rfl : final.chat.length = 1)
  rw [hm] at hchat ⊢
  rw [List.mem_singleton.1 hchat]

section Witness

/-- A film that has just been created. -/
def newFilm : NoticeWorld where
  ownerChatId := some 1
  displayTitle := "film".toList
  qualityCount := 0
  notificationMessageId := none
  notifiedQualityCount := 0
  chat := []
  issued := []
  runs := []

theorem newFilm_settled : newFilm.Settled :=
  ⟨fun _ h => (by cases h), rfl, fun _ h => (by cases h), fun h => (by cases h), le_rfl,
    fun h => absurd rfl h⟩

/-- Run 0 reads the count 1. -/
def firstInsertion : List NoticeEvent := [.insertQuality, .notifyMovie, .advance 0 0]

/-- Run 1 announces the count 2 in message 10; run 0 sends message 11, overwrites message 10 with
its old count, deletes message 11, and repairs message 10 in a second pass. -/
def lastInsertion : List NoticeEvent :=
  [.notifyMovie, .advance 1 0, .advance 1 10, .advance 1 0, .advance 0 11, .advance 0 0,
    .advance 1 0, .advance 1 0, .advance 0 0, .advance 0 0, .advance 0 0, .advance 0 0,
    .advance 0 0, .advance 0 0, .advance 0 0, .advance 0 0]

theorem owner_notice_converges_overwritten :
    ∃ messageId,
      (Transition.run NoticeWorld.step newFilm
        (firstInsertion ++ .insertQuality :: lastInsertion)).notificationMessageId =
          some messageId ∧
      (Transition.run NoticeWorld.step newFilm
        (firstInsertion ++ .insertQuality :: lastInsertion)).chat =
        [⟨messageId, renderNotice
          (Transition.run NoticeWorld.step newFilm
            (firstInsertion ++ .insertQuality :: lastInsertion)).displayTitle
          (Transition.run NoticeWorld.step newFilm
            (firstInsertion ++ .insertQuality :: lastInsertion)).qualityCount⟩] ∧
      (Transition.run NoticeWorld.step newFilm
          (firstInsertion ++ .insertQuality :: lastInsertion)).notifiedQualityCount =
        (Transition.run NoticeWorld.step newFilm
          (firstInsertion ++ .insertQuality :: lastInsertion)).qualityCount :=
  owner_notice_converges newFilm rfl newFilm_settled firstInsertion lastInsertion (by decide)
    (by decide) (by decide +kernel)

end Witness

end NoticeWorld
end CineGate

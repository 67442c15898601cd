/-
**What an event writes to a delivery and to an attempt.**

From a sound state no transaction of a delivery is refused, so an event does to every delivery row
and to every attempt what a function of the row says.  The functions are the transactions of
`services/delivery.py` seen from one row.

* `World.deliveryAfter`, `World.attemptAfter` — the functions;
* `World.Sound.find?_deliveries_step`, `World.Sound.find?_attempts_step` — an event applies them;
* `World.Sound.delivery_origin` — a row that was not there is one that a claim has added.
-/

import CineGate.SystemInvariant

set_option relaxedAutoImplicit false
set_option autoImplicit false

namespace CineGate

namespace World

/-- What completing an attempt does to its delivery. -/
def completeDelivery (a : SendAttempt) (clock : Clock) (d : Delivery) : Delivery :=
  match a.phase with
  | .copied messageId =>
      if d.status = .sent then d
      else d.finalizeSent messageId clock.utcnow
        (clock.utcnow + seconds a.prepared.deleteSeconds)
  | .refused error => d.resetFailedSend error.text
  | _ => d

/-- What a worker's report does to the delivery of its task. -/
def reportDelivery (answer : DeleteAnswer) (clock : Clock) (d : Delivery) : Delivery :=
  match answer.report with
  | .deleted => d.whenDeleting (Delivery.markDeleted clock.utcnow)
  | .failed error => d.whenDeleting (Delivery.markDeleteFailed error)
  | .retry error => d.whenDeleting (Delivery.reschedule error clock.utcnow)

/-- What an event does to a delivery. -/
def deliveryAfter (w : World) (event : Event) (d : Delivery) : Delivery :=
  match event with
  | .prepare sessionId render clock =>
      match CineGate.prepare w.db render sessionId clock with
      | .ok (_, .inl prepared) =>
          if d.id = prepared.deliveryId then d.claimSend clock.utcnow else d
      | _ => d
  | .complete attemptId clock =>
      match w.attempts.find? attemptId with
      | some a => if d.id = a.prepared.deliveryId then completeDelivery a clock d else d
      | none => d
  | .recoverStaleSends staleSeconds locked clock =>
      if 0 < staleSeconds ∧ d.isStaleSend (clock.utcnow - seconds staleSeconds) locked then
        d.releaseSend recoveredStaleSendingState
      else d
  | .recoverStaleDeletions staleSeconds clock =>
      if 0 < staleSeconds then
        d.recoverDeletion (clock.utcnow - seconds staleSeconds) clock.now
      else d
  | .claimDueDeletions limit locked clock =>
      if d.id ∈ (w.db.dueDeletions limit clock.utcnow locked).map Delivery.id then
        d.claimDeletion clock.utcnow
      else d
  | .reportDeletion taskId clock =>
      match w.tasks.find? taskId with
      | some task =>
          match task.answer, task.reported with
          | some answer, false =>
              if d.id = task.item.deliveryId then reportDelivery answer clock d else d
          | _, _ => d
      | none => d
  | _ => d

/-- Telegram can give the answer: it issues no message id twice. -/
def accepts (w : World) : CopyAnswer → Bool
  | .copied messageId => messageId ∉ w.issued
  | .refused _ => true

/-- What an event does to an attempt. -/
def attemptAfter (w : World) (event : Event) (a : SendAttempt) : SendAttempt :=
  match event with
  | .copyMessage attemptId answer =>
      if a.id = attemptId ∧ a.phase = .copying ∧ w.accepts answer then
        { a with phase := answer.phase }
      else a
  | .complete attemptId _ =>
      if a.id = attemptId then
        match a.phase with
        | .copied messageId => { a with phase := .finalized messageId }
        | .refused _ => { a with phase := .released }
        | _ => a
      else a
  | .recoverStaleSends staleSeconds locked clock =>
      if 0 < staleSeconds ∧
          a.prepared.deliveryId ∈
            (w.db.staleSends staleSeconds locked clock).map Delivery.id then
        { a with superseded := true }
      else a
  | _ => a

variable {w : World}

/-! ### Deliveries -/

theorem id_completeDelivery (a : SendAttempt) (clock : Clock) (d : Delivery) :
    (completeDelivery a clock d).id = d.id := by
  unfold completeDelivery
  split
  · split <;> rfl
  · exact Delivery.id_resetFailedSend _ d
  · rfl

theorem id_reportDelivery (answer : DeleteAnswer) (clock : Clock) (d : Delivery) :
    (reportDelivery answer clock d).id = d.id := by
  unfold reportDelivery
  split
  · exact Delivery.id_whenDeleting (f := Delivery.markDeleted clock.utcnow) (fun _ => rfl) d
  · next error _ =>
      exact Delivery.id_whenDeleting (f := Delivery.markDeleteFailed error) (fun _ => rfl) d
  · next error _ =>
      exact Delivery.id_whenDeleting (f := Delivery.reschedule error clock.utcnow) (fun _ => rfl) d

theorem id_deliveryAfter (w : World) (event : Event) (d : Delivery) :
    (w.deliveryAfter event d).id = d.id := by
  unfold deliveryAfter
  split
  · split
    · split <;> rfl
    · rfl
  · split
    · split
      · exact id_completeDelivery _ _ d
      · rfl
    · rfl
  · split <;> rfl
  · split
    · exact Delivery.id_recoverDeletion _ _ d
    · rfl
  · split
    · exact Delivery.id_claimDeletion _ d
    · rfl
  · split
    · split
      · split
        · exact id_reportDelivery _ _ d
        · rfl
      · rfl
    · rfl
  · rfl

theorem id_attemptAfter (w : World) (event : Event) (a : SendAttempt) :
    (w.attemptAfter event a).id = a.id := by
  unfold attemptAfter
  split
  · split <;> rfl
  · split
    · split <;> rfl
    · rfl
  · split <;> rfl
  · rfl

/-- The rows of a table after an event that adds none. -/
def deliveriesAfter (w : World) (event : Event) : KeyedTable Delivery Delivery.id :=
  w.db.deliveries.modify (w.deliveryAfter event) (w.id_deliveryAfter event)

theorem deliveriesAfter_eq_self {event : Event}
    (h : ∀ d ∈ w.db.deliveries, w.deliveryAfter event d = d) :
    w.deliveriesAfter event = w.db.deliveries := KeyedTable.modify_eq_self h

/-- `_finalize_sent` for an attempt. -/
theorem Sound.finalizeSent_ok (hw : w.Sound) {a : SendAttempt} (ha : a ∈ w.attempts)
    {messageId : ℕ} (hphase : a.phase = .copied messageId) (clock : Clock) :
    ∃ db result, CineGate.finalizeSent w.db a.sessionId a.prepared.deliveryId messageId
        a.prepared.deleteSeconds clock = .ok (db, result) ∧
      db.deliveries = w.db.deliveries.modifyAt a.prepared.deliveryId (completeDelivery a clock)
        (id_completeDelivery a clock) := by
  obtain ⟨r, d, he, hr, hid⟩ := hw.attempts a ha
  have hreward := (Db.entitlement?_eq_some.1 he).1
  have hmem := (Db.delivery_mem he rfl).1
  have hd : w.db.deliveries.find? a.prepared.deliveryId = some d :=
    hid ▸ KeyedTable.find?_of_mem hmem
  have hne : CineGate.finalizeSent w.db a.sessionId a.prepared.deliveryId messageId
      a.prepared.deleteSeconds clock ≠ .error (.database .uniqueViolation) :=
    hid ▸ hw.not_refused (finalizeSent_commits hw.db.toLinked hw.uniqueKeys he hr trivial)
  unfold CineGate.finalizeSent at hne ⊢
  simp only [hreward, hd] at hne ⊢
  by_cases hsent : d.status = .sent
  · rw [if_pos hsent]
    refine ⟨_, _, rfl, (KeyedTable.modifyAt_eq_self fun d' hd' hid' => ?_).symm⟩
    rw [w.db.deliveries.ext_key hd' hmem (hid'.trans hid.symm)]
    simp [completeDelivery, hphase, hsent]
  · rw [if_neg hsent] at hne ⊢
    refine ⟨_, _, Db.commitDelivery_eq_ok hne, ?_⟩
    refine KeyedTable.modifyAt_congr (Delivery.id_finalizeSent _ _ _) _ fun d' hd' hid' => ?_
    rw [w.db.deliveries.ext_key hd' hmem (hid'.trans hid.symm)]
    simp [completeDelivery, hphase, hsent]

/-- `_reset_failed_send` for an attempt. -/
theorem Sound.resetFailedSend_ok (hw : w.Sound) {a : SendAttempt} (ha : a ∈ w.attempts)
    {error : TelegramError} (hphase : a.phase = .refused error)
    (reason : Option UnavailableReason) (clock : Clock) :
    ∃ db, CineGate.resetFailedSend w.db a.sessionId a.prepared.deliveryId error.text reason clock =
        .ok (db, ()) ∧
      db.deliveries = w.db.deliveries.modifyAt a.prepared.deliveryId (completeDelivery a clock)
        (id_completeDelivery a clock) := by
  obtain ⟨r, d, he, hr, hid⟩ := hw.attempts a ha
  have hreward := (Db.entitlement?_eq_some.1 he).1
  have hd : w.db.deliveries.find? a.prepared.deliveryId = some d :=
    hid ▸ KeyedTable.find?_of_mem (Db.delivery_mem he rfl).1
  have hne : CineGate.resetFailedSend w.db a.sessionId a.prepared.deliveryId error.text reason
      clock ≠ .error (.database .uniqueViolation) :=
    hid ▸ hw.not_refused (resetFailedSend_commits hw.db.toLinked he hr)
  unfold CineGate.resetFailedSend at hne ⊢
  simp only [hreward, hd] at hne ⊢
  refine ⟨_, Db.commitDelivery_eq_ok hne, ?_⟩
  refine KeyedTable.modifyAt_congr (Delivery.id_resetFailedSend _) _ fun d' _ _ => ?_
  simp [completeDelivery, hphase]

theorem Sound.deliveries_complete (hw : w.Sound) {attemptId : ℕ} {clock : Clock} :
    (w.complete attemptId clock).db.deliveries =
      w.deliveriesAfter (.complete attemptId clock) := by
  unfold complete
  cases ha : w.attempts.find? attemptId with
  | none => exact (deliveriesAfter_eq_self fun d _ => by simp [deliveryAfter, ha]).symm
  | some a =>
      have hmem := KeyedTable.mem_of_find? ha
      have hafter : w.db.deliveries.modifyAt a.prepared.deliveryId (completeDelivery a clock)
          (id_completeDelivery a clock) = w.deliveriesAfter (.complete attemptId clock) :=
        KeyedTable.modify_congr _ _ fun d _ => by simp [deliveryAfter, ha]
      have hsame : (∀ d, completeDelivery a clock d = d) →
          w.db.deliveries = w.deliveriesAfter (.complete attemptId clock) := fun h =>
        (deliveriesAfter_eq_self fun d _ => by simp [deliveryAfter, ha, h]).symm
      cases hphase : a.phase with
      | copied messageId =>
          obtain ⟨db, result, h, hdeliveries⟩ := hw.finalizeSent_ok hmem hphase clock
          simp only [hphase, h]
          exact hdeliveries.trans hafter
      | refused error =>
          obtain ⟨db, h, hdeliveries⟩ := hw.resetFailedSend_ok hmem hphase
            (if error.missingSource then some .archiveSourceMissing else none) clock
          simp only [hphase, h]
          exact hdeliveries.trans hafter
      | copying =>
          simp only [hphase]
          exact hsame fun d => by simp [completeDelivery, hphase]
      | finalized messageId =>
          simp only [hphase]
          exact hsame fun d => by simp [completeDelivery, hphase]
      | released =>
          simp only [hphase]
          exact hsame fun d => by simp [completeDelivery, hphase]

theorem Sound.deliveries_recoverStaleSends (hw : w.Sound) {staleSeconds : ℤ} {locked : ℕ → Bool}
    {clock : Clock} : (w.recoverStaleSends staleSeconds locked clock).db.deliveries =
      w.deliveriesAfter (.recoverStaleSends staleSeconds locked clock) := by
  have hne : CineGate.recoverStaleSends w.db staleSeconds locked clock ≠
      .error (.database .uniqueViolation) :=
    hw.not_refused (recoverStaleSends_commits hw.db.toLinked)
  unfold recoverStaleSends
  unfold CineGate.recoverStaleSends at hne ⊢
  by_cases hpos : staleSeconds ≤ 0
  · simp only [hpos, if_true]
    exact (deliveriesAfter_eq_self fun d _ => by simp [deliveryAfter, not_lt.2 hpos]).symm
  · simp only [hpos, if_false] at hne ⊢
    rw [Db.commitDelivery_eq_ok hne]
    refine KeyedTable.modify_congr (by intro _; split <;> rfl) (w.id_deliveryAfter _) fun d _ => ?_
    simp [deliveryAfter, not_le.1 hpos]

theorem Sound.deliveries_recoverStaleDeletions (hw : w.Sound) {staleSeconds : ℤ} {clock : Clock} :
    (w.commit (CineGate.recoverStaleDeletions w.db staleSeconds clock)).db.deliveries =
      w.deliveriesAfter (.recoverStaleDeletions staleSeconds clock) := by
  have hne : CineGate.recoverStaleDeletions w.db staleSeconds clock ≠
      .error (.database .uniqueViolation) :=
    hw.not_refused (recoverStaleDeletions_commits hw.db.toLinked)
  unfold CineGate.recoverStaleDeletions at hne ⊢
  by_cases hpos : staleSeconds ≤ 0
  · simp only [hpos, if_true]
    exact (deliveriesAfter_eq_self fun d _ => by simp [deliveryAfter, not_lt.2 hpos]).symm
  · simp only [hpos, if_false] at hne ⊢
    rw [Db.commitDelivery_eq_ok hne]
    refine KeyedTable.modify_congr (Delivery.id_recoverDeletion _ _) (w.id_deliveryAfter _)
      fun d _ => ?_
    simp [deliveryAfter, not_le.1 hpos]

theorem Sound.deliveries_claimDueDeletions (hw : w.Sound) {limit : ℤ} {locked : ℕ → Bool}
    {clock : Clock} : (w.claimDueDeletions limit locked clock).db.deliveries =
      w.deliveriesAfter (.claimDueDeletions limit locked clock) := by
  have hne : CineGate.claimDueDeletions w.db limit locked clock ≠
      .error (.database .uniqueViolation) :=
    hw.not_refused (claimDueDeletions_commits hw.db.toLinked)
  unfold claimDueDeletions
  unfold CineGate.claimDueDeletions at hne ⊢
  dsimp only at hne ⊢
  rw [Db.commitDelivery_eq_ok hne]
  refine KeyedTable.modify_congr (by intro _; split <;> simp) (w.id_deliveryAfter _) fun d _ => ?_
  simp [deliveryAfter]

theorem Sound.deliveries_reportDeletion (hw : w.Sound) {taskId : ℕ} {clock : Clock} :
    (w.reportDeletion taskId clock).db.deliveries =
      w.deliveriesAfter (.reportDeletion taskId clock) := by
  unfold reportDeletion
  cases ht : w.tasks.find? taskId with
  | none => exact (deliveriesAfter_eq_self fun d _ => by simp [deliveryAfter, ht]).symm
  | some task =>
      cases ha : task.answer with
      | none =>
          simp only [ha]
          exact (deliveriesAfter_eq_self fun d _ => by simp [deliveryAfter, ht, ha]).symm
      | some answer =>
          cases hrep : task.reported with
          | true =>
              simp only [ha, hrep]
              exact (deliveriesAfter_eq_self fun d _ => by simp [deliveryAfter, ht, ha, hrep]).symm
          | false =>
              -- the three reports differ in what they write to the row
              have hreport : ∀ (f : Delivery → Delivery) (hf : ∀ d : Delivery,
                  (d.whenDeleting f).id = d.id),
                    (∀ d : Delivery, d.whenDeleting f = reportDelivery answer clock d) →
                    w.db.deliveries.modifyAt task.item.deliveryId (Delivery.whenDeleting f) hf =
                      w.deliveriesAfter (.reportDeletion taskId clock) := fun f hf h =>
                KeyedTable.modify_congr (by intro d; split <;> simp [hf]) (w.id_deliveryAfter _)
                  fun d _ => by simp [deliveryAfter, ht, ha, hrep, h]
              simp only [ha, hrep]
              cases hanswer : answer.report with
              | deleted =>
                  have hne : markDeleted w.db task.item.deliveryId clock ≠
                      .error (.database .uniqueViolation) :=
                    hw.not_refused (markDeleted_commits hw.db.toLinked)
                  unfold markDeleted at hne ⊢
                  simp only [Db.commitDelivery_eq_ok hne]
                  exact hreport (Delivery.markDeleted clock.utcnow)
                    (Delivery.id_whenDeleting fun _ => rfl)
                    fun d => by simp [reportDelivery, hanswer]
              | failed error =>
                  have hne : markDeleteFailed w.db task.item.deliveryId error ≠
                      .error (.database .uniqueViolation) :=
                    hw.not_refused (markDeleteFailed_commits hw.db.toLinked)
                  unfold markDeleteFailed at hne ⊢
                  simp only [Db.commitDelivery_eq_ok hne]
                  exact hreport (Delivery.markDeleteFailed error)
                    (Delivery.id_whenDeleting fun _ => rfl)
                    fun d => by simp [reportDelivery, hanswer]
              | retry error =>
                  have hne : rescheduleDelete w.db task.item.deliveryId error clock ≠
                      .error (.database .uniqueViolation) :=
                    hw.not_refused (rescheduleDelete_commits hw.db.toLinked)
                  unfold rescheduleDelete at hne ⊢
                  simp only [Db.commitDelivery_eq_ok hne]
                  exact hreport (Delivery.reschedule error clock.utcnow)
                    (Delivery.id_whenDeleting fun _ => rfl)
                    fun d => by simp [reportDelivery, hanswer]

/-- A transaction of the reward sessions writes to the sessions only. -/
def OnlySessions {ε α : Type} (db : Db) (result : Except ε (Db × α)) : Prop :=
  ∀ db' value, result = .ok (db', value) →
    db'.archive = db.archive ∧ db'.deliveries = db.deliveries

section OnlySessions

variable {α : Type} {db : Db} {telegramUserId : ℤ} {clock : Clock} {sessionId : ℕ}

theorem onlySessions_error {error : RewardError} :
    OnlySessions db (Except.error error : RewardTransaction α) := by
  rintro db' value ⟨⟩

theorem onlySessions_ok {value : α} :
    OnlySessions db (Except.ok (db, value) : RewardTransaction α) := by
  rintro db' value ⟨⟩
  exact ⟨rfl, rfl⟩

theorem onlySessions_commitReward {db₁ : Db} {value : α} (harchive : db₁.archive = db.archive)
    (hdeliveries : db₁.deliveries = db.deliveries) :
    OnlySessions db (db₁.commitReward value) := by
  intro db' value' h
  unfold Db.commitReward at h
  split at h
  · cases h
    exact ⟨harchive, hdeliveries⟩
  · cases h

theorem onlySessions_withCurrent {now : Instant} {body : RewardSession → RewardTransaction α}
    (h : ∀ r, OnlySessions db (body r)) :
    OnlySessions db (withCurrent db sessionId telegramUserId now body) := by
  unfold withCurrent
  split
  · exact onlySessions_error
  · split
    · exact onlySessions_error
    · exact h _

theorem onlySessions_get : OnlySessions db (get db sessionId clock) := by
  unfold get
  split
  · exact onlySessions_error
  · exact onlySessions_ok

theorem onlySessions_claimPrompt :
    OnlySessions db (claimPrompt db sessionId telegramUserId clock) := by
  refine onlySessions_withCurrent fun r => ?_
  split
  · exact onlySessions_ok
  · split
    · exact onlySessions_ok
    · exact onlySessions_commitReward rfl rfl

theorem onlySessions_completePrompt {messageId : ℕ} :
    OnlySessions db (completePrompt db sessionId telegramUserId messageId clock) := by
  refine onlySessions_withCurrent fun r => ?_
  split
  · exact onlySessions_ok
  · exact onlySessions_commitReward rfl rfl

theorem onlySessions_resetPromptClaim :
    OnlySessions db (resetPromptClaim db sessionId telegramUserId) := by
  unfold resetPromptClaim
  split
  · exact onlySessions_ok
  · split
    · exact onlySessions_ok
    · exact onlySessions_commitReward rfl rfl

theorem onlySessions_markClientCompleted :
    OnlySessions db (markClientCompleted db sessionId telegramUserId clock) :=
  onlySessions_withCurrent fun _ => onlySessions_commitReward rfl rfl

theorem onlySessions_markProviderConfirmed :
    OnlySessions db (markProviderConfirmed db telegramUserId clock) := by
  unfold markProviderConfirmed
  dsimp only
  split
  · exact onlySessions_commitReward rfl rfl
  · exact onlySessions_commitReward rfl rfl

theorem releaseActive_frame {active : Option RewardSession} {now : Instant} :
    (db.releaseActive active now).1.archive = db.archive ∧
      (db.releaseActive active now).1.deliveries = db.deliveries := by
  unfold Db.releaseActive
  split
  · split
    · split <;> exact ⟨rfl, rfl⟩
    · exact ⟨rfl, rfl⟩
  · exact ⟨rfl, rfl⟩

theorem onlySessions_getOrCreate {movieId newId : ℕ} {quality : Str} :
    OnlySessions db (getOrCreate db telegramUserId movieId quality newId clock) := by
  unfold getOrCreate
  cases db.archive.offeredQuality? movieId quality with
  | none => exact onlySessions_error
  | some row =>
      have hframe : ∀ active, ((db.expireOverdue telegramUserId clock.utcnow).releaseActive active
          clock.utcnow).1.archive = db.archive ∧ ((db.expireOverdue telegramUserId
            clock.utcnow).releaseActive active clock.utcnow).1.deliveries = db.deliveries :=
        fun _ => releaseActive_frame
      obtain ⟨harchive, hdeliveries⟩ :=
        hframe ((db.expireOverdue telegramUserId clock.utcnow).activeSession? telegramUserId)
      dsimp only
      generalize (db.expireOverdue telegramUserId clock.utcnow).releaseActive _ _ = released at *
      obtain ⟨db₂, active⟩ := released
      dsimp only at harchive hdeliveries ⊢
      split
      · exact onlySessions_commitReward harchive hdeliveries
      · split
        · split
          · exact onlySessions_commitReward harchive hdeliveries
          · exact onlySessions_error
        · split
          · exact onlySessions_error
          · split
            · exact onlySessions_error
            · exact onlySessions_commitReward harchive hdeliveries

end OnlySessions

theorem commit_frame {ε α : Type} {result : Except ε (Db × α)} (h : OnlySessions w.db result) :
    (w.commit result).db.archive = w.db.archive ∧
      (w.commit result).db.deliveries = w.db.deliveries := by
  unfold commit
  split
  · exact h _ _ rfl
  · exact ⟨rfl, rfl⟩

/-- `_prepare` writes to the delivery it claims and to no other. -/
theorem Sound.find?_deliveries_prepare (hw : w.Sound) {sessionId : ℕ} {render : CaptionRenderer}
    {clock : Clock} {id : ℕ} {d : Delivery} (hd : w.db.deliveries.find? id = some d) :
    (w.prepare sessionId render clock).db.deliveries.find? id =
      some (w.deliveryAfter (.prepare sessionId render clock) d) := by
  have hid : d.id = id := KeyedTable.key_of_find? hd
  unfold prepare
  cases h : CineGate.prepare w.db render sessionId clock with
  | error error => simpa [deliveryAfter, h] using hd
  | ok value =>
      obtain ⟨db', prepared | result⟩ := value
      · obtain ⟨r, d', movie, row, hclaimed⟩ := prepare_claimed hw.db hw.uniqueKeys h
        simp only [deliveryAfter, h]
        rw [hclaimed.deliveries id, hclaimed.deliveryId]
        by_cases heq : d.id = d'.id
        · have hd' : d = d' := by
            rcases hclaimed.origin with hfind | ⟨hnone, -⟩
            · exact Option.some.inj (hd.symm.trans ((hid.symm.trans heq) ▸ hfind))
            · rw [← heq, hid, hd] at hnone
              cases hnone
          rw [if_pos (hid.symm.trans heq), if_pos heq, hd']
        · rw [if_neg fun hid' => heq (hid.trans hid'), if_neg heq, hd]
      · simp only [deliveryAfter, h]
        rw [prepare_unclaimed hw.db hw.uniqueKeys h, hd]

theorem commitArchive_deliveries {result : Except DbError (ArchiveTables × ArchiveIndexResult)} :
    (w.commitArchive result).db.deliveries = w.db.deliveries := by
  unfold commitArchive
  split <;> rfl

/-- The cases of `deliveryAfter`. -/
inductive DeliveryStep (w : World) (event : Event) (d : Delivery) : Delivery → Prop
  | idle : DeliveryStep w event d d
  | claimed (sessionId : ℕ) (render : CaptionRenderer) (clock : Clock) (db' : Db)
      (prepared : PreparedDelivery) (he : event = .prepare sessionId render clock)
      (h : CineGate.prepare w.db render sessionId clock = .ok (db', .inl prepared))
      (hid : d.id = prepared.deliveryId) : DeliveryStep w event d (d.claimSend clock.utcnow)
  | finalized (attemptId : ℕ) (clock : Clock) (a : SendAttempt) (messageId : ℕ)
      (he : event = .complete attemptId clock) (ha : w.attempts.find? attemptId = some a)
      (hid : d.id = a.prepared.deliveryId) (hphase : a.phase = .copied messageId)
      (hsent : d.status ≠ .sent) : DeliveryStep w event d
        (d.finalizeSent messageId clock.utcnow (clock.utcnow + seconds a.prepared.deleteSeconds))
  | reset (attemptId : ℕ) (clock : Clock) (a : SendAttempt) (error : TelegramError)
      (he : event = .complete attemptId clock) (ha : w.attempts.find? attemptId = some a)
      (hid : d.id = a.prepared.deliveryId) (hphase : a.phase = .refused error)
      (hsending : d.status = .sending) :
      DeliveryStep w event d (d.releaseSend (boundedError error.text))
  | sendRecovered (staleSeconds : ℤ) (locked : ℕ → Bool) (clock : Clock)
      (he : event = .recoverStaleSends staleSeconds locked clock) (hpos : 0 < staleSeconds)
      (hstale : d.isStaleSend (clock.utcnow - seconds staleSeconds) locked) :
      DeliveryStep w event d (d.releaseSend recoveredStaleSendingState)
  | deletionRecovered (staleSeconds : ℤ) (clock : Clock)
      (he : event = .recoverStaleDeletions staleSeconds clock) (hdeleting : d.status = .deleting) :
      DeliveryStep w event d
        { d with status := .sent, deleteStartedAt := none, nextAttemptAt := some clock.now }
  | deletionClaimed (limit : ℤ) (locked : ℕ → Bool) (clock : Clock)
      (he : event = .claimDueDeletions limit locked clock)
      (hdue : d ∈ w.db.dueDeletions limit clock.utcnow locked) :
      DeliveryStep w event d (d.claimDeletion clock.utcnow)
  | reported (taskId : ℕ) (clock : Clock) (task : DeletionTask) (answer : DeleteAnswer)
      (he : event = .reportDeletion taskId clock) (ht : w.tasks.find? taskId = some task)
      (ha : task.answer = some answer) (hopen : task.reported = false)
      (hid : d.id = task.item.deliveryId) (hdeleting : d.status = .deleting) :
      DeliveryStep w event d (reportDelivery answer clock d)

/-- A report does nothing to a delivery that is not being deleted. -/
theorem reportDelivery_of_not_deleting {answer : DeleteAnswer} {clock : Clock} {d : Delivery}
    (h : d.status ≠ .deleting) : reportDelivery answer clock d = d := by
  unfold reportDelivery
  split <;> exact if_neg h

/-- **An event does one thing to a delivery, or nothing.** -/
theorem deliveryStep {event : Event} {d : Delivery} (hd : d ∈ w.db.deliveries) :
    DeliveryStep w event d (w.deliveryAfter event d) := by
  cases event with
  | prepare sessionId render clock =>
      simp only [deliveryAfter]
      split
      · next db' prepared h =>
          split
          · next hid => exact .claimed sessionId render clock db' prepared rfl h hid
          · exact .idle
      · exact .idle
  | complete attemptId clock =>
      simp only [deliveryAfter]
      split
      · next a ha =>
          split
          · next hid =>
              unfold completeDelivery
              split
              · next messageId hphase =>
                  split
                  · exact .idle
                  · next hsent =>
                      exact .finalized attemptId clock a messageId rfl ha hid hphase hsent
              · next error hphase =>
                  unfold Delivery.resetFailedSend
                  split
                  · next hsending => exact .reset attemptId clock a error rfl ha hid hphase hsending
                  · exact .idle
              · exact .idle
          · exact .idle
      · exact .idle
  | recoverStaleSends staleSeconds locked clock =>
      simp only [deliveryAfter]
      split
      · next h => exact .sendRecovered staleSeconds locked clock rfl h.1 h.2
      · exact .idle
  | recoverStaleDeletions staleSeconds clock =>
      simp only [deliveryAfter, Delivery.recoverDeletion]
      split
      · split
        · next h =>
            simp only [Bool.and_eq_true, decide_eq_true_eq] at h
            exact .deletionRecovered staleSeconds clock rfl h.1
        · exact .idle
      · exact .idle
  | claimDueDeletions limit locked clock =>
      simp only [deliveryAfter]
      split
      · next hmem =>
          obtain ⟨d', hd', hid⟩ := List.mem_map.1 hmem
          have heq : d' = d := w.db.deliveries.ext_key (Db.mem_dueDeletions hd').1 hd hid
          exact .deletionClaimed limit locked clock rfl (heq ▸ hd')
      · exact .idle
  | reportDeletion taskId clock =>
      simp only [deliveryAfter]
      split
      · next task ht =>
          split
          · next answer ha hopen =>
              split
              · next hid =>
                  by_cases hdeleting : d.status = .deleting
                  · exact .reported taskId clock task answer rfl ht ha hopen hid hdeleting
                  · rw [reportDelivery_of_not_deleting hdeleting]
                    exact .idle
              · exact .idle
          · exact .idle
      · exact .idle
  | _ => exact .idle

/-- The claim of a send is given for a pending delivery. -/
theorem Sound.pending_of_prepare (hw : w.Sound) {render : CaptionRenderer} {sessionId : ℕ}
    {clock : Clock} {db' : Db} {prepared : PreparedDelivery}
    (h : CineGate.prepare w.db render sessionId clock = .ok (db', .inl prepared)) {d : Delivery}
    (hd : d ∈ w.db.deliveries) (hid : d.id = prepared.deliveryId) : d.status = .pending := by
  obtain ⟨r, d₀, movie, row, hclaimed⟩ := prepare_claimed hw.db hw.uniqueKeys h
  rw [hclaimed.deliveryId] at hid
  rcases hclaimed.origin with hfind | ⟨hnone, -⟩
  · have heq : d = d₀ := w.db.deliveries.ext_key hd (KeyedTable.mem_of_find? hfind) hid
    exact heq ▸ hclaimed.pending
  · exact absurd hid (KeyedTable.find?_eq_none.1 hnone d hd)

/-! ### Attempts -/

/-- The completion of an attempt ends it: neither of its transactions is refused. -/
theorem Sound.attempts_complete (hw : w.Sound) {attemptId : ℕ} {clock : Clock} :
    (w.complete attemptId clock).attempts =
      w.attempts.modify (w.attemptAfter (.complete attemptId clock))
        (w.id_attemptAfter (.complete attemptId clock)) := by
  have hsame : (∀ a ∈ w.attempts, w.attemptAfter (.complete attemptId clock) a = a) →
      w.attempts = w.attempts.modify (w.attemptAfter (.complete attemptId clock))
        (w.id_attemptAfter (.complete attemptId clock)) := fun h =>
    (KeyedTable.modify_eq_self h).symm
  unfold complete
  cases ha : w.attempts.find? attemptId with
  | none =>
      refine hsame fun a hmem => if_neg fun hid => ?_
      exact KeyedTable.find?_eq_none.1 ha a hmem hid
  | some a =>
      obtain ⟨hmem, hid⟩ := KeyedTable.find?_eq_some.1 ha
      -- the attempt is the only one with its id
      have hunique : ∀ a' ∈ w.attempts, a'.id = attemptId → a' = a := fun a' ha' hid' =>
        w.attempts.ext_key ha' hmem (hid'.trans hid.symm)
      have hset : ∀ phase, w.attemptAfter (.complete attemptId clock) a = { a with phase } →
          (w.attempts.modifyAt attemptId (fun a => { a with phase }) fun _ => rfl) =
            w.attempts.modify (w.attemptAfter (.complete attemptId clock))
              (w.id_attemptAfter (.complete attemptId clock)) := fun phase h => by
        refine KeyedTable.modify_congr (by intro a; split <;> rfl) (w.id_attemptAfter _)
          fun a' ha' => ?_
        split
        · next hid' =>
            rw [hunique a' ha' hid', h]
        · next hid' => exact (if_neg hid').symm
      cases hphase : a.phase with
      | copied messageId =>
          obtain ⟨db, result, h, -⟩ := hw.finalizeSent_ok hmem hphase clock
          simp only [hphase, h]
          exact hset _ (by simp [attemptAfter, hid, hphase])
      | refused error =>
          obtain ⟨db, h, -⟩ := hw.resetFailedSend_ok hmem hphase
            (if error.missingSource then some .archiveSourceMissing else none) clock
          simp only [hphase, h]
          exact hset _ (by simp [attemptAfter, hid, hphase])
      | _ =>
          simp only [hphase]
          refine hsame fun a' ha' => ?_
          by_cases hid' : a'.id = attemptId
          · simp [attemptAfter, hunique a' ha' hid', hphase]
          · exact if_neg hid'

theorem Sound.attempts_recoverStaleSends (hw : w.Sound) {staleSeconds : ℤ} {locked : ℕ → Bool}
    {clock : Clock} : (w.recoverStaleSends staleSeconds locked clock).attempts =
      w.attempts.modify (w.attemptAfter (.recoverStaleSends staleSeconds locked clock))
        (w.id_attemptAfter (.recoverStaleSends staleSeconds locked clock)) := by
  have hne : CineGate.recoverStaleSends w.db staleSeconds locked clock ≠
      .error (.database .uniqueViolation) :=
    hw.not_refused (recoverStaleSends_commits hw.db.toLinked)
  unfold recoverStaleSends
  unfold CineGate.recoverStaleSends at hne ⊢
  by_cases hpos : staleSeconds ≤ 0
  · simp only [hpos, if_true]
    exact (KeyedTable.modify_eq_self fun a _ => by simp [attemptAfter, not_lt.2 hpos]).symm
  · simp only [hpos, if_false] at hne ⊢
    rw [Db.commitDelivery_eq_ok hne]
    refine KeyedTable.modify_congr (by intro _; split <;> rfl) (w.id_attemptAfter _) fun a _ => ?_
    simp [attemptAfter, not_le.1 hpos]

theorem attempts_copyMessage {attemptId : ℕ} {answer : CopyAnswer} :
    (w.copyMessage attemptId answer).attempts =
      w.attempts.modify (w.attemptAfter (.copyMessage attemptId answer))
        (w.id_attemptAfter (.copyMessage attemptId answer)) := by
  have hsame : (∀ a ∈ w.attempts, w.attemptAfter (.copyMessage attemptId answer) a = a) →
      w.attempts = w.attempts.modify (w.attemptAfter (.copyMessage attemptId answer))
        (w.id_attemptAfter (.copyMessage attemptId answer)) := fun h =>
    (KeyedTable.modify_eq_self h).symm
  unfold copyMessage
  cases ha : w.attempts.find? attemptId with
  | none => exact hsame fun a hmem => if_neg fun h => KeyedTable.find?_eq_none.1 ha a hmem h.1
  | some a =>
      obtain ⟨hmem, hid⟩ := KeyedTable.find?_eq_some.1 ha
      have hunique : ∀ a' ∈ w.attempts, a'.id = attemptId → a' = a := fun a' ha' hid' =>
        w.attempts.ext_key ha' hmem (hid'.trans hid.symm)
      have hset : a.phase = .copying → w.accepts answer →
          (w.attempts.modifyAt attemptId (fun a => { a with phase := answer.phase }) fun _ => rfl) =
            w.attempts.modify (w.attemptAfter (.copyMessage attemptId answer))
              (w.id_attemptAfter (.copyMessage attemptId answer)) := fun hcopying haccepts => by
        refine KeyedTable.modify_congr (by intro a; split <;> rfl) (w.id_attemptAfter _)
          fun a' ha' => ?_
        split
        · next hid' => simp [attemptAfter, hunique a' ha' hid', hid, hcopying, haccepts]
        · next hid' => exact (if_neg fun h => hid' h.1).symm
      dsimp only
      split
      · next hcopying =>
          refine hsame fun a' ha' => if_neg ?_
          rintro ⟨hid', hcopying', -⟩
          exact hcopying (hunique a' ha' hid' ▸ hcopying')
      · next hcopying =>
          cases answer with
          | copied messageId =>
              dsimp only
              split
              · next hissued =>
                  exact hsame fun a' _ => if_neg fun h => by simp [accepts, hissued] at h
              · next hissued => exact hset (not_not.1 hcopying) (by simp [accepts, hissued])
          | refused error => exact hset (not_not.1 hcopying) rfl

section Step

variable [UnicodeData] {parser : ArchiveParser}

variable (parser) in
/-- **An event does to every attempt what `attemptAfter` says.** -/
theorem Sound.find?_attempts_step (hw : w.Sound) (event : Event) {id : ℕ} {a : SendAttempt}
    (ha : w.attempts.find? id = some a) :
    (World.step parser w event).attempts.find? id = some (w.attemptAfter event a) := by
  have modified : ∀ {attempts : KeyedTable SendAttempt SendAttempt.id} {event' : Event},
      attempts = w.attempts.modify (w.attemptAfter event') (w.id_attemptAfter event') →
        attempts.find? id = some (w.attemptAfter event' a) := fun h => by
    rw [h, KeyedTable.find?_modify, ha, Option.map_some]
  cases hsends : event.sends with
  | false =>
      rw [attempts_of_not_sends hsends, ha]
      cases event with
      | prepare sessionId render clock => cases hsends
      | copyMessage attemptId answer => cases hsends
      | complete attemptId clock => cases hsends
      | recoverStaleSends staleSeconds locked clock => cases hsends
      | _ => rfl
  | true =>
      cases event with
      | prepare sessionId render clock =>
          simp only [World.step, prepare]
          split
          · rw [KeyedTable.find?_insert w.attempts.find?_freshKey, if_neg, ha]
            · rfl
            · obtain ⟨hmem, rfl⟩ := KeyedTable.find?_eq_some.1 ha
              exact (KeyedTable.lt_freshKey hmem).ne'
          · exact ha
          · exact ha
      | copyMessage attemptId answer => exact modified attempts_copyMessage
      | complete attemptId clock => exact modified hw.attempts_complete
      | recoverStaleSends staleSeconds locked clock => exact modified hw.attempts_recoverStaleSends
      | _ => cases hsends

/-- An attempt after an event is what the event makes of an earlier one, or the event has begun
it. -/
theorem Sound.attempt_step_origin (hw : w.Sound) {event : Event} {a : SendAttempt}
    (ha : a ∈ (World.step parser w event).attempts) :
    (∃ a₀ ∈ w.attempts, a₀.id = a.id ∧ a = w.attemptAfter event a₀) ∨
      w.Begins event (World.step parser w event).db a := by
  refine (attempt_origin ha).imp_left ?_
  rintro ⟨a₀, ha₀, hstep⟩
  have hid := hstep.frame.1
  have hfind := hw.find?_attempts_step parser event (KeyedTable.find?_of_mem ha₀)
  rw [hid, KeyedTable.find?_of_mem ha] at hfind
  exact ⟨a₀, ha₀, hid, Option.some.inj hfind⟩

/-! ### Deliveries after an event -/

/-- An event other than a claim does to every delivery what `deliveryAfter` says. -/
theorem Sound.deliveries_step (hw : w.Sound) {event : Event}
    (h : ∀ sessionId render clock, event ≠ .prepare sessionId render clock) :
    (World.step parser w event).db.deliveries = w.deliveriesAfter event := by
  have kept : ∀ {w' : World} {event' : Event}, (∀ d, w.deliveryAfter event' d = d) →
      w'.db.deliveries = w.db.deliveries → w'.db.deliveries = w.deliveriesAfter event' :=
    fun hsame h => h.trans (deliveriesAfter_eq_self fun d _ => hsame d).symm
  cases event with
  | getOrCreate telegramUserId movieId quality newId clock =>
      exact kept (fun _ => rfl) (commit_frame onlySessions_getOrCreate).2
  | get sessionId clock => exact kept (fun _ => rfl) (commit_frame onlySessions_get).2
  | claimPrompt sessionId telegramUserId clock =>
      exact kept (fun _ => rfl) (commit_frame onlySessions_claimPrompt).2
  | completePrompt sessionId telegramUserId messageId clock =>
      exact kept (fun _ => rfl) (commit_frame onlySessions_completePrompt).2
  | resetPromptClaim sessionId telegramUserId =>
      exact kept (fun _ => rfl) (commit_frame onlySessions_resetPromptClaim).2
  | markClientCompleted sessionId telegramUserId clock =>
      exact kept (fun _ => rfl) (commit_frame onlySessions_markClientCompleted).2
  | markProviderConfirmed telegramUserId clock =>
      exact kept (fun _ => rfl) (commit_frame onlySessions_markProviderConfirmed).2
  | prepare sessionId render clock => exact absurd rfl (h sessionId render clock)
  | copyMessage attemptId answer =>
      exact kept (fun _ => rfl) (congrArg Db.deliveries copyMessage_db)
  | complete attemptId clock => exact hw.deliveries_complete
  | recoverStaleSends staleSeconds locked clock => exact hw.deliveries_recoverStaleSends
  | recoverStaleDeletions staleSeconds clock => exact hw.deliveries_recoverStaleDeletions
  | claimDueDeletions limit locked clock => exact hw.deliveries_claimDueDeletions
  | deleteMessage taskId answer =>
      exact kept (fun _ => rfl) (congrArg Db.deliveries deleteMessage_db)
  | reportDeletion taskId clock => exact hw.deliveries_reportDeletion
  | ingest channelId message => exact kept (fun _ => rfl) commitArchive_deliveries
  | reconcileEdit channelId message expectedSnapshotVersion =>
      exact kept (fun _ => rfl) commitArchive_deliveries
  | changeArchive archive =>
      refine kept (fun _ => rfl) ?_
      simp only [World.step]
      split <;> rfl
  | changeSettings settings => exact kept (fun _ => rfl) rfl

variable (parser) in
/-- **An event does to every delivery what `deliveryAfter` says.** -/
theorem Sound.find?_deliveries_step (hw : w.Sound) (event : Event) {id : ℕ} {d : Delivery}
    (hd : w.db.deliveries.find? id = some d) :
    (World.step parser w event).db.deliveries.find? id = some (w.deliveryAfter event d) := by
  by_cases hprepare : ∃ sessionId render clock, event = .prepare sessionId render clock
  · obtain ⟨sessionId, render, clock, rfl⟩ := hprepare
    exact hw.find?_deliveries_prepare hd
  · rw [hw.deliveries_step fun s r c h => hprepare ⟨s, r, c, h⟩, deliveriesAfter,
      KeyedTable.find?_modify, hd, Option.map_some]

/-- **A delivery that was not there is the one that a claim has added.** -/
theorem Sound.delivery_origin (hw : w.Sound) {event : Event} {id : ℕ} {d : Delivery}
    (hd : (World.step parser w event).db.deliveries.find? id = some d)
    (hnew : w.db.deliveries.find? id = none) :
    ∃ a ∈ (World.step parser w event).attempts,
      w.Begins event (World.step parser w event).db a ∧ a.prepared.deliveryId = id ∧
        d.status = .sending ∧ d.telegramMessageId = none := by
  by_cases hprepare : ∃ sessionId render clock, event = .prepare sessionId render clock
  · obtain ⟨sessionId, render, clock, rfl⟩ := hprepare
    simp only [World.step, prepare] at hd ⊢
    cases h : CineGate.prepare w.db render sessionId clock with
    | error error =>
        rw [h] at hd
        cases hnew.symm.trans hd
    | ok value =>
        obtain ⟨db', prepared | result⟩ := value
        · -- only a claimed send can add a row
          obtain ⟨r, d', movie, row, hclaimed⟩ := prepare_claimed hw.db hw.uniqueKeys h
          rw [h] at hd
          have hd : db'.deliveries.find? id = some d := hd
          rw [hclaimed.deliveries id] at hd
          split at hd
          · next hid =>
              cases hd
              refine ⟨_, KeyedTable.mem_of_find? (KeyedTable.find?_insert_self
                w.attempts.find?_freshKey), ⟨render, clock, rfl, h, rfl, rfl, rfl⟩,
                hclaimed.deliveryId.trans hid.symm, rfl, ?_⟩
              rcases hclaimed.origin with hfind | ⟨-, hrow⟩
              · rw [← hid, hnew] at hfind
                cases hfind
              · rw [hrow]
                rfl
          · rw [hnew] at hd
            cases hd
        · rw [h] at hd
          have hd : db'.deliveries.find? id = some d := hd
          rw [prepare_unclaimed hw.db hw.uniqueKeys h, hnew] at hd
          cases hd
  · rw [hw.deliveries_step fun s r c h => hprepare ⟨s, r, c, h⟩, deliveriesAfter,
      KeyedTable.find?_modify, hnew] at hd
    cases hd

end Step

end World
end CineGate

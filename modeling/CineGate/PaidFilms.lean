/-
**Every film is paid for.**

A film is sent when two proofs have come in: the claim of its user, and the word of the ad network.
Through the endpoints of the mini app a proof gets into the database in one way only, by a request
that has shown who it comes from; and one request records a proof of one session at most.  So
whatever requests come in, in whatever order their handlers run and wherever a crash hits them, a
user is never sent more films than the ad network has confirmed ads.

* `World.AddsNoProof` — which transactions leave the proofs of every session;
* `RewardRequest.Vouches` — what a request has to show before it records a proof;
* `WebWorld.Paid` — the invariant: every proof has been recorded by a request of its own;
* `WebWorld.every_film_is_paid_for` — the theorem.
-/

import CineGate.RewardEndpoints
import CineGate.RewardGuarantees
import CineGate.DeliveredFile

set_option relaxedAutoImplicit false
set_option autoImplicit false

namespace CineGate

open World (Proof)

/-! ### Transactions that record no proof -/

/-- When a proof has been recorded. -/
def World.Proof.time : Proof → RewardSession → Option Instant
  | .client => RewardSession.clientCompletedAt
  | .provider => RewardSession.providerConfirmedAt

/-- Every proof of a session has been there before. -/
def Db.AddsNoProof (db db' : Db) : Prop :=
  ∀ r' ∈ db'.rewardSessions, ∀ proof : Proof, (proof.time r').isSome →
    ∃ r ∈ db.rewardSessions, r.id = r'.id ∧ (proof.time r).isSome

/-- A transaction that records no proof. -/
def AddsNoProof {ε α : Type} (db : Db) (result : Except ε (Db × α)) : Prop :=
  ∀ db' value, result = .ok (db', value) → db.AddsNoProof db'

namespace Db

variable {db db' db'' : Db}

theorem AddsNoProof.of_eq (h : db'.rewardSessions = db.rewardSessions) : db.AddsNoProof db' := by
  intro r' hr' proof hproof
  exact ⟨r', h ▸ hr', rfl, hproof⟩

theorem AddsNoProof.trans (h : db.AddsNoProof db') (h' : db'.AddsNoProof db'') :
    db.AddsNoProof db'' := by
  intro r'' hr'' proof hproof
  obtain ⟨r', hr', hid', hproof'⟩ := h' r'' hr'' proof hproof
  obtain ⟨r, hr, hid, hproof⟩ := h r' hr' proof hproof'
  exact ⟨r, hr, hid.trans hid', hproof⟩

/-- The sessions are written to, their proofs are not. -/
theorem AddsNoProof.modify {f : RewardSession → RewardSession} {hf : ∀ r, (f r).id = r.id}
    {deliveries : KeyedTable Delivery Delivery.id}
    (hproofs : ∀ (r : RewardSession) (proof : Proof), proof.time (f r) = proof.time r) :
    db.AddsNoProof { db with rewardSessions := db.rewardSessions.modify f hf, deliveries } := by
  intro r' hr' proof hproof
  have hr' : r' ∈ db.rewardSessions.modify f hf := hr'
  obtain ⟨r, hr, rfl⟩ := KeyedTable.mem_modify.1 hr'
  exact ⟨r, hr, (hf r).symm, hproofs r proof ▸ hproof⟩

/-- One session is written to. -/
theorem AddsNoProof.updateReward {sessionId : ℕ} {f : RewardSession → RewardSession}
    {hf : ∀ r, (f r).id = r.id}
    (hproofs : ∀ (r : RewardSession) (proof : Proof), proof.time (f r) = proof.time r) :
    db.AddsNoProof (db.updateReward sessionId f hf) := by
  refine AddsNoProof.modify fun r proof => ?_
  split
  · exact hproofs r proof
  · rfl

/-- A delivery is written to as well. -/
theorem AddsNoProof.updateDelivery (h : db.AddsNoProof db') {deliveryId : ℕ}
    {g : Delivery → Delivery}
    {hg : ∀ d, (g d).id = d.id} : db.AddsNoProof (db'.updateDelivery deliveryId g hg) :=
  h.trans (AddsNoProof.of_eq rfl)

/-- A session without a proof is added. -/
theorem AddsNoProof.insert {r : RewardSession}
    (h : db'.rewardSessions = db.rewardSessions.insert r)
    (hnone : ∀ proof : Proof, proof.time r = none) :
    db.AddsNoProof db' := by
  intro r' hr' proof hproof
  rw [h] at hr'
  rcases KeyedTable.mem_of_mem_insert hr' with rfl | hr'
  · rw [hnone proof] at hproof
    cases hproof
  · exact ⟨r', hr', rfl, hproof⟩

theorem addsNoProof_expireOverdue (db : Db) (telegramUserId : ℤ) (now : Instant) :
    db.AddsNoProof (db.expireOverdue telegramUserId now) := by
  refine AddsNoProof.modify fun r proof => ?_
  unfold RewardSession.expireFor
  split
  · cases proof <;> rfl
  · rfl

theorem addsNoProof_releaseActive (db : Db) (active : Option RewardSession) (now : Instant) :
    db.AddsNoProof (db.releaseActive active now).1 := by
  unfold Db.releaseActive
  split
  · split
    · split
      · exact AddsNoProof.updateReward fun r proof => by cases proof <;> rfl
      · exact AddsNoProof.of_eq rfl
    · exact AddsNoProof.of_eq rfl
  · exact AddsNoProof.of_eq rfl

end Db

section Transactions

variable {α : Type} {db : Db} {sessionId : ℕ} {telegramUserId : ℤ} {clock : Clock}

theorem addsNoProof_error {ε : Type} {error : ε} :
    AddsNoProof db (Except.error error : Except ε (Db × α)) := by
  rintro db' value ⟨⟩

theorem addsNoProof_ok {ε : Type} {value : α} :
    AddsNoProof db (Except.ok (db, value) : Except ε (Db × α)) := by
  rintro db' value ⟨⟩
  exact Db.AddsNoProof.of_eq rfl

theorem addsNoProof_commitReward {db₁ : Db} {value : α} (h : db.AddsNoProof db₁) :
    AddsNoProof db (db₁.commitReward value) := by
  intro db' value' hok
  unfold Db.commitReward at hok
  split at hok
  · cases hok
    exact h
  · cases hok

theorem addsNoProof_commitDelivery {db₁ : Db} {value : α} (h : db.AddsNoProof db₁) :
    AddsNoProof db (db₁.commitDelivery value) := by
  intro db' value' hok
  unfold Db.commitDelivery at hok
  split at hok
  · cases hok
    exact h
  · cases hok

theorem addsNoProof_withCurrent {now : Instant} {body : RewardSession → RewardTransaction α}
    (h : ∀ r, AddsNoProof db (body r)) :
    AddsNoProof db (withCurrent db sessionId telegramUserId now body) := by
  unfold withCurrent
  split
  · exact addsNoProof_error
  · split
    · exact addsNoProof_error
    · exact h _

theorem addsNoProof_get : AddsNoProof db (get db sessionId clock) := by
  unfold get
  split
  · exact addsNoProof_error
  · exact addsNoProof_ok

theorem addsNoProof_claimPrompt :
    AddsNoProof db (claimPrompt db sessionId telegramUserId clock) := by
  refine addsNoProof_withCurrent fun r => ?_
  split
  · exact addsNoProof_ok
  · split
    · exact addsNoProof_ok
    · exact addsNoProof_commitReward
        (Db.AddsNoProof.updateReward fun r proof => by cases proof <;> rfl)

theorem addsNoProof_completePrompt {messageId : ℕ} :
    AddsNoProof db (completePrompt db sessionId telegramUserId messageId clock) := by
  refine addsNoProof_withCurrent fun r => ?_
  split
  · exact addsNoProof_ok
  · exact addsNoProof_commitReward
      (Db.AddsNoProof.updateReward fun r proof => by cases proof <;> rfl)

theorem addsNoProof_resetPromptClaim :
    AddsNoProof db (resetPromptClaim db sessionId telegramUserId) := by
  unfold resetPromptClaim
  split
  · exact addsNoProof_ok
  · split
    · exact addsNoProof_ok
    · exact addsNoProof_commitReward
        (Db.AddsNoProof.updateReward fun r proof => by cases proof <;> rfl)

theorem addsNoProof_getOrCreate {movieId newId : ℕ} {quality : Str} :
    AddsNoProof db (getOrCreate db telegramUserId movieId quality newId clock) := by
  unfold getOrCreate
  split
  · exact addsNoProof_error
  · next row _ =>
      have hexpired := db.addsNoProof_expireOverdue telegramUserId clock.utcnow
      have hreleased := hexpired.trans (Db.addsNoProof_releaseActive _
        ((db.expireOverdue telegramUserId clock.utcnow).activeSession? telegramUserId) clock.utcnow)
      dsimp only
      generalize (db.expireOverdue telegramUserId clock.utcnow).releaseActive _ _ = released at *
      obtain ⟨db₁, active⟩ := released
      dsimp only at hreleased ⊢
      split
      · exact addsNoProof_commitReward hreleased
      · split
        · split
          · exact addsNoProof_commitReward hreleased
          · exact addsNoProof_error
        · split
          · exact addsNoProof_error
          · split
            · exact addsNoProof_error
            · exact addsNoProof_commitReward (hreleased.trans
                (Db.AddsNoProof.insert rfl fun proof => by cases proof <;> rfl))

theorem addsNoProof_claimDelivery {reward : RewardSession} {row : MovieQuality}
    {caption : RenderedTemplate} {deleteSeconds : ℤ} {now : Instant} :
    AddsNoProof db (claimDelivery db reward row caption deleteSeconds now) := by
  have hensure : db.AddsNoProof (db.ensureDelivery reward row).1 := by
    unfold Db.ensureDelivery
    split <;> exact Db.AddsNoProof.of_eq rfl
  unfold claimDelivery
  dsimp only
  split
  · exact addsNoProof_commitDelivery (hensure.trans
      (Db.AddsNoProof.updateReward fun r proof => by cases proof <;> rfl))
  · split
    · exact addsNoProof_commitDelivery (hensure.trans
        (Db.AddsNoProof.updateReward fun r proof => by cases proof <;> rfl))
    · exact addsNoProof_commitDelivery (hensure.trans (Db.AddsNoProof.updateDelivery
        (Db.AddsNoProof.updateReward fun r proof => by cases proof <;> rfl)))

theorem addsNoProof_prepare {render : CaptionRenderer} :
    AddsNoProof db (prepare db render sessionId clock) := by
  unfold prepare
  dsimp only
  split
  · exact addsNoProof_error
  · split
    · split
      · exact addsNoProof_error
      · exact addsNoProof_ok
    · split
      · exact addsNoProof_ok
      · split
        · exact addsNoProof_error
        · split
          · exact addsNoProof_commitDelivery
              (Db.AddsNoProof.updateReward fun r proof => by cases proof <;> rfl)
          · split
            · split
              · exact addsNoProof_error
              · exact addsNoProof_claimDelivery
            · exact addsNoProof_error

theorem addsNoProof_finalizeSent {deliveryId messageId : ℕ} {deleteSeconds : ℤ} :
    AddsNoProof db (finalizeSent db sessionId deliveryId messageId deleteSeconds clock) := by
  unfold finalizeSent
  dsimp only
  split
  · split
    · exact addsNoProof_ok
    · exact addsNoProof_commitDelivery (Db.AddsNoProof.updateDelivery
        (Db.AddsNoProof.updateReward fun r proof => by cases proof <;> rfl))
  · exact addsNoProof_error

/-- Releasing a send leaves the proofs. -/
theorem World.Proof.time_releaseSend (proof : Proof) (r : RewardSession) :
    proof.time r.releaseSend = proof.time r := by
  cases proof <;> rfl

theorem addsNoProof_resetFailedSend {deliveryId : ℕ} {error : Str}
    {reason : Option UnavailableReason} :
    AddsNoProof db (resetFailedSend db sessionId deliveryId error reason clock) := by
  unfold resetFailedSend
  split
  · refine addsNoProof_commitDelivery (Db.AddsNoProof.updateDelivery
      (Db.AddsNoProof.updateReward fun r proof => ?_))
    unfold RewardSession.resetFailedSend
    split
    · split
      · cases proof <;> rfl
      · exact proof.time_releaseSend r
    · rfl
  · exact addsNoProof_ok

theorem addsNoProof_recoverStaleSends {staleSeconds : ℤ} {locked : ℕ → Bool} :
    AddsNoProof db (recoverStaleSends db staleSeconds locked clock) := by
  unfold recoverStaleSends
  split
  · exact addsNoProof_error
  · refine addsNoProof_commitDelivery (Db.AddsNoProof.modify fun r proof => ?_)
    split
    · unfold RewardSession.recoverSend
      split
      · exact proof.time_releaseSend r
      · rfl
    · rfl

theorem addsNoProof_recoverStaleDeletions {staleSeconds : ℤ} :
    AddsNoProof db (recoverStaleDeletions db staleSeconds clock) := by
  unfold recoverStaleDeletions
  split
  · exact addsNoProof_error
  · exact addsNoProof_commitDelivery (Db.AddsNoProof.of_eq rfl)

theorem addsNoProof_claimDueDeletions {limit : ℤ} {locked : ℕ → Bool} :
    AddsNoProof db (claimDueDeletions db limit locked clock) :=
  addsNoProof_commitDelivery (Db.AddsNoProof.of_eq rfl)

end Transactions

namespace World

variable {w : World}

theorem addsNoProof_commit {ε α : Type} {result : Except ε (Db × α)} (h : AddsNoProof w.db result) :
    w.db.AddsNoProof (w.commit result).db := by
  unfold commit
  split
  · exact h _ _ rfl
  · exact Db.AddsNoProof.of_eq rfl

theorem addsNoProof_commitArchive {result : Except DbError (ArchiveTables × ArchiveIndexResult)} :
    w.db.AddsNoProof (w.commitArchive result).db := by
  unfold commitArchive
  split <;> exact Db.AddsNoProof.of_eq rfl

theorem addsNoProof_completeAttempt {attemptId : ℕ} {clock : Clock} :
    w.db.AddsNoProof (w.complete attemptId clock).db := by
  unfold complete
  split
  · exact Db.AddsNoProof.of_eq rfl
  · split
    · split
      · next h => exact addsNoProof_finalizeSent _ _ h
      · exact Db.AddsNoProof.of_eq rfl
    · split
      · next h => exact addsNoProof_resetFailedSend _ _ h
      · exact Db.AddsNoProof.of_eq rfl
    · exact Db.AddsNoProof.of_eq rfl

theorem addsNoProof_report {taskId : ℕ} {clock : Clock} :
    w.db.AddsNoProof (w.reportDeletion taskId clock).db := by
  have hcommit :
      ∀ {w' : World} {g : Delivery → Delivery} {hg : ∀ d, (g d).id = d.id} {deliveryId : ℕ},
        w'.db = w.db → w.db.AddsNoProof
          (w'.commit ((w.db.updateDelivery deliveryId g hg).commitDelivery ())).db := by
    intro w' g hg deliveryId hw'
    unfold commit Db.commitDelivery
    split
    · next h =>
        split at h
        · cases h
          exact Db.AddsNoProof.of_eq rfl
        · cases h
    · exact Db.AddsNoProof.of_eq (congrArg Db.rewardSessions hw')
  unfold reportDeletion
  split
  · exact Db.AddsNoProof.of_eq rfl
  · split
    · dsimp only
      split
      · exact hcommit rfl
      · exact hcommit rfl
      · exact hcommit rfl
    · exact Db.AddsNoProof.of_eq rfl

section Step

variable [UnicodeData] {parser : ArchiveParser}

/-- **Two transactions record proofs**, and no other does. -/
theorem addsNoProof_step {event : Event}
    (hclient : ∀ sessionId telegramUserId clock,
      event ≠ .markClientCompleted sessionId telegramUserId clock)
    (hprovider : ∀ telegramUserId clock, event ≠ .markProviderConfirmed telegramUserId clock) :
    w.db.AddsNoProof (World.step parser w event).db := by
  cases event with
  | getOrCreate telegramUserId movieId quality newId clock =>
      exact addsNoProof_commit addsNoProof_getOrCreate
  | get sessionId clock => exact addsNoProof_commit addsNoProof_get
  | claimPrompt sessionId telegramUserId clock => exact addsNoProof_commit addsNoProof_claimPrompt
  | completePrompt sessionId telegramUserId messageId clock =>
      exact addsNoProof_commit addsNoProof_completePrompt
  | resetPromptClaim sessionId telegramUserId =>
      exact addsNoProof_commit addsNoProof_resetPromptClaim
  | markClientCompleted sessionId telegramUserId clock => exact absurd rfl (hclient _ _ _)
  | markProviderConfirmed telegramUserId clock => exact absurd rfl (hprovider _ _)
  | prepare sessionId render clock =>
      simp only [step, World.prepare]
      split
      · next h => exact addsNoProof_prepare _ _ h
      · next h => exact addsNoProof_prepare _ _ h
      · exact Db.AddsNoProof.of_eq rfl
  | copyMessage attemptId answer =>
      rw [step, copyMessage_db]
      exact Db.AddsNoProof.of_eq rfl
  | complete attemptId clock => exact addsNoProof_completeAttempt
  | recoverStaleSends staleSeconds locked clock =>
      simp only [step, World.recoverStaleSends]
      split
      · next h => exact addsNoProof_recoverStaleSends _ _ h
      · exact Db.AddsNoProof.of_eq rfl
  | recoverStaleDeletions staleSeconds clock =>
      exact addsNoProof_commit addsNoProof_recoverStaleDeletions
  | claimDueDeletions limit locked clock =>
      simp only [step, World.claimDueDeletions]
      split
      · next h => exact addsNoProof_claimDueDeletions _ _ h
      · exact Db.AddsNoProof.of_eq rfl
  | deleteMessage taskId answer =>
      rw [step, deleteMessage_db]
      exact Db.AddsNoProof.of_eq rfl
  | reportDeletion taskId clock => exact addsNoProof_report
  | ingest channelId message => exact addsNoProof_commitArchive
  | reconcileEdit channelId message expectedSnapshotVersion => exact addsNoProof_commitArchive
  | changeArchive archive =>
      simp only [step]
      split <;> exact Db.AddsNoProof.of_eq rfl
  | changeSettings settings => exact Db.AddsNoProof.of_eq rfl

end Step
end World

/-! ### Transactions that record a proof -/

/-- The proof has been recorded for a session of the user, and nothing else has. -/
def Db.RecordsProof (db db' : Db) (proof : Proof) (sessionId : ℕ) (telegramUserId : ℤ) : Prop :=
  ∀ r' ∈ db'.rewardSessions, ∀ proof' : Proof, (proof'.time r').isSome →
    (proof' = proof ∧ r'.id = sessionId ∧ r'.telegramUserId = telegramUserId) ∨
      ∃ r ∈ db.rewardSessions, r.id = r'.id ∧ (proof'.time r).isSome

section Marking

variable {db db' : Db} {telegramUserId : ℤ} {clock : Clock}

/-- A mark writes to the proof it is about. -/
theorem World.Proof.time_mark_of_ne {proof proof' : Proof} (h : proof' ≠ proof) (now : Instant)
    (r : RewardSession) : proof'.time (proof.mark now r) = proof'.time r := by
  cases proof <;> cases proof'
  · exact absurd rfl h
  · simp [Proof.mark, Proof.time, RewardSession.markClient]
  · simp [Proof.mark, Proof.time, RewardSession.markProvider]
  · exact absurd rfl h

theorem World.Proof.telegramUserId_mark (proof : Proof) (now : Instant) (r : RewardSession) :
    (proof.mark now r).telegramUserId = r.telegramUserId := by
  cases proof
  · simp [Proof.mark, RewardSession.markClient]
  · simp [Proof.mark, RewardSession.markProvider]

theorem Db.recordsProof_mark (proof : Proof) {now : Instant}
    {hf : ∀ r, (proof.mark now r).id = r.id} {r : RewardSession} (hr : r ∈ db.rewardSessions) :
    db.RecordsProof (db.updateReward r.id (proof.mark now) hf) proof r.id r.telegramUserId := by
  intro r' hr' proof' hproof
  have hr' : r' ∈ db.rewardSessions.modifyAt r.id (proof.mark now) hf := hr'
  rcases KeyedTable.mem_modifyAt.1 hr' with ⟨hr', -⟩ | ⟨r₀, hr₀, hid, rfl⟩
  · exact .inr ⟨r', hr', rfl, hproof⟩
  · obtain rfl := db.rewardSessions.ext_key hr₀ hr hid
    by_cases hsame : proof' = proof
    · exact .inl ⟨hsame, hf r₀, proof.telegramUserId_mark now r₀⟩
    · rw [World.Proof.time_mark_of_ne hsame] at hproof
      exact .inr ⟨r₀, hr₀, (hf r₀).symm, hproof⟩

theorem Db.RecordsProof.of_addsNoProof {db₁ : Db} {proof : Proof} {sessionId : ℕ}
    (h : db₁.RecordsProof db' proof sessionId telegramUserId) (h₁ : db.AddsNoProof db₁) :
    db.RecordsProof db' proof sessionId telegramUserId := by
  intro r' hr' proof' hproof
  rcases h r' hr' proof' hproof with hnew | ⟨r, hr, hid, hproof⟩
  · exact .inl hnew
  · obtain ⟨r₀, hr₀, hid₀, hproof⟩ := h₁ r hr proof' hproof
    exact .inr ⟨r₀, hr₀, hid₀.trans hid, hproof⟩

/-- A claim that is recorded: it names a session of its user. -/
theorem markClientCompleted_eq_ok {sessionId : ℕ} {view : RewardSessionView}
    (h : markClientCompleted db sessionId telegramUserId clock = .ok (db', view)) :
    ∃ r ∈ db.rewardSessions, r.id = sessionId ∧ r.telegramUserId = telegramUserId ∧
      db' = db.updateReward r.id (RewardSession.markClient clock.utcnow) ∧
        view = (r.markClient clock.utcnow).view := by
  unfold markClientCompleted withCurrent requireCurrent at h
  cases hfind : db.rewardSessions.find? sessionId with
  | none =>
      rw [hfind] at h
      cases h
  | some r =>
      obtain ⟨hr, rfl⟩ := KeyedTable.find?_eq_some.1 hfind
      rw [hfind] at h
      dsimp only at h
      split at h
      · cases h
      · next heq =>
          split at heq
          · cases heq
          · split at heq
            · cases heq
            · cases heq
              split at h
              · cases h
              · next huser =>
                  unfold Db.commitReward at h
                  split at h
                  · cases h
                    exact ⟨r, hr, rfl, Decidable.not_not.1 huser, rfl, rfl⟩
                  · cases h

/-- A callback that is recorded: its user has an active session. -/
theorem markProviderConfirmed_eq_ok {view : Option RewardSessionView}
    (h : markProviderConfirmed db telegramUserId clock = .ok (db', view)) :
    view = none ∧ db' = db.expireOverdue telegramUserId clock.utcnow ∨
      ∃ r ∈ (db.expireOverdue telegramUserId clock.utcnow).rewardSessions,
        r.telegramUserId = telegramUserId ∧
          db' = (db.expireOverdue telegramUserId clock.utcnow).updateReward r.id
            (RewardSession.markProvider clock.utcnow) ∧
          view = some (r.markProvider clock.utcnow).view := by
  unfold markProviderConfirmed at h
  dsimp only at h
  split at h
  · unfold Db.commitReward at h
    split at h
    · cases h
      exact .inl ⟨rfl, rfl⟩
    · cases h
  · next r hactive =>
      obtain ⟨hr, huser, -⟩ := Db.mem_of_activeSession? hactive
      unfold Db.commitReward at h
      split at h
      · cases h
        exact .inr ⟨r, hr, huser, rfl, rfl⟩
      · cases h

/-- **The claim of a user** is recorded for the session it names. -/
theorem markClientCompleted_records {sessionId : ℕ} {view : RewardSessionView}
    (h : markClientCompleted db sessionId telegramUserId clock = .ok (db', view)) :
    view.id = sessionId ∧ db.RecordsProof db' .client sessionId telegramUserId := by
  obtain ⟨r, hr, rfl, rfl, rfl, rfl⟩ := markClientCompleted_eq_ok h
  exact ⟨RewardSession.id_markClient _ r, Db.recordsProof_mark .client hr⟩

/-- **The word of the network** is recorded for the active session of the user. -/
theorem markProviderConfirmed_records {view : Option RewardSessionView}
    (h : markProviderConfirmed db telegramUserId clock = .ok (db', view)) :
    match view with
    | some view => db.RecordsProof db' .provider view.id telegramUserId
    | none => db.AddsNoProof db' := by
  have hexpired := db.addsNoProof_expireOverdue telegramUserId clock.utcnow
  rcases markProviderConfirmed_eq_ok h with ⟨rfl, rfl⟩ | ⟨r, hr, rfl, rfl, rfl⟩
  · exact hexpired
  · have hid : (r.markProvider clock.utcnow).view.id = r.id :=
      RewardSession.id_markProvider clock.utcnow r
    dsimp only
    rw [hid]
    exact Db.RecordsProof.of_addsNoProof (Db.recordsProof_mark .provider hr) hexpired

end Marking

/-- A film is sent to the user of the session. -/
theorem prepare_telegramUserId {db db' : Db} {render : CaptionRenderer} {sessionId : ℕ}
    {clock : Clock} {prepared : PreparedDelivery}
    (h : prepare db render sessionId clock = .ok (db', .inl prepared)) :
    ∃ r, db.rewardSessions.find? sessionId = some r ∧
      prepared.telegramUserId = r.telegramUserId := by
  unfold prepare at h
  dsimp only at h
  split at h
  · cases h
  · next r hr =>
      refine ⟨r, hr, ?_⟩
      split at h
      · split at h <;> cases h
      · split at h
        · cases h
        · split at h
          · cases h
          · split at h
            · unfold Db.commitDelivery at h
              split at h <;> cases h
            · split at h
              · split at h
                · cases h
                · unfold claimDelivery Db.commitDelivery at h
                  dsimp only at h
                  split at h
                  · split at h <;> cases h
                  · split at h
                    · split at h <;> cases h
                    · split at h
                      · cases h
                        rfl
                      · cases h
              · cases h

/-! ### The requests behind the proofs -/

namespace RewardRequest

/-- The request has shown that it may record the proof for a session of the user. -/
def Vouches (s : WebSettings) (q : RewardRequest) (sessionId : ℕ) (telegramUserId : ℤ) :
    Proof → Prop
  | .client => ∃ initData, q.call = .claim sessionId initData ∧ s.Signed initData telegramUserId
  | .provider =>
      ∃ secret, q.call = .callback secret telegramUserId ∧ s.adsgramCallbackSecret = some secret

/-- What holds of every request: it has recorded nothing before its transaction, its user has signed
its init data, and a callback gets to its transaction with the secret of the network. -/
structure Honest (s : WebSettings) (q : RewardRequest) : Prop where
  unmarked : q.phase = .reading ∨ q.phase = .marking ∨ q.phase = .confirming → q.marked = none
  signed : ∀ telegramUserId, q.user = some telegramUserId →
    ∃ sessionId initData, q.call = .claim sessionId initData ∧ s.Signed initData telegramUserId
  authorised : q.phase = .confirming →
    ∃ secret userid, q.call = .callback secret userid ∧ s.adsgramCallbackSecret = some secret

/-- A request that comes in. -/
theorem honest_of_arrives {s : WebSettings} {call : RewardCall} {phase : RewardPhase} {id : ℕ}
    (h : Arrives s call phase) : Honest s { id, call, phase } := by
  refine ⟨fun _ => rfl, by simp, fun hphase => ?_⟩
  cases h with
  | confirming secret userid h => exact ⟨secret, userid, rfl, h⟩
  | _ => cases hphase

/-- A handler that goes on to another point, past its transaction. -/
theorem Honest.move {s : WebSettings} {q : RewardRequest} (hq : q.Honest s) {phase : RewardPhase}
    {marked : Option ℕ} (h : phase ≠ .reading ∧ phase ≠ .marking ∧ phase ≠ .confirming) :
    Honest s { q with phase, marked } := by
  refine ⟨fun hphase => ?_, hq.signed, fun hphase => absurd hphase h.2.2⟩
  rcases hphase with hphase | hphase | hphase
  · exact absurd hphase h.1
  · exact absurd hphase h.2.1
  · exact absurd hphase h.2.2

theorem Honest.recorded {s : WebSettings} {q : RewardRequest} (hq : q.Honest s)
    (view : RewardSessionView) (response : RewardResponse) :
    (q.recorded view response).Honest s := by
  refine hq.move ?_
  split <;> simp

/-- **Every move keeps what holds of a request.** -/
theorem Honest.step {w : WebWorld} {event : WebEvent} {q q' : RewardRequest}
    (hq : q.Honest w.settings) (h : RequestStep w event q q') : q'.Honest w.settings := by
  cases h with
  | idle => exact hq
  | identified sessionId initData telegramUserId phase hphase hcall hsigned hnext =>
      refine ⟨fun _ => hq.unmarked (.inl hphase), fun u hu => ?_, fun hconfirming => ?_⟩
      · cases hu
        exact ⟨sessionId, initData, hcall, hsigned⟩
      · rcases hnext with rfl | ⟨retryAfter, rfl⟩ <;> cases hconfirming
  | unidentified response hphase hresponse => exact hq.move (by simp)
  | transacted clock render hopen he =>
      have h := transacts_transact q w.system clock render
      generalize q.transact w.system clock render = q' at h
      cases h with
      | idle => exact hq
      | claimed => exact hq.recorded _ _
      | confirmed => exact hq.recorded _ _
      | _ => exact hq.move (by simp)
  | failed hopen he => exact hq.move (by simp)
  | dropped hopen he => exact ⟨hq.unmarked, hq.signed, hq.authorised⟩

/-- A session that a request has recorded a proof of stays with it. -/
theorem Honest.marked_step {w : WebWorld} {event : WebEvent} {q q' : RewardRequest}
    (hq : q.Honest w.settings) (h : RequestStep w event q q') {sessionId : ℕ}
    (hmarked : q.marked = some sessionId) : q'.marked = some sessionId := by
  have hphase : ¬ (q.phase = .reading ∨ q.phase = .marking ∨ q.phase = .confirming) := by
    intro hphase
    rw [hq.unmarked hphase] at hmarked
    cases hmarked
  cases h with
  | transacted clock render hopen he =>
      have h := transacts_transact q w.system clock render
      generalize q.transact w.system clock render = q' at h
      cases h with
      | claimed sessionId initData telegramUserId db view hmarking =>
          exact absurd (.inr (.inl hmarking)) hphase
      | confirmed secret userid db view hconfirming => exact absurd (.inr (.inr hconfirming)) hphase
      | _ => exact hmarked
  | _ => exact hmarked

/-- What a request has shown it shows for good. -/
theorem Vouches.step {w : WebWorld} {event : WebEvent} {q q' : RewardRequest} {sessionId : ℕ}
    {telegramUserId : ℤ} {proof : Proof}
    (hq : q.Vouches w.settings sessionId telegramUserId proof) (h : RequestStep w event q q') :
    q'.Vouches w.settings sessionId telegramUserId proof := by
  cases proof with
  | client =>
      obtain ⟨initData, hcall, hsigned⟩ := hq
      exact ⟨initData, h.frame.2.trans hcall, hsigned⟩
  | provider =>
      obtain ⟨secret, hcall, hsecret⟩ := hq
      exact ⟨secret, h.frame.2.trans hcall, hsecret⟩

end RewardRequest

/-! ### The invariant -/

/-- Every proof has been recorded by a request that vouches for it, and every film goes to the user
of its session. -/
structure WebWorld.Paid (w : WebWorld) : Prop where
  sound : w.system.Sound
  honest : ∀ q ∈ w.requests, q.Honest w.settings
  vouched : ∀ r ∈ w.system.db.rewardSessions, ∀ proof : Proof, (proof.time r).isSome →
    ∃ q ∈ w.requests, q.marked = some r.id ∧ q.Vouches w.settings r.id r.telegramUserId proof
  addressed : ∀ a ∈ w.system.attempts, ∃ r, w.system.db.rewardSessions.find? a.sessionId = some r ∧
    a.prepared.telegramUserId = r.telegramUserId

namespace WebWorld

variable {w : WebWorld}

theorem initial_paid (web : WebSettings) (settings : Settings) (archive : ArchiveTables) :
    (initial web settings archive).Paid :=
  ⟨World.initial_sound settings archive, by rintro q ⟨⟩, by rintro r ⟨⟩, by rintro a ⟨⟩⟩

/-! ### What is paid for -/

/-- The sessions of a user that have both their proofs. -/
def films (w : WebWorld) (telegramUserId : ℤ) : List RewardSession :=
  w.system.db.rewardSessions.rows.filter fun r => r.telegramUserId = telegramUserId && r.isRewarded

/-- The callbacks for a user that came with the secret of the network. -/
def callbacks (w : WebWorld) (telegramUserId : ℤ) : List RewardRequest :=
  w.requests.rows.filter fun q =>
    match q.call with
    | .callback secret userid =>
        userid = telegramUserId && w.settings.adsgramCallbackSecret = some secret
    | .claim .. => false

/-- Every film that Telegram is asked for is paid for: it goes to the user of a session with both
its proofs, each recorded by a request of its own, and a user has no more such sessions than the ad
network has confirmed ads. -/
structure PaidFor (w : WebWorld) : Prop where
  attempts : ∀ a ∈ w.system.attempts, ∃ r ∈ w.system.db.rewardSessions,
    r.id = a.sessionId ∧ r.telegramUserId = a.prepared.telegramUserId ∧ r.isRewarded ∧
      (∃ q ∈ w.requests, q.marked = some r.id ∧ ∃ initData,
        q.call = .claim r.id initData ∧ w.settings.Signed initData r.telegramUserId) ∧
      ∃ q ∈ w.callbacks r.telegramUserId, q.marked = some r.id
  films : ∀ telegramUserId, (w.films telegramUserId).length ≤ (w.callbacks telegramUserId).length

/-- The proofs of a rewarded session are in. -/
theorem Paid.isSome_time (hw : w.Paid) {r : RewardSession} (hr : r ∈ w.system.db.rewardSessions)
    (hrewarded : r.isRewarded) (proof : Proof) : (proof.time r).isSome := by
  have he : w.system.db.entitlement? r.id = some ⟨r, w.system.db.deliveryOf? r.id⟩ :=
    Db.entitlement?_eq_some.2 ⟨KeyedTable.find?_of_mem hr, rfl⟩
  have hproven : r.isProven := (hw.sound.db.wellFormed _ _ he).proofs.isProven_iff.2 hrewarded
  obtain ⟨hclient, hprovider⟩ := Bool.and_eq_true_iff.1 hproven
  cases proof
  · exact hclient
  · exact hprovider

/-- The callback that a session with the word of the network comes from. -/
theorem Paid.callback (hw : w.Paid) {r : RewardSession} (hr : r ∈ w.system.db.rewardSessions)
    (hrewarded : r.isRewarded) : ∃ q ∈ w.callbacks r.telegramUserId, q.marked = some r.id := by
  obtain ⟨q, hq, hmarked, secret, hcall, hsecret⟩ :=
    hw.vouched r hr .provider (hw.isSome_time hr hrewarded .provider)
  exact ⟨q, List.mem_filter.2 ⟨hq, by simp [hcall, hsecret]⟩, hmarked⟩

/-- **The invariant pays for the films.** -/
theorem Paid.paidFor (hw : w.Paid) : w.PaidFor := by
  refine ⟨fun a ha => ?_, fun telegramUserId => ?_⟩
  · obtain ⟨r, hr, huser⟩ := hw.addressed a ha
    obtain ⟨r', d, he, hrewarded, -⟩ := hw.sound.attempts a ha
    obtain rfl : r' = r := Option.some.inj ((Db.entitlement?_eq_some.1 he).1.symm.trans hr)
    have hmem := KeyedTable.mem_of_find? hr
    exact ⟨r', hmem, KeyedTable.key_of_find? hr, huser.symm, hrewarded,
      hw.vouched r' hmem .client (hw.isSome_time hmem hrewarded .client),
        hw.callback hmem hrewarded⟩
  · -- the sessions a user has films of are marks of different callbacks
    have hsubset : (w.films telegramUserId).map RewardSession.id ⊆
        (w.callbacks telegramUserId).filterMap RewardRequest.marked := by
      intro sessionId hsession
      obtain ⟨r, hr, rfl⟩ := List.mem_map.1 hsession
      obtain ⟨hmem, hfilm⟩ := List.mem_filter.1 hr
      simp only [Bool.and_eq_true, decide_eq_true_eq] at hfilm
      obtain ⟨rfl, hrewarded⟩ := hfilm
      obtain ⟨q, hq, hmarked⟩ := hw.callback hmem hrewarded
      exact List.mem_filterMap.2 ⟨q, hq, hmarked⟩
    have hnodup : ((w.films telegramUserId).map RewardSession.id).Nodup := by
      have hordered :=
        (w.system.db.rewardSessions.ordered).sublist (List.filter_sublist (p := fun r =>
        r.telegramUserId = telegramUserId && r.isRewarded))
      exact List.pairwise_map.2 (hordered.imp fun h => h.ne)
    calc (w.films telegramUserId).length
        = ((w.films telegramUserId).map RewardSession.id).length := (List.length_map _).symm
      _ ≤ ((w.callbacks telegramUserId).filterMap RewardRequest.marked).length :=
          hnodup.length_le_of_subset hsubset
      _ ≤ (w.callbacks telegramUserId).length := List.length_filterMap_le _ _

/-! ### What an event does to a proof -/

variable [UnicodeData] {parser : ArchiveParser}

/-- A handler records a proof of the session. -/
def Records (w : WebWorld) (event : WebEvent) (sessionId : ℕ) (telegramUserId : ℤ) (proof : Proof) :
    Prop :=
  ∃ q ∈ w.requests, q.Vouches w.settings sessionId telegramUserId proof ∧
    ∃ clock render, event = .transact q.id clock render ∧ q.dropped = false ∧
      (q.transact w.system clock render).marked = some sessionId

/-- **A proof after an event** has been there before, or a handler has just recorded it. -/
theorem proof_origin (hw : w.Paid) (event : WebEvent) {r' : RewardSession}
    (hr' : r' ∈ (w.step parser event).system.db.rewardSessions) {proof : Proof}
    (hproof : (proof.time r').isSome) :
    (∃ r ∈ w.system.db.rewardSessions, r.id = r'.id ∧ (proof.time r).isSome) ∨
      w.Records event r'.id r'.telegramUserId proof := by
  rcases system_step parser w event with hsystem | ⟨e, hemits, hsystem⟩
  · rw [hsystem] at hr'
    exact .inl ⟨r', hr', rfl, hproof⟩
  · rw [hsystem] at hr'
    cases e with
    | markClientCompleted sessionId telegramUserId clock =>
        obtain ⟨q, hq, clock', render, rfl, hopen, hevent⟩ := emits_reward hemits rfl (by simp)
        unfold RewardRequest.event? at hevent
        split at hevent <;> cases hevent
        next initData hphase hcall huser =>
          cases h : markClientCompleted w.system.db sessionId telegramUserId clock with
          | error error =>
              simp only [World.step, World.commit, h] at hr'
              exact .inl ⟨r', hr', rfl, hproof⟩
          | ok value =>
              obtain ⟨db', view⟩ := value
              simp only [World.step, World.commit, h] at hr'
              obtain ⟨hview, hrecords⟩ := markClientCompleted_records h
              rcases hrecords r' hr' proof hproof with ⟨rfl, rfl, rfl⟩ | hold
              · obtain ⟨s, i, hclaim, hsigned⟩ := (hw.honest q hq).signed _ huser
                obtain ⟨rfl, rfl⟩ := RewardCall.claim.inj (hcall.symm.trans hclaim)
                refine .inr ⟨q, hq, ⟨initData, hcall, hsigned⟩, clock, render, rfl, hopen, ?_⟩
                simp [RewardRequest.transact, hphase, hcall, huser, h, RewardRequest.recorded,
                  hview]
              · exact .inl hold
    | markProviderConfirmed telegramUserId clock =>
        obtain ⟨q, hq, clock', render, rfl, hopen, hevent⟩ := emits_reward hemits rfl (by simp)
        unfold RewardRequest.event? at hevent
        split at hevent <;> cases hevent
        next secret hphase hcall =>
          cases h : markProviderConfirmed w.system.db telegramUserId clock with
          | error error =>
              simp only [World.step, World.commit, h] at hr'
              exact .inl ⟨r', hr', rfl, hproof⟩
          | ok value =>
              obtain ⟨db', view⟩ := value
              simp only [World.step, World.commit, h] at hr'
              have hrecords := markProviderConfirmed_records h
              cases view with
              | none => exact .inl (hrecords r' hr' proof hproof)
              | some view =>
                  rcases hrecords r' hr' proof hproof with ⟨rfl, hid, rfl⟩ | hold
                  · obtain ⟨s, u, hcallback, hsecret⟩ := (hw.honest q hq).authorised hphase
                    obtain ⟨rfl, rfl⟩ := RewardCall.callback.inj (hcall.symm.trans hcallback)
                    refine .inr ⟨q, hq, ⟨secret, hcall, hsecret⟩, clock, render, rfl, hopen, ?_⟩
                    simp [RewardRequest.transact, hphase, hcall, h, RewardRequest.recorded, hid]
                  · exact .inl hold
    | _ => exact .inl (World.addsNoProof_step (by simp) (by simp) r' hr' proof hproof)

variable (parser) in
/-- A session goes on after an event. -/
theorem continues_step (hw : w.system.Sound) (event : WebEvent) {sessionId : ℕ} {r : RewardSession}
    (hr : w.system.db.rewardSessions.find? sessionId = some r) :
    ∃ r', (w.step parser event).system.db.rewardSessions.find? sessionId = some r' ∧
      RewardSession.Continues r r' := by
  rcases system_step parser w event with hsystem | ⟨e, -, hsystem⟩
  · rw [hsystem]
    exact ⟨r, hr, RewardSession.Continues.refl r⟩
  · have he : w.system.db.entitlement? sessionId = some ⟨r, w.system.db.deliveryOf? sessionId⟩ :=
      Db.entitlement?_eq_some.2 ⟨hr, rfl⟩
    obtain ⟨⟨r', d'⟩, he', hcontinues⟩ : ∃ e', (World.step parser w.system e).db.entitlement?
        sessionId = some e' ∧ _ := hw.continues_step e he
    rw [hsystem]
    exact ⟨r', (Db.entitlement?_eq_some.1 he').1, hcontinues.toContinues⟩

/-- The invariant of the system holds after an event of the handlers. -/
theorem sound_step (hw : w.system.Sound) (event : WebEvent) :
    (w.step parser event).system.Sound := by
  rcases system_step parser w event with hsystem | ⟨e, -, hsystem⟩
  · rw [hsystem]
    exact hw
  · rw [hsystem]
    exact hw.step e

/-- An attempt after an event is an earlier one, or a film is being sent to the user of its
session. -/
theorem attempt_origin (event : WebEvent) {a : SendAttempt}
    (ha : a ∈ (w.step parser event).system.attempts) :
    (∃ a₀ ∈ w.system.attempts, a₀.sessionId = a.sessionId ∧ a₀.prepared = a.prepared) ∨
      ∃ r, w.system.db.rewardSessions.find? a.sessionId = some r ∧
        a.prepared.telegramUserId = r.telegramUserId := by
  rcases system_step parser w event with hsystem | ⟨e, -, hsystem⟩
  · rw [hsystem] at ha
    exact .inl ⟨a, ha, rfl, rfl⟩
  · rw [hsystem] at ha
    rcases World.attempt_origin ha with ⟨a₀, ha₀, hstep⟩ | ⟨render, clock, -, h, -⟩
    · exact .inl ⟨a₀, ha₀, hstep.frame.2⟩
    · exact .inr (prepare_telegramUserId h)

/-- **Every event keeps the invariant.** -/
theorem Paid.step (hw : w.Paid) (event : WebEvent) : (w.step parser event).Paid := by
  have hrequests : RequestsStep w event (w.step parser event).requests := requestsStep w event
  have hsettings := settings_step parser w event
  refine ⟨sound_step hw.sound event, fun q' hq' => ?_, fun r' hr' proof hproof => ?_, fun a ha =>
    ?_⟩
  · rw [hsettings]
    rcases hrequests.comes q' hq' with ⟨q, hq, hstep⟩ | ⟨call, monotonic, phase, -, harrives, rfl⟩
    · exact (hw.honest q hq).step hstep
    · exact RewardRequest.honest_of_arrives harrives
  · rw [hsettings]
    rcases proof_origin hw event hr' hproof with ⟨r, hr, hid, hproof⟩ |
      ⟨q, hq, hvouches, clock, render, rfl, hopen, hmarked⟩
    · -- the request that recorded the proof has kept its mark
      obtain ⟨q, hq, hmarked, hvouches⟩ := hw.vouched r hr proof hproof
      obtain ⟨q', hq', hstep⟩ := hrequests.goes q hq
      obtain ⟨r'', hr'', hcontinues⟩ := continues_step parser hw.sound event
        (KeyedTable.find?_of_mem hr)
      obtain rfl := KeyedTable.ext_key _ (KeyedTable.mem_of_find? hr'') hr'
        ((KeyedTable.key_of_find? hr'').trans hid)
      rw [← hid, hcontinues.telegramUserId]
      exact ⟨q', hq', (hw.honest q hq).marked_step hstep hmarked, hvouches.step hstep⟩
    · exact ⟨_, mem_requests_transact parser hq hopen clock render, hmarked,
        hvouches.step (.transacted q clock render hopen rfl)⟩
  · obtain ⟨r, hr, huser⟩ : ∃ r, w.system.db.rewardSessions.find? a.sessionId = some r ∧
        a.prepared.telegramUserId = r.telegramUserId := by
      rcases attempt_origin event ha with ⟨a₀, ha₀, hsession, hprepared⟩ | h
      · rw [← hsession, ← hprepared]
        exact hw.addressed a₀ ha₀
      · exact h
    obtain ⟨r', hr', hcontinues⟩ := continues_step parser hw.sound event hr
    exact ⟨r', hr', huser.trans hcontinues.telegramUserId.symm⟩

/-! ### The theorem -/

/-- **Every film is paid for.**  Whatever requests come in, in whatever order their handlers and the
rest of the application run, and wherever the database fails or a crash hits them, every film that
Telegram has been asked for goes to the user of a session that this user has claimed and that the ad
network has confirmed; and a user has no more such sessions than the network has confirmed ads. -/
theorem every_film_is_paid_for (parser : ArchiveParser) (web : WebSettings) (settings : Settings)
    (archive : ArchiveTables) (events : List WebEvent) :
    ((initial web settings archive).after parser events).PaidFor :=
  Paid.paidFor <|
    Transition.run_invariant (fun _ event hw => hw.step event)
      (initial_paid web settings archive) events

end WebWorld
end CineGate
